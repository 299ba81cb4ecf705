import CodeSurvey.Root

/-!
# Hosts

Beside the disk, a survey depends on the machine that it runs on: on where its users are at home,
and on how deep a walk or a reader may call itself before its stack is used up.
-/

namespace CodeSurvey

/-- How deep what is gone through by recursion may nest. These numbers are none of a survey's own.
They depend on the stack of the machine and on how much of it is taken where the recursion starts,
so that there is one for each such place. -/
structure Depths where
  /-- Directories of a tree that is listed at the start of its survey. -/
  listing : Nat
  /-- Directories of a tree that is listed in order to find out its stack alone. Each check that
  lists the files does so from another place; the tree is listed for one check at most, and the
  number is the one for that check. -/
  detection : Nat
  /-- Folders of documents. -/
  documents : Nat
  /-- Sequences and mappings in settings. -/
  settings : Nat
  /-- Lists and maps in the manifest of a package that tells the stack. -/
  package : Nat
  /-- Lists and maps in a JSON manifest that is reported. -/
  json : Nat
  /-- Values in a TOML manifest that is reported. -/
  toml : Nat
  /-- Lists and maps in the body of a request. -/
  body : Nat
  /-- Values in an entry of a manifest, when an analysis is written in full. -/
  report : Nat

/-- The depths where a thousand calls may stand in each other and few of them are taken. -/
def Depths.usual : Depths where
  listing := 995
  detection := 991
  documents := 980
  settings := 480
  package := 988
  json := 988
  toml := 987
  body := 988
  report := 494

structure Host where
  homes : Homes
  depths : Depths

end CodeSurvey
