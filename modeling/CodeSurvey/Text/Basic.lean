/-!
# Texts

A `Text` is the content of a file, or a piece of it, as a list of characters. Names and paths that
are reported are `String`s; the two meet in `String.ofList` and `String.toList`.

Every function here that may meet a whole file runs in constant stack.
-/

namespace CodeSurvey

abbrev Text := List Char

namespace Text

def of (s : String) : Text := s.toList

/-- Whether `needle` occurs somewhere in the text. -/
def has (text needle : Text) : Bool :=
  match text with
  | [] => needle.isEmpty
  | c :: rest => needle.isPrefixOf (c :: rest) || has rest needle

/-- The text from the first occurrence of `needle` on. -/
def fromFirst? (text needle : Text) : Option Text :=
  match text with
  | [] => if needle.isEmpty then some [] else none
  | c :: rest => if needle.isPrefixOf (c :: rest) then some (c :: rest) else fromFirst? rest needle

/-- The text before the first occurrence of `needle`; all of it if there is none. -/
def before (text needle : Text) : Text :=
  match fromFirst? text needle with
  | some rest => text.take (text.length - rest.length)
  | none => text

/-- The pieces between the separators, one more than there are separators. -/
def splitOn (text : Text) (isSeparator : Char → Bool) : List Text :=
  go text [] []
where
  go : Text → Text → List Text → List Text
    | [], piece, done => (piece.reverse :: done).reverse
    | c :: rest, piece, done =>
      if isSeparator c then go rest [] (piece.reverse :: done) else go rest (c :: piece) done

/-- Replaces each occurrence of `old`, from left to right; an empty `old` occurs nowhere. -/
def replace (text old new : Text) : Text :=
  go text 0 []
where
  /-- `skip` characters of an occurrence are still to be passed over. -/
  go : Text → Nat → Text → Text
    | [], _, done => done.reverse
    | _ :: rest, skip + 1, done => go rest skip done
    | c :: rest, 0, done =>
      if !old.isEmpty && old.isPrefixOf (c :: rest) then
        go rest (old.length - 1) (new.reverse ++ done)
      else
        go rest 0 (c :: done)

/-- Drops the characters of the class from the end. -/
def trimRightBy (text : Text) (drop : Char → Bool) : Text :=
  (text.reverse.dropWhile drop).reverse

/-- Drops the characters of the class from both ends. -/
def trimBy (text : Text) (drop : Char → Bool) : Text :=
  trimRightBy (text.dropWhile drop) drop

/-- The text without `ending`, if it ends so. -/
def withoutEnding? (text ending : Text) : Option Text :=
  if ending.isSuffixOf text then some (text.take (text.length - ending.length)) else none

/-- The pieces with `separator` between neighbours. -/
def joinWith (separator : Text) (pieces : List Text) : Text :=
  (pieces.intersperse separator).flatten

end Text

/-- The entries that are not empty, each at its first place only. -/
def unique (names : List String) : List String := (names.filter (!·.isEmpty)).eraseDups

end CodeSurvey
