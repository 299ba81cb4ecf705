import CodeSurvey.Glob
import CodeSurvey.Proofs.Location
import Mathlib.Data.List.Chain

/-!
# Globs, segment by segment

A pattern is written as segments with slashes between them, and a path is matched segment by
segment: two stars stand for any number of whole segments, at the end of the pattern for one at
least, and every other segment of the pattern for exactly one (`Glob.Matches`). A glob knows no
segments; its pieces run over the characters of the whole path. `Glob.ofSegments` is the glob that
is read from the segments (`Glob.read_go_written`), and it fits a path exactly if the segments match
(`Glob.fits_ofSegments_iff`).
-/

namespace CodeSurvey.Glob

open Text (joinWith_append joinWith_cons_cons joinWith_singleton)

/-! ## Patterns in segments -/

/-- A part of a segment of a pattern. -/
inductive Part where
  | char (c : Char)
  | single
  | run
  | choice (options : List Text)
  deriving DecidableEq

/-- A segment of a pattern. -/
inductive Segment where
  /-- Two stars. -/
  | stars
  | one (parts : List Part)
  deriving DecidableEq

/-- The text that is written for a part. -/
def Part.written : Part → Text
  | char c => [c]
  | single => ['?']
  | run => ['*']
  | choice options => '{' :: (Text.joinWith [','] options ++ ['}'])

def Segment.written : Segment → Text
  | stars => ['*', '*']
  | one parts => parts.flatMap Part.written

/-- The text that is written for a pattern. -/
def written (pattern : List Segment) : Text := Text.joinWith ['/'] (pattern.map Segment.written)

/-- Whether a part is written without characters that mean something else: no character that starts
another part or ends the segment, and no option that ends early or leaves the segment. -/
def Part.IsLegible : Part → Prop
  | char c => c ∉ ['*', '?', '{', '/']
  | choice options => options ≠ [] ∧ ∀ option ∈ options, ∀ c ∈ option, c ∉ [',', '/', '}']
  | _ => True

/-- Whether the parts of a segment are legible, and no two runs stand side by side. -/
def Segment.IsLegible : Segment → Prop
  | stars => True
  | one parts => (∀ part ∈ parts, part.IsLegible) ∧
    parts.IsChain fun part next => ¬ (part = .run ∧ next = .run)

instance : DecidablePred Part.IsLegible
  | .char c => inferInstanceAs (Decidable (c ∉ _))
  | .choice options =>
    have (option : Text) : Decidable (∀ c ∈ option, c ∉ [',', '/', '}']) :=
      List.decidableBAll (fun c => c ∉ _) option
    inferInstanceAs (Decidable (options ≠ [] ∧ ∀ option ∈ options, _))
  | .single => isTrue trivial
  | .run => isTrue trivial

instance : DecidablePred Segment.IsLegible
  | .stars => isTrue trivial
  | .one parts => inferInstanceAs (Decidable ((∀ part ∈ parts, _) ∧ _))

/-! ## Matching -/

/-- Whether the parts of a segment stand for a text. -/
inductive Spells : List Part → Text → Prop
  | nil : Spells [] []
  | char {c : Char} {parts : List Part} {text : Text} (later : Spells parts text) :
      Spells (.char c :: parts) (c :: text)
  | single {c : Char} {parts : List Part} {text : Text} (later : Spells parts text) :
      Spells (.single :: parts) (c :: text)
  | run {chars : Text} {parts : List Part} {text : Text} (later : Spells parts text) :
      Spells (.run :: parts) (chars ++ text)
  | choice {option : Text} {options : List Text} {parts : List Part} {text : Text}
      (member : option ∈ options) (later : Spells parts text) :
      Spells (.choice options :: parts) (option ++ text)

/-- Whether the segments of a pattern match those of a path. -/
inductive Matches : List Segment → List Text → Prop
  | nil : Matches [] []
  | one {parts : List Part} {pattern : List Segment} {name : Text} {names : List Text}
      (spells : Spells parts name) (later : Matches pattern names) :
      Matches (.one parts :: pattern) (name :: names)
  | many {pattern : List Segment} {inner names : List Text} (inside : pattern ≠ [])
      (later : Matches pattern names) : Matches (.stars :: pattern) (inner ++ names)
  | last {names : List Text} (full : names ≠ []) : Matches [.stars] names

/-! ## Reading -/

def Part.piece : Part → GlobPiece
  | char c => .char c
  | single => .single
  | run => .run
  | choice options => .choice options

/-- The glob of a pattern in segments. -/
def ofSegments : List Segment → Glob
  | [] => []
  | [.stars] => [.anything]
  | .stars :: second :: rest => .segments :: ofSegments (second :: rest)
  | [.one parts] => parts.map Part.piece
  | .one parts :: second :: rest =>
    parts.map Part.piece ++ .char '/' :: ofSegments (second :: rest)

theorem written_singleton (segment : Segment) : written [segment] = segment.written := by
  rw [written, List.map_singleton, joinWith_singleton]

theorem written_cons_cons (first second : Segment) (rest : List Segment) :
    written (first :: second :: rest) = first.written ++ '/' :: written (second :: rest) := by
  rw [written, List.map_cons, List.map_cons, joinWith_cons_cons, List.append_assoc]
  rfl

theorem read_go_skip (passed rest : Text) :
    read.go (passed ++ rest) passed.length = read.go rest 0 := by
  induction passed with
  | nil => rfl
  | cons c passed ih => exact ih

theorem group?_closed {body : Text} (inside : '}' ∉ body) (rest : Text) :
    group? (body ++ '}' :: rest) = some body := by
  have stops : (body ++ '}' :: rest).takeWhile (· != '}') = body := by
    rw [List.takeWhile_append_of_pos fun c member => by
      simpa using fun same : c = '}' => inside (same ▸ member)]
    simp
  rw [group?, stops, if_pos (by simp)]

theorem splitOn_joinWith {options : List Text} (full : options ≠ [])
    (inside : ∀ option ∈ options, ',' ∉ option) :
    (Text.joinWith [','] options).splitOn (· == ',') = options := by
  have pieces := List.splitOn_intercalate ',' inside full
  rwa [List.splitOn_eq_splitOnP, ← Text.splitOn_eq_splitOnP] at pieces

theorem not_mem_joinWith {c : Char} {separator : Text} {options : List Text}
    (outside : c ∉ separator) (inside : ∀ option ∈ options, c ∉ option) :
    c ∉ Text.joinWith separator options := by
  induction options with
  | nil => simp [Text.joinWith]
  | cons first rest ih =>
    obtain ⟨head, inside⟩ := List.forall_mem_cons.1 inside
    cases rest with
    | nil => simpa [Text.joinWith] using head
    | cons second rest =>
      rw [joinWith_cons_cons, List.mem_append, List.mem_append, not_or, not_or]
      exact ⟨⟨head, outside⟩, ih inside⟩

/-- The first part is read off a text that starts with it. A run must not be taken for two stars. -/
theorem read_go_part {part : Part} (legible : part.IsLegible) {rest : Text}
    (apart : part = .run → rest.head? ≠ some '*') :
    read.go (part.written ++ rest) 0 = part.piece :: read.go rest 0 := by
  cases part with
  | char c =>
    simp only [Part.IsLegible, List.mem_cons, not_or] at legible
    simp [Part.written, read.go, legible, Part.piece]
  | single => rfl
  | run =>
    have noStar : ['*'].isPrefixOf rest = false ∧ ['*', '/'].isPrefixOf rest = false := by
      cases rest with
      | nil => simp
      | cons c rest => simp_all [List.isPrefixOf, Ne.symm]
    simp [Part.written, read.go, noStar, Part.piece]
  | choice options =>
    obtain ⟨full, inside⟩ := legible
    have commas : ∀ option ∈ options, ',' ∉ option := fun option member here =>
      inside option member _ here (by simp)
    have braces : '}' ∉ Text.joinWith [','] options :=
      not_mem_joinWith (by simp) fun option member here => inside option member _ here (by simp)
    have skipped := read_go_skip (Text.joinWith [','] options ++ ['}']) rest
    rw [List.append_assoc, List.length_append] at skipped
    have body : Part.written (.choice options) ++ rest =
        '{' :: (Text.joinWith [','] options ++ '}' :: rest) := by simp [Part.written]
    rw [body, read.go]
    simpa [group?_closed braces, splitOn_joinWith full commas, Part.piece] using skipped

theorem Part.eq_run_of_head? {part : Part} (legible : part.IsLegible)
    (star : part.written.head? = some '*') : part = .run := by
  cases part with
  | run => rfl
  | char c =>
    simp only [Part.IsLegible, List.mem_cons, not_or] at legible
    exact absurd (Option.some.inj star) legible.1
  | single => simp [Part.written] at star
  | choice options => simp [Part.written] at star

theorem Part.written_ne_nil (part : Part) : part.written ≠ [] := by
  cases part <;> simp [Part.written]

theorem read_go_parts {parts : List Part} (legible : (Segment.one parts).IsLegible) {rest : Text}
    (apart : rest.head? ≠ some '*') :
    read.go ((Segment.one parts).written ++ rest) 0 =
      parts.map Part.piece ++ read.go rest 0 := by
  obtain ⟨legible, chain⟩ := legible
  rw [Segment.written]
  induction parts with
  | nil => rfl
  | cons part later ih =>
    obtain ⟨first, legible⟩ := List.forall_mem_cons.1 legible
    rw [List.flatMap_cons, List.append_assoc, read_go_part first, ih legible chain.tail]
    · rfl
    intro run star
    cases later with
    | nil => exact apart star
    | cons next _ =>
      -- the text goes on with what is written for the next part, which is not a run
      refine (List.isChain_cons_cons.1 chain).1 ⟨run, ?_⟩
      refine Part.eq_run_of_head? (legible next (.head _)) ?_
      rwa [List.flatMap_cons, List.append_assoc,
        List.head?_append_of_ne_nil _ next.written_ne_nil] at star

/-- What is written for legible segments is read back as their glob. -/
theorem read_go_written {pattern : List Segment} (legible : ∀ s ∈ pattern, s.IsLegible) :
    read.go (written pattern) 0 = ofSegments pattern := by
  fun_induction ofSegments pattern with
  | case1 => rfl
  | case2 => rfl
  | case3 second rest ih =>
    rw [written_cons_cons]
    exact congrArg (.segments :: ·) (ih (List.forall_mem_cons.1 legible).2)
  | case4 parts =>
    have apart : ([] : Text).head? ≠ some '*' := nofun
    have reading := read_go_parts (List.forall_mem_singleton.1 legible) apart
    rwa [List.append_nil, ← written_singleton, read.go, List.append_nil] at reading
  | case5 parts second rest ih =>
    obtain ⟨first, legible⟩ := List.forall_mem_cons.1 legible
    rw [written_cons_cons, read_go_parts first (by simp), ← ih legible]
    rfl

/-- A pattern without the space around it and one leading `./`. -/
def bare (text : Text) : Text :=
  if ['.', '/'].isPrefixOf text.trim then text.trim.drop 2 else text.trim

theorem read_eq_of_bare {text : Text} {pattern : List Segment} (h : bare text = written pattern)
    (legible : ∀ s ∈ pattern, s.IsLegible) : read text = ofSegments pattern := by
  rw [← read_go_written legible, ← h]
  rfl

/-! ## Fitting -/

theorem mem_tails {ok : Char → Bool} {text tail : Text} :
    tail ∈ tails ok text ↔ ∃ passed, text = passed ++ tail ∧ ∀ c ∈ passed, ok c = true := by
  induction text with
  | nil =>
    simp only [tails, List.mem_singleton]
    constructor
    · rintro rfl
      exact ⟨[], rfl, nofun⟩
    · rintro ⟨passed, split, -⟩
      exact (List.append_eq_nil_iff.1 split.symm).2
  | cons c rest ih =>
    rw [tails, List.mem_cons]
    constructor
    · rintro (rfl | later)
      · exact ⟨[], rfl, nofun⟩
      · split at later
        · next accepted =>
          obtain ⟨passed, rfl, all⟩ := ih.1 later
          exact ⟨c :: passed, rfl, List.forall_mem_cons.2 ⟨accepted, all⟩⟩
        · cases later
    · rintro ⟨_ | ⟨d, passed⟩, split, all⟩
      · exact .inl split.symm
      · obtain ⟨rfl, rfl⟩ := List.cons.inj split
        obtain ⟨accepted, all⟩ := List.forall_mem_cons.1 all
        rw [if_pos accepted]
        exact .inr (ih.2 ⟨passed, rfl, all⟩)

theorem mem_afterSlashes {text tail : Text} :
    tail ∈ afterSlashes text ↔ ∃ passed, text = passed ++ '/' :: tail ∧ '\n' ∉ passed := by
  induction text with
  | nil => simp [afterSlashes]
  | cons c rest ih =>
    rw [afterSlashes]
    split
    · next feed =>
      simp only [List.not_mem_nil, false_iff]
      rintro ⟨_ | ⟨d, passed⟩, split, oneLine⟩
      · obtain ⟨rfl, -⟩ := List.cons.inj split
        exact absurd feed (by decide)
      · obtain ⟨rfl, -⟩ := List.cons.inj split
        exact oneLine (feed ▸ .head _)
    · next here =>
      constructor
      · intro member
        split at member
        · next slash =>
          rcases List.mem_cons.1 member with rfl | later
          · exact ⟨[], by rw [slash]; rfl, nofun⟩
          · obtain ⟨passed, rfl, oneLine⟩ := ih.1 later
            exact ⟨c :: passed, rfl, by simp [oneLine, Ne.symm here]⟩
        · obtain ⟨passed, rfl, oneLine⟩ := ih.1 member
          exact ⟨c :: passed, rfl, by simp [oneLine, Ne.symm here]⟩
      · rintro ⟨_ | ⟨d, passed⟩, split, oneLine⟩
        · obtain ⟨rfl, rfl⟩ := List.cons.inj split
          rw [if_pos rfl]
          exact .head _
        · obtain ⟨rfl, rfl⟩ := List.cons.inj split
          have later := ih.2 ⟨passed, rfl, fun feed => oneLine (.tail _ feed)⟩
          split
          · exact .tail _ later
          · exact later

theorem spells_cons_iff {part : Part} {parts : List Part} {text : Text} :
    Spells (part :: parts) text ↔
      ∃ head rest, text = head ++ rest ∧ Spells [part] head ∧ Spells parts rest := by
  constructor
  · intro spells
    cases spells with
    | char later => exact ⟨[_], _, rfl, .char .nil, later⟩
    | single later => exact ⟨[_], _, rfl, .single .nil, later⟩
    | @run chars _ rest later => exact ⟨chars, rest, rfl, by simpa using Spells.run .nil, later⟩
    | @choice option _ _ rest member later =>
      exact ⟨option, rest, rfl, by simpa using Spells.choice member .nil, later⟩
  · rintro ⟨_, rest, rfl, first, later⟩
    cases first with
    | char none => cases none; exact .char later
    | single none => cases none; exact .single later
    | run none => cases none; rw [List.append_nil]; exact .run later
    | choice member none => cases none; rw [List.append_nil]; exact .choice member later

/-- The piece of a part stands for a beginning of the text within one segment. -/
theorem fits_piece {part : Part} (legible : part.IsLegible) {later : Glob} {text : Text} :
    fits (part.piece :: later) text = true ↔
      ∃ head rest, text = head ++ rest ∧ '/' ∉ head ∧ Spells [part] head ∧
        fits later rest = true := by
  cases part with
  | char c =>
    have noSlash : '/' ∉ [c] := by
      simp only [Part.IsLegible, List.mem_cons, not_or] at legible
      simpa using Ne.symm legible.2.2.2.1
    constructor
    · intro fit
      cases text with
      | nil => cases fit
      | cons d text =>
        rw [Part.piece, fits, Bool.and_eq_true, beq_iff_eq] at fit
        obtain ⟨rfl, fit⟩ := fit
        exact ⟨[c], text, rfl, noSlash, .char .nil, fit⟩
    · rintro ⟨_, rest, rfl, -, spells, fit⟩
      cases spells with | char none => ?_
      cases none
      exact Bool.and_eq_true_iff.2 ⟨beq_self_eq_true c, fit⟩
  | single =>
    constructor
    · intro fit
      cases text with
      | nil => cases fit
      | cons d text =>
        rw [Part.piece, fits, Bool.and_eq_true, bne_iff_ne] at fit
        exact ⟨[d], text, rfl, by simpa using Ne.symm fit.1, .single .nil, fit.2⟩
    · rintro ⟨_, rest, rfl, inside, spells, fit⟩
      cases spells with | single none => ?_
      cases none
      have within := Ne.symm (mt List.mem_singleton.2 inside)
      exact Bool.and_eq_true_iff.2 ⟨bne_iff_ne.2 within, fit⟩
  | run =>
    rw [Part.piece, fits, List.any_eq_true]
    constructor
    · rintro ⟨tail, member, fit⟩
      obtain ⟨passed, rfl, within⟩ := mem_tails.1 member
      have inside : '/' ∉ passed := fun slash => by simpa using within _ slash
      exact ⟨passed, tail, rfl, inside, by simpa using Spells.run .nil, fit⟩
    · rintro ⟨head, rest, rfl, inside, -, fit⟩
      refine ⟨rest, mem_tails.2 ⟨head, rfl, fun c member => ?_⟩, fit⟩
      exact bne_iff_ne.2 fun slash => inside (slash ▸ member)
  | choice options =>
    rw [Part.piece, fits, List.any_eq_true]
    constructor
    · rintro ⟨option, member, fit⟩
      obtain ⟨starts, fit⟩ := Bool.and_eq_true_iff.1 fit
      obtain ⟨rest, rfl⟩ := List.isPrefixOf_iff_prefix.1 starts
      rw [List.drop_left] at fit
      have inside : '/' ∉ option := fun slash => legible.2 option member _ slash (by simp)
      exact ⟨option, rest, rfl, inside, by simpa using Spells.choice member .nil, fit⟩
    · rintro ⟨_, rest, rfl, -, spells, fit⟩
      cases spells with | @choice option _ _ _ member none => ?_
      cases none
      rw [List.append_nil]
      refine ⟨option, member, Bool.and_eq_true_iff.2 ⟨?_, by rwa [List.drop_left]⟩⟩
      exact List.isPrefixOf_iff_prefix.2 (List.prefix_append ..)

/-- Pieces of parts stand for a beginning of the text within one segment. -/
theorem fits_parts {parts : List Part} (legible : ∀ part ∈ parts, part.IsLegible) {later : Glob}
    {text : Text} :
    fits (parts.map Part.piece ++ later) text = true ↔
      ∃ head rest, text = head ++ rest ∧ '/' ∉ head ∧ Spells parts head ∧
        fits later rest = true := by
  induction parts generalizing text with
  | nil =>
    constructor
    · exact fun fit => ⟨[], text, rfl, nofun, .nil, fit⟩
    · rintro ⟨_, rest, rfl, -, ⟨⟩, fit⟩
      exact fit
  | cons part parts ih =>
    obtain ⟨first, legible⟩ := List.forall_mem_cons.1 legible
    rw [List.map_cons, List.cons_append, fits_piece first]
    constructor
    · rintro ⟨head, _, rfl, inside, spells, fit⟩
      obtain ⟨next, rest, rfl, inside', spells', fit⟩ := (ih legible).1 fit
      refine ⟨head ++ next, rest, (List.append_assoc ..).symm, ?_, ?_, fit⟩
      · rw [List.mem_append, not_or]
        exact ⟨inside, inside'⟩
      · exact spells_cons_iff.2 ⟨head, next, rfl, spells, spells'⟩
    · rintro ⟨_, rest, rfl, inside, spells, fit⟩
      obtain ⟨head, next, rfl, first, later⟩ := spells_cons_iff.1 spells
      rw [List.mem_append, not_or] at inside
      refine ⟨head, next ++ rest, List.append_assoc .., inside.1, first, ?_⟩
      exact (ih legible).2 ⟨next, rest, rfl, inside.2, later, fit⟩

/-! ## Segments of the path -/

/-- A slash in a path stands between two of its segments. -/
theorem joinWith_split {names : List Text} (noSlash : ∀ name ∈ names, '/' ∉ name)
    {before after : Text} (h : Text.joinWith ['/'] names = before ++ '/' :: after) :
    ∃ pre post, names = pre ++ post ∧ pre ≠ [] ∧ post ≠ [] ∧
      before = Text.joinWith ['/'] pre ∧ after = Text.joinWith ['/'] post := by
  induction names generalizing before with
  | nil => simp [Text.joinWith] at h
  | cons first rest ih =>
    obtain ⟨here, noSlash⟩ := List.forall_mem_cons.1 noSlash
    cases rest with
    | nil =>
      rw [joinWith_singleton] at h
      exact absurd (by simp [h]) here
    | cons second rest =>
      rw [joinWith_cons_cons, List.append_assoc, List.append_eq_append_iff] at h
      rcases h with ⟨gap, rfl, h⟩ | ⟨gap, rfl, h⟩
      · cases gap with
        | nil =>
          rw [List.append_nil]
          refine ⟨[first], second :: rest, rfl, by simp, by simp, (joinWith_singleton ..).symm, ?_⟩
          exact (List.cons.inj h).2.symm
        | cons slash gap =>
          obtain ⟨pre, post, names, someBefore, someAfter, inside, rfl⟩ :=
            ih noSlash (List.cons.inj h).2
          refine ⟨first :: pre, post, by rw [names]; rfl, by simp, someAfter, ?_, rfl⟩
          obtain ⟨next, pre, rfl⟩ := List.exists_cons_of_ne_nil someBefore
          rw [joinWith_cons_cons, ← inside, List.append_assoc]
          exact congrArg (first ++ · :: gap) (List.cons.inj h).1.symm
      · cases gap with
        | nil =>
          rw [List.append_nil]
          refine ⟨[before], second :: rest, rfl, by simp, by simp, (joinWith_singleton ..).symm, ?_⟩
          exact (List.cons.inj h).2
        | cons slash gap =>
          obtain ⟨rfl, -⟩ := List.cons.inj h
          exact absurd (List.mem_append_right _ (.head _)) here

theorem Matches.nil_names {pattern : List Segment} (h : Matches pattern []) : pattern = [] := by
  generalize none : ([] : List Text) = names at h
  induction h with
  | nil => rfl
  | one => cases none
  | many inside _ ih => exact absurd (ih (List.append_eq_nil_iff.1 none.symm).2.symm) inside
  | last full => exact absurd none.symm full

/-- A text that segments of a path can have. -/
def IsSegment (name : Text) : Prop := name ≠ [] ∧ '/' ∉ name ∧ '\n' ∉ name

theorem joinWith_ne_nil {names : List Text} (someName : names ≠ [])
    (proper : ∀ name ∈ names, IsSegment name) : Text.joinWith ['/'] names ≠ [] := by
  obtain ⟨first, rest, rfl⟩ := List.exists_cons_of_ne_nil someName
  have full := (proper first (.head _)).1
  cases rest with
  | nil => rwa [joinWith_singleton]
  | cons second rest =>
    rw [joinWith_cons_cons]
    exact fun none => full (List.append_eq_nil_iff.1 (List.append_eq_nil_iff.1 none).1).1

/-- Two stars with a slash after them skip any number of segments of the path, up to the first that
has a line feed. -/
theorem fits_segments_iff {glob : Glob} {names : List Text} (someName : names ≠ [])
    (noSlash : ∀ name ∈ names, '/' ∉ name) :
    fits (.segments :: glob) (Text.joinWith ['/'] names) = true ↔
      ∃ inner later, names = inner ++ later ∧ later ≠ [] ∧ (∀ name ∈ inner, '\n' ∉ name) ∧
        fits glob (Text.joinWith ['/'] later) = true := by
  rw [fits, Bool.or_eq_true, List.any_eq_true]
  constructor
  · rintro (fit | ⟨tail, member, fit⟩)
    · exact ⟨[], names, rfl, someName, nofun, fit⟩
    · obtain ⟨passed, split, oneLine⟩ := mem_afterSlashes.1 member
      obtain ⟨pre, post, names, -, someAfter, rfl, rfl⟩ := joinWith_split noSlash split
      have plain (name : Text) (member : name ∈ pre) : '\n' ∉ name := fun feed =>
        oneLine ((Text.infix_joinWith member).subset feed)
      exact ⟨pre, post, names, someAfter, plain, fit⟩
  · rintro ⟨inner, later, rfl, someAfter, plain, fit⟩
    by_cases someBefore : inner = []
    · exact .inl (by rwa [someBefore])
    · have oneLine : '\n' ∉ Text.joinWith ['/'] inner := not_mem_joinWith (by decide) plain
      have split := joinWith_append someBefore someAfter
      exact .inr ⟨_, mem_afterSlashes.2 ⟨_, split, oneLine⟩, fit⟩

/-- Parts with a slash after them take the first segment of the path. -/
theorem fits_one_iff {parts : List Part} (legible : ∀ part ∈ parts, part.IsLegible) {glob : Glob}
    {names : List Text} (someName : names ≠ []) (noSlash : ∀ name ∈ names, '/' ∉ name) :
    fits (parts.map Part.piece ++ .char '/' :: glob) (Text.joinWith ['/'] names) = true ↔
      ∃ name later, names = name :: later ∧ later ≠ [] ∧ Spells parts name ∧
        fits glob (Text.joinWith ['/'] later) = true := by
  rw [fits_parts legible]
  constructor
  · rintro ⟨head, _ | ⟨slash, tail⟩, split, inside, spells, fit⟩
    · cases fit
    · rw [fits, Bool.and_eq_true, beq_iff_eq] at fit
      obtain ⟨rfl, fit⟩ := fit
      obtain ⟨pre, post, rfl, someBefore, someAfter, rfl, rfl⟩ :=
        joinWith_split noSlash split
      -- no slash stands before this one, so one segment does
      obtain ⟨name, later, rfl⟩ := List.exists_cons_of_ne_nil someBefore
      cases later with
      | nil => exact ⟨name, post, rfl, someAfter, joinWith_singleton ['/'] name ▸ spells, fit⟩
      | cons next later =>
        rw [joinWith_cons_cons] at inside
        exact absurd (by simp) inside
  · rintro ⟨name, later, rfl, someAfter, spells, fit⟩
    have split := joinWith_append (List.cons_ne_nil name []) someAfter
    rw [joinWith_singleton] at split
    refine ⟨name, _, split, noSlash name (.head _), spells, ?_⟩
    rwa [fits, beq_self_eq_true, Bool.true_and]

/-- Parts without anything after them take a path of one segment. -/
theorem fits_last_iff {parts : List Part} (legible : ∀ part ∈ parts, part.IsLegible)
    {names : List Text} (someName : names ≠ []) (noSlash : ∀ name ∈ names, '/' ∉ name) :
    fits (parts.map Part.piece) (Text.joinWith ['/'] names) = true ↔
      ∃ name, names = [name] ∧ Spells parts name := by
  rw [← List.append_nil (parts.map Part.piece), fits_parts legible]
  constructor
  · rintro ⟨head, rest, split, inside, spells, fit⟩
    obtain rfl := List.isEmpty_iff.1 fit
    rw [List.append_nil] at split
    obtain ⟨name, later, rfl⟩ := List.exists_cons_of_ne_nil someName
    cases later with
    | nil =>
      rw [joinWith_singleton] at split
      exact ⟨name, rfl, split ▸ spells⟩
    | cons second later =>
      rw [joinWith_cons_cons] at split
      exact absurd (by simp [← split]) inside
  · rintro ⟨name, rfl, spells⟩
    exact ⟨name, [], by rw [joinWith_singleton, List.append_nil],
      noSlash name (.head _), spells, rfl⟩

/-- The glob of legible segments fits a path exactly if the segments match the path's. -/
theorem fits_ofSegments_iff {pattern : List Segment} (legible : ∀ s ∈ pattern, s.IsLegible)
    {names : List Text} (someName : names ≠ []) (proper : ∀ name ∈ names, IsSegment name) :
    fits (ofSegments pattern) (Text.joinWith ['/'] names) = true ↔ Matches pattern names := by
  fun_induction ofSegments pattern generalizing names with
  | case1 =>
    constructor
    · intro fit
      exact absurd (List.isEmpty_iff.1 fit) (joinWith_ne_nil someName proper)
    · rintro ⟨⟩
      exact absurd rfl someName
  | case2 =>
    refine ⟨fun _ => .last someName, fun _ => ?_⟩
    -- the stars take the whole path
    refine List.any_eq_true.2 ⟨[], mem_tails.2 ⟨_, (List.append_nil _).symm, ?_⟩, rfl⟩
    have oneLine : '\n' ∉ Text.joinWith ['/'] names :=
      not_mem_joinWith (by simp) fun name member => (proper name member).2.2
    exact fun c member => bne_iff_ne.2 fun feed => oneLine (feed ▸ member)
  | case3 second rest ih =>
    rw [fits_segments_iff someName fun name member => (proper name member).2.1]
    have ih := fun {later} => @ih (List.forall_mem_cons.1 legible).2 later
    constructor
    · rintro ⟨inner, later, rfl, someAfter, -, fit⟩
      exact .many nofun ((ih someAfter (List.forall_mem_append.1 proper).2).1 fit)
    · intro h
      cases h with | @many _ inner later _ matched => ?_
      have someAfter : later ≠ [] := by
        rintro rfl
        exact absurd matched.nil_names nofun
      obtain ⟨above, below⟩ := List.forall_mem_append.1 proper
      exact ⟨inner, later, rfl, someAfter, fun name member => (above name member).2.2,
        (ih someAfter below).2 matched⟩
  | case4 parts =>
    rw [fits_last_iff (List.forall_mem_singleton.1 legible).1 someName
      fun name member => (proper name member).2.1]
    constructor
    · rintro ⟨name, rfl, spells⟩
      exact .one spells .nil
    · intro h
      cases h with | @one _ _ name _ spells matched => ?_
      cases matched
      exact ⟨name, rfl, spells⟩
  | case5 parts second rest ih =>
    obtain ⟨first, legible⟩ := List.forall_mem_cons.1 legible
    rw [fits_one_iff first.1 someName fun name member => (proper name member).2.1]
    constructor
    · rintro ⟨name, later, rfl, someAfter, spells, fit⟩
      exact .one spells ((ih legible someAfter (List.forall_mem_cons.1 proper).2).1 fit)
    · intro h
      cases h with | @one _ _ name later spells matched => ?_
      have someAfter : later ≠ [] := by
        rintro rfl
        exact absurd matched.nil_names nofun
      have below := (List.forall_mem_cons.1 proper).2
      exact ⟨name, later, rfl, someAfter, spells, (ih legible someAfter below).2 matched⟩

/-! ## Selecting -/

theorem not_mem_of_mem_splitOn {c : Char} {text piece : Text} (h : piece ∈ List.splitOn c text) :
    c ∉ piece := by
  rw [List.splitOn_eq_splitOnP] at h
  intro member
  simpa using (Text.mem_of_mem_splitOnP h c member).2

/-- The segments of a path of one line are as they are matched, if none is empty. -/
theorem isSegment_of_mem {path : String} (full : "" ∉ segments path)
    (oneLine : '\n' ∉ path.toList) :
    ∀ name ∈ (segments path).map String.toList, IsSegment name := by
  intro name member
  have noSlash := not_mem_of_mem_splitOn (map_segments path ▸ member)
  obtain ⟨segment, listed, rfl⟩ := List.mem_map.1 member
  refine ⟨fun none => full ?_, noSlash, fun feed => oneLine ?_⟩
  · rwa [String.toList_eq_nil_iff.1 none] at listed
  · exact intercalate_segments path ▸ mem_intercalate_of_mem listed feed

/-- A pattern keeps of any list of paths those with a property, in their order and as often as they
are listed. If the pattern is written in legible segments, a path has the property exactly if its
segments match. -/
theorem select_eq_filter_matches (pattern : String) :
    ∃ keeps : String → Bool, (∀ paths, select pattern paths = paths.filter keeps) ∧
      ∀ parsed : List Segment, (∀ s ∈ parsed, s.IsLegible) →
        bare (Text.of pattern) = written parsed →
        ∀ path : String, "" ∉ segments path → '\n' ∉ path.toList →
          (keeps path = true ↔ Matches parsed ((segments path).map String.toList)) := by
  refine ⟨fun path => (read pattern.toList).fits path.toList, fun paths => rfl, ?_⟩
  intro parsed legible writes path full oneLine
  have reading : read pattern.toList = ofSegments parsed := read_eq_of_bare writes legible
  have whole : path.toList = Text.joinWith ['/'] ((segments path).map String.toList) := by
    rw [map_segments]
    exact (List.intercalate_splitOn '/').symm
  have someSegment : (segments path).map String.toList ≠ [] := by
    simpa using segments_ne_nil path
  show (read pattern.toList).fits path.toList = true ↔ _
  rw [reading, whole]
  exact fits_ofSegments_iff legible someSegment (isSegment_of_mem full oneLine)

/-- Source files below a folder, in its folders or directly in it. -/
def sourcesBelow : List Segment :=
  [.one [.char 's', .char 'r', .char 'c'], .stars,
    .one [.run, .char '.', .choice [['t', 's'], ['t', 's', 'x']]]]

theorem sourcesBelow_matches :
    Matches sourcesBelow [['s', 'r', 'c'], ['a'], ['c', '.', 't', 's', 'x']] ∧
      ¬ Matches sourcesBelow [['l', 'i', 'b'], ['s', 'r', 'c'], ['b', '.', 't', 's']] := by
  obtain ⟨keeps, filters, refines⟩ := select_eq_filter_matches " ./src/**/*.{ts,tsx}"
  have refines := refines sourcesBelow (by decide) (by decide)
  have kept : "src/a/c.tsx" ∈ select " ./src/**/*.{ts,tsx}" ["src/a/c.tsx", "lib/src/b.ts"] := by
    decide
  have dropped : "lib/src/b.ts" ∉
      select " ./src/**/*.{ts,tsx}" ["src/a/c.tsx", "lib/src/b.ts"] := by
    decide
  rw [filters, List.mem_filter] at kept dropped
  constructor
  · exact (refines "src/a/c.tsx" (by decide) (by decide)).1 kept.2
  · intro matched
    exact dropped ⟨by decide, (refines "lib/src/b.ts" (by decide) (by decide)).2 matched⟩

end CodeSurvey.Glob
