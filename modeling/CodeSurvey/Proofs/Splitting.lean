import CodeSurvey.Brackets
import CodeSurvey.Proofs.Text

/-!
# Entries between separators

`splitTopLevel` cuts a text at the separators at which all brackets count as closed. A text is
`Uncut` from some depth on if there is none. Pieces are uncut (`exists_pieces`), and so are entries
whose brackets are nested with the separators inside (`IsNested.uncut`). Hence entries that are
joined can be split again, and a piece is not split further (`splitTopLevel_undoes_joining`).
-/

namespace CodeSurvey

variable {isSeparator : Char → Bool}

/-! ## Depth -/

/-- Whether a character is a bracket of any kind. -/
def isBracket (c : Char) : Bool := isOpener c || isCloser c

/-- The number of open brackets after a text that starts at some depth. -/
def depthOver (depth : Nat) (text : Text) : Nat := text.foldl depthAfter depth

@[simp] theorem depthOver_nil (depth : Nat) : depthOver depth [] = depth := rfl

@[simp] theorem depthOver_cons (depth : Nat) (c : Char) (text : Text) :
    depthOver depth (c :: text) = depthOver (depthAfter depth c) text := rfl

@[simp] theorem depthOver_append (depth : Nat) (s t : Text) :
    depthOver depth (s ++ t) = depthOver (depthOver depth s) t := by
  simp [depthOver]

theorem depthAfter_other {c : Char} (other : isBracket c = false) (depth : Nat) :
    depthAfter depth c = depth := by
  obtain ⟨notOpener, notCloser⟩ := Bool.or_eq_false_iff.1 other
  simp [depthAfter, notOpener, notCloser]

theorem depthOver_others {text : Text} (others : ∀ c ∈ text, isBracket c = false) (depth : Nat) :
    depthOver depth text = depth := by
  induction text with
  | nil => rfl
  | cons c text ih =>
    obtain ⟨other, others⟩ := List.forall_mem_cons.1 others
    rw [depthOver_cons, depthAfter_other other, ih others]

theorem isBracket_of_isBlank {c : Char} (blank : isBlank c = true) : isBracket c = false := by
  rw [← Bool.not_eq_true]
  intro bracket
  have visible : isBlank c = false := isBlank_of_apart (by decide +kernel) bracket
  rw [visible] at blank
  cases blank

/-! ## Uncut texts -/

/-- Whether a text that starts at some depth has no separator outside all brackets. -/
def Uncut (isSeparator : Char → Bool) : Nat → Text → Prop
  | _, [] => True
  | depth, c :: rest =>
    ¬ (isSeparator c = true ∧ depthAfter depth c = 0) ∧
      Uncut isSeparator (depthAfter depth c) rest

theorem uncut_nil (depth : Nat) : Uncut isSeparator depth [] := trivial

theorem uncut_cons {depth : Nat} {c : Char} {rest : Text} :
    Uncut isSeparator depth (c :: rest) ↔
      ¬ (isSeparator c = true ∧ depthAfter depth c = 0) ∧
        Uncut isSeparator (depthAfter depth c) rest := Iff.rfl

instance decidableUncut : (depth : Nat) → (text : Text) → Decidable (Uncut isSeparator depth text)
  | depth, [] => .isTrue (uncut_nil depth)
  | depth, c :: rest =>
    have := decidableUncut (depthAfter depth c) rest
    decidable_of_iff' _ uncut_cons

theorem uncut_append {depth : Nat} {s t : Text} : Uncut isSeparator depth (s ++ t) ↔
    Uncut isSeparator depth s ∧ Uncut isSeparator (depthOver depth s) t := by
  induction s generalizing depth with
  | nil => simp [uncut_nil]
  | cons c s ih =>
    rw [List.cons_append, uncut_cons, uncut_cons, ih, and_assoc]
    rfl

theorem uncut_of_forall {depth : Nat} {text : Text} (none : ∀ c ∈ text, isSeparator c = false) :
    Uncut isSeparator depth text := by
  induction text generalizing depth with
  | nil => exact uncut_nil depth
  | cons c text ih =>
    obtain ⟨other, others⟩ := List.forall_mem_cons.1 none
    refine ⟨fun cut => ?_, ih others⟩
    rw [other] at cut
    cases cut.1

/-! ## Pieces -/

/-- The pieces that a text which starts at some depth is cut into. -/
def pieces (isSeparator : Char → Bool) (depth : Nat) (text : Text) : List Text :=
  splitTopLevel.go isSeparator text depth [] []

theorem splitTopLevel_eq (body : Text) : splitTopLevel isSeparator body =
    ((pieces isSeparator 0 body).map Text.trim).filter (!·.isEmpty) := rfl

theorem splitTopLevel_go_eq (text piece : Text) (done : List Text) (depth : Nat) :
    splitTopLevel.go isSeparator text depth piece done =
      done.reverse ++ (pieces isSeparator depth text).modifyHead (piece.reverse ++ ·) := by
  unfold pieces
  induction text generalizing depth piece done with
  | nil => simp [splitTopLevel.go]
  | cons c rest ih =>
    simp only [splitTopLevel.go]
    split
    · rw [ih [] (piece.reverse :: done), ih [] [[].reverse]]
      simp
    · rw [ih (c :: piece) done, ih [c] []]
      simp [List.modifyHead_modifyHead, Function.comp_def]

section
variable {depth : Nat} {c : Char} {rest : Text}

theorem pieces_nil : pieces isSeparator depth [] = [[]] := rfl

theorem pieces_separator (separates : isSeparator c = true) (closed : depthAfter depth c = 0) :
    pieces isSeparator depth (c :: rest) = [] :: pieces isSeparator 0 rest := by
  have step : splitTopLevel.go isSeparator (c :: rest) depth [] [] =
      splitTopLevel.go isSeparator rest 0 [] [[]] := by
    simp [splitTopLevel.go, separates, closed]
  rw [pieces, step, splitTopLevel_go_eq]
  exact congrArg ([] :: ·) (congrFun List.modifyHead_id _)

theorem pieces_cons (inside : ¬ (isSeparator c = true ∧ depthAfter depth c = 0)) :
    pieces isSeparator depth (c :: rest) =
      (pieces isSeparator (depthAfter depth c) rest).modifyHead (c :: ·) := by
  simp [pieces, splitTopLevel.go, inside, splitTopLevel_go_eq rest [c] []]

end

/-- The first piece is uncut where the text starts, the others outside all brackets. -/
theorem exists_pieces (isSeparator : Char → Bool) (depth : Nat) (text : Text) :
    ∃ first others, pieces isSeparator depth text = first :: others ∧
      Uncut isSeparator depth first ∧ ∀ piece ∈ others, Uncut isSeparator 0 piece := by
  induction text generalizing depth with
  | nil => exact ⟨[], [], pieces_nil, uncut_nil depth, List.forall_mem_nil _⟩
  | cons c rest ih =>
    by_cases cut : isSeparator c = true ∧ depthAfter depth c = 0
    · obtain ⟨first, others, same, uncut, each⟩ := ih 0
      refine ⟨[], first :: others, ?_, uncut_nil depth, List.forall_mem_cons.2 ⟨uncut, each⟩⟩
      rw [pieces_separator cut.1 cut.2, same]
    · obtain ⟨first, others, same, uncut, each⟩ := ih (depthAfter depth c)
      refine ⟨c :: first, others, ?_, uncut_cons.2 ⟨cut, uncut⟩, each⟩
      rw [pieces_cons cut, same, List.modifyHead_cons]

theorem uncut_of_mem_pieces {text piece : Text} (member : piece ∈ pieces isSeparator 0 text) :
    Uncut isSeparator 0 piece := by
  obtain ⟨first, others, same, uncut, each⟩ := exists_pieces isSeparator 0 text
  rw [same] at member
  rcases List.mem_cons.1 member with rfl | later
  · exact uncut
  · exact each piece later

theorem pieces_append {depth : Nat} {s : Text} (uncut : Uncut isSeparator depth s) (t : Text) :
    pieces isSeparator depth (s ++ t) =
      (pieces isSeparator (depthOver depth s) t).modifyHead (s ++ ·) := by
  induction s generalizing depth with
  | nil => exact (congrFun List.modifyHead_id _).symm
  | cons c s ih =>
    obtain ⟨inside, uncut⟩ := uncut_cons.1 uncut
    rw [List.cons_append, pieces_cons inside, ih uncut, List.modifyHead_modifyHead]
    rfl

theorem pieces_of_uncut {depth : Nat} {text : Text} (uncut : Uncut isSeparator depth text) :
    pieces isSeparator depth text = [text] := by
  have whole := pieces_append uncut []
  rwa [pieces_nil, List.modifyHead_cons, List.append_nil] at whole

/-- A closed text before a separator and the text after it are cut each for itself. -/
theorem pieces_append_separator {depth : Nat} {s t : Text} {c : Char}
    (separates : isSeparator c = true) (closed : depthAfter (depthOver depth s) c = 0) :
    pieces isSeparator depth (s ++ c :: t) =
      pieces isSeparator depth s ++ pieces isSeparator 0 t := by
  induction s generalizing depth with
  | nil => exact pieces_separator separates closed
  | cons a s ih =>
    by_cases cut : isSeparator a = true ∧ depthAfter depth a = 0
    · rw [depthOver_cons, cut.2] at closed
      rw [List.cons_append, pieces_separator cut.1 cut.2, pieces_separator cut.1 cut.2, ih closed]
      rfl
    · obtain ⟨first, others, same, -⟩ := exists_pieces isSeparator
        (depthAfter depth a) s
      rw [List.cons_append, pieces_cons cut, pieces_cons cut, ih closed, same]
      rfl

/-- The first piece is the whole text or ends where the text is cut first. -/
theorem exists_first_piece (isSeparator : Char → Bool) (depth : Nat) (text : Text) :
    ∃ first others, pieces isSeparator depth text = first :: others ∧
      (first = text ∧ others = [] ∨ ∃ c rest, isSeparator c = true ∧
        text = first ++ c :: rest ∧ others = pieces isSeparator 0 rest) := by
  induction text generalizing depth with
  | nil => exact ⟨[], [], pieces_nil, .inl ⟨rfl, rfl⟩⟩
  | cons a text ih =>
    by_cases cut : isSeparator a = true ∧ depthAfter depth a = 0
    · exact ⟨[], _, pieces_separator cut.1 cut.2, .inr ⟨a, text, cut.1, rfl, rfl⟩⟩
    · obtain ⟨first, others, same, whole⟩ := ih (depthAfter depth a)
      refine ⟨a :: first, others, by rw [pieces_cons cut, same, List.modifyHead_cons], ?_⟩
      rcases whole with ⟨rfl, none⟩ | ⟨c, rest, separates, rfl, later⟩
      · exact .inl ⟨rfl, none⟩
      · exact .inr ⟨c, rest, separates, rfl, later⟩

/-- What holds of a text and passes on to both sides of a separator holds of all pieces. -/
theorem forall_mem_pieces {P : Text → Prop}
    (sides : ∀ s c t, isSeparator c = true → P (s ++ c :: t) → P s ∧ P t) (depth : Nat)
    {text : Text} (whole : P text) : ∀ piece ∈ pieces isSeparator depth text, P piece := by
  induction long : text.length using Nat.strongRecOn generalizing depth text with
  | ind n ih =>
    obtain ⟨first, others, same, front⟩ :=
      exists_first_piece isSeparator depth text
    rw [same, List.forall_mem_cons]
    rcases front with ⟨rfl, rfl⟩ | ⟨c, rest, separates, rfl, rfl⟩
    · exact ⟨whole, List.forall_mem_nil _⟩
    · obtain ⟨before, after⟩ := sides first c rest separates whole
      have shorter : rest.length < n := by
        rw [← long, List.length_append, List.length_cons]
        omega
      exact ⟨before, ih _ shorter 0 after rfl⟩

/-- What follows a text goes on with the last piece of the text, at the depth that the text leads
to. -/
theorem exists_open_piece (isSeparator : Char → Bool) (depth : Nat) (s : Text) :
    ∃ whole last, pieces isSeparator depth s = whole ++ [last] ∧
      (depthOver depth s = depthOver (if whole = [] then depth else 0) last) ∧
      ∀ t, pieces isSeparator depth (s ++ t) =
        whole ++ (pieces isSeparator (depthOver depth s) t).modifyHead (last ++ ·) := by
  induction s generalizing depth with
  | nil => exact ⟨[], [], pieces_nil, rfl, fun t => (congrFun List.modifyHead_id _).symm⟩
  | cons c s ih =>
    by_cases cut : isSeparator c = true ∧ depthAfter depth c = 0
    · obtain ⟨whole, last, same, level, later⟩ := ih 0
      refine ⟨[] :: whole, last, ?_, ?_, fun t => ?_⟩
      · rw [pieces_separator cut.1 cut.2, same, List.cons_append]
      · rw [depthOver_cons, cut.2, level, if_neg (List.cons_ne_nil _ _), ite_self]
      · rw [List.cons_append, pieces_separator cut.1 cut.2, later, depthOver_cons, cut.2,
          List.cons_append]
    · obtain ⟨whole, last, same, level, later⟩ := ih (depthAfter depth c)
      cases whole with
      | nil =>
        refine ⟨[], c :: last, ?_, level, fun t => ?_⟩
        · rw [pieces_cons cut, same, List.nil_append, List.nil_append, List.modifyHead_cons]
        · rw [List.cons_append, pieces_cons cut, later, List.nil_append, List.modifyHead_modifyHead]
          rfl
      | cons first whole =>
        refine ⟨(c :: first) :: whole, last, ?_, level, fun t => ?_⟩
        · rw [pieces_cons cut, same, List.cons_append, List.modifyHead_cons, List.cons_append]
        · rw [List.cons_append, pieces_cons cut, later, List.cons_append, List.modifyHead_cons,
            List.cons_append]
          rfl

/-- Without brackets, a text inside brackets is not cut. -/
theorem uncut_of_inside {depth : Nat} {text : Text} (inside : depth ≠ 0)
    (others : ∀ c ∈ text, isBracket c = false) : Uncut isSeparator depth text := by
  induction text with
  | nil => exact uncut_nil depth
  | cons c text ih =>
    obtain ⟨other, others⟩ := List.forall_mem_cons.1 others
    rw [uncut_cons, depthAfter_other other]
    exact ⟨fun cut => inside cut.2, ih others⟩

/-- A text without brackets is cut at all separators. -/
theorem pieces_eq_splitOn {text : Text} (others : ∀ c ∈ text, isBracket c = false) :
    pieces isSeparator 0 text = text.splitOn isSeparator := by
  rw [Text.splitOn_eq_splitOnP]
  induction text with
  | nil => rw [pieces_nil, List.splitOnP_nil]
  | cons c text ih =>
    obtain ⟨other, others⟩ := List.forall_mem_cons.1 others
    rw [List.splitOnP_cons_eq_if_modifyHead, ← ih others]
    by_cases separates : isSeparator c = true
    · rw [if_pos separates, pieces_separator separates (depthAfter_other other 0)]
    · rw [if_neg separates, pieces_cons fun cut => separates cut.1, depthAfter_other other]

/-- Pieces from which nothing is read if nothing is left of them are read as entries. -/
theorem flatMap_splitTopLevel {β : Type} {read : Text → List β} (nothing : read [] = [])
    (body : Text) : (splitTopLevel isSeparator body).flatMap read =
      (pieces isSeparator 0 body).flatMap fun piece => read piece.trim := by
  rw [splitTopLevel_eq]
  induction pieces isSeparator 0 body with
  | nil => rfl
  | cons piece others ih =>
    rw [List.map_cons, List.flatMap_cons, ← ih]
    cases trimmed : piece.trim with
    | nil => rw [nothing]; rfl
    | cons c rest => rfl

/-- White space at the ends has no part in how a text is cut. -/
theorem Uncut.trim {text : Text} (uncut : Uncut isSeparator 0 text) :
    Uncut isSeparator 0 text.trim := by
  obtain ⟨before, after, whole, blank, -⟩ := Text.exists_trimBy text isBlank
  rw [whole, uncut_append, uncut_append] at uncut
  have level := depthOver_others (fun c member => isBracket_of_isBlank (blank c member)) 0
  rw [level] at uncut
  exact uncut.2.1

/-! ## Nested brackets -/

/-- The kinds of brackets. -/
def bracketPairs : List (Char × Char) := [('{', '}'), ('[', ']'), ('(', ')'), ('<', '>')]

/-- Whether every bracket of a text has a partner of its kind and the brackets are nested, with only
such characters outside all brackets as are free to stand there. -/
inductive IsNested : (Char → Prop) → Text → Prop where
  | nil {free : Char → Prop} : IsNested free []
  | other {free : Char → Prop} {c : Char} {rest : Text} (noBracket : isBracket c = false)
      (outside : free c) (later : IsNested free rest) : IsNested free (c :: rest)
  | pair {free : Char → Prop} {opener closer : Char} {inside rest : Text}
      (partners : (opener, closer) ∈ bracketPairs) (inner : IsNested (fun _ => True) inside)
      (later : IsNested free rest) : IsNested free (opener :: (inside ++ closer :: rest))

theorem IsNested.of_others {free : Char → Prop} {s : Text}
    (others : ∀ c ∈ s, isBracket c = false ∧ free c) : IsNested free s := by
  induction s with
  | nil => exact .nil
  | cons c s ih =>
    obtain ⟨⟨noBracket, outside⟩, others⟩ := List.forall_mem_cons.1 others
    exact .other noBracket outside (ih others)

theorem IsNested.append {free : Char → Prop} {s t : Text} (first : IsNested free s)
    (second : IsNested free t) : IsNested free (s ++ t) := by
  induction first with
  | nil => exact second
  | other noBracket outside later ih => exact .other noBracket outside (ih second)
  | pair partners inner later ihInner ihLater =>
    rw [List.cons_append, List.append_assoc]
    exact .pair partners inner (ihLater second)

theorem IsNested.mono {free free' : Char → Prop} (wider : ∀ c, free c → free' c) {s : Text}
    (nested : IsNested free s) : IsNested free' s := by
  induction nested with
  | nil => exact .nil
  | other noBracket outside later ih => exact .other noBracket (wider _ outside) (ih wider)
  | pair partners inner later ihInner ihLater => exact .pair partners inner (ihLater wider)

theorem depthAfter_opener {opener closer : Char} (partners : (opener, closer) ∈ bracketPairs)
    (depth : Nat) : depthAfter depth opener = depth + 1 := by
  have kinds : ∀ pair ∈ bracketPairs, isOpener pair.1 = true := by decide
  have isOpener : isOpener opener = true := kinds _ partners
  rw [depthAfter, if_pos isOpener]

theorem depthAfter_closer {opener closer : Char} (partners : (opener, closer) ∈ bracketPairs)
    (depth : Nat) : depthAfter depth closer = depth - 1 := by
  have kinds : ∀ pair ∈ bracketPairs, isOpener pair.2 = false ∧ isCloser pair.2 = true := by decide
  obtain ⟨notOpener, isCloser⟩ := kinds _ partners
  rw [depthAfter, if_neg (by simp [notOpener]), if_pos isCloser]

theorem isBracket_of_mem {opener closer : Char} (partners : (opener, closer) ∈ bracketPairs) :
    isBracket opener = true ∧ isBracket closer = true := by
  have kinds : ∀ pair ∈ bracketPairs, isBracket pair.1 = true ∧ isBracket pair.2 = true := by decide
  exact kinds _ partners

theorem IsNested.depthOver_eq {free : Char → Prop} {text : Text} (nested : IsNested free text)
    (depth : Nat) : depthOver depth text = depth := by
  induction nested generalizing depth with
  | nil => rfl
  | other noBracket outside later ih => rw [depthOver_cons, depthAfter_other noBracket, ih]
  | pair partners inner later ihInner ihLater =>
    rw [depthOver_cons, depthOver_append, depthOver_cons, depthAfter_opener partners, ihInner,
      depthAfter_closer partners, ihLater]
    rfl

/-- A nested text is uncut at any depth at which its free characters separate nothing. -/
theorem IsNested.uncut (noBracket : ∀ c, isSeparator c = true → isBracket c = false)
    {free : Char → Prop} {text : Text} (nested : IsNested free text) {depth : Nat}
    (separated : ∀ c, free c → isSeparator c = true → depth ≠ 0) :
    Uncut isSeparator depth text := by
  induction nested generalizing depth with
  | nil => exact uncut_nil depth
  | other other outside later ih =>
    rw [uncut_cons, depthAfter_other other]
    refine ⟨?_, ih separated⟩
    rintro ⟨separates, closed⟩
    exact separated _ outside separates closed
  | @pair free opener closer inside rest partners inner later ihInner ihLater =>
    obtain ⟨bracket, bracket'⟩ := isBracket_of_mem partners
    have notSeparator {c : Char} (bracket : isBracket c = true) : ¬ isSeparator c = true := by
      intro separates
      rw [noBracket c separates] at bracket
      cases bracket
    rw [uncut_cons, uncut_append, uncut_cons, inner.depthOver_eq, depthAfter_opener partners,
      depthAfter_closer partners, Nat.add_sub_cancel]
    refine ⟨fun cut => notSeparator bracket cut.1, ?_, fun cut => notSeparator bracket' cut.1, ?_⟩
    · exact ihInner fun _ _ _ => Nat.succ_ne_zero depth
    · exact ihLater separated

/-! ## Joining and splitting -/

/-- The ways to join entries, with any separator between two neighbours. -/
inductive Joined (isSeparator : Char → Bool) : List Text → Text → Prop where
  | none : Joined isSeparator [] []
  | last (entry : Text) : Joined isSeparator [entry] entry
  | more {entry next text : Text} {entries : List Text} {separator : Char}
      (separates : isSeparator separator = true)
      (later : Joined isSeparator (next :: entries) text) :
      Joined isSeparator (entry :: next :: entries) (entry ++ separator :: text)

/-- Whether a text is one entry: neither empty nor with white space at its ends, and with its
brackets nested and all separators inside them. -/
structure IsEntry (isSeparator : Char → Bool) (entry : Text) : Prop where
  nonempty : entry ≠ []
  trimmed : entry.trim = entry
  nested : IsNested (fun c => isSeparator c = false) entry

theorem IsEntry.uncut (noBracket : ∀ c, isSeparator c = true → isBracket c = false) {entry : Text}
    (h : IsEntry isSeparator entry) : Uncut isSeparator 0 entry := by
  apply h.nested.uncut noBracket
  intro c free separates
  rw [free] at separates
  cases separates

theorem Joined.pieces_eq (noBracket : ∀ c, isSeparator c = true → isBracket c = false)
    {entries : List Text} {text : Text} (joined : Joined isSeparator entries text)
    (each : ∀ entry ∈ entries, IsEntry isSeparator entry) (some : entries ≠ []) :
    pieces isSeparator 0 text = entries := by
  induction joined with
  | none => exact absurd rfl some
  | last entry =>
    have uncut := (each entry (.head _)).uncut noBracket
    exact pieces_of_uncut uncut
  | @more entry next text entries separator separates later ih =>
    obtain ⟨first, others⟩ := List.forall_mem_cons.1 each
    have closed : depthAfter (depthOver 0 entry) separator = 0 := by
      rw [first.nested.depthOver_eq, depthAfter_other (noBracket _ separates)]
    rw [pieces_append_separator separates closed, pieces_of_uncut (first.uncut noBracket),
      ih others nofun]
    rfl

theorem splitTopLevel_of_uncut {text : Text} (uncut : Uncut isSeparator 0 text)
    (nonempty : text ≠ []) (trimmed : text.trim = text) :
    splitTopLevel isSeparator text = [text] := by
  rw [splitTopLevel_eq, pieces_of_uncut uncut, List.map_singleton, trimmed]
  simp [nonempty]

/-- Splitting entries that are joined by separators gives the entries. What is split off from any
text is an entry without separators outside its brackets: it is not empty, has no white space at its
ends, and splitting it gives nothing but itself. -/
theorem splitTopLevel_undoes_joining
    (noBracket : ∀ c, isSeparator c = true → isBracket c = false) :
    (∀ entries text, Joined isSeparator entries text →
      (∀ entry ∈ entries, IsEntry isSeparator entry) →
      splitTopLevel isSeparator text = entries) ∧
    ∀ body, ∀ part ∈ splitTopLevel isSeparator body,
      part ≠ [] ∧ part.trim = part ∧ splitTopLevel isSeparator part = [part] := by
  constructor
  · intro entries text joined each
    cases entries with
    | nil =>
      cases joined
      rfl
    | cons entry entries =>
      have trimmed : (entry :: entries).map Text.trim = entry :: entries :=
        (List.map_congr_left fun e member => (each e member).trimmed).trans (List.map_id _)
      rw [splitTopLevel_eq, joined.pieces_eq noBracket each nofun, trimmed, List.filter_eq_self]
      intro e member
      simpa using (each e member).nonempty
  · intro body part member
    obtain ⟨inside, nonempty⟩ := List.mem_filter.1 member
    obtain ⟨piece, found, rfl⟩ := List.mem_map.1 inside
    have notNil : piece.trim ≠ [] := by simpa using nonempty
    have trimmed := Text.trimBy_trimBy piece isBlank
    have uncut := (uncut_of_mem_pieces found).trim
    exact ⟨notNil, trimmed, splitTopLevel_of_uncut uncut notNil trimmed⟩

/-- Whether a character ends an entry of a list that goes over several lines. -/
def endsListEntry (c : Char) : Bool := c == ',' || c == '\n'

/-- Two members of a list, a comma within the first; and a list whose brackets have no partners. -/
theorem members_split :
    splitTopLevel endsListEntry "a: Map<K, V>\nb".toList = ["a: Map<K, V>".toList, "b".toList] ∧
      splitTopLevel endsListEntry " (b, c".toList = ["(b, c".toList] ∧
      splitTopLevel endsListEntry "(b, c".toList = ["(b, c".toList] := by
  have noBracket : ∀ c, endsListEntry c = true → isBracket c = false := by
    intro c ends
    rcases Bool.or_eq_true_iff.1 ends with comma | lineFeed
    · rw [eq_of_beq comma]
      rfl
    · rw [eq_of_beq lineFeed]
      rfl
  obtain ⟨joins, stable⟩ := splitTopLevel_undoes_joining noBracket
  have first : IsEntry endsListEntry "a: Map<K, V>".toList := by
    refine ⟨by decide, by decide, ?_⟩
    have arguments : IsNested (fun _ => True) "K, V".toList := .of_others (by decide)
    exact .append (.of_others (s := "a: Map".toList) (by decide)) (.pair (by decide) arguments .nil)
  have second : IsEntry endsListEntry "b".toList := ⟨by decide, by decide, .of_others (by decide)⟩
  have malformed : splitTopLevel endsListEntry " (b, c".toList = ["(b, c".toList] := by decide
  have joined : Joined endsListEntry ["a: Map<K, V>".toList, "b".toList]
      ("a: Map<K, V>".toList ++ '\n' :: "b".toList) := .more rfl (.last _)
  refine ⟨joins _ _ joined ?_, malformed, ?_⟩
  · exact List.forall_mem_cons.2 ⟨first, List.forall_mem_singleton.2 second⟩
  · exact (stable _ _ (by rw [malformed]; exact .head _)).2.2

end CodeSurvey
