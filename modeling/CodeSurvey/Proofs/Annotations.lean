import CodeSurvey.Models.Indented
import CodeSurvey.Proofs.Offers
import CodeSurvey.Proofs.RustTypes

/-!
# Python annotations as they are written

`IsAnnotation` describes the annotations that are built from dotted names, subscripts and unions,
with the depth to which subscripts are nested. The pattern for annotations knows a subscript only as
a text up to the first closing bracket. So in all that it reads no bracket closes right after
another (`Models.subscripts_of_reads`), and an annotation is read as a whole if subscripts are not
nested in it (`Models.annotation_offers`) and never otherwise (`IsAnnotation.subscripts_eq`).
-/

namespace CodeSurvey

open Pattern (wordOr)

/-! ## The annotations -/

/-- One or more word characters and dots. -/
def IsDotted (text : Text) : Prop := text ≠ [] ∧ ∀ c ∈ text, wordOr ['.'] c = true

instance : DecidablePred IsDotted := fun text =>
  inferInstanceAs (Decidable (text ≠ [] ∧ ∀ c ∈ text, wordOr ['.'] c = true))

/-- Whether a text is an annotation, or some between commas, with subscripts nested to a depth. -/
inductive IsAnnotation : Arity → Nat → Text → Prop where
  | name {name : Text} (isDotted : IsDotted name) : IsAnnotation .one 0 name
  | subscript {name arguments : Text} {depth : Nat} (isDotted : IsDotted name)
      (inner : IsAnnotation .many depth arguments) :
      IsAnnotation .one (depth + 1) (name ++ '[' :: (arguments ++ [']']))
  | union {s gap gap' t : Text} {depth depth' : Nat} (first : IsAnnotation .one depth s)
      (isGap : IsGap gap) (isGap' : IsGap gap') (second : IsAnnotation .one depth' t) :
      IsAnnotation .one (max depth depth') (s ++ gap ++ '|' :: (gap' ++ t))
  | last {gap t gap' : Text} {depth : Nat} (isGap : IsGap gap) (inner : IsAnnotation .one depth t)
      (isGap' : IsGap gap') : IsAnnotation .many depth (gap ++ t ++ gap')
  | more {gap t gap' rest : Text} {depth depth' : Nat} (isGap : IsGap gap)
      (inner : IsAnnotation .one depth t) (isGap' : IsGap gap')
      (later : IsAnnotation .many depth' rest) :
      IsAnnotation .many (max depth depth') (gap ++ t ++ gap' ++ ',' :: rest)

theorem isBlank_of_isDotted {c : Char} (dotted : wordOr ['.'] c = true) : isBlank c = false := by
  rcases Bool.or_eq_true_iff.1 dotted with word | dot
  · exact isBlank_of_isWord word
  · simp only [List.contains_cons, List.contains_nil, Bool.or_false, beq_iff_eq] at dot
    rw [dot]
    rfl

theorem isDotted_of_isBlank {c : Char} (blank : isBlank c = true) : wordOr ['.'] c = false := by
  rw [← Bool.not_eq_true]
  intro dotted
  rw [isBlank_of_isDotted dotted] at blank
  cases blank

/-- The characters of annotations. -/
def isAnnotationChar (c : Char) : Bool :=
  wordOr ['.'] c || (isBlank c && !endsLine c) || "[],|".toList.contains c

section
variable {arity : Arity} {depth : Nat} {text : Text}

theorem IsAnnotation.forall_mem (h : IsAnnotation arity depth text) :
    ∀ c ∈ text, isAnnotationChar c = true := by
  have name {name : Text} (isDotted : IsDotted name) : ∀ c ∈ name, isAnnotationChar c = true := by
    intro c member
    simp [isAnnotationChar, isDotted.2 c member]
  have gap {gap : Text} (isGap : IsGap gap) : ∀ c ∈ gap, isAnnotationChar c = true := by
    intro c member
    obtain ⟨blank, within⟩ := isGap c member
    simp [isAnnotationChar, blank, within]
  have opening : isAnnotationChar '[' = true := by decide
  have closing : isAnnotationChar ']' = true := by decide
  have bar : isAnnotationChar '|' = true := by decide
  have comma : isAnnotationChar ',' = true := by decide
  induction h with
  | name isDotted => exact name isDotted
  | subscript isDotted inner ih =>
    simp only [List.forall_mem_append, List.forall_mem_cons]
    exact ⟨name isDotted, opening, ih, closing, List.forall_mem_nil _⟩
  | union first isGap isGap' second ih ih' =>
    simp only [List.forall_mem_append, List.forall_mem_cons]
    exact ⟨⟨ih, gap isGap⟩, bar, gap isGap', ih'⟩
  | last isGap inner isGap' ih =>
    simp only [List.forall_mem_append]
    exact ⟨⟨gap isGap, ih⟩, gap isGap'⟩
  | more isGap inner isGap' later ih ih' =>
    simp only [List.forall_mem_append, List.forall_mem_cons]
    exact ⟨⟨⟨gap isGap, ih⟩, gap isGap'⟩, comma, ih'⟩

theorem endsLine_of_isAnnotationChar {c : Char} (ok : isAnnotationChar c = true) :
    endsLine c = false := by
  rcases Bool.or_eq_true_iff.1 ok with ok | mark
  · rcases Bool.or_eq_true_iff.1 ok with dotted | gap
    · exact endsLine_of_isBlank_eq_false (isBlank_of_isDotted dotted)
    · simpa using (Bool.and_eq_true_iff.1 gap).2
  · have apart := @isBlank_of_apart (fun c => "[],|".toList.contains c) (by decide +kernel)
    exact endsLine_of_isBlank_eq_false (apart mark)

/-- An annotation starts with a name, which ends where other characters start. -/
theorem IsAnnotation.exists_name (h : IsAnnotation .one depth text) : ∃ name rest,
    text = name ++ rest ∧ IsDotted name ∧ ∀ c, rest.head? = some c → wordOr ['.'] c = false := by
  generalize one : Arity.one = arity at h
  induction h with
  | @name name isDotted => exact ⟨name, [], (List.append_nil _).symm, isDotted, nofun⟩
  | subscript isDotted inner => exact ⟨_, _, rfl, isDotted, by rintro c ⟨⟩; decide⟩
  | @union s gap gap' t depth depth' first isGap isGap' second ih =>
    obtain ⟨name, rest, rfl, isDotted, ends⟩ := ih one
    refine ⟨name, rest ++ (gap ++ '|' :: (gap' ++ t)), by simp, isDotted, ?_⟩
    have barred : ∀ c, (gap ++ '|' :: (gap' ++ t)).head? = some c → wordOr ['.'] c = false :=
      Text.forall_head?_append (fun c member => isDotted_of_isBlank (isGap.isBlank c member))
        (by rintro c ⟨⟩; decide)
    cases rest with
    | nil => exact barred
    | cons c' rest => exact ends
  | last | more => cases one

theorem IsAnnotation.starts (h : IsAnnotation .one depth text) :
    ∃ c rest, text = c :: rest ∧ isBlank c = false := by
  obtain ⟨name, rest, rfl, isDotted, -⟩ := h.exists_name
  obtain ⟨c, name, rfl⟩ := List.exists_cons_of_ne_nil isDotted.1
  exact ⟨c, name ++ rest, rfl, isBlank_of_isDotted (isDotted.2 c (.head _))⟩

theorem IsAnnotation.ends (h : IsAnnotation .one depth text) {c : Char}
    (last : text.getLast? = some c) : isBlank c = false := by
  generalize one : Arity.one = arity at h
  induction h with
  | name isDotted => exact isBlank_of_isDotted (isDotted.2 c (List.mem_of_getLast? last))
  | @subscript name arguments depth isDotted inner =>
    have front : (name ++ '[' :: arguments ++ [']']).getLast? = some c := by simpa using last
    rw [List.getLast?_concat] at front
    cases front
    rfl
  | @union s gap gap' t depth depth' first isGap isGap' second ih ih' =>
    obtain ⟨c', rest, whole, -⟩ := second.starts
    have some : t ≠ [] := by
      rw [whole]
      exact List.cons_ne_nil c' rest
    have front : (s ++ gap ++ '|' :: gap' ++ t).getLast? = Option.some c := by simpa using last
    rw [List.getLast?_append_of_ne_nil _ some] at front
    exact ih' front one
  | last | more => cases one

theorem IsAnnotation.trim_eq (h : IsAnnotation .one depth text) : text.trim = text := by
  refine Text.trimBy_of_ends (fun c first => ?_) fun c => h.ends
  obtain ⟨c', rest, rfl, visible⟩ := h.starts
  cases first
  exact visible

end

/-! ## Subscripts without regard to nesting -/

/-- Whether a bracket is open after a character. None can be closed twice. -/
def subscriptStep (isOpen : Bool) (c : Char) : Option Bool :=
  if c = '[' then some true
  else if c = ']' then if isOpen then some false else none
  else some isOpen

/-- Whether a bracket is open after a text, if after each that closes another one has to open before
the next one closes. -/
def subscripts (isOpen : Bool) (text : Text) : Option Bool := text.foldlM subscriptStep isOpen

theorem subscripts_append (isOpen : Bool) (s t : Text) :
    subscripts isOpen (s ++ t) = (subscripts isOpen s).bind fun isOpen => subscripts isOpen t :=
  List.foldlM_append

theorem subscripts_cons (isOpen : Bool) (c : Char) (t : Text) :
    subscripts isOpen (c :: t) = (subscriptStep isOpen c).bind fun isOpen => subscripts isOpen t :=
  List.foldlM_cons

theorem subscripts_of_not_mem {t : Text} (none : ']' ∉ t) (isOpen : Bool) :
    subscripts isOpen t = some (isOpen || t.contains '[') := by
  induction t generalizing isOpen with
  | nil => rw [List.contains_nil, Bool.or_false]; rfl
  | cons c t ih =>
    obtain ⟨other, none⟩ := not_or.1 (mt List.mem_cons.2 none)
    rw [subscripts_cons, subscriptStep, if_neg (Ne.symm other), List.contains_cons]
    split
    · next opens => rw [Option.bind_some, ih none, opens]; simp
    · next inside =>
      rw [Option.bind_some, ih none, beq_eq_false_iff_ne.2 (Ne.symm inside), Bool.false_or]

theorem subscripts_of_others {t : Text} (others : ∀ c ∈ t, c ≠ '[' ∧ c ≠ ']') (isOpen : Bool) :
    subscripts isOpen t = some isOpen := by
  rw [subscripts_of_not_mem fun member => (others _ member).2 rfl]
  have none : t.contains '[' = false := by
    simpa using fun member => (others _ member).1 rfl
  rw [none, Bool.or_false]

theorem IsDotted.others {name : Text} (h : IsDotted name) : ∀ c ∈ name, c ≠ '[' ∧ c ≠ ']' := by
  intro c member
  have dotted := h.2 c member
  constructor <;> rintro rfl <;> exact absurd dotted (by decide)

theorem others_of_blank {gap : Text} (blank : ∀ c ∈ gap, isBlank c = true) :
    ∀ c ∈ gap, c ≠ '[' ∧ c ≠ ']' := by
  intro c member
  have isBlank := blank c member
  constructor <;> rintro rfl <;> cases isBlank

theorem IsGap.others {gap : Text} (h : IsGap gap) : ∀ c ∈ gap, c ≠ '[' ∧ c ≠ ']' :=
  others_of_blank h.isBlank

/-- After a subscript no bracket is open, and after nested ones one has been closed twice. -/
def subscriptsAt (isOpen : Bool) : Nat → Option Bool
  | 0 => some isOpen
  | 1 => some false
  | _ + 2 => none

theorem subscriptsAt_max (isOpen : Bool) (depth depth' : Nat) : subscriptsAt isOpen
    (max depth depth') = (subscriptsAt isOpen depth).bind (subscriptsAt · depth') := by
  match depth, depth' with
  | 0, depth' => simp [subscriptsAt]
  | 1, 0 | 1, 1 => rfl
  | 1, depth' + 2 => rw [Nat.max_eq_right (by omega)]; rfl
  | depth + 2, depth' =>
    obtain ⟨n, deep⟩ : ∃ n, max (depth + 2) depth' = n + 2 := ⟨max (depth + 2) depth' - 2, by omega⟩
    rw [deep]
    rfl

theorem IsAnnotation.subscripts_eq {arity : Arity} {depth : Nat} {text : Text}
    (h : IsAnnotation arity depth text) (isOpen : Bool) :
    subscripts isOpen text = subscriptsAt isOpen depth := by
  have level {t : Text} (others : ∀ c ∈ t, c ≠ '[' ∧ c ≠ ']') (isOpen : Bool) (rest : Text) :
      subscripts isOpen (t ++ rest) = subscripts isOpen rest := by
    rw [subscripts_append, subscripts_of_others others, Option.bind_some]
  have level' {t : Text} (others : ∀ c ∈ t, c ≠ '[' ∧ c ≠ ']') (result : Option Bool) :
      (result.bind fun isOpen => subscripts isOpen t) = result := by
    simp only [subscripts_of_others others, Option.bind_fun_some]
  induction h generalizing isOpen with
  | name isDotted => exact subscripts_of_others isDotted.others isOpen
  | @subscript name arguments depth isDotted inner ih =>
    rw [level isDotted.others, subscripts_cons]
    show subscripts true (arguments ++ [']']) = _
    rw [subscripts_append, ih]
    match depth with
    | 0 | 1 | _ + 2 => rfl
  | @union s gap gap' t depth depth' first isGap isGap' second ih ih' =>
    have mark (isOpen : Bool) : subscripts isOpen ('|' :: (gap' ++ t)) =
        subscriptsAt isOpen depth' := by
      rw [subscripts_cons]
      show subscripts isOpen (gap' ++ t) = _
      rw [level isGap'.others, ih']
    rw [subscripts_append, subscripts_append, ih, level' isGap.others, subscriptsAt_max]
    simp only [mark]
  | @last gap t gap' depth isGap inner isGap' ih =>
    rw [subscripts_append, level isGap.others, ih, level' isGap'.others]
  | @more gap t gap' rest depth depth' isGap inner isGap' later ih ih' =>
    have mark (isOpen : Bool) : subscripts isOpen (',' :: rest) = subscriptsAt isOpen depth' := by
      rw [subscripts_cons]
      exact ih' isOpen
    rw [subscripts_append, subscripts_append, level isGap.others, ih, level' isGap'.others,
      subscriptsAt_max]
    simp only [mark]

/-- Where nested subscripts are read up to a place at which no bracket is open, a bracket closes
after it. -/
theorem IsAnnotation.exists_bracket {arity : Arity} {depth : Nat} {text front rest rest' : Text}
    (h : IsAnnotation arity depth text) (nested : 1 < depth)
    (flat : subscripts false front = some false) (whole : front ++ rest' = text ++ rest) :
    ∃ s t, text = front ++ (s ++ ']' :: t) ∧ rest' = s ++ ']' :: (t ++ rest) := by
  have twice (s : Text) : subscripts false (text ++ s) = none := by
    obtain ⟨n, deep⟩ : ∃ n, depth = n + 2 := ⟨depth - 2, by omega⟩
    rw [subscripts_append, h.subscripts_eq, deep]
    rfl
  rcases List.append_eq_append_iff.1 whole with ⟨tail, same, here⟩ | ⟨more, same, -⟩
  · have closes : ']' ∈ tail := by
      by_contra notThere
      have all := twice []
      rw [List.append_nil, same, subscripts_append, flat, Option.bind_some,
        subscripts_of_not_mem notThere] at all
      cases all
    obtain ⟨s, t, rfl, -⟩ := List.eq_append_cons_of_mem closes
    refine ⟨s, t, same, here.trans ?_⟩
    simp
  · rw [same, twice] at flat
    cases flat

/-! ## Annotations without nested subscripts -/

/-- A dotted name, perhaps with a subscript in which no bracket closes. -/
inductive IsPlainType : Text → Prop where
  | name {name : Text} (isDotted : IsDotted name) : IsPlainType name
  | subscript {name arguments : Text} (isDotted : IsDotted name)
      (inner : ∀ c ∈ arguments, Pattern.noneOf [']', '\n'] c = true) :
      IsPlainType (name ++ '[' :: (arguments ++ [']']))

/-- Parts with a bar before each. -/
inductive IsBars : Text → Prop where
  | nil : IsBars []
  | cons {gap gap' part rest : Text} (isGap : IsGap gap) (isGap' : IsGap gap')
      (isPlain : IsPlainType part) (later : IsBars rest) :
      IsBars (gap ++ '|' :: (gap' ++ (part ++ rest)))

theorem IsBars.append {s t : Text} (first : IsBars s) (second : IsBars t) : IsBars (s ++ t) := by
  induction first with
  | nil => exact second
  | cons isGap isGap' isPlain later ih =>
    simp only [List.append_assoc, List.cons_append]
    exact .cons isGap isGap' isPlain ih

theorem IsPlainType.exists_name {part : Text} (h : IsPlainType part) :
    ∃ name rest, part = name ++ rest ∧ IsDotted name := by
  cases h with
  | name isDotted => exact ⟨part, [], (List.append_nil _).symm, isDotted⟩
  | subscript isDotted inner => exact ⟨_, _, rfl, isDotted⟩

theorem IsBars.ends {bars rest : Text} (isBars : IsBars bars)
    (ends : ∀ c, rest.head? = some c → wordOr ['.'] c = false ∧ c ≠ '[') :
    ∀ c, (bars ++ rest).head? = some c → wordOr ['.'] c = false ∧ c ≠ '[' := by
  cases isBars with
  | nil => exact ends
  | cons isGap isGap' isPlain later =>
    rw [List.append_assoc]
    refine Text.forall_head?_append (fun c member => ?_) (by rintro c ⟨⟩; decide)
    exact ⟨isDotted_of_isBlank (isGap.isBlank c member), (isGap.others c member).1⟩

/-- Outside subscripts no bracket stands. -/
theorem IsAnnotation.others {arity : Arity} {text : Text} (h : IsAnnotation arity 0 text) :
    ∀ c ∈ text, c ≠ '[' ∧ c ≠ ']' := by
  generalize none : 0 = depth at h
  induction h with
  | name isDotted => exact isDotted.others
  | subscript => cases none
  | union first isGap isGap' second ih ih' =>
    obtain ⟨none, none'⟩ := Nat.max_eq_zero_iff.1 none.symm
    simp only [List.forall_mem_append, List.forall_mem_cons]
    exact ⟨⟨ih none.symm, isGap.others⟩, by decide, isGap'.others, ih' none'.symm⟩
  | last isGap inner isGap' ih =>
    simp only [List.forall_mem_append]
    exact ⟨⟨isGap.others, ih none⟩, isGap'.others⟩
  | more isGap inner isGap' later ih ih' =>
    obtain ⟨none, none'⟩ := Nat.max_eq_zero_iff.1 none.symm
    simp only [List.forall_mem_append, List.forall_mem_cons]
    exact ⟨⟨⟨isGap.others, ih none.symm⟩, isGap'.others⟩, by decide, ih' none'.symm⟩

theorem IsAnnotation.exists_parts {depth : Nat} {text : Text} (h : IsAnnotation .one depth text)
    (flat : depth ≤ 1) : ∃ part bars, text = part ++ bars ∧ IsPlainType part ∧ IsBars bars := by
  generalize one : Arity.one = arity at h
  induction h with
  | @name name isDotted => exact ⟨name, [], (List.append_nil _).symm, .name isDotted, .nil⟩
  | @subscript name arguments depth isDotted inner =>
    obtain rfl : depth = 0 := by omega
    refine ⟨_, [], (List.append_nil _).symm, .subscript isDotted fun c member => ?_, .nil⟩
    have notClosing := (inner.others c member).2
    have within := endsLine_of_isAnnotationChar (inner.forall_mem c member)
    have notLineFeed : c ≠ '\n' := by
      rintro rfl
      cases within
    simp [Pattern.noneOf, notClosing, notLineFeed]
  | @union s gap gap' t depth depth' first isGap isGap' second ih ih' =>
    obtain ⟨part, bars, rfl, isPlain, isBars⟩ := ih (by omega) one
    obtain ⟨part', bars', rfl, isPlain', isBars'⟩ := ih' (by omega) one
    exact ⟨part, _, by simp only [List.append_assoc], isPlain,
      isBars.append (.cons isGap isGap' isPlain' isBars')⟩
  | last | more => cases one

/-! ## How annotations are read -/

namespace Models

open Pattern Place

/-- A type, or several types separated by bars. -/
def annotationParts : Pattern := annotationName ++ star (blanks ++ "|" ++ blanks ++ annotationName)

/-- What follows an annotation, so that no more is read: no character of a name and no bracket, and
no bar after white space. -/
def EndsAnnotation (rest : Text) : Prop :=
  (∀ c, rest.head? = some c → wordOr ['.'] c = false ∧ c ≠ '[') ∧
    (rest.dropWhile isBlank).head? ≠ some '|'

theorem name_offers {name rest : Text} (isDotted : IsDotted name)
    (ends : ∀ c, rest.head? = some c → wordOr ['.'] c = false) (previous : Option Char)
    (g : Groups) : (some1 (wordOr ['.'])).Offers (between previous (name ++ rest)) g
      (between (lastOf previous name) rest) g :=
  offers_many previous isDotted.2 ends (List.length_pos_iff.2 isDotted.1)

theorem part_offers {part rest : Text} (isPlain : IsPlainType part)
    (ends : ∀ c, rest.head? = some c → wordOr ['.'] c = false ∧ c ≠ '[') (previous : Option Char)
    (g : Groups) : annotationName.Offers (between previous (part ++ rest)) g
      (between (lastOf previous part) rest) g := by
  cases isPlain with
  | name isDotted =>
    refine (name_offers isDotted (fun c first => (ends c first).1) previous g).seq (.right ?_
      offers_empty)
    cases rest with
    | nil => exact ((refuses_lit_nil _ _ _).seq _).seq _
    | cons c rest => exact ((refuses_lit (ends c rfl).2 _ _ _).seq _).seq _
  | @subscript name arguments isDotted inner =>
    let inside := arguments ++ ']' :: rest
    let opened := lastOf (lastOf previous name) ['[']
    have shape : name ++ '[' :: (arguments ++ [']']) ++ rest = name ++ '[' :: inside := by
      simp [inside]
    have named : (some1 (wordOr ['.'])).Offers (between previous (name ++ '[' :: inside)) g
        (between (lastOf previous name) ('[' :: inside)) g :=
      name_offers isDotted (stops_cons (by decide)) previous g
    have filled : (some0 (noneOf [']', '\n'])).Offers (between opened inside) g
        (between (lastOf opened arguments) (']' :: rest)) g :=
      offers_many opened inner (stops_cons (by decide)) (Nat.zero_le _)
    have enclosed := ((offers_lit (g := g) (lastOf previous name) ['['] inside).seq filled).seq
      (offers_lit (lastOf opened arguments) [']'] rest)
    have whole := named.seq (enclosed.left (y := empty))
    simp only [opened, ← lastOf_append, List.append_assoc] at whole
    rw [shape]
    exact whole

theorem bars_offers {bars rest : Text} (isBars : IsBars bars) (ends : EndsAnnotation rest)
    (previous : Option Char) (g : Groups) :
    (star (blanks ++ "|" ++ blanks ++ annotationName)).Offers (between previous (bars ++ rest)) g
      (between (lastOf previous bars) rest) g := by
  induction isBars generalizing previous with
  | nil =>
    refine Refuses.stop (refuses_of_reads fun t rec reads inFront => ?_)
    obtain ⟨_, _, _, _, lead, -, rfl, -⟩ := reads_seq_iff.1 reads
    obtain ⟨_, _, _, _, barred, -, rfl, -⟩ := reads_seq_iff.1 lead
    obtain ⟨gap, _, _, _, blank, bar, rfl, -⟩ := reads_seq_iff.1 barred
    cases bar
    obtain ⟨blank, -, -⟩ := reads_many_iff.1 blank
    obtain ⟨after, whole⟩ := inFront
    refine ends.2 ?_
    rw [show rest = _ from whole.symm, List.append_assoc, List.append_assoc, List.append_assoc,
      List.dropWhile_append_of_pos blank]
    rfl
  | @cons gap gap' part rest' isGap isGap' isPlain later ih =>
    obtain ⟨name, tail, whole, isDotted⟩ := isPlain.exists_name
    obtain ⟨c, name, rfl⟩ := List.exists_cons_of_ne_nil isDotted.1
    have visible : isBlank c = false := isBlank_of_isDotted (isDotted.2 c (.head _))
    let parts := part ++ (rest' ++ rest)
    let barred := lastOf (lastOf previous gap) ['|']
    have shape : gap ++ '|' :: (gap' ++ (part ++ rest')) ++ rest =
        gap ++ '|' :: (gap' ++ parts) := by simp [parts]
    have stops : ∀ c, parts.head? = some c → isBlank c = false := by
      rw [show parts = c :: (name ++ tail ++ (rest' ++ rest)) by simp [parts, whole]]
      exact stops_cons visible
    have blank : blanks.Offers (between previous (gap ++ '|' :: (gap' ++ parts))) g
        (between (lastOf previous gap) ('|' :: (gap' ++ parts))) g :=
      offers_many previous isGap.isBlank (stops_cons rfl) (Nat.zero_le _)
    have blank' : blanks.Offers (between barred (gap' ++ parts)) g
        (between (lastOf barred gap') parts) g :=
      offers_many barred isGap'.isBlank stops (Nat.zero_le _)
    have bar := offers_lit (g := g) (lastOf previous gap) ['|'] (gap' ++ parts)
    have read := part_offers isPlain (later.ends ends.1) (lastOf barred gap') g
    have shorter : (rest' ++ rest).length < (gap ++ '|' :: (gap' ++ parts)).length := by
      simp only [parts, List.length_append, List.length_cons]
      omega
    have more := (((blank.seq bar).seq blank').seq read).more shorter (ih _)
    simp only [barred, ← lastOf_append, List.append_assoc] at more
    rw [shape]
    exact more

/-- An annotation without nested subscripts is read as a whole. -/
theorem annotation_offers {depth : Nat} {text rest : Text} (h : IsAnnotation .one depth text)
    (flat : depth ≤ 1) (ends : EndsAnnotation rest) (previous : Option Char) (g : Groups) :
    annotationParts.Offers (between previous (text ++ rest)) g
      (between (lastOf previous text) rest) g := by
  obtain ⟨part, bars, rfl, isPlain, isBars⟩ := h.exists_parts flat
  have first := part_offers isPlain (isBars.ends ends.1) previous g
  have whole := first.seq (bars_offers isBars ends _ g)
  rw [← lastOf_append] at whole
  rw [List.append_assoc]
  exact whole

/-- Of an annotation at least the name is read. -/
theorem run_annotationParts_ne_none {depth : Nat} {text rest : Text} {α : Type} {accept : Accept α}
    (h : IsAnnotation .one depth text)
    (ends : ∀ c, rest.head? = some c → wordOr ['.'] c = false) (accepts : ∀ q g, accept q g ≠ none)
    (previous : Option Char) (g : Groups) :
    annotationParts.run (between previous (text ++ rest)) g accept ≠ none := by
  obtain ⟨name, tail, rfl, isDotted, ends'⟩ := h.exists_name
  have stops : ∀ c, (tail ++ rest).head? = some c → wordOr ['.'] c = false := by
    cases tail with
    | nil => exact ends
    | cons c tail => exact ends'
  let further : Accept α := fun q g =>
    (opt ("[" ++ some0 (noneOf [']', '\n']) ++ "]")).run q g fun q g =>
      (star (blanks ++ "|" ++ blanks ++ annotationName)).run q g accept
  have goesOn : further (between (lastOf previous name) (tail ++ rest)) g ≠ none :=
    run_opt_ne_none (run_star_ne_none (accepts _ g))
  rw [List.append_assoc]
  exact (name_offers isDotted stops previous g).run_ne_none goesOn

/-- What is read as an annotation starts with a name. -/
theorem starts_of_reads {t : Text} {rec : List (Nat × Text)} (reads : annotationParts.Reads t rec) :
    ∃ c rest, t = c :: rest ∧ isBlank c = false := by
  obtain ⟨_, _, _, _, part, -, rfl, -⟩ := reads_seq_iff.1 reads
  obtain ⟨name, _, _, _, named, -, rfl, -⟩ := reads_seq_iff.1 part
  obtain ⟨dotted, some, -⟩ := reads_many_iff.1 named
  obtain ⟨c, name, rfl⟩ := List.exists_cons_of_ne_nil (List.length_pos_iff.1 some)
  exact ⟨c, _, rfl, isBlank_of_isDotted (dotted c (.head _))⟩

/-- In what is read as an annotation no bracket closes right after another. -/
theorem subscripts_of_reads {t : Text} {rec : List (Nat × Text)}
    (reads : annotationParts.Reads t rec) : subscripts false t = some false := by
  have named {t : Text} {rec : List (Nat × Text)} (reads : annotationName.Reads t rec) :
      subscripts false t = some false := by
    obtain ⟨name, _, bracket, _, named, bracketed, rfl, -⟩ := reads_seq_iff.1 reads
    obtain ⟨dotted, some, -⟩ := reads_many_iff.1 named
    have isDotted : IsDotted name := ⟨List.length_pos_iff.1 some, dotted⟩
    rw [subscripts_append, subscripts_of_others isDotted.others, Option.bind_some]
    cases bracketed with
    | right nothing =>
      cases nothing
      rfl
    | left subscript =>
      obtain ⟨_, _, _, _, opened, close, rfl, -⟩ := reads_seq_iff.1 subscript
      obtain ⟨_, _, arguments, _, opens, inner, rfl, -⟩ := reads_seq_iff.1 opened
      cases opens
      cases close
      obtain ⟨inner, -, -⟩ := reads_many_iff.1 inner
      have notClosed : ']' ∉ arguments := fun member => absurd (inner _ member) (by decide)
      rw [List.append_assoc]
      show subscripts true (arguments ++ [']']) = _
      rw [subscripts_append, subscripts_of_not_mem notClosed]
      rfl
  obtain ⟨first, _, bars, _, part, more, rfl, -⟩ := reads_seq_iff.1 reads
  obtain ⟨pieces, rfl, each⟩ := more.exists_pieces
  rw [subscripts_append, named part, Option.bind_some]
  clear more reads
  induction pieces with
  | nil => rfl
  | cons piece pieces ih =>
    obtain ⟨⟨rec, once⟩, later⟩ := List.forall_mem_cons.1 each
    obtain ⟨_, _, part, _, lead, last, rfl, -⟩ := reads_seq_iff.1 once
    obtain ⟨_, _, gap', _, barred, blank', rfl, -⟩ := reads_seq_iff.1 lead
    obtain ⟨gap, _, _, _, blank, bar, rfl, -⟩ := reads_seq_iff.1 barred
    cases bar
    obtain ⟨blank, -, -⟩ := reads_many_iff.1 blank
    obtain ⟨blank', -, -⟩ := reads_many_iff.1 blank'
    have lead : ∀ c ∈ gap ++ "|".toList ++ gap', c ≠ '[' ∧ c ≠ ']' := by
      simp only [List.forall_mem_append]
      exact ⟨⟨others_of_blank blank, by decide⟩, others_of_blank blank'⟩
    rw [List.flatten_cons, subscripts_append, subscripts_append, subscripts_of_others lead,
      Option.bind_some, named last, Option.bind_some]
    exact ih later

end Models

end CodeSurvey
