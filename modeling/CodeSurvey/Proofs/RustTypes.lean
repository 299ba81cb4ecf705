import CodeSurvey.Proofs.Words

/-!
# Rust types as they are written

`Written` describes the types that are built from paths, generics, tuples, arrays, references and
function pointers, with white space wherever a line may have it. What the reader of structs relies
on is proved here by induction on how a type is built: which characters it has, how it starts and
ends, that it leaves no bracket open (`Written.depthOver_le`), and that its colons come in pairs
(`Written.colonsPaired`). Only the arrow of a function pointer has a bracket without a partner, so
types without one have all their commas inside brackets (`Written.uncut`).
-/

namespace CodeSurvey

/-! ## The types -/

/-- Names joined by double colons. -/
inductive IsPath : Text → Prop where
  | name {name : Text} (isName : IsName name) : IsPath name
  | more {name path : Text} (isName : IsName name) (later : IsPath path) :
      IsPath (name ++ "::".toList ++ path)

/-- What is written: one type, or types between commas. -/
inductive Arity where
  | one
  | many

inductive Written : Arity → Text → Prop where
  | path {path : Text} (isPath : IsPath path) : Written .one path
  | generic {path gap arguments : Text} (isPath : IsPath path) (isGap : IsGap gap)
      (inner : Written .many arguments) : Written .one (path ++ gap ++ '<' :: (arguments ++ ['>']))
  | tuple {items : Text} (inner : Written .many items) : Written .one ('(' :: (items ++ [')']))
  | array {gap item gap' : Text} (isGap : IsGap gap) (inner : Written .one item)
      (isGap' : IsGap gap') : Written .one ('[' :: (gap ++ item ++ gap' ++ [']']))
  | reference {gap item : Text} (isGap : IsGap gap) (inner : Written .one item) :
      Written .one ('&' :: (gap ++ item))
  | function {gap parameters gap' gap'' result : Text} (isGap : IsGap gap)
      (inner : Written .many parameters) (isGap' : IsGap gap') (isGap'' : IsGap gap'')
      (outcome : Written .one result) :
      Written .one ("fn".toList ++ gap ++
        '(' :: (parameters ++ ')' :: (gap' ++ "->".toList ++ gap'' ++ result)))
  | none {gap : Text} (isGap : IsGap gap) : Written .many gap
  | last {gap item gap' : Text} (isGap : IsGap gap) (inner : Written .one item)
      (isGap' : IsGap gap') : Written .many (gap ++ item ++ gap')
  | more {gap item gap' rest : Text} (isGap : IsGap gap) (inner : Written .one item)
      (isGap' : IsGap gap') (later : Written .many rest) :
      Written .many (gap ++ item ++ gap' ++ ',' :: rest)

/-- What types are made of besides names and white space. -/
def typeMarks : List Text :=
  ["fn".toList, "::".toList, "->".toList, ['<'], ['>'], ['('], [')'], ['['], [']'], ['&'], [',']]

section
variable {P : Text → Prop} (append : ∀ s t, P s → P t → P (s ++ t))
  (ofName : ∀ name, IsName name → P name)
include append ofName

theorem IsPath.of_parts (ofColons : P "::".toList) {path : Text} (h : IsPath path) : P path := by
  induction h with
  | name isName => exact ofName _ isName
  | more isName later ih => exact append _ _ (append _ _ (ofName _ isName) ofColons) ih

/-- What holds of gaps, names and marks and of texts that are put together holds of types. -/
theorem Written.of_parts (ofMark : ∀ mark ∈ typeMarks, P mark) (ofGap : ∀ gap, IsGap gap → P gap)
    {arity : Arity} {text : Text} (h : Written arity text) : P text := by
  have ofPath {path : Text} (isPath : IsPath path) : P path :=
    isPath.of_parts append ofName (ofMark _ (by decide))
  have cons {c : Char} {t : Text} (mark : [c] ∈ typeMarks) (later : P t) : P (c :: t) :=
    append [c] t (ofMark _ mark) later
  have closed {c : Char} {t : Text} (before : P t) (mark : [c] ∈ typeMarks) : P (t ++ [c]) :=
    append t [c] before (ofMark _ mark)
  induction h with
  | path isPath => exact ofPath isPath
  | generic isPath isGap inner ih =>
    have head := append _ _ (ofPath isPath) (ofGap _ isGap)
    exact append _ _ head (cons (by decide) (closed ih (by decide)))
  | tuple inner ih => exact cons (by decide) (closed ih (by decide))
  | array isGap inner isGap' ih =>
    have inside := append _ _ (append _ _ (ofGap _ isGap) ih) (ofGap _ isGap')
    exact cons (by decide) (closed inside (by decide))
  | reference isGap inner ih => exact cons (by decide) (append _ _ (ofGap _ isGap) ih)
  | function isGap inner isGap' isGap'' outcome ih ih' =>
    have head := append _ _ (ofMark "fn".toList (by decide)) (ofGap _ isGap)
    have arrow := append _ _ (append _ _ (ofGap _ isGap') (ofMark "->".toList (by decide)))
      (ofGap _ isGap'')
    have tail := cons (c := ')') (by decide) (append _ _ arrow ih')
    exact append _ _ head (cons (by decide) (append _ _ ih tail))
  | none isGap => exact ofGap _ isGap
  | last isGap inner isGap' ih =>
    exact append _ _ (append _ _ (ofGap _ isGap) ih) (ofGap _ isGap')
  | more isGap inner isGap' later ih ih' =>
    have item := append _ _ (append _ _ (ofGap _ isGap) ih) (ofGap _ isGap')
    exact append _ _ item (cons (by decide) ih')

end

/-! ## Characters -/

/-- The characters of types. -/
def isTypeChar (c : Char) : Bool :=
  isWord c || (isBlank c && !endsLine c) || "<>()[]&:-,".toList.contains c

theorem endsLine_of_isTypeChar {c : Char} (ok : isTypeChar c = true) : endsLine c = false := by
  rcases Bool.or_eq_true_iff.1 ok with ok | mark
  · rcases Bool.or_eq_true_iff.1 ok with word | gap
    · exact endsLine_of_isBlank_eq_false (isBlank_of_isWord word)
    · simpa using (Bool.and_eq_true_iff.1 gap).2
  · have apart := @isBlank_of_apart (fun c => "<>()[]&:-,".toList.contains c) (by decide +kernel)
    exact endsLine_of_isBlank_eq_false (apart mark)

theorem Written.isTypeChar {arity : Arity} {text : Text} (h : Written arity text) :
    ∀ c ∈ text, isTypeChar c = true := by
  apply h.of_parts (P := fun text => ∀ c ∈ text, CodeSurvey.isTypeChar c = true)
  case append => exact fun s t before after => List.forall_mem_append.2 ⟨before, after⟩
  case ofName =>
    intro name isName c member
    simp [CodeSurvey.isTypeChar, isName.2 c member]
  case ofMark => decide +kernel
  case ofGap =>
    intro gap isGap c member
    obtain ⟨blank, within⟩ := isGap c member
    simp [CodeSurvey.isTypeChar, blank, within]

/-- Whether a type can start with a character. -/
def StartsType (c : Char) : Prop := isBlank c = false ∧ c ≠ ',' ∧ c ≠ ':'

theorem startsType_of_isWord {c : Char} (word : isWord c = true) : StartsType c := by
  refine ⟨isBlank_of_isWord word, ?_, ?_⟩
  · rintro rfl
    exact absurd word (by decide)
  · rintro rfl
    exact absurd word (by decide)

theorem IsPath.starts {path : Text} (h : IsPath path) :
    ∃ c rest, path = c :: rest ∧ StartsType c := by
  cases h with
  | name isName =>
    obtain ⟨c, rest, rfl⟩ := List.exists_cons_of_ne_nil isName.1
    exact ⟨c, rest, rfl, startsType_of_isWord (isName.2 c (.head _))⟩
  | more isName later =>
    obtain ⟨c, rest, rfl⟩ := List.exists_cons_of_ne_nil isName.1
    exact ⟨c, _, rfl, startsType_of_isWord (isName.2 c (.head _))⟩

theorem Written.starts {text : Text} (h : Written .one text) :
    ∃ c rest, text = c :: rest ∧ StartsType c := by
  have mark {c : Char} (visible : isBlank c = false) (noComma : c ≠ ',') (noColon : c ≠ ':')
      (rest : Text) : ∃ c' rest', c :: rest = c' :: rest' ∧ StartsType c' :=
    ⟨c, rest, rfl, visible, noComma, noColon⟩
  cases h with
  | path isPath => exact isPath.starts
  | generic isPath isGap inner =>
    obtain ⟨c, rest, rfl, starts⟩ := isPath.starts
    exact ⟨c, _, rfl, starts⟩
  | tuple inner => exact mark rfl (by decide) (by decide) _
  | array isGap inner isGap' => exact mark rfl (by decide) (by decide) _
  | reference isGap inner => exact mark rfl (by decide) (by decide) _
  | function isGap inner isGap' isGap'' outcome => exact mark rfl (by decide) (by decide) _

theorem IsPath.ends {path : Text} (h : IsPath path) {c : Char} (last : path.getLast? = some c) :
    isBlank c = false := by
  induction h with
  | name isName => exact isBlank_of_isWord (isName.2 c (List.mem_of_getLast? last))
  | more isName later ih =>
    obtain ⟨c', rest, rfl, -⟩ := later.starts
    rw [List.getLast?_append_of_ne_nil _ (List.cons_ne_nil c' rest)] at last
    exact ih last

theorem Written.ends {text : Text} (h : Written .one text) {c : Char}
    (last : text.getLast? = some c) : isBlank c = false := by
  have mark {c' : Char} (visible : isBlank c' = false) {t : Text}
      (last : (t ++ [c']).getLast? = some c) : isBlank c = false := by
    rw [List.getLast?_concat] at last
    cases last
    exact visible
  -- The last character of a reference or a function pointer is the one of another type.
  have inside {t t' : Text} (inner : Written .one t')
      (ih : t'.getLast? = some c → Arity.one = .one → isBlank c = false)
      (last : (t ++ t').getLast? = some c) : isBlank c = false := by
    obtain ⟨c', rest, rfl, -⟩ := inner.starts
    rw [List.getLast?_append_of_ne_nil _ (List.cons_ne_nil c' rest)] at last
    exact ih last rfl
  generalize one : Arity.one = arity at h
  induction h with
  | path isPath => exact isPath.ends last
  | @generic path gap arguments isPath isGap inner ih =>
    exact mark (t := path ++ gap ++ '<' :: arguments) rfl (by simpa using last)
  | @tuple items inner ih => exact mark (t := '(' :: items) rfl last
  | @array gap item gap' isGap inner isGap' ih =>
    exact mark (t := '[' :: (gap ++ item ++ gap')) rfl last
  | @reference gap item isGap inner ih => exact inside (t := '&' :: gap) inner ih last
  | @function gap parameters gap' gap'' result isGap inner isGap' isGap'' outcome ih ih' =>
    let front := "fn".toList ++ gap ++ '(' :: (parameters ++ ')' :: (gap' ++ "->".toList ++ gap''))
    have same : front ++ result = "fn".toList ++ gap ++
        '(' :: (parameters ++ ')' :: (gap' ++ "->".toList ++ gap'' ++ result)) := by
      simp only [front, List.append_assoc, List.cons_append]
    exact inside outcome ih' (by rw [same, last])
  | none | last | more => cases one

/-! ## Brackets -/

theorem IsPath.isBracket {path : Text} (h : IsPath path) :
    ∀ c ∈ path, isBracket c = false ∧ (c == ',') = false := by
  apply h.of_parts
    (P := fun path => ∀ c ∈ path, CodeSurvey.isBracket c = false ∧ (c == ',') = false)
  case append => exact fun s t before after => List.forall_mem_append.2 ⟨before, after⟩
  case ofName =>
    intro name isName c member
    have word := isName.2 c member
    exact ⟨isBracket_of_isWord word, by simpa using (startsType_of_isWord word).2.1⟩
  case ofColons => decide

/-- The arrow of a function pointer closes a bracket, but never opens one. -/
theorem Written.depthOver_le {arity : Arity} {text : Text} (h : Written arity text) (depth : Nat) :
    depthOver depth text ≤ depth := by
  have level {gap : Text} (isGap : IsGap gap) (depth : Nat) : depthOver depth gap = depth :=
    depthOver_others isGap.isBracket depth
  have flat {path : Text} (isPath : IsPath path) (depth : Nat) : depthOver depth path = depth :=
    depthOver_others (fun c member => (isPath.isBracket c member).1) depth
  have opens {c : Char} (opener : isOpener c = true) (depth : Nat) :
      depthAfter depth c = depth + 1 := if_pos opener
  have closes {c : Char} (opener : isOpener c = false) (closer : isCloser c = true)
      (depth : Nat) : depthAfter depth c = depth - 1 := by simp [depthAfter, opener, closer]
  induction h generalizing depth with
  | path isPath => exact (flat isPath depth).le
  | generic isPath isGap inner ih =>
    rw [depthOver_append, depthOver_append, flat isPath, level isGap,
      depthOver_cons, opens rfl, depthOver_append, depthOver_cons, closes rfl rfl, depthOver_nil]
    have inside := ih (depth + 1)
    omega
  | tuple inner ih =>
    rw [depthOver_cons, opens rfl, depthOver_append, depthOver_cons, closes rfl rfl, depthOver_nil]
    have inside := ih (depth + 1)
    omega
  | array isGap inner isGap' ih =>
    rw [depthOver_cons, opens rfl, depthOver_append, depthOver_append, depthOver_append,
      level isGap, level isGap', depthOver_cons, closes rfl rfl, depthOver_nil]
    have inside := ih (depth + 1)
    omega
  | reference isGap inner ih =>
    rw [depthOver_cons, depthAfter_other rfl, depthOver_append, level isGap]
    exact ih depth
  | @function gap parameters gap' gap'' result isGap inner isGap' isGap'' outcome ih ih' =>
    have inside := ih (depth + 1)
    have after := ih' (depthOver (depth + 1) parameters - 1 - 1)
    have word : depthOver depth "fn".toList = depth := rfl
    have arrow (depth : Nat) : depthOver depth "->".toList = depth - 1 := rfl
    rw [depthOver_append, depthOver_append, word, level isGap, depthOver_cons, opens rfl,
      depthOver_append, depthOver_cons, closes rfl rfl, depthOver_append, depthOver_append,
      depthOver_append, level isGap', arrow, level isGap'']
    omega
  | none isGap => exact (level isGap depth).le
  | last isGap inner isGap' ih =>
    rw [depthOver_append, depthOver_append, level isGap, level isGap']
    exact ih depth
  | @more gap item gap' rest isGap inner isGap' later ih ih' =>
    rw [depthOver_append, depthOver_append, depthOver_append, level isGap, level isGap',
      depthOver_cons, depthAfter_other rfl]
    exact (ih' _).trans (ih depth)

/-- The characters that may stand outside all brackets of what is written. -/
def Arity.allows : Arity → Char → Prop
  | .one, c => (c == ',') = false
  | .many, _ => True

theorem Written.isNested {arity : Arity} {text : Text} (h : Written arity text)
    (noArrow : '-' ∉ text) : IsNested arity.allows text := by
  have noComma {c : Char} (other : c ≠ ',') : Arity.one.allows c := by
    simpa [Arity.allows] using other
  have gap {gap : Text} (arity : Arity) (isGap : IsGap gap) : IsNested arity.allows gap := by
    refine .of_others fun c member => ⟨isGap.isBracket c member, ?_⟩
    cases arity with
    | one => exact noComma (by rintro rfl; cases (isGap _ member).1)
    | many => trivial
  have path {path : Text} (isPath : IsPath path) : IsNested Arity.one.allows path :=
    .of_others isPath.isBracket
  induction h with
  | path isPath => exact path isPath
  | generic isPath isGap inner ih =>
    simp only [List.mem_append, List.mem_cons, not_or] at noArrow
    have inside := ih noArrow.2.2.1
    exact .append (.append (path isPath) (gap .one isGap)) (.pair (by decide) inside .nil)
  | tuple inner ih =>
    simp only [List.mem_append, List.mem_cons, not_or] at noArrow
    exact .pair (by decide) (ih noArrow.2.1) .nil
  | array isGap inner isGap' ih =>
    simp only [List.mem_append, List.mem_cons, not_or] at noArrow
    have item := (ih noArrow.2.1.1.2).mono fun _ _ => trivial
    exact .pair (by decide) (.append (.append (gap .many isGap) item) (gap .many isGap')) .nil
  | reference isGap inner ih =>
    simp only [List.mem_append, List.mem_cons, not_or] at noArrow
    exact .other rfl (noComma (by decide)) (.append (gap .one isGap) (ih noArrow.2.2))
  | function isGap inner isGap' isGap'' outcome ih ih' => simp at noArrow
  | none isGap => exact gap .many isGap
  | last isGap inner isGap' ih =>
    simp only [List.mem_append, not_or] at noArrow
    have item := (ih noArrow.1.2).mono fun _ _ => trivial
    exact .append (.append (gap .many isGap) item) (gap .many isGap')
  | more isGap inner isGap' later ih ih' =>
    simp only [List.mem_append, List.mem_cons, not_or] at noArrow
    have item := (ih noArrow.1.1.2).mono fun _ _ => trivial
    exact .append (.append (.append (gap .many isGap) item) (gap .many isGap'))
      (.other rfl trivial (ih' noArrow.2.2))

/-- All commas of a type without function pointers are inside brackets. -/
theorem Written.uncut {text : Text} (h : Written .one text) (noArrow : '-' ∉ text) :
    Uncut (· == ',') 0 text := by
  refine (h.isNested noArrow).uncut (fun c comma => ?_) fun c free comma => ?_
  · rw [eq_of_beq comma]
    rfl
  · rw [Arity.allows, comma] at free
    cases free

/-! ## Colons -/

/-- Whether a text is made of double colons and other characters. -/
inductive ColonsPaired : Text → Prop where
  | nil : ColonsPaired []
  | other {c : Char} {rest : Text} (noColon : c ≠ ':') (later : ColonsPaired rest) :
      ColonsPaired (c :: rest)
  | pair {rest : Text} (later : ColonsPaired rest) : ColonsPaired (':' :: ':' :: rest)

namespace ColonsPaired

variable {s t : Text}

theorem append (first : ColonsPaired s) (second : ColonsPaired t) : ColonsPaired (s ++ t) := by
  induction first with
  | nil => exact second
  | other noColon later ih => exact .other noColon ih
  | pair later ih => exact .pair ih

theorem of_forall (others : ∀ c ∈ s, c ≠ ':') : ColonsPaired s := by
  induction s with
  | nil => exact .nil
  | cons c s ih =>
    obtain ⟨noColon, others⟩ := List.forall_mem_cons.1 others
    exact .other noColon (ih others)

/-- Cutting at another character takes no pair apart. -/
theorem sides {c : Char} (noColon : c ≠ ':') (whole : ColonsPaired (s ++ c :: t)) :
    ColonsPaired s ∧ ColonsPaired t := by
  generalize same : s ++ c :: t = text at whole
  induction whole generalizing s with
  | nil => simp at same
  | @other c' rest noColon' later ih =>
    cases s with
    | nil =>
      obtain ⟨rfl, rfl⟩ := List.cons.inj same
      exact ⟨.nil, later⟩
    | cons c'' s =>
      obtain ⟨rfl, rfl⟩ := List.cons.inj same
      obtain ⟨before, after⟩ := ih rfl
      exact ⟨.other noColon' before, after⟩
  | @pair rest later ih =>
    match s with
    | [] => exact absurd (List.cons.inj same).1 noColon
    | [_] => exact absurd (List.cons.inj (List.cons.inj same).2).1 noColon
    | c' :: c'' :: s =>
      simp only [List.cons_append, List.cons.injEq] at same
      obtain ⟨rfl, rfl, rfl⟩ := same
      obtain ⟨before, after⟩ := ih rfl
      exact ⟨.pair before, after⟩

theorem of_append_left (others : ∀ c ∈ s, c ≠ ':') (whole : ColonsPaired (s ++ t)) :
    ColonsPaired t := by
  induction s with
  | nil => exact whole
  | cons c s ih =>
    obtain ⟨noColon, others⟩ := List.forall_mem_cons.1 others
    exact ih others (sides (s := []) noColon whole).2

theorem of_append_right (others : ∀ c ∈ t, c ≠ ':') (whole : ColonsPaired (s ++ t)) :
    ColonsPaired s := by
  cases t with
  | nil => rwa [List.append_nil] at whole
  | cons c t => exact (sides (others c (.head _)) whole).1

theorem trim {text : Text} (whole : ColonsPaired text) : ColonsPaired text.trim := by
  obtain ⟨before, after, same, blank, blank'⟩ := Text.exists_trimBy text isBlank
  have noColon {c : Char} (blank : isBlank c = true) : c ≠ ':' := by
    rintro rfl
    cases blank
  rw [same] at whole
  have inner := whole.of_append_left fun c member => noColon (blank c member)
  exact inner.of_append_right fun c member => noColon (blank' c member)

/-- A colon that comes after another character is the first of two. -/
theorem second_colon (whole : ColonsPaired (s ++ ':' :: t)) (first : s.getLast? ≠ some ':') :
    t.head? = some ':' := by
  generalize same : s ++ ':' :: t = text at whole
  induction whole generalizing s with
  | nil => simp at same
  | @other c rest noColon later ih =>
    cases s with
    | nil => exact absurd (List.cons.inj same).1.symm noColon
    | cons c' s =>
      obtain ⟨rfl, rfl⟩ := List.cons.inj same
      refine ih (fun last => first ?_) rfl
      rw [List.getLast?_cons, last]
      rfl
  | @pair rest later ih =>
    match s with
    | [] =>
      obtain ⟨-, rfl⟩ := List.cons.inj same
      rfl
    | [c] =>
      obtain ⟨rfl, -⟩ := List.cons.inj same
      exact absurd rfl first
    | c :: c' :: s =>
      simp only [List.cons_append, List.cons.injEq] at same
      obtain ⟨rfl, rfl, rfl⟩ := same
      refine ih (fun last => first ?_) rfl
      rw [List.getLast?_cons, List.getLast?_cons, last]
      rfl

end ColonsPaired

theorem Written.colonsPaired {arity : Arity} {text : Text} (h : Written arity text) :
    ColonsPaired text := by
  have apart {ok : Char → Bool} (none : ok ':' = false) {t : Text} (all : ∀ c ∈ t, ok c = true) :
      ColonsPaired t := by
    refine .of_forall fun c member => ?_
    rintro rfl
    rw [all _ member] at none
    cases none
  apply h.of_parts
  case append => exact fun s t => .append
  case ofName => exact fun name isName => apart rfl isName.2
  case ofGap => exact fun gap isGap => apart rfl fun c member => (isGap c member).1
  case ofMark =>
    intro mark member
    simp only [typeMarks, List.mem_cons, List.not_mem_nil, or_false] at member
    rcases member with rfl | rfl | rfl | rfl | rfl | rfl | rfl | rfl | rfl | rfl | rfl
    case inr.inl => exact .pair .nil
    all_goals exact .of_forall (by decide)

end CodeSurvey
