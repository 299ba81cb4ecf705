import CodeSurvey.Models.Rust
import CodeSurvey.Proofs.Flattening
import CodeSurvey.Proofs.Offers
import CodeSurvey.Proofs.Reports
import CodeSurvey.Proofs.RustTypes

/-!
# The fields of Rust structs

A struct is written with one field to a line, and a comment may end a line (`RustStruct`). Its
fields are read from the pieces between the commas outside all brackets (`Models.rustFields_eq`).
A piece starts with the comment of the line before, which hides the field that follows, and the
arrow of a function pointer closes a bracket that it did not open, so that a comma after it may end
the piece too soon. That these two are all that can go wrong is
`Models.rust_reads_declared_iff`.
-/

namespace CodeSurvey

/-! ## Structs as they are written -/

/-- Whether a character is no bracket, no comma and no end of a line. -/
def IsPlain (c : Char) : Prop := isBracket c = false ∧ (c == ',') = false ∧ endsLine c = false

instance : DecidablePred IsPlain := fun c =>
  inferInstanceAs (Decidable (isBracket c = false ∧ (c == ',') = false ∧ endsLine c = false))

/-- What follows the comma of a field: white space and maybe a comment. -/
structure RustTail where
  gap : Text
  comment : Option Text
  isGap : IsGap gap
  plain : ∀ text ∈ comment, ∀ c ∈ text, IsPlain c

/-- A field with its line. -/
structure RustField where
  indent : Text
  name : Text
  type : Text
  tail : RustTail
  isGap : IsGap indent
  isName : IsName name
  isType : Written .one type

structure RustStruct where
  isPublic : Bool
  name : Text
  /-- What is written between angle brackets after the name, if these are there. -/
  parameters : Option Text
  fields : List RustField
  isName : IsName name
  plain : ∀ text ∈ parameters, ∀ c ∈ text, c ≠ '>' ∧ c ≠ '{'

/-- Nothing. -/
def RustTail.none : RustTail := ⟨[], .none, List.forall_mem_nil _, nofun⟩

def RustTail.text (t : RustTail) : Text :=
  t.gap ++ match t.comment with
    | .none => []
    | some text => '/' :: '/' :: text

namespace RustField

/-- A line up to the type. -/
def head (f : RustField) : Text := f.indent ++ ("pub ".toList ++ f.name ++ ": ".toList)

def line (f : RustField) : Text := f.head ++ f.type ++ ',' :: f.tail.text

/-- The field that is declared, its type with single spaces for white space. -/
def declared (f : RustField) : Field :=
  ⟨String.ofList f.name, String.ofList (Text.joinWith [' '] f.type.words)⟩

end RustField

namespace RustStruct

def body (d : RustStruct) : Text := '\n' :: d.fields.flatMap fun f => f.line ++ ['\n']

/-- The struct from its body on. -/
def ending (d : RustStruct) : Text := d.body ++ '}' :: ['\n']

/-- The struct from its parameters on. -/
def afterName (d : RustStruct) : Text :=
  match d.parameters with
  | none => ' ' :: '{' :: d.ending
  | some text => '<' :: (text ++ '>' :: ' ' :: '{' :: d.ending)

/-- The struct without its visibility. -/
def declaration (d : RustStruct) : Text := "struct ".toList ++ d.name ++ d.afterName

def text (d : RustStruct) : Text := (if d.isPublic then "pub ".toList else []) ++ d.declaration

end RustStruct

/-! ### Characters -/

theorem IsGap.isPlain {gap : Text} (h : IsGap gap) : ∀ c ∈ gap, IsPlain c := by
  intro c member
  refine ⟨h.isBracket c member, ?_, (h c member).2⟩
  simp only [beq_eq_false_iff_ne, ne_eq]
  rintro rfl
  exact absurd (h _ member).1 (by decide)

theorem IsName.isPlain {name : Text} (h : IsName name) : ∀ c ∈ name, IsPlain c := by
  intro c member
  have starts := startsType_of_isWord (h.2 c member)
  exact ⟨isBracket_of_isWord (h.2 c member), by simpa using starts.2.1,
    endsLine_of_isBlank_eq_false starts.1⟩

theorem RustTail.isPlain (t : RustTail) : ∀ c ∈ t.text, IsPlain c := by
  rw [text, List.forall_mem_append]
  refine ⟨t.isGap.isPlain, ?_⟩
  cases comment : t.comment with
  | none => exact List.forall_mem_nil _
  | some text =>
    have inside := t.plain text comment
    exact List.forall_mem_cons.2 ⟨by decide, List.forall_mem_cons.2 ⟨by decide, inside⟩⟩

theorem RustField.head_isPlain (f : RustField) : ∀ c ∈ f.head, IsPlain c := by
  simp only [head, List.forall_mem_append]
  exact ⟨f.isGap.isPlain, ⟨by decide, f.isName.isPlain⟩, by decide⟩

theorem RustField.endsLine_line (f : RustField) : ∀ c ∈ f.line, endsLine c = false := by
  simp only [line, List.forall_mem_append, List.forall_mem_cons]
  exact ⟨⟨fun c member => (f.head_isPlain c member).2.2,
    fun c member => endsLine_of_isTypeChar (f.isType.isTypeChar c member)⟩, rfl,
    fun c member => (f.tail.isPlain c member).2.2⟩

theorem RustField.type_trim (f : RustField) : f.type.trim = f.type := by
  obtain ⟨c, rest, same, visible, -⟩ := f.isType.starts
  refine Text.trimBy_of_ends (fun c' first => ?_) fun c' last => f.isType.ends last
  rw [same] at first
  cases first
  exact visible

theorem RustStruct.ending_shorter (d : RustStruct) : d.ending.length < d.declaration.length := by
  have shorter : d.ending.length < d.afterName.length := by
    rw [RustStruct.afterName]
    cases d.parameters with
    | none =>
      rw [List.length_cons, List.length_cons]
      omega
    | some text =>
      rw [List.length_cons, List.length_append, List.length_cons, List.length_cons,
        List.length_cons]
      omega
  have longer (front : Text) : d.ending.length < (front ++ d.afterName).length := by
    rw [List.length_append]
    omega
  exact longer ("struct ".toList ++ d.name)

namespace Models

open Pattern Place

/-! ## Entries -/

/-- What is read from a piece between commas. -/
def readPiece (piece : Text) : List Field := rustEntryField piece.trim

/-- The entry of a field is read as the field. -/
theorem rustEntryField_declared {name type : Text} (isName : IsName name)
    (starts : ∃ c rest, type = c :: rest ∧ isBlank c = false) :
    rustEntryField ("pub ".toList ++ name ++ ": ".toList ++ type) =
      [⟨String.ofList name, String.ofList (Text.joinWith [' '] type.words)⟩] := by
  obtain ⟨c, rest, rfl, visible⟩ := starts
  obtain ⟨n, rest', rfl⟩ := List.exists_cons_of_ne_nil isName.1
  have visibleName : isBlank n = false := isBlank_of_isWord (isName.2 n (.head _))
  -- The text from the name on, from the colon on and from the type on.
  let t₃ := c :: rest ++ []
  let t₂ := ':' :: ' ' :: t₃
  let t₁ := n :: rest' ++ t₂
  let afterName := lastOf (some ' ') (n :: rest')
  let groups : Groups := [(1, ⟨between (some ' ') t₁, between afterName t₂⟩)]
  have noScope : Refuses ("(" ++ some1 (wordOr [':']) ++ ")") (between (some 'b') (' ' :: t₁)) [] :=
    ((refuses_lit (by decide) _ _ _).seq _).seq _
  have access : (opt ("pub" ++ opt ("(" ++ some1 (wordOr [':']) ++ ")") ++ blanks1)).Offers
      (between none ("pub".toList ++ ([' '] ++ t₁))) [] (between (some ' ') t₁) [] :=
    .left (((offers_lit _ _ _).seq (.right noScope offers_empty)).seq
      (offers_many _ (by decide) (stops_cons visibleName) (by decide)))
  have name : (group 1 word).Offers (between (some ' ') t₁) [] (between afterName t₂) groups :=
    .group (offers_many _ isName.2 (stops_cons (by decide)) (Nat.succ_pos _))
  have gap : blanks.Offers (between afterName t₂) groups (between afterName t₂) groups :=
    offers_many (t := []) _ (List.forall_mem_nil _) (stops_cons (by decide)) (Nat.zero_le _)
  have colon : (lit ":".toList).Offers (between afterName t₂) groups
      (between (some ':') (' ' :: t₃)) groups := offers_lit _ [':'] _
  have gap' : blanks.Offers (between (some ':') (' ' :: t₃)) groups
      (between (some ' ') t₃) groups :=
    offers_many (t := [' ']) _ (by decide) (stops_cons visible) (Nat.zero_le _)
  have type : (group 2 (some1 fun _ => true)).Offers (between (some ' ') t₃) groups
      (between (lastOf (some ' ') (c :: rest)) []) _ :=
    .group (offers_many _ (fun _ _ => rfl) stops_nil (Nat.succ_pos _))
  have offers : rustField.Offers (start ("pub".toList ++ ([' '] ++ t₁))) [] _ _ :=
    ((((((offers_test rfl).seq access).seq name).seq gap).seq colon).seq gap').seq type
      |>.seq (offers_test rfl)
  have entry : "pub ".toList ++ n :: rest' ++ ": ".toList ++ c :: rest =
      "pub".toList ++ ([' '] ++ t₁) := by
    simp [t₁, t₂, t₃]
  have recorded : (between (some ' ') t₁).upTo (between afterName t₂) = n :: rest' := upTo_eq rfl
  have recorded' : (between (some ' ') t₃).upTo (between (lastOf (some ' ') (c :: rest)) []) =
      c :: rest := upTo_eq rfl
  rw [entry, rustEntryField, matchAt?_of_offers offers]
  show [(⟨String.ofList ((between (some ' ') t₁).upTo (between afterName t₂)), String.ofList
    (Text.joinWith [' '] (Text.words ((between (some ' ') t₃).upTo
      (between (lastOf (some ' ') (c :: rest)) []))))⟩ : Field)] = _
  rw [recorded, recorded']

/-- What is read from an entry starts with a word before a colon, and the type follows. -/
theorem exists_of_mem_rustEntryField {entry : Text} {f : Field}
    (member : f ∈ rustEntryField entry) :
    ∃ before gap after : Text, ∃ type : Text, entry = before ++ ':' :: (gap ++ type ++ after) ∧
      (∃ c, before.head? = some c ∧ isWord c = true) ∧ before.getLast? ≠ some ':' ∧
      (∀ c ∈ gap, isBlank c = true) ∧ type ≠ [] ∧
      f.type = String.ofList (Text.joinWith [' '] type.words) := by
  rw [rustEntryField] at member
  split at member
  · cases member
  · next m found =>
    obtain rfl := List.mem_singleton.1 member
    obtain ⟨⟨rest, reads⟩, first⟩ := matches_of_matchAt? found
    rw [first] at rest
    obtain ⟨_, _, _, _, upToType, atEnd, text, groups⟩ := reads_seq_iff.1 reads
    obtain ⟨_, _, type, _, upToGap, isType, rfl, rfl⟩ := reads_seq_iff.1 upToType
    obtain ⟨_, _, gap, _, upToColon, blank, rfl, -⟩ := reads_seq_iff.1 upToGap
    obtain ⟨_, _, _, _, upToGap', colon, rfl, -⟩ := reads_seq_iff.1 upToColon
    obtain ⟨_, _, gap', _, upToName, blank', rfl, -⟩ := reads_seq_iff.1 upToGap'
    obtain ⟨_, _, name, _, upToAccess, isName, rfl, -⟩ := reads_seq_iff.1 upToName
    obtain ⟨_, _, access, _, atStart, isAccess, rfl, -⟩ := reads_seq_iff.1 upToAccess
    cases atStart
    cases colon
    cases atEnd
    obtain ⟨_, typed, rfl⟩ := reads_group_iff.1 isType
    obtain ⟨_, named, -⟩ := reads_group_iff.1 isName
    obtain ⟨word, long, -⟩ := reads_many_iff.1 named
    obtain ⟨blank, -, -⟩ := reads_many_iff.1 blank
    obtain ⟨blank', -, -⟩ := reads_many_iff.1 blank'
    obtain ⟨-, long', -⟩ := reads_many_iff.1 typed
    have recorded : m.group 2 = type := by
      rw [Match.group, Match.group?, ← Groups.lookup_texts, groups]
      rfl
    refine ⟨access ++ name ++ gap', gap, m.last.rest, type, ?_, ?_, ?_, blank,
      List.ne_nil_of_length_pos long', by rw [recorded]⟩
    · have whole : entry = m.text ++ m.last.rest := rest
      rw [whole, text]
      simp
    · obtain ⟨c, rest', rfl⟩ := List.exists_cons_of_length_pos long
      cases isAccess with
      | left visibility =>
        obtain ⟨_, _, _, _, withScope, -, rfl, -⟩ := reads_seq_iff.1 visibility
        obtain ⟨_, _, _, _, pub, -, rfl, -⟩ := reads_seq_iff.1 withScope
        cases pub
        exact ⟨'p', rfl, by decide⟩
      | right nothing =>
        cases nothing
        exact ⟨c, rfl, word c (.head _)⟩
    · intro colon
      have nonempty : name ++ gap' ≠ [] :=
        List.append_ne_nil_of_left_ne_nil (List.ne_nil_of_length_pos long) gap'
      rw [List.append_assoc, List.getLast?_append_of_ne_nil _ nonempty] at colon
      rcases List.mem_append.1 (List.mem_of_getLast? colon) with inName | inGap
      · exact absurd (word _ inName) (by decide)
      · exact absurd (blank' _ inGap) (by decide)

theorem rustEntryField_slash (rest : Text) : rustEntryField ('/' :: rest) = [] := by
  rw [List.eq_nil_iff_forall_not_mem]
  intro f member
  obtain ⟨before, _, _, _, whole, ⟨c, first, word⟩, -⟩ := exists_of_mem_rustEntryField member
  obtain ⟨before, rfl⟩ := List.head?_eq_some_iff.1 first
  obtain ⟨rfl, -⟩ := List.cons.inj whole
  exact absurd word (by decide)

theorem rustEntryField_nil : rustEntryField [] = [] := rfl

/-- A field whose type starts with a colon. -/
def IsStray (f : Field) : Prop := (Text.visible f.type.toList).head? = some ':'

instance : DecidablePred IsStray :=
  fun f => inferInstanceAs (Decidable ((Text.visible f.type.toList).head? = some ':'))

/-- What is read from a text with paired colons is the rest of a path. -/
theorem isStray_of_mem {entry : Text} (paired : ColonsPaired entry) {f : Field}
    (member : f ∈ rustEntryField entry) : IsStray f := by
  obtain ⟨before, gap, after, type, rfl, -, noColon, blank, nonempty, typed⟩ :=
    exists_of_mem_rustEntryField member
  have second := paired.second_colon noColon
  cases gap with
  | cons c gap =>
    cases second
    exact absurd (blank ':' (.head _)) (by decide)
  | nil =>
    obtain ⟨c, rest, rfl⟩ := List.exists_cons_of_ne_nil nonempty
    cases second
    rw [IsStray, typed, String.toList_ofList, Text.visible_joinWith_words]
    rfl

/-! ## Pieces -/

theorem readPiece_field {lead name type : Text} (blank : ∀ c ∈ lead, isBlank c = true)
    (isName : IsName name) (starts : ∃ c rest, type = c :: rest ∧ StartsType c) :
    readPiece (lead ++ ("pub ".toList ++ name ++ ": ".toList ++ type)) =
      [⟨String.ofList name, String.ofList (Text.joinWith [' '] type.trim.words)⟩] := by
  obtain ⟨c, rest, rfl, visible, -⟩ := starts
  obtain ⟨core, after, trimmed, rfl, blank'⟩ := Text.exists_trimBy_cons visible rest
  have whole : lead ++ ("pub ".toList ++ name ++ ": ".toList ++ c :: (core ++ after)) =
      lead ++ (("pub ".toList ++ name ++ ": ".toList ++ c :: core) ++ after) := by
    simp
  have entry : (lead ++ ("pub ".toList ++ name ++ ": ".toList ++ c :: (core ++ after))).trim =
      "pub ".toList ++ name ++ ": ".toList ++ c :: core := by
    rw [whole]
    apply Text.trimBy_around blank blank'
    · intro c' first
      cases first
      rfl
    · intro c' last
      rw [List.getLast?_append_of_ne_nil _ (List.cons_ne_nil c core), ← trimmed] at last
      exact Text.getLast?_trimBy last
  rw [readPiece, entry, rustEntryField_declared isName ⟨c, core, rfl, visible⟩,
    show Text.trim (c :: (core ++ after)) = c :: core from trimmed]

theorem readPiece_comment {lead : Text} (blank : ∀ c ∈ lead, isBlank c = true) (rest : Text) :
    readPiece (lead ++ '/' :: rest) = [] := by
  have visible : isBlank '/' = false := rfl
  obtain ⟨core, after, trimmed, -⟩ := Text.exists_trimBy_cons visible rest
  rw [readPiece, Text.trim, Text.trimBy_append blank, trimmed, rustEntryField_slash]

theorem readPiece_tail (t : RustTail) : readPiece t.text = [] := by
  have blank : ∀ c ∈ t.gap, isBlank c = true := fun c member => (t.isGap c member).1
  rw [RustTail.text]
  cases t.comment with
  | none =>
    rw [List.append_nil, readPiece, show t.gap.trim = [] from Text.trimBy_eq_nil_iff.2 blank,
      rustEntryField_nil]
  | some text => exact readPiece_comment blank _

/-- What is read from the pieces of a text. -/
def readPieces (text : Text) : List Field := (pieces (· == ',') 0 text).flatMap readPiece

theorem splitTopLevel_flatMap (text : Text) :
    (splitTopLevel (· == ',') text).flatMap rustEntryField = readPieces text :=
  flatMap_splitTopLevel rustEntryField_nil text

/-! ## Fields -/

section
variable (t : RustTail) (f : RustField) (fs : List RustField)

/-- What stands between the comma of a field and the type of the next. -/
def lead : Text := t.text ++ '\n' :: f.head

/-- The lines of fields after the rest of a line. -/
def linesAfter : Text := t.text ++ fs.flatMap fun f => '\n' :: f.line

theorem lead_others : ∀ c ∈ lead t f, isBracket c = false ∧ (c == ',') = false := by
  have plain {c : Char} (h : IsPlain c) : isBracket c = false ∧ (c == ',') = false := ⟨h.1, h.2.1⟩
  rw [lead, List.forall_mem_append, List.forall_mem_cons]
  exact ⟨fun c member => plain (t.isPlain c member), by decide,
    fun c member => plain (f.head_isPlain c member)⟩

theorem depthOver_lead : depthOver 0 (lead t f) = 0 :=
  depthOver_others (fun c member => (lead_others t f c member).1) 0

theorem readPieces_tail : readPieces (linesAfter t []) = [] := by
  have uncut : Uncut (· == ',') 0 t.text :=
    uncut_of_forall fun c member => (t.isPlain c member).2.1
  rw [linesAfter, List.flatMap_nil, List.append_nil, readPieces, pieces_of_uncut uncut,
    List.flatMap_singleton, readPiece_tail]

theorem readPieces_lines : readPieces (linesAfter t (f :: fs)) =
    readPieces (lead t f ++ f.type) ++ readPieces (linesAfter f.tail fs) := by
  have whole : linesAfter t (f :: fs) = (lead t f ++ f.type) ++ ',' :: linesAfter f.tail fs := by
    simp [linesAfter, lead, RustField.line]
  have closed : depthAfter (depthOver 0 (lead t f ++ f.type)) ',' = 0 := by
    have level : depthOver 0 f.type = 0 := Nat.le_zero.1 (f.isType.depthOver_le 0)
    rw [depthOver_append, depthOver_lead, level]
    rfl
  rw [whole, readPieces, pieces_append_separator rfl closed, List.flatMap_append]
  rfl

end

/-- A field gives itself, with its type up to where that is cut, unless a comment hides it, and what
is cut off gives strays. -/
theorem exists_readPieces (t : RustTail) (f : RustField) : ∃ first extra,
    readPieces (lead t f ++ f.type) = (if t.comment = none then
      [⟨String.ofList f.name, String.ofList (Text.joinWith [' '] first.trim.words)⟩] else []) ++
        extra ∧
    (∀ g ∈ extra, IsStray g) ∧
    (Uncut (· == ',') 0 f.type ∧ first = f.type ∧ extra = [] ∨
      ¬ Uncut (· == ',') 0 f.type ∧ ∃ rest, f.type = first ++ ',' :: rest) := by
  have uncutLead : Uncut (· == ',') 0 (lead t f) :=
    uncut_of_forall fun c member => (lead_others t f c member).2
  obtain ⟨first, others, same, front⟩ := exists_first_piece (· == ',') 0 f.type
  have strays : ∀ g ∈ others.flatMap readPiece, IsStray g := by
    have paired : ∀ piece ∈ pieces (· == ',') 0 f.type, ColonsPaired piece :=
      forall_mem_pieces (fun _ _ _ comma => ColonsPaired.sides (by rw [eq_of_beq comma]; decide)) 0
        f.isType.colonsPaired
    rw [same, List.forall_mem_cons] at paired
    refine List.forall_mem_flatMap.2 fun piece member g read => ?_
    exact isStray_of_mem (paired.2 piece member).trim read
  have starts : ∃ c rest, first = c :: rest ∧ StartsType c := by
    obtain ⟨c, rest, typed, starts⟩ := f.isType.starts
    rcases front with ⟨rfl, -⟩ | ⟨c', rest', comma, typed', -⟩
    · exact ⟨c, rest, typed, starts⟩
    · cases first with
      | nil =>
        rw [typed] at typed'
        obtain ⟨rfl, -⟩ := List.cons.inj typed'
        exact absurd (eq_of_beq comma) starts.2.1
      | cons c'' first =>
        rw [typed] at typed'
        obtain ⟨rfl, -⟩ := List.cons.inj typed'
        exact ⟨c, first, rfl, starts⟩
  refine ⟨first, others.flatMap readPiece, ?_, strays, ?_⟩
  · rw [readPieces, pieces_append uncutLead, depthOver_lead, same, List.modifyHead_cons,
      List.flatMap_cons]
    congr 1
    have blank : ∀ c ∈ t.gap, isBlank c = true := fun c member => (t.isGap c member).1
    split
    · next bare =>
      have apart : ∀ c ∈ t.gap ++ '\n' :: f.indent, isBlank c = true :=
        List.forall_mem_append.2 ⟨blank, List.forall_mem_cons.2
          ⟨rfl, fun c member => (f.isGap c member).1⟩⟩
      have whole : lead t f ++ first = (t.gap ++ '\n' :: f.indent) ++
          ("pub ".toList ++ f.name ++ ": ".toList ++ first) := by
        simp [lead, RustTail.text, bare, RustField.head]
      rw [whole, readPiece_field apart f.isName starts]
    · next commented =>
      obtain ⟨text, comment⟩ := Option.ne_none_iff_exists'.1 commented
      have whole : lead t f ++ first = t.gap ++
          '/' :: ('/' :: (text ++ '\n' :: (f.head ++ first))) := by
        simp [lead, RustTail.text, comment]
      rw [whole, readPiece_comment blank]
  · rcases front with ⟨rfl, rfl⟩ | ⟨c, rest, comma, typed, rfl⟩
    · exact .inl ⟨uncut_of_mem_pieces (by rw [same]; exact .head _), rfl, rfl⟩
    · refine .inr ⟨fun uncut => ?_, rest, ?_⟩
      · rw [pieces_of_uncut uncut, typed] at same
        have long := congrArg List.length (List.cons.inj same).1
        simp at long
      · rw [typed, eq_of_beq comma]

/-- Whether fields are read after the rest of a line: no comment ends a line before one of them, and
no type is cut. -/
def AreRead : RustTail → List RustField → Prop
  | _, [] => True
  | t, f :: fs => t.comment = none ∧ Uncut (· == ',') 0 f.type ∧ AreRead f.tail fs

theorem not_isStray_declared (f : RustField) : ¬ IsStray f.declared := by
  obtain ⟨c, rest, same, visible, -, noColon⟩ := f.isType.starts
  have kept : Text.visible (c :: rest) = c :: Text.visible rest :=
    List.filter_cons_of_pos (by simp [visible])
  rw [IsStray, RustField.declared, String.toList_ofList, Text.visible_joinWith_words, same, kept]
  simpa using noColon

/-- A type that is cut has lost its comma. -/
theorem declared_ne_of_cut {f : RustField} {first rest : Text}
    (cut : f.type = first ++ ',' :: rest) :
    (⟨String.ofList f.name, String.ofList (Text.joinWith [' '] first.trim.words)⟩ : Field) ≠
      f.declared := by
  intro same
  have types := congrArg (fun f => (Text.visible f.type.toList).length) same
  simp only [RustField.declared, String.toList_ofList, Text.visible_joinWith_words] at types
  obtain ⟨before, after, whole, -⟩ := Text.exists_trimBy first isBlank
  have shorter : first.trim.visible.length ≤ first.visible.length := by
    have lengths := congrArg (fun t => (Text.visible t).length) whole
    simp only [Text.visible_append, List.length_append] at lengths
    rw [Text.trim]
    omega
  have comma : (Text.visible (',' :: rest)).length = rest.visible.length + 1 := rfl
  rw [cut, Text.visible_append, List.length_append, comma] at types
  omega

theorem countP_strays {extra : List Field} (strays : ∀ g ∈ extra, IsStray g) :
    extra.countP (¬ IsStray ·) = 0 := by
  rw [List.countP_eq_zero]
  intro g member
  simpa using strays g member

/-- At most one field that is no stray is read for each that is declared. -/
theorem countP_readPieces_le (t : RustTail) (fs : List RustField) :
    (readPieces (linesAfter t fs)).countP (¬ IsStray ·) ≤ fs.length := by
  induction fs generalizing t with
  | nil =>
    rw [readPieces_tail]
    exact Nat.le_refl 0
  | cons f fs ih =>
    obtain ⟨first, extra, read, strays, -⟩ := exists_readPieces t f
    have noOther := countP_strays strays
    have later := ih f.tail
    have one (g : Field) : [g].countP (¬ IsStray ·) ≤ 1 := List.countP_le_length
    rw [readPieces_lines, read, List.countP_append, List.countP_append, noOther, List.length_cons]
    split
    · calc _ ≤ 1 + fs.length := Nat.add_le_add (one _) later
        _ = fs.length + 1 := Nat.add_comm 1 _
    · rw [List.countP_nil]
      omega

theorem readPieces_eq_iff (t : RustTail) (fs : List RustField) :
    readPieces (linesAfter t fs) = fs.map (·.declared) ↔ AreRead t fs := by
  induction fs generalizing t with
  | nil => simp [readPieces_tail, AreRead]
  | cons f fs ih =>
    obtain ⟨first, extra, read, strays, whole⟩ := exists_readPieces t f
    rw [readPieces_lines, read, AreRead, ← ih f.tail, List.map_cons]
    by_cases bare : t.comment = none
    · rw [if_pos bare]
      rcases whole with ⟨uncut, rfl, rfl⟩ | ⟨cut, rest, typed⟩
      · rw [f.type_trim]
        simp [bare, uncut, RustField.declared]
      · have other := declared_ne_of_cut typed
        simp [bare, cut, other]
    · rw [if_neg bare]
      refine ⟨fun same => ?_, fun read => absurd read.1 bare⟩
      -- Without the hidden field, there are fewer fields that are no strays.
      have noOther := countP_strays strays
      have all : ((f :: fs).map (·.declared)).countP (¬ IsStray ·) = (f :: fs).length := by
        rw [List.countP_eq_length.2, List.length_map]
        exact List.forall_mem_map.2 fun f _ => by simpa using not_isStray_declared f
      have fewer := countP_readPieces_le f.tail fs
      rw [List.map_cons, ← same, List.nil_append, List.countP_append, noOther,
        List.length_cons] at all
      omega

theorem areRead_iff (t : RustTail) (fs : List RustField) : AreRead t fs ↔
    (fs ≠ [] → t.comment = none) ∧ (∀ f ∈ fs, Uncut (· == ',') 0 f.type) ∧
      ∀ f ∈ fs.dropLast, f.tail.comment = none := by
  induction fs generalizing t with
  | nil => simp [AreRead]
  | cons f fs ih =>
    rw [AreRead, ih f.tail, List.forall_mem_cons]
    cases fs with
    | nil => simp
    | cons f' fs =>
      simp only [List.dropLast_cons_cons, List.forall_mem_cons, ne_eq, reduceCtorEq,
        not_false_eq_true, forall_const]
      tauto

/-! ## Bodies -/

theorem lines_body (d : RustStruct) : d.body.lines = [] :: d.fields.map (·.line) := by
  have each (fs : List RustField) :
      Text.lines (fs.flatMap fun f => f.line ++ ['\n']) = fs.map (·.line) := by
    induction fs with
    | nil => rfl
    | cons f fs ih =>
      rw [List.flatMap_cons, List.append_assoc, List.singleton_append,
        Text.lines_append f.line f.endsLine_line, ih, List.map_cons]
  have first := Text.lines_append [] (List.forall_mem_nil _)
    (d.fields.flatMap fun f => f.line ++ ['\n'])
  rw [each] at first
  exact first

/-- No line of a field starts with a comment or an attribute. -/
theorem startsWithAny_line (f : RustField) : startsWithAny ["//", "#["] f.line.trim = false := by
  obtain ⟨rest, whole⟩ : ∃ rest, f.line = f.indent ++ 'p' :: rest := by
    simp [RustField.line, RustField.head]
  have blank : ∀ c ∈ f.indent, isBlank c = true := fun c member => (f.isGap c member).1
  have visible : isBlank 'p' = false := rfl
  obtain ⟨core, after, trimmed, -⟩ := Text.exists_trimBy_cons visible rest
  rw [whole, Text.trim, Text.trimBy_append blank, trimmed]
  rfl

theorem rustFields_eq (d : RustStruct) :
    rustFields d.body = readPieces (linesAfter .none d.fields) := by
  have kept : rustLines d.body = [] :: d.fields.map (·.line) := by
    rw [rustLines, lines_body, List.filter_cons_of_pos (by decide), List.filter_eq_self.2]
    refine List.forall_mem_map.2 fun f _ => ?_
    rw [startsWithAny_line]
    rfl
  have joined : Text.joinWith ['\n'] ([] :: d.fields.map (·.line)) =
      linesAfter .none d.fields := by
    rw [Text.joinWith_cons, List.flatMap_map]
    rfl
  rw [rustFields, kept, joined, splitTopLevel_flatMap]

theorem isBare_body (d : RustStruct) : IsBare '{' '}' d.body := by
  have plain {c : Char} (h : IsPlain c) : c ≠ '{' ∧ c ≠ '}' := by
    constructor <;> rintro rfl <;> exact absurd h.1 (by decide)
  have typeChar {c : Char} (h : isTypeChar c = true) : c ≠ '{' ∧ c ≠ '}' := by
    constructor <;> rintro rfl <;> exact absurd h (by decide +kernel)
  have others : ∀ c ∈ d.body, c ≠ '{' ∧ c ≠ '}' := by
    rw [RustStruct.body, List.forall_mem_cons, List.forall_mem_flatMap]
    refine ⟨by decide, fun f _ => ?_⟩
    simp only [RustField.line, List.forall_mem_append, List.forall_mem_cons]
    exact ⟨⟨⟨fun c member => plain (f.head_isPlain c member),
      fun c member => typeChar (f.isType.isTypeChar c member)⟩, by decide,
      fun c member => plain (f.tail.isPlain c member)⟩, by decide, List.forall_mem_nil _⟩
  exact ⟨fun member => (others _ member).1 rfl, fun member => (others _ member).2 rfl⟩

/-! ## Declarations -/

/-- What follows the name is read up to the opening brace. -/
theorem afterName_offers (d : RustStruct) (previous : Option Char) (g : Groups) : ∃ previous',
    (blanks ++ opt ("<" ++ some0 (noneOf ['>', '{']) ++ ">") ++ blanks ++ "\x7b").Offers
      (between previous d.afterName) g (between previous' d.ending) g := by
  rw [RustStruct.afterName]
  cases parameters : d.parameters with
  | none =>
    have noAngle : Refuses ("<" ++ some0 (noneOf ['>', '{']) ++ ">")
        (between (some ' ') ('{' :: d.ending)) g :=
      ((refuses_lit (by decide) _ _ _).seq _).seq _
    have gap : blanks.Offers (between previous (' ' :: '{' :: d.ending)) g
        (between (some ' ') ('{' :: d.ending)) g :=
      offers_many (t := [' ']) _ (by decide) (stops_cons rfl) (Nat.zero_le _)
    have gap' : blanks.Offers (between (some ' ') ('{' :: d.ending)) g
        (between (some ' ') ('{' :: d.ending)) g :=
      offers_many (t := []) _ (List.forall_mem_nil _) (stops_cons rfl) (Nat.zero_le _)
    exact ⟨_, ((gap.seq (.right noAngle offers_empty)).seq gap').seq (offers_lit _ ['{'] _)⟩
  | some text =>
    have inside : ∀ c ∈ text, noneOf ['>', '{'] c = true := by
      intro c member
      obtain ⟨noCloser, noBrace⟩ := d.plain text parameters c member
      simp [noneOf, noCloser, noBrace]
    have gap : blanks.Offers (between previous ('<' :: (text ++ '>' :: ' ' :: '{' :: d.ending))) g
        (between previous ('<' :: (text ++ '>' :: ' ' :: '{' :: d.ending))) g :=
      offers_many (t := []) _ (List.forall_mem_nil _) (stops_cons rfl) (Nat.zero_le _)
    have parameters : (some0 (noneOf ['>', '{'])).Offers
        (between (some '<') (text ++ '>' :: ' ' :: '{' :: d.ending)) g
        (between (lastOf (some '<') text) ('>' :: ' ' :: '{' :: d.ending)) g :=
      offers_many _ inside (stops_cons rfl) (Nat.zero_le _)
    have gap' : blanks.Offers (between (some '>') (' ' :: '{' :: d.ending)) g
        (between (some ' ') ('{' :: d.ending)) g :=
      offers_many (t := [' ']) _ (by decide) (stops_cons rfl) (Nat.zero_le _)
    have angles := ((offers_lit (g := g) previous ['<'] _).seq parameters).seq
      (offers_lit _ ['>'] _)
    exact ⟨_, ((gap.seq (.left angles)).seq gap').seq (offers_lit _ ['{'] _)⟩

/-- The declaration is read up to the opening brace where it starts, and its name is recorded. -/
theorem exists_match_declaration (d : RustStruct) {previous : Option Char}
    (apart : previous.any isWord = false) : ∃ last groups,
      rustStruct.matchAt? (between previous d.declaration) =
        some ⟨between previous d.declaration, between last d.ending, groups⟩ ∧
      Match.string ⟨between previous d.declaration, between last d.ending, groups⟩ 1 =
        String.ofList d.name := by
  obtain ⟨n, rest, name⟩ := List.exists_cons_of_ne_nil d.isName.1
  have visible : isBlank n = false := isBlank_of_isWord (d.isName.2 n (by rw [name]; exact .head _))
  have stops : ∀ c, d.afterName.head? = some c → isWord c = false := by
    rw [RustStruct.afterName]
    cases d.parameters with
    | none => exact stops_cons (by decide)
    | some text => exact stops_cons (by decide)
  have whole : d.declaration = "struct".toList ++ ([' '] ++ (d.name ++ d.afterName)) :=
    List.append_assoc _ _ _
  let groups : Groups := [(1, ⟨between (some ' ') (d.name ++ d.afterName),
    between (lastOf (some ' ') d.name) d.afterName⟩)]
  obtain ⟨last, after⟩ := afterName_offers d (lastOf (some ' ') d.name) groups
  have edge : wordEdge.Offers (between previous d.declaration) []
      (between previous d.declaration) [] := by
    refine offers_test ?_
    show (previous.any isWord != (d.declaration.head?.any isWord)) = true
    rw [apart, whole]
    rfl
  have space : blanks1.Offers (between (some 't') ([' '] ++ (d.name ++ d.afterName))) []
      (between (some ' ') (d.name ++ d.afterName)) [] :=
    offers_many _ (by decide) (by rw [name]; exact stops_cons visible) (by decide)
  have named : (group 1 word).Offers (between (some ' ') (d.name ++ d.afterName)) []
      (between (lastOf (some ' ') d.name) d.afterName) groups :=
    .group (offers_many _ d.isName.2 stops (List.length_pos_iff.2 d.isName.1))
  have offers : rustStruct.Offers (between previous d.declaration) [] (between last d.ending)
      groups := by
    rw [whole] at edge ⊢
    exact (((edge.seq (offers_lit _ "struct".toList _)).seq space).seq named).seq after
  have recorded : (between (some ' ') (d.name ++ d.afterName)).upTo
      (between (lastOf (some ' ') d.name) d.afterName) = d.name := upTo_eq rfl
  exact ⟨last, groups, matchAt?_of_offers offers, congrArg String.ofList recorded⟩

theorem rustStruct_refuses {previous : Option Char} {c : Char} (other : c ≠ 's') (rest : Text) :
    rustStruct.matchAt? (between previous (c :: rest)) = none := by
  have word : Refuses (wordEdge ++ "struct") (between previous (c :: rest)) [] :=
    .test (refuses_lit other _ _ _)
  exact matchAt?_of_refuses ((((((word.seq _).seq _).seq _).seq _).seq _).seq _)

theorem rustStruct_reads {t : Text} {rec : List (Nat × Text)} (reads : rustStruct.Reads t rec) :
    '{' ∈ t := by
  obtain ⟨_, _, _, _, -, brace, rfl, -⟩ := reads_seq_iff.1 reads
  cases brace
  exact List.mem_append_right _ (.head _)

/-- The struct is the only one that is found in its text. -/
theorem exists_all_text (d : RustStruct) : ∃ m, rustStruct.all d.text = [m] ∧
    m.string 1 = String.ofList d.name ∧ m.last.rest = d.ending := by
  have noBrace : '{' ∉ d.ending := by
    rw [RustStruct.ending, List.mem_append, not_or]
    exact ⟨(isBare_body d).1, by decide⟩
  -- The declaration stands at the start of the text or after its visibility.
  obtain ⟨previous, apart, above⟩ : ∃ previous : Option Char, previous.any isWord = false ∧
      rustStruct.find d.text = rustStruct.find? (between previous d.declaration) := by
    rw [RustStruct.text, find, start_eq]
    cases d.isPublic with
    | false => exact ⟨none, rfl, rfl⟩
    | true =>
      have passed {previous : Option Char} {c : Char} (other : c ≠ 's') (rest : Text) :
          rustStruct.find? (between previous (c :: rest)) =
            rustStruct.find? (between (some c) rest) :=
        find?_of_none (rustStruct_refuses other rest)
      refine ⟨some ' ', by decide, ?_⟩
      show rustStruct.find? (between none ('p' :: 'u' :: 'b' :: ' ' :: d.declaration)) = _
      rw [passed (by decide), passed (by decide), passed (by decide), passed (by decide)]
  obtain ⟨last, groups, here, named⟩ := exists_match_declaration d apart
  have found := above.trans (find?_of_matchAt? here)
  have others := find?_eq_none (p := between last d.ending) (fun _ _ => rustStruct_reads) noBrace
  exact ⟨_, all_eq_singleton found d.ending_shorter others, named, rfl⟩

theorem inBraces_text (d : RustStruct) (file : String) :
    inBraces rustStruct rustFields file d.text =
      Model.ofFields (String.ofList d.name) (readPieces (linesAfter .none d.fields)) file := by
  obtain ⟨m, all, named, after⟩ := exists_all_text d
  have body : bodyAfter? '{' '}' d.ending = some d.body :=
    (bodyAfter?_eq_some_iff (by decide)).2 ⟨isBalanced_of_isBare (isBare_body d), ['\n'], rfl⟩
  rw [inBraces, all, List.flatMap_singleton, after, body, named, ← rustFields_eq]

section
variable {s : Source} {l : List String} {file : String} (d : RustStruct)
  (listed : s.files = .ok l) (chosen : findFiles ["**/*.rs"] l = [file])
  (readable : s.read file = .ok (some d.text))
include listed chosen readable

theorem run_rust_eq_iff :
    rust.scan.run s = .ok [⟨String.ofList d.name, d.fields.map (·.declared), file⟩] ↔
      d.fields ≠ [] ∧ AreRead .none d.fields := by
  have run : rust.scan.run s = .ok
      (Model.ofFields (String.ofList d.name) (readPieces (linesAfter .none d.fields)) file) := by
    rw [rust, Scan.run_eachFile listed, chosen, ← inBraces_text]
    exact Scan.run_eachText_singleton readable _
  rw [run, Except.ok.injEq, Model.ofFields_eq_iff, readPieces_eq_iff, ne_eq, List.map_eq_nil_iff]

/-- The struct in a file is reported with its fields exactly if it has any, no comment ends a line
before one of them, and no type has a comma at which it is cut. Only a type with an arrow has. -/
theorem rust_reads_declared_iff :
    (rust.scan.run s = .ok [⟨String.ofList d.name, d.fields.map (·.declared), file⟩] ↔
      d.fields ≠ [] ∧ (∀ f ∈ d.fields, Uncut (· == ',') 0 f.type) ∧
        ∀ f ∈ d.fields.dropLast, f.tail.comment = none) ∧
    ∀ type, Written .one type → '-' ∉ type → Uncut (· == ',') 0 type := by
  refine ⟨?_, fun type isType noArrow => isType.uncut noArrow⟩
  rw [run_rust_eq_iff d listed chosen readable, areRead_iff]
  exact and_congr_right fun _ => and_iff_right fun _ => rfl

end

/-! ### Orders -/

/-- A type that is a single name. -/
theorem written_name {name : Text} (isName : IsName name) : Written .one name :=
  .path (.name isName)

/-- `HashMap<fn(u8) -> u8, String>`. -/
def handlerType : { type : Text // Written .one type } :=
  have noGap : IsGap [] := by decide
  have space : IsGap [' '] := by decide
  have byte : Written .one "u8".toList := written_name (by decide)
  have text : Written .one "String".toList := written_name (by decide)
  have handler := Written.function noGap (.last noGap byte noGap) space space byte
  have map : IsPath "HashMap".toList := .name (by decide)
  ⟨_, .generic map noGap (.more noGap handler noGap (.last space text noGap))⟩

def orderId : RustField where
  indent := "    ".toList
  name := "id".toList
  type := "u32".toList
  tail := .none
  isGap := by decide
  isName := by decide
  isType := written_name (by decide)

def orderHandlers : RustField where
  indent := "    ".toList
  name := "handlers".toList
  type := handlerType
  tail := .none
  isGap := by decide
  isName := by decide
  isType := handlerType.2

/-- A field with a comment. -/
def orderTotal : RustField where
  indent := "    ".toList
  name := "total".toList
  type := "u64".toList
  tail := ⟨[' '], some " cents".toList, by decide, by decide⟩
  isGap := by decide
  isName := by decide
  isType := written_name (by decide)

/-- A struct that declares some of these fields. -/
def order (fields : List RustField) : RustStruct :=
  ⟨true, "Order".toList, none, fields, by decide, nofun⟩

/-- The file with an order. -/
def orderSource (fields : List RustField) : Source :=
  .ofTexts [("src/lib.rs", (order fields).text)]

theorem orderSource_chosen : findFiles ["**/*.rs"] ["src/lib.rs"] = ["src/lib.rs"] := by
  decide +kernel

/-- A comment after the last field does no harm. -/
theorem rust_order_read : rust.scan.run (orderSource [orderId, orderTotal]) =
    .ok [⟨"Order", [⟨"id", "u32"⟩, ⟨"total", "u64"⟩], "src/lib.rs"⟩] := by
  have read := rust_reads_declared_iff (s := orderSource [orderId, orderTotal])
    (order [orderId, orderTotal]) rfl orderSource_chosen rfl
  have types : ∀ f ∈ [orderId, orderTotal], Uncut (· == ',') 0 f.type := by decide
  exact read.1.2 ⟨nofun, types, by decide⟩

/-- An order with a function pointer between angle brackets and a comment before the last field. -/
theorem rust_not_always_declared :
    ¬ ∀ (d : RustStruct) (s : Source) (l : List String) (file : String), d.fields ≠ [] →
      s.files = .ok l → findFiles ["**/*.rs"] l = [file] → s.read file = .ok (some d.text) →
        rust.scan.run s = .ok [⟨String.ofList d.name, d.fields.map (·.declared), file⟩] := by
  intro always
  have declared := always (order [orderHandlers, orderTotal, orderId])
    (orderSource [orderHandlers, orderTotal, orderId]) _ _ nofun rfl orderSource_chosen rfl
  rw [run_rust_eq_iff _ rfl orderSource_chosen rfl] at declared
  obtain ⟨-, -, -, -, -, noComment, -⟩ := declared
  cases noComment

end Models

end CodeSurvey
