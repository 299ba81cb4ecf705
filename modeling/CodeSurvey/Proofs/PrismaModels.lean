import CodeSurvey.Models.Script
import CodeSurvey.Proofs.Blocks
import CodeSurvey.Proofs.Flattening
import CodeSurvey.Proofs.Reports
import CodeSurvey.Proofs.Words

/-!
# Prisma models as they are written

A Prisma model is written with one field to a line, and between the fields there may be blank
lines, comments and attributes of the model (`PrismaEntry`). None of these is taken for the start of
a model, since what is written in a line is not at its start, and none holds a brace. So the models
that are read from a file are those that are written in it (`Models.prisma_reads_written`).
-/

namespace CodeSurvey

open Pattern (wordOr)

/-! ## Models as they are written -/

/-- Whether a text is part of one line and holds no brace. Any printable ASCII text without braces
is such a text. -/
def IsBraceless (text : Text) : Prop := ∀ c ∈ text, endsLine c = false ∧ c ≠ '{' ∧ c ≠ '}'

instance : DecidablePred IsBraceless := fun text =>
  inferInstanceAs (Decidable (∀ c ∈ text, endsLine c = false ∧ c ≠ '{' ∧ c ≠ '}'))

/-- A field with its line. -/
structure PrismaField where
  indent : Text
  name : Text
  gap : Text
  type : Text
  /-- Whether there are many of the type, or perhaps none. -/
  mark : Text
  /-- What follows the type, with the white space before it. -/
  attributes : Text
  isIndent : IsGap indent
  indented : indent ≠ []
  isName : IsName name
  isGap : IsGap gap
  apart : gap ≠ []
  isType : IsName type
  isMark : mark ∈ [[], ['[', ']'], ['?']]
  isBraceless : IsBraceless attributes
  attributesApart : ∀ c, attributes.head? = some c → isBlank c = true

/-- What is between the braces of a model: fields, blank lines, and lines that are a comment or an
attribute of the model. -/
inductive PrismaEntry where
  | field (f : PrismaField)
  | blank (text : Text) (isBlank : ∀ c ∈ text, isBlank c = true)
  | aside (indent mark text : Text) (isGap : IsGap indent) (indented : indent ≠ [])
      (isMark : mark ∈ [['/', '/'], ['@', '@']]) (isBraceless : IsBraceless text)

namespace PrismaField

def text (f : PrismaField) : Text :=
  f.indent ++ (f.name ++ (f.gap ++ ((f.type ++ f.mark) ++ f.attributes)))

def declared (f : PrismaField) : Field :=
  ⟨String.ofList f.name, String.ofList (f.type ++ f.mark)⟩

end PrismaField

namespace PrismaEntry

def text : PrismaEntry → Text
  | field f => f.text
  | blank text _ => text
  | aside indent mark text .. => indent ++ (mark ++ text)

def fields : PrismaEntry → List Field
  | field f => [f.declared]
  | blank .. => []
  | aside .. => []

end PrismaEntry

structure PrismaModel where
  /-- Blank lines above the model. -/
  above : Text
  name : Text
  entries : List PrismaEntry
  isBlank : ∀ c ∈ above, isBlank c = true
  ended : ∀ c, above.getLast? = some c → c = '\n'
  isName : IsName name
  someField : entries.flatMap (·.fields) ≠ []

namespace PrismaModel

/-- The lines of entries. -/
def lines (entries : List PrismaEntry) : Text := entries.flatMap fun e => e.text ++ ['\n']

def body (x : PrismaModel) : Text := '\n' :: lines x.entries

def text (x : PrismaModel) : Text :=
  x.above ++ ("model ".toList ++ (x.name ++ (" \x7b".toList ++ (x.body ++ ['}']))))

def declared (x : PrismaModel) (file : String) : Model :=
  ⟨String.ofList x.name, x.entries.flatMap (·.fields), file⟩

/-- Models, each below the ones before, and white space at the end. -/
def fileText (models : List PrismaModel) (ending : Text) : Text :=
  joinedLines (models.map text) ++ ending

end PrismaModel

/-! ### Characters -/

theorem IsGap.isBraceless {gap : Text} (h : IsGap gap) : IsBraceless gap := by
  intro c member
  refine ⟨(h c member).2, ?_, ?_⟩ <;>
  · rintro rfl
    exact absurd (h _ member).1 (by decide)

theorem IsName.isBraceless {name : Text} (h : IsName name) : IsBraceless name := by
  intro c member
  have word := h.2 c member
  refine ⟨endsLine_of_isBlank_eq_false (isBlank_of_isWord word), ?_, ?_⟩ <;>
  · rintro rfl
    exact absurd word (by decide)

theorem IsName.visible {name : Text} (h : IsName name) (rest : Text) :
    ∀ c, (name ++ rest).head? = some c → isBlank c = false :=
  Text.forall_head?_of_ne_nil (fun c member => isBlank_of_isWord (h.2 c member)) h.1

namespace PrismaField

theorem text_isBraceless (f : PrismaField) : IsBraceless f.text := by
  have marks : ∀ mark ∈ ([[], ['[', ']'], ['?']] : List Text), IsBraceless mark := by decide
  have mark := marks _ f.isMark
  simp only [IsBraceless, text, List.forall_mem_append]
  exact ⟨f.isIndent.isBraceless, f.isName.isBraceless, f.isGap.isBraceless,
    ⟨f.isType.isBraceless, mark⟩, f.isBraceless⟩

theorem inType (f : PrismaField) : ∀ c ∈ f.type ++ f.mark, wordOr ['[', ']', '?'] c = true := by
  have marks : ∀ mark ∈ ([[], ['[', ']'], ['?']] : List Text),
      ∀ c ∈ mark, wordOr ['[', ']', '?'] c = true := by decide
  refine List.forall_mem_append.2 ⟨fun c member => ?_, marks _ f.isMark⟩
  rw [wordOr, f.isType.2 c member]
  rfl

/-- A type ends before white space. -/
theorem afterType (f : PrismaField) :
    ∀ c, f.attributes.head? = some c → wordOr ['[', ']', '?'] c = false := by
  intro c first
  have blank := f.attributesApart c first
  have marks : ∀ c ∈ ['[', ']', '?'], isBlank c = false := by decide
  rw [wordOr, isWord_of_isBlank blank, Bool.false_or, ← Bool.not_eq_true, List.contains_iff_mem]
  exact fun member => Bool.false_ne_true ((marks c member).symm.trans blank)

end PrismaField

namespace PrismaEntry

theorem aside_isBraceless {indent mark text : Text} (isGap : IsGap indent)
    (isMark : mark ∈ [['/', '/'], ['@', '@']]) (isBraceless : IsBraceless text) :
    IsBraceless (indent ++ (mark ++ text)) := by
  have marks : ∀ mark ∈ ([['/', '/'], ['@', '@']] : List Text), IsBraceless mark := by decide
  simp only [IsBraceless, List.forall_mem_append]
  exact ⟨isGap.isBraceless, marks _ isMark, isBraceless⟩

theorem isBare (e : PrismaEntry) : IsBare '{' '}' e.text := by
  have bare {text : Text} (h : IsBraceless text) : IsBare '{' '}' text :=
    ⟨fun member => (h _ member).2.1 rfl, fun member => (h _ member).2.2 rfl⟩
  cases e with
  | field f => exact bare f.text_isBraceless
  | blank text blank =>
    exact ⟨fun member => absurd (blank _ member) (by decide),
      fun member => absurd (blank _ member) (by decide)⟩
  | aside indent mark text isGap indented isMark isBraceless =>
    exact bare (aside_isBraceless isGap isMark isBraceless)

end PrismaEntry

namespace PrismaModel

theorem lines_cons (e : PrismaEntry) (entries : List PrismaEntry) :
    lines (e :: entries) = e.text ++ '\n' :: lines entries := by
  rw [lines, List.flatMap_cons, List.append_assoc]
  rfl

theorem body_isBalanced (x : PrismaModel) : IsBalanced '{' '}' x.body := by
  have feed : IsBalanced '{' '}' ['\n'] := by decide
  have go (entries : List PrismaEntry) : IsBalanced '{' '}' ('\n' :: lines entries) := by
    induction entries with
    | nil => exact feed
    | cons e entries ih =>
      rw [lines_cons]
      exact isBalanced_append (by decide) feed
        (isBalanced_append (by decide) (isBalanced_of_isBare e.isBare) ih)
  exact go x.entries

end PrismaModel

namespace Models

open Pattern Place

/-! ## Lines -/

/-- A line of white space has no field. -/
theorem prismaLineField_blank {line : Text} (blank : ∀ c ∈ line, isBlank c = true) :
    prismaLineField line = [] := by
  have empty : line.trim = [] := Text.trimBy_eq_nil_iff.2 blank
  rw [prismaLineField, empty]
  rfl

theorem prismaLineField_aside {indent mark : Text} (isGap : IsGap indent)
    (isMark : mark ∈ [['/', '/'], ['@', '@']]) (text : Text) :
    prismaLineField (indent ++ (mark ++ text)) = [] := by
  have aside {c : Char} (visible : isBlank c = false)
      (starts : ∀ rest, startsWithAny ["//", "@@"] (c :: c :: rest) = true) :
      prismaLineField (indent ++ ([c, c] ++ text)) = [] := by
    have content : (indent ++ ([c] ++ c :: text)).trim =
        c :: c :: List.rdropWhile isBlank text := by
      rw [Text.trim, Text.trimBy_append isGap.isBlank, Text.trimBy_append_cons visible,
        List.dropWhile_cons_of_neg (by simp [visible])]
      rfl
    rw [show [c, c] ++ text = [c] ++ c :: text from rfl, prismaLineField, content]
    simp [starts]
  simp only [List.mem_cons, List.not_mem_nil, or_false] at isMark
  rcases isMark with rfl | rfl
  · exact aside rfl fun _ => rfl
  · exact aside rfl fun _ => rfl

/-- A line with a field is neither blank nor a comment nor an attribute of the model. -/
theorem prismaLineField_of_word {indent : Text} {c : Char} (isGap : IsGap indent)
    (word : isWord c = true) (rest : Text) : prismaLineField (indent ++ c :: rest) =
      match prismaField.matchAt? (start (indent ++ c :: rest)) with
      | none => []
      | some m => [⟨m.string 1, m.string 2⟩] := by
  obtain ⟨core, -, content, -⟩ := Text.exists_trimBy_cons (isBlank_of_isWord word) rest
  have noMark : startsWithAny ["//", "@@"] (c :: core) = false := by
    have noSlash : '/' ≠ c := by rintro rfl; cases word
    have noAt : '@' ≠ c := by rintro rfl; cases word
    simp [startsWithAny, Text.of, List.isPrefixOf, noSlash, noAt]
  rw [prismaLineField, Text.trim, Text.trimBy_append isGap.isBlank, content]
  simp only [noMark]
  rfl

theorem prismaLineField_field (f : PrismaField) : prismaLineField f.text = [f.declared] := by
  let t₃ := (f.type ++ f.mark) ++ f.attributes
  let t₂ := f.gap ++ t₃
  let t₁ := f.name ++ t₂
  have beforeGap : ∀ c, t₂.head? = some c → isWord c = false :=
    Text.forall_head?_of_ne_nil (fun c member => isWord_of_isBlank (f.isGap.isBlank c member))
      f.apart
  have beforeType : ∀ c, t₃.head? = some c → isBlank c = false := by
    rw [show t₃ = f.type ++ (f.mark ++ f.attributes) from List.append_assoc ..]
    exact f.isType.visible _
  have start_ : textStart.Offers (between none (f.indent ++ t₁)) [] _ [] := offers_test rfl
  have indent_ : blanks.Offers (between none (f.indent ++ t₁)) []
      (between (lastOf none f.indent) t₁) [] :=
    offers_many _ f.isIndent.isBlank (f.isName.visible t₂) (Nat.zero_le _)
  have name_ (p : Option Char) (g : Groups) := offers_many (g := g) p f.isName.2 beforeGap
    (List.length_pos_iff.2 f.isName.1)
  have gap_ (p : Option Char) (g : Groups) := offers_many (g := g) p f.isGap.isBlank beforeType
    (List.length_pos_iff.2 f.apart)
  have type_ (p : Option Char) (g : Groups) := offers_many (g := g) p f.inType f.afterType
    (List.length_pos_iff.2 (List.append_ne_nil_of_left_ne_nil f.isType.1 f.mark))
  have whole := (((start_.seq indent_).seq ((name_ _ _).group (n := 1))).seq (gap_ _ _)).seq
    ((type_ _ _).group (n := 2))
  have found : prismaField.matchAt? (start (f.indent ++ t₁)) = some _ := matchAt?_of_offers whole
  obtain ⟨c, name, named⟩ := List.exists_cons_of_ne_nil f.isName.1
  have word : isWord c = true := f.isName.2 c (by rw [named]; exact .head _)
  have line : prismaLineField (f.indent ++ t₁) =
      match prismaField.matchAt? (start (f.indent ++ t₁)) with
      | none => []
      | some m => [⟨m.string 1, m.string 2⟩] := by
    rw [show t₁ = c :: (name ++ t₂) by simp [t₁, named]]
    exact prismaLineField_of_word f.isIndent word (name ++ t₂)
  show prismaLineField (f.indent ++ t₁) = _
  rw [line, found]
  show [(⟨String.ofList (Place.upTo _ _), String.ofList (Place.upTo _ _)⟩ : Field)] = _
  rw [Place.upTo_eq rfl, Place.upTo_eq rfl]
  rfl

/-! ## Bodies -/

theorem flatMap_lines_go_done {line : Text} (blank : ∀ c ∈ line, isBlank c = true) (text : Text)
    (cr : Bool) : (Text.lines.go text [] [line.reverse] cr).flatMap prismaLineField =
      (Text.lines.go text [] [] cr).flatMap prismaLineField := by
  rw [Text.lines_go_eq, List.flatMap_append]
  show prismaLineField line.reverse ++ [] ++ _ = _
  rw [prismaLineField_blank fun c member => blank c (List.mem_reverse.1 member)]
  rfl

/-- White space gives no field, however many lines it makes. -/
theorem flatMap_lines_go_blank {text line rest : Text} {cr : Bool}
    (blank : ∀ c ∈ text, isBlank c = true) (blank' : ∀ c ∈ line, isBlank c = true)
    (fresh : cr = true → line = []) :
    (Text.lines.go (text ++ '\n' :: rest) line [] cr).flatMap prismaLineField =
      rest.lines.flatMap prismaLineField := by
  induction text generalizing line cr with
  | nil =>
    cases cr with
    | false => exact flatMap_lines_go_done blank' rest false
    | true =>
      obtain rfl := fresh rfl
      rfl
  | cons c text ih =>
    obtain ⟨here, later⟩ := List.forall_mem_cons.1 blank
    rw [List.cons_append, Text.lines.go]
    split
    · exact ih later blank' (absurd · Bool.false_ne_true)
    · split
      · rw [flatMap_lines_go_done blank']
        exact ih later (List.forall_mem_nil _) fun _ => rfl
      · exact ih later (List.forall_mem_cons.2 ⟨here, blank'⟩) (absurd · Bool.false_ne_true)

theorem flatMap_lines_entry (e : PrismaEntry) (rest : Text) :
    (e.text ++ '\n' :: rest).lines.flatMap prismaLineField =
      e.fields ++ rest.lines.flatMap prismaLineField := by
  cases e with
  | field f =>
    have within : ∀ c ∈ f.text, endsLine c = false := fun c member =>
      (f.text_isBraceless c member).1
    show (f.text ++ '\n' :: rest).lines.flatMap prismaLineField = _
    rw [Text.lines_append _ within, List.flatMap_cons, prismaLineField_field]
    rfl
  | blank text blank => exact flatMap_lines_go_blank blank (List.forall_mem_nil _) nofun
  | aside indent mark text isGap indented isMark isBraceless =>
    have within := PrismaEntry.aside_isBraceless isGap isMark isBraceless
    rw [PrismaEntry.text, Text.lines_append _ fun c member => (within c member).1,
      List.flatMap_cons, prismaLineField_aside isGap isMark]
    rfl

theorem prismaFields_body (x : PrismaModel) :
    prismaFields x.body = x.entries.flatMap (·.fields) := by
  have go (entries : List PrismaEntry) :
      (PrismaModel.lines entries).lines.flatMap prismaLineField = entries.flatMap (·.fields) := by
    induction entries with
    | nil => rfl
    | cons e entries ih =>
      rw [PrismaModel.lines_cons, flatMap_lines_entry, ih, List.flatMap_cons]
  have top : x.body.lines = [] :: (PrismaModel.lines x.entries).lines :=
    Text.lines_append [] (List.forall_mem_nil _) _
  rw [prismaFields, top, List.flatMap_cons, go, prismaLineField_blank (List.forall_mem_nil _),
    List.nil_append]

/-! ## Starts of models -/

theorem matchAt?_model_of_refuses {p : Place}
    (refuses : (lineStart ++ lit "model".toList).Refuses p []) : prismaModel.matchAt? p = none :=
  matchAt?_of_refuses ((((refuses.seq _).seq _).seq _).seq _)

/-- A model starts with its keyword. -/
theorem matchAt?_model_of_ne {c : Char} (other : c ≠ 'm') (previous : Option Char) (rest : Text) :
    prismaModel.matchAt? (between previous (c :: rest)) = none :=
  matchAt?_model_of_refuses (refuses_lit other previous "odel".toList rest).test

/-- A model starts at the start of a line. -/
theorem matchAt?_model_of_previous {previous : Char} (other : previous ≠ '\n') (rest : Text) :
    prismaModel.matchAt? (between (some previous) rest) = none := by
  have within : isLineStart (between (some previous) rest) = false := beq_eq_false_iff_ne.2 other
  exact matchAt?_model_of_refuses ((refuses_test within).seq _)

theorem exists_matchAt?_model {name : Text} (isName : IsName name) {previous : Option Char}
    (atStart : isLineStart (between previous []) = true) (rest : Text) : ∃ m,
      prismaModel.matchAt?
        (between previous ("model ".toList ++ (name ++ (" \x7b".toList ++ rest)))) = some m ∧
      m.string 1 = String.ofList name ∧ m.last = between (some '{') rest := by
  let t₂ := [' '] ++ (['{'] ++ rest)
  let t₁ := [' '] ++ (name ++ t₂)
  have start_ : lineStart.Offers (between previous ("model".toList ++ t₁)) []
      (between previous ("model".toList ++ t₁)) [] := offers_test atStart
  have model_ := offers_lit (g := []) previous "model".toList t₁
  have gap_ (p : Option Char) (g : Groups) := offers_many (g := g) p isGap_space.isBlank
    (isName.visible t₂) (Nat.le_refl 1)
  have name_ (p : Option Char) (g : Groups) := offers_many (g := g) p isName.2
    (stops_cons (by decide) : ∀ c, t₂.head? = some c → isWord c = false)
    (List.length_pos_iff.2 isName.1)
  have gap'_ (p : Option Char) (g : Groups) := offers_many (g := g) p isGap_space.isBlank
    (stops_cons (by decide) : ∀ c, (['{'] ++ rest).head? = some c → isBlank c = false)
    (Nat.zero_le 1)
  have open_ (p : Option Char) (g : Groups) := offers_lit (g := g) p ['{'] rest
  have whole := (((((start_.seq model_).seq (gap_ _ _)).seq ((name_ _ _).group (n := 1))).seq
    (gap'_ _ _)).seq (open_ _ _))
  refine ⟨_, matchAt?_of_offers whole, ?_, rfl⟩
  show String.ofList (Place.upTo _ _) = _
  rw [Place.upTo_eq rfl]

/-- In an indented line no character but the first of its indentation is at the start of a line. -/
theorem previous_ne_of_indented {indent rest : Text} (isGap : IsGap indent) (indented : indent ≠ [])
    (isBraceless : IsBraceless (indent ++ rest)) {u v : Text}
    (split : indent ++ rest = u ++ 'm' :: v) : ∃ previous, previous ≠ '\n' ∧
      lastOf (some '\n') u = some previous := by
  have nonempty : u ≠ [] := by
    rintro rfl
    have blank := Text.forall_head?_of_ne_nil (t := rest) isGap.isBlank indented 'm'
      (by rw [split]; rfl)
    cases blank
  refine ⟨u.getLast nonempty, ?_, by rw [lastOf, List.getLast?_eq_some_getLast nonempty]; rfl⟩
  have inLine := (isBraceless (u.getLast nonempty) (by
    rw [split]
    exact List.mem_append_left _ (List.getLast_mem nonempty))).1
  intro feed
  rw [feed] at inLine
  cases inLine

/-- No model starts in an entry. -/
theorem matchAt?_model_of_entry (e : PrismaEntry) {u v : Text} {c : Char}
    (split : e.text = u ++ c :: v) (rest : Text) :
    prismaModel.matchAt? (between (lastOf (some '\n') u) (c :: rest)) = none := by
  by_cases other : c ≠ 'm'
  · exact matchAt?_model_of_ne other _ _
  · obtain rfl := not_not.1 other
    cases e with
    | field f =>
      obtain ⟨previous, within, last⟩ :=
        previous_ne_of_indented f.isIndent f.indented f.text_isBraceless split
      rw [last]
      exact matchAt?_model_of_previous within _
    | blank text blank =>
      have here : 'm' ∈ text := by
        rw [show text = u ++ 'm' :: v from split]
        simp
      cases blank _ here
    | aside indent mark text isGap indented isMark isBraceless =>
      obtain ⟨previous, within, last⟩ := previous_ne_of_indented isGap indented
        (PrismaEntry.aside_isBraceless isGap isMark isBraceless) split
      rw [last]
      exact matchAt?_model_of_previous within _

theorem findAll_model_of_ne {c : Char} (other : c ≠ 'm') (previous : Option Char) (rest : Text) :
    prismaModel.findAll (between previous (c :: rest)) =
      prismaModel.findAll (between (some c) rest) :=
  findAll_of_none (matchAt?_model_of_ne other previous rest)

theorem findAll_model_blank {text : Text} (blank : ∀ c ∈ text, isBlank c = true)
    (previous : Option Char) (rest : Text) :
    prismaModel.findAll (between previous (text ++ rest)) =
      prismaModel.findAll (between (lastOf previous text) rest) := by
  refine findAll_append_of_none fun u c v split => matchAt?_model_of_ne ?_ _ _
  rintro rfl
  have blank := blank 'm' (by rw [split]; simp)
  cases blank

theorem findAll_model_body (x : PrismaModel) (rest : Text) :
    prismaModel.findAll (between (some '{') (x.body ++ '}' :: rest)) =
      prismaModel.findAll (between (some '}') rest) := by
  have go (entries : List PrismaEntry) :
      prismaModel.findAll (between (some '\n') (PrismaModel.lines entries ++ '}' :: rest)) =
        prismaModel.findAll (between (some '}') rest) := by
    induction entries with
    | nil => exact findAll_model_of_ne (by decide) _ _
    | cons e entries ih =>
      rw [PrismaModel.lines_cons, List.append_assoc, List.cons_append,
        findAll_append_of_none fun u c v split => matchAt?_model_of_entry e split _,
        findAll_model_of_ne (by decide), ih]
  exact (findAll_model_of_ne (by decide) _ _).trans (go x.entries)

/-! ## Files -/

/-- What is read where a model starts. -/
def modelAt (file : String) (m : Match) : List Model :=
  match bodyAfter? '{' '}' m.last.rest with
  | some body => Model.ofFields (m.string 1) (prismaFields body) file
  | none => []

/-- The models from a place on. -/
def modelsFrom (file : String) (p : Place) : List Model :=
  (prismaModel.findAll p).flatMap (modelAt file)

theorem modelsFrom_model (file : String) (x : PrismaModel) {previous : Option Char}
    (atStart : isLineStart (between previous []) = true) (rest : Text) :
    modelsFrom file (between previous (x.text ++ rest)) =
      x.declared file :: modelsFrom file (between (some '}') rest) := by
  have whole : x.text ++ rest = x.above ++ ("model ".toList ++
      (x.name ++ (" \x7b".toList ++ (x.body ++ '}' :: rest)))) := by
    simp [PrismaModel.text]
  have atStart' : isLineStart (between (lastOf previous x.above) []) = true := by
    cases last : x.above.getLast? with
    | none => rwa [lastOf, last]
    | some c =>
      rw [lastOf, last, x.ended c last]
      rfl
  obtain ⟨m, found, name, after⟩ := exists_matchAt?_model x.isName atStart' (x.body ++ '}' :: rest)
  have long : m.last.size < (between (lastOf previous x.above) ("model ".toList ++
      (x.name ++ (" \x7b".toList ++ (x.body ++ '}' :: rest))))).size := by
    rw [after]
    show (x.body ++ '}' :: rest).length < List.length _
    simp only [List.length_append, String.length_toList]
    have keyword : 0 < "model ".length := by decide
    omega
  have body : bodyAfter? '{' '}' m.last.rest = some x.body := by
    rw [after]
    exact (bodyAfter?_eq_some_iff (by decide)).2 ⟨x.body_isBalanced, rest, rfl⟩
  have read : modelAt file m = [x.declared file] := by
    rw [modelAt, body, name]
    exact Model.ofFields_eq_iff.2 ⟨x.someField, prismaFields_body x⟩
  rw [modelsFrom, whole, findAll_model_blank x.isBlank, findAll_of_matchAt? found long,
    List.flatMap_cons, read, after, findAll_model_body]
  rfl

theorem modelsFrom_blank (file : String) {text : Text} (blank : ∀ c ∈ text, isBlank c = true)
    (previous : Option Char) : modelsFrom file (between previous text) = [] := by
  have passed := findAll_model_blank blank previous []
  have none : prismaModel.matchAt? (between (lastOf previous text) []) = none :=
    matchAt?_model_of_refuses (refuses_lit_nil _ 'm' "odel".toList).test
  rw [List.append_nil, findAll_nil none] at passed
  rw [modelsFrom, passed]
  rfl

theorem modelsFrom_fileText (file : String) (models : List PrismaModel) {ending : Text}
    (blank : ∀ c ∈ ending, isBlank c = true) :
    modelsFrom file (start (PrismaModel.fileText models ending)) =
      models.map (·.declared file) := by
  have feed (previous : Option Char) (rest : Text) :
      modelsFrom file (between previous ('\n' :: rest)) =
        modelsFrom file (between (some '\n') rest) := by
    rw [modelsFrom, findAll_model_of_ne (by decide), modelsFrom]
  rw [List.map_eq_flatMap]
  exact read_joinedLines (fun previous => isLineStart (between previous []) = true)
    (fun x previous rest atStart => ⟨_, modelsFrom_model file x atStart rest⟩) feed
    (modelsFrom_blank file blank) rfl models rfl

section
variable {s : Source} {l : List String} {file : String} {models : List PrismaModel} {ending : Text}
  (listed : s.files = .ok l) (chosen : findFiles ["**/*.prisma"] l = [file])
  (blank : ∀ c ∈ ending, isBlank c = true)
  (readable : s.read file = .ok (some (PrismaModel.fileText models ending)))
include listed chosen blank readable

/-- From a file the models are read that are written in it, in their order and with their fields. -/
theorem prisma_reads_written : prisma.scan.run s = .ok (models.map (·.declared file)) := by
  rw [prisma, Scan.run_eachFile listed, chosen, ← modelsFrom_fileText file models blank]
  exact Scan.run_eachText_singleton readable _

end

/-! ### A schema -/

/-- A field with the name of a keyword. -/
def modelField : PrismaField where
  indent := "  ".toList
  name := "model".toList
  gap := " ".toList
  type := "String".toList
  mark := "?".toList
  attributes := " @default(\"//\")".toList
  isIndent := by decide
  indented := by decide
  isName := by decide
  isGap := by decide
  apart := by decide
  isType := by decide
  isMark := by decide
  isBraceless := by decide
  attributesApart := by
    rintro c ⟨⟩
    decide

def carModel : PrismaModel where
  above := []
  name := "Car".toList
  entries :=
    [.aside "  ".toList "//".toList " model Bike".toList (by decide) (by decide) (by decide)
      (by decide),
     .field modelField, .blank "\n".toList (by decide)]
  isBlank := by decide
  ended := nofun
  isName := by decide
  someField := by decide

/-- The file with this model, twice. -/
def carSource : Source :=
  .ofTexts [("a.prisma", PrismaModel.fileText [carModel, carModel] ['\n'])]

theorem prisma_cars_read : prisma.scan.run carSource =
    .ok [⟨"Car", [⟨"model", "String?"⟩], "a.prisma"⟩,
      ⟨"Car", [⟨"model", "String?"⟩], "a.prisma"⟩] := by
  have chosen : findFiles ["**/*.prisma"] ["a.prisma"] = ["a.prisma"] := by decide +kernel
  have blank : ∀ c ∈ ['\n'], isBlank c = true := by decide
  have readable : carSource.read "a.prisma" =
      .ok (some (PrismaModel.fileText [carModel, carModel] ['\n'])) := rfl
  exact prisma_reads_written rfl chosen blank readable

end Models

end CodeSurvey
