import CodeSurvey.Extractors
import CodeSurvey.Proofs.Brackets
import CodeSurvey.Proofs.Lines
import CodeSurvey.Proofs.Offers
import CodeSurvey.Proofs.Scan

/-!
# Where fields are declared

A field belongs to a type if it is declared between the braces of the type and not between braces
within these (`IsDirect`). The models of Go and of Entity Framework are read from the whole text
between the braces, so their fields may be those of a type within the type, and the fields of JPA
entities are read from all that follows the head of the class. `Reading` keeps what is read together
with the places where it stands. That the models are what is read, and which of their fields belong
to the type, is `Models.declared_directly_iff`.
-/

namespace CodeSurvey

/-! ## Places in the body of a type -/

/-- Whether the text from the head of a type on leads up to a place between the braces of the type,
with `inner` between the opening brace and the place. -/
def LeadsInto (rest before inner : Text) : Prop :=
  ∃ head body after, rest = head ++ '{' :: (body ++ '}' :: after) ∧
    (∀ c ∈ head, c ≠ '{' ∧ c ≠ '}') ∧ IsBalanced '{' '}' body ∧
    before = head ++ '{' :: inner ∧ inner <+: body

/-- Whether a place is between the braces of a type. -/
def IsWithin (rest before : Text) : Prop := ∃ inner, LeadsInto rest before inner

/-- Whether a place is between the braces of a type and outside all braces within these. -/
def IsDirect (rest before : Text) : Prop :=
  ∃ inner, LeadsInto rest before inner ∧ IsBalanced '{' '}' inner

theorem counts_of_leading {head : Text} (noBrace : ∀ c ∈ head, c ≠ '{' ∧ c ≠ '}') (inner : Text) :
    (head ++ '{' :: inner).count '{' = inner.count '{' + 1 ∧
      (head ++ '{' :: inner).count '}' = inner.count '}' := by
  have noOpener : head.count '{' = 0 :=
    List.count_eq_zero.2 fun member => (noBrace _ member).1 rfl
  have noCloser : head.count '}' = 0 :=
    List.count_eq_zero.2 fun member => (noBrace _ member).2 rfl
  constructor
  · rw [List.count_append, noOpener, List.count_cons_self, Nat.zero_add]
  · rw [List.count_append, noCloser, List.count_cons_of_ne (by decide), Nat.zero_add]

/-- In the body of a type, a place belongs to the type if but one of the braces that are opened
before it is not closed. -/
theorem isDirect_iff {rest before : Text} : IsDirect rest before ↔
    IsWithin rest before ∧ before.count '{' = before.count '}' + 1 := by
  constructor
  · rintro ⟨inner, leads, even, -⟩
    refine ⟨⟨inner, leads⟩, ?_⟩
    obtain ⟨head, body, after, -, noBrace, -, rfl, -⟩ := leads
    obtain ⟨openers, closers⟩ := counts_of_leading noBrace inner
    rw [openers, closers, even]
  · rintro ⟨⟨inner, leads⟩, one⟩
    refine ⟨inner, leads, ?_⟩
    obtain ⟨head, body, after, -, noBrace, balanced, rfl, inFront⟩ := leads
    obtain ⟨openers, closers⟩ := counts_of_leading noBrace inner
    rw [openers, closers] at one
    exact ⟨Nat.succ.inj one, fun start isStart => balanced.2 start (isStart.trans inFront)⟩

/-- Up to a place between the braces of a type, the opening brace is not closed. -/
theorem IsWithin.not_closed {rest before start : Text} (h : IsWithin rest before)
    (inFront : start <+: before) (opened : '{' ∈ start) : start.count '}' < start.count '{' := by
  obtain ⟨inner, head, body, after, -, noBrace, balanced, rfl, inBody⟩ := h
  have notInHead (member : '{' ∈ head) : False := (noBrace _ member).1 rfl
  rcases List.prefix_or_prefix_of_prefix inFront (List.prefix_append head _) with short | long
  · exact (notInHead (short.subset opened)).elim
  · obtain ⟨s, rfl⟩ := long
    have fromBrace := (List.prefix_append_right_inj head).1 inFront
    rcases List.prefix_cons_iff.1 fromBrace with rfl | ⟨s, rfl, upTo⟩
    · rw [List.append_nil] at opened
      exact (notInHead opened).elim
    · obtain ⟨openers, closers⟩ := counts_of_leading noBrace s
      have below := balanced.2 s (upTo.trans inBody)
      omega

/-! ## Readings -/

/-- A piece of text that declares fields. -/
structure Declaration where
  /-- What stands between the head of the type and the declaration. -/
  before : Text
  text : Text
  fields : List Field

/-- What is read as a type. -/
structure Reading where
  name : String
  /-- The text from the head of the type on, which starts with the opening brace at the latest. -/
  rest : Text
  declarations : List Declaration

namespace Models

open Pattern

/-- The lines of a body, with the fields that each declares. -/
def lineDeclarations (fields : Text → List Field) (body : Text) : List Declaration :=
  body.placedLines.map fun (before, line) => ⟨before, line, fields line⟩

/-- The readings of a pattern in a body; each declares a field with name and type as recorded. -/
def matchDeclarations (x : Pattern) (name type : Nat) (body : Text) : List Declaration :=
  (x.all body).map fun m =>
    ⟨(Place.start body).upTo m.first, m.text, [⟨m.string name, m.string type⟩]⟩

/-- What is read between the braces of the types whose heads the pattern reads. -/
def bracedReadings (head : Pattern) (declarations : Text → List Declaration) (text : Text) :
    List Reading :=
  (head.all text).flatMap fun m =>
    match bodyAfter? '{' '}' m.last.rest with
    | some body => [⟨m.string 1, '{' :: m.last.rest,
        (declarations body).map fun d => { d with before := '{' :: d.before }⟩]
    | none => []

def goReadings : Text → List Reading := bracedReadings goStruct (lineDeclarations goLineFields)

def entityFrameworkReadings : Text → List Reading :=
  bracedReadings csharpPublicClass (matchDeclarations csharpProperty 2 1)

/-- What is read after the head of the first class that follows a mark. -/
def jpaReadings (text : Text) : List Reading :=
  match entityMark.find text with
  | none => []
  | some mark =>
    match jvmClass.find? mark.first with
    | none => []
    | some m => [⟨m.string 1, m.last.rest, matchDeclarations jpaField 2 1 m.last.rest⟩]

/-- The extractors whose models are read without regard to braces within the type. -/
def readers : List (Extractor Model × (Text → List Reading)) :=
  [(go, goReadings), (entityFramework, entityFrameworkReadings), (jpa, jpaReadings)]

/-- Whether a model is what was read from a text. -/
structure IsReading (text : Text) (r : Reading) (m : Model) : Prop where
  name : r.name = m.name
  fields : r.declarations.flatMap (·.fields) = m.fields
  rest : r.rest <:+ text
  placed : ∀ d ∈ r.declarations, d.before ++ d.text <+: r.rest

/-! ## Declarations in a body -/

theorem prefix_of_mem_lineDeclarations {fields : Text → List Field} {body : Text} :
    ∀ d ∈ lineDeclarations fields body, d.before ++ d.text <+: body :=
  List.forall_mem_map.2 fun _ member => Text.prefix_of_mem_placedLines member

theorem lineDeclarations_fields (fields : Text → List Field) (body : Text) :
    (lineDeclarations fields body).flatMap (·.fields) = body.lines.flatMap fields := by
  rw [← Text.map_snd_placedLines, lineDeclarations, List.flatMap_map, List.flatMap_map]

theorem prefix_of_mem_matchDeclarations {x : Pattern} {name type : Nat} {body : Text} :
    ∀ d ∈ matchDeclarations x name type body, d.before ++ d.text <+: body := by
  refine List.forall_mem_map.2 fun m member => ?_
  obtain ⟨t, first⟩ := first_of_mem_findAll member
  have before : (Place.start body).upTo m.first = t := Place.upTo_eq first
  have rest := (matches_of_mem_all member).1
  have whole : body = t ++ m.first.rest := first
  show (Place.start body).upTo m.first ++ m.text <+: body
  rw [before]
  exact ⟨m.last.rest, by rw [whole, rest, List.append_assoc]⟩

theorem matchDeclarations_fields (x : Pattern) (name type : Nat) (body : Text) :
    (matchDeclarations x name type body).flatMap (·.fields) =
      (x.all body).map fun m => ⟨m.string name, m.string type⟩ := by
  rw [matchDeclarations, List.flatMap_map, List.map_eq_flatMap]

/-! ## Readings between braces -/

theorem eq_of_mem_ofFields {name file : String} {fields : List Field} {m : Model}
    (member : m ∈ Model.ofFields name fields file) : m = ⟨name, fields, file⟩ := by
  rw [Model.ofFields] at member
  split at member
  · cases member
  · exact List.mem_singleton.1 member

section
variable {head : Pattern} {declarations : Text → List Declaration} {text : Text} {r : Reading}

theorem mem_bracedReadings_iff : r ∈ bracedReadings head declarations text ↔
    ∃ m ∈ head.all text, ∃ body, bodyAfter? '{' '}' m.last.rest = some body ∧
      r = ⟨m.string 1, '{' :: m.last.rest,
        (declarations body).map fun d => { d with before := '{' :: d.before }⟩ := by
  rw [bracedReadings, List.mem_flatMap]
  refine exists_congr fun m => and_congr_right fun _ => ?_
  cases bodyAfter? '{' '}' m.last.rest <;> simp

/-- What is read between braces gives the models. -/
theorem exists_reading_of_mem_inBraces {fields : Text → List Field} {file : String}
    (same : ∀ body, (declarations body).flatMap (·.fields) = fields body) {m : Model}
    (member : m ∈ inBraces head fields file text) : m.file = file ∧
      ∃ r ∈ bracedReadings head declarations text, r.name = m.name ∧
        r.declarations.flatMap (·.fields) = m.fields := by
  obtain ⟨found, here, inBody⟩ := List.mem_flatMap.1 member
  cases between : bodyAfter? '{' '}' found.last.rest with
  | none =>
    rw [between] at inBody
    cases inBody
  | some body =>
    rw [between] at inBody
    obtain rfl := eq_of_mem_ofFields inBody
    refine ⟨rfl, _, mem_bracedReadings_iff.2 ⟨found, here, body, between, rfl⟩, rfl, ?_⟩
    rw [List.flatMap_map]
    exact same body

/-- The reading starts with the brace at which the head of the type ends. -/
theorem rest_of_mem_bracedReadings {x : Pattern} (member : r ∈ bracedReadings (x ++ "\x7b")
    declarations text) : r.rest <:+ text := by
  obtain ⟨m, here, body, -, rfl⟩ := mem_bracedReadings_iff.1 member
  obtain ⟨t, first⟩ := first_of_mem_findAll here
  obtain ⟨rest, reads⟩ := matches_of_mem_all here
  obtain ⟨s, _, _, _, -, brace, whole, -⟩ := reads_seq_iff.1 reads
  cases brace
  refine ⟨t ++ s, ?_⟩
  have text : text = t ++ m.first.rest := first
  rw [text, rest, whole]
  simp

theorem placed_of_mem_bracedReadings
    (inBody : ∀ body, ∀ d ∈ declarations body, d.before ++ d.text <+: body)
    (member : r ∈ bracedReadings head declarations text) :
    ∀ d ∈ r.declarations, d.before ++ d.text <+: r.rest ∧ IsWithin r.rest d.before := by
  obtain ⟨m, -, body, between, rfl⟩ := mem_bracedReadings_iff.1 member
  obtain ⟨balanced, after, whole⟩ := (bodyAfter?_eq_some_iff (by decide)).1 between
  refine List.forall_mem_map.2 fun d declared => ?_
  have inFront := inBody body d declared
  have bodyFirst : body <+: m.last.rest := ⟨'}' :: after, whole.symm⟩
  refine ⟨(List.prefix_cons_inj '{').2 (inFront.trans bodyFirst), d.before, [], body, after, ?_,
    List.forall_mem_nil _, balanced, rfl, (List.prefix_append _ _).trans inFront⟩
  exact congrArg ('{' :: ·) whole

/-- A model that is found between braces was read there. -/
theorem braced_reading {x : Pattern} {fields : Text → List Field} {file : String}
    (same : ∀ body, (declarations body).flatMap (·.fields) = fields body)
    (inBody : ∀ body, ∀ d ∈ declarations body, d.before ++ d.text <+: body) {m : Model}
    (member : m ∈ inBraces (x ++ "\x7b") fields file text) : m.file = file ∧
      ∃ r ∈ bracedReadings (x ++ "\x7b") declarations text,
        IsReading text r m ∧ ∀ d ∈ r.declarations, IsWithin r.rest d.before := by
  obtain ⟨here, r, read, name, fields⟩ := exists_reading_of_mem_inBraces same member
  have places := placed_of_mem_bracedReadings inBody read
  refine ⟨here, r, read, ⟨name, fields, rest_of_mem_bracedReadings read, ?_⟩, ?_⟩
  · exact fun d declared => (places d declared).1
  · exact fun d declared => (places d declared).2

end

/-! ## Models -/

section
variable {file : String} {text : Text} {m : Model}

theorem go_reading (member : m ∈ inBraces goStruct goFields file text) : m.file = file ∧
    ∃ r ∈ goReadings text, IsReading text r m ∧ ∀ d ∈ r.declarations, IsWithin r.rest d.before :=
  braced_reading (lineDeclarations_fields goLineFields) (fun _ => prefix_of_mem_lineDeclarations)
    member

theorem entityFramework_reading (member : m ∈ inEntityFramework file text) : m.file = file ∧
    ∃ r ∈ entityFrameworkReadings text, IsReading text r m ∧
      ∀ d ∈ r.declarations, IsWithin r.rest d.before := by
  rw [inEntityFramework] at member
  split at member
  · cases member
  · exact braced_reading (matchDeclarations_fields csharpProperty 2 1)
      (fun _ => prefix_of_mem_matchDeclarations) member

theorem jpa_reading (member : m ∈ inJpa file text) : m.file = file ∧
    ∃ r ∈ jpaReadings text, IsReading text r m := by
  rw [inJpa] at member
  rw [jpaReadings]
  cases marked : entityMark.find text with
  | none =>
    rw [marked] at member
    cases member
  | some mark =>
    rw [marked] at member
    simp only at member ⊢
    cases head : jvmClass.find? mark.first with
    | none =>
      rw [head] at member
      cases member
    | some m' =>
      rw [head] at member
      obtain rfl := List.mem_singleton.1 member
      have fields := matchDeclarations_fields jpaField 2 1 m'.last.rest
      refine ⟨rfl, _, .head _, rfl, fields, ?_, prefix_of_mem_matchDeclarations⟩
      obtain ⟨t, toMark⟩ := first_of_find? marked
      obtain ⟨t', toHead⟩ := first_of_find? head
      have overHead := (matches_of_find? head).1
      have whole : text = t ++ mark.first.rest := toMark
      exact ⟨t ++ t' ++ m'.text, by rw [whole, toHead, overHead]; simp only [List.append_assoc]⟩

end

/-- Every field of a model is declared where the model was read. For Go and Entity Framework that is
between the braces of the type; for JPA it may be anywhere after the head of the class. The field
belongs to the type if it is between its braces and but one of the braces that are opened before it
is not closed. -/
theorem declared_directly_iff {e : Extractor Model} {readings : Text → List Reading}
    (reader : (e, readings) ∈ readers) {s : Source} {models : List Model}
    (found : e.scan.run s = .ok models) :
    ∀ m ∈ models, ∃ text, s.read m.file = .ok (some text) ∧
      ∃ r ∈ readings text, IsReading text r m ∧ ∀ d ∈ r.declarations,
        (e.label ≠ "extract_jpa_models" → IsWithin r.rest d.before) ∧
        (IsDirect r.rest d.before ↔
          IsWithin r.rest d.before ∧ d.before.count '{' = d.before.count '}' + 1) := by
  intro m member
  simp only [readers, List.mem_cons, List.not_mem_nil, or_false, Prod.mk.injEq] at reader
  rcases reader with ⟨rfl, rfl⟩ | ⟨rfl, rfl⟩ | ⟨rfl, rfl⟩
  · obtain ⟨path, text, readable, inText⟩ := exists_text_of_mem found member
    obtain ⟨rfl, r, read, reading, within⟩ := go_reading inText
    exact ⟨text, readable, r, read, reading, fun d h => ⟨fun _ => within d h, isDirect_iff⟩⟩
  · obtain ⟨path, text, readable, inText⟩ := exists_text_of_mem found member
    obtain ⟨rfl, r, read, reading, within⟩ := entityFramework_reading inText
    exact ⟨text, readable, r, read, reading, fun d h => ⟨fun _ => within d h, isDirect_iff⟩⟩
  · obtain ⟨path, text, readable, inText⟩ := exists_text_of_mem found member
    obtain ⟨rfl, r, read, reading⟩ := jpa_reading inText
    refine ⟨text, readable, r, read, reading, fun d h => ⟨fun other => ?_, isDirect_iff⟩⟩
    exact absurd rfl other

/-! ### Types with other types within and after them -/

def goAccount : Text :=
  Text.of "package bank\n\ntype Account struct \x7b\n" ++
  Text.of "\tOwner struct \x7b\n\t\tName string\n\t\x7d\n\tBalance int\n\x7d\n"

def csharpOrder : Text :=
  Text.of "public class Order\n\x7b\n    public int Id \x7b get; set; \x7d\n" ++
  Text.of "    public class Line\n    \x7b\n" ++
  Text.of "        public string Sku \x7b get; set; \x7d\n    \x7d\n\x7d\n"

def javaUser : Text :=
  Text.of "@Entity\npublic class User \x7b\n    private Long id;\n\x7d\n\n" ++
  Text.of "class Audit \x7b\n    private String actor;\n\x7d\n"

/-- A struct within a struct, a class within a class, and a class after a class. -/
def nestedTypes : Source :=
  .ofTexts [("account.go", goAccount), ("Order.cs", csharpOrder), ("User.java", javaUser)]

def accountModel : Model := ⟨"Account", [⟨"Name", "string"⟩, ⟨"Balance", "int"⟩], "account.go"⟩

def orderModel : Model := ⟨"Order", [⟨"Id", "int"⟩, ⟨"Sku", "string"⟩], "Order.cs"⟩

def lineModel : Model := ⟨"Line", [⟨"Sku", "string"⟩], "Order.cs"⟩

def userModel : Model := ⟨"User", [⟨"id", "Long"⟩, ⟨"actor", "String"⟩], "User.java"⟩

theorem nestedTypes_files : nestedTypes.files = .ok ["account.go", "Order.cs", "User.java"] := rfl

theorem nestedTypes_go : go.scan.run nestedTypes = .ok [accountModel] := by
  have chosen : (findFiles ["**/*.go"] ["account.go", "Order.cs", "User.java"]).filter
      (fun file => !hasEnding file "_test.go") = ["account.go"] := by decide +kernel
  have inText : inBraces goStruct goFields "account.go" goAccount = [accountModel] := by
    decide +kernel
  have readable : nestedTypes.read "account.go" = .ok (some goAccount) := rfl
  have files : (Scan.findGo ["**/*.go"]).run nestedTypes = .ok ["account.go"] :=
    congrArg Except.ok chosen
  show ((Scan.findGo ["**/*.go"]).bind _).run nestedTypes = _
  rw [Scan.run_bind, files]
  exact (Scan.run_eachText_singleton readable _).trans (congrArg Except.ok inText)

theorem nestedTypes_entityFramework :
    entityFramework.scan.run nestedTypes = .ok [orderModel, lineModel] := by
  have chosen : findFiles ["**/*.cs"] ["account.go", "Order.cs", "User.java"] = ["Order.cs"] := by
    decide +kernel
  have inText : inEntityFramework "Order.cs" csharpOrder = [orderModel, lineModel] := by
    decide +kernel
  have readable : nestedTypes.read "Order.cs" = .ok (some csharpOrder) := rfl
  rw [entityFramework, Scan.run_eachFile nestedTypes_files, chosen]
  exact (Scan.run_eachText_singleton readable _).trans (congrArg Except.ok inText)

theorem nestedTypes_jpa : jpa.scan.run nestedTypes = .ok [userModel] := by
  have chosen : findFiles Routes.jvmFiles ["account.go", "Order.cs", "User.java"] =
      ["User.java"] := by decide +kernel
  have inText : inJpa "User.java" javaUser = [userModel] := by decide +kernel
  have readable : nestedTypes.read "User.java" = .ok (some javaUser) := rfl
  rw [jpa, Scan.run_eachFile nestedTypes_files, chosen]
  exact (Scan.run_eachText_singleton readable _).trans (congrArg Except.ok inText)

/-- The fields of the account are declared between the braces of the struct, those of the struct
within it included. -/
theorem account_declared_within : ∃ text, nestedTypes.read "account.go" = .ok (some text) ∧
    ∃ r ∈ goReadings text, IsReading text r accountModel ∧ ∀ d ∈ r.declarations,
      ("extract_go_models" ≠ "extract_jpa_models" → IsWithin r.rest d.before) ∧
      (IsDirect r.rest d.before ↔
        IsWithin r.rest d.before ∧ d.before.count '{' = d.before.count '}' + 1) :=
  declared_directly_iff (.head _) nestedTypes_go accountModel (.head _)

/-- Whether every field of a model that an extractor finds is declared in the body of its type, and
not in another type within. -/
def Attributes (e : Extractor Model) (readings : Text → List Reading) : Prop :=
  ∀ s models, e.scan.run s = .ok models → ∀ m ∈ models, ∀ text, s.read m.file = .ok (some text) →
    ∃ r ∈ readings text, IsReading text r m ∧
      ∀ d ∈ r.declarations, d.fields ≠ [] → IsDirect r.rest d.before

/-- None of the three does. -/
theorem not_attributes : ¬ Attributes go goReadings ∧
    ¬ Attributes entityFramework entityFrameworkReadings ∧ ¬ Attributes jpa jpaReadings := by
  refine ⟨fun attributes => ?_, fun attributes => ?_, fun attributes => ?_⟩
  · obtain ⟨r, read, -, direct⟩ :=
      attributes nestedTypes _ nestedTypes_go accountModel (.head _) goAccount rfl
    have nested : ∀ r ∈ goReadings goAccount, ∃ d ∈ r.declarations, d.fields ≠ [] ∧
        d.before.count '{' ≠ d.before.count '}' + 1 := by decide +kernel
    obtain ⟨d, declared, some, deep⟩ := nested r read
    exact deep (isDirect_iff.1 (direct d declared some)).2
  · obtain ⟨r, read, reading, direct⟩ :=
      attributes nestedTypes _ nestedTypes_entityFramework orderModel (.head _) csharpOrder rfl
    have nested : ∀ r ∈ entityFrameworkReadings csharpOrder, r.name = "Order" →
        ∃ d ∈ r.declarations, d.fields ≠ [] ∧
          d.before.count '{' ≠ d.before.count '}' + 1 := by decide +kernel
    obtain ⟨d, declared, some, deep⟩ := nested r read reading.name
    exact deep (isDirect_iff.1 (direct d declared some)).2
  · obtain ⟨r, read, -, direct⟩ :=
      attributes nestedTypes _ nestedTypes_jpa userModel (.head _) javaUser rfl
    have later : ∀ r ∈ jpaReadings javaUser, ∃ d ∈ r.declarations, d.fields ≠ [] ∧
        ∃ start ∈ d.before.inits, '{' ∈ start ∧ ¬ start.count '}' < start.count '{' := by
      decide +kernel
    obtain ⟨d, declared, some, start, isStart, opened, closed⟩ := later r read
    have within := (isDirect_iff.1 (direct d declared some)).1
    exact closed (within.not_closed ((List.mem_inits _ _).1 isStart) opened)

end Models

end CodeSurvey
