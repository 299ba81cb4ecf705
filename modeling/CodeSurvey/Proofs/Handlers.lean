import CodeSurvey.Proofs.Extractors
import CodeSurvey.Proofs.Offers
import CodeSurvey.Proofs.Replacement
import CodeSurvey.Proofs.Words
import Mathlib.Data.List.Infix

/-!
# Names of handlers

Routes that are declared by a decorator, an annotation or an attribute take the name of their
handler from the first function after it, looked for in a window of the next characters. The name
that is recorded is whole, neither preceded nor followed by a word character (`IsWhole`), if an
opening parenthesis has to follow it within the window. The pattern for Rust asks for nothing after
the name: there it is whole unless the window ends within it (`Routes.handler_whole_iff`).
-/

namespace CodeSurvey

/-- Whether a name between two texts is a whole word there. -/
structure IsWhole (before name after : Text) : Prop where
  isName : IsName name
  starts : ∀ c, before.getLast? = some c → isWord c = false
  ends : ∀ c, after.head? = some c → isWord c = false

namespace Pattern

variable {keyword x : Pattern} {p : Place} {g : Groups} {m : Match} {α : Type} {accept : Accept α}
  {a : α}

/-! ## Patterns of functions -/

/-- A keyword and the name after it. -/
def named (keyword : Pattern) : Pattern := keyword ++ blanks1 ++ group 1 word

/-- A keyword, the name after it and an opening parenthesis. -/
def called (keyword : Pattern) : Pattern := named keyword ++ blanks ++ "("

/-- What a match says of the name that it recorded: `lead` is in front of it, and it is whole in the
text that the pattern was run on. -/
structure HasName (m : Match) (lead : Text) (span : Span) : Prop where
  recorded : m.groups.lookup 1 = some span
  led : lead ≠ []
  first : m.first.rest = lead ++ span.first.rest
  text : span.first.rest = span.text ++ span.last.rest
  isWhole : IsWhole lead span.text span.last.rest

/-- A repetition whose end is accepted anywhere reads to the end of the class. -/
theorem run_many_total {ok : Char → Bool} {least : Nat} (total : ∀ q g, accept q g ≠ none)
    (found : (many ok least false).run p g accept = some a) :
    ∃ t q, p.rest = t ++ q.rest ∧ (∀ c ∈ t, ok c = true) ∧ least ≤ t.length ∧
      (∀ c, q.rest.head? = some c → ok c = false) ∧ accept q g = some a := by
  obtain ⟨t, q, rest, all, long, -⟩ := run_many_eq_some found
  have whole : p.rest = p.rest.takeWhile ok ++ p.rest.dropWhile ok :=
    List.takeWhile_append_dropWhile.symm
  have stop (c : Char) (next : (p.rest.dropWhile ok).head? = some c) : ok c = false := by
    have first := List.head?_dropWhile_not ok p.rest
    rw [next] at first
    exact first
  have longest : least ≤ (p.rest.takeWhile ok).length := by
    rw [rest, List.takeWhile_append_of_pos all, List.length_append]
    exact Nat.le_add_right_of_le long
  obtain ⟨b, accepted⟩ := Option.ne_none_iff_exists'.1
    (total (Place.between (Place.lastOf p.previous (p.rest.takeWhile ok)) (p.rest.dropWhile ok)) g)
  have best := offers_many (g := g) p.previous (fun c => List.mem_takeWhile_imp) stop longest
    accepted
  rw [← whole, ← Place.eq_between, found] at best
  exact ⟨_, _, whole, fun c => List.mem_takeWhile_imp, longest, stop, best ▸ accepted⟩

/-- In front of the name there is white space. -/
theorem run_named_eq_some (found : (named keyword).run p g accept = some a) : ∃ lead q g',
    lead ≠ [] ∧ p.rest = lead ++ q.rest ∧ (∀ c, lead.getLast? = some c → isWord c = false) ∧
      word.run q g' (fun r g'' => accept r ((1, ⟨q, r⟩) :: g'')) = some a := by
  change keyword.run p g (fun p g => blanks1.run p g fun q g =>
    word.run q g fun r g' => accept r ((1, ⟨q, r⟩) :: g')) = some a at found
  obtain ⟨p', g', ⟨t, -, -, before, -⟩, found⟩ := run_eq_some found
  obtain ⟨gap, q, inGap, blank, long, found⟩ := run_many_eq_some found
  have some : gap ≠ [] := List.ne_nil_of_length_pos long
  refine ⟨t ++ gap, q, g', by simp [some], by rw [before, inGap, List.append_assoc], ?_, found⟩
  intro c last
  rw [List.getLast?_append_of_ne_nil _ some] at last
  exact isWord_of_isBlank (blank c (List.mem_of_getLast? last))

/-- A name that nothing has to follow is read to its end. -/
theorem hasName_of_named (found : (named keyword).matchAt? p = some m) :
    ∃ lead span, HasName m lead span := by
  obtain ⟨lead, q, g, led, before, starts, found⟩ := run_named_eq_some found
  obtain ⟨t, r, rest, isName, long, ends, accepted⟩ :=
    run_many_total (fun _ _ => Option.some_ne_none _) found
  cases accepted
  have text : Span.text ⟨q, r⟩ = t := Place.upTo_eq rest
  refine ⟨lead, ⟨q, r⟩, List.lookup_cons_self, led, before, by rw [text, rest], ?_, starts, ends⟩
  rw [text]
  exact ⟨List.ne_nil_of_length_pos long, isName⟩

/-- A name that a parenthesis has to follow is read to its end, and the text goes on. -/
theorem hasName_of_called (found : (called keyword).matchAt? p = some m) :
    ∃ lead span, HasName m lead span ∧ span.last.rest ≠ [] := by
  change (named keyword).run p [] (fun r g => blanks.run r g fun r g => (lit ['(']).run r g _) =
    some m at found
  obtain ⟨lead, q, g, led, before, starts, found⟩ := run_named_eq_some found
  obtain ⟨t, r, rest, isName, long, found⟩ := run_many_eq_some found
  obtain ⟨gap, r', after, blank, -, found⟩ := run_many_eq_some found
  obtain ⟨last, parenthesis, accepted⟩ := run_lit_eq_some found
  cases accepted
  have text : Span.text ⟨q, r⟩ = t := Place.upTo_eq rest
  have next : r.rest = gap ++ '(' :: last.rest := by rw [after, parenthesis]; rfl
  refine ⟨lead, ⟨q, r⟩,
    ⟨List.lookup_cons_self, led, before, by rw [text, rest], ?_, starts, ?_⟩, ?_⟩
  · rw [text]
    exact ⟨List.ne_nil_of_length_pos long, isName⟩
  · show ∀ c, r.rest.head? = some c → isWord c = false
    rw [next]
    exact isWord_head?_append blank (stops_cons (by decide))
  · show r.rest ≠ []
    rw [next]
    simp

/-! ## The window -/

/-- Where the first reading within the next `nameWindow` characters recorded group 1. -/
def nextSpan? (x : Pattern) (p : Place) : Option Span :=
  (x.find? (p.within nameWindow)).bind (·.groups.lookup 1)

/-- Whether the window ends within a name that starts after `lead`. -/
def IsCut (lead name after : Text) : Prop :=
  (lead ++ name).length = nameWindow ∧ ∃ c, after.head? = some c ∧ isWord c = true

/-- Whether the first name that a pattern finds after a place is this one, with `lead` between the
place and the name. -/
structure IsNext (x : Pattern) (p : Place) (lead name after : Text) : Prop where
  recorded : ∃ span, x.nextSpan? p = some span ∧ (p.within nameWindow).upTo span.first = lead ∧
    span.text = name
  rest : p.rest = lead ++ (name ++ after)

/-- What is whole in the window is whole in the text, unless the window ends within it. -/
theorem isWhole_iff {rest lead name tail : Text} (head : Text) (led : lead ≠ [])
    (window : rest.take nameWindow = lead ++ (name ++ tail)) (h : IsWhole lead name tail) :
    IsWhole (head ++ lead) name (tail ++ rest.drop nameWindow) ↔
      ¬ IsCut lead name (tail ++ rest.drop nameWindow) := by
  constructor
  · rintro whole ⟨-, c, next, word⟩
    rw [whole.ends c next] at word
    cases word
  · intro uncut
    refine ⟨h.isName, ?_, ?_⟩
    · rw [List.getLast?_append_of_ne_nil _ led]
      exact h.starts
    · intro c next
      cases tail with
      | cons d tail => exact h.ends c next
      | nil =>
        -- The name ends where the window does; if the text goes on, the window is full.
        rw [List.append_nil] at window
        have more : nameWindow < rest.length := by
          rw [← Nat.not_le]
          intro short
          rw [List.nil_append, List.drop_eq_nil_of_le short] at next
          cases next
        have full : (lead ++ name).length = nameWindow := by
          rw [← window, List.length_take_of_le (Nat.le_of_lt more)]
        rw [← Bool.not_eq_true]
        exact fun word => uncut ⟨full, c, next, word⟩

theorem HasName.text_eq {lead : Text} {span : Span} {name : String} (h : HasName m lead span)
    (named : m.string? 1 = some name) : span.text = Text.of name := by
  rw [Match.string?, Match.group?, h.recorded] at named
  cases named
  exact String.toList_ofList.symm

/-- A name found in the window is the next one after the place. -/
theorem HasName.isNext {lead : Text} {span : Span} {name : String} (h : HasName m lead span)
    (found : x.find? (p.within nameWindow) = some m) (named : m.string? 1 = some name) :
    ∃ lead', lead' ≠ [] ∧
      p.rest.take nameWindow = lead' ++ (Text.of name ++ span.last.rest) ∧
      IsWhole lead' (Text.of name) span.last.rest ∧
      x.IsNext p lead' (Text.of name) (span.last.rest ++ p.rest.drop nameWindow) := by
  obtain ⟨t, below⟩ := first_of_find? found
  have toSpan : (p.within nameWindow).rest = t ++ lead ++ span.first.rest := by
    rw [below, h.first, List.append_assoc]
  have window : p.rest.take nameWindow = t ++ lead ++ (span.text ++ span.last.rest) := by
    rw [← h.text]
    exact toSpan
  have recorded : x.nextSpan? p = some span := by
    rw [nextSpan?, found]
    exact h.recorded
  have whole : IsWhole (t ++ lead) span.text span.last.rest := by
    refine ⟨h.isWhole.isName, ?_, h.isWhole.ends⟩
    rw [List.getLast?_append_of_ne_nil _ h.led]
    exact h.isWhole.starts
  have between : (p.within nameWindow).upTo span.first = t ++ lead := Place.upTo_eq toSpan
  rw [← h.text_eq named]
  refine ⟨t ++ lead, by simp [h.led], window, whole, ⟨span, recorded, between, rfl⟩, ?_⟩
  rw [← List.append_assoc span.text, ← List.append_assoc (t ++ lead), ← window,
    List.take_append_drop]

theorem find?_of_nextName? {name : String} (next : x.nextName? p = some name) :
    ∃ m, x.find? (p.within nameWindow) = some m ∧ m.string? 1 = some name :=
  Option.bind_eq_some_iff.1 next

/-- The next name after a keyword is whole unless the window ends within it. -/
theorem named_isNext {name : String} (next : (named keyword).nextName? p = some name)
    (head : Text) : ∃ lead after, (named keyword).IsNext p lead (Text.of name) after ∧
      (IsWhole (head ++ lead) (Text.of name) after ↔ ¬ IsCut lead (Text.of name) after) := by
  obtain ⟨m, found, text⟩ := find?_of_nextName? next
  obtain ⟨lead, span, hasName⟩ := hasName_of_named (matchAt?_of_find? found)
  obtain ⟨lead', led, window, whole, isNext⟩ := hasName.isNext found text
  exact ⟨lead', _, isNext, isWhole_iff head led window whole⟩

/-- The next name that a parenthesis follows is whole. -/
theorem called_isNext {name : String} (next : (called keyword).nextName? p = some name)
    (head : Text) : ∃ lead after, (called keyword).IsNext p lead (Text.of name) after ∧
      IsWhole (head ++ lead) (Text.of name) after := by
  obtain ⟨m, found, text⟩ := find?_of_nextName? next
  obtain ⟨lead, span, hasName, goesOn⟩ := hasName_of_called (matchAt?_of_find? found)
  obtain ⟨lead', led, window, whole, isNext⟩ := hasName.isNext found text
  refine ⟨lead', _, isNext, (isWhole_iff head led window whole).2 ?_⟩
  rintro ⟨-, c, first, word⟩
  rw [List.head?_append_of_ne_nil _ goesOn] at first
  rw [whole.ends c first] at word
  cases word

end Pattern

/-! ## Marked routes -/

namespace Routes

open Pattern

/-- What marks a text as a route, and the functions that may handle what is marked. -/
structure Marking where
  marks : Text → List Match
  function : Pattern

def flaskMarking : Marking := ⟨flaskRoute.all, pythonFunction⟩

def verbMarking : Marking := ⟨verbDecorator.all, pythonFunction⟩

def springShortMarking : Marking := ⟨fun text => springShort.findAll (classPlace text), jvmMethod⟩

def springMarking : Marking := ⟨fun text => springMapping.findAll (classPlace text), jvmMethod⟩

def micronautMarking : Marking := ⟨fun text => micronautVerb.findAll (classPlace text), jvmMethod⟩

def symfonyMarking : Marking := ⟨symfonyRoute.all, phpFunction⟩

def rustMarking : Marking := ⟨rustAttribute.all, rustFunction⟩

/-- The extractors that look for the handler after a mark. -/
def marked : List (Extractor Route × List Marking) :=
  [(flask, [flaskMarking, verbMarking]), (fastApi, [verbMarking]),
   (spring, [springShortMarking, springMarking]), (micronaut, [micronautMarking]),
   (symfony, [symfonyMarking]), (rustAttributes, [rustMarking])]

/-- Whether a route found in a text takes its handler from the first function after a mark. -/
def IsMarked (markings : List Marking) (text : Text) (r : Route) : Prop :=
  ∃ marking ∈ markings, ∃ m ∈ marking.marks text, r.handler = marking.function.nextName? m.last

/-- Whether a function that may handle a route is the first after a mark: its name is between
`head ++ lead` and `after`, and the mark ends after `head`. -/
structure IsHandler (marking : Marking) (text head lead name after : Text) : Prop where
  text_eq : text = head ++ (lead ++ (name ++ after))
  next : ∃ m ∈ marking.marks text, marking.function.IsNext m.last lead name after

/-! ### Where the marks are -/

section
variable {x : Pattern} {text : Text} {m : Match} {p : Place}

theorem exists_head_of_mem_findAll (below : ∃ head, text = head ++ p.rest)
    (member : m ∈ x.findAll p) : ∃ head, text = head ++ m.last.rest := by
  obtain ⟨head, below⟩ := below
  obtain ⟨t, first⟩ := first_of_mem_findAll member
  have last := (matches_of_mem_findAll member).1
  exact ⟨head ++ t ++ m.text, by rw [below, first, last]; simp only [List.append_assoc]⟩

theorem exists_head_of_mem_all (member : m ∈ x.all text) : ∃ head, text = head ++ m.last.rest :=
  exists_head_of_mem_findAll ⟨[], rfl⟩ member

theorem classPlace_rest (text : Text) : ∃ head, text = head ++ (classPlace text).rest := by
  rw [classPlace]
  split
  · next c found => exact first_of_find? found
  · exact ⟨[], rfl⟩

end

/-- The marks of a marking are in the text, and the name of a function stands before a parenthesis
or, in Rust, after a keyword only. -/
theorem marking_of_marked {e : Extractor Route} {markings : List Marking}
    (known : (e, markings) ∈ marked) : ∀ marking ∈ markings,
      (∀ text, ∀ m ∈ marking.marks text, ∃ head, text = head ++ m.last.rest) ∧
      ∃ keyword, if e.label = rustAttributes.label then marking.function = named keyword
        else marking.function = called keyword := by
  simp only [marked, List.mem_cons, List.not_mem_nil, or_false, Prod.mk.injEq] at known
  rcases known with ⟨rfl, rfl⟩ | ⟨rfl, rfl⟩ | ⟨rfl, rfl⟩ | ⟨rfl, rfl⟩ | ⟨rfl, rfl⟩ | ⟨rfl, rfl⟩ <;>
    simp only [List.forall_mem_cons, List.not_mem_nil, IsEmpty.forall_iff, implies_true, and_true]
  · exact ⟨⟨fun _ _ => exists_head_of_mem_all, _, rfl⟩, fun _ _ => exists_head_of_mem_all, _, rfl⟩
  · exact ⟨fun _ _ => exists_head_of_mem_all, _, rfl⟩
  · exact ⟨⟨fun _ _ => exists_head_of_mem_findAll (classPlace_rest _), _, rfl⟩,
      fun _ _ => exists_head_of_mem_findAll (classPlace_rest _), _, rfl⟩
  · exact ⟨fun _ _ => exists_head_of_mem_findAll (classPlace_rest _), _, rfl⟩
  · exact ⟨fun _ _ => exists_head_of_mem_all, _, rfl⟩
  · exact ⟨fun _ _ => exists_head_of_mem_all, _, rfl⟩

section
variable {file : String} {text : Text} {r : Route}

theorem isMarked_of_verb (member : r ∈ inVerbDecorators file text) :
    r.file = file ∧ IsMarked [verbMarking] text r := by
  obtain ⟨m, marks, rfl⟩ := List.mem_map.1 member
  exact ⟨rfl, _, .head _, m, marks, rfl⟩

theorem isMarked_of_flask (member : r ∈ inFlask file text) :
    r.file = file ∧ IsMarked [flaskMarking, verbMarking] text r := by
  rcases List.mem_append.1 member with declared | verb
  · obtain ⟨m, marks, declared⟩ := List.mem_flatMap.1 declared
    obtain ⟨method, -, rfl⟩ := List.mem_map.1 declared
    exact ⟨rfl, _, .head _, m, marks, rfl⟩
  · obtain ⟨m, marks, rfl⟩ := List.mem_map.1 verb
    exact ⟨rfl, _, .tail _ (.head _), m, marks, rfl⟩

theorem isMarked_of_spring (member : r ∈ inSpring file text) :
    r.file = file ∧ IsMarked [springShortMarking, springMarking] text r := by
  rcases List.mem_append.1 member with short | mapping
  · obtain ⟨m, marks, rfl⟩ := List.mem_map.1 short
    exact ⟨rfl, _, .head _, m, marks, rfl⟩
  · obtain ⟨m, marks, mapping⟩ := List.mem_flatMap.1 mapping
    obtain ⟨method, -, rfl⟩ := List.mem_map.1 mapping
    exact ⟨rfl, _, .tail _ (.head _), m, marks, rfl⟩

theorem isMarked_of_micronaut (member : r ∈ inMicronaut file text) :
    r.file = file ∧ IsMarked [micronautMarking] text r := by
  rw [inMicronaut] at member
  split at member
  · cases member
  · obtain ⟨m, marks, rfl⟩ := List.mem_map.1 member
    exact ⟨rfl, _, .head _, m, marks, rfl⟩

theorem isMarked_of_symfony (member : r ∈ inSymfony file text) :
    r.file = file ∧ IsMarked [symfonyMarking] text r := by
  obtain ⟨m, marks, declared⟩ := List.mem_flatMap.1 member
  obtain ⟨method, -, rfl⟩ := List.mem_map.1 declared
  exact ⟨rfl, _, .head _, m, marks, rfl⟩

theorem isMarked_of_rust (member : r ∈ inRustAttributes file text) :
    r.file = file ∧ IsMarked [rustMarking] text r := by
  obtain ⟨m, marks, rfl⟩ := List.mem_map.1 member
  exact ⟨rfl, _, .head _, m, marks, rfl⟩

end

/-- A route takes its handler from what follows a mark in the text of its file. -/
theorem isMarked_of_mem {e : Extractor Route} {markings : List Marking}
    (known : (e, markings) ∈ marked) {s : Source} {routes : List Route}
    (ran : e.scan.run s = .ok routes) {r : Route} (member : r ∈ routes) :
    ∃ text, s.read r.file = .ok (some text) ∧ IsMarked markings text r := by
  have inFile {visit : String → Text → List Route} {choose : Scan (List String)}
      (sound : ∀ {file text}, r ∈ visit file text → r.file = file ∧ IsMarked markings text r)
      (ran : (choose.bind (Scan.eachText visit)).run s = .ok routes) :
      ∃ text, s.read r.file = .ok (some text) ∧ IsMarked markings text r := by
    obtain ⟨path, text, readable, inText⟩ := exists_text_of_mem ran member
    obtain ⟨rfl, isMarked⟩ := sound inText
    exact ⟨text, readable, isMarked⟩
  simp only [marked, List.mem_cons, List.not_mem_nil, or_false, Prod.mk.injEq] at known
  rcases known with ⟨rfl, rfl⟩ | ⟨rfl, rfl⟩ | ⟨rfl, rfl⟩ | ⟨rfl, rfl⟩ | ⟨rfl, rfl⟩ | ⟨rfl, rfl⟩
  · exact inFile isMarked_of_flask ran
  · exact inFile isMarked_of_verb ran
  · exact inFile isMarked_of_spring ran
  · exact inFile isMarked_of_micronaut ran
  · exact inFile isMarked_of_symfony ran
  · exact inFile isMarked_of_rust ran

/-- Every handler is the name of the first function after a mark. The name is whole in the text of
the file, except in Rust where the window ends within it. -/
theorem handler_whole_iff {e : Extractor Route} {markings : List Marking}
    (known : (e, markings) ∈ marked) {s : Source} {routes : List Route}
    (ran : e.scan.run s = .ok routes) :
    ∀ r ∈ routes, ∀ handler, r.handler = some handler →
      ∃ text, s.read r.file = .ok (some text) ∧ ∃ marking ∈ markings, ∃ head lead after,
        IsHandler marking text head lead (Text.of handler) after ∧
        (IsWhole (head ++ lead) (Text.of handler) after ↔
          ¬ (e.label = rustAttributes.label ∧ IsCut lead (Text.of handler) after)) := by
  intro r member handler handled
  obtain ⟨text, readable, marking, listed, m, marks, next⟩ := isMarked_of_mem known ran member
  obtain ⟨inText, keyword, function⟩ := marking_of_marked known marking listed
  obtain ⟨head, toMark⟩ := inText text m marks
  rw [handled] at next
  refine ⟨text, readable, marking, listed, head, ?_⟩
  split at function
  · next rust =>
    rw [function] at next
    obtain ⟨lead, after, isNext, whole⟩ := named_isNext next.symm head
    rw [← function] at isNext
    refine ⟨lead, after, ⟨by rw [toMark, isNext.rest], m, marks, isNext⟩, ?_⟩
    rw [whole, and_iff_right rust]
  · next other =>
    rw [function] at next
    obtain ⟨lead, after, isNext, whole⟩ := called_isNext next.symm head
    rw [← function] at isNext
    refine ⟨lead, after, ⟨by rw [toMark, isNext.rest], m, marks, isNext⟩, ?_⟩
    exact iff_of_true whole fun both => other both.1

/-- A handler so far below its attribute that the window ends within its name. -/
def longComment : Text :=
  Text.of "#[get(\"/\")]\n//" ++ List.replicate 789 '-' ++ Text.of "\nfn index() {}\n"

def commented : Source := .ofTexts [("src/main.rs", longComment)]

def cutRoute : Route := ⟨"GET", "/", "src/main.rs", some "in"⟩

theorem commented_routes : rustAttributes.scan.run commented = .ok [cutRoute] := by
  have chosen : findFiles ["**/*.rs"] ["src/main.rs"] = ["src/main.rs"] := by decide +kernel
  have inText : inRustAttributes "src/main.rs" longComment = [cutRoute] := by decide +kernel
  have readable : commented.read "src/main.rs" = .ok (some longComment) := rfl
  have listed : commented.files = .ok ["src/main.rs"] := rfl
  rw [rustAttributes, Scan.run_eachFile listed, chosen]
  exact (Scan.run_eachText_singleton readable _).trans (congrArg Except.ok inText)

theorem commented_handler : ∃ text, commented.read "src/main.rs" = .ok (some text) ∧
    ∃ marking ∈ [rustMarking], ∃ head lead after,
      IsHandler marking text head lead (Text.of "in") after ∧
      (IsWhole (head ++ lead) (Text.of "in") after ↔
        ¬ (rustAttributes.label = rustAttributes.label ∧ IsCut lead (Text.of "in") after)) :=
  handler_whole_iff (by simp [marked]) commented_routes cutRoute (.head _) "in" rfl

/-- Not every handler is a whole word anywhere in the text of its file. -/
theorem handler_not_whole : ¬ ∀ e markings, (e, markings) ∈ marked →
    ∀ (s : Source) (routes : List Route), e.scan.run s = .ok routes →
      ∀ r ∈ routes, ∀ handler, r.handler = some handler →
        ∃ text, s.read r.file = .ok (some text) ∧ ∃ before after,
          text = before ++ (Text.of handler ++ after) ∧
          IsWhole before (Text.of handler) after := by
  intro whole
  obtain ⟨text, readable, before, after, split, isWhole⟩ :=
    whole rustAttributes [rustMarking] (by simp [marked]) commented _ commented_routes cutRoute
      (.head _) "in" rfl
  obtain rfl : longComment = text := by injection readable with same; exact Option.some.inj same
  have goesOn : ∀ t ∈ longComment.tails, Text.of "in" <+: t →
      (t.drop 2).head?.any isWord = true := by decide +kernel
  have below : Text.of "in" ++ after ∈ longComment.tails :=
    (List.mem_tails _ _).2 ⟨before, split.symm⟩
  obtain ⟨c, next, word⟩ := (Option.any_eq_true ..).1 (goesOn _ below (List.prefix_append ..))
  rw [isWhole.ends c next] at word
  cases word

end Routes

end CodeSurvey
