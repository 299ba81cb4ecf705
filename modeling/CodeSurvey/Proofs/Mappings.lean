import CodeSurvey.Proofs.Registrations
import CodeSurvey.Routes.Jvm

/-!
# Mappings as they are written

A controller is mapped to a base path by what stands above its class, and each of its methods to a
path below it (`MappedMethod`). The annotation of a method ends with its arguments, and the first
line after it that reads as a declaration is that of the method. So each mapping gives the one route
that is written in it, under the path above the class and with the name below it
(`Routes.spring_reads_written`).
-/

namespace CodeSurvey

open Pattern (isQuote)

/-! ## Paths -/

/-- A path as it is written between quotes. -/
structure IsPlainPath (path : Text) : Prop where
  noQuote : ∀ c ∈ path, isQuote c = false
  isBare : IsBare '(' ')' path
  oneLine : '\n' ∉ path
  first : ∀ c, path.head? = some c → isBlank c = false
  last : ∀ c, path.getLast? = some c → isBlank c = false

theorem IsPlainPath.trim {path : Text} (h : IsPlainPath path) : path.trim = path :=
  Text.trimBy_of_ends h.first h.last

/-- Whether a path is made of two others with one slash where they meet. -/
def IsJoined (base route path : Text) : Prop :=
  ∃ front slashes slashes' back, base = front ++ slashes ∧ route = slashes' ++ back ∧
    (∀ c ∈ slashes, c = '/') ∧ (∀ c ∈ slashes', c = '/') ∧ front.getLast? ≠ some '/' ∧
    back.head? ≠ some '/' ∧ path = front ++ '/' :: back

theorem joinPaths_isJoined {base route : Text} (isPlain : IsPlainPath base)
    (isPlain' : IsPlainPath route) (some : base ≠ []) (some' : route ≠ []) :
    IsJoined base route (joinPaths base route) := by
  have joined : joinPaths base route =
      List.rdropWhile (· == '/') base ++ '/' :: route.dropWhile (· == '/') := by
    rw [joinPaths, isPlain.trim, isPlain'.trim]
    simp only [List.isEmpty_iff, some, some', if_false]
    rfl
  refine ⟨List.rdropWhile (· == '/') base, List.rtakeWhile (· == '/') base,
    route.takeWhile (· == '/'), route.dropWhile (· == '/'),
    (List.rdropWhile_append_rtakeWhile ..).symm, List.takeWhile_append_dropWhile.symm,
    fun c slash => ?_, fun c slash => ?_, fun last => ?_, fun first => ?_, joined⟩
  · simpa using List.mem_rtakeWhile_imp slash
  · simpa using List.mem_takeWhile_imp slash
  · have nonempty : List.rdropWhile (· == '/') base ≠ [] := fun none => by simp [none] at last
    have kept := List.rdropWhile_last_not _ base nonempty
    rw [List.getLast?_eq_some_getLast nonempty, Option.some_inj] at last
    exact kept (by simp [last])
  · have kept := List.head?_dropWhile_not (· == '/') route
    rw [first] at kept
    simp at kept

namespace Routes

open Pattern Place

/-! ## Quoted paths -/

def inQuotes (path : Text) : Text := '"' :: (path ++ ['"'])

theorem not_mem_inQuotes {path : Text} {c : Char} (other : c ≠ '"') (outside : c ∉ path) :
    c ∉ inQuotes path := by
  simp [inQuotes, other, outside]

theorem requestPath_nil : requestPath [] = none := by decide +kernel

section
variable {path : Text} (noQuote : ∀ c ∈ path, isQuote c = false)
include noQuote

/-- For a named path two quotes are needed. -/
theorem matchAt?_namedPath (previous : Option Char) :
    namedPath.matchAt? (between previous (path ++ ['"'])) = none := by
  rw [Option.eq_none_iff_forall_ne_some]
  intro m found
  change (oneOf ["value", "path"] ++ blanks ++ "=" ++ blanks ++
    (opt "\x7b" ++ blanks ++ group 1 quote ++ group 2 (some0 (!isQuote ·)))).run _ []
      (fun q g => (same 1).run q g _) = some m at found
  obtain ⟨q, g, ⟨t, rec, reads, after, groups⟩, found⟩ := run_eq_some found
  obtain ⟨span, r, recorded, again, -⟩ := run_same_eq_some found
  have some : span.text ≠ [] := by
    obtain ⟨s, _, recorded', reads'⟩ := reads.lookup_piece (n := 1) (y := quote) rfl
    obtain ⟨c, -, rfl, -⟩ := reads_one_iff.1 reads'
    have same := Groups.lookup_texts g 1
    rw [groups, List.lookup_append, recorded', recorded] at same
    have text : [c] = span.text := Option.some.inj same
    simp [← text]
  have hasQuote : ∃ c ∈ t, isQuote c = true := by
    obtain ⟨_, _, _, _, -, inner, rfl, -⟩ := reads_seq_iff.1 reads
    obtain ⟨_, _, _, _, upToQuote, -, rfl, -⟩ := reads_seq_iff.1 inner
    obtain ⟨_, _, _, _, -, quoted, rfl, -⟩ := reads_seq_iff.1 upToQuote
    obtain ⟨_, quoted, -⟩ := reads_group_iff.1 quoted
    obtain ⟨c, isQuote, rfl, -⟩ := reads_one_iff.1 quoted
    exact ⟨c, by simp, isQuote⟩
  -- What is read up to the path has the only quote, so there is none after the path.
  obtain ⟨c, member, isQuote⟩ := hasQuote
  have whole : path ++ ['"'] = t ++ (span.text ++ r.rest) := by
    rw [← again]
    exact after
  obtain ⟨front, d, last⟩ :=
    (List.eq_nil_or_concat (span.text ++ r.rest)).resolve_left (by simp [some])
  rw [last, List.concat_eq_append, ← List.append_assoc] at whole
  obtain ⟨rfl, -⟩ := List.append_inj' whole rfl
  have noQuote := noQuote c (by simp [member])
  rw [isQuote] at noQuote
  cases noQuote

theorem find_namedPath : namedPath.find (inQuotes path) = none := by
  have passed : namedPath.find? (between none (inQuotes path ++ [])) =
      namedPath.find? (between (lastOf none (inQuotes path)) []) :=
    find?_append_of_none fun u c v split => by
      rw [List.append_nil]
      cases u with
      | nil =>
        obtain ⟨rfl, -⟩ := List.cons.inj split
        exact matchAt?_of_refuses ((((refuses_oneOf (by decide) (by decide) _ v).seq _).seq _).seq
          _ |>.seq _)
      | cons d u =>
        have below : path ++ ['"'] = u ++ c :: v := (List.cons.inj split).2
        obtain ⟨w, last, parts⟩ :=
          (List.eq_nil_or_concat (c :: v)).resolve_left (List.cons_ne_nil c v)
        rw [parts, List.concat_eq_append, ← List.append_assoc] at below
        obtain ⟨rfl, same⟩ := List.append_inj' below rfl
        rw [parts, List.concat_eq_append, ← same]
        exact matchAt?_namedPath (fun c member => noQuote c (List.mem_append_right _ member)) _
  rw [List.append_nil] at passed
  rw [find, start_eq, passed]
  exact matchAt?_of_refuses (refuses_nil (by decide))

theorem requestPath_inQuotes : requestPath (inQuotes path) = some path := by
  let rest := path ++ ['"']
  let span : Span := ⟨start (inQuotes path), between (some '"') rest⟩
  have start_ : textStart.Offers (start (inQuotes path)) [] (start (inQuotes path)) [] :=
    offers_test rfl
  have brace_ : (opt "\x7b").Offers (start (inQuotes path)) [] (start (inQuotes path)) [] :=
    .right (refuses_lit (by decide) none [] rest) offers_empty
  have quote_ : (group 1 quote).Offers (start (inQuotes path)) []
      (between (some '"') rest) [(1, span)] := (offers_one rfl none rest).group
  have path_ : (some0 (!isQuote ·)).Offers (between (some '"') rest) [(1, span)]
      (between (lastOf (some '"') path) ['"']) [(1, span)] :=
    offers_many _ (fun c member => by simp [noQuote c member]) (stops_cons (by decide))
      (Nat.zero_le _)
  have quoteText : span.text = ['"'] := upTo_eq rfl
  have same_ (g : Groups) (recorded : g.lookup 1 = some span) :
      (same 1).Offers (between (lastOf (some '"') path) ['"']) g (between (some '"') []) g := by
    have again := offers_same recorded (lastOf (some '"') path) []
    rwa [quoteText] at again
  have all := (start_.seq (offers_noGap (stops_cons (by decide)))).seq
    ((((brace_.seq (offers_noGap (stops_cons (by decide)))).seq quote_).seq
      (path_.group (n := 2))).seq (same_ _ rfl))
  have found : firstPath.find (inQuotes path) = some _ := find?_of_matchAt? (matchAt?_of_offers all)
  rw [requestPath, find_namedPath noQuote]
  simp only [found]
  exact congrArg some (upTo_eq rfl)

end

/-! ## Methods -/

/-- What stands between an annotation and the arguments of the method below it. -/
def signature (indent name : Text) : Text :=
  '\n' :: (indent ++ ("public ".toList ++ ("String ".toList ++ (name ++ ['(']))))

/-- The annotations of methods, with what they map to. -/
def springVerbs : List (String × String) :=
  [("Get", "GET"), ("Post", "POST"), ("Put", "PUT"), ("Delete", "DELETE"), ("Patch", "PATCH")]

/-- A method that is mapped to a path, with its lines. -/
structure MappedMethod where
  indent : Text
  verb : String
  method : String
  path : Option Text
  name : Text
  isGap : IsGap indent
  known : (verb, method) ∈ springVerbs
  isPlain : ∀ p ∈ path, IsPlainPath p
  isName : IsName name
  inWindow : (signature indent name).length ≤ nameWindow

namespace MappedMethod

def arguments (x : MappedMethod) : Text :=
  match x.path with
  | some path => '(' :: (inQuotes path ++ [')'])
  | none => []

/-- The annotation up to its arguments. -/
def annotation (x : MappedMethod) : Text := '@' :: (x.verb.toList ++ "Mapping".toList)

def body (x : MappedMethod) : Text := ") \x7b\n".toList ++ (x.indent ++ ['}'])

def text (x : MappedMethod) : Text :=
  x.indent ++ (x.annotation ++ (x.arguments ++ (signature x.indent x.name ++ x.body)))

/-- The route that is written in a method. -/
def route (file : String) (base : Text) (x : MappedMethod) : Route :=
  ⟨x.method, String.ofList (joinPaths base (x.path.getD [])), file,
    some (String.ofList x.name)⟩

/-- Methods, each on the line below the one before. -/
def lines (xs : List MappedMethod) : Text := joinedLines (xs.map text)

end MappedMethod

/-- What maps a class to a path. -/
def classMapping (base : Text) : Text :=
  "@RequestMapping".toList ++ ('(' :: (inQuotes base ++ (')' :: ['\n'])))

/-- A class with its methods. -/
def classText (name : Text) (xs : List MappedMethod) (ending : Text) : Text :=
  "public ".toList ++ ("class ".toList ++ (name ++ (" \x7b\n".toList ++
    (MappedMethod.lines xs ++ ending))))

/-! ### Declarations -/

/-- The modifier of a declaration is read, if what follows starts as no modifier does. -/
theorem offers_public {words : List String} {c : Char} {g : Groups}
    (apart : ∀ a ∈ words, ∀ b ∈ words, a.toList <+: b.toList → a = b) (member : "public" ∈ words)
    (other : ∀ word ∈ words, word.toList ≠ [] ∧ word.toList.head? ≠ some c)
    (visible : isBlank c = false)
    (previous : Option Char) (rest : Text) :
    (star (oneOf words ++ blanks1)).Offers (between previous ("public ".toList ++ c :: rest)) g
      (between (some ' ') (c :: rest)) g := by
  have word_ : (oneOf words).Offers (between previous ("public".toList ++ ([' '] ++ c :: rest))) g
      (between (some 'c') ([' '] ++ c :: rest)) g :=
    offers_oneOf apart member previous ([' '] ++ c :: rest)
  have gap_ : blanks1.Offers (between (some 'c') ([' '] ++ c :: rest)) g
      (between (some ' ') (c :: rest)) g :=
    offers_many (some 'c') (by decide) (stops_cons visible) (by decide)
  have shorter : (between (some ' ') (c :: rest)).size <
      (between previous ("public ".toList ++ c :: rest)).size := by
    show (c :: rest).length < ("public ".toList ++ c :: rest).length
    simp
  refine (word_.seq gap_).more shorter (Refuses.stop ?_)
  exact (refuses_oneOf other (List.ne_nil_of_mem member) _ rest).seq _

section
variable (x : MappedMethod)

theorem exists_matchAt?_jvmMethod (tail : Text) : ∃ m,
    jvmMethod.matchAt? (between (some '\n')
      (x.indent ++ ("public ".toList ++ ("String ".toList ++ (x.name ++ ('(' :: tail)))))) =
        some m ∧ m.string? 1 = some (String.ofList x.name) := by
  let t₃ := x.name ++ ('(' :: tail)
  let t₂ := 'S' :: ("tring ".toList ++ t₃)
  let t₁ := "public ".toList ++ t₂
  have line_ : lineStart.Offers (between (some '\n') (x.indent ++ t₁)) []
      (between (some '\n') (x.indent ++ t₁)) [] := offers_test rfl
  have indent_ : blanks.Offers (between (some '\n') (x.indent ++ t₁)) []
      (between (lastOf (some '\n') x.indent) t₁) [] :=
    offers_many _ x.isGap.isBlank (stops_cons (by decide)) (Nat.zero_le _)
  have public_ (previous : Option Char) : (star (oneOf ["public", "protected", "private", "static",
      "final", "synchronized", "abstract"] ++ blanks1)).Offers (between previous t₁) []
      (between (some ' ') t₂) [] :=
    offers_public (by decide) (by decide) (by decide) (by decide) previous _
  have type_ : jvmType.Offers (between (some ' ') t₂) [] (between (some 'g') (' ' :: t₃)) [] := by
    have name_ : (some1 (wordOr ['.'])).Offers (between (some ' ') t₂) []
        (between (some 'g') (' ' :: t₃)) [] :=
      offers_many (t := "String".toList) _ (by decide) (stops_cons (by decide)) (by decide)
    have noArguments : typeArguments.Refuses (between (some 'g') (' ' :: t₃)) [] :=
      ((refuses_lit (by decide) _ [] t₃).seq _).seq _
    have noArray : (lit "[]".toList).Refuses (between (some 'g') (' ' :: t₃)) [] :=
      refuses_lit (by decide) _ _ t₃
    exact (name_.seq (.right noArguments offers_empty)).seq noArray.stop
  have gap_ : blanks1.Offers (between (some 'g') (' ' :: t₃)) [] (between (some ' ') t₃) [] :=
    offers_many (t := [' ']) _ (by decide)
      (Text.forall_head?_of_ne_nil (fun d member => isBlank_of_isWord (x.isName.2 d member))
        x.isName.1) (by decide)
  have name_ : word.Offers (between (some ' ') t₃) []
      (between (lastOf (some ' ') x.name) ('(' :: tail)) [] :=
    offers_many _ x.isName.2 (stops_cons (by decide)) (List.length_pos_iff.2 x.isName.1)
  have open_ (previous : Option Char) (g : Groups) := offers_lit (g := g) previous ['('] tail
  have all := ((((((line_.seq indent_).seq (public_ _)).seq type_).seq gap_).seq
    (name_.group (n := 1))).seq (offers_noGap (stops_cons (by decide)))).seq (open_ _ _)
  refine ⟨_, matchAt?_of_offers all, ?_⟩
  exact congrArg (fun t => some (String.ofList t)) (upTo_eq rfl)

/-- The name below an annotation is found in the window. -/
theorem nextName?_signature {c : Char} (other : c ≠ '\n') (rest : Text) :
    jvmMethod.nextName? (between (some c) (signature x.indent x.name ++ rest)) =
      some (String.ofList x.name) := by
  let tail := rest.take (nameWindow - (signature x.indent x.name).length)
  let below := x.indent ++ ("public ".toList ++ ("String ".toList ++ (x.name ++ ('(' :: tail))))
  have window : (between (some c) (signature x.indent x.name ++ rest)).within nameWindow =
      between (some c) ('\n' :: below) := by
    rw [Place.eq_between (Place.within ..)]
    show between (some c) ((signature x.indent x.name ++ rest).take nameWindow) = _
    rw [List.take_append, List.take_of_length_le x.inWindow]
    simp [signature, below, tail]
  have noLine : jvmMethod.matchAt? (between (some c) ('\n' :: below)) = none := by
    have inLine : isLineStart (between (some c) ('\n' :: below)) = false := by
      simpa [isLineStart, between] using other
    exact matchAt?_of_refuses (((((((refuses_test inLine).seq _).seq _).seq _).seq _).seq _).seq
      _ |>.seq _)
  obtain ⟨m, found, name⟩ := exists_matchAt?_jvmMethod x tail
  rw [nextName?, window, find?_of_none noLine, find?_of_matchAt? found]
  exact name

/-! ### Annotations -/

/-- Behind an annotation without arguments there are none. -/
theorem refuses_arguments (previous : Option Char) (g : Groups) (rest : Text) :
    (blanks ++ "(" ++ group 2 (some0 (· != ')')) ++ ")").Refuses
      (between previous (signature x.indent x.name ++ rest)) g := by
  have needs : (blanks ++ "(").Needs '(' 'p' := by
    intro t rec reads
    obtain ⟨gap, _, _, _, blank, parenthesis, rfl, -⟩ := reads_seq_iff.1 reads
    have blank := (reads_many_iff.1 blank).1
    cases parenthesis
    refine ⟨_, List.prefix_rfl, by simp, ?_⟩
    simp only [List.mem_append, not_or]
    exact ⟨fun member => absurd (blank _ member) (by decide), by decide⟩
  have outside : '(' ∉ '\n' :: x.indent :=
    List.not_mem_cons_of_ne_of_not_mem (by decide) fun member =>
      absurd (x.isGap.isBlank _ member) (by decide)
  have whole : signature x.indent x.name ++ rest =
      ('\n' :: x.indent) ++ 'p' :: ("ublic String ".toList ++ (x.name ++ '(' :: rest)) := by
    simp [signature]
  rw [whole]
  exact (((needs.seq _).seq _).refuses outside previous g _)

theorem exists_offers_annotation (previous : Option Char) (rest : Text)
    (ends : ∀ c, rest.head? = some c → isWord c = false) : ∃ span,
      ("@" ++ group 1 jvmVerbs ++ "Mapping" ++ wordEdge).Offers
        (between previous (x.annotation ++ rest)) [] (between (some 'g') rest) [(1, span)] ∧
        upperOf (String.ofList span.text) = x.method := by
  have whole : x.annotation ++ rest =
      ['@'] ++ (x.verb.toList ++ ("Mapping".toList ++ rest)) := by
    simp [MappedMethod.annotation]
  have sign_ := offers_lit (g := []) previous ['@'] (x.verb.toList ++ ("Mapping".toList ++ rest))
  have verb_ : jvmVerbs.Offers (between (some '@') (x.verb.toList ++ ("Mapping".toList ++ rest))) []
      (between (lastOf (some '@') x.verb.toList) ("Mapping".toList ++ rest)) [] := by
    refine offers_oneOf (by decide) ?_ _ _
    exact (List.mem_map_of_mem x.known : x.verb ∈ springVerbs.map (·.1))
  have mapping_ (p : Option Char) (g : Groups) := offers_lit (g := g) p "Mapping".toList rest
  have edge_ (g : Groups) : wordEdge.Offers (between (some 'g') rest) g
      (between (some 'g') rest) g := by
    have noWord : isBeforeWord (between (some 'g') rest) = false := by
      show rest.head?.any isWord = false
      cases first : rest.head? with
      | none => rfl
      | some c => exact ends c first
    refine offers_test ?_
    rw [noWord]
    rfl
  let span : Span := ⟨between (some '@') (x.verb.toList ++ ("Mapping".toList ++ rest)),
    between (lastOf (some '@') x.verb.toList) ("Mapping".toList ++ rest)⟩
  have text : span.text = x.verb.toList := upTo_eq rfl
  refine ⟨span, ?_, ?_⟩
  · rw [whole]
    exact ((sign_.seq (verb_.group (n := 1))).seq (mapping_ _ _)).seq (edge_ _)
  · have verbs : ∀ entry ∈ springVerbs, upperOf entry.1 = entry.2 := by decide
    rw [text, String.ofList_toList]
    exact verbs (x.verb, x.method) x.known

/-- The annotation of a method is read with its arguments. -/
theorem exists_matchAt?_short (previous : Option Char) (rest : Text) : ∃ m c,
    springShort.matchAt? (between previous
      (x.annotation ++ (x.arguments ++ (signature x.indent x.name ++ rest)))) = some m ∧
      m.upper 1 = x.method ∧ requestPath (m.group 2) = x.path ∧ c ≠ '\n' ∧
      m.last = between (some c) (signature x.indent x.name ++ rest) := by
  let below := signature x.indent x.name ++ rest
  cases hasPath : x.path with
  | none =>
    have arguments : x.arguments = [] := by rw [MappedMethod.arguments, hasPath]
    obtain ⟨span, front, verb⟩ := exists_offers_annotation x previous below
      (stops_cons (by decide))
    have all := front.seq (.right (refuses_arguments x (some 'g') _ rest) offers_empty)
    rw [arguments, List.nil_append]
    exact ⟨_, 'g', matchAt?_of_offers all, verb, requestPath_nil, by decide, rfl⟩
  | some path =>
    have arguments : x.arguments = '(' :: (inQuotes path ++ [')']) := by
      rw [MappedMethod.arguments, hasPath]
    have isPlain := x.isPlain path hasPath
    let inside := inQuotes path ++ ([')'] ++ below)
    have whole : '(' :: (inQuotes path ++ [')']) ++ below = '(' :: inside := by
      simp [inside]
    obtain ⟨span, front, verb⟩ := exists_offers_annotation x previous ('(' :: inside)
      (stops_cons (by decide))
    have open_ (g : Groups) := offers_lit (g := g) (some 'g') ['('] inside
    have notClosed : ∀ c ∈ inQuotes path, (c != ')') = true :=
      Text.bne_of_not_mem (not_mem_inQuotes (by decide) isPlain.isBare.2)
    let inner : Span := ⟨between (some '(') inside,
      between (lastOf (some '(') (inQuotes path)) ([')'] ++ below)⟩
    have text : inner.text = inQuotes path := upTo_eq rfl
    have path_ : (some0 (· != ')')).Offers inner.first [(1, span)] inner.last [(1, span)] :=
      offers_many _ notClosed (stops_cons (by decide)) (Nat.zero_le _)
    have close_ (p : Option Char) (g : Groups) := offers_lit (g := g) p [')'] below
    have arguments_ : annotationArguments.Offers (between (some 'g') ('(' :: inside)) [(1, span)]
        (between (some ')') below) [(2, inner), (1, span)] :=
      .left ((((offers_noGap (stops_cons (by decide))).seq (open_ _)).seq path_.group).seq
        (close_ _ _))
    rw [arguments, whole]
    refine ⟨_, ')', matchAt?_of_offers (front.seq arguments_), verb, ?_, by decide, rfl⟩
    show requestPath inner.text = _
    rw [text, requestPath_inQuotes isPlain.noQuote]

end

/-! ## Classes -/

section
variable {file : String} {base : Text}

/-- The route of the annotation of a method. -/
def mappedAt (file : String) (base : Text) (m : Match) : Route :=
  ⟨m.upper 1, subPath base (m.group 2), file, jvmMethod.nextName? m.last⟩

/-- The routes of the annotations of methods from a place on. -/
def mappedFrom (file : String) (base : Text) (p : Place) : List Route :=
  (springShort.findAll p).map (mappedAt file base)

theorem springShort_opensWith : springShort.OpensWith '@' :=
  ((((opensWith_lit '@' []).seq _).seq _).seq _).seq _

theorem springMapping_opensWith : springMapping.OpensWith '@' :=
  (((((opensWith_lit '@' "RequestMapping".toList).seq _).seq _).seq _).seq _).seq _

theorem MappedMethod.outside_indent (x : MappedMethod) : '@' ∉ x.indent := fun member =>
  absurd (x.isGap.isBlank _ member) (by decide)

theorem MappedMethod.outside_signature (x : MappedMethod) :
    '@' ∉ signature x.indent x.name ++ x.body := by
  have name : '@' ∉ x.name := fun member => absurd (x.isName.2 _ member) (by decide)
  simp [signature, MappedMethod.body, x.outside_indent, name]

theorem mappedFrom_method (x : MappedMethod) (previous : Option Char) (rest : Text) :
    ∃ last, mappedFrom file base (between previous (x.text ++ rest)) =
      [x.route file base] ++ mappedFrom file base (between last rest) := by
  obtain ⟨m, c, found, method, path, other, last⟩ :=
    exists_matchAt?_short x (lastOf previous x.indent) (x.body ++ rest)
  have whole : x.text ++ rest = x.indent ++
      (x.annotation ++ (x.arguments ++ (signature x.indent x.name ++ (x.body ++ rest)))) := by
    simp [MappedMethod.text]
  have long : m.last.size < (between (lastOf previous x.indent)
      (x.annotation ++ (x.arguments ++ (signature x.indent x.name ++ (x.body ++ rest))))).size := by
    rw [last]
    show List.length _ < List.length _
    simp only [MappedMethod.annotation, List.length_append, List.length_cons]
    omega
  have here : mappedAt file base m = x.route file base := by
    rw [mappedAt, method, subPath, path, last, nextName?_signature x other]
    rfl
  refine ⟨lastOf (some c) (signature x.indent x.name ++ x.body), ?_⟩
  rw [mappedFrom, whole, springShort_opensWith.findAll_append x.outside_indent,
    findAll_of_matchAt? found long, last, ← List.append_assoc,
    springShort_opensWith.findAll_append x.outside_signature, List.map_cons, here]
  rfl

/-- What maps a class has a parenthesis, and no quote before it. -/
theorem springMapping_needs : springMapping.Needs '(' '"' := by
  have needs : (lit "@RequestMapping".toList ++ blanks ++ "(").Needs '(' '"' := by
    intro t rec reads
    obtain ⟨_, _, _, _, upToGap, parenthesis, rfl, -⟩ := reads_seq_iff.1 reads
    obtain ⟨_, _, gap, _, word, blank, rfl, -⟩ := reads_seq_iff.1 upToGap
    have blank := (reads_many_iff.1 blank).1
    cases word
    cases parenthesis
    refine ⟨_, List.prefix_rfl, by simp, ?_⟩
    simp only [List.mem_append, not_or]
    exact ⟨⟨by decide, fun member => absurd (blank _ member) (by decide)⟩, by decide⟩
  exact ((needs.seq _).seq _).seq _

theorem findAll_springMapping_arguments (x : MappedMethod) (previous : Option Char)
    (rest : Text) : ∃ last, springMapping.findAll (between previous (x.arguments ++ rest)) =
      springMapping.findAll (between last rest) := by
  cases hasPath : x.path with
  | none => exact ⟨previous, by rw [MappedMethod.arguments, hasPath]; rfl⟩
  | some path =>
    have whole : x.arguments ++ rest = ['(', '"'] ++ (path ++ '"' :: ([')'] ++ rest)) := by
      simp [MappedMethod.arguments, hasPath, inQuotes]
    refine ⟨some ')', ?_⟩
    rw [whole, springMapping_opensWith.findAll_append (by decide),
      springMapping_needs.findAll_append (x.isPlain path hasPath).isBare.1]
    exact springMapping_opensWith.findAll_append (s := ['"', ')']) (by decide) _ rest

/-- The annotation of a method is not that of a class. -/
theorem refuses_mapping_of_verb {verb : String × String} (known : verb ∈ springVerbs)
    (previous : Option Char) (rest : Text) :
    (lit "@RequestMapping".toList).Refuses (between previous ('@' :: (verb.1.toList ++ rest)))
      [] := by
  refine refuses_of_reads fun t rec reads inFront => ?_
  cases reads
  have verbs : ∀ verb ∈ springVerbs, verb.1.toList.head?.any (· != 'R') = true := by decide
  obtain ⟨c, first, other⟩ := (Option.any_eq_true _ _).1 (verbs verb known)
  obtain ⟨word, whole⟩ := List.head?_eq_some_iff.1 first
  have second : 'R' :: "equestMapping".toList <+: verb.1.toList ++ rest :=
    (List.cons_prefix_cons.1 inFront).2
  rw [whole] at second
  rw [← (List.cons_prefix_cons.1 second).1] at other
  cases other

theorem findAll_springMapping_method (x : MappedMethod) (previous : Option Char) (rest : Text) :
    ∃ last, springMapping.findAll (between previous (x.text ++ rest)) =
      [] ++ springMapping.findAll (between last rest) := by
  have whole : x.text ++ rest = x.indent ++ ('@' :: (x.verb.toList ++ ("Mapping".toList ++
      (x.arguments ++ (signature x.indent x.name ++ x.body ++ rest))))) := by
    simp [MappedMethod.text, MappedMethod.annotation]
  have other : springMapping.matchAt? (between (lastOf previous x.indent) ('@' :: (x.verb.toList ++
      ("Mapping".toList ++ (x.arguments ++ (signature x.indent x.name ++ x.body ++ rest)))))) =
      none := by
    have reads := refuses_mapping_of_verb x.known (lastOf previous x.indent)
      ("Mapping".toList ++ (x.arguments ++ (signature x.indent x.name ++ x.body ++ rest)))
    exact matchAt?_of_refuses (((((reads.seq _).seq _).seq _).seq _).seq _)
  have verb : '@' ∉ x.verb.toList ++ "Mapping".toList := by
    have verbs : ∀ entry ∈ springVerbs, '@' ∉ entry.1.toList ++ "Mapping".toList := by decide
    exact verbs (x.verb, x.method) x.known
  obtain ⟨last, passed⟩ := findAll_springMapping_arguments x
    (lastOf (some '@') (x.verb.toList ++ "Mapping".toList))
    (signature x.indent x.name ++ x.body ++ rest)
  refine ⟨lastOf last (signature x.indent x.name ++ x.body), ?_⟩
  rw [whole, springMapping_opensWith.findAll_append x.outside_indent, findAll_of_none other,
    ← List.append_assoc x.verb.toList, springMapping_opensWith.findAll_append verb, passed,
    springMapping_opensWith.findAll_append x.outside_signature, List.nil_append]

theorem mappedFrom_lines (xs : List MappedMethod) {ending : Text} (ends : '@' ∉ ending)
    (previous : Option Char) : mappedFrom file base
      (between previous (MappedMethod.lines xs ++ ending)) = xs.map (·.route file base) := by
  have feed (previous : Option Char) (rest : Text) :
      mappedFrom file base (between previous ('\n' :: rest)) =
        mappedFrom file base (between (some '\n') rest) := by
    rw [mappedFrom, ← List.singleton_append,
      springShort_opensWith.findAll_append (by decide), mappedFrom]
    rfl
  have nothing (previous : Option Char) : mappedFrom file base (between previous ending) = [] := by
    rw [mappedFrom, springShort_opensWith.findAll_eq_nil ends, List.map_nil]
  rw [← List.flatMap_singleton' (xs.map _), List.flatMap_map]
  exact read_joinedLines (fun _ => True)
    (fun x previous rest _ => mappedFrom_method x previous rest) feed nothing trivial xs trivial

theorem findAll_springMapping_lines (xs : List MappedMethod) {ending : Text} (ends : '@' ∉ ending)
    (previous : Option Char) :
    springMapping.findAll (between previous (MappedMethod.lines xs ++ ending)) = [] := by
  have feed (previous : Option Char) (rest : Text) :
      springMapping.findAll (between previous ('\n' :: rest)) =
        springMapping.findAll (between (some '\n') rest) :=
    springMapping_opensWith.findAll_append (s := ['\n']) (by decide) previous rest
  have none : xs.flatMap (fun _ => ([] : List Match)) = [] := by simp
  rw [← none]
  exact read_joinedLines (fun _ => True)
    (fun x previous rest _ => findAll_springMapping_method x previous rest) feed
    (springMapping_opensWith.findAll_eq_nil ends) trivial xs trivial

/-! ### The class -/

/-- Before the class its mapping is found. -/
theorem exists_findAll_classMapping (isPlain : IsPlainPath base) : ∃ m,
    springMapping.findAll (start (classMapping base)) = [m] ∧ m.group 1 = inQuotes base := by
  let inside := inQuotes base ++ (')' :: ['\n'])
  let inner : Span := ⟨between (some '(') inside,
    between (lastOf (some '(') (inQuotes base)) (')' :: ['\n'])⟩
  have text : inner.text = inQuotes base := upTo_eq rfl
  have mapping_ : (lit "@RequestMapping".toList).Offers (start (classMapping base)) []
      (between (some 'g') ('(' :: inside)) [] :=
    offers_lit none "@RequestMapping".toList ('(' :: inside)
  have open_ : (lit ['(']).Offers (between (some 'g') ('(' :: inside)) [] inner.first [] :=
    offers_lit (some 'g') ['('] inside
  have path_ : (some0 (· != ')')).Offers inner.first [] inner.last [] :=
    offers_many _ (Text.bne_of_not_mem (not_mem_inQuotes (by decide) isPlain.isBare.2))
      (stops_cons (by decide)) (Nat.zero_le _)
  have close_ : (lit [')']).Offers inner.last [(1, inner)] (between (some ')') ['\n'])
      [(1, inner)] := offers_lit _ [')'] ['\n']
  have gap_ : blanks.Offers (between (some 'g') ('(' :: inside)) []
      (between (some 'g') ('(' :: inside)) [] := offers_noGap (stops_cons (by decide))
  have gap'_ : blanks.Offers inner.first [] inner.first [] := offers_noGap (stops_cons (by decide))
  have all : springMapping.Offers (start (classMapping base)) [] (between (some ')') ['\n'])
      [(1, inner)] :=
    ((((mapping_.seq gap_).seq open_).seq gap'_).seq path_.group).seq close_
  have longer (word : Text) :
      ['\n'].length < (word ++ '(' :: (inQuotes base ++ (')' :: ['\n']))).length := by
    simp only [List.length_append, List.length_cons, List.length_nil]
    omega
  have long : (between (some ')') ['\n']).size < (start (classMapping base)).size := longer _
  have found := findAll_of_matchAt? (matchAt?_of_offers all) long
  rw [springMapping_opensWith.findAll_eq_nil (by decide)] at found
  exact ⟨_, found, text⟩

theorem springBase_classMapping (isPlain : IsPlainPath base) (rest : Text)
    (previous : Option Char) :
    springBase (classMapping base ++ rest) (between previous rest) = base := by
  have above : headBefore (classMapping base ++ rest) (between previous rest) =
      start (classMapping base) := by
    rw [Place.eq_between (headBefore ..)]
    show between none ((classMapping base ++ rest).take
      ((classMapping base ++ rest).length - rest.length)) = _
    rw [List.length_append, Nat.add_sub_cancel, List.take_left]
    rfl
  obtain ⟨m, found, path⟩ := exists_findAll_classMapping isPlain
  rw [springBase, above, found]
  simp only [List.getLast?_singleton, path, requestPath_inQuotes isPlain.noQuote,
    Option.getD_some]

/-- A declaration of a class starts with no annotation. -/
theorem refuses_jvmClass_of_sign (previous : Option Char) (rest : Text) :
    jvmClass.Refuses (between previous ('@' :: rest)) [] := by
  have needs : (lineStart ++ some0 isSpace ++ star (oneOf ["public", "protected", "private",
      "abstract", "final", "static", "open", "data"] ++ blanks1) ++ "class").Needs 'c' '@' := by
    intro t rec reads
    obtain ⟨_, _, _, _, upToModifiers, keyword, rfl, -⟩ := reads_seq_iff.1 reads
    obtain ⟨_, _, modifiers, _, upToSpaces, modified, rfl, -⟩ := reads_seq_iff.1 upToModifiers
    obtain ⟨_, _, spaces, _, opening, spaced, rfl, -⟩ := reads_seq_iff.1 upToSpaces
    obtain ⟨pieces, rfl, once⟩ := modified.exists_pieces
    have spaced := (reads_many_iff.1 spaced).1
    cases opening
    cases keyword
    have noSpace : '@' ∉ spaces := fun member => absurd (spaced _ member) (by decide)
    have noModifier : '@' ∉ pieces.flatten := by
      intro member
      obtain ⟨piece, listed, member⟩ := List.mem_flatten.1 member
      obtain ⟨_, once⟩ := once piece listed
      obtain ⟨_, _, gap, _, word, blank, rfl, -⟩ := reads_seq_iff.1 once
      obtain ⟨modifier, known, rfl⟩ := exists_of_reads_oneOf (by decide) word
      have words : ∀ word ∈ ["public", "protected", "private", "abstract", "final", "static",
        "open", "data"], '@' ∉ word.toList := by decide
      rcases List.mem_append.1 member with member | member
      · exact words modifier known member
      · exact absurd ((reads_many_iff.1 blank).1 _ member) (by decide)
    refine ⟨_, List.prefix_rfl, by simp, ?_⟩
    simp only [List.nil_append, List.mem_append, not_or]
    exact ⟨⟨noSpace, noModifier⟩, by decide⟩
  exact ((needs.seq _).seq _).refuses (s := []) List.not_mem_nil previous [] rest

/-- No class is declared in its mapping. -/
theorem find?_jvmClass_classMapping (isPlain : IsPlainPath base) (rest : Text) :
    jvmClass.find? (start (classMapping base ++ rest)) =
      jvmClass.find? (between (some '\n') rest) := by
  let line := "@RequestMapping".toList ++ ('(' :: (inQuotes base ++ [')']))
  have whole : classMapping base = line ++ ['\n'] := by
    unfold classMapping
    simp only [line, List.append_assoc, List.cons_append, List.nil_append]
  have oneLine : '\n' ∉ line := by
    have inside := not_mem_inQuotes (by decide) isPlain.oneLine
    simp only [line, List.mem_append, List.mem_cons, List.not_mem_nil, or_false, not_or]
    exact ⟨by decide, by decide, inside, by decide⟩
  have last : lastOf none (line ++ ['\n']) = some '\n' := by
    rw [lastOf, List.getLast?_concat]
    rfl
  rw [whole, ← last]
  refine find?_append_of_none fun u c v split => matchAt?_of_refuses ?_
  rcases List.eq_nil_or_concat u with rfl | ⟨before, d, rfl⟩
  · obtain rfl : c = '@' := (List.cons.inj split).1.symm
    exact refuses_jvmClass_of_sign _ _
  · obtain ⟨w, e, parts⟩ := (List.eq_nil_or_concat (c :: v)).resolve_left (List.cons_ne_nil c v)
    rw [parts, List.concat_eq_append, List.concat_eq_append, ← List.append_assoc] at split
    obtain ⟨same, -⟩ := List.append_inj' split rfl
    have other : d ≠ '\n' := by
      rintro rfl
      exact oneLine (by rw [same]; simp)
    have inLine : isLineStart (between (lastOf none (before.concat d))
        (c :: (v ++ rest))) = false := by
      rw [lastOf, List.concat_eq_append, List.getLast?_concat]
      simpa [isLineStart, between] using other
    exact ((((refuses_test inLine).seq _).seq _).seq _).seq _ |>.seq _

theorem exists_matchAt?_jvmClass {name : Text} (isName : IsName name) (xs : List MappedMethod)
    (ending : Text) : ∃ m,
      jvmClass.matchAt? (between (some '\n') (classText name xs ending)) = some m := by
  let t₃ := " \x7b\n".toList ++ (MappedMethod.lines xs ++ ending)
  let t₂ := 'c' :: ("lass ".toList ++ (name ++ t₃))
  have line_ : lineStart.Offers (between (some '\n') (classText name xs ending)) []
      (between (some '\n') (classText name xs ending)) [] := offers_test rfl
  have spaces_ : (some0 isSpace).Offers (between (some '\n') (classText name xs ending)) []
      (between (some '\n') (classText name xs ending)) [] :=
    offers_many (t := []) _ (List.forall_mem_nil _) (stops_cons (by decide)) (Nat.zero_le _)
  have public_ : (star (oneOf ["public", "protected", "private", "abstract", "final", "static",
      "open", "data"] ++ blanks1)).Offers (between (some '\n') (classText name xs ending)) []
      (between (some ' ') t₂) [] :=
    offers_public (by decide) (by decide) (by decide) (by decide) _ _
  have class_ : (lit "class".toList).Offers (between (some ' ') t₂) []
      (between (some 's') ([' '] ++ (name ++ t₃))) [] :=
    offers_lit (some ' ') "class".toList ([' '] ++ (name ++ t₃))
  have gap_ : blanks1.Offers (between (some 's') ([' '] ++ (name ++ t₃))) []
      (between (some ' ') (name ++ t₃)) [] :=
    offers_many _ (by decide) (Text.forall_head?_of_ne_nil
      (fun d member => isBlank_of_isWord (isName.2 d member)) isName.1) (by decide)
  have name_ : word.Offers (between (some ' ') (name ++ t₃)) []
      (between (lastOf (some ' ') name) t₃) [] :=
    offers_many _ isName.2 (stops_cons (by decide)) (List.length_pos_iff.2 isName.1)
  exact ⟨_, matchAt?_of_offers (((((line_.seq spaces_).seq public_).seq class_).seq gap_).seq
    (name_.group (n := 1)))⟩

theorem classPlace_classText (isPlain : IsPlainPath base) {name : Text} (isName : IsName name)
    (xs : List MappedMethod) (ending : Text) :
    classPlace (classMapping base ++ classText name xs ending) =
      between (some '\n') (classText name xs ending) := by
  obtain ⟨m, found⟩ := exists_matchAt?_jvmClass isName xs ending
  rw [classPlace, find, find?_jvmClass_classMapping isPlain, find?_of_matchAt? found]
  exact (matches_of_matchAt? found).2

/-- The routes of a class are those that are written in it. -/
theorem inSpring_classText (isPlain : IsPlainPath base) {name : Text} (isName : IsName name)
    (xs : List MappedMethod) {ending : Text} (ends : '@' ∉ ending) :
    inSpring file (classMapping base ++ classText name xs ending) =
      xs.map (·.route file base) := by
  have outside : '@' ∉ "public ".toList ++ ("class ".toList ++ (name ++ " \x7b\n".toList)) := by
    have inName : '@' ∉ name := fun member => absurd (isName.2 _ member) (by decide)
    simp only [List.mem_append, not_or]
    exact ⟨by decide, by decide, inName, by decide⟩
  have whole : classText name xs ending =
      "public ".toList ++ ("class ".toList ++ (name ++ " \x7b\n".toList)) ++
        (MappedMethod.lines xs ++ ending) := by
    unfold classText
    simp only [List.append_assoc]
  have mapped : mappedFrom file base (between (some '\n') (classText name xs ending)) =
      xs.map (·.route file base) := by
    rw [mappedFrom, whole, springShort_opensWith.findAll_append outside]
    exact mappedFrom_lines xs ends _
  have none : springMapping.findAll (between (some '\n') (classText name xs ending)) = [] := by
    rw [whole, springMapping_opensWith.findAll_append outside, findAll_springMapping_lines xs ends]
  rw [inSpring, classPlace_classText isPlain isName, springBase_classMapping isPlain, none,
    List.flatMap_nil, List.append_nil]
  exact mapped

end

section
variable {s : Source} {l : List String} {file : String} {base name ending : Text}
  {xs : List MappedMethod}
  (listed : s.files = .ok l) (chosen : findFiles jvmFiles l = [file])
  (isPlain : IsPlainPath base) (isName : IsName name) (ends : '@' ∉ ending)
  (readable : s.read file = .ok (some (classMapping base ++ classText name xs ending)))
include listed chosen isPlain isName ends readable

/-- Of the mappings in a class each gives the route that is written in it, below the path of the
class with one slash where the two paths meet. -/
theorem spring_reads_written : spring.scan.run s = .ok (xs.map (·.route file base)) ∧
    ∀ x ∈ xs, ∀ path ∈ x.path, base ≠ [] → path ≠ [] →
      IsJoined base path (joinPaths base path) := by
  constructor
  · rw [spring, Scan.run_eachFile listed, chosen, ← inSpring_classText isPlain isName xs ends]
    exact Scan.run_eachText_singleton readable _
  · exact fun x _ path mapped some some' =>
      joinPaths_isJoined isPlain (x.isPlain path mapped) some some'

end

/-! ### Orders -/

theorem isPlain_orders : IsPlainPath "/api/orders/".toList :=
  ⟨by decide, by decide, by decide, by rintro _ ⟨⟩; rfl, by rintro _ ⟨⟩; rfl⟩

theorem isPlain_item : IsPlainPath "/{id}@GetMapping".toList :=
  ⟨by decide, by decide, by decide, by rintro _ ⟨⟩; rfl, by rintro _ ⟨⟩; rfl⟩

theorem isGap_tab : IsGap "\t".toList := by decide

theorem isName_list : IsName "list".toList := by decide

theorem isName_change : IsName "change".toList := by decide

/-- A method without a path of its own, and one with the mark of an annotation in its path. -/
def orderMethods : List MappedMethod :=
  [⟨"\t".toList, "Get", "GET", none, "list".toList, isGap_tab, by decide, nofun, isName_list,
      by decide⟩,
   ⟨"\t".toList, "Patch", "PATCH", some "/{id}@GetMapping".toList, "change".toList, isGap_tab,
      by decide, by rintro _ ⟨⟩; exact isPlain_item, isName_change, by decide⟩]

/-- The file with these methods. -/
def ordersSource : Source :=
  .ofTexts [("src/Orders.java",
    classMapping "/api/orders/".toList ++ classText "Orders".toList orderMethods "\n\x7d\n".toList)]

theorem spring_orders_read : spring.scan.run ordersSource =
    .ok [⟨"GET", "/api/orders/", "src/Orders.java", some "list"⟩,
      ⟨"PATCH", "/api/orders/{id}@GetMapping", "src/Orders.java", some "change"⟩] := by
  have chosen : findFiles jvmFiles ["src/Orders.java"] = ["src/Orders.java"] := by decide +kernel
  have readable : ordersSource.read "src/Orders.java" = .ok (some (classMapping
      "/api/orders/".toList ++
        classText "Orders".toList orderMethods "\n\x7d\n".toList)) := rfl
  exact (spring_reads_written rfl chosen isPlain_orders (by decide) (by decide) readable).1

end Routes

end CodeSurvey
