import CodeSurvey.Proofs.Gaps
import CodeSurvey.Proofs.Offers
import CodeSurvey.Proofs.Words

/-!
# Names of the features of routes

The feature of a route is named by the words of the first two segments of its path that are no
parameters (`leading`). What else is in the path plays no part, since a path is read segment by
segment (`literalSegments_append_slash`). For an ASCII path lower case undoes the capitals of the
name, so that the feature is a gap exactly if none of these words is a word of a title
(`featureName_exact`).
-/

namespace CodeSurvey

/-! ## Parameters -/

/-- A segment that is filled in, as the frameworks write it. -/
inductive IsPlaceholder : Text → Prop where
  | colon {name : Text} (isName : IsName name) : IsPlaceholder (':' :: name)
  | braces {inside : Text} (closes : '}' ∉ inside) : IsPlaceholder ('{' :: (inside ++ ['}']))
  | brackets {inside : Text} (closes : ']' ∉ inside) : IsPlaceholder ('[' :: (inside ++ [']']))
  | angles {inside : Text} (closes : '>' ∉ inside) : IsPlaceholder ('<' :: (inside ++ ['>']))
  | star {name : Text} (word : ∀ c ∈ name, isWord c = true) : IsPlaceholder ('*' :: name)

/-- A segment that stands for a parameter. A line feed at its end does not count. -/
def IsParameterSegment (segment : Text) : Prop :=
  ∃ placeholder ending, segment = placeholder ++ ending ∧ IsPlaceholder placeholder ∧
    (ending = [] ∨ ending = ['\n'])

section
open Pattern Place

/-- What stands between two marks is read up to the second one. -/
theorem enclosed_offers {o c : Char} {inside : Text} (closes : c ∉ inside)
    (previous : Option Char) (g : Groups) (rest : Text) :
    (lit [o] ++ some0 (· != c) ++ lit [c]).Offers
      (between previous (o :: (inside ++ [c]) ++ rest)) g (between (some c) rest) g := by
  have whole : o :: (inside ++ [c]) ++ rest = [o] ++ (inside ++ ([c] ++ rest)) := by simp
  have open_ := offers_lit (g := g) previous [o] (inside ++ ([c] ++ rest))
  have inside_ (p : Option Char) :
      (some0 (· != c)).Offers (between p (inside ++ ([c] ++ rest))) g
        (between (lastOf p inside) ([c] ++ rest)) g :=
    offers_many p (Text.bne_of_not_mem closes) (stops_cons (by simp)) (Nat.zero_le _)
  have close_ (p : Option Char) := offers_lit (g := g) p [c] rest
  rw [whole]
  exact (open_.seq (inside_ _)).seq (close_ _)

theorem refuses_first {o o' : Char} (other : o' ≠ o) (x y : Pattern) (previous : Option Char)
    (g : Groups) (rest : Text) :
    (lit [o] ++ x ++ y).Refuses (between previous (o' :: rest)) g :=
  ((refuses_lit other _ [] _).seq x).seq y

/-- What is read of a parameter is a placeholder. -/
theorem isPlaceholder_of_reads {t : Text} {rec : List (Nat × Text)}
    (reads : (choice [":" ++ word, "\x7b" ++ some0 (· != '}') ++ "\x7d",
      "[" ++ some0 (· != ']') ++ "]", "<" ++ some0 (· != '>') ++ ">",
      "*" ++ some0 isWord]).Reads t rec) : IsPlaceholder t := by
  have enclosed {o c : Char} {t : Text} {rec : List (Nat × Text)}
      (reads : (lit [o] ++ some0 (· != c) ++ lit [c]).Reads t rec) :
      ∃ inside, t = o :: (inside ++ [c]) ∧ c ∉ inside := by
    obtain ⟨_, _, _, _, front, last, rfl, -⟩ := reads_seq_iff.1 reads
    obtain ⟨_, _, inside, _, first, within, rfl, -⟩ := reads_seq_iff.1 front
    obtain ⟨others, -, -⟩ := reads_many_iff.1 within
    cases first
    cases last
    exact ⟨inside, by simp, fun member => by simpa using others c member⟩
  cases reads with
  | left colon =>
    obtain ⟨_, _, name, _, first, within, rfl, -⟩ := reads_seq_iff.1 colon
    obtain ⟨isWord, long, -⟩ := reads_many_iff.1 within
    cases first
    exact .colon ⟨List.ne_nil_of_length_pos long, isWord⟩
  | right reads =>
  cases reads with
  | left braces =>
    obtain ⟨inside, rfl, closes⟩ := enclosed braces
    exact .braces closes
  | right reads =>
  cases reads with
  | left brackets =>
    obtain ⟨inside, rfl, closes⟩ := enclosed brackets
    exact .brackets closes
  | right reads =>
  cases reads with
  | left angles =>
    obtain ⟨inside, rfl, closes⟩ := enclosed angles
    exact .angles closes
  | right star =>
    obtain ⟨_, _, name, _, first, within, rfl, -⟩ := reads_seq_iff.1 star
    obtain ⟨isWord, -, -⟩ := reads_many_iff.1 within
    cases first
    exact .star isWord

/-- A placeholder is read to its end, if no word goes on there. -/
theorem placeholder_offers {t rest : Text} (h : IsPlaceholder t)
    (ends : ∀ c, rest.head? = some c → isWord c = false) :
    ∃ last, (choice [":" ++ word, "\x7b" ++ some0 (· != '}') ++ "\x7d",
      "[" ++ some0 (· != ']') ++ "]", "<" ++ some0 (· != '>') ++ ">",
      "*" ++ some0 isWord]).Offers (start (t ++ rest)) [] (between last rest) [] := by
  -- The placeholders before the one that is there are refused at the first character.
  have noColon {c : Char} (other : c ≠ ':') (rest : Text) :
      (":" ++ word : Pattern).Refuses (start (c :: rest)) [] :=
    (refuses_lit other _ [] _).seq word
  have refuses {o c : Char} (other : c ≠ o) (x y : Pattern) (rest : Text) :
      (lit [o] ++ x ++ y).Refuses (start (c :: rest)) [] :=
    refuses_first other x y none [] rest
  cases h with
  | @colon name isName =>
    have first := offers_lit (g := []) none [':'] (name ++ rest)
    have name_ := offers_many (g := []) (some ':') isName.2 ends
      (List.length_pos_iff.2 isName.1)
    exact ⟨_, (first.seq name_).left⟩
  | braces closes =>
    exact ⟨_, .right (noColon (by decide) _) (enclosed_offers closes none [] rest).left⟩
  | brackets closes =>
    exact ⟨_, .right (noColon (by decide) _) (.right (refuses (by decide) _ _ _)
      (enclosed_offers closes none [] rest).left)⟩
  | angles closes =>
    exact ⟨_, .right (noColon (by decide) _) (.right (refuses (by decide) _ _ _)
      (.right (refuses (by decide) _ _ _) (enclosed_offers closes none [] rest).left))⟩
  | @star name isWord =>
    have first := offers_lit (g := []) none ['*'] (name ++ rest)
    have name_ : (some0 CodeSurvey.isWord).Offers (between (some '*') (name ++ rest)) []
        (between (lastOf (some '*') name) rest) [] :=
      offers_many (some '*') isWord ends (Nat.zero_le _)
    exact ⟨_, .right (noColon (by decide) _) (.right (refuses (by decide) _ _ _)
      (.right (refuses (by decide) _ _ _) (.right (refuses (by decide) _ _ _)
        (first.seq name_))))⟩

theorem isParameter_iff {segment : Text} :
    isParameter segment = true ↔ IsParameterSegment segment := by
  constructor
  · intro parameter
    obtain ⟨m, found⟩ := Option.isSome_iff_exists.1 parameter
    obtain ⟨⟨rest, reads⟩, first⟩ := matches_of_matchAt? found
    obtain ⟨_, _, _, _, front, last, text, -⟩ := reads_seq_iff.1 reads
    obtain ⟨_, _, placeholder, _, opening, read, rfl, -⟩ := reads_seq_iff.1 front
    cases opening
    cases last
    refine ⟨placeholder, m.last.rest, ?_, isPlaceholder_of_reads read,
      isTextEnd_iff.1 (holds_of_matchAt? found)⟩
    rw [first, text, List.append_nil, List.nil_append] at rest
    exact rest
  · rintro ⟨placeholder, ending, rfl, h, ends⟩
    have wordless : ∀ c, ending.head? = some c → isWord c = false := by
      rcases ends with rfl | rfl
      · exact stops_nil
      · exact stops_cons (by decide)
    obtain ⟨last, read⟩ := placeholder_offers h wordless
    have opening : textStart.Offers (start (placeholder ++ ending)) []
        (start (placeholder ++ ending)) [] := offers_test rfl
    have closing : textEnd.Offers (between last ending) [] (between last ending) [] :=
      offers_test (isTextEnd_iff.2 ends)
    rw [isParameter, parameterSegment, matchAt?_of_offers ((opening.seq read).seq closing)]
    rfl

end

instance : DecidablePred IsParameterSegment := fun _ => decidable_of_iff _ isParameter_iff

/-! ## Segments -/

/-- The first two segments of a path that are neither empty nor parameters. -/
def leading (path : Text) : List Text :=
  ((List.splitOn '/' path).filter fun segment =>
    decide (segment ≠ [] ∧ ¬ IsParameterSegment segment)).take 2

theorem literalSegments_eq (path : Text) :
    literalSegments path = (List.splitOn '/' path).filter fun segment =>
      decide (segment ≠ [] ∧ ¬ IsParameterSegment segment) := by
  rw [literalSegments, Text.splitOn_eq_splitOnP, ← List.splitOn_eq_splitOnP]
  refine List.filter_congr fun segment _ => ?_
  rw [Bool.eq_iff_iff, decide_eq_true_iff, ← isParameter_iff]
  simp

theorem literalSegments_nil : literalSegments [] = [] := by decide

/-- A path is read segment by segment. -/
theorem literalSegments_append_slash (a b : Text) :
    literalSegments (a ++ '/' :: b) = literalSegments a ++ literalSegments b := by
  simp only [literalSegments, Text.splitOn_eq_splitOnP]
  rw [List.splitOnP_append_cons _ _ (by decide), List.filter_append]

theorem literalSegments_joinWith (pieces : List Text) :
    literalSegments (Text.joinWith ['/'] pieces) = pieces.flatMap literalSegments :=
  Text.flatMap_joinWith literalSegments literalSegments_nil literalSegments_append_slash pieces

/-- A segment that is empty or a parameter is passed over. -/
theorem literalSegments_eq_nil {segment : Text} (noSlash : '/' ∉ segment)
    (passed : segment = [] ∨ IsParameterSegment segment) : literalSegments segment = [] := by
  have whole : List.splitOn '/' segment = [segment] :=
    List.splitOn_eq_singleton noSlash
  rw [literalSegments_eq, whole, List.filter_eq_nil_iff, List.forall_mem_singleton,
    decide_eq_true_iff]
  rintro ⟨full, literal⟩
  exact passed.elim full literal

/-- The words that name the feature of a path. -/
def leadingWords (path : Text) : List Text := (leading path).flatMap wordsOf

theorem wordsOf_joinWith {s : Char} (h : separatesWords s = true) (texts : List Text) :
    wordsOf (Text.joinWith [s] texts) = texts.flatMap wordsOf :=
  Text.flatMap_joinWith wordsOf wordsOf_nil (wordsOf_append_separator h) texts

/-- The name of a feature before the name of the root takes its place. -/
def leadingTitle (path : Text) : Text :=
  Text.joinWith [' '] ((leadingWords path).map Text.capitalize)

theorem featureName_eq (path : Text) :
    featureName path = if leadingTitle path = [] then Text.of "Home" else leadingTitle path := by
  have leads : (literalSegments path).take 2 = leading path := by
    rw [literalSegments_eq, leading]
  rw [featureName, leads, wordsOf_joinWith (by decide)]
  simp only [List.isEmpty_iff]
  rfl

theorem featureName_ne_nil (path : Text) : featureName path ≠ [] := by
  rw [featureName_eq]
  split
  · decide
  · next full => exact full

/-! ## ASCII -/

def IsAscii (text : Text) : Prop := ∀ c ∈ text, c.toNat < 128

instance : DecidablePred IsAscii := fun text =>
  inferInstanceAs (Decidable (∀ c ∈ text, c.toNat < 128))

/-- What holds of each of the first 128 characters holds of every character of an ASCII text. -/
theorem forall_ascii {P : Char → Prop} (all : ∀ n < 128, P (Char.ofNat n)) {text : Text}
    (ascii : IsAscii text) : ∀ c ∈ text, P c := by
  intro c member
  have here := all c.toNat (ascii c member)
  rwa [Char.ofNat_toNat] at here

/-- A text with its capitals as small letters. -/
def small (text : Text) : Text := text.map Char.toLower

theorem lowerAfter_ascii {text : Text} (ascii : IsAscii text) (before : Text) :
    Text.lowerAfter before text = small text := by
  induction text generalizing before with
  | nil => rfl
  | cons c rest ih =>
    obtain ⟨here, later⟩ := List.forall_mem_cons.1 ascii
    have other : ¬ (c == 'Σ') = true := by
      rw [beq_iff_eq]
      rintro rfl
      exact absurd here (by decide)
    rw [Text.lowerAfter_cons, Text.lowerBetween, if_neg other, ih later, Text.lowerChar,
      if_pos here]
    rfl

theorem lower_ascii {text : Text} (ascii : IsAscii text) : text.lower = small text :=
  lowerAfter_ascii ascii []

/-- Lower case undoes the capital at the start of a word. -/
theorem lower_capitalize_ascii {text : Text} (ascii : IsAscii text) :
    text.capitalize.lower = small text := by
  cases text with
  | nil => rfl
  | cons c rest =>
    obtain ⟨here, later⟩ := List.forall_mem_cons.1 ascii
    have letters := forall_ascii
      (P := fun c => (c.toUpper.toNat < 128 ∧ c.toLower.toNat < 128) ∧
        c.toUpper.toLower = c.toLower ∧ c.toLower.toLower = c.toLower) (by decide) ascii
    obtain ⟨first, others⟩ := List.forall_mem_cons.1 letters
    have capital : Text.capitalize (c :: rest) = c.toUpper :: small rest := by
      rw [Text.capitalize, lowerAfter_ascii later, Text.titleChar, if_pos here]
      rfl
    have asciiName : IsAscii (c.toUpper :: small rest) := by
      refine List.forall_mem_cons.2 ⟨first.1.1, List.forall_mem_map.2 fun c member => ?_⟩
      exact (others c member).1.2
    have again : small (small rest) = small rest := by
      rw [small, small, List.map_map]
      exact List.map_congr_left fun c member => (others c member).2.2
    rw [capital, lower_ascii asciiName, small, List.map_cons, first.2.1]
    exact congrArg (c.toLower :: ·) again

/-! ### Words -/

theorem splitOnP_map {ok : Char → Bool} {f : Char → Char} {text : Text}
    (same : ∀ c ∈ text, ok (f c) = ok c) :
    List.splitOnP ok (text.map f) = (List.splitOnP ok text).map (List.map f) := by
  induction text with
  | nil => rfl
  | cons c text ih =>
    obtain ⟨here, later⟩ := List.forall_mem_cons.1 same
    rw [List.map_cons, List.splitOnP_cons_eq_if_modifyHead, List.splitOnP_cons_eq_if_modifyHead,
      here, ih later]
    split
    · rfl
    · obtain ⟨head, pieces, whole⟩ := List.exists_cons_of_ne_nil (List.splitOnP_ne_nil ok text)
      rw [whole]
      rfl

/-- The words of a text with small letters are its words with small letters. -/
theorem wordsOf_small {text : Text} (ascii : IsAscii text) :
    wordsOf (small text) = (wordsOf text).map small := by
  have same := forall_ascii (P := fun c => separatesWords c.toLower = separatesWords c)
    (by decide +kernel) ascii
  have full : (fun piece : Text => !piece.isEmpty) ∘ List.map Char.toLower =
      fun piece => !piece.isEmpty := by
    funext piece
    cases piece <;> rfl
  rw [wordsOf, wordsOf, Text.splitOn_eq_splitOnP, Text.splitOn_eq_splitOnP, small,
    splitOnP_map same, List.filter_map, full]
  rfl

theorem mem_of_mem_wordsOf {text word : Text} (member : word ∈ wordsOf text) :
    word ≠ [] ∧ ∀ c ∈ word, c ∈ text ∧ separatesWords c = false := by
  obtain ⟨piece, full⟩ := List.mem_filter.1 member
  rw [Text.splitOn_eq_splitOnP] at piece
  exact ⟨by simpa using full, Text.mem_of_mem_splitOnP piece⟩

/-- A word is its only word. -/
theorem wordsOf_word {text word : Text} (member : word ∈ wordsOf text) : wordsOf word = [word] := by
  obtain ⟨full, inside⟩ := mem_of_mem_wordsOf member
  rw [wordsOf, Text.splitOn_eq_splitOnP, List.splitOnP_eq_singleton fun c here => (inside c here).2,
    List.filter_cons_of_pos (by simpa using full), List.filter_nil]

theorem mem_leadingWords {path word : Text} (member : word ∈ leadingWords path) :
    ∃ segment, word ∈ wordsOf segment ∧ ∀ c ∈ segment, c ∈ path := by
  obtain ⟨segment, leads, word⟩ := List.mem_flatMap.1 member
  have piece := (List.mem_filter.1 ((List.take_sublist _ _).mem leads)).1
  rw [List.splitOn_eq_splitOnP] at piece
  exact ⟨segment, word, fun c inside => (Text.mem_of_mem_splitOnP piece c inside).1⟩

/-! ## Names -/

/-- The words by which the feature of a path is looked for. -/
def nameWords (path : Text) : List Text :=
  if leadingWords path = [] then [Text.of "home"] else (leadingWords path).map small

theorem capitalize_ne_nil {word : Text} (ascii : IsAscii word) (full : word ≠ []) :
    word.capitalize ≠ [] := by
  intro none
  have same := lower_capitalize_ascii ascii
  rw [none] at same
  exact full (List.map_eq_nil_iff.1 same.symm)

section
variable {path : Text}

theorem leadingWords_ascii (ascii : IsAscii path) : ∀ word ∈ leadingWords path, IsAscii word := by
  intro word member c inside
  obtain ⟨segment, word, within⟩ := mem_leadingWords member
  exact ascii c (within c ((mem_of_mem_wordsOf word).2 c inside).1)

theorem leadingTitle_eq_nil_iff (ascii : IsAscii path) :
    leadingTitle path = [] ↔ leadingWords path = [] := by
  rw [leadingTitle]
  cases words : leadingWords path with
  | nil => exact iff_of_true rfl rfl
  | cons first others =>
    have member : first ∈ leadingWords path := by rw [words]; exact .head _
    obtain ⟨segment, word, -⟩ := mem_leadingWords member
    have some := capitalize_ne_nil (leadingWords_ascii ascii first member)
      (mem_of_mem_wordsOf word).1
    rw [List.map_cons, Text.joinWith_cons]
    simp [some]

/-- A capitalised word of an ASCII path has itself with small letters as its only token. -/
theorem tokenSet_capitalize (ascii : IsAscii path) {word : Text}
    (member : word ∈ leadingWords path) (token : Text) :
    token ∈ tokenSet word.capitalize ↔ token = small word := by
  obtain ⟨segment, isWord, -⟩ := mem_leadingWords member
  have inWord := leadingWords_ascii ascii word member
  rw [mem_tokenSet, lower_capitalize_ascii inWord, wordsOf_small inWord, wordsOf_word isWord]
  simp

/-- The tokens of the name of a feature are the words of the leading segments. -/
theorem mem_tokenSet_featureName (ascii : IsAscii path) (token : Text) :
    token ∈ tokenSet (featureName path) ↔ token ∈ nameWords path := by
  rw [featureName_eq, nameWords]
  simp only [leadingTitle_eq_nil_iff ascii]
  split
  · have home : tokens (Text.of "Home") = [Text.of "home"] := by decide +kernel
    rw [tokenSet, home, List.mem_toFinset]
  · rw [leadingTitle, mem_tokenSet_joinWith (by decide)]
    simp only [List.mem_map, exists_exists_and_eq_and]
    refine exists_congr fun word => and_congr_right fun member => ?_
    rw [tokenSet_capitalize ascii member, eq_comm]

theorem mem_tokenSet_ascii {text : Text} (ascii : IsAscii text) (token : Text) :
    token ∈ tokenSet text ↔ ∃ word ∈ wordsOf text, small word = token := by
  rw [mem_tokenSet, lower_ascii ascii, wordsOf_small ascii, List.mem_map]

/-- The feature of a route is missing in documents with ASCII titles if none of its words is a word
of a title, whatever the case of the letters. -/
theorem isMissing_route_iff {r : Route} (ascii : IsAscii r.path.toList)
    {documents : List Document} (titles : ∀ d ∈ documents, IsAscii d.title.toList) :
    r.feature.IsMissing documents ↔ ∀ token ∈ nameWords r.path.toList, ∀ d ∈ documents,
      ∀ word ∈ wordsOf d.title.toList, small word ≠ token := by
  have named : r.feature.name.toList = featureName r.path.toList := String.toList_ofList
  rw [Feature.isMissing_iff, named]
  simp only [mem_tokenSet_featureName ascii]
  refine forall₂_congr fun token _ => forall₂_congr fun d listed => ?_
  rw [mem_tokenSet_ascii (titles d listed)]
  simp

theorem gapsIn_singleton (f : Feature) (documents : List Document) :
    gapsIn [f] documents = [f.gap] ↔ f.IsMissing documents := by
  rw [gapsIn_eq]
  by_cases missing : f.IsMissing documents <;> simp [missing]

/-- The name of the feature of an ASCII path is not empty and depends on the leading segments only.
So segments that are empty or parameters may be put in or taken out anywhere. The tokens of the
name are the words of the leading segments with small letters, or that of the root if there are
none, and the feature is a gap in documents with ASCII titles exactly if none of these is a word of
a title, whatever the case of the letters. -/
theorem featureName_exact (ascii : IsAscii path) :
    featureName path ≠ [] ∧
      (∀ other, leading other = leading path → featureName other = featureName path) ∧
      (∀ before after segment, '/' ∉ segment → segment = [] ∨ IsParameterSegment segment →
        featureName (Text.joinWith ['/'] (before ++ segment :: after)) =
          featureName (Text.joinWith ['/'] (before ++ after))) ∧
      tokenSet (featureName path) = (nameWords path).toFinset ∧
      ∀ (r : Route) (documents : List Document), r.path.toList = path →
        (∀ d ∈ documents, IsAscii d.title.toList) →
        (gapsIn [r.feature] documents = [r.feature.gap] ↔
          ∀ token ∈ nameWords path, ∀ d ∈ documents, ∀ word ∈ wordsOf d.title.toList,
            small word ≠ token) := by
  have ofLeading {a b : Text} (same : leading a = leading b) : featureName a = featureName b := by
    rw [featureName_eq, featureName_eq, leadingTitle, leadingTitle, leadingWords, leadingWords,
      same]
  refine ⟨featureName_ne_nil path, fun other => ofLeading, ?_, ?_, ?_⟩
  · intro before after segment noSlash passed
    refine ofLeading ?_
    have none := literalSegments_eq_nil noSlash passed
    rw [leading, leading, ← literalSegments_eq, ← literalSegments_eq, literalSegments_joinWith,
      literalSegments_joinWith, List.flatMap_append, List.flatMap_append, List.flatMap_cons, none,
      List.nil_append]
  · ext token
    rw [mem_tokenSet_featureName ascii, List.mem_toFinset]
  · rintro r documents rfl titles
    rw [gapsIn_singleton, isMissing_route_iff ascii titles]

end

/-- A path with two parameters and a doubled slash. -/
def profilePath : Text := Text.of "/:tenant//user_profile/{id}/Posts/edit"

def profileRoute : Route := ⟨"GET", String.ofList profilePath, "a.py", none⟩

def manuals : List Document := [⟨"About profiles", "", "a.md"⟩, ⟨"Blog-POSTS", "", "b.md"⟩]

theorem profile_named : IsAscii profilePath ∧
    featureName profilePath = featureName (Text.of "user_profile/Posts") ∧
    tokenSet (featureName profilePath) =
      {Text.of "user", Text.of "profile", Text.of "posts"} ∧
    gapsIn [profileRoute.feature] manuals ≠ [profileRoute.feature.gap] ∧
    gapsIn [profileRoute.feature] (manuals.take 1) = [profileRoute.feature.gap] := by
  have ascii : IsAscii profilePath := by decide
  have words : nameWords profilePath = [Text.of "user", Text.of "profile", Text.of "posts"] := by
    decide +kernel
  obtain ⟨-, byLeading, -, named, gap⟩ := featureName_exact ascii
  have path : profileRoute.path.toList = profilePath := String.toList_ofList
  have titles : ∀ d ∈ manuals, IsAscii d.title.toList := by decide
  have known := gap profileRoute manuals path titles
  have missing := gap profileRoute (manuals.take 1) path fun d listed =>
    titles d (List.mem_of_mem_take listed)
  rw [words] at known missing named
  refine ⟨ascii, (byLeading _ (by decide +kernel)).symm, by rw [named]; decide, ?_, ?_⟩
  · rw [Ne, known]
    decide +kernel
  · rw [missing]
    decide +kernel

end CodeSurvey
