import CodeSurvey.Document
import CodeSurvey.Feature
import CodeSurvey.Proofs.Text
import Mathlib.Data.Finset.Basic
import Mathlib.Data.Finset.Dedup
import Mathlib.Data.Finset.Disjoint
import Mathlib.Data.Finset.Lattice.Lemmas

/-!
# Gaps in the documentation

A feature is a gap if no title has a word of its name. Lower case depends on what stands around a
character, but a separator of words has no case and is not passed over when the next character with
a case is looked for. So the two sides of a separator are put in lower case each for itself
(`Text.lowerAfter_append_separator`), and the words of a text are those of its two sides
(`tokenSet_append`). Hence a folder of titles is as good as one title that joins them, in any order
(`gaps_exact`).
-/

namespace CodeSurvey

variable {s : Char} {a b : Text}

/-! ## Separators -/

/-- What holds of white space, the underscore and the hyphen holds of all that separates words. -/
theorem ok_of_separatesWords {ok : Char → Bool} (others : ok '_' = true ∧ ok '-' = true)
    (blank : ∀ n ∈ blankCodes, ok (Char.ofNat n) = true) (h : separatesWords s = true) :
    ok s = true := by
  simp only [separatesWords, Bool.or_eq_true, beq_iff_eq] at h
  rcases h with (isBlank | rfl) | rfl
  · rw [← Bool.not_eq_false]
    intro no
    have apart := @isBlank_of_apart (fun c => !ok c) (fun n member => by simp [blank n member])
    have visible := @apart s (by simp [no])
    rw [isBlank] at visible
    cases visible
  · exact others.1
  · exact others.2

namespace Text

theorem lowerChar_of_separatesWords (h : separatesWords s = true) : lowerChar s = [s] := by
  have same := @ok_of_separatesWords s (fun c => lowerChar c == [c]) (by decide +kernel)
    (by decide +kernel) h
  simpa using same

/-- A separator has no case, and the search for a character with a case ends at it. -/
theorem caseless_of_separatesWords (h : separatesWords s = true) :
    cased.has s.toNat = false ∧ caseIgnorable.has s.toNat = false := by
  have none := @ok_of_separatesWords s (fun c => !cased.has c.toNat && !caseIgnorable.has c.toNat)
    (by decide +kernel) (by decide +kernel) h
  simpa using none

/-! ## Lower case -/

/-- The lower case of a character between two texts, the nearest character of each first. -/
def lowerBetween (before : Text) (c : Char) (rest : Text) : Text :=
  if c == 'Σ' then [if meetsCased before && !meetsCased rest then 'ς' else 'σ'] else lowerChar c

theorem lowerAfter_cons (before : Text) (c : Char) (rest : Text) :
    lowerAfter before (c :: rest) =
      lowerBetween before c rest ++ lowerAfter (c :: before) rest := by
  have go (text before done : Text) :
      lowerAfter.go text before done = done.reverse ++ lowerAfter.go text before [] := by
    induction text generalizing before done with
    | nil => simp [lowerAfter.go]
    | cons c rest ih =>
      rw [lowerAfter.go, lowerAfter.go, ih, ih (c :: before) (_ ++ [])]
      simp
  rw [lowerAfter, lowerAfter.go, go]
  simp [lowerBetween, lowerAfter]

/-- Whether a character with a case is met is settled before a separator. -/
theorem meetsCased_append_separator (h : separatesWords s = true) (near far : Text) :
    meetsCased (near ++ s :: far) = meetsCased near := by
  obtain ⟨caseless, seen⟩ := caseless_of_separatesWords h
  rw [meetsCased, meetsCased, List.dropWhile_append]
  cases List.dropWhile (fun c => caseIgnorable.has c.toNat) near with
  | nil =>
    rw [if_pos List.isEmpty_nil, List.dropWhile_cons_of_neg (by simp [seen])]
    exact caseless
  | cons c rest => rfl

theorem lowerBetween_separator (h : separatesWords s = true) (before rest : Text) :
    lowerBetween before s rest = [s] := by
  have other : s ≠ 'Σ' := by
    rintro rfl
    exact absurd h (by decide +kernel)
  rw [lowerBetween, if_neg (by simpa using other), lowerChar_of_separatesWords h]

/-- What stands before a separator has no part in the lower case of what follows. -/
theorem lowerAfter_separator (h : separatesWords s = true) (near far text : Text) :
    lowerAfter (near ++ s :: far) text = lowerAfter near text := by
  induction text generalizing near with
  | nil => rfl
  | cons c rest ih =>
    rw [lowerAfter_cons, lowerAfter_cons, lowerBetween, lowerBetween,
      meetsCased_append_separator h, ← List.cons_append, ih]

/-- The two sides of a separator are put in lower case each for itself. -/
theorem lowerAfter_append_separator (h : separatesWords s = true) (before a b : Text) :
    lowerAfter before (a ++ s :: b) = lowerAfter before a ++ s :: b.lower := by
  induction a generalizing before with
  | nil =>
    rw [List.nil_append, lowerAfter_cons, lowerBetween_separator h, ← List.nil_append (s :: before),
      lowerAfter_separator h]
    rfl
  | cons c a ih =>
    rw [List.cons_append, lowerAfter_cons, lowerAfter_cons, ih, lowerBetween, lowerBetween,
      meetsCased_append_separator h, List.append_assoc]

theorem lower_append_separator (h : separatesWords s = true) (a b : Text) :
    (a ++ s :: b).lower = a.lower ++ s :: b.lower := lowerAfter_append_separator h [] a b

end Text

/-! ## Words -/

theorem wordsOf_nil : wordsOf [] = [] := rfl

/-- The words of a text are those of the two sides of a separator. -/
theorem wordsOf_append_separator (h : separatesWords s = true) (a b : Text) :
    wordsOf (a ++ s :: b) = wordsOf a ++ wordsOf b := by
  simp only [wordsOf, Text.splitOn_eq_splitOnP]
  rw [List.splitOnP_append_cons _ _ h, List.filter_append]

/-- The words of a text in lower case, as a set. -/
def tokenSet (text : Text) : Finset Text := (tokens text).toFinset

theorem mem_tokenSet {word text : Text} : word ∈ tokenSet text ↔ word ∈ wordsOf text.lower := by
  rw [tokenSet, List.mem_toFinset, tokens, List.mem_eraseDups]

theorem tokenSet_append (h : separatesWords s = true) (a b : Text) :
    tokenSet (a ++ s :: b) = tokenSet a ∪ tokenSet b := by
  ext word
  rw [Finset.mem_union, mem_tokenSet, mem_tokenSet, mem_tokenSet, Text.lower_append_separator h,
    wordsOf_append_separator h, List.mem_append]

theorem mem_tokenSet_joinWith {word : Text} (h : separatesWords s = true) (texts : List Text) :
    word ∈ tokenSet (Text.joinWith [s] texts) ↔ ∃ text ∈ texts, word ∈ tokenSet text := by
  have apart (a b : Text) :
      wordsOf (a ++ s :: b).lower = wordsOf a.lower ++ wordsOf b.lower := by
    rw [Text.lower_append_separator h, wordsOf_append_separator h]
  have pieces := Text.flatMap_joinWith (fun text => wordsOf text.lower) rfl apart texts
  simp only [mem_tokenSet, pieces, List.mem_flatMap]

/-! ## Gaps -/

/-- The features that are gaps in the documents. -/
def gapsIn (features : List Feature) (documents : List Document) : List Gap :=
  gaps features (documents.map (·.title))

/-- Whether no title has a word of the name of a feature. -/
def Feature.IsMissing (f : Feature) (documents : List Document) : Prop :=
  ∀ document ∈ documents, Disjoint (tokenSet f.name.toList) (tokenSet document.title.toList)

instance (f : Feature) (documents : List Document) : Decidable (f.IsMissing documents) :=
  inferInstanceAs (Decidable (∀ document ∈ documents, Disjoint _ _))

theorem Feature.isMissing_iff {f : Feature} {documents : List Document} :
    f.IsMissing documents ↔ ∀ word ∈ tokenSet f.name.toList, ∀ document ∈ documents,
      word ∉ tokenSet document.title.toList := by
  simp only [IsMissing, Finset.disjoint_left]
  exact ⟨fun h word named document listed => h document listed named,
    fun h document listed word named => h word named document listed⟩

/-- A feature that is missing in some documents is missing in fewer. -/
theorem Feature.IsMissing.mono {f : Feature} {documents more : List Document}
    (h : f.IsMissing more) (fewer : documents ⊆ more) : f.IsMissing documents :=
  fun document listed => h document (fewer listed)

theorem gapsIn_eq (features : List Feature) (documents : List Document) :
    gapsIn features documents =
      (features.filter fun f => decide (f.IsMissing documents)).map Feature.gap := by
  rw [gapsIn, gaps]
  refine congrArg (List.map Feature.gap) (List.filter_congr fun f _ => ?_)
  rw [Bool.eq_iff_iff, decide_eq_true_iff, Feature.isMissing_iff]
  simp [tokenSet]

theorem gapsIn_congr (features : List Feature) {documents documents' : List Document}
    (same : ∀ f : Feature, f.IsMissing documents' ↔ f.IsMissing documents) :
    gapsIn features documents' = gapsIn features documents := by
  rw [gapsIn_eq, gapsIn_eq]
  simp only [same]

/-- One title that joins others has the words of all of them. -/
theorem isMissing_joined (h : separatesWords s = true) {documents : List Document}
    {whole : Document}
    (joined : whole.title.toList = Text.joinWith [s] (documents.map (·.title.toList)))
    (f : Feature) : f.IsMissing [whole] ↔ f.IsMissing documents := by
  simp only [Feature.isMissing_iff, List.forall_mem_singleton, joined, mem_tokenSet_joinWith h,
    not_exists, not_and, List.forall_mem_map]

/-- The gaps are the features of whose words none is in any title, in their order and each as often
as it is given. The order of the documents does not matter, nor whether their titles are joined by
a separator, and more documents leave fewer gaps. For the words of a text are those of the two
sides of any separator. -/
theorem gaps_exact (features : List Feature) (documents : List Document) :
    gapsIn features documents =
        (features.filter fun f => decide (f.IsMissing documents)).map Feature.gap ∧
      (∀ documents', documents.Perm documents' →
        gapsIn features documents' = gapsIn features documents) ∧
      (∀ s, separatesWords s = true → ∀ whole : Document,
        whole.title.toList = Text.joinWith [s] (documents.map (·.title.toList)) →
        gapsIn features [whole] = gapsIn features documents) ∧
      (∀ more, documents ⊆ more → (gapsIn features more).Sublist (gapsIn features documents)) ∧
      ∀ s, separatesWords s = true → ∀ a b : Text,
        tokenSet (a ++ s :: b) = tokenSet a ∪ tokenSet b := by
  refine ⟨gapsIn_eq features documents, fun documents' same => ?_, fun s h whole joined => ?_,
    fun more fewer => ?_, fun s h a b => tokenSet_append h a b⟩
  · exact gapsIn_congr features fun f => ⟨(·.mono same.subset), (·.mono same.symm.subset)⟩
  · exact gapsIn_congr features (isMissing_joined h joined)
  · rw [gapsIn_eq, gapsIn_eq]
    refine (List.monotone_filter_right features fun f missing => ?_).map Feature.gap
    rw [decide_eq_true_iff] at missing ⊢
    exact missing.mono fewer

/-- Two guides, one with a capital sigma at the end of its title. -/
def guides : List Document :=
  [⟨"ΟΔΟΣ", "", "a.md"⟩, ⟨"User-Profile Guide", "", "b.md"⟩]

/-- The same in one. -/
def bothGuides : Document := ⟨"ΟΔΟΣ_User-Profile Guide", "", "ab.md"⟩

def guideFeatures : List Feature :=
  [⟨"Orders", "entity", none, none⟩, ⟨"οδος", "component", none, none⟩,
   ⟨"User", "controller", none, none⟩, ⟨"Orders", "entity", none, none⟩]

theorem guides_gaps : separatesWords '_' = true ∧
    gapsIn guideFeatures guides = [⟨"Orders", "entity"⟩, ⟨"Orders", "entity"⟩] ∧
    gapsIn guideFeatures [bothGuides] = gapsIn guideFeatures guides := by
  obtain ⟨-, -, joined, -⟩ := gaps_exact guideFeatures guides
  exact ⟨by decide, by decide +kernel, joined '_' (by decide) bothGuides (by decide +kernel)⟩

end CodeSurvey
