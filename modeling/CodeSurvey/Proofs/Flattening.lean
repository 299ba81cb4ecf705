import CodeSurvey.Proofs.Brackets

/-!
# Flattened texts

`flattenNested` keeps what stands outside all brackets, and the outermost brackets with nothing left
between them. What it has flattened it leaves as it is, even where brackets have no partners
(`keptOf_keptOf`). A balanced text is made of groups, each a balanced text in brackets, with text
without brackets around them (`IsBalanced.exists_groups`); of such a text exactly the insides of the
groups are lost (`flattenNested_withGroups`).
-/

namespace CodeSurvey

variable {opener closer : Char}

/-! ## What is kept -/

/-- What is kept of a text that starts inside `depth` brackets. -/
def keptOf (opener closer : Char) (depth : Nat) (text : Text) : Text :=
  flattenNested.go opener closer text depth []

theorem flattenNested_eq_keptOf (body : Text) :
    flattenNested opener closer body = keptOf opener closer 0 body := rfl

theorem flattenNested_go_eq (text kept : Text) (depth : Nat) :
    flattenNested.go opener closer text depth kept =
      kept.reverse ++ keptOf opener closer depth text := by
  unfold keptOf
  induction text generalizing depth kept with
  | nil => simp [flattenNested.go]
  | cons c rest ih =>
    have more (depth : Nat) : flattenNested.go opener closer rest depth (c :: kept) =
        kept.reverse ++ flattenNested.go opener closer rest depth [c] := by
      rw [ih (c :: kept), ih [c]]
      simp
    cases depth with
    | zero =>
      simp only [flattenNested.go]
      split <;> exact more _
    | succ depth =>
      simp only [flattenNested.go]
      split
      · exact ih _ _
      · split
        · split
          · exact more _
          · exact ih _ _
        · exact ih _ _

section
variable {c : Char} {depth : Nat} {rest : Text}

@[simp] theorem keptOf_nil : keptOf opener closer depth [] = [] := rfl

theorem keptOf_opener_outside :
    keptOf opener closer 0 (opener :: rest) = opener :: keptOf opener closer 1 rest := by
  simp [keptOf, flattenNested.go, flattenNested_go_eq rest [opener]]

theorem keptOf_opener_inside : keptOf opener closer (depth + 1) (opener :: rest) =
    keptOf opener closer (depth + 2) rest := by
  simp [keptOf, flattenNested.go]

theorem keptOf_outside (notOpener : c ≠ opener) :
    keptOf opener closer 0 (c :: rest) = c :: keptOf opener closer 0 rest := by
  simp [keptOf, flattenNested.go, notOpener, flattenNested_go_eq rest [c]]

theorem keptOf_closer_last (differ : opener ≠ closer) :
    keptOf opener closer 1 (closer :: rest) = closer :: keptOf opener closer 0 rest := by
  simp [keptOf, flattenNested.go, differ.symm, flattenNested_go_eq rest [closer]]

theorem keptOf_closer_inside (differ : opener ≠ closer) :
    keptOf opener closer (depth + 2) (closer :: rest) = keptOf opener closer (depth + 1) rest := by
  simp [keptOf, flattenNested.go, differ.symm]

theorem keptOf_inside (notOpener : c ≠ opener) (notCloser : c ≠ closer) :
    keptOf opener closer (depth + 1) (c :: rest) = keptOf opener closer (depth + 1) rest := by
  simp [keptOf, flattenNested.go, notOpener, notCloser]

end

/-- What is kept of a text that starts inside brackets starts inside one of them: at the closer of
the outermost. -/
theorem keptOf_keptOf (differ : opener ≠ closer) (depth : Nat) (text : Text) :
    keptOf opener closer (min depth 1) (keptOf opener closer depth text) =
      keptOf opener closer depth text := by
  induction text generalizing depth with
  | nil => rfl
  | cons c rest ih =>
    by_cases isOpener : c = opener
    · subst isOpener
      cases depth with
      | zero =>
        have inside := ih 1
        rw [keptOf_opener_outside, Nat.zero_min, keptOf_opener_outside]
        exact congrArg _ inside
      | succ depth =>
        have deeper := ih (depth + 2)
        rw [Nat.min_eq_right (by omega)] at deeper ⊢
        rw [keptOf_opener_inside, deeper]
    · cases depth with
      | zero =>
        have outside := ih 0
        rw [Nat.zero_min] at outside ⊢
        rw [keptOf_outside isOpener, keptOf_outside isOpener, outside]
      | succ depth =>
        rw [Nat.min_eq_right (by omega)]
        by_cases isCloser : c = closer
        · subst isCloser
          cases depth with
          | zero =>
            have outside := ih 0
            rw [Nat.zero_min] at outside
            rw [keptOf_closer_last differ, keptOf_closer_last differ, outside]
          | succ depth =>
            have inside := ih (depth + 1)
            rw [Nat.min_eq_right (by omega)] at inside
            rw [keptOf_closer_inside differ, inside]
        · have inside := ih (depth + 1)
          rw [Nat.min_eq_right (by omega)] at inside
          rw [keptOf_inside isOpener isCloser, inside]

/-! ## Groups -/

/-- Whether a text holds no bracket. -/
def IsBare (opener closer : Char) (text : Text) : Prop := opener ∉ text ∧ closer ∉ text

instance : DecidablePred (IsBare opener closer) :=
  fun text => inferInstanceAs (Decidable (opener ∉ text ∧ closer ∉ text))

/-- A text with bracketed groups: what stands before the first group, then each group as what it
holds and what follows it. -/
def withGroups (opener closer : Char) (first : Text) (groups : List (Text × Text)) : Text :=
  first ++ groups.flatMap fun (inside, after) => opener :: inside ++ closer :: after

theorem withGroups_nil (first : Text) : withGroups opener closer first [] = first := by
  simp [withGroups]

theorem withGroups_cons (first inside after : Text) (groups : List (Text × Text)) :
    withGroups opener closer first ((inside, after) :: groups) =
      first ++ opener :: (inside ++ closer :: withGroups opener closer after groups) := by
  simp [withGroups]

/-- Text outside all brackets is kept. -/
theorem keptOf_append {first : Text} (bare : opener ∉ first) (rest : Text) :
    keptOf opener closer 0 (first ++ rest) = first ++ keptOf opener closer 0 rest := by
  induction first with
  | nil => rfl
  | cons c first ih =>
    have other : c ≠ opener := (List.ne_of_not_mem_cons bare).symm
    have later := ih (List.not_mem_of_not_mem_cons bare)
    rw [List.cons_append, keptOf_outside other, later, List.cons_append]

/-- Of what closes all brackets but the outermost nothing is kept. -/
theorem Closes.keptOf_append (differ : opener ≠ closer) {depth : Nat} {inside : Text}
    (closes : Closes opener closer depth inside) (rest : Text) :
    keptOf opener closer (depth + 1) (inside ++ closer :: rest) =
      closer :: keptOf opener closer 0 rest := by
  induction inside generalizing depth with
  | nil =>
    obtain rfl := closes_nil_iff.1 closes
    exact keptOf_closer_last differ
  | cons c inside ih =>
    rw [List.cons_append]
    by_cases isOpener : c = opener
    · subst isOpener
      rw [keptOf_opener_inside]
      exact ih ((closes_opener_cons_iff differ).1 closes)
    · by_cases isCloser : c = closer
      · subst isCloser
        cases depth with
        | zero => exact absurd closes (not_closes_zero_closer_cons differ)
        | succ depth =>
          rw [keptOf_closer_inside differ]
          exact ih ((closes_closer_cons_iff differ).1 closes)
      · rw [keptOf_inside isOpener isCloser]
        exact ih ((closes_other_cons_iff isOpener isCloser).1 closes)

/-- Of a text with groups all is kept but their insides. -/
theorem flattenNested_withGroups (differ : opener ≠ closer) {first : Text}
    {groups : List (Text × Text)} (bare : IsBare opener closer first)
    (each : ∀ g ∈ groups, IsBalanced opener closer g.1 ∧ IsBare opener closer g.2) :
    flattenNested opener closer (withGroups opener closer first groups) =
      withGroups opener closer first (groups.map fun g => ([], g.2)) := by
  rw [flattenNested_eq_keptOf]
  induction groups generalizing first with
  | nil =>
    have whole : keptOf opener closer 0 (first ++ []) = first ++ keptOf opener closer 0 [] :=
      keptOf_append bare.1 []
    rw [List.append_nil, keptOf_nil, List.append_nil] at whole
    rw [List.map_nil, withGroups_nil, whole]
  | cons g groups ih =>
    obtain ⟨inside, after⟩ := g
    obtain ⟨⟨balanced, bareAfter⟩, later⟩ := List.forall_mem_cons.1 each
    have closes := closes_zero_iff.2 balanced
    rw [List.map_cons, withGroups_cons, withGroups_cons, keptOf_append bare.1,
      keptOf_opener_outside, closes.keptOf_append differ, ih bareAfter later]
    rfl

/-! ## Balanced texts -/

/-- What closes one bracket more first closes the others, at the closer of the outermost. -/
theorem Closes.exists_split (differ : opener ≠ closer) {depth : Nat} {text : Text}
    (closes : Closes opener closer (depth + 1) text) :
    ∃ inside rest, text = inside ++ closer :: rest ∧ Closes opener closer depth inside ∧
      Closes opener closer 0 rest := by
  induction text generalizing depth with
  | nil => exact absurd (closes_nil_iff.1 closes) (Nat.succ_ne_zero depth)
  | cons c text ih =>
    by_cases isOpener : c = opener
    · subst isOpener
      obtain ⟨inside, rest, rfl, inner, outer⟩ := ih ((closes_opener_cons_iff differ).1 closes)
      exact ⟨c :: inside, rest, rfl, (closes_opener_cons_iff differ).2 inner, outer⟩
    · by_cases isCloser : c = closer
      · subst isCloser
        have later := (closes_closer_cons_iff differ).1 closes
        cases depth with
        | zero => exact ⟨[], text, rfl, closes_nil_iff.2 rfl, later⟩
        | succ depth =>
          obtain ⟨inside, rest, rfl, inner, outer⟩ := ih later
          exact ⟨c :: inside, rest, rfl, (closes_closer_cons_iff differ).2 inner, outer⟩
      · have other {depth : Nat} {t : Text} :=
          @closes_other_cons_iff opener closer c isOpener isCloser depth t
        obtain ⟨inside, rest, rfl, inner, outer⟩ := ih (other.1 closes)
        exact ⟨c :: inside, rest, rfl, other.2 inner, outer⟩

/-- A balanced text is made of groups. The induction is on the length, as a group takes a piece of
any length off the front. -/
theorem IsBalanced.exists_groups (differ : opener ≠ closer) {text : Text}
    (balanced : IsBalanced opener closer text) :
    ∃ first groups, text = withGroups opener closer first groups ∧ IsBare opener closer first ∧
      ∀ g ∈ groups, IsBalanced opener closer g.1 ∧ IsBare opener closer g.2 := by
  have closes := closes_zero_iff.2 balanced
  clear balanced
  induction n : text.length using Nat.strong_induction_on generalizing text with
  | h n ih =>
    cases text with
    | nil =>
      exact ⟨[], [], rfl, ⟨List.not_mem_nil, List.not_mem_nil⟩, List.forall_mem_nil _⟩
    | cons c text =>
      rw [List.length_cons] at n
      by_cases isOpener : c = opener
      · subst isOpener
        obtain ⟨inside, rest, rfl, inner, outer⟩ :=
          ((closes_opener_cons_iff differ).1 closes).exists_split differ
        rw [List.length_append, List.length_cons] at n
        obtain ⟨first, groups, rfl, bare, each⟩ := ih rest.length (by omega) outer rfl
        refine ⟨[], (inside, first) :: groups, ?_, ⟨List.not_mem_nil, List.not_mem_nil⟩,
          List.forall_mem_cons.2 ⟨⟨closes_zero_iff.1 inner, bare⟩, each⟩⟩
        rw [withGroups_cons, List.nil_append]
      · have notCloser : c ≠ closer := by
          rintro rfl
          exact not_closes_zero_closer_cons differ closes
        have later := (closes_other_cons_iff isOpener notCloser).1 closes
        obtain ⟨first, groups, rfl, bare, each⟩ := ih text.length (by omega) later rfl
        refine ⟨c :: first, groups, rfl, ⟨?_, ?_⟩, each⟩
        · exact List.not_mem_cons_of_ne_of_not_mem (Ne.symm isOpener) bare.1
        · exact List.not_mem_cons_of_ne_of_not_mem notCloser.symm bare.2

theorem Closes.append (differ : opener ≠ closer) {k : Nat} {s t : Text}
    (closes : Closes opener closer k s) (depth : Nat) :
    Closes opener closer (k + depth) (s ++ t) ↔ Closes opener closer depth t := by
  induction s generalizing k with
  | nil =>
    obtain rfl := closes_nil_iff.1 closes
    rw [Nat.zero_add, List.nil_append]
  | cons c s ih =>
    rw [List.cons_append]
    by_cases isOpener : c = opener
    · subst isOpener
      have inner := ih ((closes_opener_cons_iff differ).1 closes)
      rw [closes_opener_cons_iff differ, ← inner, Nat.add_right_comm]
    · by_cases isCloser : c = closer
      · subst isCloser
        cases k with
        | zero => exact absurd closes (not_closes_zero_closer_cons differ)
        | succ k =>
          have inner := ih ((closes_closer_cons_iff differ).1 closes)
          rw [Nat.add_right_comm, closes_closer_cons_iff differ, inner]
      · rw [closes_other_cons_iff isOpener isCloser]
        exact ih ((closes_other_cons_iff isOpener isCloser).1 closes)

theorem isBalanced_of_isBare {text : Text} (bare : IsBare opener closer text) :
    IsBalanced opener closer text := by
  have none {t : Text} (inside : ∀ c ∈ t, c ∈ text) : t.count closer = 0 ∧ t.count opener = 0 :=
    ⟨List.count_eq_zero.2 fun here => bare.2 (inside _ here),
      List.count_eq_zero.2 fun here => bare.1 (inside _ here)⟩
  have whole := none fun c => id
  refine ⟨by omega, fun start isPrefix => ?_⟩
  have part := none fun c => isPrefix.mem
  omega

theorem isBalanced_append (differ : opener ≠ closer) {s t : Text}
    (first : IsBalanced opener closer s) (second : IsBalanced opener closer t) :
    IsBalanced opener closer (s ++ t) :=
  closes_zero_iff.1 (((closes_zero_iff.2 first).append differ 0).2 (closes_zero_iff.2 second))

/-- Groups around balanced texts make up a balanced text. -/
theorem isBalanced_withGroups (differ : opener ≠ closer) {first : Text}
    {groups : List (Text × Text)} (bare : IsBare opener closer first)
    (each : ∀ g ∈ groups, IsBalanced opener closer g.1 ∧ IsBare opener closer g.2) :
    IsBalanced opener closer (withGroups opener closer first groups) := by
  induction groups generalizing first with
  | nil =>
    rw [withGroups_nil]
    exact isBalanced_of_isBare bare
  | cons g groups ih =>
    obtain ⟨inside, after⟩ := g
    obtain ⟨⟨balanced, bareAfter⟩, later⟩ := List.forall_mem_cons.1 each
    have closesFirst := closes_zero_iff.2 (isBalanced_of_isBare bare)
    have closesInside := closes_zero_iff.2 balanced
    rw [withGroups_cons, ← closes_zero_iff]
    refine (closesFirst.append differ 0).2 ((closes_opener_cons_iff differ).2 ?_)
    refine (closesInside.append differ 1).2 ((closes_closer_cons_iff differ).2 ?_)
    exact closes_zero_iff.2 (ih bareAfter later)

/-! ## Spans -/

theorem isBalanced_of_balancedSpan (differ : opener ≠ closer) {text body : Text} {i : Nat}
    (found : balancedSpan text i opener closer = some body) : IsBalanced opener closer body := by
  rw [balancedSpan] at found
  split at found
  · cases found
  · split at found
    · exact ((bodyAfter?_eq_some_iff differ).1 found).1
    · cases found

/-- A search that goes on at the start of the text does not come back to where it began: it would
have met the closer the first time. -/
theorem length_le_of_wrapped {before rest around after : Text} (differ : opener ≠ closer)
    (balanced : IsBalanced opener closer around)
    (whole : rest ++ (before ++ opener :: rest) = around ++ closer :: after) :
    around.length ≤ rest.length + before.length := by
  by_contra far
  have inFront : rest ++ before ++ [opener] <+: around ++ closer :: after :=
    ⟨rest, by rw [← whole]; simp⟩
  have start : rest ++ before ++ [opener] <+: around :=
    List.prefix_of_prefix_length_le inFront (List.prefix_append _ _) (by simp; omega)
  obtain ⟨again, rfl⟩ := start
  have repeated : rest = again ++ closer :: after := by simpa using whole
  have upToCloser := balanced.2 (again ++ [closer]) (by rw [repeated]; simp)
  have upToOpener := balanced.2 (rest ++ before) (by simp)
  have even := balanced.1
  simp only [List.count_append, List.count_cons_self, List.count_cons_of_ne differ,
    List.count_cons_of_ne differ.symm, List.count_nil] at *
  omega

/-- A span that is looked for from the end is balanced too. One whose closer is only found after
the search has gone on at the start is empty, unless the opener is the last character. -/
theorem isBalanced_of_balancedSpanFromEnd (differ : opener ≠ closer) {text body : Text} {k : Nat}
    (positive : 0 < k) (inside : k ≤ text.length)
    (found : balancedSpanFromEnd text k opener closer = some body) :
    IsBalanced opener closer body := by
  have nothing : IsBalanced opener closer [] := closes_zero_iff.1 (closes_nil_iff.2 rfl)
  simp only [balancedSpanFromEnd] at found
  split at found
  · cases found
  · next c rest front =>
    split at found
    · next isOpener =>
      subst isOpener
      have long : rest.length + 1 = k := by
        have := congrArg List.length front
        rw [List.length_drop, List.length_cons] at this
        omega
      split at found
      · next direct =>
        cases found
        exact ((bodyAfter?_eq_some_iff differ).1 direct).1
      · obtain ⟨around, wrapped, rfl⟩ := Option.map_eq_some_iff.1 found
        obtain ⟨balanced, after, whole⟩ := (bodyAfter?_eq_some_iff differ).1 wrapped
        have parts : text.take (text.length - k) ++ c :: rest = text := by
          rw [← front, List.take_append_drop]
        have near := length_le_of_wrapped differ balanced (by rw [parts]; exact whole)
        rw [List.length_take] at near
        split
        · next last =>
          obtain rfl : rest = [] := List.length_eq_zero_iff.1 (by omega)
          rw [List.nil_append] at whole
          rwa [whole, List.length_nil, Nat.sub_zero, List.take_left', List.drop_zero]
          rfl
        · rwa [List.drop_eq_nil_of_le]
          rw [List.length_take]
          omega
    · cases found

/-! ## Flattening -/

/-- Flattening a text again changes nothing. Of a text with groups it leaves what is around them and
their brackets. And of the body of a span it leaves a balanced text in which every group is
empty. -/
theorem flattenNested_exact (differ : opener ≠ closer) :
    (∀ body, flattenNested opener closer (flattenNested opener closer body) =
      flattenNested opener closer body) ∧
    (∀ first groups, IsBare opener closer first →
      (∀ g ∈ groups, IsBalanced opener closer g.1 ∧ IsBare opener closer g.2) →
      flattenNested opener closer (withGroups opener closer first groups) =
        withGroups opener closer first (groups.map fun g => ([], g.2))) ∧
    ∀ text body,
      ((∃ i, balancedSpan text i opener closer = some body) ∨
        ∃ k, 0 < k ∧ k ≤ text.length ∧ balancedSpanFromEnd text k opener closer = some body) →
      IsBalanced opener closer (flattenNested opener closer body) ∧
      ∃ first afters, flattenNested opener closer body =
          withGroups opener closer first (afters.map fun after => ([], after)) ∧
        ∀ t ∈ first :: afters, IsBare opener closer t := by
  refine ⟨?_, ?_, ?_⟩
  · intro body
    exact keptOf_keptOf differ 0 body
  · intro first groups bare each
    exact flattenNested_withGroups differ bare each
  · intro text body found
    have balanced : IsBalanced opener closer body := by
      rcases found with ⟨i, found⟩ | ⟨k, positive, inside, found⟩
      · exact isBalanced_of_balancedSpan differ found
      · exact isBalanced_of_balancedSpanFromEnd differ positive inside found
    obtain ⟨first, groups, rfl, bare, each⟩ := balanced.exists_groups differ
    have flat := flattenNested_withGroups differ bare each
    have nothing : IsBalanced opener closer [] := closes_zero_iff.1 (closes_nil_iff.2 rfl)
    rw [flat]
    refine ⟨isBalanced_withGroups differ bare ?_, first, groups.map Prod.snd, ?_, ?_⟩
    · exact List.forall_mem_map.2 fun g member => ⟨nothing, (each g member).2⟩
    · rw [List.map_map]
      rfl
    · exact List.forall_mem_cons.2
        ⟨bare, List.forall_mem_map.2 fun g member => (each g member).2⟩

/-- A type within a type. -/
def innerType : Text := "type T = { a: { b: { c: D } }; e: F }".toList

theorem innerType_flattened :
    flattenNested '{' '}' (flattenNested '{' '}' innerType) = flattenNested '{' '}' innerType ∧
      flattenNested '{' '}' " a: { b: { c: D } }; e: F ".toList = " a: {}; e: F ".toList ∧
      IsBalanced '{' '}' (flattenNested '{' '}' " a: { b: { c: D } }; e: F ".toList) := by
  obtain ⟨again, groups, spans⟩ := @flattenNested_exact '{' '}' (by decide)
  have body : balancedSpan innerType 9 '{' '}' = some " a: { b: { c: D } }; e: F ".toList := by
    decide +kernel
  have flat := groups " a: ".toList [(" b: { c: D } ".toList, "; e: F ".toList)] (by decide)
    (List.forall_mem_singleton.2 ⟨by decide +kernel, by decide⟩)
  exact ⟨again _, flat, (spans _ _ (.inl ⟨9, body⟩)).1⟩

end CodeSurvey
