import CodeSurvey.Proofs.Offers
import CodeSurvey.Proofs.Text

/-!
# Searching a text from left to right

All readings of a pattern in a text are found one after another, each by a search from where the one
before has ended (`Pattern.findAll_eq`). So the readings, and a text in which they are replaced, are
told character by character: either a reading starts at a place, or the character there is passed
over (`Pattern.findAll_of_matchAt?`, `Pattern.findAll_of_none`, and for replacements
`Pattern.replaceFrom_of_matchAt?`, `Pattern.replaceFrom_of_none`). A text is passed over at once if
it does not have the character with which all readings start (`Pattern.OpensWith.findAll_append`),
or one that they have before the character that is next (`Pattern.Needs.findAll_append`).
-/

namespace CodeSurvey

namespace Place

theorem eq_between (p : Place) : p = between p.previous p.rest := by
  obtain ⟨previous, rest, size, rfl⟩ := p
  rfl

theorem size_le_of_rest {p q : Place} {t : Text} (rest : p.rest = t ++ q.rest) :
    q.size ≤ p.size := by
  rw [p.size_eq, q.size_eq, rest, List.length_append]
  omega

theorem size_of_next? {p q : Place} (next : p.next? = some q) : q.size < p.size := by
  unfold Place.next? at next
  split at next
  · cases next
  · next c rest same =>
    cases next
    have some : p.size = rest.length + 1 := by rw [p.size_eq, same, List.length_cons]
    show p.size - 1 < p.size
    omega

end Place

namespace Pattern

open Place

variable {x : Pattern} {p q : Place} {m : Match} {o stop : Char}

/-! ## All readings -/

/-- Where the search goes on after a reading. A reading of nothing is left by one character. -/
def resume? (m : Match) : Option Place :=
  if m.last.size < m.first.size then some m.last else m.last.next?

theorem size_resume? (found : x.find? p = some m) (next : resume? m = some q) :
    q.size < p.size := by
  obtain ⟨t, first⟩ := first_of_find? found
  have notBefore : m.last.size ≤ m.first.size := size_le_of_rest (matches_of_find? found).1
  have notBeyond : m.first.size ≤ p.size := size_le_of_rest first
  unfold resume? at next
  split at next
  · cases next
    omega
  · have shorter := size_of_next? next
    omega

theorem findAll_go_succ (x : Pattern) (n : Nat) (p : Place) (found : List Match) :
    findAll.go x (n + 1) p found = match x.find? p with
      | none => found.reverse
      | some m => match resume? m with
        | none => (m :: found).reverse
        | some q => findAll.go x n q (m :: found) := by
  rw [findAll.go]
  cases x.find? p with
  | none => rfl
  | some m =>
    simp only [resume?]
    split
    · rfl
    · cases m.last.next? <;> rfl

theorem findAll_go_zero (atEnd : p.size = 0) (found : List Match) :
    findAll.go x 0 p found = match x.find? p with
      | none => found.reverse
      | some m => (m :: found).reverse := by
  obtain ⟨previous, rest, size, rfl⟩ := p
  obtain rfl : rest = [] := List.length_eq_zero_iff.1 atEnd
  rw [findAll.go, show x.find? ⟨previous, [], _, rfl⟩ = x.matchAt? ⟨previous, [], _, rfl⟩ from rfl]
  cases x.matchAt? ⟨previous, [], _, rfl⟩ <;> rfl

/-- With as many steps left as there are characters, all is found that is there. -/
theorem findAll_go_eq {n : Nat} (enough : p.size ≤ n) (found : List Match) :
    findAll.go x n p found = found.reverse ++ x.findAll p := by
  induction size : p.size using Nat.strong_induction_on generalizing n p found with
  | h k ih =>
    subst size
    -- Whatever the number of steps, the readings after the first are those from where it ends.
    have step {n : Nat} (enough : p.size ≤ n) (found : List Match) :
        findAll.go x n p found = found.reverse ++ match x.find? p with
          | none => []
          | some m => m :: match resume? m with
            | none => []
            | some q => x.findAll q := by
      cases n with
      | zero =>
        have atEnd : p.size = 0 := Nat.le_zero.1 enough
        rw [findAll_go_zero atEnd]
        cases here : x.find? p with
        | none => exact (List.append_nil _).symm
        | some m =>
          cases next : resume? m with
          | none => simp [next]
          | some q =>
            have shorter := size_resume? here next
            omega
      | succ n =>
        rw [findAll_go_succ]
        cases here : x.find? p with
        | none => exact (List.append_nil _).symm
        | some m =>
          cases next : resume? m with
          | none => simp [next]
          | some q =>
            have shorter := size_resume? here next
            simp only [next]
            rw [ih q.size shorter (by omega) (m :: found) rfl]
            simp
    rw [step enough, findAll, step le_rfl]
    rfl

theorem findAll_eq (x : Pattern) (p : Place) : x.findAll p = match x.find? p with
    | none => []
    | some m => m :: match resume? m with
      | none => []
      | some q => x.findAll q := by
  have more : findAll.go x (p.size + 1) p [] = x.findAll p :=
    findAll_go_eq (Nat.le_succ _) []
  rw [← more, findAll_go_succ]
  cases here : x.find? p with
  | none => rfl
  | some m =>
    cases next : resume? m with
    | none => simp [next]
    | some q =>
      have shorter := size_resume? here next
      simp only [next]
      exact findAll_go_eq (by omega) [m]

/-- From a reading on, there are this one and those after it. -/
theorem findAll_of_matchAt? (here : x.matchAt? p = some m) (long : m.last.size < p.size) :
    x.findAll p = m :: x.findAll m.last := by
  have first : m.first = p := (matches_of_matchAt? here).2
  have next : resume? m = some m.last := if_pos (by rw [first]; exact long)
  rw [findAll_eq, find?_of_matchAt? here]
  simp only [next]

/-- Where no reading starts, a character is passed over. -/
theorem findAll_of_none {previous : Option Char} {c : Char} {rest : Text}
    (here : x.matchAt? (between previous (c :: rest)) = none) :
    x.findAll (between previous (c :: rest)) = x.findAll (between (some c) rest) := by
  rw [findAll_eq, findAll_eq x (between (some c) rest), find?_of_none here]

/-- Characters at which no reading starts are passed over. -/
theorem find?_append_of_none {s rest : Text} {previous : Option Char}
    (none : ∀ u c v, s = u ++ c :: v →
      x.matchAt? (between (lastOf previous u) (c :: (v ++ rest))) = none) :
    x.find? (between previous (s ++ rest)) = x.find? (between (lastOf previous s) rest) := by
  induction s generalizing previous with
  | nil => rfl
  | cons c s ih =>
    have here : x.matchAt? (between previous (c :: (s ++ rest))) = Option.none := none [] c s rfl
    rw [List.cons_append, find?_of_none here, lastOf_cons]
    refine ih fun u c' v split => ?_
    have later := none (c :: u) c' v (by rw [split, List.cons_append])
    rwa [lastOf_cons] at later

theorem findAll_append_of_none {s rest : Text} {previous : Option Char}
    (none : ∀ u c v, s = u ++ c :: v →
      x.matchAt? (between (lastOf previous u) (c :: (v ++ rest))) = none) :
    x.findAll (between previous (s ++ rest)) = x.findAll (between (lastOf previous s) rest) := by
  rw [findAll_eq, find?_append_of_none none, ← findAll_eq]

theorem findAll_nil {previous : Option Char} (here : x.matchAt? (between previous []) = none) :
    x.findAll (between previous []) = [] := by
  have nowhere : x.find? (between previous []) = none := here
  rw [findAll_eq, nowhere]

theorem suffix_of_resume? (next : resume? m = some q) : q.rest <:+ m.last.rest := by
  unfold resume? at next
  split at next
  · cases next
    exact List.suffix_rfl
  · unfold Place.next? at next
    split at next
    · cases next
    · next c rest same =>
      cases next
      exact ⟨[c], same.symm⟩

/-- Of two readings the second starts where the first has ended, or after it. -/
theorem pairwise_findAll (x : Pattern) (p : Place) :
    (x.findAll p).Pairwise fun m m' => m'.first.rest <:+ m.last.rest := by
  induction size : p.size using Nat.strong_induction_on generalizing p with
  | h n ih =>
    rw [findAll_eq]
    cases found : x.find? p with
    | none => exact .nil
    | some m =>
      simp only
      split
      · exact List.pairwise_singleton _ m
      · next q next =>
        refine List.pairwise_cons.2 ⟨fun m' later => ?_, ih q.size ?_ q rfl⟩
        · obtain ⟨t, below⟩ := first_of_mem_findAll later
          have after : m'.first.rest <:+ q.rest := ⟨t, below.symm⟩
          exact after.trans (suffix_of_resume? next)
        · rw [← size]
          exact size_resume? found next

/-! ## Readings that need a character -/

/-- Whether nothing is read except from this character on. -/
def OpensWith (x : Pattern) (o : Char) : Prop :=
  ∀ ⦃p : Place⦄ ⦃g : Groups⦄, p.rest.head? ≠ some o → x.Refuses p g

theorem opensWith_lit (o : Char) (word : Text) : (lit (o :: word)).OpensWith o := by
  intro p g other
  refine refuses_of_reads fun t rec reads ⟨rest, inFront⟩ => ?_
  cases reads
  exact other (by rw [← inFront]; rfl)

theorem OpensWith.seq (h : x.OpensWith o) (y : Pattern) : (x ++ y).OpensWith o :=
  fun _ _ other => (h other).seq y

section
variable {s : Text} (opens : x.OpensWith o) (outside : o ∉ s) (previous : Option Char)
include opens outside

theorem OpensWith.findAll_append (rest : Text) :
    x.findAll (between previous (s ++ rest)) = x.findAll (between (lastOf previous s) rest) := by
  refine findAll_append_of_none fun u c v split => matchAt?_of_refuses (opens ?_)
  rintro ⟨⟩
  exact outside (by rw [split]; simp)

theorem OpensWith.findAll_eq_nil : x.findAll (between previous s) = [] := by
  have passed := opens.findAll_append outside previous []
  rw [List.append_nil] at passed
  rw [passed, findAll_nil (matchAt?_of_refuses (opens (Option.some_ne_none o).symm))]

end

/-- Whether whatever is read has the character `o`, and no `stop` up to it. -/
def Needs (x : Pattern) (o stop : Char) : Prop :=
  ∀ ⦃t : Text⦄ ⦃rec : List (Nat × Text)⦄, x.Reads t rec →
    ∃ front, front <+: t ∧ o ∈ front ∧ stop ∉ front

theorem Needs.seq (h : x.Needs o stop) (y : Pattern) : (x ++ y).Needs o stop := by
  intro t rec reads
  obtain ⟨s, _, first, within⟩ := reads.exists_prefix
  obtain ⟨front, starts, member, before⟩ := h first
  exact ⟨front, starts.trans within, member, before⟩

section
variable {s : Text} (needs : x.Needs o stop) (outside : o ∉ s) (previous : Option Char)
include needs outside

/-- The character would come before the one that it has to come before. -/
theorem Needs.refuses (g : Groups) (rest : Text) :
    x.Refuses (between previous (s ++ stop :: rest)) g := by
  refine refuses_of_reads fun t rec reads inFront => ?_
  obtain ⟨front, starts, member, before⟩ := needs reads
  have within : front <+: s := Text.prefix_of_not_mem before (starts.trans inFront)
  exact outside (within.subset member)

theorem Needs.findAll_append (rest : Text) :
    x.findAll (between previous (s ++ stop :: rest)) =
      x.findAll (between (lastOf previous s) (stop :: rest)) := by
  refine findAll_append_of_none fun u c v split => matchAt?_of_refuses ?_
  have behind : o ∉ c :: v := fun member => outside (split ▸ List.mem_append_right _ member)
  exact needs.refuses behind _ _ rest

end

/-! ## Replacements -/

variable {image : Match → Text}

/-- The text from a place on with the given readings in it replaced. -/
def replaced (image : Match → Text) : Place → List Match → Text
  | p, [] => p.rest
  | p, m :: later => p.upTo m.first ++ (image m ++ replaced image m.last later)

/-- The text from a place on with all readings of the pattern replaced. -/
def replaceFrom (x : Pattern) (image : Match → Text) (p : Place) : Text :=
  replaced image p (x.findAll p)

theorem substitute_eq (x : Pattern) (image : Match → Text) (text : Text) :
    x.substitute image text = x.replaceFrom image (start text) := by
  let next : Place × Text → Match → Place × Text := fun (p, done) m =>
    (m.last, (image m).reverse ++ ((p.upTo m.first).reverse ++ done))
  have go (found : List Match) (p : Place) (done : Text) :
      ((found.foldl next (p, done)).1.rest.reverse ++ (found.foldl next (p, done)).2).reverse =
        done.reverse ++ replaced image p found := by
    induction found generalizing p done with
    | nil => simp [replaced]
    | cons m later ih =>
      rw [List.foldl_cons, ih, replaced]
      simp
  exact go (x.all text) (start text) []

theorem replaceFrom_of_matchAt? (here : x.matchAt? p = some m) (long : m.last.size < p.size) :
    x.replaceFrom image p = image m ++ x.replaceFrom image m.last := by
  have first : m.first = p := (matches_of_matchAt? here).2
  have nothing : p.upTo p = [] := upTo_eq rfl
  rw [replaceFrom, findAll_of_matchAt? here long, replaced, first, nothing]
  rfl

theorem replaceFrom_of_none {previous : Option Char} {c : Char} {rest : Text}
    (here : x.matchAt? (between previous (c :: rest)) = none) :
    x.replaceFrom image (between previous (c :: rest)) =
      c :: x.replaceFrom image (between (some c) rest) := by
  rw [replaceFrom, replaceFrom, findAll_of_none here]
  cases found : x.findAll (between (some c) rest) with
  | nil => rfl
  | cons m later =>
    obtain ⟨t, below⟩ := first_of_mem_findAll (by rw [found]; exact .head _)
    have before : (between (some c) rest).upTo m.first = t := upTo_eq below
    have before' : (between previous (c :: rest)).upTo m.first = c :: t := by
      apply upTo_eq
      show c :: rest = _
      rw [show rest = t ++ m.first.rest from below]
      rfl
    rw [replaced, replaced, before, before']
    rfl

theorem replaceFrom_nil {previous : Option Char} (here : x.matchAt? (between previous []) = none) :
    x.replaceFrom image (between previous []) = [] := by
  rw [replaceFrom, findAll_nil here]
  rfl

end Pattern

end CodeSurvey
