import CodeSurvey.Proofs.Replacement
import Mathlib.Data.List.Forall2

/-!
# Readings before a character

What a pattern reads up to a character that it cannot read does not depend on what follows the
character. So two texts that are alike up to it are read alike up to it: the runs stay `Abreast`
(`Pattern.run_abreast`). A pattern that ends with the character is found in both texts alike, as
long as it is found before the place from which the texts differ
(`Pattern.exists_findAll_abreast`).
-/

namespace CodeSurvey

variable {stop : Char} {s s' t u : Text}

/-! ## Places abreast -/

namespace Place

/-- Whether two places stand before the same text, the one with `s` after it and the other with
`s'`. -/
def Abreast (s s' t : Text) (p p' : Place) : Prop :=
  ∃ previous, p = between previous (t ++ s) ∧ p' = between previous (t ++ s')

/-- Whether two places are abreast before a character. -/
def AbreastOf (stop : Char) (s s' : Text) (p p' : Place) : Prop :=
  ∃ t, stop ∈ t ∧ Abreast s s' t p p'

variable {p p' q q' : Place}

theorem Abreast.upTo (first : Abreast s s' t p p') (last : Abreast s s' u q q') :
    p.upTo q = p'.upTo q' := by
  obtain ⟨previous, rfl, rfl⟩ := first
  obtain ⟨previous', rfl, rfl⟩ := last
  have far (r : Text) : (t ++ r).length - (u ++ r).length = t.length - u.length := by
    rw [List.length_append, List.length_append]
    omega
  show (t ++ s).take ((t ++ s).length - (u ++ s).length) =
    (t ++ s').take ((t ++ s').length - (u ++ s').length)
  rw [far, far, List.take_append_of_le_length (Nat.sub_le _ _),
    List.take_append_of_le_length (Nat.sub_le _ _)]

theorem Abreast.size_le_iff (first : Abreast s s' t p p') (last : Abreast s s' u q q') (n : Nat) :
    q.size + n ≤ p.size ↔ q'.size + n ≤ p'.size := by
  obtain ⟨previous, rfl, rfl⟩ := first
  obtain ⟨previous', rfl, rfl⟩ := last
  show (u ++ s).length + n ≤ (t ++ s).length ↔ (u ++ s').length + n ≤ (t ++ s').length
  simp only [List.length_append]
  omega

/-- What stops a class of characters is not passed over within the class. -/
theorem mem_of_inClass {ok : Char → Bool} {c : Char} (stops : ok stop = false) (has : stop ∈ c :: t)
    (inClass : ok c = true) : stop ∈ t := by
  rcases List.mem_cons.1 has with rfl | later
  · rw [stops] at inClass
    cases inClass
  · exact later

theorem reach_abreast {ok : Char → Bool} (stops : ok stop = false)
    (here : AbreastOf stop s s' p p') :
    List.Forall₂ (AbreastOf stop s s') (p.reach ok) (p'.reach ok) := by
  obtain ⟨t, has, previous, rfl, rfl⟩ := here
  have go (t : Text) (has : stop ∈ t) (previous : Option Char) (passed passed' : List Place)
      (alike : List.Forall₂ (AbreastOf stop s s') passed passed') :
      List.Forall₂ (AbreastOf stop s s')
        (reach.go ok (t ++ s) (between previous (t ++ s)) rfl passed)
        (reach.go ok (t ++ s') (between previous (t ++ s')) rfl passed') := by
    induction t generalizing previous passed passed' with
    | nil => cases has
    | cons c t ih =>
      have more : List.Forall₂ (AbreastOf stop s s') (between previous (c :: t ++ s) :: passed)
          (between previous (c :: t ++ s') :: passed') :=
        .cons ⟨c :: t, has, previous, rfl, rfl⟩ alike
      show List.Forall₂ _
        (if ok c = true then
          reach.go ok (t ++ s) (between (some c) (t ++ s)) rfl
            (between previous (c :: t ++ s) :: passed)
          else between previous (c :: t ++ s) :: passed)
        (if ok c = true then
          reach.go ok (t ++ s') (between (some c) (t ++ s')) rfl
            (between previous (c :: t ++ s') :: passed')
          else between previous (c :: t ++ s') :: passed')
      split
      · next inClass =>
        exact ih (mem_of_inClass stops has inClass) (some c) _ _ more
      · exact more
  exact go t has previous [] [] .nil

theorem after?_abreast {word : Text} (outside : stop ∉ word) (here : AbreastOf stop s s' p p') :
    Option.Rel (AbreastOf stop s s') (p.after? word) (p'.after? word) := by
  obtain ⟨t, has, previous, rfl, rfl⟩ := here
  induction word generalizing previous t with
  | nil => exact .some ⟨t, has, previous, rfl, rfl⟩
  | cons w word ih =>
    obtain ⟨other, outside⟩ := not_or.1 (mt List.mem_cons.2 outside)
    cases t with
    | nil => cases has
    | cons c t =>
      show Option.Rel _ (if c = w then (between (some c) (t ++ s)).after? word else none)
        (if c = w then (between (some c) (t ++ s')).after? word else none)
      split
      · next same =>
        have later : stop ∈ t :=
          (List.mem_cons.1 has).resolve_left fun isStop => other (isStop.trans same)
        exact ih outside t later (some c)
      · exact .none

end Place

namespace Pattern

open Place

/-- Whether a pattern repeats classes of characters only, and neither they nor its words nor its
tests tell places that are abreast before a character apart. -/
def Avoids (stop : Char) : Pattern → Prop
  | empty => True
  | lit word => stop ∉ word
  | one ok => ok stop = false
  | many ok _ _ => ok stop = false
  | seq x y => x.Avoids stop ∧ y.Avoids stop
  | alt x y => x.Avoids stop ∧ y.Avoids stop
  | star _ => False
  | group _ x => x.Avoids stop
  | same _ => False
  | test holds => ∀ s s' p p', AbreastOf stop s s' p p' → holds p = holds p'

/-- Whether groups are recorded at places that are abreast. -/
def GroupsAbreast (s s' : Text) (g g' : Groups) : Prop :=
  List.Forall₂ (fun e e' => e.1 = e'.1 ∧ ∃ t u, Abreast s s' t e.2.first e'.2.first ∧
    Abreast s s' u e.2.last e'.2.last) g g'

theorem GroupsAbreast.lookup {g g' : Groups} (h : GroupsAbreast s s' g g') (n : Nat) :
    (g.lookup n).map Span.text = (g'.lookup n).map Span.text := by
  induction h with
  | nil => rfl
  | @cons e e' g g' alike later ih =>
    obtain ⟨k, span⟩ := e
    obtain ⟨k', span'⟩ := e'
    obtain ⟨rfl : k = k', t, u, first, last⟩ := alike
    have same : span.text = span'.text := first.upTo last
    rw [List.lookup_cons, List.lookup_cons]
    split
    · rw [Option.map_some, Option.map_some, same]
    · exact ih

section
variable {α α' : Type} {R : α → α' → Prop} {p p' : Place} {g g' : Groups}
  {accept : Accept α} {accept' : Accept α'}

theorem runLazy_abreast {ok : Char → Bool} (stops : ok stop = false) {f : Place → Option α}
    {f' : Place → Option α'}
    (accepts : ∀ q q', AbreastOf stop s s' q q' → Option.Rel R (f q) (f' q'))
    {t : Text} (has : stop ∈ t) (previous : Option Char) (least : Nat) :
    Option.Rel R (runLazy ok f (t ++ s) (between previous (t ++ s)) rfl least)
      (runLazy ok f' (t ++ s') (between previous (t ++ s')) rfl least) := by
  induction t generalizing previous least with
  | nil => cases has
  | cons c t ih =>
    have later {least : Nat} : Option.Rel R
        (if ok c = true then runLazy ok f (t ++ s) (between (some c) (t ++ s)) rfl least else none)
        (if ok c = true then runLazy ok f' (t ++ s') (between (some c) (t ++ s')) rfl least
          else none) := by
      split
      · next inClass =>
        exact ih (mem_of_inClass stops has inClass) (some c) least
      · exact .none
    cases least with
    | succ least => exact later
    | zero =>
      have now : Option.Rel R (f (between previous (c :: (t ++ s))))
          (f' (between previous (c :: (t ++ s')))) :=
        accepts _ _ ⟨c :: t, has, previous, rfl, rfl⟩
      have first : runLazy ok f (c :: t ++ s) (between previous (c :: t ++ s)) rfl 0 = _ :=
        runLazy_between f previous c (t ++ s)
      have first' : runLazy ok f' (c :: t ++ s') (between previous (c :: t ++ s')) rfl 0 = _ :=
        runLazy_between f' previous c (t ++ s')
      rw [first, first']
      revert now
      generalize f (between previous (c :: (t ++ s))) = here
      generalize f' (between previous (c :: (t ++ s'))) = here'
      rintro (related | _)
      · exact .some related
      · exact later

theorem findSome?_abreast {f : Place → Option α} {f' : Place → Option α'}
    (accepts : ∀ q q', AbreastOf stop s s' q q' → Option.Rel R (f q) (f' q'))
    (here : AbreastOf stop s s' p p') (least : Nat) {l l' : List Place}
    (alike : List.Forall₂ (AbreastOf stop s s') l l') :
    Option.Rel R ((l.takeWhile fun q => q.size + least ≤ p.size).findSome? f)
      ((l'.takeWhile fun q => q.size + least ≤ p'.size).findSome? f') := by
  obtain ⟨t, -, here⟩ := here
  induction alike with
  | nil => exact .none
  | @cons q q' l l' first later ih =>
    obtain ⟨u, -, there⟩ := id first
    by_cases far : q.size + least ≤ p.size
    · have far' := (here.size_le_iff there least).1 far
      have now := accepts q q' first
      rw [List.takeWhile_cons_of_pos (by simpa using far),
        List.takeWhile_cons_of_pos (by simpa using far'), List.findSome?_cons, List.findSome?_cons]
      revert now
      generalize f q = here
      generalize f' q' = here'
      rintro (related | _)
      · exact .some related
      · exact ih
    · have far' := mt (here.size_le_iff there least).2 far
      rw [List.takeWhile_cons_of_neg (by simpa using far),
        List.takeWhile_cons_of_neg (by simpa using far')]
      exact .none

/-- The runs of a pattern from two places that are abreast stay abreast up to a character that it
avoids. -/
theorem run_abreast {x : Pattern} (avoids : x.Avoids stop) (here : AbreastOf stop s s' p p')
    (groups : GroupsAbreast s s' g g')
    (accepts : ∀ q q' h h', AbreastOf stop s s' q q' → GroupsAbreast s s' h h' →
      Option.Rel R (accept q h) (accept' q' h')) :
    Option.Rel R (x.run p g accept) (x.run p' g' accept') := by
  induction x generalizing p p' g g' accept accept' with
  | empty => exact accepts p p' g g' here groups
  | lit word =>
    have after := after?_abreast avoids here
    rw [run, run]
    revert after
    generalize p.after? word = q
    generalize p'.after? word = q'
    rintro (alike | _)
    · exact accepts _ _ g g' alike groups
    · exact .none
  | one ok =>
    obtain ⟨t, has, previous, rfl, rfl⟩ := here
    cases t with
    | nil => cases has
    | cons c t =>
      show Option.Rel R (if ok c = true then accept (between (some c) (t ++ s)) g else none)
        (if ok c = true then accept' (between (some c) (t ++ s')) g' else none)
      split
      · next inClass =>
        have later : stop ∈ t := mem_of_inClass avoids has inClass
        exact accepts _ _ g g' ⟨t, later, some c, rfl, rfl⟩ groups
      · exact .none
  | many ok least isLazy =>
    rw [run, run]
    split
    · obtain ⟨t, has, previous, rfl, rfl⟩ := here
      exact runLazy_abreast avoids (fun q q' alike => accepts q q' g g' alike groups) has previous
        least
    · exact findSome?_abreast (fun q q' alike => accepts q q' g g' alike groups) here least
        (reach_abreast avoids here)
  | seq x y ihx ihy =>
    exact ihx avoids.1 here groups fun q q' h h' alike groups =>
      ihy avoids.2 alike groups accepts
  | alt x y ihx ihy =>
    have first := ihx avoids.1 here groups accepts
    have second := ihy avoids.2 here groups accepts
    rw [run, run]
    revert first
    generalize x.run p g accept = a
    generalize x.run p' g' accept' = a'
    rintro (related | _)
    · exact .some related
    · exact second
  | star x ih => exact avoids.elim
  | group n x ih =>
    refine ih avoids here groups fun q q' h h' alike groups => accepts q q' _ _ alike ?_
    obtain ⟨t, -, first⟩ := here
    obtain ⟨u, -, last⟩ := id alike
    exact .cons ⟨rfl, t, u, first, last⟩ groups
  | same n => exact avoids.elim
  | test holds =>
    have same : holds p = holds p' := avoids s s' p p' here
    rw [run, run, same]
    split
    · exact accepts p p' g g' here groups
    · exact .none

end

/-! ## Matches abreast -/

/-- Whether two matches are abreast with `u` still to be read, and recorded the same. -/
structure Match.Abreast (s s' u : Text) (m m' : Match) : Prop where
  last : Place.Abreast s s' u m.last m'.last
  groups : ∀ n, m.group? n = m'.group? n

variable {x : Pattern} {previous : Option Char}

/-- A pattern that ends with a character is read alike before texts that are alike up to it. -/
theorem matchAt?_abreast (avoids : x.Avoids stop) (has : stop ∈ t) :
    Option.Rel (fun m m' => ∃ u, Match.Abreast s s' u m m')
      ((x ++ lit [stop]).matchAt? (between previous (t ++ s)))
      ((x ++ lit [stop]).matchAt? (between previous (t ++ s'))) := by
  let found (r : Text) (q : Place) (g : Groups) : Option Match :=
    (lit [stop]).run q g fun q g => some ⟨between previous (t ++ r), q, g⟩
  have run : Option.Rel (fun m m' => ∃ u, Match.Abreast s s' u m m')
      (x.run (between previous (t ++ s)) [] (found s))
      (x.run (between previous (t ++ s')) [] (found s')) := by
    refine run_abreast avoids ⟨t, has, previous, rfl, rfl⟩ .nil fun q q' g g' alike groups => ?_
    obtain ⟨u, hasStop, previous', rfl, rfl⟩ := alike
    cases u with
    | nil => cases hasStop
    | cons c u =>
      have atStop (r : Text) (g : Groups) : found r (between previous' (c :: u ++ r)) g =
          if c = stop then some ⟨between previous (t ++ r), between (some c) (u ++ r), g⟩
          else none := by
        by_cases same : c = stop
        · subst same
          rw [if_pos rfl]
          exact offers_lit previous' [c] (u ++ r) rfl
        · rw [if_neg same]
          exact refuses_lit same _ _ _ _
      rw [atStop, atStop]
      split
      · exact .some ⟨u, ⟨some c, rfl, rfl⟩, groups.lookup⟩
      · exact .none
  exact run

theorem exists_rest_of_matches {m : Match} (found : (x ++ lit [stop]).Matches m) :
    ∃ before, m.first.rest = before ++ stop :: m.last.rest := by
  obtain ⟨rest, reads⟩ := found
  obtain ⟨before, _, _, _, -, last, text, -⟩ := reads_seq_iff.1 reads
  cases last
  exact ⟨before, by rw [rest, text, ← List.append_cons]⟩

/-- What is found from a place on ends after the place. -/
theorem length_last_lt {m : Match} {p : Place} (member : m ∈ (x ++ lit [stop]).findAll p) :
    m.last.rest.length < p.rest.length := by
  obtain ⟨t, below⟩ := first_of_mem_findAll member
  obtain ⟨before, rest⟩ := exists_rest_of_matches (matches_of_mem_findAll member)
  rw [below, rest]
  simp only [List.length_append, List.length_cons]
  omega

/-- Either the next character of both texts is passed over, or something is read from both. -/
theorem findAll_step_abreast (avoids : x.Avoids stop) (previous : Option Char) (s s' : Text)
    {t : Text} (has : stop ∈ t) :
    (∃ c rest, t = c :: rest ∧ ∀ r ∈ [s, s'],
      (x ++ lit [stop]).findAll (between previous (t ++ r)) =
        (x ++ lit [stop]).findAll (between (some c) (rest ++ r))) ∨
    ∃ before u m m', t = before ++ stop :: u ∧ Match.Abreast s s' u m m' ∧
      (x ++ lit [stop]).findAll (between previous (t ++ s)) =
        m :: (x ++ lit [stop]).findAll m.last ∧
      (x ++ lit [stop]).findAll (between previous (t ++ s')) =
        m' :: (x ++ lit [stop]).findAll m'.last := by
  have alike := @matchAt?_abreast stop s s' t x previous avoids has
  generalize here : (x ++ lit [stop]).matchAt? (between previous (t ++ s)) = found at alike
  generalize here' : (x ++ lit [stop]).matchAt? (between previous (t ++ s')) = found' at alike
  cases alike with
  | none =>
    obtain ⟨c, rest, rfl⟩ := List.exists_cons_of_ne_nil (List.ne_nil_of_mem has)
    refine .inl ⟨c, rest, rfl, ?_⟩
    simp only [List.forall_mem_cons]
    exact ⟨findAll_of_none here, findAll_of_none here', List.forall_mem_nil _⟩
  | @some m m' related =>
    obtain ⟨u, alike⟩ := related
    obtain ⟨previous', last, last'⟩ := id alike.last
    obtain ⟨found, first⟩ := matches_of_matchAt? here
    obtain ⟨before, whole⟩ := exists_rest_of_matches found
    have cut : t = before ++ stop :: u := by
      rw [first, last] at whole
      have same : t ++ s = before ++ stop :: u ++ s := by
        rw [List.append_assoc]
        exact whole
      exact List.append_cancel_right same
    have shorter (r : Text) :
        (between previous' (u ++ r)).size < (between previous (t ++ r)).size := by
      show (u ++ r).length < (t ++ r).length
      rw [cut]
      simp only [List.length_append, List.length_cons]
      omega
    exact .inr ⟨before, u, m, m', cut, alike,
      findAll_of_matchAt? here (by rw [last]; exact shorter s),
      findAll_of_matchAt? here' (by rw [last']; exact shorter s')⟩

/-- What ends at a place is not found after it. -/
theorem findAll_ne {earlier later : List Match} {m : Match} {p : Place}
    (here : m.last.rest = p.rest) : (x ++ lit [stop]).findAll p ≠ earlier ++ m :: later := by
  intro found
  have shorter := length_last_lt (x := x) (p := p) (m := m) (by rw [found]; simp)
  rw [here] at shorter
  exact Nat.lt_irrefl _ shorter

/-- A pattern that ends with a character is found alike in texts that are alike up to one such
character, as far as it is found before. -/
theorem exists_findAll_abreast (avoids : x.Avoids stop) {front : Text} {earlier later : List Match}
    {m : Match} (found : (x ++ lit [stop]).findAll (between previous (front ++ [stop] ++ s)) =
      earlier ++ m :: later) (here : m.last.rest = s) :
    ∃ earlier' m' later', (x ++ lit [stop]).findAll (between previous (front ++ [stop] ++ s')) =
        earlier' ++ m' :: later' ∧ m'.last.rest = s' ∧ (∀ n, m.group? n = m'.group? n) ∧
      List.Forall₂ (fun e e' => ∀ n, e.group? n = e'.group? n) earlier earlier' := by
  induction long : front.length using Nat.strong_induction_on
    generalizing previous front earlier with
  | h n ih =>
    subst long
    have has : stop ∈ front ++ [stop] := List.mem_append_right _ (.head _)
    rcases findAll_step_abreast avoids previous s s' has with
      ⟨c, rest, cut, passed⟩ | ⟨before, u, first, first', cut, alike, read, read'⟩
    · simp only [List.forall_mem_cons] at passed
      obtain ⟨passed, passed', -⟩ := passed
      rw [passed] at found
      rw [passed']
      cases front with
      | nil =>
        obtain ⟨rfl, rfl⟩ := List.cons.inj cut
        exact absurd found (findAll_ne here)
      | cons c' front =>
        obtain ⟨rfl, rfl⟩ := List.cons.inj cut
        exact ih front.length (Nat.lt_succ_self _) found rfl
    · obtain ⟨previous', last, last'⟩ := id alike.last
      rw [read] at found
      rw [read']
      cases earlier with
      | nil =>
        obtain ⟨rfl, -⟩ := List.cons.inj found
        rw [last] at here
        obtain rfl : u = [] := List.append_left_eq_self.1 here
        exact ⟨[], first', _, rfl, by rw [last']; rfl, alike.groups, .nil⟩
      | cons e earlier =>
        obtain ⟨same, later⟩ := List.cons.inj found
        subst same
        rcases List.eq_nil_or_concat' u with rfl | ⟨front', c, rfl⟩
        · rw [last] at later
          exact absurd later (findAll_ne here)
        · rw [← List.cons_append, ← List.append_assoc] at cut
          obtain ⟨rfl, same⟩ := List.append_inj' cut rfl
          cases same
          have fewer : front'.length < (before ++ stop :: front').length := by
            rw [List.length_append, List.length_cons]
            omega
          rw [last] at later
          obtain ⟨earlier', m', later', found', here', same, each⟩ := ih _ fewer later rfl
          rw [last', found']
          exact ⟨first' :: earlier', m', later', rfl, here', same, .cons alike.groups each⟩

end Pattern

end CodeSurvey
