import CodeSurvey.Pattern.Vocabulary
import Mathlib.Data.List.TakeWhile

/-!
# What patterns read and record

`Pattern.Reads` says which texts a pattern may read and which groups it may record with them,
whatever the text around. All that `Pattern.run` offers is among these readings
(`Pattern.run_eq_some`), and so is every match. What group a pattern is sure to record, and how
little it may read, is told from the pattern alone: `Pattern.piece?` and `Pattern.least`.
-/

namespace CodeSurvey

namespace Place

variable {p q : Place}

theorem upTo_eq {t : Text} (h : p.rest = t ++ q.rest) : p.upTo q = t := by
  rw [upTo, p.size_eq, q.size_eq, h, List.length_append, Nat.add_sub_cancel, List.take_left]

theorem rest_of_after? {word : Text} (h : p.after? word = some q) : p.rest = word ++ q.rest := by
  induction word generalizing p with
  | nil =>
    cases h
    rfl
  | cons w word ih =>
    rw [after?] at h
    split at h
    · cases h
    · next c rest front =>
      split at h
      · next same =>
        subst same
        rw [front, List.cons_append, ← ih h]
        rfl
      · cases h

theorem rest_of_mem_reach {ok : Char → Bool} (h : q ∈ p.reach ok) :
    ∃ t, p.rest = t ++ q.rest ∧ ∀ c ∈ t, ok c = true := by
  have go (rest : Text) (p' : Place) (here : p'.rest = rest) (passed : List Place)
      (member : q ∈ reach.go ok rest p' here passed) :
      q ∈ passed ∨ ∃ t, p'.rest = t ++ q.rest ∧ ∀ c ∈ t, ok c = true := by
    induction rest generalizing p' passed with
    | nil =>
      rcases List.mem_cons.1 member with rfl | member
      · exact .inr ⟨[], rfl, List.forall_mem_nil _⟩
      · exact .inl member
    | cons c rest ih =>
      rw [reach.go] at member
      split at member
      · next inClass =>
        rcases ih _ _ _ member with member | ⟨t, later, all⟩
        · rcases List.mem_cons.1 member with rfl | member
          · exact .inr ⟨[], rfl, List.forall_mem_nil _⟩
          · exact .inl member
        · refine .inr ⟨c :: t, ?_, List.forall_mem_cons.2 ⟨inClass, all⟩⟩
          rw [here, List.cons_append, ← later]
          rfl
      · rcases List.mem_cons.1 member with rfl | member
        · exact .inr ⟨[], rfl, List.forall_mem_nil _⟩
        · exact .inl member
  exact (go p.rest p rfl [] h).resolve_left List.not_mem_nil

end Place

/-- The texts of the groups. -/
def Groups.texts (g : Groups) : List (Nat × Text) := g.map fun (n, span) => (n, span.text)

theorem Groups.lookup_texts (g : Groups) (n : Nat) :
    g.texts.lookup n = (g.lookup n).map Span.text := by
  induction g with
  | nil => rfl
  | cons entry g ih =>
    obtain ⟨k, span⟩ := entry
    show List.lookup n ((k, span.text) :: texts g) = _
    rw [List.lookup_cons, List.lookup_cons]
    split
    · rfl
    · exact ih

namespace Pattern

/-! ## Readings -/

/-- Whether a pattern may read a text and record these groups, the last first. What a test says of
the place and what `same` reads once more is left open. -/
inductive Reads : Pattern → Text → List (Nat × Text) → Prop where
  | empty : Reads empty [] []
  | lit {word : Text} : Reads (lit word) word []
  | one {ok : Char → Bool} {c : Char} (inClass : ok c = true) : Reads (one ok) [c] []
  | many {ok : Char → Bool} {least : Nat} {isLazy : Bool} {t : Text}
      (all : ∀ c ∈ t, ok c = true) (long : least ≤ t.length) : Reads (many ok least isLazy) t []
  | seq {x y : Pattern} {s t : Text} {rec rec' : List (Nat × Text)}
      (first : Reads x s rec) (second : Reads y t rec') : Reads (seq x y) (s ++ t) (rec' ++ rec)
  | left {x y : Pattern} {t : Text} {rec : List (Nat × Text)} (first : Reads x t rec) :
      Reads (alt x y) t rec
  | right {x y : Pattern} {t : Text} {rec : List (Nat × Text)} (second : Reads y t rec) :
      Reads (alt x y) t rec
  | stop {x : Pattern} : Reads (star x) [] []
  | more {x : Pattern} {s t : Text} {rec rec' : List (Nat × Text)} (once : Reads x s rec)
      (later : Reads (star x) t rec') : Reads (star x) (s ++ t) (rec' ++ rec)
  | group {n : Nat} {x : Pattern} {t : Text} {rec : List (Nat × Text)} (inner : Reads x t rec) :
      Reads (group n x) t ((n, t) :: rec)
  | same {n : Nat} {t : Text} : Reads (same n) t []
  | test {holds : Place → Bool} : Reads (test holds) [] []

section
variable {x y : Pattern} {t : Text} {rec : List (Nat × Text)} {n : Nat} {ok : Char → Bool}

theorem reads_one_iff : (one ok).Reads t rec ↔ ∃ c, ok c = true ∧ t = [c] ∧ rec = [] := by
  constructor
  · rintro ⟨⟩
    next c inClass => exact ⟨c, inClass, rfl, rfl⟩
  · rintro ⟨c, inClass, rfl, rfl⟩
    exact .one inClass

theorem reads_many_iff {isLazy : Bool} : (many ok n isLazy).Reads t rec ↔
    (∀ c ∈ t, ok c = true) ∧ n ≤ t.length ∧ rec = [] := by
  constructor
  · rintro ⟨⟩
    next all long => exact ⟨all, long, rfl⟩
  · rintro ⟨all, long, rfl⟩
    exact .many all long

theorem reads_seq_iff : (seq x y).Reads t rec ↔ ∃ s rec₁ s' rec₂, x.Reads s rec₁ ∧
    y.Reads s' rec₂ ∧ t = s ++ s' ∧ rec = rec₂ ++ rec₁ := by
  constructor
  · rintro ⟨⟩
    next s s' rec₁ rec₂ first second => exact ⟨s, rec₁, s', rec₂, first, second, rfl, rfl⟩
  · rintro ⟨s, rec₁, s', rec₂, first, second, rfl, rfl⟩
    exact .seq first second

/-- The first of two patterns reads the front of what both read. -/
theorem Reads.exists_prefix (reads : (x.seq y).Reads t rec) :
    ∃ s rec', x.Reads s rec' ∧ s <+: t := by
  obtain ⟨s, rec', s', _, first, -, rfl, -⟩ := reads_seq_iff.1 reads
  exact ⟨s, rec', first, List.prefix_append s s'⟩

theorem reads_group_iff :
    (group n x).Reads t rec ↔ ∃ rec', x.Reads t rec' ∧ rec = (n, t) :: rec' := by
  constructor
  · rintro ⟨⟩
    next rec' inner => exact ⟨rec', inner, rfl⟩
  · rintro ⟨rec', inner, rfl⟩
    exact .group inner

/-- What a repetition reads is made up of what it reads each time. -/
theorem Reads.exists_pieces (reads : (star x).Reads t rec) :
    ∃ pieces : List Text, t = pieces.flatten ∧ ∀ s ∈ pieces, ∃ rec, x.Reads s rec := by
  generalize whole : star x = y at reads
  induction reads with
  | stop => exact ⟨[], rfl, List.forall_mem_nil _⟩
  | @more _ s t rec _ once later _ ih =>
    obtain ⟨pieces, rfl, inner⟩ := ih whole
    cases whole
    exact ⟨s :: pieces, rfl, List.forall_mem_cons.2 ⟨⟨rec, once⟩, inner⟩⟩
  | _ => cases whole

end

/-- Whether a reading leads from one place to another and records what is new in the groups. -/
def Leads (x : Pattern) (p : Place) (g : Groups) (q : Place) (g' : Groups) : Prop :=
  ∃ t rec, x.Reads t rec ∧ p.rest = t ++ q.rest ∧ g'.texts = rec ++ g.texts

section
variable {x y : Pattern} {p q r : Place} {g g' g'' : Groups} {α : Type} {accept : Accept α} {a : α}

theorem Leads.seq (first : x.Leads p g q g') (second : y.Leads q g' r g'') :
    (Pattern.seq x y).Leads p g r g'' := by
  obtain ⟨s, rec, reads, rest, groups⟩ := first
  obtain ⟨t, rec', reads', rest', groups'⟩ := second
  exact ⟨s ++ t, rec' ++ rec, reads.seq reads', by rw [rest, rest', List.append_assoc],
    by rw [groups', groups, List.append_assoc]⟩

theorem Leads.more (once : x.Leads p g q g') (later : (star x).Leads q g' r g'') :
    (star x).Leads p g r g'' := by
  obtain ⟨s, rec, reads, rest, groups⟩ := once
  obtain ⟨t, rec', reads', rest', groups'⟩ := later
  exact ⟨s ++ t, rec' ++ rec, reads.more reads', by rw [rest, rest', List.append_assoc],
    by rw [groups', groups, List.append_assoc]⟩

theorem Leads.of_reads_nil (reads : x.Reads [] []) : x.Leads p g p g := ⟨[], [], reads, rfl, rfl⟩

theorem runLazy_eq_some {ok : Char → Bool} {accept : Place → Option α} {rest : Text}
    {h : p.rest = rest} {least : Nat} (found : runLazy ok accept rest p h least = some a) :
    ∃ t q, p.rest = t ++ q.rest ∧ (∀ c ∈ t, ok c = true) ∧ least ≤ t.length ∧
      accept q = some a := by
  have step {c : Char} {rest : Text} {p : Place} {h : p.rest = c :: rest} {n : Nat}
      (inClass : ok c = true)
      (later : ∃ t q, (p.step c rest h).rest = t ++ q.rest ∧ (∀ c ∈ t, ok c = true) ∧
        n ≤ t.length ∧ accept q = some a) :
      ∃ t q, p.rest = t ++ q.rest ∧ (∀ c ∈ t, ok c = true) ∧ n + 1 ≤ t.length ∧
        accept q = some a := by
    obtain ⟨t, q, after, all, long, accepted⟩ := later
    refine ⟨c :: t, q, ?_, List.forall_mem_cons.2 ⟨inClass, all⟩, Nat.succ_le_succ long, accepted⟩
    rw [h, List.cons_append, ← after]
    rfl
  induction rest generalizing p least with
  | nil =>
    cases least with
    | zero => exact ⟨[], p, rfl, List.forall_mem_nil _, Nat.zero_le _, found⟩
    | succ least => cases found
  | cons c rest ih =>
    cases least with
    | zero =>
      rw [runLazy] at found
      split at found
      · next b accepted =>
        exact ⟨[], p, rfl, List.forall_mem_nil _, Nat.zero_le _, accepted.trans found⟩
      · split at found
        · next inClass =>
          obtain ⟨t, q, after, all, -, accepted⟩ := step inClass (ih found)
          exact ⟨t, q, after, all, Nat.zero_le _, accepted⟩
        · cases found
    | succ least =>
      rw [runLazy] at found
      split at found
      · next inClass => exact step inClass (ih found)
      · cases found

/-- What `once` offers leads on by one reading; then so does every repetition of it. -/
theorem runStar_eq_some {once : Place → Groups → Accept α → Option α} {n : Nat}
    (sound : ∀ {p g accept a}, once p g accept = some a →
      ∃ q g', x.Leads p g q g' ∧ accept q g' = some a)
    (found : runStar once n p g accept = some a) :
    ∃ q g', (star x).Leads p g q g' ∧ accept q g' = some a := by
  induction n generalizing p g a with
  | zero => exact ⟨p, g, .of_reads_nil .stop, found⟩
  | succ n ih =>
    rw [runStar] at found
    split at found
    · next b repeated =>
      obtain ⟨q, g', leads, accepted⟩ := sound repeated
      split at accepted
      · obtain ⟨r, g'', further, accepted⟩ := ih accepted
        exact ⟨r, g'', leads.more further, accepted.trans found⟩
      · cases accepted
    · exact ⟨p, g, .of_reads_nil .stop, found⟩

theorem run_lit_eq_some {word : Text} (found : (lit word).run p g accept = some a) :
    ∃ q, p.rest = word ++ q.rest ∧ accept q g = some a := by
  rw [run] at found
  split at found
  · next q after => exact ⟨q, Place.rest_of_after? after, found⟩
  · cases found

theorem run_many_eq_some {ok : Char → Bool} {least : Nat} {isLazy : Bool}
    (found : (many ok least isLazy).run p g accept = some a) :
    ∃ t q, p.rest = t ++ q.rest ∧ (∀ c ∈ t, ok c = true) ∧ least ≤ t.length ∧
      accept q g = some a := by
  rw [run] at found
  split at found
  · exact runLazy_eq_some found
  · obtain ⟨q, reached, accepted⟩ := List.exists_of_findSome?_eq_some found
    obtain ⟨t, after, all⟩ := Place.rest_of_mem_reach ((List.takeWhile_sublist _).mem reached)
    have far : q.size + least ≤ p.size := by
      simpa using List.mem_takeWhile_imp reached
    have long : least ≤ t.length := by
      have total : p.size = t.length + q.size := by
        rw [p.size_eq, q.size_eq, after, List.length_append]
      omega
    exact ⟨t, q, after, all, long, accepted⟩

/-- What a run accepts has been reached by a reading. -/
theorem run_eq_some (found : x.run p g accept = some a) :
    ∃ q g', x.Leads p g q g' ∧ accept q g' = some a := by
  induction x generalizing p g accept a with
  | empty => exact ⟨p, g, .of_reads_nil .empty, found⟩
  | lit word =>
    obtain ⟨q, after, accepted⟩ := run_lit_eq_some found
    exact ⟨q, g, ⟨word, [], .lit, after, rfl⟩, accepted⟩
  | one ok =>
    rw [run] at found
    split at found
    · next c rest front =>
      split at found
      · next inClass => exact ⟨p.step c rest front, g, ⟨[c], [], .one inClass, front, rfl⟩, found⟩
      · cases found
    · cases found
  | many ok least isLazy =>
    obtain ⟨t, q, after, all, long, accepted⟩ := run_many_eq_some found
    exact ⟨q, g, ⟨t, [], .many all long, after, rfl⟩, accepted⟩
  | seq x y ihx ihy =>
    obtain ⟨q, g', first, accepted⟩ := ihx found
    obtain ⟨r, g'', second, accepted⟩ := ihy accepted
    exact ⟨r, g'', first.seq second, accepted⟩
  | alt x y ihx ihy =>
    rw [run] at found
    split at found
    · next b accepted =>
      obtain ⟨q, g', ⟨t, rec, reads, rest⟩, accepted⟩ := ihx accepted
      exact ⟨q, g', ⟨t, rec, .left reads, rest⟩, accepted.trans found⟩
    · obtain ⟨q, g', ⟨t, rec, reads, rest⟩, accepted⟩ := ihy found
      exact ⟨q, g', ⟨t, rec, .right reads, rest⟩, accepted⟩
  | star x ih => exact runStar_eq_some ih found
  | group n x ih =>
    obtain ⟨q, g', ⟨t, rec, reads, rest, groups⟩, accepted⟩ := ih found
    refine ⟨q, (n, ⟨p, q⟩) :: g', ⟨t, (n, t) :: rec, .group reads, rest, ?_⟩, accepted⟩
    rw [List.cons_append, ← groups, ← Place.upTo_eq rest]
    rfl
  | same n =>
    rw [run] at found
    split at found
    · next span _ =>
      split at found
      · next q after => exact ⟨q, g, ⟨_, [], .same, Place.rest_of_after? after, rfl⟩, found⟩
      · cases found
    · cases found
  | test holds =>
    rw [run] at found
    split at found
    · exact ⟨p, g, .of_reads_nil .test, found⟩
    · cases found

end

/-! ## Matches -/

/-- Whether a match is a reading of the pattern, with its groups. -/
def Matches (x : Pattern) (m : Match) : Prop :=
  m.first.rest = m.text ++ m.last.rest ∧ x.Reads m.text m.groups.texts

section
variable {x : Pattern} {p : Place} {m : Match}

theorem matches_of_matchAt? (found : x.matchAt? p = some m) : x.Matches m ∧ m.first = p := by
  obtain ⟨q, g, ⟨t, rec, reads, rest, groups⟩, accepted⟩ := run_eq_some found
  cases accepted
  have text : Match.text ⟨p, q, g⟩ = t := Place.upTo_eq rest
  refine ⟨⟨by rw [text]; exact rest, ?_⟩, rfl⟩
  rw [text, groups, show Groups.texts [] = [] from rfl, List.append_nil]
  exact reads

/-- What is found is what is read where it starts. -/
theorem matchAt?_of_find? (found : x.find? p = some m) : x.matchAt? m.first = some m := by
  have go (rest : Text) (q : Place) (h : q.rest = rest) (found : find?.go x rest q h = some m) :
      x.matchAt? m.first = some m := by
    induction rest generalizing q with
    | nil =>
      obtain ⟨-, rfl⟩ := matches_of_matchAt? found
      exact found
    | cons c rest ih =>
      rw [find?.go] at found
      split at found
      · next m' here =>
        cases found
        obtain ⟨-, rfl⟩ := matches_of_matchAt? here
        exact here
      · exact ih _ _ found
  exact go p.rest p rfl found

theorem matches_of_find? (found : x.find? p = some m) : x.Matches m :=
  (matches_of_matchAt? (matchAt?_of_find? found)).1

theorem matches_of_mem_findAll (member : m ∈ x.findAll p) : x.Matches m := by
  have go (n : Nat) (q : Place) (found : List Match) (sound : ∀ m ∈ found, x.Matches m) :
      ∀ m ∈ findAll.go x n q found, x.Matches m := by
    induction n generalizing q found with
    | zero =>
      intro m member
      rcases List.mem_append.1 (List.mem_reverse.1 member) with last | member
      · exact (matches_of_matchAt? (Option.mem_toList.1 last)).1
      · exact sound m member
    | succ n ih =>
      intro m member
      rw [findAll.go] at member
      split at member
      · exact sound m (List.mem_reverse.1 member)
      · next m' here =>
        have sound' : ∀ m ∈ m' :: found, x.Matches m :=
          List.forall_mem_cons.2 ⟨matches_of_find? here, sound⟩
        split at member
        · exact ih _ _ sound' m member
        · split at member
          · exact sound' m (List.mem_reverse.1 member)
          · exact ih _ _ sound' m member
  exact go p.size p [] (List.forall_mem_nil _) m member

theorem matches_of_find {text : Text} (found : x.find text = some m) : x.Matches m :=
  matches_of_find? found

theorem matches_of_mem_all {text : Text} (member : m ∈ x.all text) : x.Matches m :=
  matches_of_mem_findAll member

end

/-! ## What a pattern is sure to read and record -/

/-- Whether a pattern may record group `n`. -/
def mentions (n : Nat) : Pattern → Bool
  | seq x y => x.mentions n || y.mentions n
  | alt x y => x.mentions n || y.mentions n
  | star x => x.mentions n
  | group k x => k == n || x.mentions n
  | _ => false

/-- The pattern of what group `n` holds in the end, if it is sure to take part. -/
def piece? (n : Nat) : Pattern → Option Pattern
  | seq x y =>
    match y.piece? n with
    | some z => some z
    | none => if y.mentions n then none else x.piece? n
  | alt x y =>
    match x.piece? n, y.piece? n with
    | some z, some w => some (alt z w)
    | _, _ => none
  | group k x => if k = n then some x else x.piece? n
  | _ => none

/-- A number of characters that every reading has. -/
def least : Pattern → Nat
  | lit word => word.length
  | one _ => 1
  | many _ n _ => n
  | seq x y => x.least + y.least
  | alt x y => min x.least y.least
  | group _ x => x.least
  | _ => 0

/-- Whether group `n` is sure to take part and not to be empty. -/
def fills (n : Nat) (x : Pattern) : Bool := (x.piece? n).any fun y => 0 < y.least

section
variable {x y : Pattern} {t : Text} {rec : List (Nat × Text)} {n : Nat}

theorem Reads.lookup_eq_none (reads : x.Reads t rec) (silent : x.mentions n = false) :
    rec.lookup n = none := by
  induction reads with
  | seq first second ihx ihy =>
    obtain ⟨silentX, silentY⟩ := Bool.or_eq_false_iff.1 silent
    rw [List.lookup_append, ihy silentY, ihx silentX]
    rfl
  | left first ih => exact ih (Bool.or_eq_false_iff.1 silent).1
  | right second ih => exact ih (Bool.or_eq_false_iff.1 silent).2
  | more once later ih ih' => rw [List.lookup_append, ih' silent, ih silent]; rfl
  | group inner ih =>
    obtain ⟨other, silent⟩ := Bool.or_eq_false_iff.1 silent
    rw [List.lookup_cons, show (n == _) = false from BEq.comm.trans other]
    exact ih silent
  | _ => rfl

/-- A group that is sure to take part holds a reading of its pattern. -/
theorem Reads.lookup_piece (reads : x.Reads t rec) (sure : x.piece? n = some y) :
    ∃ s rec', rec.lookup n = some s ∧ y.Reads s rec' := by
  induction reads generalizing y with
  | seq first second ihx ihy =>
    rw [piece?] at sure
    split at sure
    · next z later =>
      cases sure
      obtain ⟨s, rec', recorded, reads⟩ := ihy later
      exact ⟨s, rec', by rw [List.lookup_append, recorded, Option.some_or], reads⟩
    · split at sure
      · cases sure
      · next silent =>
        obtain ⟨s, rec', recorded, reads⟩ := ihx sure
        have none := second.lookup_eq_none (by simpa using silent)
        exact ⟨s, rec', by rw [List.lookup_append, none, Option.none_or, recorded], reads⟩
  | left first ih =>
    rw [piece?] at sure
    split at sure
    · next z w first _ =>
      cases sure
      obtain ⟨s, rec', recorded, reads⟩ := ih first
      exact ⟨s, rec', recorded, .left reads⟩
    · cases sure
  | right second ih =>
    rw [piece?] at sure
    split at sure
    · next z w _ second =>
      cases sure
      obtain ⟨s, rec', recorded, reads⟩ := ih second
      exact ⟨s, rec', recorded, .right reads⟩
    · cases sure
  | @group k x t rec inner ih =>
    rw [piece?] at sure
    split at sure
    · next same =>
      cases sure
      exact ⟨t, rec, by rw [same, List.lookup_cons_self], inner⟩
    · next other =>
      obtain ⟨s, rec', recorded, reads⟩ := ih sure
      refine ⟨s, rec', ?_, reads⟩
      rw [List.lookup_cons, show (n == k) = false by simpa using Ne.symm other]
      exact recorded
  | _ => cases sure

theorem Reads.least_le (reads : x.Reads t rec) : x.least ≤ t.length := by
  induction reads with
  | many all long => exact long
  | seq first second ihx ihy =>
    rw [List.length_append]
    exact Nat.add_le_add ihx ihy
  | left first ih => exact Nat.le_trans (Nat.min_le_left ..) ih
  | right second ih => exact Nat.le_trans (Nat.min_le_right ..) ih
  | group inner ih => exact ih
  | lit | one => exact Nat.le_refl _
  | _ => exact Nat.zero_le _

end

namespace Matches

variable {x y : Pattern} {m : Match} {n : Nat}

theorem group?_piece (h : x.Matches m) (sure : x.piece? n = some y) :
    ∃ s rec, m.group? n = some s ∧ y.Reads s rec := by
  obtain ⟨s, rec, recorded, reads⟩ := h.2.lookup_piece sure
  exact ⟨s, rec, by rw [Match.group?, ← Groups.lookup_texts, recorded], reads⟩

theorem group_piece (h : x.Matches m) (sure : x.piece? n = some y) :
    ∃ rec, y.Reads (m.group n) rec := by
  obtain ⟨s, rec, recorded, reads⟩ := h.group?_piece sure
  exact ⟨rec, by rwa [Match.group, recorded]⟩

theorem group_ne_nil (h : x.Matches m) (filled : x.fills n = true) : m.group n ≠ [] := by
  obtain ⟨y, sure, positive⟩ := (Option.any_eq_true ..).1 filled
  obtain ⟨rec, reads⟩ := h.group_piece sure
  have long := reads.least_le
  intro empty
  rw [empty] at long
  exact absurd (of_decide_eq_true positive) (Nat.not_lt.2 long)

theorem string_ne_empty (h : x.Matches m) (filled : x.fills n = true) : m.string n ≠ "" := by
  rw [Match.string, Ne, String.ofList_eq_empty_iff]
  exact h.group_ne_nil filled

end Matches

theorem isTextEnd_iff {p : Place} : isTextEnd p = true ↔ p.rest = [] ∨ p.rest = ['\n'] := by
  unfold isTextEnd
  split <;> simp_all

end Pattern

end CodeSurvey
