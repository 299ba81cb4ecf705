import CodeSurvey.Pattern.Vocabulary
import CodeSurvey.Proofs.Pattern

/-!
# What a pattern offers first

A pattern offers the ends of its readings one after another, and the first that is accepted is
taken. `Pattern.Offers` says which end comes first and with which groups, `Pattern.Refuses` that
there is none. Both are told from the text after the place, part of the pattern by part, so that the
match of a text that is known can be computed without a run (`Pattern.matchAt?_of_offers`,
`Pattern.all_eq_singleton`).
-/

namespace CodeSurvey

/-! ## Places by what is around them -/

namespace Place

/-- The position between a character, if there is one, and a text. -/
def between (previous : Option Char) (rest : Text) : Place :=
  ⟨previous, rest, rest.length, (start rest).size_eq⟩

/-- The character before the end of a text, which is the one before the text if it is empty. -/
def lastOf (previous : Option Char) (text : Text) : Option Char := text.getLast?.or previous

theorem lastOf_cons (previous : Option Char) (c : Char) (text : Text) :
    lastOf previous (c :: text) = lastOf (some c) text := by
  rw [lastOf, lastOf, List.getLast?_cons]
  cases text.getLast? <;> rfl

theorem lastOf_append (previous : Option Char) (s t : Text) :
    lastOf previous (s ++ t) = lastOf (lastOf previous s) t := by
  induction s generalizing previous with
  | nil => rfl
  | cons c s ih => rw [List.cons_append, lastOf_cons, lastOf_cons, ih]

theorem start_eq (text : Text) : start text = between none text := rfl

theorem after?_between (previous : Option Char) (word rest : Text) :
    (between previous (word ++ rest)).after? word = some (between (lastOf previous word) rest) := by
  induction word generalizing previous with
  | nil => rfl
  | cons c word ih =>
    rw [lastOf_cons, ← ih (some c)]
    show (if c = c then (between (some c) (word ++ rest)).after? word else none) = _
    rw [if_pos rfl]

theorem previous_of_after? {p q : Place} {word : Text} (h : p.after? word = some q) :
    q.previous = lastOf p.previous word := by
  have whole : p = between p.previous (word ++ q.rest) := by
    obtain ⟨previous, rest, size, rfl⟩ := p
    obtain rfl := rest_of_after? h
    rfl
  rw [whole, after?_between] at h
  exact (congrArg Place.previous (Option.some.inj h)).symm

theorem reach_between {ok : Char → Bool} {t rest : Text} (all : ∀ c ∈ t, ok c = true)
    (stop : ∀ c, rest.head? = some c → ok c = false) (previous : Option Char) :
    ∃ nearer, (between previous (t ++ rest)).reach ok =
      between (lastOf previous t) rest :: nearer := by
  have go (t : Text) (all : ∀ c ∈ t, ok c = true) (previous : Option Char) (passed : List Place) :
      ∃ nearer, reach.go ok (t ++ rest) (between previous (t ++ rest)) rfl passed =
        between (lastOf previous t) rest :: nearer := by
    induction t generalizing previous passed with
    | nil =>
      cases rest with
      | nil => exact ⟨passed, rfl⟩
      | cons c rest =>
        refine ⟨passed, ?_⟩
        show (if ok c = true then _ else between previous (c :: rest) :: passed) = _
        rw [if_neg (by simp [stop c rfl])]
        rfl
    | cons c t ih =>
      obtain ⟨here, later⟩ := List.forall_mem_cons.1 all
      obtain ⟨nearer, same⟩ := ih later (some c) (between previous (c :: (t ++ rest)) :: passed)
      refine ⟨nearer, ?_⟩
      rw [lastOf_cons, ← same]
      show (if ok c = true then _ else _) = _
      rw [if_pos here]
      rfl
  exact go t all previous []

/-- All places within a class of characters are reached. -/
theorem between_mem_reach {ok : Char → Bool} {t rest : Text} (all : ∀ c ∈ t, ok c = true)
    (previous : Option Char) :
    between (lastOf previous t) rest ∈ (between previous (t ++ rest)).reach ok := by
  have mem_go {q : Place} (rest : Text) (previous : Option Char) (passed : List Place)
      (member : q ∈ between previous rest :: passed) :
      q ∈ reach.go ok rest (between previous rest) rfl passed := by
    induction rest generalizing previous passed with
    | nil => exact member
    | cons c rest ih =>
      show q ∈ if ok c = true then
        reach.go ok rest (between (some c) rest) rfl (between previous (c :: rest) :: passed)
        else between previous (c :: rest) :: passed
      split
      · exact ih _ _ (.tail _ member)
      · exact member
  have go (t : Text) (all : ∀ c ∈ t, ok c = true) (previous : Option Char) (passed : List Place) :
      between (lastOf previous t) rest ∈
        reach.go ok (t ++ rest) (between previous (t ++ rest)) rfl passed := by
    induction t generalizing previous passed with
    | nil => exact mem_go rest previous passed (.head _)
    | cons c t ih =>
      obtain ⟨here, later⟩ := List.forall_mem_cons.1 all
      show _ ∈ if ok c = true then
        reach.go ok (t ++ rest) (between (some c) (t ++ rest)) rfl _ else _
      rw [if_pos here, lastOf_cons]
      exact ih later _ _
  exact go t all previous []

end Place

namespace Pattern

open Place

variable {x y : Pattern} {p q r : Place} {g g' g'' : Groups}

/-! ## First offers -/

/-- Whether a pattern offers the end `q` with the groups `g'` before any other. -/
def Offers (x : Pattern) (p : Place) (g : Groups) (q : Place) (g' : Groups) : Prop :=
  ∀ ⦃α : Type⦄ ⦃accept : Accept α⦄ ⦃a : α⦄, accept q g' = some a → x.run p g accept = some a

/-- Whether a pattern offers nothing at a place. -/
def Refuses (x : Pattern) (p : Place) (g : Groups) : Prop :=
  ∀ ⦃α : Type⦄ (accept : Accept α), x.run p g accept = none

theorem Offers.seq (first : x.Offers p g q g') (second : y.Offers q g' r g'') :
    (x ++ y).Offers p g r g'' := fun _ _ _ accepted => first (second accepted)

theorem run_alt {α : Type} (accept : Accept α) :
    (alt x y).run p g accept = (x.run p g accept).or (y.run p g accept) := by
  rw [run]
  cases x.run p g accept <;> rfl

theorem Offers.left (h : x.Offers p g q g') : (alt x y).Offers p g q g' := by
  intro α accept a accepted
  rw [run, h accepted]

theorem Offers.right (refuses : x.Refuses p g) (h : y.Offers p g q g') :
    (alt x y).Offers p g q g' := by
  intro α accept a accepted
  rw [run, refuses accept]
  exact h accepted

theorem Offers.group {n : Nat} (h : x.Offers p g q g') :
    (group n x).Offers p g q ((n, ⟨p, q⟩) :: g') := fun _ _ _ accepted => h accepted

theorem offers_empty : empty.Offers p g p g := fun _ _ _ accepted => accepted

theorem offers_test {holds : Place → Bool} (h : holds p = true) : (test holds).Offers p g p g := by
  intro α accept a accepted
  rw [run, if_pos h, accepted]

theorem offers_lit (previous : Option Char) (word rest : Text) :
    (lit word).Offers (between previous (word ++ rest)) g
      (between (lastOf previous word) rest) g := by
  intro α accept a accepted
  rw [run, after?_between]
  exact accepted

theorem offers_one {ok : Char → Bool} {c : Char} (inClass : ok c = true) (previous : Option Char)
    (rest : Text) :
    (one ok).Offers (between previous (c :: rest)) g (between (some c) rest) g := by
  intro α accept a accepted
  show (if ok c = true then accept (between (some c) rest) g else none) = some a
  rw [if_pos inClass, accepted]

/-- Reading characters of a class stops before another character. -/
theorem stops_cons {ok : Char → Bool} {c : Char} {rest : Text} (no : ok c = false) :
    ∀ c', (c :: rest).head? = some c' → ok c' = false := by
  intro c' first
  cases first
  exact no

theorem stops_nil {ok : Char → Bool} : ∀ c, ([] : Text).head? = some c → ok c = false := by
  intro c first
  cases first

/-- A repetition first offers the farthest end. -/
theorem offers_many {ok : Char → Bool} {least : Nat} {t rest : Text} (previous : Option Char)
    (all : ∀ c ∈ t, ok c = true) (stop : ∀ c, rest.head? = some c → ok c = false)
    (long : least ≤ t.length) : (many ok least false).Offers (between previous (t ++ rest)) g
      (between (lastOf previous t) rest) g := by
  intro α accept a accepted
  obtain ⟨nearer, farthest⟩ := reach_between all stop previous
  have far : (between (lastOf previous t) rest).size + least ≤
      (between previous (t ++ rest)).size := by
    show rest.length + least ≤ (t ++ rest).length
    rw [List.length_append]
    omega
  rw [run, if_neg (by decide), farthest, List.takeWhile_cons_of_pos (by simpa using far),
    List.findSome?_cons]
  simp only [accepted]

/-- Where no white space is, none is read. -/
theorem offers_noGap {previous : Option Char} {rest : Text}
    (visible : ∀ c, rest.head? = some c → isBlank c = false) :
    blanks.Offers (between previous rest) g (between previous rest) g :=
  offers_many (t := []) previous (List.forall_mem_nil _) visible (Nat.zero_le _)

theorem Refuses.seq (h : x.Refuses p g) (y : Pattern) : (x ++ y).Refuses p g :=
  fun _ _ => h _

theorem refuses_lit {c w : Char} (differ : c ≠ w) (previous : Option Char) (word rest : Text) :
    (lit (w :: word)).Refuses (between previous (c :: rest)) g := by
  intro α accept
  have noMatch : (between previous (c :: rest)).after? (w :: word) = none := by
    show (if c = w then _ else none) = none
    rw [if_neg differ]
  rw [run, noMatch]

/-- A pattern refuses a text that starts with none of its readings. -/
theorem refuses_of_reads (none : ∀ t rec, x.Reads t rec → ¬ t <+: p.rest) : x.Refuses p g := by
  intro α accept
  rw [Option.eq_none_iff_forall_ne_some]
  intro a found
  obtain ⟨q, g', ⟨t, rec, reads, rest, -⟩, -⟩ := run_eq_some found
  exact none t rec reads ⟨q.rest, rest.symm⟩

/-- At the end of a text nothing is read that has a character. -/
theorem refuses_nil {previous : Option Char} (some : 0 < x.least) :
    x.Refuses (between previous []) g := by
  refine refuses_of_reads fun t rec reads inFront => ?_
  have long := reads.least_le
  rw [List.prefix_nil.1 inFront] at long
  exact absurd some (Nat.not_lt.2 long)

theorem refuses_test {holds : Place → Bool} (h : holds p = false) : (test holds).Refuses p g := by
  intro α accept
  rw [run, if_neg (by rw [h]; decide)]

theorem Refuses.test {holds : Place → Bool} (h : x.Refuses p g) :
    (Pattern.test holds ++ x).Refuses p g := by
  intro α accept
  have refused : x.run p g accept = none := h accept
  show (if holds p = true then x.run p g accept else none) = none
  rw [refused, ite_self]

theorem refuses_lit_nil (previous : Option Char) (w : Char) (word : Text) :
    (lit (w :: word)).Refuses (between previous []) g := fun _ _ => rfl

/-! ### Repetitions of patterns -/

theorem run_refusing {α : Type} (x : Pattern) (p : Place) (g : Groups) :
    x.run p g (fun _ _ => (none : Option α)) = none := by
  rw [Option.eq_none_iff_forall_ne_some]
  intro a found
  obtain ⟨-, -, -, refused⟩ := run_eq_some found
  cases refused

/-- A repetition gives the same with any number of steps from the number of characters on. -/
theorem runStar_eq {α : Type} (x : Pattern) {n : Nat} {p : Place} (enough : p.size ≤ n)
    (g : Groups) (accept : Accept α) :
    runStar x.run n p g accept = runStar x.run p.size p g accept := by
  induction size : p.size using Nat.strong_induction_on generalizing n p g with
  | h k ih =>
    cases k with
    | zero =>
      cases n with
      | zero => rfl
      | succ n =>
        have nothing : (fun q g => if q.size < p.size then runStar x.run n q g accept else none) =
            fun _ _ => none := by
          funext q g
          exact if_neg (by omega)
        unfold runStar
        rw [nothing, run_refusing]
    | succ k =>
      obtain ⟨n, rfl⟩ : ∃ n', n = n' + 1 := ⟨n - 1, by omega⟩
      have later : (fun q g => if q.size < p.size then runStar x.run n q g accept else none) =
          fun q g => if q.size < p.size then runStar x.run k q g accept else none := by
        funext q g
        split
        · rw [ih q.size (by omega) (by omega) g rfl,
            ih q.size (by omega) (show q.size ≤ k by omega) g rfl]
        · rfl
      rw [runStar, runStar, later]

/-- A repetition first offers what comes after as many readings as there are. -/
theorem Offers.more (once : x.Offers p g q g') (shorter : q.size < p.size)
    (later : (star x).Offers q g' r g'') : (star x).Offers p g r g'' := by
  intro α accept a accepted
  obtain ⟨n, some⟩ : ∃ n, p.size = n + 1 := ⟨p.size - 1, by omega⟩
  have rest : (if q.size < p.size then runStar x.run n q g' accept else none) = Option.some a := by
    rw [if_pos shorter, runStar_eq x (by omega)]
    exact later accepted
  rw [run, some, runStar, once rest]

theorem Refuses.stop (h : x.Refuses p g) : (star x).Offers p g p g := by
  intro α accept a accepted
  rw [run]
  cases p.size with
  | zero => exact accepted
  | succ n =>
    rw [runStar, h]
    exact accepted

/-! ### Readings whatever comes first -/

theorem Offers.run_ne_none {α : Type} {accept : Accept α} (h : x.Offers p g q g')
    (some : accept q g' ≠ none) : x.run p g accept ≠ none := by
  obtain ⟨a, accepted⟩ := Option.ne_none_iff_exists'.1 some
  rw [h accepted]
  exact Option.some_ne_none a

/-- What may be left out prevents no reading. -/
theorem run_opt_ne_none {α : Type} {accept : Accept α} (some : accept p g ≠ none) :
    (opt x).run p g accept ≠ none := by
  unfold opt
  rw [run_alt]
  cases x.run p g accept with
  | none => exact some
  | some a => exact Option.some_ne_none a

theorem run_star_ne_none {α : Type} {accept : Accept α} (some : accept p g ≠ none) :
    (star x).run p g accept ≠ none := by
  rw [run]
  cases p.size with
  | zero => exact some
  | succ n =>
    rw [runStar]
    split
    · exact Option.some_ne_none _
    · exact some

/-- A repetition can be read to any place within its class. -/
theorem run_some0_ne_none {α : Type} {accept : Accept α} {ok : Char → Bool} {t rest : Text}
    (all : ∀ c ∈ t, ok c = true) (previous : Option Char)
    (some : accept (between (lastOf previous t) rest) g ≠ none) :
    (some0 ok).run (between previous (t ++ rest)) g accept ≠ none := by
  have far : ∀ q ∈ (between previous (t ++ rest)).reach ok,
      decide (q.size + 0 ≤ (between previous (t ++ rest)).size) = true := by
    intro q reached
    obtain ⟨s, after, -⟩ := rest_of_mem_reach reached
    rw [decide_eq_true_iff, q.size_eq, Place.size_eq, after, List.length_append]
    omega
  rw [some0, run, if_neg (by decide), List.takeWhile_eq_self_iff.2 far]
  intro none
  exact some (List.findSome?_eq_none_iff.1 none _ (between_mem_reach all previous))

/-! ### Lazy repetitions -/

theorem runLazy_between {α : Type} {ok : Char → Bool} (f : Place → Option α)
    (previous : Option Char) (c : Char) (rest : Text) :
    runLazy ok f (c :: rest) (between previous (c :: rest)) rfl 0 =
      (f (between previous (c :: rest))).or
        (if ok c = true then runLazy ok f rest (between (some c) rest) rfl 0 else none) := by
  have go (p : Place) (same : p.rest = c :: rest) : runLazy ok f (c :: rest) p same 0 =
      (f p).or (if ok c = true then runLazy ok f rest (p.step c rest same) rfl 0 else none) := by
    rw [runLazy]
    cases f p <;> rfl
  exact go (between previous (c :: rest)) rfl

/-- A lazy repetition is read to the first place that is accepted. -/
theorem runLazy_first {α : Type} {f : Place → Option α} {a : α} {ok : Char → Bool} {least : Nat}
    {t rest : Text} (previous : Option Char) (all : ∀ c ∈ t, ok c = true) (long : least ≤ t.length)
    (refused : ∀ u v, t = u ++ v → v ≠ [] → f (between (lastOf previous u) (v ++ rest)) = none)
    (accepted : f (between (lastOf previous t) rest) = some a) :
    runLazy ok f (t ++ rest) (between previous (t ++ rest)) rfl least = some a := by
  induction t generalizing previous least with
  | nil =>
    obtain rfl : least = 0 := by simpa using long
    cases rest with
    | nil => exact accepted
    | cons c rest =>
      have here : f (between previous (c :: rest)) = some a := accepted
      show runLazy ok f (c :: rest) (between previous (c :: rest)) rfl 0 = some a
      rw [runLazy_between, here, Option.some_or]
  | cons c t ih =>
    obtain ⟨here, later⟩ := List.forall_mem_cons.1 all
    have further (least : Nat) (long : least ≤ t.length) :
        runLazy ok f (t ++ rest) (between (some c) (t ++ rest)) rfl least = some a := by
      refine ih (some c) later long (fun u v parts some => ?_) ?_
      · rw [← lastOf_cons previous]
        exact refused (c :: u) v (by rw [parts, List.cons_append]) some
      · rw [← lastOf_cons previous]
        exact accepted
    cases least with
    | succ least =>
      show (if ok c = true then
        runLazy ok f (t ++ rest) (between (some c) (t ++ rest)) rfl least else none) = some a
      rw [if_pos here]
      exact further least (Nat.le_of_succ_le_succ long)
    | zero =>
      have passed : f (between previous (c :: (t ++ rest))) = none :=
        refused [] (c :: t) rfl (List.cons_ne_nil c t)
      show runLazy ok f (c :: (t ++ rest)) (between previous (c :: (t ++ rest))) rfl 0 = some a
      rw [runLazy_between, passed, Option.none_or, if_pos here]
      exact further 0 (Nat.zero_le _)

/-! ### Words -/

/-- Of some words one is read. -/
theorem exists_of_reads_oneOf {words : List String} (some : words ≠ []) {t : Text}
    {rec : List (Nat × Text)} (reads : (oneOf words).Reads t rec) :
    ∃ word ∈ words, t = word.toList := by
  induction words with
  | nil => exact absurd rfl some
  | cons first others ih =>
    cases others with
    | nil =>
      cases reads
      exact ⟨first, .head _, rfl⟩
    | cons second others =>
      cases reads with
      | left reads =>
        cases reads
        exact ⟨first, .head _, rfl⟩
      | right reads =>
        obtain ⟨word, member, rfl⟩ := ih nofun reads
        exact ⟨word, .tail _ member, rfl⟩

/-- One of the words is read, and the place after it is reached. -/
theorem run_oneOf_eq_some {α : Type} {accept : Accept α} {a : α} {words : List String}
    (found : (oneOf words).run p g accept = some a) : ∃ word ∈ words, ∃ q,
      p.rest = word.toList ++ q.rest ∧ q.previous = lastOf p.previous word.toList ∧
      accept q g = some a := by
  have one {word : String} (found : (lit word.toList).run p g accept = some a) :
      ∃ q, p.rest = word.toList ++ q.rest ∧ q.previous = lastOf p.previous word.toList ∧
        accept q g = some a := by
    rw [run] at found
    split at found
    · next q after => exact ⟨q, rest_of_after? after, previous_of_after? after, found⟩
    · cases found
  induction words with
  | nil => cases found
  | cons first others ih =>
    cases others with
    | nil => exact ⟨first, .head _, one found⟩
    | cons second others =>
      change (alt (lit first.toList) (oneOf (second :: others))).run p g accept = some a at found
      rw [run_alt, Option.or_eq_some_iff] at found
      rcases found with here | ⟨-, later⟩
      · exact ⟨first, .head _, one here⟩
      · obtain ⟨word, member, reached⟩ := ih later
        exact ⟨word, .tail _ member, reached⟩

/-- Where no word starts with another, the word that is there is offered. -/
theorem offers_oneOf {words : List String}
    (apart : ∀ a ∈ words, ∀ b ∈ words, a.toList <+: b.toList → a = b) {word : String}
    (member : word ∈ words) (previous : Option Char) (rest : Text) :
    (oneOf words).Offers (between previous (word.toList ++ rest)) g
      (between (lastOf previous word.toList) rest) g := by
  induction words with
  | nil => cases member
  | cons first others ih =>
    cases others with
    | nil =>
      obtain rfl := List.mem_singleton.1 member
      exact offers_lit previous _ rest
    | cons second others =>
      by_cases same : word = first
      · subst same
        exact (offers_lit previous _ rest).left
      · have other : word ∈ second :: others := (List.mem_cons.1 member).resolve_left same
        refine Offers.right (refuses_of_reads ?_)
          (ih (fun a ha b hb => apart a (.tail _ ha) b (.tail _ hb)) other)
        rintro _ _ ⟨⟩ starts
        rcases List.prefix_or_prefix_of_prefix starts (List.prefix_append _ _) with short | long
        · exact same (apart first (.head _) word member short).symm
        · exact same (apart word member first (.head _) long)

/-- Words that all start with other characters are not read. -/
theorem refuses_oneOf {words : List String} {c : Char}
    (other : ∀ word ∈ words, word.toList ≠ [] ∧ word.toList.head? ≠ some c) (some : words ≠ [])
    (previous : Option Char) (rest : Text) :
    (oneOf words).Refuses (between previous (c :: rest)) g := by
  refine refuses_of_reads fun t rec reads inFront => ?_
  obtain ⟨word, member, rfl⟩ := exists_of_reads_oneOf some reads
  obtain ⟨full, apart⟩ := other word member
  obtain ⟨d, word', whole⟩ := List.exists_cons_of_ne_nil full
  rw [whole] at inFront apart
  exact apart (congrArg _ (List.cons_prefix_cons.1 inFront).1)

theorem run_opt_eq_some {α : Type} {accept : Accept α} {a : α}
    (found : (opt x).run p g accept = some a) :
    x.run p g accept = some a ∨ accept p g = some a := by
  unfold opt at found
  rw [run_alt, Option.or_eq_some_iff] at found
  exact found.imp_right And.right

/-! ### What is read once more -/

theorem run_same_eq_some {α : Type} {accept : Accept α} {a : α} {n : Nat}
    (found : (same n).run p g accept = some a) :
    ∃ span q, g.lookup n = some span ∧ p.rest = span.text ++ q.rest ∧ accept q g = some a := by
  rw [run] at found
  split at found
  · next span recorded =>
    split at found
    · next q after => exact ⟨span, q, recorded, rest_of_after? after, found⟩
    · cases found
  · cases found

theorem offers_same {n : Nat} {span : Span} (recorded : g.lookup n = some span)
    (previous : Option Char) (rest : Text) :
    (same n).Offers (between previous (span.text ++ rest)) g
      (between (lastOf previous span.text) rest) g := by
  intro α accept a accepted
  rw [run, recorded]
  simp only [after?_between]
  exact accepted

/-! ## Matches -/

/-- A place that is tested where a reading ends has passed the test. -/
theorem holds_of_matchAt? {holds : Place → Bool} {m : Match}
    (found : (x ++ test holds).matchAt? p = some m) : holds m.last = true := by
  have run : x.run p [] (fun q g => if holds q then some (⟨p, q, g⟩ : Match) else none) =
      some m := found
  obtain ⟨q, g, -, accepted⟩ := run_eq_some run
  split at accepted
  · next h =>
    cases accepted
    exact h
  · cases accepted

theorem matchAt?_of_refuses (h : x.Refuses p []) : x.matchAt? p = none := h _

theorem matchAt?_of_offers (h : x.Offers p [] q g) : x.matchAt? p = some ⟨p, q, g⟩ := h rfl

theorem find?_of_matchAt? {m : Match} (here : x.matchAt? p = some m) : x.find? p = some m := by
  have go (rest : Text) (same : p.rest = rest) : find?.go x rest p same = some m := by
    cases rest with
    | nil => exact here
    | cons c rest =>
      unfold find?.go
      rw [here]
  exact go p.rest rfl

theorem find?_of_none {previous : Option Char} {c : Char} {rest : Text}
    (here : x.matchAt? (between previous (c :: rest)) = none) :
    x.find? (between previous (c :: rest)) = x.find? (between (some c) rest) := by
  have go (p : Place) (same : p.rest = c :: rest) (here : x.matchAt? p = none) :
      find?.go x (c :: rest) p same = find?.go x rest (p.step c rest same) rfl := by
    unfold find?.go
    rw [here]
  exact go _ rfl here

/-- What is found below a place starts below it. -/
theorem first_of_find? {m : Match} (found : x.find? p = some m) :
    ∃ t, p.rest = t ++ m.first.rest := by
  have go (rest : Text) (q : Place) (h : q.rest = rest) (found : find?.go x rest q h = some m) :
      ∃ t, q.rest = t ++ m.first.rest := by
    induction rest generalizing q with
    | nil =>
      obtain ⟨-, rfl⟩ := matches_of_matchAt? found
      exact ⟨[], rfl⟩
    | cons c rest ih =>
      rw [find?.go] at found
      split at found
      · next m' here =>
        cases found
        obtain ⟨-, rfl⟩ := matches_of_matchAt? here
        exact ⟨[], rfl⟩
      · obtain ⟨t, below⟩ := ih _ _ found
        exact ⟨c :: t, by rw [h, List.cons_append, ← below]; rfl⟩
  exact go p.rest p rfl found

/-- All that is found from a place on starts after it. -/
theorem first_of_mem_findAll {m : Match} (member : m ∈ x.findAll p) :
    ∃ t, p.rest = t ++ m.first.rest := by
  have go (n : Nat) (q : Place) (found : List Match) (below : ∃ t, p.rest = t ++ q.rest)
      (sound : ∀ m ∈ found, ∃ t, p.rest = t ++ m.first.rest) :
      ∀ m ∈ findAll.go x n q found, ∃ t, p.rest = t ++ m.first.rest := by
    induction n generalizing q found with
    | zero =>
      intro m member
      rcases List.mem_append.1 (List.mem_reverse.1 member) with here | member
      · obtain ⟨-, rfl⟩ := matches_of_matchAt? (Option.mem_toList.1 here)
        exact below
      · exact sound m member
    | succ n ih =>
      intro m member
      rw [findAll.go] at member
      split at member
      · exact sound m (List.mem_reverse.1 member)
      · next m' here =>
        obtain ⟨t, before⟩ := below
        obtain ⟨t', first⟩ := first_of_find? here
        have last := (matches_of_find? here).1
        have sound' : ∀ m ∈ m' :: found, ∃ t, p.rest = t ++ m.first.rest :=
          List.forall_mem_cons.2 ⟨⟨t ++ t', by rw [before, first, List.append_assoc]⟩, sound⟩
        have after : p.rest = t ++ t' ++ m'.text ++ m'.last.rest := by
          rw [before, first, last]
          simp only [List.append_assoc]
        split at member
        · exact ih _ _ ⟨_, after⟩ sound' m member
        · split at member
          · exact sound' m (List.mem_reverse.1 member)
          · next q' next =>
            obtain ⟨c, passed⟩ : ∃ c, m'.last.rest = c :: q'.rest := by
              rw [Place.next?] at next
              split at next
              · cases next
              · next c rest same =>
                cases next
                exact ⟨c, same⟩
            refine ih _ _ ⟨t ++ t' ++ m'.text ++ [c], ?_⟩ sound' m member
            rw [after, passed, List.append_assoc _ [c]]
            rfl
  exact go p.size p [] ⟨[], rfl⟩ (List.forall_mem_nil _) m member

/-- A character that all readings of a pattern hold has to be there where the pattern is found. -/
theorem find?_eq_none {c : Char} (holds : ∀ t rec, x.Reads t rec → c ∈ t) (missing : c ∉ p.rest) :
    x.find? p = none := by
  rw [Option.eq_none_iff_forall_ne_some]
  intro m found
  obtain ⟨t, below⟩ := first_of_find? found
  obtain ⟨rest, reads⟩ := matches_of_find? found
  refine missing ?_
  rw [below, rest]
  exact List.mem_append_right _ (List.mem_append_left _ (holds _ _ reads))

theorem matchAt?_eq_none_of_find? (nowhere : x.find? p = none) : x.matchAt? p = none := by
  cases here : x.matchAt? p with
  | none => rfl
  | some m =>
    rw [find?_of_matchAt? here] at nowhere
    cases nowhere

/-- A text has one match if after the first that is found there is no other. -/
theorem all_eq_singleton {text : Text} {m : Match} (found : x.find text = some m)
    (long : m.last.size < m.first.size) (others : x.find? m.last = none) : x.all text = [m] := by
  have after (n : Nat) : findAll.go x n m.last [m] = [m] := by
    cases n with
    | zero => rw [findAll.go, matchAt?_eq_none_of_find? others]; rfl
    | succ n => rw [findAll.go, others]; rfl
  have go (n : Nat) (enough : text.length = n) : findAll.go x n (start text) [] = [m] := by
    cases n with
    | zero =>
      obtain rfl : text = [] := List.length_eq_zero_iff.1 enough
      have here : x.matchAt? (start []) = some m := found
      rw [findAll.go, here]
      rfl
    | succ n =>
      rw [findAll.go, show x.find? (start text) = some m from found]
      simp only [long, if_true]
      exact after n
  exact go text.length rfl

end Pattern

end CodeSurvey
