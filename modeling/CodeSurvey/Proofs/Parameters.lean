import CodeSurvey.Proofs.Replacement
import CodeSurvey.Proofs.Words
import CodeSurvey.Routes.Pages

/-!
# Parameters of routes

In the path of a page a parameter stands in brackets, in its route after a colon. `Translates` says
what becomes of a text from left to right: the longest parameter that starts at a place is replaced
by its name, and a character at which none starts is kept. There is exactly one such translation,
and `Routes.withParameters` gives it (`Routes.translates_iff`). No parameter holds a slash, so a
path is translated segment by segment (`Translates.append_slash`).
-/

namespace CodeSurvey

/-! ## Parameters as they are written -/

/-- A parameter with its name: the name in brackets, or after three dots in brackets of which each
may be doubled. -/
inductive IsParameter : Text → Text → Prop where
  | single {name : Text} (isName : IsName name) : IsParameter ('[' :: (name ++ [']'])) name
  | several {opening name closing : Text} (opens : opening = ['['] ∨ opening = ['[', '['])
      (isName : IsName name) (closes : closing = [']'] ∨ closing = [']', ']']) :
      IsParameter (opening ++ ("...".toList ++ (name ++ closing))) name

/-- What a text becomes, from left to right, when each parameter gives way to a colon and its
name. -/
inductive Translates : Text → Text → Prop where
  | nil : Translates [] []
  | parameter {s name rest out : Text} (isParameter : IsParameter s name)
      (longest : ∀ s' name', IsParameter s' name' → s' <+: s ++ rest → s'.length ≤ s.length)
      (later : Translates rest out) : Translates (s ++ rest) (':' :: (name ++ out))
  | other {c : Char} {rest out : Text} (none : ∀ s name, IsParameter s name → ¬ s <+: c :: rest)
      (later : Translates rest out) : Translates (c :: rest) (c :: out)

namespace IsParameter

variable {s name : Text}

theorem isName (h : IsParameter s name) : IsName name := by
  cases h <;> assumption

/-- What stands before the name holds no word character, and what follows its closing bracket is
nothing or another one. -/
theorem exists_parts (h : IsParameter s name) : ∃ front tail, s = front ++ (name ++ ']' :: tail) ∧
    (∀ c ∈ front, isWord c = false) ∧ (tail = [] ∨ tail = [']'] ∧ front ≠ ['[']) := by
  cases h with
  | single isName => exact ⟨['['], [], rfl, by decide, .inl rfl⟩
  | several opens isName closes =>
    rcases opens with rfl | rfl <;> rcases closes with rfl | rfl
    · exact ⟨"[...".toList, [], rfl, by decide, .inl rfl⟩
    · exact ⟨"[...".toList, [']'], rfl, by decide, .inr ⟨rfl, by decide⟩⟩
    · exact ⟨"[[...".toList, [], rfl, by decide, .inl rfl⟩
    · exact ⟨"[[...".toList, [']'], rfl, by decide, .inr ⟨rfl, by decide⟩⟩

theorem name_eq (h : IsParameter s name) : name = s.filter isWord := by
  obtain ⟨front, tail, rfl, wordless, ends⟩ := h.exists_parts
  have noneBefore : front.filter isWord = [] :=
    List.filter_eq_nil_iff.2 fun c member => by simp [wordless c member]
  have noneAfter : (']' :: tail).filter isWord = [] := by
    rcases ends with rfl | ⟨rfl, -⟩ <;> rfl
  have all : name.filter isWord = name := List.filter_eq_self.2 h.isName.2
  rw [List.filter_append, List.filter_append, noneBefore, noneAfter, all, List.append_nil]
  rfl

theorem starts (h : IsParameter s name) : ∃ rest, s = '[' :: rest := by
  cases h with
  | single isName => exact ⟨_, rfl⟩
  | several opens isName closes => rcases opens with rfl | rfl <;> exact ⟨_, rfl⟩

theorem ends (h : IsParameter s name) : s.getLast? = some ']' := by
  cases h with
  | single isName => rw [← List.cons_append, List.getLast?_concat]
  | several opens isName closes =>
    have closed {closing : Text} (before : Text) (closes : closing = [']'] ∨ closing = [']', ']']) :
        (before ++ closing).getLast? = some ']' := by
      rcases closes with rfl | rfl
      · exact List.getLast?_concat
      · rw [List.append_cons, List.getLast?_concat]
    rw [← List.append_assoc, ← List.append_assoc]
    exact closed _ closes

theorem not_mem_slash (h : IsParameter s name) : '/' ∉ s := by
  have inName : '/' ∉ name := fun member => absurd (h.isName.2 _ member) (by decide)
  cases h with
  | single isName => simp [inName]
  | several opens isName closes =>
    rcases opens with rfl | rfl <;> rcases closes with rfl | rfl <;> simp [inName]

end IsParameter

/-! ### Parameters at one place -/

/-- A parameter where it is known how one starts ends at the closing bracket or at the one after
it. -/
theorem IsParameter.length_le {front name rest s' name' : Text} (h : IsParameter s' name')
    (wordless : ∀ c ∈ front, isWord c = false) (isName : IsName name)
    (inFront : s' <+: front ++ (name ++ ']' :: rest)) :
    s'.length ≤ front.length + name.length + 1 ∨
      rest.head? = some ']' ∧ front ≠ ['['] ∧ s'.length = front.length + name.length + 2 := by
  obtain ⟨r, whole⟩ := inFront
  obtain ⟨front', tail', rfl, wordless', ends⟩ := h.exists_parts
  have starts {name rest : Text} (isName : IsName name) :
      ∀ c, (name ++ ']' :: rest).head? = some c → (!isWord c) = false := by
    obtain ⟨c, name, rfl⟩ := List.exists_cons_of_ne_nil isName.1
    intro c' first
    cases first
    simp [isName.2 c (.head _)]
  have stops {rest : Text} : ∀ c, (']' :: rest).head? = some c → isWord c = false := by
    intro c first
    cases first
    decide
  have regroup : front' ++ (name' ++ ']' :: (tail' ++ r)) = front ++ (name ++ ']' :: rest) := by
    rw [← whole]
    simp
  obtain ⟨rfl, inner⟩ := Text.append_inj_of_stop (fun c => !isWord c)
    (fun c member => by simp [wordless' c member]) (fun c member => by simp [wordless c member])
    (starts h.isName) (starts isName) regroup
  obtain ⟨rfl, closing⟩ := Text.append_inj_of_stop isWord h.isName.2 isName.2 stops stops inner
  obtain rfl := (List.cons.inj closing).2
  rcases ends with rfl | ⟨rfl, notSingle⟩
  · left
    simp only [List.length_append, List.length_cons, List.length_nil]
    omega
  · right
    refine ⟨rfl, notSingle, ?_⟩
    simp only [List.length_append, List.length_cons, List.length_nil]
    omega

/-! ## Translations -/

namespace Translates

variable {s t t' out out' : Text}

/-- There is at most one translation. -/
theorem unique (first : Translates s t) (second : Translates s t') : t = t' := by
  induction first generalizing t' with
  | nil =>
    generalize empty : ([] : Text) = s at second
    cases second with
    | nil => rfl
    | @parameter s name rest out isParameter longest later =>
      obtain ⟨_, rfl⟩ := isParameter.starts
      cases empty
    | other none later => cases empty
  | @parameter s name rest out isParameter longest later ih =>
    generalize whole : s ++ rest = text at second
    cases second with
    | nil =>
      obtain ⟨_, rfl⟩ := isParameter.starts
      cases whole
    | @parameter s' name' rest' out' isParameter' longest' later' =>
      have le := longest' s name isParameter ⟨rest, whole⟩
      have ge := longest s' name' isParameter' ⟨rest', whole.symm⟩
      obtain ⟨rfl, rfl⟩ := List.append_inj whole (Nat.le_antisymm le ge)
      rw [isParameter.name_eq, isParameter'.name_eq, ih later']
    | other none later' => exact absurd ⟨rest, whole⟩ (none s name isParameter)
  | @other c rest out none later ih =>
    generalize whole : c :: rest = text at second
    cases second with
    | nil => cases whole
    | @parameter s' name' rest' out' isParameter' longest' later' =>
      exact absurd ⟨rest', whole.symm⟩ (none s' name' isParameter')
    | other none' later' =>
      obtain ⟨rfl, rfl⟩ := List.cons.inj whole
      rw [ih later']

/-- Texts that no parameter joins are translated each for itself. -/
theorem append (first : Translates s out) (second : Translates t out')
    (apart : ∀ u s' name, IsParameter s' name → s' <+: u ++ t → s' <+: u) :
    Translates (s ++ t) (out ++ out') := by
  induction first with
  | nil => exact second
  | @parameter s name rest out isParameter longest later ih =>
    rw [List.append_assoc, List.cons_append, List.append_assoc]
    refine .parameter isParameter (fun s' name' h inFront => ?_) ih
    rw [← List.append_assoc] at inFront
    exact longest s' name' h (apart _ s' name' h inFront)
  | @other c rest out none later ih =>
    exact .other (fun s' name h inFront => none s' name h (apart (c :: rest) s' name h inFront)) ih

/-- Two texts on either side of a slash are translated each for itself. -/
theorem append_slash (first : Translates s out) (second : Translates t out') :
    Translates (s ++ '/' :: t) (out ++ '/' :: out') := by
  refine first.append (.other (fun s' name h inFront => ?_) second) fun u s' name h inFront => ?_
  · obtain ⟨_, rfl⟩ := h.starts
    exact absurd (List.cons_prefix_cons.1 inFront).1 (by decide)
  · exact Text.prefix_of_not_mem h.not_mem_slash inFront

/-- A text without brackets after another is left as it is. -/
theorem append_plain (first : Translates s out) (plain : ∀ c ∈ t, c ≠ '[' ∧ c ≠ ']') :
    Translates (s ++ t) (out ++ t) := by
  have self (t : Text) (plain : ∀ c ∈ t, c ≠ '[' ∧ c ≠ ']') : Translates t t := by
    induction t with
    | nil => exact .nil
    | cons c t ih =>
      obtain ⟨here, later⟩ := List.forall_mem_cons.1 plain
      refine .other (fun s' name h inFront => ?_) (ih later)
      obtain ⟨_, rfl⟩ := h.starts
      exact here.1 (List.cons_prefix_cons.1 inFront).1.symm
  refine first.append (self t plain) fun u s' name h inFront => ?_
  refine Text.prefix_of_outside (fun v nonempty isPrefix isSuffix => ?_) inFront
  obtain ⟨before, rfl⟩ := isSuffix
  have last := h.ends
  rw [List.getLast?_append_of_ne_nil _ nonempty] at last
  exact (plain ']' (isPrefix.subset (List.mem_of_getLast? last))).2 rfl

/-- A translation has something where the text has. -/
theorem ne_nil (h : Translates s t) (some : s ≠ []) : t ≠ [] := by
  cases h with
  | nil => exact some
  | parameter isParameter longest later => exact List.cons_ne_nil _ _
  | other none later => exact List.cons_ne_nil _ _

/-- A translation has no slash that the text has not. -/
theorem not_mem_slash (h : Translates s t) (none : '/' ∉ s) : '/' ∉ t := by
  induction h with
  | nil => exact none
  | @parameter s name rest out isParameter longest later ih =>
    have inName : '/' ∉ name := fun member => absurd (isParameter.isName.2 _ member) (by decide)
    have inRest := ih fun member => none (List.mem_append_right s member)
    simp [inName, inRest]
  | @other c rest out noParameter later ih =>
    obtain ⟨here, after⟩ := not_or.1 (mt List.mem_cons.2 none)
    exact List.not_mem_cons_of_ne_of_not_mem here (ih after)

end Translates

namespace Routes

open Pattern Place

/-! ## The pattern -/

/-- The name of the parameter that was read. -/
def nameIn (m : Match) : Text := (m.group? 1).getD (m.group 2)

theorem parameter_reads {t : Text} {rec : List (Nat × Text)} (reads : parameter.Reads t rec) :
    ∃ name, IsParameter t name ∧ (rec.lookup 1).getD ((rec.lookup 2).getD []) = name := by
  cases reads with
  | left several =>
    obtain ⟨_, _, _, _, upToDouble, last, rfl, rfl⟩ := reads_seq_iff.1 several
    obtain ⟨_, _, _, _, upToName, double, rfl, rfl⟩ := reads_seq_iff.1 upToDouble
    obtain ⟨_, _, name, _, upToDots, isName, rfl, rfl⟩ := reads_seq_iff.1 upToName
    obtain ⟨_, _, _, _, opening, dots, rfl, rfl⟩ := reads_seq_iff.1 upToDots
    obtain ⟨_, _, _, _, first, second, rfl, rfl⟩ := reads_seq_iff.1 opening
    obtain ⟨_, named, rfl⟩ := reads_group_iff.1 isName
    obtain ⟨word, long, rfl⟩ := reads_many_iff.1 named
    cases last
    cases dots
    cases first
    have isName : IsName name := ⟨List.ne_nil_of_length_pos long, word⟩
    refine ⟨name, ?_, ?_⟩
    · cases second with
      | left second =>
        cases second
        cases double with
        | left double => cases double; simpa using IsParameter.several (.inr rfl) isName (.inr rfl)
        | right double => cases double; simpa using IsParameter.several (.inr rfl) isName (.inl rfl)
      | right second =>
        cases second
        cases double with
        | left double => cases double; simpa using IsParameter.several (.inl rfl) isName (.inr rfl)
        | right double => cases double; simpa using IsParameter.several (.inl rfl) isName (.inl rfl)
    · cases double with
      | left double => cases double; rfl
      | right double => cases double; rfl
  | right single =>
    obtain ⟨_, _, _, _, upToName, last, rfl, rfl⟩ := reads_seq_iff.1 single
    obtain ⟨_, _, name, _, first, isName, rfl, rfl⟩ := reads_seq_iff.1 upToName
    obtain ⟨_, named, rfl⟩ := reads_group_iff.1 isName
    obtain ⟨word, long, rfl⟩ := reads_many_iff.1 named
    cases last
    cases first
    exact ⟨name, .single ⟨List.ne_nil_of_length_pos long, word⟩, rfl⟩

theorem isParameter_of_matches {m : Match} (found : parameter.Matches m) :
    IsParameter m.text (nameIn m) := by
  obtain ⟨name, isParameter, rfl⟩ := parameter_reads found.2
  rwa [nameIn, Match.group, Match.group?, Match.group?, ← Groups.lookup_texts,
    ← Groups.lookup_texts]

/-- What is read of a name after dots goes on after its first bracket with a mark. -/
theorem reads_dots {t : Text} {rec : List (Nat × Text)} (reads :
    ("[" ++ opt "[" ++ "..." ++ group 1 word ++ opt "]" ++ "]" : Pattern).Reads t rec) :
    ∃ c after, t = '[' :: c :: after ∧ isWord c = false := by
  obtain ⟨_, _, _, _, upToDouble, -, rfl, -⟩ := reads_seq_iff.1 reads
  obtain ⟨_, _, _, _, upToName, -, rfl, -⟩ := reads_seq_iff.1 upToDouble
  obtain ⟨_, _, _, _, upToDots, -, rfl, -⟩ := reads_seq_iff.1 upToName
  obtain ⟨_, _, _, _, opening, dots, rfl, -⟩ := reads_seq_iff.1 upToDots
  obtain ⟨_, _, _, _, first, second, rfl, -⟩ := reads_seq_iff.1 opening
  cases first
  cases dots
  cases second with
  | left second =>
    cases second
    exact ⟨'[', _, rfl, by decide⟩
  | right second =>
    cases second
    exact ⟨'.', _, rfl, by decide⟩

/-- The closing brackets of a name after dots are read to the second, if there is one. -/
theorem closing_offers (previous : Option Char) (rest : Text) (g : Groups) : ∃ closing after,
    ']' :: rest = closing ++ after ∧ (opt "]" ++ "]").Offers (between previous (']' :: rest)) g
      (between (some ']') after) g ∧
    (rest.head? = some ']' → closing.length = 2) ∧ 1 ≤ closing.length := by
  by_cases double : rest.head? = some ']'
  · obtain ⟨after, rfl⟩ := List.head?_eq_some_iff.1 double
    have second : (lit "]".toList).Offers (between (some ']') (']' :: after)) g
        (between (some ']') after) g := offers_lit _ [']'] _
    exact ⟨[']', ']'], after, rfl, (Offers.left (offers_lit _ [']'] _)).seq second, fun _ => rfl,
      by decide⟩
  · refine ⟨[']'], rest, rfl, ?_, fun head => absurd head double, by decide⟩
    intro α accept a accepted
    have first := @offers_lit g previous [']'] rest
    -- The pattern turns back from the second bracket, as there is none.
    have refused : (lit "]".toList).run (between (some ']') rest) g accept = none := by
      cases rest with
      | nil => rfl
      | cons c rest =>
        have other : c ≠ ']' := by
          rintro rfl
          exact double rfl
        exact refuses_lit other _ _ _ accept
    have back : (lit "]".toList).run (between previous (']' :: rest)) g
        (fun q g => (lit "]".toList).run q g accept) = none := refused
    show (opt "]").run (between previous (']' :: rest)) g
      (fun q g => (lit "]".toList).run q g accept) = some a
    unfold opt
    rw [run_alt, back]
    exact first accepted

/-- A name after dots is read with its closing brackets. -/
theorem several_offers {opening name : Text} (opens : opening = ['['] ∨ opening = ['[', '['])
    (isName : IsName name) (previous : Option Char) (rest : Text) : ∃ closing after groups,
    ']' :: rest = closing ++ after ∧
    parameter.Offers (between previous (opening ++ ("...".toList ++ (name ++ ']' :: rest)))) []
      (between (some ']') after) groups ∧
    (rest.head? = some ']' → closing.length = 2) ∧ 1 ≤ closing.length := by
  let named := name ++ ']' :: rest
  let dotted := "...".toList ++ named
  have first : ("[" ++ opt "[" : Pattern).Offers (between previous (opening ++ dotted)) []
      (between (some '[') dotted) [] := by
    rcases opens with rfl | rfl
    · have single : Refuses (lit "[".toList) (between (some '[') dotted) [] :=
        refuses_lit (by decide) _ _ _
      exact (offers_lit previous ['['] dotted).seq (.right single offers_empty)
    · exact (offers_lit previous ['['] ('[' :: dotted)).seq (.left (offers_lit _ ['['] dotted))
  have dots : (lit "...".toList).Offers (between (some '[') dotted) [] (between (some '.') named)
      [] := offers_lit _ _ _
  have read : (group 1 word).Offers (between (some '.') named) []
      (between (lastOf (some '.') name) (']' :: rest)) _ :=
    .group (offers_many _ isName.2 (stops_cons (by decide)) (List.length_pos_iff.2 isName.1))
  obtain ⟨closing, after, whole, closes, double, long⟩ := closing_offers
    (lastOf (some '.') name) rest
    [(1, ⟨between (some '.') named, between (lastOf (some '.') name) (']' :: rest)⟩)]
  exact ⟨closing, after, _, whole, .left (((first.seq dots).seq read).seq closes), double, long⟩

/-- A name in brackets is read. -/
theorem single_offers {name : Text} (isName : IsName name) (previous : Option Char) (rest : Text) :
    ∃ groups, parameter.Offers (between previous ('[' :: (name ++ ']' :: rest))) []
      (between (some ']') rest) groups := by
  obtain ⟨n, others, begins⟩ := List.exists_cons_of_ne_nil isName.1
  have inName : isWord n = true := isName.2 n (by rw [begins]; exact .head _)
  -- After the bracket there is neither another one nor a dot, as the name starts there.
  have noDots : Refuses ("[" ++ opt "[" ++ "..." ++ group 1 word ++ opt "]" ++ "]")
      (between previous ('[' :: (name ++ ']' :: rest))) [] := by
    apply refuses_of_reads
    intro t rec reads inFront
    obtain ⟨c, after, rfl, mark⟩ := reads_dots reads
    rw [begins] at inFront
    obtain rfl := (List.cons_prefix_cons.1 (List.cons_prefix_cons.1 inFront).2).1
    rw [inName] at mark
    cases mark
  have read : (group 2 word).Offers (between (some '[') (name ++ ']' :: rest)) []
      (between (lastOf (some '[') name) (']' :: rest)) _ :=
    .group (offers_many _ isName.2 (stops_cons (by decide)) (List.length_pos_iff.2 isName.1))
  exact ⟨_, .right noDots
    (((offers_lit previous ['['] (name ++ ']' :: rest)).seq read).seq (offers_lit _ [']'] rest))⟩

/-- Where a parameter starts, the longest one is read. -/
theorem exists_matchAt?_parameter {s name : Text} (isParameter : IsParameter s name)
    (previous : Option Char) (rest : Text) : ∃ m,
    parameter.matchAt? (between previous (s ++ rest)) = some m ∧
    ∀ s' name', IsParameter s' name' → s' <+: s ++ rest → s'.length ≤ m.text.length := by
  cases isParameter with
  | single isName =>
    have whole : '[' :: (name ++ [']']) ++ rest = '[' :: (name ++ ']' :: rest) := by simp
    rw [whole]
    obtain ⟨groups, offered⟩ := single_offers isName previous rest
    refine ⟨_, matchAt?_of_offers offered, fun s' name' h inFront => ?_⟩
    have text : Match.text ⟨between previous ('[' :: (name ++ ']' :: rest)),
        between (some ']') rest, groups⟩ = '[' :: (name ++ [']']) := upTo_eq whole.symm
    have wordless : ∀ c ∈ ['['], isWord c = false := by decide
    have bound := h.length_le wordless isName inFront
    rw [text]
    rcases bound with short | ⟨-, other, -⟩
    · simp only [List.length_append, List.length_cons, List.length_nil] at short ⊢
      omega
    · exact absurd rfl other
  | @several opening name closing opens isName closes =>
    obtain ⟨rest', closed⟩ : ∃ rest', closing ++ rest = ']' :: rest' := by
      rcases closes with rfl | rfl
      · exact ⟨rest, rfl⟩
      · exact ⟨']' :: rest, rfl⟩
    have whole : opening ++ ("...".toList ++ (name ++ closing)) ++ rest =
        opening ++ ("...".toList ++ (name ++ ']' :: rest')) := by
      rw [← closed]
      simp only [List.append_assoc]
    rw [whole]
    obtain ⟨read, after, groups, same, offered, double, some⟩ :=
      several_offers opens isName previous rest'
    refine ⟨_, matchAt?_of_offers offered, fun s' name' h inFront => ?_⟩
    have text : Match.text ⟨between previous (opening ++ ("...".toList ++ (name ++ ']' :: rest'))),
        between (Option.some ']') after, groups⟩ =
          opening ++ ("...".toList ++ (name ++ read)) := by
      apply upTo_eq
      show opening ++ ("...".toList ++ (name ++ ']' :: rest')) = _
      rw [same]
      simp only [List.append_assoc]
      rfl
    have wordless : ∀ c ∈ opening ++ "...".toList, isWord c = false := by
      rcases opens with rfl | rfl <;> decide
    rw [← List.append_assoc] at inFront
    have bound := h.length_le wordless isName inFront
    rw [text]
    simp only [List.length_append] at bound ⊢
    rcases bound with short | ⟨another, -, long⟩
    · omega
    · have two := double another
      omega

/-! ## The translation that is made -/

theorem translates_replaceFrom (previous : Option Char) (text : Text) :
    Translates text (parameter.replaceFrom (fun m => ':' :: nameIn m) (between previous text)) := by
  induction long : text.length using Nat.strong_induction_on generalizing previous text with
  | h n ih =>
    subst long
    cases here : parameter.matchAt? (between previous text) with
    | none =>
      have noParameter (s name : Text) (isParameter : IsParameter s name) : ¬ s <+: text := by
        rintro ⟨rest, rfl⟩
        obtain ⟨m, found, -⟩ := exists_matchAt?_parameter isParameter previous rest
        rw [here] at found
        cases found
      cases text with
      | nil =>
        rw [replaceFrom_nil here]
        exact .nil
      | cons c rest =>
        rw [replaceFrom_of_none here]
        exact .other noParameter (ih _ (Nat.lt_succ_self _) _ _ rfl)
    | some m =>
      obtain ⟨found, first⟩ := matches_of_matchAt? here
      have isParameter := isParameter_of_matches found
      have whole : text = m.text ++ m.last.rest := by
        rw [← found.1, first]
        rfl
      have starts : 0 < m.text.length := by
        obtain ⟨_, begins⟩ := isParameter.starts
        rw [begins]
        exact Nat.succ_pos _
      have shorter : m.last.rest.length < text.length := by
        rw [whole, List.length_append]
        omega
      have longest (s' name' : Text) (other : IsParameter s' name')
          (inFront : s' <+: m.text ++ m.last.rest) : s'.length ≤ m.text.length := by
        rw [← whole] at inFront
        obtain ⟨rest, rfl⟩ := inFront
        obtain ⟨m', found', bound⟩ := exists_matchAt?_parameter other previous rest
        obtain rfl : m' = m := Option.some.inj (found'.symm.trans here)
        exact bound s' name' other (List.prefix_append ..)
      have later := ih _ shorter m.last.previous m.last.rest rfl
      rw [← m.last.eq_between] at later
      rw [replaceFrom_of_matchAt? here (by rw [m.last.size_eq]; exact shorter)]
      have translated := Translates.parameter isParameter longest later
      rwa [← whole] at translated

theorem translates_withParameters (text : Text) : Translates text (withParameters text) := by
  have made : withParameters text =
      parameter.replaceFrom (fun m => ':' :: nameIn m) (Place.start text) :=
    substitute_eq _ _ _
  rw [made]
  exact translates_replaceFrom none text

/-- Parameters are translated in the one way there is. -/
theorem translates_iff {text out : Text} : Translates text out ↔ withParameters text = out := by
  constructor
  · intro translates
    exact (translates_withParameters text).unique translates
  · rintro rfl
    exact translates_withParameters text

end Routes

end CodeSurvey
