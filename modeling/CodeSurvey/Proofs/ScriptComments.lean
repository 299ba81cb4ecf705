import CodeSurvey.Models.Script
import CodeSurvey.Proofs.Abreast
import CodeSurvey.Proofs.Flattening
import CodeSurvey.Proofs.Lines
import CodeSurvey.Proofs.Reports
import CodeSurvey.Proofs.Splitting
import CodeSurvey.Proofs.Words

/-!
# Comments in TypeScript declarations

The members of a declaration are read from the pieces of its body between commas, semicolons and
line ends outside all brackets. A comment line between them is cut in the same way, so that a part
of it may read as a member; and where a bracket is open it becomes part of a type. When a comment is
kept out, and that it does not matter to where the declaration is found, is
`Models.comment_kept_out_iff`.
-/

namespace CodeSurvey.Models

open Pattern Place

/-! ## Entries with a bracket -/

/-- What a member is read by, up to its type. -/
def memberHead : Pattern :=
  textStart ++ opt ("readonly" ++ blanks1) ++ opt quote ++ group 1 word ++ opt quote ++ blanks ++
    opt "?" ++ blanks ++ ":" ++ blanks

theorem tsMember_eq : tsMember = memberHead ++ group 2 (some1 fun _ => true) ++ textEnd := rfl

theorem memberHead_avoids {o : Char} (bracket : isBracket o = true) : memberHead.Avoids o := by
  have notBlank : isBlank o = false := isBlank_of_apart (by decide +kernel) bracket
  have notWord : isWord o = false := by
    rw [← Bool.not_eq_true]
    intro inWord
    rw [isBracket_of_isWord inWord] at bracket
    cases bracket
  have notQuote : isQuote o = false := by
    rw [← Bool.not_eq_true]
    intro quotes
    simp only [isQuote, Bool.or_eq_true, beq_iff_eq] at quotes
    rcases quotes with rfl | rfl <;> cases bracket
  have start : textStart.Avoids o := by
    rintro s s' _ _ ⟨t, -, previous, rfl, rfl⟩
    rfl
  have other (word : Text) (noBracket : ∀ c ∈ word, isBracket c = false) : (lit word).Avoids o := by
    intro member
    rw [noBracket o member] at bracket
    cases bracket
  exact ⟨⟨⟨⟨⟨⟨⟨⟨⟨start, ⟨other _ (by decide), notBlank⟩, trivial⟩, notQuote, trivial⟩, notWord⟩,
    notQuote, trivial⟩, notBlank⟩, other _ (by decide), trivial⟩, notBlank⟩, other _ (by decide)⟩,
    notBlank⟩

/-- After the head of a member all that follows is its type. -/
theorem type_offers {r : Text} (some : r ≠ []) (previous : Option Char) (g : Groups) :
    (group 2 (some1 fun _ => true) ++ textEnd).Offers (between previous r) g
      (between (lastOf previous r) [])
      ((2, ⟨between previous r, between (lastOf previous r) []⟩) :: g) := by
  have read : (some1 fun _ => true).Offers (between previous (r ++ [])) g
      (between (lastOf previous r) []) g :=
    offers_many previous (fun _ _ => rfl) stops_nil (List.length_pos_iff.2 some)
  rw [List.append_nil] at read
  exact read.group.seq (offers_test rfl)

/-- Whether two matches recorded the same name, and types that are alike but for `y` and `y'` at
their ends. -/
def SameMember (y y' : Text) (m m' : Match) : Prop :=
  m.string 1 = m'.string 1 ∧ ∃ u, m.group 2 = u ++ y ∧ m'.group 2 = u ++ y'

theorem tsMember_abreast {t : Text} {o : Char} (bracket : isBracket o = true) (has : o ∈ t)
    (y y' : Text) : Option.Rel (SameMember y y') (tsMember.matchAt? (start (t ++ y)))
      (tsMember.matchAt? (start (t ++ y'))) := by
  let typed (r : Text) (q : Place) (g : Groups) : Option Match :=
    (group 2 (some1 fun _ => true) ++ textEnd).run q g fun q g => some ⟨start (t ++ r), q, g⟩
  have run : Option.Rel (SameMember y y') (memberHead.run (start (t ++ y)) [] (typed y))
      (memberHead.run (start (t ++ y')) [] (typed y')) := by
    refine run_abreast (memberHead_avoids bracket) ⟨t, has, none, rfl, rfl⟩ .nil
      fun q q' g g' alike groups => ?_
    obtain ⟨u, hasBracket, previous, rfl, rfl⟩ := alike
    have read (r : Text) (g : Groups) : ∃ m, typed r (between previous (u ++ r)) g = some m ∧
        m.group? 1 = (g.lookup 1).map Span.text ∧ m.group 2 = u ++ r := by
      have nonempty : u ++ r ≠ [] :=
        List.append_ne_nil_of_left_ne_nil (List.ne_nil_of_mem hasBracket) r
      refine ⟨_, type_offers nonempty previous g rfl, rfl, ?_⟩
      show (between previous (u ++ r)).upTo _ = _
      exact upTo_eq (List.append_nil _).symm
    obtain ⟨m, found, name, type⟩ := read y g
    obtain ⟨m', found', name', type'⟩ := read y' g'
    have same : m.string 1 = m'.string 1 := by
      rw [Match.string, Match.string, Match.group, Match.group, name, name', groups.lookup]
    rw [found, found']
    exact .some ⟨same, u, type, type'⟩
  rw [tsMember_eq]
  exact run

/-- The type of a member as it is reported. -/
def typeText (text : Text) : String :=
  if text.trim = ['{', '}'] then "object" else String.ofList text.trim

/-- The marks by which a comment is told start no text with a bracket in them. -/
theorem startsWithAny_bracket {o : Char} (bracket : isBracket o = true) (k y : Text) :
    startsWithAny ["//", "/*", "*"] (k ++ o :: y) = startsWithAny ["//", "/*", "*"] k := by
  have noBracket : ∀ mark ∈ ["//", "/*", "*"], ∀ c ∈ Text.of mark, isBracket c = false := by decide
  unfold startsWithAny
  rw [Bool.eq_iff_iff, List.any_eq_true, List.any_eq_true]
  refine exists_congr fun mark => and_congr_right fun member => ?_
  rw [List.isPrefixOf_iff_prefix, List.isPrefixOf_iff_prefix]
  refine ⟨Text.prefix_of_not_mem fun inMark => ?_,
    fun inFront => inFront.trans (List.prefix_append ..)⟩
  rw [noBracket mark member o inMark] at bracket
  cases bracket

/-- What is read from an entry is told up to a bracket in it, but for the end of the type. -/
theorem exists_tsEntryField {o : Char} (bracket : isBracket o = true) (k : Text) :
    (∀ y, tsEntryField (k ++ o :: y) = []) ∨
      ∃ name u, ∀ y, tsEntryField (k ++ o :: y) = [⟨name, typeText (u ++ y)⟩] := by
  have opened (y : Text) : tsEntryField (k ++ o :: y) =
      if startsWithAny ["//", "/*", "*"] k then []
      else (tsMember.matchAt? (start (k ++ [o] ++ y))).elim []
        fun m => [⟨m.string 1, typeText (m.group 2)⟩] := by
    rw [← startsWithAny_bracket bracket k y, ← List.append_cons]
    unfold tsEntryField
    split
    · rfl
    · cases tsMember.matchAt? (start (k ++ o :: y)) <;> rfl
  by_cases isComment : startsWithAny ["//", "/*", "*"] k = true
  · exact .inl fun y => by rw [opened, if_pos isComment]
  · have has : o ∈ k ++ [o] := List.mem_append_right _ (.head _)
    have alike (y : Text) := tsMember_abreast bracket has y []
    cases shortest : tsMember.matchAt? (start (k ++ [o] ++ [])) with
    | none =>
      refine .inl fun y => ?_
      have related := alike y
      rw [shortest] at related
      rw [opened, if_neg isComment]
      generalize tsMember.matchAt? (start (k ++ [o] ++ y)) = found at related
      cases related
      rfl
    | some m =>
      refine .inr ⟨m.string 1, m.group 2, fun y => ?_⟩
      have related := alike y
      rw [shortest] at related
      rw [opened, if_neg isComment]
      generalize tsMember.matchAt? (start (k ++ [o] ++ y)) = found at related
      cases related with
      | @some m' _ same =>
        obtain ⟨same, u, type, type'⟩ := same
        rw [List.append_nil] at type'
        show [(⟨m'.string 1, typeText (m'.group 2)⟩ : Field)] = _
        rw [same, type, type']

/-! ## Bodies -/

/-- What is read from the pieces of a text. -/
def readMembers (text : Text) : List Field :=
  (pieces isEntrySeparator 0 text).flatMap fun piece => tsEntryField piece.trim

theorem tsFields_eq {body : Text} (bare : IsBare '{' '}' body) :
    tsFields body = readMembers body := by
  have flat : flattenNested '{' '}' body = body := by
    have kept := @keptOf_append '{' '}' body bare.1 []
    rw [List.append_nil, keptOf_nil, List.append_nil] at kept
    exact kept
  rw [tsFields, flat]
  exact flatMap_splitTopLevel rfl body

/-- A comment line. -/
def commentLine (indent note : Text) : Text := indent ++ ('/' :: '/' :: note)

/-- What may be written in a comment line. -/
def IsNote (note : Text) : Prop := ∀ c ∈ note, isBracket c = false ∧ c ≠ '\n'

instance : DecidablePred IsNote := fun note =>
  inferInstanceAs (Decidable (∀ c ∈ note, isBracket c = false ∧ c ≠ '\n'))

/-- White space within a line neither opens nor closes nor separates anything. -/
theorem isInert_of_isGap {gap : Text} (isGap : IsGap gap) :
    ∀ c ∈ gap, isBracket c = false ∧ isEntrySeparator c = false := by
  intro c member
  refine ⟨isGap.isBracket c member, ?_⟩
  rw [← Bool.not_eq_true]
  intro separates
  simp only [isEntrySeparator, Bool.or_eq_true, beq_iff_eq] at separates
  obtain ⟨blank, within⟩ := isGap c member
  rcases separates with (rfl | rfl) | rfl
  · cases blank
  · cases blank
  · cases within

theorem commentLine_others {indent note : Text} (isGap : IsGap indent) (isNote : IsNote note) :
    ∀ c ∈ commentLine indent note, isBracket c = false := by
  rw [commentLine, List.forall_mem_append, List.forall_mem_cons, List.forall_mem_cons]
  exact ⟨isGap.isBracket, rfl, rfl, fun c member => (isNote c member).1⟩

/-- A comment is no member. -/
theorem tsEntryField_comment {indent : Text} (isGap : IsGap indent) (rest : Text) :
    tsEntryField (Text.trim (commentLine indent rest)) = [] := by
  have visible : isBlank '/' = false := rfl
  have lead : indent.dropWhile isBlank = [] :=
    List.dropWhile_eq_nil_iff.2 isGap.isBlank
  have slash : List.rdropWhile isBlank ('/' :: rest) = '/' :: List.rdropWhile isBlank rest :=
    Text.rdropWhile_append_cons visible [] rest
  rw [commentLine, Text.trim, Text.trimBy_append_cons visible, lead, slash]
  rfl

section
variable {indent note : Text} (isGap : IsGap indent) (isNote : IsNote note) {before : Text}
  (after : Text)

theorem readMembers_line (closed : depthOver 0 before = 0) :
    readMembers (before ++ '\n' :: after) = readMembers before ++ readMembers after := by
  have lineEnd : depthAfter (depthOver 0 before) '\n' = 0 := by
    rw [closed]
    rfl
  rw [readMembers, pieces_append_separator rfl lineEnd, List.flatMap_append]
  rfl

include isGap isNote

/-- Where all brackets are closed, the parts of a comment are read like those of any line, but for
the first. -/
theorem readMembers_comment (closed : depthOver 0 before = 0) :
    readMembers (before ++ '\n' :: (commentLine indent note ++ '\n' :: after)) =
      readMembers before ++ (((Text.splitOn note isEntrySeparator).tail.flatMap
        fun part => tsEntryField part.trim) ++ readMembers after) := by
  have level := depthOver_others (commentLine_others isGap isNote) 0
  rw [readMembers_line _ closed, readMembers_line _ level]
  congr 2
  have mark : ∀ c ∈ indent ++ ['/', '/'], isBracket c = false ∧ isEntrySeparator c = false := by
    rw [List.forall_mem_append]
    exact ⟨isInert_of_isGap isGap, by decide⟩
  have uncut : Uncut isEntrySeparator 0 (indent ++ ['/', '/']) :=
    uncut_of_forall fun c member => (mark c member).2
  have stays : depthOver 0 (indent ++ ['/', '/']) = 0 :=
    depthOver_others (fun c member => (mark c member).1) 0
  have whole : commentLine indent note = indent ++ ['/', '/'] ++ note := by
    rw [commentLine, List.append_assoc]
    rfl
  rw [readMembers, whole, pieces_append uncut, stays,
    pieces_eq_splitOn fun c member => (isNote c member).1]
  cases Text.splitOn note isEntrySeparator with
  | nil => rfl
  | cons first others =>
    have comment : tsEntryField (Text.trim (indent ++ ['/', '/'] ++ first)) = [] := by
      rw [List.append_assoc]
      exact tsEntryField_comment isGap first
    rw [List.modifyHead_cons, List.flatMap_cons, comment]
    rfl

end

/-! ### Inside brackets -/

theorem exists_bracket {depth : Nat} {text : Text} (opened : depthOver depth text ≠ depth) :
    ∃ k o tail, text = k ++ o :: tail ∧ isBracket o = true := by
  by_contra none
  refine opened (depthOver_others (fun c member => ?_) depth)
  rw [← Bool.not_eq_true]
  intro bracket
  obtain ⟨k, tail, rfl⟩ := List.append_of_mem member
  exact none ⟨k, c, tail, rfl, bracket⟩

/-- Of an entry with a bracket in it, which is no member or one whatever follows, the type goes on
with what follows. -/
theorem exists_open_entry {entry : Text} (opened : depthOver 0 entry ≠ 0) :
    (∀ z, tsEntryField (entry ++ z).trim = []) ∨
      ∃ name v, ∀ z, ∃ type, tsEntryField (entry ++ z).trim = [⟨name, typeText type⟩] ∧
        type.visible = v ++ z.visible := by
  obtain ⟨k, o, tail, rfl, bracket⟩ := exists_bracket opened
  have kept : isBlank o = false := isBlank_of_apart (by decide +kernel) bracket
  have trimmed (z : Text) : Text.trim (k ++ o :: tail ++ z) =
      k.dropWhile isBlank ++ o :: List.rdropWhile isBlank (tail ++ z) := by
    rw [List.append_assoc]
    exact Text.trimBy_append_cons kept k (tail ++ z)
  rcases exists_tsEntryField bracket (k.dropWhile isBlank) with none | ⟨name, u, each⟩
  · exact .inl fun z => by rw [trimmed, none]
  · refine .inr ⟨name, u.visible ++ Text.visible tail, fun z => ⟨_, by rw [trimmed, each], ?_⟩⟩
    rw [Text.visible_append, Text.visible_rdropWhile, Text.visible_append, List.append_assoc]

/-- A type with a slash differs from any with fewer visible characters. -/
theorem typeText_ne {type type' : Text} (slash : '/' ∈ type.visible)
    (shorter : type'.visible.length < type.visible.length) : typeText type ≠ typeText type' := by
  have inType : '/' ∈ type.trim := by
    rw [← Text.visible_trim] at slash
    exact (List.mem_filter.1 slash).1
  have plain : typeText type = String.ofList type.trim := by
    refine if_neg fun braces => ?_
    rw [braces] at inType
    exact absurd inType (by decide)
  rw [plain, typeText]
  split
  · intro same
    have object : type.trim = "object".toList := by
      rw [← same, String.toList_ofList]
    rw [object] at inType
    exact absurd inType (by decide)
  · intro same
    have visible := congrArg (fun t => (Text.visible t).length) (String.ofList_inj.1 same)
    simp only [Text.visible_trim] at visible
    omega

/-- The comment becomes part of the type of a member that is still open. -/
theorem tsEntryField_open_iff {entry indent note : Text} (opened : depthOver 0 entry ≠ 0)
    (rest : Text) :
    tsEntryField (entry ++ '\n' :: (commentLine indent note ++ '\n' :: rest)).trim =
        tsEntryField (entry ++ '\n' :: rest).trim ↔ tsEntryField entry.trim = [] := by
  rcases exists_open_entry opened with none | ⟨name, v, each⟩
  · have bare := none []
    rw [List.append_nil] at bare
    exact iff_of_true ((none _).trans (none _).symm) bare
  · obtain ⟨type, read, visible⟩ := each ('\n' :: (commentLine indent note ++ '\n' :: rest))
    obtain ⟨type', read', visible'⟩ := each ('\n' :: rest)
    obtain ⟨type'', read'', -⟩ := each []
    rw [List.append_nil] at read''
    rw [read, read', read'']
    refine iff_of_false (fun same => ?_) nofun
    have comment : Text.visible ('\n' :: (commentLine indent note ++ '\n' :: rest)) =
        indent.visible ++ ('/' :: '/' :: (note.visible ++ Text.visible ('\n' :: rest))) := by
      show Text.visible (['\n'] ++ (commentLine indent note ++ '\n' :: rest)) = _
      rw [commentLine, Text.visible_append, Text.visible_append, Text.visible_append]
      show indent.visible ++ Text.visible (['/', '/'] ++ note) ++ _ = _
      rw [Text.visible_append, List.append_assoc]
      rfl
    rw [comment] at visible
    have slash : '/' ∈ type.visible := by
      rw [visible]
      simp
    have shorter : type'.visible.length < type.visible.length := by
      rw [visible, visible']
      simp only [List.length_append, List.length_cons]
      omega
    have sameType : typeText type = typeText type' := by injection (List.cons.inj same).1
    exact typeText_ne slash shorter sameType

/-- Inside brackets, lines without brackets go on with the entry that is open. -/
theorem exists_readMembers_inside {before : Text} (opened : depthOver 0 before ≠ 0) (after : Text) :
    ∃ entry next earlier later, (pieces isEntrySeparator 0 before).getLast? = some entry ∧
      depthOver 0 entry ≠ 0 ∧ ∀ lines : Text, (∀ c ∈ lines, isBracket c = false) →
        readMembers (before ++ (lines ++ after)) =
          earlier ++ (tsEntryField (Text.trim (entry ++ (lines ++ next))) ++ later) := by
  obtain ⟨whole, entry, same, level, goesOn⟩ := exists_open_piece isEntrySeparator 0 before
  obtain ⟨next, others, rest, -⟩ :=
    exists_pieces isEntrySeparator (depthOver 0 before) after
  rw [ite_self] at level
  let read (piece : Text) : List Field := tsEntryField piece.trim
  refine ⟨entry, next, whole.flatMap read, others.flatMap read,
    by rw [same, List.getLast?_concat], by rwa [← level], fun lines noBracket => ?_⟩
  have inner : pieces isEntrySeparator (depthOver 0 before) (lines ++ after) =
      (lines ++ next) :: others := by
    rw [pieces_append (uncut_of_inside opened noBracket), depthOver_others noBracket, rest,
      List.modifyHead_cons]
  rw [readMembers, goesOn, inner, List.modifyHead_cons, List.flatMap_append, List.flatMap_cons]

/-- A body of lines with a comment line between two of them. -/
def commentedBody (before indent note after : Text) : Text :=
  before ++ '\n' :: (commentLine indent note ++ '\n' :: after)

section
variable {before after indent note : Text} (bare : IsBare '{' '}' before)
  (bare' : IsBare '{' '}' after)
include bare bare'

theorem bare_body : IsBare '{' '}' (before ++ '\n' :: after) := by
  simp only [IsBare, List.mem_append, List.mem_cons, not_or] at bare bare' ⊢
  exact ⟨⟨bare.1, by decide, bare'.1⟩, bare.2, by decide, bare'.2⟩

theorem bare_commentedBody (isGap : IsGap indent) (isNote : IsNote note) :
    IsBare '{' '}' (commentedBody before indent note after) := by
  have noBracket := commentLine_others isGap isNote
  have bareLine : IsBare '{' '}' (commentLine indent note) :=
    ⟨fun member => absurd (noBracket _ member) (by decide),
      fun member => absurd (noBracket _ member) (by decide)⟩
  exact bare_body bare (bare_body bareLine bare')

/-- What is read between two braces stays the same with a comment between two lines exactly if it
stands outside all brackets and none of its parts but the first reads as a member, or if it stands
inside brackets of what reads as no member. -/
theorem tsFields_comment_iff (isGap : IsGap indent) (isNote : IsNote note) :
    tsFields (commentedBody before indent note after) = tsFields (before ++ '\n' :: after) ↔
      if depthOver 0 before = 0 then
        ∀ part ∈ (Text.splitOn note isEntrySeparator).tail, tsEntryField part.trim = []
      else ∀ entry, (pieces isEntrySeparator 0 before).getLast? = some entry →
        tsEntryField entry.trim = [] := by
  rw [tsFields_eq (bare_body bare bare'),
    tsFields_eq (bare_commentedBody bare bare' isGap isNote), commentedBody]
  split
  · next closed =>
    rw [readMembers_comment isGap isNote after closed, readMembers_line after closed,
      List.append_cancel_left_eq, List.append_left_eq_self, List.flatMap_eq_nil_iff]
  · next opened =>
    have noBracket := commentLine_others isGap isNote
    obtain ⟨entry, next, earlier, later, last, openedEntry, read⟩ :=
      exists_readMembers_inside opened after
    have line := read ['\n'] (by decide)
    have lines := read ('\n' :: (commentLine indent note ++ ['\n'])) (by
      rw [List.forall_mem_cons, List.forall_mem_append]
      exact ⟨rfl, noBracket, by decide⟩)
    have regroup (rest : Text) : '\n' :: (commentLine indent note ++ ['\n']) ++ rest =
        '\n' :: (commentLine indent note ++ '\n' :: rest) := by
      simp
    rw [regroup, regroup] at lines
    rw [List.singleton_append, List.singleton_append] at line
    rw [line, lines, List.append_cancel_left_eq, List.append_cancel_right_eq,
      tsEntryField_open_iff openedEntry, last]
    simp

end

/-! ## Declarations -/

/-- What a declaration is read by, up to its brace. -/
def tsHead : Pattern :=
  wordEdge ++ oneOf ["interface", "type"] ++ blanks1 ++ group 1 word ++ blanks ++
    opt ("<" ++ some0 (noneOf ['>', '{', '=']) ++ ">") ++ blanks ++
    opt ("extends" ++ blanks1 ++ many (· != '{') 1 true) ++ blanks ++ opt "=" ++ blanks

theorem tsDeclaration_eq : tsDeclaration = tsHead ++ lit ['{'] := rfl

theorem tsHead_avoids : tsHead.Avoids '{' := by
  have edge : wordEdge.Avoids '{' := by
    rintro s s' _ _ ⟨t, has, previous, rfl, rfl⟩
    cases t with
    | nil => cases has
    | cons c t => rfl
  have other (word : String) (noBrace : '{' ∉ word.toList) : (lit word.toList).Avoids '{' := noBrace
  have notBlank : isBlank '{' = false := rfl
  have notWord : isWord '{' = false := by decide
  exact ⟨⟨⟨⟨⟨⟨⟨⟨⟨⟨edge, other _ (by decide), other _ (by decide)⟩, notBlank⟩, notWord⟩, notBlank⟩,
    ⟨⟨other _ (by decide), rfl⟩, other _ (by decide)⟩, trivial⟩, notBlank⟩,
    ⟨⟨other _ (by decide), notBlank⟩, rfl⟩, trivial⟩, notBlank⟩, other _ (by decide), trivial⟩,
    notBlank⟩

/-- What is reported of a declaration in a file. -/
def reported (file : String) (m : Match) : List Model :=
  match bodyAfter? '{' '}' m.last.rest with
  | some body => Model.ofFields (m.string 1) (tsFields body) file
  | none => []

theorem reported_eq {file : String} {m : Match} {body rest : Text} (bare : IsBare '{' '}' body)
    (here : m.last.rest = body ++ '}' :: rest) :
    reported file m = Model.ofFields (m.string 1) (tsFields body) file := by
  have inBraces : bodyAfter? '{' '}' m.last.rest = some body :=
    (bodyAfter?_eq_some_iff (by decide)).2 ⟨isBalanced_of_isBare bare, rest, here⟩
  rw [reported, inBraces]

/-- A file with a text between braces. -/
def bracedText (front body rest : Text) : Text := front ++ ['{'] ++ (body ++ '}' :: rest)

/-- What is reported of a file with declarations. -/
def declaredIn (texts : String → Option Text) : String → List Model :=
  Scan.visited (inBraces tsDeclaration tsFields) texts

/-- What is reported of the files with these texts. -/
def tsReport (texts : String → Option Text) (l : List String) : List Model :=
  (findFiles ["**/*.\x7bts,tsx\x7d"] l).flatMap (declaredIn texts) ++
    (findFiles ["**/*.prisma"] l).flatMap (Scan.visited (inBraces prismaModel prismaFields) texts)

theorem run_typeScript {s : Source} {l : List String} {texts : String → Option Text}
    (listed : s.files = .ok l) (reads : ∀ path ∈ l, s.read path = .ok (texts path)) :
    typeScript.scan.run s = .ok (tsReport texts l) := by
  have declared := Scan.run_eachFile_of_reads listed reads ["**/*.\x7bts,tsx\x7d"]
    (inBraces tsDeclaration tsFields)
  have stored := Scan.run_eachFile_of_reads listed reads ["**/*.prisma"]
    (inBraces prismaModel prismaFields)
  show ((Scan.eachFile _ _).bind _).run s = _
  rw [Scan.run_bind, declared]
  show (prisma.scan.bind _).run s = _
  rw [Scan.run_bind, prisma, stored]
  rfl

theorem declaredIn_eq {texts : String → Option Text} {file : String} {text : Text}
    {found : List Match} (here : texts file = some text) (all : tsDeclaration.all text = found) :
    declaredIn texts file = found.flatMap (reported file) := by
  rw [declaredIn, Scan.visited, here, ← all]
  rfl

section
variable {s s' : Source} {l : List String} {texts texts' : String → Option Text} {file : String}
  {front before after rest indent note : Text} {earlier later : List Match} {m : Match}

theorem reported_comment_iff {m' : Match} (bare : IsBare '{' '}' before)
    (bare' : IsBare '{' '}' after) (isGap : IsGap indent) (isNote : IsNote note)
    (here : m.last.rest = before ++ '\n' :: after ++ '}' :: rest)
    (here' : m'.last.rest = commentedBody before indent note after ++ '}' :: rest)
    (same : m'.string 1 = m.string 1) :
    reported file m' = reported file m ↔
      tsFields (commentedBody before indent note after) = tsFields (before ++ '\n' :: after) := by
  have bareCommented := bare_commentedBody bare bare' isGap isNote
  rw [reported_eq (bare_body bare bare') here, reported_eq bareCommented here', same,
    Model.ofFields_inj]

/-- A declaration is still found with a comment line in its body, and what is reported of it stays
the same exactly in these cases: outside all brackets, as always after members with brackets that
have partners, if no part of the comment after a comma or a semicolon reads as a member; and inside
brackets if what is open there reads as no member. -/
theorem comment_kept_out_iff (listed : s.files = .ok l) (listed' : s'.files = .ok l)
    (reads : ∀ path ∈ l, s.read path = .ok (texts path))
    (reads' : ∀ path ∈ l, s'.read path = .ok (texts' path))
    (text : texts file = some (bracedText front (before ++ '\n' :: after) rest))
    (text' : texts' file = some (bracedText front (commentedBody before indent note after) rest))
    (found : tsDeclaration.all (bracedText front (before ++ '\n' :: after) rest) =
      earlier ++ m :: later)
    (here : m.last.rest = before ++ '\n' :: after ++ '}' :: rest) (bare : IsBare '{' '}' before)
    (bare' : IsBare '{' '}' after) (isGap : IsGap indent) (isNote : IsNote note) :
    typeScript.scan.run s = .ok (tsReport texts l) ∧
    typeScript.scan.run s' = .ok (tsReport texts' l) ∧
    declaredIn texts file = (earlier ++ m :: later).flatMap (reported file) ∧
    ∃ earlier' m' later',
      declaredIn texts' file = (earlier' ++ m' :: later').flatMap (reported file) ∧
      List.Forall₂ (fun e e' => e.string 1 = e'.string 1) earlier earlier' ∧
      m'.string 1 = m.string 1 ∧
      m'.last.rest = commentedBody before indent note after ++ '}' :: rest ∧
      (reported file m' = reported file m ↔
        if depthOver 0 before = 0 then
          ∀ part ∈ (Text.splitOn note isEntrySeparator).tail, tsEntryField part.trim = []
        else ∀ entry, (pieces isEntrySeparator 0 before).getLast? = some entry →
          tsEntryField entry.trim = []) := by
  refine ⟨run_typeScript listed reads, run_typeScript listed' reads', declaredIn_eq text found, ?_⟩
  rw [tsDeclaration_eq] at found
  obtain ⟨earlier', m', later', found', here', groups, each⟩ :=
    @exists_findAll_abreast _ _ (commentedBody before indent note after ++ '}' :: rest) _ _
      tsHead_avoids _ _ _ _ found here
  have sameName {e e' : Match} (groups : ∀ n, e.group? n = e'.group? n) :
      e.string 1 = e'.string 1 := by
    rw [Match.string, Match.string, Match.group, Match.group, groups]
  have same := (sameName groups).symm
  refine ⟨earlier', m', later', declaredIn_eq text' found', each.imp fun _ _ => sameName, same,
    here', ?_⟩
  rw [reported_comment_iff bare bare' isGap isNote here here' same]
  exact tsFields_comment_iff bare bare' isGap isNote

end

/-! ### Items -/

/-- A file with an interface of these lines. -/
def itemText (body : Text) : Text := bracedText "interface Item ".toList body ['\n']

/-- The texts of a source with this interface only. -/
def itemTexts (body : Text) (path : String) : Option Text :=
  [("item.ts", itemText body)].lookup path

def itemSource (body : Text) : Source := .ofTexts [("item.ts", itemText body)]

/-- A comment between two members. -/
theorem item_comment_kept_out : ∃ m later,
    declaredIn (itemTexts "\n  id: number;\n  // shown first\n  name: string;\n".toList) "item.ts" =
      (m :: later).flatMap (reported "item.ts") ∧
    reported "item.ts" m = [⟨"Item", [⟨"id", "number"⟩, ⟨"name", "string"⟩], "item.ts"⟩] := by
  let before := "\n  id: number;".toList
  let after := "  name: string;\n".toList
  let body := before ++ '\n' :: after
  let commented := commentedBody before "  ".toList " shown first".toList after
  have once : (tsDeclaration.all (itemText body)).length = 1 := by decide +kernel
  have ends : (tsDeclaration.all (itemText body)).map (·.last.rest) = [body ++ '}' :: ['\n']] := by
    decide +kernel
  have report : (tsDeclaration.all (itemText body)).flatMap (reported "item.ts") =
      [⟨"Item", [⟨"id", "number"⟩, ⟨"name", "string"⟩], "item.ts"⟩] := by decide +kernel
  obtain ⟨m, found⟩ := List.length_eq_one_iff.1 once
  rw [found] at ends report
  have here : m.last.rest = body ++ '}' :: ['\n'] := (List.cons.inj ends).1
  have inLines : ∀ part ∈ (Text.splitOn " shown first".toList isEntrySeparator).tail,
      tsEntryField part.trim = [] := by decide
  obtain ⟨-, -, -, earlier', m', later', declared, names, -, -, same⟩ :=
    @comment_kept_out_iff (itemSource body) (itemSource commented) ["item.ts"] (itemTexts body)
      (itemTexts commented) "item.ts" "interface Item ".toList before after ['\n'] "  ".toList
      " shown first".toList [] [] m rfl rfl (fun _ _ => rfl) (fun _ _ => rfl) rfl rfl found here
      (by decide) (by decide) (by decide) (by decide)
  cases names
  refine ⟨m', later', declared, ?_⟩
  have closed : depthOver 0 before = 0 := by decide
  rw [same.2 (by rw [if_pos closed]; exact inLines), ← report]
  exact (List.append_nil _).symm

/-- Whether a text is the line of a member that ends with a semicolon and has a type without braces
or arrows. -/
def IsMemberLine (line : Text) : Prop :=
  line.getLast? = some ';' ∧ ':' ∈ line ∧ ∀ c ∈ line, c ∉ ['{', '}', '=', '\n']

instance : DecidablePred IsMemberLine := fun line => inferInstanceAs
  (Decidable (line.getLast? = some ';' ∧ ':' ∈ line ∧ ∀ c ∈ line, c ∉ ['{', '}', '=', '\n']))

/-- A comment with a semicolon. -/
theorem comment_not_always_kept_out :
    ¬ ∀ (first second note : Text), IsMemberLine first → IsMemberLine second → IsNote note →
      typeScript.scan.run
          (itemSource (commentedBody ('\n' :: first) [] note (second ++ ['\n']))) =
        typeScript.scan.run (itemSource ('\n' :: first ++ '\n' :: (second ++ ['\n']))) := by
  intro always
  have same := always "  id: number;".toList "  name: string;".toList " was: key; size: n".toList
    (by decide) (by decide) (by decide)
  have run (body : Text) : typeScript.scan.run (itemSource body) =
      .ok (tsReport (itemTexts body) ["item.ts"]) := run_typeScript rfl fun _ _ => rfl
  rw [run, run, Except.ok.injEq] at same
  have differ : tsReport (itemTexts (commentedBody "\n  id: number;".toList []
      " was: key; size: n".toList "  name: string;\n".toList)) ["item.ts"] ≠
        tsReport (itemTexts "\n  id: number;\n  name: string;\n".toList) ["item.ts"] := by
    decide +kernel
  exact differ same

end CodeSurvey.Models
