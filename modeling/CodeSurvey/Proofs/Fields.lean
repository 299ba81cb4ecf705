import CodeSurvey.Extractors
import CodeSurvey.Proofs.Pattern
import CodeSurvey.Proofs.Text

/-!
# The fields of models

Every field that is read from a source has a name and a type (`Field.IsFilled`). Mostly the pattern
of the field is sure to record both; but a type that goes on to the end of an entry, or names that
are cut at commas, might be blank, and that they are not is seen from where they stand
(`Models.visible_tail`, `Models.visible_names`).
-/

namespace CodeSurvey

structure Field.IsFilled (f : Field) : Prop where
  name : f.name ≠ ""
  type : f.type ≠ ""

theorem ofList_ne_empty {text : Text} (h : text ≠ []) : String.ofList text ≠ "" := by
  simpa using h

namespace Models

open Pattern

section
variable {x y : Pattern} {i j : Nat} {text : Text}

/-! ## Fields from matches -/

theorem isFilled_of_matches {m : Match} (found : x.Matches m) (name : x.fills i = true)
    (type : x.fills j = true) : (⟨m.string i, m.string j⟩ : Field).IsFilled :=
  ⟨found.string_ne_empty name, found.string_ne_empty type⟩

theorem isFilled_all (name : x.fills i = true) (type : x.fills j = true) :
    ∀ f ∈ (x.all text).map fun m => (⟨m.string i, m.string j⟩ : Field), f.IsFilled :=
  List.forall_mem_map.2 fun _ member => isFilled_of_matches (matches_of_mem_all member) name type

theorem getLast?_of_mem_splitTopLevel {isSeparator : Char → Bool} {body entry : Text} {c : Char}
    (member : entry ∈ splitTopLevel isSeparator body) (last : entry.getLast? = some c) :
    isBlank c = false := by
  obtain ⟨piece, -, rfl⟩ := List.mem_map.1 (List.mem_filter.1 member).1
  exact Text.getLast?_trimBy last

/-- What is recorded up to the end of an entry is not blank, because the entry does not end with
white space. -/
theorem visible_tail {entry : Text} {m : Match} {n : Nat}
    (trimmed : ∀ c, entry.getLast? = some c → isBlank c = false)
    (found : (x ++ group n y ++ textEnd).matchAt? (Place.start entry) = some m)
    (long : 0 < y.least) : ∃ c ∈ m.group n, isBlank c = false := by
  have run : (seq x (group n y)).run (Place.start entry) [] (fun q g =>
      if isTextEnd q then some (⟨Place.start entry, q, g⟩ : Match) else none) = some m := found
  obtain ⟨q, g, ⟨_, _, reads, rest, groups⟩, accepted⟩ := run_eq_some run
  split at accepted
  · next atEnd =>
    cases accepted
    obtain ⟨s, _, t, _, -, second, rfl, rfl⟩ := reads_seq_iff.1 reads
    obtain ⟨_, second, rfl⟩ := reads_group_iff.1 second
    have recorded : Match.group ⟨Place.start entry, q, g⟩ n = t := by
      simp [Match.group, Match.group?, ← Groups.lookup_texts, groups]
    have whole : entry = s ++ t ++ q.rest := rest
    have nonempty : t ≠ [] := List.ne_nil_of_length_pos (Nat.lt_of_lt_of_le long second.least_le)
    -- A line feed after the text would be white space at the end of the entry.
    have ends : q.rest = [] := by
      refine (isTextEnd_iff.1 atEnd).resolve_right fun last => ?_
      have blank := trimmed '\n' (by rw [whole, last, List.getLast?_concat])
      cases blank
    refine ⟨t.getLast nonempty, by rw [recorded]; exact List.getLast_mem nonempty, ?_⟩
    refine trimmed _ ?_
    rw [whole, ends, List.append_nil, List.getLast?_append, List.getLast?_eq_some_getLast nonempty]
    rfl
  · cases accepted

end

/-! ## Fields of scripts and of Rust -/

theorem isFilled_tsEntryField {isSeparator : Char → Bool} {body entry : Text}
    (member : entry ∈ splitTopLevel isSeparator body) :
    ∀ f ∈ tsEntryField entry, f.IsFilled := by
  rw [tsEntryField]
  split
  · exact List.forall_mem_nil _
  · split
    · exact List.forall_mem_nil _
    · next m found =>
      obtain ⟨c, here, visible⟩ :=
        visible_tail (fun c => getLast?_of_mem_splitTopLevel member) found (by decide)
      rw [List.forall_mem_singleton]
      refine ⟨(matches_of_matchAt? found).1.string_ne_empty rfl, ?_⟩
      simp only
      split
      · decide
      · exact ofList_ne_empty (Text.trim_ne_nil here visible)

theorem isFilled_tsFields (body : Text) : ∀ f ∈ tsFields body, f.IsFilled :=
  List.forall_mem_flatMap.2 fun _ => isFilled_tsEntryField

theorem isFilled_mongooseEntryField {isSeparator : Char → Bool} {body entry : Text}
    (member : entry ∈ splitTopLevel isSeparator body) :
    ∀ f ∈ mongooseEntryField entry, f.IsFilled := by
  rw [mongooseEntryField]
  split
  · exact List.forall_mem_nil _
  · next m found =>
    obtain ⟨c, here, visible⟩ :=
      visible_tail (fun c => getLast?_of_mem_splitTopLevel member) found (by decide)
    rw [List.forall_mem_singleton]
    refine ⟨(matches_of_matchAt? found).1.string_ne_empty rfl, ofList_ne_empty ?_⟩
    split
    · split
      · next t found => exact (matches_of_find found).group_ne_nil rfl
      · decide
    · exact Text.trim_ne_nil here visible

theorem isFilled_mongooseFields (body : Text) : ∀ f ∈ mongooseFields body, f.IsFilled :=
  List.forall_mem_flatMap.2 fun _ => isFilled_mongooseEntryField

theorem isFilled_rustEntryField {isSeparator : Char → Bool} {body entry : Text}
    (member : entry ∈ splitTopLevel isSeparator body) :
    ∀ f ∈ rustEntryField entry, f.IsFilled := by
  rw [rustEntryField]
  split
  · exact List.forall_mem_nil _
  · next m found =>
    obtain ⟨c, here, visible⟩ :=
      visible_tail (fun c => getLast?_of_mem_splitTopLevel member) found (by decide)
    rw [List.forall_mem_singleton]
    exact ⟨(matches_of_matchAt? found).1.string_ne_empty rfl,
      ofList_ne_empty (Text.joinWith_words_ne_nil _ here visible)⟩

theorem isFilled_rustFields (body : Text) : ∀ f ∈ rustFields body, f.IsFilled :=
  List.forall_mem_flatMap.2 fun _ => isFilled_rustEntryField

theorem isFilled_prismaLineField (line : Text) : ∀ f ∈ prismaLineField line, f.IsFilled := by
  rw [prismaLineField]
  split
  · exact List.forall_mem_nil _
  · split
    · exact List.forall_mem_nil _
    · next m found =>
      rw [List.forall_mem_singleton]
      exact isFilled_of_matches (matches_of_matchAt? found).1 rfl rfl

theorem isFilled_prismaFields (body : Text) : ∀ f ∈ prismaFields body, f.IsFilled :=
  List.forall_mem_flatMap.2 fun line _ => isFilled_prismaLineField line

/-! ## Fields of Go -/

theorem reads_goName {t : Text} {rec : List (Nat × Text)} (reads : goName.Reads t rec) :
    (∀ c ∈ t, (c == ',') = false) ∧ ∃ c ∈ t, isBlank c = false := by
  obtain ⟨_, _, rest, _, first, later, rfl, -⟩ := reads_seq_iff.1 reads
  obtain ⟨c, starts, rfl, -⟩ := reads_one_iff.1 first
  obtain ⟨word, -, -⟩ := reads_many_iff.1 later
  have noComma {c : Char} (other : (fun c => c == ',') c ≠ true) : (c == ',') = false := by
    simpa using other
  refine ⟨List.forall_mem_cons.2 ⟨?_, fun c member => ?_⟩, c, .head _, ?_⟩
  · refine noComma fun comma => ?_
    rw [eq_of_beq comma] at starts
    exact absurd starts (by decide)
  · refine noComma fun comma => ?_
    have := word c member
    rw [eq_of_beq comma] at this
    exact absurd this (by decide)
  · exact @isBlank_of_apart (fun c => isLetter c || c == '_') (by decide) c starts

theorem reads_blanks {t : Text} {rec : List (Nat × Text)} (reads : blanks.Reads t rec) :
    ∀ c ∈ t, (c == ',') = false := by
  intro c member
  have blank := (reads_many_iff.1 reads).1 c member
  rw [← Bool.not_eq_true]
  intro comma
  rw [eq_of_beq comma] at blank
  exact absurd blank (by decide)

/-- Of names between commas none is blank. The induction is on the names after a comma; `s` is what
has been read since the last one. -/
theorem visible_names {names : List Text}
    (reads : ∀ t ∈ names, ∃ rec, (blanks ++ "," ++ blanks ++ goName).Reads t rec) {s : Text}
    (noComma : ∀ c ∈ s, (c == ',') = false) (visible : ∃ c ∈ s, isBlank c = false) :
    ∀ piece ∈ List.splitOnP (· == ',') (s ++ names.flatten), ∃ c ∈ piece, isBlank c = false := by
  induction names generalizing s with
  | nil =>
    rw [List.flatten_nil, List.append_nil, List.splitOnP_eq_singleton noComma]
    simpa using visible
  | cons t names ih =>
    obtain ⟨⟨rec, first⟩, later⟩ := List.forall_mem_cons.1 reads
    obtain ⟨_, _, name, _, upToName, read, rfl, -⟩ := reads_seq_iff.1 first
    obtain ⟨_, _, after, _, upToComma, blank', rfl, -⟩ := reads_seq_iff.1 upToName
    obtain ⟨before, _, _, _, blank, comma, rfl, -⟩ := reads_seq_iff.1 upToComma
    cases comma
    obtain ⟨noComma', c, here, visible'⟩ := reads_goName read
    rw [show s ++ ((before ++ ",".toList ++ after ++ name) :: names).flatten =
      (s ++ before) ++ ',' :: (after ++ name ++ names.flatten) by simp,
      List.splitOnP_append_cons_of_forall_mem
        (List.forall_mem_append.2 ⟨noComma, reads_blanks blank⟩) ',' rfl]
    refine List.forall_mem_cons.2 ⟨?_, ih later
      (List.forall_mem_append.2 ⟨reads_blanks blank', noComma'⟩)
      ⟨c, List.mem_append_right _ here, visible'⟩⟩
    obtain ⟨c, here, visible⟩ := visible
    exact ⟨c, List.mem_append_left _ here, visible⟩

theorem isFilled_goLineFields (line : Text) : ∀ f ∈ goLineFields line, f.IsFilled := by
  rw [goLineFields]
  split
  · exact List.forall_mem_nil _
  · split
    · exact List.forall_mem_nil _
    · next m found =>
      have reading := (matches_of_matchAt? found).1
      have type : m.string 2 ≠ "" := reading.string_ne_empty rfl
      obtain ⟨rec, names⟩ := reading.group_piece (n := 1) rfl
      obtain ⟨first, _, later, _, read, others, whole, -⟩ := reads_seq_iff.1 names
      obtain ⟨pieces, rfl, reads⟩ := others.exists_pieces
      obtain ⟨noComma, visible⟩ := reads_goName read
      rw [whole, Text.splitOn_eq_splitOnP, List.forall_mem_map]
      intro name member
      obtain ⟨c, here, visible⟩ := visible_names reads noComma visible name member
      exact ⟨ofList_ne_empty (Text.trim_ne_nil here visible), type⟩

theorem isFilled_goFields (body : Text) : ∀ f ∈ goFields body, f.IsFilled :=
  List.forall_mem_flatMap.2 fun line _ => isFilled_goLineFields line

/-! ## Fields of Python -/

theorem visible_annotation {t : Text} {rec : List (Nat × Text)}
    (reads : annotationName.Reads t rec) : ∃ c ∈ t, isBlank c = false := by
  obtain ⟨name, _, subscript, _, first, -, rfl, -⟩ := reads_seq_iff.1 reads
  obtain ⟨dotted, long, -⟩ := reads_many_iff.1 first
  obtain ⟨c, rest, rfl⟩ := List.exists_cons_of_length_pos long
  exact ⟨c, .head _, isBlank_of_apart (by decide +kernel) (dotted c (.head _))⟩

theorem isFilled_annotatedFields (body : Text) : ∀ f ∈ annotatedFields body, f.IsFilled := by
  intro f member
  obtain ⟨m, found, rfl⟩ := List.mem_map.1 (List.mem_of_mem_take member)
  have reading := matches_of_mem_all found
  obtain ⟨rec, type⟩ := reading.group_piece (n := 2) rfl
  obtain ⟨first, _, others, _, read, -, whole, -⟩ := reads_seq_iff.1 type
  obtain ⟨c, here, visible⟩ := visible_annotation read
  refine ⟨reading.string_ne_empty rfl, ofList_ne_empty ?_⟩
  rw [whole]
  exact Text.trim_ne_nil (List.mem_append_left _ here) visible

theorem isFilled_djangoFields (body : Text) : ∀ f ∈ djangoFields body, f.IsFilled :=
  fun f member => isFilled_all (i := 1) (j := 2) rfl rfl f (List.mem_filter.1 member).1

/-! ## Fields that are read aside -/

theorem mem_of_lastFor? {α : Type} {entries : List (String × α)} {name : String} {a : α}
    (found : lastFor? entries name = some a) : (name, a) ∈ entries :=
  List.mem_reverse.1 (mem_of_lookup found)

theorem casts_ne_empty {text : Text} {name type : String} (h : (name, type) ∈ casts text) :
    type ≠ "" := by
  rw [casts] at h
  split at h
  · obtain ⟨m, found, same⟩ := List.mem_map.1 h
    cases same
    exact (matches_of_mem_all found).string_ne_empty rfl
  · cases h

theorem ne_empty_of_mem_unique {names : List String} {name : String} (h : name ∈ unique names) :
    name ≠ "" := by
  simpa using (List.mem_filter.1 (List.mem_eraseDups.1 h)).2

/-- A field has the type that its name is mapped to, or the one of all others. -/
theorem isFilled_eloquentFields (text : Text) : ∀ f ∈ eloquentFields text, f.IsFilled := by
  refine List.forall_mem_map.2 fun name member => ⟨ne_empty_of_mem_unique member, ?_⟩
  cases mapped : lastFor? (casts text) name with
  | none =>
    simp only [Option.getD_none]
    decide
  | some type => simpa [mapped] using casts_ne_empty (mem_of_lastFor? mapped)

theorem isFilled_schemaColumns {schema : Option Text} {table : String} {fields : List Field}
    (h : (table, fields) ∈ schemaColumns schema) : ∀ f ∈ fields, f.IsFilled := by
  cases schema with
  | none => cases h
  | some text =>
    obtain ⟨m, -, same⟩ := List.mem_map.1 h
    cases same
    exact isFilled_all rfl rfl

/-! ## Other fields -/

theorem isFilled_ectoFields (body : Text) : ∀ f ∈ ectoFields body, f.IsFilled :=
  List.forall_mem_append.2 ⟨isFilled_all rfl rfl, isFilled_all rfl rfl⟩

theorem isFilled_csharpFields (body : Text) : ∀ f ∈ csharpFields body, f.IsFilled :=
  isFilled_all rfl rfl

end Models

end CodeSurvey
