import CodeSurvey.Proofs.Disk.Proper

/-!
# Paths and their segments

A path that is reported is a text with slashes between its segments, which make it up
(`intercalate_segments`). Joined segments can be taken apart again (`segments_intercalate`) if they
are names of entries, and the location of a relative path has the segments as its names
(`Location.join_intercalate`). Whether the path of an entry is too long depends on the size of its
name only (`Location.exists_size`).
-/

namespace CodeSurvey

theorem Text.splitOn_eq_splitOnP (text : Text) (isSeparator : Char → Bool) :
    text.splitOn isSeparator = List.splitOnP isSeparator text := by
  have go (rest piece : Text) (done : List Text) :
      splitOn.go isSeparator rest piece done =
        done.reverse ++ List.splitOnPPrepend isSeparator rest piece := by
    induction rest generalizing piece done with
    | nil => simp [splitOn.go]
    | cons c rest ih =>
      rw [splitOn.go, List.splitOnPPrepend]
      split <;> simp [ih]
  exact go text [] []

namespace Text

/-- The pieces have the characters of the text that separate nothing. -/
theorem mem_of_mem_splitOnP {ok : Char → Bool} {text piece : Text}
    (member : piece ∈ List.splitOnP ok text) : ∀ c ∈ piece, c ∈ text ∧ ok c = false := by
  induction text generalizing piece with
  | nil =>
    obtain rfl := List.mem_singleton.1 member
    exact List.forall_mem_nil _
  | cons first text ih =>
    have further {c : Char} (h : c ∈ text ∧ ok c = false) : c ∈ first :: text ∧ ok c = false :=
      ⟨.tail _ h.1, h.2⟩
    rw [List.splitOnP_cons_eq_if_modifyHead] at member
    split at member
    · rcases List.mem_cons.1 member with rfl | member
      · exact List.forall_mem_nil _
      · exact fun c inside => further (ih member c inside)
    · next kept =>
      obtain ⟨head, pieces, whole⟩ := List.exists_cons_of_ne_nil (List.splitOnP_ne_nil ok text)
      rw [whole, List.modifyHead_cons] at member
      rw [whole] at ih
      rcases List.mem_cons.1 member with rfl | member
      · exact List.forall_mem_cons.2
          ⟨⟨.head _, by simpa using kept⟩, fun c inside => further (ih (.head _) c inside)⟩
      · exact fun c inside => further (ih (.tail _ member) c inside)

theorem joinWith_cons_cons (separator first second : Text) (rest : List Text) :
    Text.joinWith separator (first :: second :: rest) =
      first ++ separator ++ Text.joinWith separator (second :: rest) :=
  List.intercalate_cons_cons

theorem joinWith_singleton (separator only : Text) : Text.joinWith separator [only] = only := by
  simp [Text.joinWith]

theorem infix_joinWith {separator text : Text} {texts : List Text} (member : text ∈ texts) :
    text <:+: joinWith separator texts := by
  induction texts with
  | nil => cases member
  | cons first others ih =>
    cases others with
    | nil =>
      obtain rfl := List.mem_singleton.1 member
      exact ⟨[], [], by simp [joinWith_singleton]⟩
    | cons next others =>
      rw [joinWith_cons_cons, List.append_assoc]
      rcases List.mem_cons.1 member with rfl | member
      · exact (List.prefix_append ..).isInfix
      · have later := (ih member).trans (List.suffix_append separator _).isInfix
        exact later.trans (List.suffix_append ..).isInfix

theorem joinWith_append {pre post : List Text} (someBefore : pre ≠ []) (someAfter : post ≠ []) :
    Text.joinWith ['/'] (pre ++ post) =
      Text.joinWith ['/'] pre ++ '/' :: Text.joinWith ['/'] post := by
  induction pre with
  | nil => exact absurd rfl someBefore
  | cons first rest ih =>
    cases rest with
    | nil =>
      obtain ⟨next, post, rfl⟩ := List.exists_cons_of_ne_nil someAfter
      rw [List.singleton_append, joinWith_cons_cons, joinWith_singleton, List.append_assoc]
      rfl
    | cons second rest =>
      rw [List.cons_append, List.cons_append, joinWith_cons_cons, ← List.cons_append, ih nofun,
        joinWith_cons_cons]
      simp only [List.append_assoc]

/-- What reads the two sides of a separator each for itself reads a joined text piece by piece. -/
theorem flatMap_joinWith {β : Type} (read : Text → List β) {separator : Char}
    (none : read [] = []) (apart : ∀ a b, read (a ++ separator :: b) = read a ++ read b)
    (texts : List Text) :
    read (joinWith [separator] texts) = texts.flatMap read := by
  induction texts with
  | nil => exact none
  | cons first others ih =>
    cases others with
    | nil => rw [joinWith_singleton, List.flatMap_singleton]
    | cons second others =>
      rw [joinWith_cons_cons, List.append_assoc, List.singleton_append, apart, ih,
        ← List.flatMap_cons]

end Text

/-- The segments of a path. -/
def segments (path : String) : List String :=
  ((Text.of path).splitOn (· == '/')).map String.ofList

theorem segments_intercalate {names : List String} (h : ∀ name ∈ names, isEntryName name = true)
    (nonempty : names ≠ []) : segments ("/".intercalate names) = names := by
  have noSlash := fun name member => (isEntryName_iff.1 (h name member)).noSlash
  have pieces : List.splitOn '/' (['/'].intercalate (names.map String.toList)) =
      names.map String.toList :=
    List.splitOn_intercalate '/' (by simpa using noSlash) (by simpa using nonempty)
  rw [segments, Text.splitOn_eq_splitOnP, Text.of, String.toList_intercalate]
  rw [List.splitOn_eq_splitOnP] at pieces
  rw [show "/".toList = ['/'] from rfl, pieces, List.map_map]
  simp [Function.comp_def]

theorem map_segments (path : String) :
    (segments path).map String.toList = List.splitOn '/' path.toList := by
  rw [segments, Text.splitOn_eq_splitOnP, ← List.splitOn_eq_splitOnP, List.map_map, Text.of]
  simp [Function.comp_def]

theorem segments_ne_nil (path : String) : segments path ≠ [] := by
  have pieces := map_segments path ▸ List.splitOn_ne_nil '/' path.toList
  exact fun none => pieces (by rw [none, List.map_nil])

/-- The segments of a path make it up. -/
theorem intercalate_segments (path : String) : "/".intercalate (segments path) = path := by
  rw [← String.toList_inj, String.toList_intercalate, map_segments]
  exact List.intercalate_splitOn '/'

theorem mem_intercalate {c : Char} {names : List String} :
    c ∈ ("/".intercalate names).toList →
      c = '/' ∨ ∃ name ∈ names, c ∈ name.toList := by
  rw [String.toList_intercalate]
  induction names with
  | nil => simp
  | cons name rest ih =>
    cases rest with
    | nil => simpa using Or.inr
    | cons second rest =>
      simp only [List.map_cons, List.intercalate_cons_cons, List.mem_append] at ih ⊢
      rintro ((here | slash) | later)
      · exact .inr ⟨name, .head _, here⟩
      · exact .inl (by simpa using slash)
      · rcases ih later with slash | ⟨other, member, there⟩
        · exact .inl slash
        · exact .inr ⟨other, .tail _ member, there⟩

theorem mem_intercalate_of_mem {c : Char} {name : String} {names : List String}
    (member : name ∈ names) (h : c ∈ name.toList) : c ∈ ("/".intercalate names).toList := by
  rw [String.toList_intercalate]
  induction names with
  | nil => cases member
  | cons first rest ih =>
    cases rest with
    | nil => simpa [List.mem_singleton.1 member] using h
    | cons second rest =>
      simp only [List.map_cons, List.intercalate_cons_cons, List.mem_append] at ih ⊢
      rcases List.mem_cons.1 member with rfl | member
      · exact .inl (.inl h)
      · exact .inr (ih member)

/-! ## Faults of names -/

theorem nameFault?_eq_none_iff {name : String} :
    nameFault? name = none ↔
      ∀ c ∈ name.toList, isNamelessHalf c = false ∧ c ≠ Char.ofNat 0 := by
  rw [nameFault?]
  split
  · next half =>
    obtain ⟨c, member, half⟩ := List.any_eq_true.1 half
    refine ⟨nofun, fun h => ?_⟩
    rw [(h c member).1] at half
    cases half
  · next whole =>
    split
    · next null =>
      refine ⟨nofun, fun h => ?_⟩
      exact absurd rfl (h _ (List.contains_iff_mem.1 null)).2
    · next full =>
      refine ⟨fun _ c member => ⟨?_, ?_⟩, fun _ => rfl⟩
      · exact Bool.eq_false_iff.2 fun half => whole (List.any_eq_true.2 ⟨c, member, half⟩)
      · rintro rfl
        exact full (List.contains_iff_mem.2 member)

namespace Location

/-- The text of a location has the characters of its names, slashes, and a dot at most. -/
theorem mem_text {l : Location} {c : Char} (h : c ∈ l.text.toList) :
    c = '/' ∨ c = '.' ∨ ∃ name ∈ l.names, c ∈ name.toList := by
  rw [text] at h
  cases anchor : l.anchor with
  | here =>
    simp only [anchor] at h
    split at h
    · exact .inr (.inl (by simpa using h))
    · rcases mem_intercalate h with slash | found
      · exact .inl slash
      · exact .inr (.inr found)
  | top | twoSlashes =>
    simp only [anchor, String.toList_append, List.mem_append] at h
    rcases h with slash | h
    · exact .inl (by simpa using slash)
    · rcases mem_intercalate h with slash | found
      · exact .inl slash
      · exact .inr (.inr found)

theorem mem_text_of_mem {l : Location} {c : Char} {name : String} (member : name ∈ l.names)
    (h : c ∈ name.toList) : c ∈ l.text.toList := by
  have inNames := mem_intercalate_of_mem member h
  rw [text]
  cases l.anchor with
  | here =>
    simp only
    rw [if_neg (by simpa using List.ne_nil_of_mem member)]
    exact inNames
  | top | twoSlashes =>
    simp only [String.toList_append, List.mem_append]
    exact .inr inNames

/-- A location can be named if one above it can, and the names below that one as well. -/
theorem nameFault?_below {root : Location} {names : List String}
    (above : nameFault? root.text = none) (below : ∀ name ∈ names, nameFault? name = none) :
    nameFault? (⟨root.anchor, root.names ++ names⟩ : Location).text = none := by
  rw [nameFault?_eq_none_iff] at above ⊢
  intro c member
  rcases mem_text member with rfl | rfl | ⟨name, member, h⟩
  · decide
  · decide
  · rcases List.mem_append.1 member with member | member
    · exact above c (mem_text_of_mem member h)
    · exact nameFault?_eq_none_iff.1 (below name member) c h

theorem namesIn_eq_filter (path : String) :
    namesIn path = (segments path).filter fun name => !name.isEmpty && name != "." := rfl

theorem namesIn_intercalate {names : List String} (h : ∀ name ∈ names, isEntryName name = true)
    (nonempty : names ≠ []) : namesIn ("/".intercalate names) = names := by
  rw [namesIn_eq_filter, segments_intercalate h nonempty, List.filter_eq_self]
  intro name member
  have proper := isEntryName_iff.1 (h name member)
  simp [proper.full, proper.notDot]

/-- The first segment of a relative path is not empty, so it does not start with a slash. -/
theorem read_intercalate {names : List String} (h : ∀ name ∈ names, isEntryName name = true)
    (nonempty : names ≠ []) : read ("/".intercalate names) = ⟨.here, names⟩ := by
  have noSlash : ("/".intercalate names).toList.takeWhile (· == '/') = [] := by
    obtain ⟨name, rest, rfl⟩ := List.exists_cons_of_ne_nil nonempty
    obtain ⟨full, -, -, plain, -, -⟩ := isEntryName_iff.1 (h name (by simp))
    obtain ⟨c, chars, e⟩ := List.exists_cons_of_ne_nil
      (fun empty => full (String.toList_eq_nil_iff.1 empty) : name.toList ≠ [])
    have first : (c == '/') = false := by
      rw [e] at plain
      simp only [List.mem_cons, not_or] at plain
      simpa using Ne.symm plain.1
    rw [String.toList_intercalate]
    cases rest with
    | nil => simp [e, first]
    | cons second rest => simp [e, first]
  rw [read, noSlash, namesIn_intercalate h nonempty]
  rfl

theorem join_intercalate (l : Location) {names : List String}
    (h : ∀ name ∈ names, isEntryName name = true) (nonempty : names ≠ []) :
    l.join ("/".intercalate names) = ⟨l.anchor, l.names ++ names⟩ := by
  rw [join, read_intercalate h nonempty]

theorem parent_join (l : Location) {init : List String} {last : String}
    (h : ∀ name ∈ init ++ [last], isEntryName name = true) :
    (l.join ("/".intercalate (init ++ [last]))).parent = ⟨l.anchor, l.names ++ init⟩ := by
  rw [join_intercalate l h (by simp), parent, ← List.append_assoc, List.dropLast_concat]

theorem name_join (l : Location) {init : List String} {last : String}
    (h : ∀ name ∈ init ++ [last], isEntryName name = true) :
    (l.join ("/".intercalate (init ++ [last]))).name = last := by
  rw [join_intercalate l h (by simp), name, ← List.append_assoc, List.getLast?_concat]
  rfl

end Location

/-! ## Sizes of paths -/

theorem byteSize_append (a b : String) : byteSize (a ++ b) = byteSize a + byteSize b := by
  have shift (chars : List Char) (before : Nat) :
      chars.foldl (fun size c => size + if Text.isHalf c then 1 else c.utf8Size) before =
        before + chars.foldl (fun size c => size + if Text.isHalf c then 1 else c.utf8Size) 0 := by
    induction chars generalizing before with
    | nil => rfl
    | cons c rest ih =>
      rw [List.foldl_cons, List.foldl_cons, ih, ih (0 + _)]
      omega
  rw [byteSize, String.toList_append, List.foldl_append, shift]
  rfl

theorem one_le_byteSize {name : String} (full : name ≠ "") : 1 ≤ byteSize name := by
  obtain ⟨c, rest, chars⟩ := List.exists_cons_of_ne_nil (mt String.toList_eq_nil_iff.1 full)
  have split : name = String.ofList [c] ++ String.ofList rest := by
    rw [← String.toList_inj, chars]
    simp
  have first : 1 ≤ byteSize (String.ofList [c]) := by
    simp only [byteSize, String.toList_ofList, List.foldl_cons, List.foldl_nil]
    have := c.utf8Size_pos
    split <;> omega
  rw [split, byteSize_append]
  omega

theorem intercalate_concat {names : List String} (someName : names ≠ []) (name : String) :
    "/".intercalate (names ++ [name]) = "/".intercalate names ++ "/" ++ name := by
  have someText : names.map String.toList ≠ [] := by simpa using someName
  have split := Text.joinWith_append someText (List.cons_ne_nil name.toList [])
  rw [Text.joinWith_singleton] at split
  rw [← String.toList_inj, String.toList_append, String.toList_append, String.toList_intercalate,
    String.toList_intercalate, List.map_append, List.append_assoc]
  exact split

namespace Location

theorem join_eq_entry (l : Location) {name : String} (named : isEntryName name = true) :
    l.join name = l.entry name := by
  have joined := l.join_intercalate (List.forall_mem_singleton.2 named) (by simp)
  rwa [show "/".intercalate [name] = name by simp] at joined

/-- The path of an entry has the bytes of its name and those of what stands before it. -/
theorem exists_size (l : Location) :
    ∃ size, (∀ name, byteSize (l.entry name).text = size + byteSize name) ∧
      byteSize l.text ≤ size + 1 ∧ size ≤ byteSize l.text + 1 := by
  have slash : byteSize "/" = 1 ∧ byteSize "//" = 2 ∧ byteSize "." = 1 ∧ byteSize "" = 0 := by
    decide
  obtain ⟨anchor, names⟩ := l
  -- without names there is no slash between the start and the name of the entry
  by_cases top : names = []
  · subst top
    cases anchor with
    | here => exact ⟨0, fun name => by simp [entry, text], by simp [text, slash]⟩
    | top => exact ⟨1, fun name => by simp [entry, text, byteSize_append, slash],
        by simp [text, slash]⟩
    | twoSlashes => exact ⟨2, fun name => by simp [entry, text, byteSize_append, slash],
        by simp [text, slash]⟩
  · refine ⟨byteSize (text ⟨anchor, names⟩) + 1, fun name => ?_, by omega, Nat.le_refl _⟩
    cases anchor <;>
      simp [entry, text, top, intercalate_concat top, byteSize_append, slash] <;> omega

/-- A location can be looked at if an entry of it can. -/
theorem nameFault?_of_entry {l : Location} {name : String}
    (clean : nameFault? (l.entry name).text = none) : nameFault? l.text = none := by
  rw [nameFault?_eq_none_iff] at clean ⊢
  intro c member
  rcases mem_text member with rfl | rfl | ⟨other, listed, inside⟩
  · decide
  · decide
  · exact clean c (mem_text_of_mem (List.mem_append_left _ listed) inside)

section
variable {l : Location} {name other : String}

theorem fault?_eq_none_iff :
    l.fault? = none ↔ nameFault? l.text = none ∧ byteSize l.text ≤ maxPathSize := by
  rw [fault?]
  cases nameFault? l.text with
  | some why => simp
  | none => simp

theorem fault?_eq_nameTooLong_iff :
    l.fault? = some .nameTooLong ↔ nameFault? l.text = none ∧ maxPathSize < byteSize l.text := by
  rw [fault?]
  cases nameFault? l.text with
  | some why => simp
  | none => simp

theorem fault?_of_entry (full : 1 ≤ byteSize name) (free : (l.entry name).fault? = none) :
    l.fault? = none := by
  rw [fault?_eq_none_iff] at free ⊢
  obtain ⟨size, entries, whole⟩ := l.exists_size
  have short := entries name
  exact ⟨nameFault?_of_entry free.1, by omega⟩

/-- What is too long stays so with a longer name. -/
theorem tooLong_mono (clean : nameFault? other = none) (longer : byteSize name ≤ byteSize other)
    (long : (l.entry name).fault? = some .nameTooLong) :
    (l.entry other).fault? = some .nameTooLong := by
  rw [fault?_eq_nameTooLong_iff] at long ⊢
  obtain ⟨size, entries, -⟩ := l.exists_size
  have before := entries name
  have after := entries other
  refine ⟨nameFault?_below (nameFault?_of_entry long.1) (List.forall_mem_singleton.2 clean), ?_⟩
  omega

end

end Location

end CodeSurvey
