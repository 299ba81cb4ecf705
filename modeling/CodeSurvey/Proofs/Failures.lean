import CodeSurvey.Proofs.Disk.LinkFree
import CodeSurvey.Proofs.Settings
import CodeSurvey.Proofs.Stops

/-!
# Surveys that fail

A part of a survey that fails stays empty, and settings that are invalid are passed over. What is
left that keeps the survey of a folder from an analysis is told by `Survey.Fails`: settings that are
no text or hold what no value can be made of (`Settings.Unread`), directories that stand in each
other too deeply, a package whose manifest is too deep or too long to be read, and names that are
too long for the disk. There is nothing else (`Survey.analyze_returns_iff`).
-/

namespace CodeSurvey

/-! ## Looks at a disk -/

namespace Trail

theorem walk_ne_badName {trail : Trail} {names : List String} {why : NameFault} :
    walk trail names ≠ .fault (.badName why) := by
  fun_induction walk trail names <;> simp_all

theorem follow_ne_badName {links : Nat} {trail : Trail} {names : List String} {why : NameFault} :
    follow links trail names ≠ .error (.badName why) := by
  fun_induction follow links trail names with
  | case1 => simp
  | case2 links trail names other fault =>
    rintro ⟨rfl⟩
    exact walk_ne_badName fault
  | case3 => simp
  | case4 => assumption

end Trail

namespace Disk

variable {d : Disk} {root l : Location}

theorem locate_ne_badName (clean : nameFault? l.text = none) {why : NameFault} :
    d.locate l ≠ .error (.badName why) := by
  have noFault : l.fault? ≠ some (.badName why) := by
    rw [Location.fault?, clean]
    simp only
    split <;> simp
  rw [locate]
  split
  · next other _ fault =>
    rintro ⟨rfl⟩
    exact noFault fault
  · split
    · exact Trail.follow_ne_badName
    · next other here =>
      rintro ⟨rfl⟩
      exact Trail.follow_ne_badName here
  · exact Trail.follow_ne_badName

/-- Reading at a path below a location that can be named does not fail. -/
theorem exists_read (above : nameFault? root.text = none) {depth : Nat} (exclude : List String)
    {names : List String} (named : ∀ name ∈ names, isEntryName name = true)
    (nonempty : names ≠ []) :
    ∃ text, (d.source depth root exclude).read ("/".intercalate names) = .ok text := by
  have clean := Location.nameFault?_below above fun name member =>
    (isEntryName_iff.1 (named name member)).faultless
  rw [source_read, Location.join_intercalate root named nonempty, load]
  split
  · next why located =>
    cases why with
    | badName why => exact absurd located (locate_ne_badName clean)
    | _ => exact ⟨none, rfl⟩
  · split
    · exact ⟨_, rfl⟩
    · exact ⟨none, rfl⟩
  · exact ⟨none, rfl⟩

/-- A look at a single place fails over a name that is too long, and over nothing else. -/
theorem map_node?_eq_error {α : Type} {view : Option Node → α} {why : Fault}
    (h : (d.node? l).map view = .error why) :
    why = .nameTooLong ∧ d.node? l = .error .nameTooLong := by
  cases seen : d.node? l with
  | ok node =>
    rw [seen] at h
    cases h
  | error other =>
    rw [seen] at h
    cases h
    rw [node?] at seen
    split at seen
    · cases seen
    · cases seen
      exact ⟨rfl, rfl⟩
    · cases seen

theorem present_eq_error {why : Fault} (h : d.present l = .error why) :
    why = .nameTooLong ∧ d.node? l = .error .nameTooLong := map_node?_eq_error h

theorem bytes?_eq_error {why : Fault} (h : d.bytes? l = .error why) :
    why = .nameTooLong ∧ d.node? l = .error .nameTooLong := map_node?_eq_error h

theorem text?_eq_error {why : Fault} (h : d.text? l = .error why) :
    why = .nameTooLong ∧ d.node? l = .error .nameTooLong := by
  rw [text?] at h
  cases stored : d.bytes? l with
  | ok bytes =>
    rw [stored] at h
    cases h
  | error other =>
    rw [stored] at h
    cases h
    exact bytes?_eq_error stored

theorem firstText_nil : d.firstText root [] = .ok none := by rfl

theorem firstText_cons (name : String) (rest : List String) :
    d.firstText root (name :: rest) =
      match d.text? (root.join name) with
      | .ok none => d.firstText root rest
      | outcome => outcome := by rfl

/-- A list has a place that stops, and all before it is passed, exactly if its first item stops, or
its first item is passed and the rest has such a place. -/
theorem exists_place_cons {α : Type} {passed stops : α → Prop} {a : α} {l : List α} :
    (∃ before b after, a :: l = before ++ b :: after ∧ (∀ x ∈ before, passed x) ∧ stops b) ↔
      stops a ∨ passed a ∧
        ∃ before b after, l = before ++ b :: after ∧ (∀ x ∈ before, passed x) ∧ stops b := by
  constructor
  · rintro ⟨before, b, after, same, passes, here⟩
    cases before with
    | nil =>
      cases same
      exact .inl here
    | cons first before =>
      cases same
      obtain ⟨first, passes⟩ := List.forall_mem_cons.1 passes
      exact .inr ⟨first, before, b, after, rfl, passes, here⟩
  · rintro (here | ⟨first, before, b, after, rfl, passes, here⟩)
    · exact ⟨[], a, l, rfl, List.forall_mem_nil _, here⟩
    · exact ⟨a :: before, b, after, rfl, List.forall_mem_cons.2 ⟨first, passes⟩, here⟩

/-- The texts at some names are asked for in order, up to the first that is there. -/
theorem firstText_eq_error_iff {names : List String} {why : Fault} :
    d.firstText root names = .error why ↔ why = .nameTooLong ∧ ∃ before name after,
      names = before ++ name :: after ∧ (∀ other ∈ before, d.text? (root.join other) = .ok none) ∧
        d.node? (root.join name) = .error .nameTooLong := by
  induction names with
  | nil =>
    rw [firstText_nil]
    refine iff_of_false nofun ?_
    rintro ⟨-, before, name, after, none_left, -⟩
    cases before <;> cases none_left
  | cons name rest ih =>
    rw [firstText_cons, exists_place_cons]
    cases seen : d.text? (root.join name) with
    | error other =>
      obtain ⟨rfl, untold⟩ := text?_eq_error seen
      exact ⟨fun same => by cases same; exact ⟨rfl, .inl untold⟩, fun h => h.1 ▸ rfl⟩
    | ok text =>
      -- The failing name is a later one, as this one can be told.
      have told : d.node? (root.join name) ≠ .error .nameTooLong := by
        intro untold
        rw [text?, bytes?, untold] at seen
        cases seen
      cases text with
      | none => simpa [told] using ih
      | some text => simp [told]

theorem readme_eq_error_iff {why : Fault} : d.readme root = .error why ↔
    why = .nameTooLong ∧ ∃ before name after, readmeNames = before ++ name :: after ∧
      (∀ other ∈ before, d.text? (root.join other) = .ok none) ∧
        d.node? (root.join name) = .error .nameTooLong := by
  rw [← firstText_eq_error_iff, readme]
  cases d.firstText root readmeNames <;> simp [Except.map]

/-- What is located can be named. -/
theorem nameFault?_of_located {trail : Trail} (located : d.locate root = .ok trail) :
    nameFault? root.text = none :=
  TreeAt.nameFault?_of_fault? (fault?_of_located located)

end Disk

/-! ## Settings that are not read -/

theorem mapM_eq_none_iff {α β : Type} {f : α → Option β} {l : List α} :
    l.mapM f = none ↔ ∃ a ∈ l, f a = none := by
  induction l with
  | nil => simp
  | cons a rest ih =>
    rw [List.mapM_cons, List.exists_mem_cons_iff, ← ih]
    cases f a with
    | none => simp
    | some b => cases rest.mapM f <;> simp

namespace Value

/-- The texts that a value holds can be written unless it is a list with an integer that has too
many digits. -/
theorem plainTexts?_eq_none_iff {v : Value} : v.plainTexts? = none ↔
    ∃ items n, v = .list items ∧ .int n ∈ items ∧ Nat.pow 10 Text.maxDigits ≤ n.natAbs := by
  cases v with
  | list items =>
    rw [plainTexts?, mapM_eq_none_iff]
    constructor
    · rintro ⟨item, member, unwritten⟩
      obtain ⟨member, isPlain⟩ := List.mem_filter.1 member
      cases item with
      | int n =>
        rw [plainText?, Text.ofWhole?, ite_eq_right_iff] at unwritten
        refine ⟨items, n, rfl, member, Nat.not_lt.1 fun short => ?_⟩
        cases unwritten short
      | str _ | float _ | bool _ => cases unwritten
      | null | list _ | map _ | other _ => cases isPlain
    · rintro ⟨_, n, ⟨rfl⟩, member, long⟩
      refine ⟨.int n, List.mem_filter.2 ⟨member, rfl⟩, ?_⟩
      rw [plainText?, Text.ofWhole?, if_neg (Nat.not_lt.2 long)]
  | _ =>
    refine iff_of_false (by rintro ⟨⟩) ?_
    rintro ⟨_, _, ⟨⟩, -⟩

end Value

namespace Settings

variable {d : Disk} {host : Host} {root : Location} {document : Value} {fault : Settings.Fault}

/-- Whether a document lists the names to leave out or the categories here. -/
def ListsNames (document names : Value) : Prop :=
  document.get? "exclude_paths" = some names ∨
    (document.get? "categories").bind (·.get? "enabled") = some names

/-- Whether a document lists an integer among names that has too many digits to be written. -/
def NamesUnwritable (document : Value) : Prop :=
  ∃ items n, ListsNames document (.list items) ∧ .int n ∈ items ∧
    Nat.pow 10 Text.maxDigits ≤ n.natAbs

theorem namesUnwritable_iff :
    NamesUnwritable document ↔ ∃ names, ListsNames document names ∧ names.plainTexts? = none := by
  simp only [NamesUnwritable, Value.plainTexts?_eq_none_iff]
  constructor
  · rintro ⟨items, n, listed, member, long⟩
    exact ⟨_, listed, items, n, rfl, member, long⟩
  · rintro ⟨_, listed, items, n, rfl, member, long⟩
    exact ⟨items, n, listed, member, long⟩

theorem excludeIn_outcome (document : Value) :
    (∃ exclude, excludeIn document = .ok exclude ∧
      ∀ names, document.get? "exclude_paths" = some names → names.plainTexts? ≠ none) ∨
    excludeIn document = .error .tooLong ∧
      ∃ names, document.get? "exclude_paths" = some names ∧ names.plainTexts? = none := by
  rw [excludeIn]
  cases stated : document.get? "exclude_paths" with
  | none => exact .inl ⟨[], rfl, by simp⟩
  | some names =>
    rw [Option.getD_some, textsOf]
    cases written : names.plainTexts? with
    | none => exact .inr ⟨rfl, names, rfl, written⟩
    | some texts => exact .inl ⟨_, rfl, by simp [written]⟩

theorem categoriesIn_fault (document : Value) :
    (∀ fault, categoriesIn document = .error fault → ∃ why, fault = .invalid why) ∧
      (∀ names, (document.get? "categories").bind (·.get? "enabled") = some names →
        names.plainTexts? ≠ none) ∨
    categoriesIn document = .error .tooLong ∧
      ∃ names, (document.get? "categories").bind (·.get? "enabled") = some names ∧
        names.plainTexts? = none := by
  rw [categoriesIn, requestedIn]
  cases stated : (document.get? "categories").bind (·.get? "enabled") with
  | none => exact .inl ⟨by simp [Except.bind], by simp⟩
  | some names =>
    simp only [textsOf]
    cases written : names.plainTexts? with
    | none => exact .inr ⟨rfl, names, rfl, written⟩
    | some texts =>
      refine .inl ⟨fun fault failed => ?_, by simp [written]⟩
      simp only [Except.map, Except.bind] at failed
      split at failed
      · cases failed
      · cases failed
        exact ⟨_, rfl⟩

theorem ofValue_map {entries : List (String × Value)}
    (counts : (Value.map entries).isNothing = false) : ofValue root (.map entries) =
      (excludeIn (.map entries)).bind fun exclude =>
        (categoriesIn (.map entries)).bind fun categories =>
          (workersIn (.map entries)).bind fun workers =>
            .ok ⟨root, exclude, categories, workers, limitsIn (.map entries)⟩ := by
  rw [ofValue.eq_def, counts]
  rfl

/-- Where the names of categories can be written, only what is invalid keeps the categories and the
workers from being read. -/
theorem exists_invalid {settings : List Category → Int → Settings}
    (refused : ∀ fault, categoriesIn document = .error fault → ∃ why, fault = .invalid why)
    (failed : ((categoriesIn document).bind fun categories =>
      (workersIn document).bind fun workers => .ok (settings categories workers)) = .error fault) :
    ∃ why, fault = .invalid why := by
  cases read : categoriesIn document with
  | error other =>
    rw [read] at failed
    cases failed
    exact refused _ read
  | ok categories =>
    rw [read, Except.bind] at failed
    rcases workersIn_outcome document with ⟨n, stated, -⟩ | ⟨⟨why, stated⟩, -⟩
    · rw [stated] at failed
      cases failed
    · rw [stated] at failed
      cases failed
      exact ⟨why, rfl⟩

/-- Beside being refused as invalid, a document is kept from settings by such an integer only. -/
theorem ofValue_eq_error_iff (valid : ∀ why, fault ≠ .invalid why) :
    ofValue root document = .error fault ↔ fault = .tooLong ∧ NamesUnwritable document := by
  rw [namesUnwritable_iff]
  cases counts : document.isNothing with
  | true =>
    rw [ofValue.eq_def, counts]
    refine iff_of_false (by rintro ⟨⟩) ?_
    rintro ⟨-, names, stated | stated, -⟩ <;> rw [get?_of_isNothing counts] at stated <;>
      cases stated
  | false =>
    cases document with
    | map entries =>
      rw [ofValue_map counts]
      rcases excludeIn_outcome (.map entries) with ⟨exclude, left, written⟩ | ⟨failed, names, long⟩
      · rcases categoriesIn_fault (.map entries) with ⟨refused, written'⟩ | ⟨failed, names, long⟩
        · refine iff_of_false (fun failed => ?_) ?_
          · rw [left, Except.bind] at failed
            obtain ⟨why, rfl⟩ := exists_invalid refused failed
            exact valid why rfl
          · rintro ⟨-, names, stated | stated, long⟩
            · exact written names stated long
            · exact written' names stated long
        · rw [left, Except.bind, failed]
          refine ⟨?_, fun h => by rw [h.1]; rfl⟩
          rintro ⟨⟩
          exact ⟨rfl, names, .inr long.1, long.2⟩
      · rw [failed]
        refine ⟨?_, fun h => by rw [h.1]; rfl⟩
        rintro ⟨⟩
        exact ⟨rfl, names, .inl long.1, long.2⟩
    | _ =>
      rw [ofValue.eq_def, counts]
      refine iff_of_false (fun failed => ?_) ?_
      · cases failed
        exact valid _ rfl
      · rintro ⟨-, names, stated | stated, -⟩ <;> cases stated

/-- Whether a settings file has these bytes. -/
def Stores (d : Disk) (host : Host) (root : Location) (bytes : Bytes) : Prop :=
  ∃ file, Settings.file host.homes root = .ok file ∧ d.bytes? file = .ok (some bytes)

/-- Why a settings file can neither be read nor be passed over as invalid. -/
inductive Unread (d : Disk) (host : Host) (root : Location) : Settings.Fault → Prop where
  /-- The path starts in a home that cannot be told. -/
  | root {fault : RootFault} (unknown : Settings.file host.homes root = .error fault) :
      Unread d host root (.root fault)
  /-- The file is a link to a name that is too long, or its own path is. -/
  | nameTooLong {file : Location} (named : Settings.file host.homes root = .ok file)
      (untold : d.node? file = .error .nameTooLong) : Unread d host root (.disk .nameTooLong)
  | notText {bytes : Bytes} (stored : Stores d host root bytes) (undecoded : bytes.decode? = none) :
      Unread d host root .notText
  /-- The text is not malformed, and yet no document is made of it. -/
  | value {bytes : Bytes} {text : Text} {fault : Yaml.Fault} (stored : Stores d host root bytes)
      (decoded : bytes.decode? = some text) (visible : Text.isBlankText text.joinLines = false)
      (unread : Yaml.read host.depths.settings Settings.depth text.joinLines = .error fault)
      (wellFormed : fault ≠ .malformed) : Unread d host root (.value fault)
  /-- A name in the document cannot be written. -/
  | tooLong {bytes : Bytes} {text : Text} {document : Value} (stored : Stores d host root bytes)
      (decoded : bytes.decode? = some text) (visible : Text.isBlankText text.joinLines = false)
      (read : Yaml.read host.depths.settings Settings.depth text.joinLines = .ok document)
      (long : NamesUnwritable document) : Unread d host root .tooLong

theorem load_of_stores {bytes : Bytes} (stored : Stores d host root bytes) :
    ∃ place, load d host root = ofBytes host.depths.settings place bytes := by
  obtain ⟨file, named, stored⟩ := stored
  exact ⟨file.parent, by simp only [load, named, stored]⟩

/-- What is stored in the file is not read as a text, as a document, or as settings. -/
theorem unread_of_ofBytes {bytes : Bytes} (stored : Stores d host root bytes)
    (valid : ∀ why, fault ≠ .invalid why) {place : Location}
    (failed : ofBytes host.depths.settings place bytes = .error fault) :
    Unread d host root fault := by
  rw [ofBytes] at failed
  split at failed
  · next undecoded =>
    cases failed
    exact .notText stored undecoded
  · next text decoded =>
    rw [Settings.document.eq_def] at failed
    split at failed
    · cases failed
    · next visible =>
      split at failed
      · next value read =>
        obtain ⟨rfl, long⟩ := (ofValue_eq_error_iff valid).1 failed
        exact .tooLong stored decoded (Bool.not_eq_true _ ▸ visible) read long
      · cases failed
        exact absurd rfl (valid _)
      · next other wellFormed unread =>
        cases failed
        exact .value stored decoded (Bool.not_eq_true _ ▸ visible) unread wellFormed

theorem Unread.valid (unread : Unread d host root fault) (why : Invalid) :
    fault ≠ .invalid why := by
  cases unread <;> exact nofun

/-- Beside invalid settings, this is all that keeps settings from being read. -/
theorem load_eq_error_iff (valid : ∀ why, fault ≠ .invalid why) :
    load d host root = .error fault ↔ Unread d host root fault := by
  constructor
  · intro failed
    rw [load] at failed
    split at failed
    · next unknown =>
      cases failed
      exact .root unknown
    · next file named =>
      split at failed
      · next untold =>
        cases failed
        obtain ⟨rfl, long⟩ := Disk.bytes?_eq_error untold
        exact .nameTooLong named long
      · cases failed
      · next bytes stored => exact unread_of_ofBytes ⟨file, named, stored⟩ valid failed
  · intro unread
    cases unread with
    | root unknown => simp only [load, unknown]
    | nameTooLong named untold => simp only [load, named, Disk.bytes?, untold, Except.map]
    | notText stored undecoded =>
      obtain ⟨place, loaded⟩ := load_of_stores stored
      rw [loaded, ofBytes, undecoded]
    | value stored decoded visible unread wellFormed =>
      obtain ⟨place, loaded⟩ := load_of_stores stored
      rw [loaded, ofBytes, decoded]
      simp only [Settings.document, visible, unread]
      rfl
    | tooLong stored decoded visible read long =>
      obtain ⟨place, loaded⟩ := load_of_stores stored
      rw [loaded, ofBytes, decoded]
      simp only [Settings.document, visible, read]
      exact (ofValue_eq_error_iff valid).2 ⟨rfl, long⟩

theorem Unread.load_eq_error (unread : Unread d host root fault) :
    load d host root = .error fault :=
  (load_eq_error_iff unread.valid).2 unread

end Settings

namespace Survey

variable {d : Disk} {host : Host} {root : Location} {path : String} {settings : Settings}

/-! ## The stack -/

theorem manifests_named : ∀ path ∈ Stack.manifests,
    (∀ name ∈ segments path, isEntryName name = true) ∧ segments path ≠ [] ∧
      "/".intercalate (segments path) = path := by
  decide +kernel

/-- In a folder the manifests and all listed files can be looked at. -/
theorem isReadable {entries : List (String × Node)} {above : Trail} (proper : d.isProper = true)
    (located : d.locate root = .ok (.folder entries :: above)) (depth : Nat)
    (exclude : List String) : Stack.IsReadable (d.source depth root exclude) where
  manifests path manifest := by
    obtain ⟨named, nonempty, same⟩ := manifests_named path manifest
    rw [← same]
    exact Disk.exists_read (Disk.nameFault?_of_located located) exclude named nonempty
  files l listed path member := by
    obtain ⟨names, place, node, reached, -, rfl⟩ := (Disk.mem_listing located listed).1 member
    have named := reached.leads.isEntryName (Disk.located_isProper proper located)
    exact Disk.exists_read (Disk.nameFault?_of_located located) exclude named reached.leads.ne_nil

/-! ## The whole survey -/

/-- Whether these settings hold at a root and its tree is listed with them. -/
structure Begins (d : Disk) (host : Host) (root : Location) (settings : Settings) : Prop where
  hold : Settings.Hold d host root settings
  listed : ∃ l, d.listing host.depths.listing root settings.exclude = .ok l

/-- What keeps the survey of a folder from an analysis. -/
inductive Fails (d : Disk) (host : Host) (root : Location) : SurveyFault → Prop where
  /-- The settings file can neither be read nor be passed over as invalid. -/
  | settings {fault : Settings.Fault} (unread : Settings.Unread d host root fault) :
      Fails d host root (.settings fault)
  /-- Directories that are not excluded stand in each other too deeply. -/
  | tooDeep {settings : Settings} (hold : Settings.Hold d host root settings)
      (deep : d.IsTooDeep host.depths.listing root settings.exclude) :
      Fails d host root (.disk .tooDeep)
  /-- The manifest of a package can neither be read nor be passed over as malformed. -/
  | package {settings : Settings} {fault : Json.Fault} (begins : Begins d host root settings)
      (unread : Stack.PackageFault host.depths.package
        (d.source host.depths.listing root settings.exclude) fault) :
      Fails d host root (.package fault)
  /-- A manifest that the checks ask for leads to a name that is too long. -/
  | manifest {settings : Settings} (begins : Begins d host root settings)
      (untold : Stack.Untold (d.source host.depths.listing root settings.exclude) .nameTooLong) :
      Fails d host root (.disk .nameTooLong)
  /-- A readme leads to a name that is too long, and those before it have no text. -/
  | readme {settings : Settings} {stack : Stack} {before after : List String} {name : String}
      (begins : Begins d host root settings)
      (found : stackOf host.depths.package settings.limits
        (d.source host.depths.listing root settings.exclude) = .ok stack)
      (order : readmeNames = before ++ name :: after)
      (absent : ∀ other ∈ before, d.text? (root.join other) = .ok none)
      (untold : d.node? (root.join name) = .error .nameTooLong) :
      Fails d host root (.disk .nameTooLong)

theorem settingsAt_eq_error_iff {fault : SurveyFault} :
    (settingsAt d host root).result = .error fault ↔
      ∃ why, Settings.Unread d host root why ∧ fault = .settings why := by
  rw [settingsAt]
  split
  · next settings read =>
    refine iff_of_false (by rintro ⟨⟩) ?_
    rintro ⟨why, unread, -⟩
    rw [unread.load_eq_error] at read
    cases read
  · next invalid read =>
    refine iff_of_false (by rintro ⟨⟩) ?_
    rintro ⟨why, unread, -⟩
    rw [unread.load_eq_error] at read
    cases read
    exact unread.valid _ rfl
  · next other valid read =>
    have unread := (Settings.load_eq_error_iff fun why => valid why).1 read
    constructor
    · rintro ⟨⟩
      exact ⟨other, unread, rfl⟩
    · rintro ⟨why, unread', rfl⟩
      rw [unread'.load_eq_error] at read
      cases read
      rfl

theorem stackOf_eq_error_iff {depth : Nat} {limits : SampleLimits} {s : Source}
    {fault : SurveyFault} : stackOf depth limits s = .error fault ↔
      (∃ why, Stack.PackageFault depth s why ∧ fault = .package why) ∨
        ∃ why, (Stack.detect depth limits).run s = .error why ∧ fault = .disk why := by
  have package (why : Json.Fault) := @Stack.detect_eq_error_iff s depth limits why
  simp only [← package, stackOf]
  split <;> simp [*, eq_comm]

/-- In a tree that is listed it is only the looks at manifests that keep the stack from being found
out, and only over names that are too long. -/
theorem detect_eq_error_iff {depth depth' : Nat} {limits : SampleLimits} {exclude : List String}
    {why : Fault} (proper : d.isProper = true) (folder : d.isFolder root = .ok true)
    (listed : ∃ l, d.listing depth root exclude = .ok l) :
    (Stack.detect depth' limits).run (d.source depth root exclude) = .error why ↔
      why = .nameTooLong ∧ Stack.Untold (d.source depth root exclude) .nameTooLong := by
  obtain ⟨entries, above, located⟩ := Disk.isFolder_iff.1 folder
  obtain ⟨l, listed⟩ := listed
  rw [Stack.detect_eq_fault_iff (isReadable proper located depth exclude), Disk.source_files,
    listed]
  constructor
  · rintro (untold | ⟨-, ⟨⟩⟩)
    obtain ⟨path, asked⟩ := untold.exists_present
    obtain ⟨rfl, -⟩ := Disk.present_eq_error asked
    exact ⟨rfl, untold⟩
  · rintro ⟨rfl, untold⟩
    exact .inl untold

/-- Once settings hold, the listing, the stack and the readme can fail. -/
theorem analyze_of_hold {path : Value} (named : Location.ofValue host.homes path = .ok root)
    (folder : d.isFolder root = .ok true) (hold : Settings.Hold d host root settings) :
    (analyze d host path none).result =
      ((d.listing host.depths.listing root settings.exclude).mapError .disk).bind fun _ =>
        (stackOf host.depths.package settings.limits
          (d.source host.depths.listing root settings.exclude)).bind fun stack =>
          ((d.readme root).mapError .disk).map (assembled d host.depths root settings stack) := by
  rw [analyze_folder named folder, Option.elim_none, Settings.settingsAt_eq_ok_iff.2 hold]
  exact analyzeTree_result d host root hold.one_le_workers

/-- Once the files are listed, the stack and the readme can fail. -/
theorem analyze_of_begins {path : Value} (named : Location.ofValue host.homes path = .ok root)
    (folder : d.isFolder root = .ok true) (begins : Begins d host root settings) :
    (analyze d host path none).result =
      (stackOf host.depths.package settings.limits
        (d.source host.depths.listing root settings.exclude)).bind fun stack =>
        ((d.readme root).mapError .disk).map (assembled d host.depths root settings stack) := by
  obtain ⟨l, listed⟩ := begins.listed
  rw [analyze_of_hold named folder begins.hold, listed]
  rfl

/-- What keeps the stack from being found out, once the files are listed. -/
theorem Begins.fails_of_stackOf (begins : Begins d host root settings) (proper : d.isProper = true)
    (folder : d.isFolder root = .ok true) {fault : SurveyFault}
    (failed : stackOf host.depths.package settings.limits
      (d.source host.depths.listing root settings.exclude) = .error fault) :
    Fails d host root fault := by
  rcases stackOf_eq_error_iff.1 failed with ⟨why, unread, rfl⟩ | ⟨why, stopped, rfl⟩
  · exact .package begins unread
  · obtain ⟨rfl, untold⟩ := (detect_eq_error_iff proper folder begins.listed).1 stopped
    exact .manifest begins untold

/-- What keeps a survey from an analysis, once the files are listed. -/
theorem Begins.fails {path : Value} (begins : Begins d host root settings)
    (proper : d.isProper = true) (named : Location.ofValue host.homes path = .ok root)
    (folder : d.isFolder root = .ok true) {fault : SurveyFault}
    (failed : (analyze d host path none).result = .error fault) : Fails d host root fault := by
  rw [analyze_of_begins named folder begins] at failed
  cases found : stackOf host.depths.package settings.limits
      (d.source host.depths.listing root settings.exclude) with
  | error other =>
    rw [found] at failed
    cases failed
    exact begins.fails_of_stackOf proper folder found
  | ok stack =>
    rw [found] at failed
    cases text : d.readme root with
    | error why =>
      rw [text] at failed
      cases failed
      obtain ⟨rfl, before, name, after, order, absent, untold⟩ := Disk.readme_eq_error_iff.1 text
      exact .readme begins found order absent untold
    | ok readme =>
      rw [text] at failed
      cases failed

end Survey

end CodeSurvey
