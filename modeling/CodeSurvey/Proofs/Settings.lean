import CodeSurvey.Proofs.Survey
import CodeSurvey.Proofs.Text

/-!
# What settings are refused

A document of settings is refused if it is something else than a mapping, asks for a category that
there is none of, or allows no worker (`Settings.Refused`). All others are read, whatever they hold,
and the settings that come of them are valid (`Settings.load_outcome`): names to leave out have no
slashes at their ends, the categories stand in their order, and at least one worker may run. An
integer that is too long to be written is the one thing that is excepted.
-/

namespace CodeSurvey

/-- Where every item has an image, mapping in `Option` collects the images. -/
theorem mapM_eq_some_filterMap {α β : Type} {f : α → Option β} {l : List α}
    (h : ∀ a ∈ l, (f a).isSome = true) : l.mapM f = some (l.filterMap f) := by
  induction l with
  | nil => rfl
  | cons a rest ih =>
    obtain ⟨first, rest⟩ := List.forall_mem_cons.1 h
    obtain ⟨b, image⟩ := Option.isSome_iff_exists.1 first
    simp [List.mapM_cons, image, ih rest]

namespace Value

/-! ## Texts in values -/

/-- Whether an integer stands somewhere in a value. -/
inductive Holds (n : Int) : Value → Prop where
  | here : Holds n (int n)
  | item {items : List Value} {v : Value} (member : v ∈ items) (inside : Holds n v) :
      Holds n (list items)
  | entry {entries : List (String × Value)} {name : String} {v : Value}
      (member : (name, v) ∈ entries) (inside : Holds n v) : Holds n (map entries)

/-- Whether every integer in a value can be written. -/
def IsWritable (v : Value) : Prop := ∀ n : Int, v.Holds n → n.natAbs < Nat.pow 10 Text.maxDigits

/-- Whether a text is one of those that a value offers: a string offers itself, and a list the texts
of the strings, numbers and truth values in it. -/
inductive Offers (text : String) : Value → Prop where
  | itself : Offers text (str text)
  | item {items : List Value} {v : Value} (member : v ∈ items)
      (written : v.plainText? = some text) :
      Offers text (list items)

theorem IsWritable.get? {v inner : Value} {name : String} (h : v.IsWritable)
    (found : v.get? name = some inner) : inner.IsWritable := by
  intro n inside
  cases v with
  | map entries => exact h n (.entry (mem_of_lookup found) inside)
  | _ => cases found

theorem IsWritable.plainText?_isSome {v : Value} (h : v.IsWritable) :
    v.plainText?.isSome = v.isPlain := by
  cases v with
  | int n =>
    rw [plainText?, Text.ofWhole?, if_pos (h n .here)]
    rfl
  | _ => rfl

/-- The texts of a value that can be written are those that it offers. -/
theorem IsWritable.exists_plainTexts {v : Value} (h : v.IsWritable) :
    ∃ texts, v.plainTexts? = some texts ∧ ∀ text, text ∈ texts ↔ v.Offers text := by
  cases v with
  | str s =>
    refine ⟨[s], rfl, fun text => ?_⟩
    rw [List.mem_singleton]
    exact ⟨by rintro rfl; exact .itself, by rintro ⟨⟩; rfl⟩
  | list items =>
    have plain (item : Value) (member : item ∈ items) : item.plainText?.isSome = item.isPlain :=
      plainText?_isSome fun n inside => h n (.item member inside)
    refine ⟨(items.filter isPlain).filterMap plainText?,
      mapM_eq_some_filterMap fun item member => ?_,
      fun text => ?_⟩
    · obtain ⟨member, isPlain⟩ := List.mem_filter.1 member
      rw [plain item member, isPlain]
    · rw [List.mem_filterMap]
      constructor
      · rintro ⟨item, member, written⟩
        exact .item (List.mem_filter.1 member).1 written
      · rintro ⟨⟩
        next item written member =>
          have isPlain : item.isPlain = true := by
            rw [← plain item member, written]
            rfl
          exact ⟨item, List.mem_filter.2 ⟨member, isPlain⟩, written⟩
  | _ =>
    refine ⟨[], rfl, fun text => ⟨fun member => absurd member List.not_mem_nil, ?_⟩⟩
    intro offers
    cases offers

end Value

theorem Category.nodup_all : Category.all.Nodup := by decide

theorem Category.ofName?_eq_none_iff {name : String} :
    Category.ofName? name = none ↔ ∀ category : Category, category.name ≠ name := by
  rw [Category.ofName?, List.find?_eq_none]
  constructor
  · intro others category
    simpa using others category (by cases category <;> decide)
  · intro others category _
    simpa using others category

namespace Settings

variable {d : Disk} {host : Host} {l root : Location} {document : Value} {settings : Settings}

/-! ## Parts of a document -/

theorem textsOf_eq_ok {v : Value} (h : v.IsWritable) :
    ∃ texts, textsOf v = .ok texts ∧ ∀ text, text ∈ texts ↔ v.Offers text := by
  obtain ⟨texts, read, offered⟩ := h.exists_plainTexts
  exact ⟨texts, by rw [textsOf, read], offered⟩

/-- Names to leave out are read from every document, and have no slashes at their ends. -/
theorem excludeIn_eq_ok (h : document.IsWritable) :
    ∃ exclude, excludeIn document = .ok exclude ∧ ∀ name ∈ exclude,
      name ≠ "" ∧ name.toList.head? ≠ some '/' ∧ name.toList.getLast? ≠ some '/' := by
  have writable : ((document.get? "exclude_paths").getD .null).IsWritable := by
    cases stated : document.get? "exclude_paths" with
    | none =>
      intro n inside
      cases inside
    | some v => exact h.get? stated
  obtain ⟨texts, read, -⟩ := textsOf_eq_ok writable
  refine ⟨_, by rw [excludeIn, read]; rfl, fun name member => ?_⟩
  obtain ⟨member, nonempty⟩ := List.mem_filter.1 member
  obtain ⟨text, -, rfl⟩ := List.mem_map.1 member
  refine ⟨by simpa using nonempty, fun first => ?_, fun last => ?_⟩
  · rw [String.toList_ofList] at first
    simpa using Text.head?_trimBy first
  · rw [String.toList_ofList] at last
    simpa using Text.getLast?_trimBy last

/-- Whether a document asks for a category that there is none of. Upper case counts as lower. -/
def AsksUnknown (document : Value) : Prop :=
  ∃ categories enabled name, document.get? "categories" = some categories ∧
    categories.get? "enabled" = some enabled ∧ enabled.Offers name ∧
    ∀ category : Category, category.name ≠ String.ofList (Text.lower name.toList)

/-- Whether a document allows no worker. -/
def AllowsNone (document : Value) : Prop :=
  ∃ v n, document.get? "max_workers" = some v ∧ v.whole? = some n ∧ n < 1

theorem mem_unknownAmong {names : List String} {name : String} :
    name ∈ unknownAmong names ↔ name ∈ names ∧ ∀ category : Category, category.name ≠ name := by
  simp [unknownAmong, Category.ofName?_eq_none_iff]

theorem requestedIn_of_get? {categories enabled : Value} (h : document.IsWritable)
    (stated : document.get? "categories" = some categories)
    (listed : categories.get? "enabled" = some enabled) :
    ∃ names, requestedIn document = .ok (some names) ∧ ∀ name, name ∈ names ↔
      ∃ written, enabled.Offers written ∧ String.ofList (Text.lower written.toList) = name := by
  obtain ⟨texts, read, offered⟩ := textsOf_eq_ok ((h.get? stated).get? listed)
  refine ⟨texts.map fun name => String.ofList (Text.lower name.toList), ?_, fun name => ?_⟩
  · rw [requestedIn, stated, Option.bind_some, listed]
    simp only [read, Except.map]
  · simp only [List.mem_map, offered]

/-- The categories are read from a document exactly if it asks for none that is unknown. -/
theorem categoriesIn_outcome (h : document.IsWritable) :
    (∃ categories, categoriesIn document = .ok categories ∧
      categories.Sublist Category.all ∧ ¬ AsksUnknown document) ∨
    (∃ why, categoriesIn document = .error (.invalid why)) ∧ AsksUnknown document := by
  cases listed : (document.get? "categories").bind (·.get? "enabled") with
  | none =>
    refine .inl ⟨Category.all, by rw [categoriesIn, requestedIn, listed]; rfl, .refl _, ?_⟩
    rintro ⟨categories, enabled, name, stated, inside, -⟩
    rw [stated, Option.bind_some, inside] at listed
    cases listed
  | some enabled =>
    obtain ⟨categories, stated, inside⟩ := Option.bind_eq_some_iff.1 listed
    obtain ⟨names, requested, offered⟩ := requestedIn_of_get? h stated inside
    have asks : AsksUnknown document ↔ unknownAmong names ≠ [] := by
      rw [Ne, List.eq_nil_iff_forall_not_mem]
      simp only [mem_unknownAmong, offered, not_forall, not_not]
      constructor
      · rintro ⟨_, _, name, stated', inside', offers, unknown⟩
        cases stated.symm.trans stated'
        cases inside.symm.trans inside'
        exact ⟨_, ⟨name, offers, rfl⟩, unknown⟩
      · rintro ⟨_, ⟨name, offers, rfl⟩, unknown⟩
        exact ⟨categories, enabled, name, stated, inside, offers, unknown⟩
    rw [asks, not_not, categoriesIn, requested, Except.bind]
    by_cases unknown : unknownAmong names = []
    · refine .inl ⟨categoriesAmong names, ?_, List.filter_sublist, unknown⟩
      simp only [unknown, List.isEmpty_nil, if_true]
    · refine .inr ⟨⟨.unknownCategories (unknownAmong names), ?_⟩, unknown⟩
      simp only [List.isEmpty_iff, unknown, if_false]

theorem workersIn_outcome (document : Value) :
    (∃ n, workersIn document = .ok n ∧ ¬ AllowsNone document) ∨
    (∃ why, workersIn document = .error (.invalid why)) ∧ AllowsNone document := by
  have allows : AllowsNone document ↔
      ∃ n, (document.get? "max_workers").bind Value.whole? = some n ∧ n < 1 := by
    simp only [AllowsNone, Option.bind_eq_some_iff]
    exact ⟨fun ⟨v, n, stated, whole, few⟩ => ⟨n, ⟨v, stated, whole⟩, few⟩,
      fun ⟨n, ⟨v, stated, whole⟩, few⟩ => ⟨v, n, stated, whole, few⟩⟩
  rw [allows, workersIn]
  cases (document.get? "max_workers").bind Value.whole? with
  | none => exact .inl ⟨standardWorkers, rfl, by simp⟩
  | some n =>
    by_cases few : n < 1
    · exact .inr ⟨⟨.noWorkers, if_pos few⟩, n, rfl, few⟩
    · exact .inl ⟨n, if_neg few, by simpa using few⟩

/-! ## Whole documents -/

/-- What all settings have that are read. -/
structure IsValid (settings : Settings) : Prop where
  ordered : settings.categories.Sublist Category.all
  nodup : settings.categories.Nodup
  workers : 1 ≤ settings.maxWorkers
  exclude : ∀ name ∈ settings.exclude,
    name ≠ "" ∧ name.toList.head? ≠ some '/' ∧ name.toList.getLast? ≠ some '/'

/-- Whether a document is refused: it is something else than a mapping and does not count as
nothing, asks for a category that there is none of, or allows no worker. -/
inductive Refused (document : Value) : Prop where
  | noMapping (counts : document.isNothing = false) (other : ∀ entries, document ≠ .map entries)
  | unknownCategory (asks : AsksUnknown document)
  | noWorkers (allows : AllowsNone document)

theorem standard_isValid (root : Location) : (standard root).IsValid :=
  ⟨.refl _, Category.nodup_all, (by decide : 1 ≤ standardWorkers), by simp [standard]⟩

theorem get?_of_isNothing (h : document.isNothing = true) (name : String) :
    document.get? name = none := by
  cases document with
  | map entries => rw [List.isEmpty_iff.1 h]; rfl
  | _ => rfl

theorem not_refused_of_isNothing (h : document.isNothing = true) : ¬ Refused document := by
  rintro (⟨counts, -⟩ | ⟨_, _, _, stated, -⟩ | ⟨_, _, stated, -⟩)
  · exact Bool.false_ne_true (counts.symm.trans h)
  · cases (get?_of_isNothing h _).symm.trans stated
  · cases (get?_of_isNothing h _).symm.trans stated

/-- Settings are read from a document exactly if it is not refused, and what is read is valid. -/
theorem ofValue_outcome (root : Location) (h : document.IsWritable) :
    (∃ settings, ofValue root document = .ok settings ∧ settings.IsValid ∧ ¬ Refused document) ∨
    (∃ why, ofValue root document = .error (.invalid why)) ∧ Refused document := by
  rw [ofValue.eq_def]
  cases counts : document.isNothing with
  | true => exact .inl ⟨_, rfl, standard_isValid root, not_refused_of_isNothing counts⟩
  | false =>
    rw [if_neg Bool.false_ne_true]
    cases document with
    | map entries =>
      obtain ⟨exclude, left, ends⟩ := excludeIn_eq_ok h
      simp only [left]
      rcases categoriesIn_outcome h with ⟨categories, read, ordered, known⟩ | ⟨⟨why, read⟩, asks⟩
      · rcases workersIn_outcome (.map entries) with ⟨n, stated, some⟩ | ⟨⟨why, stated⟩, none⟩
        · refine .inl ⟨_, by rw [read, stated]; rfl, ⟨ordered, ordered.nodup Category.nodup_all,
            one_le_of_workersIn stated, ends⟩, ?_⟩
          rintro (⟨-, other⟩ | asks | allows)
          · exact other entries rfl
          · exact known asks
          · exact some allows
        · exact .inr ⟨⟨why, by rw [read, stated]; rfl⟩, .noWorkers none⟩
      · exact .inr ⟨⟨why, by rw [read]; rfl⟩, .unknownCategory asks⟩
    | _ => exact .inr ⟨⟨.noMapping, rfl⟩, .noMapping counts fun entries same => by cases same⟩

/-! ## Settings files -/

theorem load_eq_ofValue {file : Location} {bytes : Bytes} {text : Text}
    (named : Settings.file host.homes l = .ok file) (stored : d.bytes? file = .ok (some bytes))
    (decoded : bytes.decode? = some text)
    (parsed : Settings.document host.depths.settings text.joinLines = .ok document) :
    load d host l = ofValue file.parent document := by
  simp only [load, named, stored, ofBytes, decoded, parsed, Except.bind]

end Settings

namespace Survey

theorem stackOf_ne_noWorkers {depth : Nat} {limits : SampleLimits} {s : Source} :
    stackOf depth limits s ≠ .error .noWorkers := by
  rw [stackOf]
  split <;> simp

/-- A survey whose settings allow a worker does not fail for want of one. -/
theorem analyze_ne_noWorkers {settings : Settings} (workers : 1 ≤ settings.maxWorkers) (d : Disk)
    (host : Host) (path : Value) :
    (analyze d host path (some settings)).result ≠ .error .noWorkers := by
  rw [analyze_result]
  cases Location.ofValue host.homes path with
  | error fault => simp [Except.mapError, Except.bind]
  | ok root =>
    cases folder : d.isFolder root with
    | error why => simp [Except.mapError, Except.bind, folder]
    | ok isFolder =>
      cases isFolder with
      | false => simp [Except.mapError, Except.bind, folder]
      | true =>
        simp only [Except.mapError, Except.bind, folder, if_true, Option.elim_some,
          analyzeTree_result d host root workers]
        cases d.listing host.depths.listing root settings.exclude with
        | error why => simp
        | ok l =>
          cases found : stackOf host.depths.package settings.limits
              (d.source host.depths.listing root settings.exclude) with
          | error fault =>
            rintro ⟨⟩
            exact stackOf_ne_noWorkers found
          | ok stack => cases d.readme root <;> simp [Except.map]

end Survey

namespace Settings

variable {d : Disk} {host : Host} {l : Location} {document : Value}

/-- A document in a settings file is either refused, or valid settings are read from it. It is
refused exactly if it is something else than a mapping, asks for an unknown category or allows no
worker; and no survey with settings that were read fails for want of a worker. -/
theorem load_outcome {file : Location} {bytes : Bytes} {text : Text}
    (named : Settings.file host.homes l = .ok file) (stored : d.bytes? file = .ok (some bytes))
    (decoded : bytes.decode? = some text)
    (parsed : Settings.document host.depths.settings text.joinLines = .ok document)
    (writable : document.IsWritable) :
    ((∃ why, load d host l = .error (.invalid why)) ∨
      ∃ settings, load d host l = .ok settings ∧ settings.IsValid) ∧
    ((∃ why, load d host l = .error (.invalid why)) ↔ Refused document) ∧
    ∀ settings, load d host l = .ok settings → ∀ d' host' path,
      (Survey.analyze d' host' path (some settings)).result ≠ .error .noWorkers := by
  have never (settings) (loaded : load d host l = .ok settings) (d' host' path) :=
    Survey.analyze_ne_noWorkers (one_le_of_load loaded) d' host' path
  rw [load_eq_ofValue named stored decoded parsed] at never ⊢
  rcases ofValue_outcome file.parent writable with
    ⟨settings, read, valid, kept⟩ | ⟨invalid, refused⟩
  · refine ⟨.inr ⟨settings, read, valid⟩, ⟨?_, fun refused => absurd refused kept⟩, never⟩
    rintro ⟨why, invalid⟩
    cases read.symm.trans invalid
  · exact ⟨.inl invalid, ⟨fun _ => refused, fun _ => invalid⟩, never⟩

/-- The text of a settings file. -/
def narrowText : Text := Text.of "exclude_paths: [/lib/]\nmax_workers: 2"

/-- What it says. -/
def narrowDocument : Value :=
  .map [("exclude_paths", .list [.str "/lib/"]), ("max_workers", .int 2)]

/-- A folder with this file. -/
def narrowed : Disk :=
  ⟨.folder [("repo", .folder [(fileName, .file (narrowText.map fun c => UInt8.ofNat c.toNat))])],
    []⟩

theorem narrowDocument_writable : narrowDocument.IsWritable := by
  rintro n (_ | _ | ⟨member, inside⟩)
  simp only [List.mem_cons, Prod.mk.injEq, List.not_mem_nil, or_false] at member
  obtain ⟨-, rfl⟩ | ⟨-, rfl⟩ := member
  · obtain _ | ⟨member, inside⟩ := inside
    cases List.mem_singleton.1 member
    cases inside
  · cases inside
    have long (k : Nat) (some : 1 ≤ k) : Int.natAbs 2 < Nat.pow 10 k :=
      Nat.lt_of_lt_of_le (by decide : 2 < 10 ^ 1) (Nat.pow_le_pow_right (by decide) some)
    exact long Text.maxDigits (by decide)

/-- Whether what is read is `narrowDocument`; equality of values is not decidable by itself. -/
def isNarrowDocument : Except Fault Value → Bool
  | .ok (.map [(exclude, .list [.str left]), (workers, .int n)]) =>
    exclude = "exclude_paths" ∧ left = "/lib/" ∧ workers = "max_workers" ∧ n = 2
  | _ => false

theorem isNarrowDocument.eq_ok {read : Except Fault Value} (same : isNarrowDocument read = true) :
    read = .ok narrowDocument := by
  rw [isNarrowDocument.eq_def] at same
  split at same
  · obtain ⟨rfl, rfl, rfl, rfl⟩ := of_decide_eq_true same
    rfl
  · cases same

theorem narrowText_document :
    Settings.document Depths.usual.settings narrowText.joinLines = .ok narrowDocument :=
  isNarrowDocument.eq_ok (by decide +kernel)

/-- Valid settings are read from the folder, and a survey with them does not fail for want of a
worker. -/
theorem narrowed_loads : ∃ settings,
    load narrowed Survey.plainHost (Location.read "/repo") = .ok settings ∧ settings.IsValid ∧
      ∀ d host path, (Survey.analyze d host path (some settings)).result ≠ .error .noWorkers := by
  have decoded : Bytes.decode? (narrowText.map fun c => UInt8.ofNat c.toNat) = some narrowText := by
    decide +kernel
  obtain ⟨outcome, -, never⟩ := @load_outcome narrowed Survey.plainHost (Location.read "/repo") _
    (Location.read "/repo/.codeingest.yml") _ _ rfl rfl decoded narrowText_document
    narrowDocument_writable
  have read : load narrowed Survey.plainHost (Location.read "/repo") =
      .ok ⟨Location.read "/repo", ["lib"], Category.all, 2, .standard⟩ :=
    @load_eq_ofValue narrowed Survey.plainHost (Location.read "/repo") _
      (Location.read "/repo/.codeingest.yml") _ _ rfl rfl decoded narrowText_document
  rw [read] at outcome never
  obtain ⟨why, ⟨⟩⟩ | ⟨settings, same, valid⟩ := outcome
  exact ⟨settings, by rw [read, same], valid, never settings same⟩

end Settings

end CodeSurvey
