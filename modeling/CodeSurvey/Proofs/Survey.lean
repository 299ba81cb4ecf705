import CodeSurvey.Proofs.Listing
import CodeSurvey.Proofs.Scan
import CodeSurvey.Proofs.Workers

/-!
# What a survey comes to

A survey goes through its stages one after the other, and the first one that fails ends it. With the
events left out it is a plain calculation on the source: the stack, the parts each on its own, the
readme (`Survey.analyzeTree_result`).
-/

namespace CodeSurvey

theorem Report.result_bind {ε α β : Type} (r : Report ε α) (f : α → Report ε β) :
    (r >>= f).result = r.result.bind fun a => (f a).result := by
  show (Report.bind r f).result = _
  rw [Report.bind]
  cases r.result <;> rfl

theorem Disk.isFolder_iff {d : Disk} {l : Location} :
    d.isFolder l = .ok true ↔ ∃ entries above, d.locate l = .ok (.folder entries :: above) := by
  rw [isFolder, node?]
  split
  · next trail located =>
    match trail with
    | [] => simp [located, Except.map]
    | node :: above => cases node <;> simp [located, Except.map, Node.isFolder]
  · next located => simp [located, Except.map]
  · next why _ located => simp [located, Except.map]

/-- The documents are looked for, sorted and loaded. -/
theorem Document.loadAll_eq (d : Disk) (depth : Nat) (folder : Location) : loadAll d depth folder =
    ((paths d depth folder).map fun found =>
      (found.filter fun path => endings.any (hasEnding (path.getLast?.getD ""))).mergeSort
        isInOrder).bind fun paths =>
      (paths.mapM (load? d folder)).map fun documents => documents.filterMap id := by
  rw [loadAll]
  cases paths d depth folder with
  | error why => rfl
  | ok found => rfl

namespace Settings

/-! ## Settings -/

variable {d : Disk} {host : Host} {root : Location} {settings : Settings}

/-- Whether these settings hold for the tree at a root, if no others are given: those of the
settings file, or the standard ones if it is invalid. -/
def Hold (d : Disk) (host : Host) (root : Location) (settings : Settings) : Prop :=
  load d host root = .ok settings ∨
    (∃ why, load d host root = .error (.invalid why)) ∧ settings = standard root

theorem settingsAt_eq_ok_iff : (Survey.settingsAt d host root).result = .ok settings ↔
    Hold d host root settings := by
  rw [Survey.settingsAt, Hold]
  split
  · next loaded read => simp [read, Pure.pure, Report.pure]
  · next why read => simp [read, eq_comm]
  · next fault valid read =>
    have noInvalid (why : Invalid) : fault ≠ .invalid why := valid why
    simp [read, noInvalid, Report.fail]

theorem Hold.unique {other : Settings} (h : Hold d host root settings)
    (h' : Hold d host root other) : settings = other := by
  rw [← settingsAt_eq_ok_iff] at h h'
  rw [h] at h'
  cases h'
  rfl

theorem one_le_of_workersIn {document : Value} {n : Int} (h : workersIn document = .ok n) :
    1 ≤ n := by
  rw [workersIn] at h
  split at h
  · cases h
    decide
  · split at h
    · cases h
    · cases h
      omega

theorem one_le_of_ofValue {document : Value} (h : ofValue root document = .ok settings) :
    1 ≤ settings.maxWorkers := by
  rw [ofValue.eq_def] at h
  split at h
  · cases h
    exact (by decide : 1 ≤ standardWorkers)
  · split at h
    · obtain ⟨exclude, -, h⟩ := Except.exists_of_bind h
      obtain ⟨categories, -, h⟩ := Except.exists_of_bind h
      obtain ⟨workers, stated, h⟩ := Except.exists_of_bind h
      cases h
      exact one_le_of_workersIn stated
    · cases h

theorem one_le_of_load (loaded : load d host root = .ok settings) : 1 ≤ settings.maxWorkers := by
  rw [load] at loaded
  split at loaded
  · cases loaded
  · split at loaded
    · cases loaded
    · cases loaded
      exact (by decide : 1 ≤ standardWorkers)
    · rw [ofBytes] at loaded
      split at loaded
      · cases loaded
      · obtain ⟨value, -, loaded⟩ := Except.exists_of_bind loaded
        exact one_le_of_ofValue loaded

theorem Hold.one_le_workers (h : Hold d host root settings) : 1 ≤ settings.maxWorkers := by
  rcases h with loaded | ⟨-, rfl⟩
  · exact one_le_of_load loaded
  · exact (by decide : 1 ≤ standardWorkers)

end Settings

namespace Survey

variable {d : Disk} {host : Host} {root : Location}

/-! ## The stages -/

/-- The analysis of a tree with a stack, put together from what each part finds alone. -/
def assembled (d : Disk) (depths : Depths) (root : Location) (settings : Settings) (stack : Stack)
    (readme : Option String) : Analysis :=
  (ofParts fun i => (parts depths settings stack i).run
    (d.source depths.listing root settings.exclude)).analysis root.text stack readme

/-- The stack of a tree, or why none is found out. -/
def stackOf (depth : Nat) (limits : SampleLimits) (s : Source) : Except SurveyFault Stack :=
  match (Stack.detect depth limits).run s with
  | .ok (.ok found) => .ok found.stack
  | .ok (.error fault) => .error (.package fault)
  | .error why => .error (.disk why)

theorem detectIn_result {depth : Nat} {s : Snapshot} {exclude : List String}
    (agrees : s.Agrees d depth root exclude) (limits : SampleLimits) :
    (detectIn d host depth s limits).result =
      (stackOf host.depths.package limits (d.source depth root exclude)).map fun stack =>
        (stack, (s.perform d depth (Stack.detect host.depths.package limits)).2) := by
  rw [stackOf, ← (agrees.perform (Stack.detect host.depths.package limits)).1, detectIn]
  generalize s.perform d depth (Stack.detect host.depths.package limits) = after
  obtain ⟨outcome, s'⟩ := after
  match outcome with
  | .ok (.ok found) => rfl
  | .ok (.error fault) => rfl
  | .error why => rfl

/-- The tree is listed, then its stack is found out, then the parts are carried out, and last the
readme is read. -/
theorem analyzeTree_result (d : Disk) (host : Host) (root : Location) {settings : Settings}
    (workers : 1 ≤ settings.maxWorkers) :
    (analyzeTree d host root settings).result =
      ((d.listing host.depths.listing root settings.exclude).mapError .disk).bind fun _ =>
        (stackOf host.depths.package settings.limits
          (d.source host.depths.listing root settings.exclude)).bind fun stack =>
          ((d.readme root).mapError .disk).map (assembled d host.depths root settings stack) := by
  obtain ⟨files, agrees⟩ := (Snapshot.new_agrees d host.depths.listing root settings.exclude).files
  rw [Disk.source_files] at files
  rw [analyzeTree]
  simp only [Report.result_bind, files, Report.note, Report.ofExcept]
  cases d.listing host.depths.listing root settings.exclude with
  | error why => rfl
  | ok l =>
    simp only [Except.mapError, Except.bind]
    rw [detectIn_result agrees]
    cases stackOf host.depths.package settings.limits
        (d.source host.depths.listing root settings.exclude) with
    | error fault => rfl
    | ok stack =>
      simp only [Except.map, if_neg (Int.not_lt.2 workers), Report.result_bind, Except.bind]
      rw [findings_eq_run (agrees.perform (Stack.detect host.depths.package settings.limits)).2]
      cases d.readme root <;> rfl

theorem analyze_result (d : Disk) (host : Host) (path : Value) (given : Option Settings) :
    (analyze d host path given).result =
      ((Location.ofValue host.homes path).mapError .root).bind fun root =>
        ((d.isFolder root).mapError .disk).bind fun isFolder =>
          if isFolder then
            (given.elim (settingsAt d host root).result .ok).bind fun settings =>
              (analyzeTree d host root settings).result
          else .ok (.empty root.text .unknown) := by
  rw [analyze, Report.result_bind]
  congr 1
  funext root
  rw [Report.result_bind]
  congr 1
  funext isFolder
  cases isFolder with
  | false => rfl
  | true => cases given <;> exact Report.result_bind _ _

/-- The survey of a folder takes the settings that are given, or else those at the root. -/
theorem analyze_folder {path : Value}
    (named : Location.ofValue host.homes path = .ok root) (folder : d.isFolder root = .ok true)
    (given : Option Settings) :
    (analyze d host path given).result =
      (given.elim (settingsAt d host root).result .ok).bind fun settings =>
        (analyzeTree d host root settings).result := by
  rw [analyze_result, named, Except.mapError, Except.bind, folder]
  rfl

/-- A machine without users. -/
def plainHost : Host := ⟨⟨"/", []⟩, .usual⟩

end Survey

end CodeSurvey
