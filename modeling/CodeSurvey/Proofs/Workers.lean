import CodeSurvey.Proofs.Snapshot
import CodeSurvey.Survey
import Mathlib.Logic.Function.Basic

/-!
# Workers that share a snapshot

The parts of a survey may be carried out side by side. Each worker carries out its own scan, and all
of them look at the tree through one snapshot, step by step: a read looks up the text, loads it if
it is not there, stores what was loaded and returns it, and other workers may take their turns
between these steps. Two of them may thus load and store the same text.

`Pool.Consistent` is what every turn preserves. With it the reads that return are those of a new
snapshot, and each worker ends, after finitely many turns of its own, with what its scan finds
alone, in whatever order the turns are taken. So a survey whose parts are carried out one after the
other finds what workers find that carry them out side by side (`Survey.findings_eq_ofParts`).
-/

namespace CodeSurvey

/-- Where a worker stands in its scan. -/
inductive Worker (α : Type) where
  | ready (rest : Scan α)
  /-- The snapshot had no listing. -/
  | unlisted (next : List String → Scan α)
  /-- The listing is made but not stored. -/
  | listed (files : List String) (next : List String → Scan α)
  /-- The snapshot had no text for the path. -/
  | missed (path : String) (next : Option Text → Scan α)
  /-- The text is loaded but not stored. -/
  | loaded (path : String) (outcome : Except Unread Text) (next : Option Text → Scan α)
  /-- The read of the path is about to return. -/
  | returning (path : String) (outcome : Except Unread Text) (next : Option Text → Scan α)
  | ended (result : Except Fault α)

namespace Worker

variable {α : Type}

/-- The worker that goes on with what a look found, or ends with the fault of the look. -/
def resume {β : Type} (found : Except Fault β) (next : β → Scan α) : Worker α :=
  match found with
  | .ok b => ready (next b)
  | .error why => ended (.error why)

/-- One step of a worker on a snapshot that it shares with others. -/
def step (d : Disk) (depth : Nat) (s : Snapshot) : Worker α → Worker α × Snapshot
  | ready (.done result) => (ended (.ok result), s)
  | ready (.files next) =>
    match s.listed with
    | some files => (ready (next files), s)
    | none => (unlisted next, s)
  | ready (.present path next) => (resume (s.present d path) next, s)
  | ready (.read path next) =>
    match s.loaded.lookup path with
    | some outcome => (returning path outcome next, s)
    | none => (missed path next, s)
  | unlisted next =>
    match d.listing depth s.root s.exclude with
    | .ok files => (listed files next, s)
    | .error why => (ended (.error why), s)
  | listed files next => (ready (next files), { s with listed := some files })
  | missed path next => (loaded path (d.load (s.root.join path)) next, s)
  | loaded path outcome next =>
    match readResult outcome with
    | .ok _ => (returning path outcome next, { s with loaded := (path, outcome) :: s.loaded })
    | .error _ => (returning path outcome next, s)
  | returning _ outcome next => (resume (readResult outcome) next, s)
  | ended result => (ended result, s)

/-- The read that returns with the next step, with what it returns. -/
def returned? : Worker α → Option (String × Except Fault (Option Text))
  | returning path outcome _ => some (path, readResult outcome)
  | _ => none

end Worker

/-- Workers with the snapshot they share. -/
structure Pool (ι : Type) (α : ι → Type) where
  shared : Snapshot
  workers : (i : ι) → Worker (α i)
  /-- The reads that have returned, the last one first. -/
  returned : List (String × Except Fault (Option Text))

namespace Pool

variable {ι : Type} {α : ι → Type}

/-- Workers at the start of their scans. -/
def start (s : Snapshot) (work : (i : ι) → Scan (α i)) : Pool ι α :=
  ⟨s, fun i => .ready (work i), []⟩

variable [DecidableEq ι]

/-- One worker takes a step. -/
def turn (d : Disk) (depth : Nat) (p : Pool ι α) (i : ι) : Pool ι α :=
  let (worker, shared) := (p.workers i).step d depth p.shared
  ⟨shared, Function.update p.workers i worker, (p.workers i).returned?.toList ++ p.returned⟩

/-- The workers take their turns in the order of a schedule. -/
def run (d : Disk) (depth : Nat) (p : Pool ι α) (schedule : List ι) : Pool ι α :=
  schedule.foldl (turn d depth) p

end Pool

/-! ## What a worker is to find -/

namespace Scan

variable {α : Type}

/-- How many steps a worker takes at most to carry out a scan of a source. -/
def steps (s : Source) : Scan α → Nat
  | done _ => 1
  | files next => 3 + match s.files with
    | .ok l => (next l).steps s
    | .error _ => 0
  | present path next => 1 + match s.present path with
    | .ok b => (next b).steps s
    | .error _ => 0
  | read path next => 4 + match s.read path with
    | .ok t => (next t).steps s
    | .error _ => 0

end Scan

namespace Worker

variable {α : Type}

/-- What the rest of a worker's scan finds on a source. -/
def outlook (s : Source) : Worker α → Except Fault α
  | ready rest => rest.run s
  | unlisted next | listed _ next => (Scan.files next).run s
  | missed path next | loaded path _ next | returning path _ next => (Scan.read path next).run s
  | ended result => result

/-- How many steps a worker has left at most. -/
def remaining (s : Source) : Worker α → Nat
  | ready rest => rest.steps s
  | unlisted next => (Scan.files next).steps s - 1
  | listed _ next => (Scan.files next).steps s - 2
  | missed path next => (Scan.read path next).steps s - 1
  | loaded path _ next => (Scan.read path next).steps s - 2
  | returning path _ next => (Scan.read path next).steps s - 3
  | ended _ => 0

/-- What a worker holds is as on the disk. -/
def Holds (d : Disk) (depth : Nat) (root : Location) (exclude : List String) : Worker α → Prop
  | listed files _ => d.listing depth root exclude = .ok files
  | loaded path outcome _ | returning path outcome _ => outcome = d.load (root.join path)
  | _ => True

variable {d : Disk} {depth : Nat} {root : Location} {exclude : List String} {s : Snapshot}

/-- What a step makes of a worker and the snapshot: both are still as on the disk, the worker is to
find the same as before, and it has a step less to take. -/
structure Advances (d : Disk) (depth : Nat) (root : Location) (exclude : List String)
    (w : Worker α) (after : Worker α × Snapshot) : Prop where
  agrees : after.2.Agrees d depth root exclude
  holds : after.1.Holds d depth root exclude
  outlook : after.1.outlook (d.source depth root exclude) = w.outlook (d.source depth root exclude)
  remaining : after.1.remaining (d.source depth root exclude) ≤
    w.remaining (d.source depth root exclude) - 1

theorem step_ready (agrees : s.Agrees d depth root exclude) (rest : Scan α) :
    Advances d depth root exclude (ready rest) (step d depth s (ready rest)) := by
  cases rest with
  | done result => exact ⟨agrees, trivial, rfl, by simp [step, remaining]⟩
  | files next =>
    rw [step]
    split
    · next files listed =>
      have same : (d.source depth root exclude).files = .ok files := by
        rw [Disk.source_files, agrees.listed files listed]
      refine ⟨agrees, trivial, ?_, ?_⟩
      · simp [outlook, Scan.run, same, Except.bind]
      · simp only [remaining, Scan.steps, same]; omega
    · exact ⟨agrees, trivial, rfl, Nat.le_refl _⟩
  | present path next =>
    rw [step, agrees.present path]
    cases same : (d.source depth root exclude).present path with
    | ok b =>
      refine ⟨agrees, trivial, ?_, ?_⟩
      · simp [outlook, resume, Scan.run, same, Except.bind]
      · simp only [remaining, resume, Scan.steps, same]; omega
    | error why =>
      refine ⟨agrees, trivial, ?_, Nat.zero_le _⟩
      simp [outlook, resume, Scan.run, same, Except.bind]
  | read path next =>
    rw [step]
    split
    · next outcome found =>
      refine ⟨agrees, agrees.loaded path outcome found, rfl, ?_⟩
      simp only [remaining]; omega
    · exact ⟨agrees, trivial, rfl, Nat.le_refl _⟩

theorem step_advances (agrees : s.Agrees d depth root exclude) {w : Worker α}
    (holds : w.Holds d depth root exclude) :
    Advances d depth root exclude w (w.step d depth s) := by
  cases w with
  | ready rest => exact step_ready agrees rest
  | unlisted next =>
    rw [step, agrees.root_eq, agrees.exclude_eq]
    split
    · next files listed => exact ⟨agrees, listed, rfl, by simp only [remaining]; omega⟩
    · next why listed =>
      have same : (d.source depth root exclude).files = .error why := by
        rw [Disk.source_files, listed]
      exact ⟨agrees, trivial, by simp [outlook, Scan.run, same, Except.bind], Nat.zero_le _⟩
  | listed files next =>
    have same : (d.source depth root exclude).files = .ok files :=
      (Disk.source_files ..).trans holds
    refine ⟨agrees.list holds, trivial, by simp [step, outlook, Scan.run, same, Except.bind], ?_⟩
    simp only [step, remaining, Scan.steps, same]; omega
  | missed path next =>
    rw [step, agrees.root_eq]
    exact ⟨agrees, rfl, rfl, by simp only [remaining]; omega⟩
  | loaded path outcome next =>
    obtain rfl := holds
    rw [step]
    split
    · exact ⟨agrees.store path, rfl, rfl, by simp only [remaining]; omega⟩
    · exact ⟨agrees, rfl, rfl, by simp only [remaining]; omega⟩
  | returning path outcome next =>
    have same : (d.source depth root exclude).read path = readResult outcome := by
      rw [Disk.source_read, holds]
    rw [step]
    cases e : readResult outcome with
    | ok text =>
      refine ⟨agrees, trivial, by simp [outlook, resume, Scan.run, same, e, Except.bind], ?_⟩
      simp only [remaining, resume, Scan.steps, same, e]; omega
    | error why =>
      refine ⟨agrees, trivial, ?_, Nat.zero_le _⟩
      simp [outlook, resume, Scan.run, same, e, Except.bind]
  | ended result => exact ⟨agrees, trivial, rfl, Nat.le_refl _⟩

/-- A worker without a step left has ended, with what it was to find. -/
theorem ended_of_remaining {source : Source} {w : Worker α} (none_left : w.remaining source = 0) :
    w = ended (w.outlook source) := by
  cases w with
  | ended result => rfl
  | ready rest => cases rest <;> simp [remaining, Scan.steps] at none_left
  | unlisted next => simp only [remaining, Scan.steps] at none_left; omega
  | listed files next => simp only [remaining, Scan.steps] at none_left; omega
  | missed path next => simp only [remaining, Scan.steps] at none_left; omega
  | loaded path outcome next => simp only [remaining, Scan.steps] at none_left; omega
  | returning path outcome next => simp only [remaining, Scan.steps] at none_left; omega

/-- A read returns what the disk has. -/
theorem read_of_returned {w : Worker α} (holds : w.Holds d depth root exclude)
    {path : String} {found : Except Fault (Option Text)}
    (returned : w.returned? = some (path, found)) :
    found = (d.source depth root exclude).read path := by
  cases w with
  | returning other outcome next =>
    cases returned
    rw [Disk.source_read, holds]
  | _ => cases returned

end Worker

/-! ## Any order of turns -/

namespace Pool

variable {ι : Type} {α : ι → Type} {d : Disk} {depth : Nat} {root : Location}
  {exclude : List String} {work : (i : ι) → Scan (α i)} {p : Pool ι α}

/-- Nobody holds anything that is not on the disk, each worker is to find what its scan finds alone,
and the reads that have returned are right. -/
structure Consistent (d : Disk) (depth : Nat) (root : Location) (exclude : List String)
    (work : (i : ι) → Scan (α i)) (p : Pool ι α) : Prop where
  agrees : p.shared.Agrees d depth root exclude
  holds : ∀ i, (p.workers i).Holds d depth root exclude
  outlook : ∀ i, (p.workers i).outlook (d.source depth root exclude) =
    (work i).run (d.source depth root exclude)
  returned : ∀ read ∈ p.returned, read.2 = (d.source depth root exclude).read read.1

theorem start_consistent {s : Snapshot} (agrees : s.Agrees d depth root exclude)
    (work : (i : ι) → Scan (α i)) : (start s work).Consistent d depth root exclude work :=
  ⟨agrees, fun _ => trivial, fun _ => rfl, fun _ member => by cases member⟩

variable [DecidableEq ι]

theorem turn_consistent (h : p.Consistent d depth root exclude work) (i : ι) :
    (p.turn d depth i).Consistent d depth root exclude work := by
  have advances := Worker.step_advances h.agrees (h.holds i)
  refine ⟨advances.agrees, fun j => ?_, fun j => ?_, fun read member => ?_⟩
  · by_cases same : j = i
    · subst same; simpa [turn] using advances.holds
    · simpa [turn, same] using h.holds j
  · by_cases same : j = i
    · subst same; simpa [turn] using advances.outlook.trans (h.outlook j)
    · simpa [turn, same] using h.outlook j
  · rcases List.mem_append.1 member with new | old
    · exact Worker.read_of_returned (h.holds i) (Option.mem_toList.1 new)
    · exact h.returned read old

theorem run_consistent (h : p.Consistent d depth root exclude work) (schedule : List ι) :
    (p.run d depth schedule).Consistent d depth root exclude work := by
  induction schedule generalizing p with
  | nil => exact h
  | cons i schedule ih => exact ih (turn_consistent h i)

/-- A turn brings the worker that takes it nearer to its end and no other further from it. -/
theorem remaining_turn (h : p.Consistent d depth root exclude work) (i j : ι) :
    ((p.turn d depth i).workers j).remaining (d.source depth root exclude) ≤
      (p.workers j).remaining (d.source depth root exclude) - [i].count j := by
  by_cases same : i = j
  · subst same
    simpa [turn] using (Worker.step_advances h.agrees (h.holds i)).remaining
  · simp [turn, Ne.symm same, same]

theorem remaining_run (h : p.Consistent d depth root exclude work) (schedule : List ι) (j : ι) :
    ((p.run d depth schedule).workers j).remaining (d.source depth root exclude) ≤
      (p.workers j).remaining (d.source depth root exclude) - schedule.count j := by
  induction schedule generalizing p with
  | nil => simp [run]
  | cons i schedule ih =>
    have first := remaining_turn h i j
    have later := ih (turn_consistent h i)
    rw [← List.singleton_append, List.count_append]
    exact Nat.le_trans later (by omega)

theorem run_eq_ended (h : p.Consistent d depth root exclude work) {schedule : List ι} {i : ι}
    (enough : (p.workers i).remaining (d.source depth root exclude) ≤ schedule.count i) :
    (p.run d depth schedule).workers i = .ended ((work i).run (d.source depth root exclude)) := by
  have none_left := remaining_run h schedule i
  rw [← (run_consistent h schedule).outlook i]
  exact Worker.ended_of_remaining (by omega)

/-- If there are finitely many workers, there is an order of turns in which all of them end. -/
theorem exists_run_eq_ended (h : p.Consistent d depth root exclude work) {all : List ι}
    (every : ∀ i, i ∈ all) :
    ∃ schedule, ∀ i, (p.run d depth schedule).workers i =
      .ended ((work i).run (d.source depth root exclude)) := by
  let turns (i : ι) : List ι := .replicate ((p.workers i).remaining (d.source depth root exclude)) i
  refine ⟨all.flatMap turns, fun i => run_eq_ended h ?_⟩
  have within : (turns i).Sublist (all.flatMap turns) :=
    List.sublist_flatten_of_mem (List.mem_map_of_mem (every i))
  have counted := within.count_le i
  rwa [List.count_replicate_self] at counted

/-- On a disk that does not change, sharing a snapshot shows in no result, whatever was looked at
before the workers start, however many they are and in whatever order they take their turns. Each
read that returns gives what is loaded for its path; a worker that has ended has found what its scan
finds alone on a new snapshot; and it has ended once it has had enough turns. -/
theorem run_transparent {β : Type} (d : Disk) (depth : Nat) (root : Location)
    (exclude : List String) (before : Scan β) (work : (i : ι) → Scan (α i)) :
    let p := start ((Snapshot.new root exclude).perform d depth before).2 work
    (∀ schedule, ∀ read ∈ (p.run d depth schedule).returned,
      read.2 = readResult (d.load (root.join read.1))) ∧
    (∀ schedule i result, (p.run d depth schedule).workers i = .ended result →
      result = ((Snapshot.new root exclude).perform d depth (work i)).1) ∧
    ∀ i, ∃ enough, ∀ schedule : List ι, enough ≤ schedule.count i →
      (p.run d depth schedule).workers i =
        .ended ((Snapshot.new root exclude).perform d depth (work i)).1 := by
  intro p
  have started : p.Consistent d depth root exclude work :=
    start_consistent ((Snapshot.new_agrees d depth root exclude).perform before).2 work
  refine ⟨fun schedule read returned => ?_, ?_, fun i => ?_⟩
  · rw [(run_consistent started schedule).returned read returned, Disk.source_read]
  · intro schedule i result ended
    have found := (run_consistent started schedule).outlook i
    rw [ended] at found
    rw [Snapshot.perform_new]
    exact found
  · refine ⟨(p.workers i).remaining (d.source depth root exclude), fun schedule enough => ?_⟩
    rw [Snapshot.perform_new]
    exact run_eq_ended started enough

end Pool

/-! ## The parts of a survey -/

namespace Survey

/-- What a part of a survey finds: that of a category records, and the last part the entries of the
manifest. -/
abbrev Found : Option Category → Type
  | some .routes => List Route
  | some .models => List Model
  | some .controllers => List Controller
  | some .components => List Component
  | some .services => List Service
  | none => Except Manifest.Fault Manifest.Entries

/-- The parts of the survey of a tree with a stack. -/
def parts (depths : Depths) (settings : Settings) (stack : Stack) :
    (i : Option Category) → Scan (Found i)
  | some .routes => extract settings .routes stack.routes
  | some .models => extract settings .models stack.models
  | some .controllers => extract settings .controllers stack.controllers
  | some .components => extract settings .components stack.components
  | some .services => extract settings .services stack.services
  | none => (Manifest.readerFor stack.language).scan depths

/-- The findings that the results of the parts make up. -/
def ofParts (result : (i : Option Category) → Except Fault (Found i)) : Findings :=
  let said {i} (found : Except Fault (Found i)) := found.mapError Fault.description
  ⟨said (result (some .routes)), said (result (some .models)), said (result (some .controllers)),
    said (result (some .components)), said (result (some .services)),
    (said (result none)).bind fun entries => entries.mapError Manifest.Fault.message⟩

variable {d : Disk} {depths : Depths} {root : Location} {exclude : List String} {s : Snapshot}

theorem perform_agrees {depth : Nat} {α : Type} (agrees : s.Agrees d depth root exclude)
    (part : Scan α) :
    (perform d depth part s).1 =
        (part.run (d.source depth root exclude)).mapError Fault.description ∧
      (perform d depth part s).2.Agrees d depth root exclude := by
  obtain ⟨same, agrees⟩ := agrees.perform part
  exact ⟨congrArg (Except.mapError Fault.description) same, agrees⟩

/-- Each part of a survey finds what it finds alone on the source. -/
theorem findings_eq_run (agrees : s.Agrees d depths.listing root exclude) (settings : Settings)
    (stack : Stack) :
    findings d depths settings stack s = ofParts fun i =>
      (parts depths settings stack i).run (d.source depths.listing root exclude) := by
  obtain ⟨routes, agrees⟩ := perform_agrees agrees (extract settings .routes stack.routes)
  obtain ⟨models, agrees⟩ := perform_agrees agrees (extract settings .models stack.models)
  obtain ⟨controllers, agrees⟩ :=
    perform_agrees agrees (extract settings .controllers stack.controllers)
  obtain ⟨components, agrees⟩ :=
    perform_agrees agrees (extract settings .components stack.components)
  obtain ⟨services, agrees⟩ := perform_agrees agrees (extract settings .services stack.services)
  obtain ⟨config, -⟩ := perform_agrees agrees ((Manifest.readerFor stack.language).scan depths)
  simp only [findings, routes, models, controllers, components, services, config]
  rfl

/-- The findings of a survey are what workers that share its snapshot end with, in whatever order
they take their turns. -/
theorem findings_eq_ofParts (agrees : s.Agrees d depths.listing root exclude) (settings : Settings)
    (stack : Stack) (schedule : List (Option Category))
    {result : (i : Option Category) → Except Fault (Found i)}
    (ended : ∀ i,
      ((Pool.start s (parts depths settings stack)).run d depths.listing schedule).workers i =
        .ended (result i)) :
    findings d depths settings stack s = ofParts result := by
  have alone : result = fun i =>
      (parts depths settings stack i).run (d.source depths.listing root exclude) := by
    funext i
    have found := (Pool.run_consistent (Pool.start_consistent agrees (parts depths settings stack))
      schedule).outlook i
    rw [ended] at found
    exact found
  rw [findings_eq_run agrees, alone]

end Survey

end CodeSurvey
