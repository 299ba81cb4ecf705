import CodeSurvey.Snapshot

/-!
# Snapshots of a disk that does not change

What a snapshot keeps agrees with the disk as long as the disk does not change (`Snapshot.Agrees`).
A scan then finds through the snapshot what it would find on the source itself, whatever was looked
at before (`Snapshot.Agrees.perform`).
-/

namespace CodeSurvey.Snapshot

variable {d : Disk} {depth : Nat} {root : Location} {exclude : List String} {s : Snapshot}
  {α : Type}

/-- All that a snapshot of a tree keeps is as on the disk. -/
structure Agrees (d : Disk) (depth : Nat) (root : Location) (exclude : List String)
    (s : Snapshot) : Prop where
  root_eq : s.root = root
  exclude_eq : s.exclude = exclude
  listed : ∀ l, s.listed = some l → d.listing depth root exclude = .ok l
  loaded : ∀ path outcome, s.loaded.lookup path = some outcome →
    outcome = d.load (root.join path)

theorem new_agrees (d : Disk) (depth : Nat) (root : Location) (exclude : List String) :
    (new root exclude).Agrees d depth root exclude :=
  ⟨rfl, rfl, by simp [new], by simp [new]⟩

namespace Agrees

theorem list (h : s.Agrees d depth root exclude) {l : List String}
    (listed : d.listing depth root exclude = .ok l) :
    Agrees d depth root exclude { s with listed := some l } :=
  ⟨h.root_eq, h.exclude_eq, fun _ same => by cases same; exact listed, h.loaded⟩

/-- Storing the outcome of a load keeps the agreement, also if another was stored before. -/
theorem store (h : s.Agrees d depth root exclude) (path : String) :
    Agrees d depth root exclude
      { s with loaded := (path, d.load (root.join path)) :: s.loaded } := by
  refine ⟨h.root_eq, h.exclude_eq, h.listed, fun other outcome found => ?_⟩
  rw [List.lookup_cons] at found
  split at found
  · next same =>
    obtain rfl := beq_iff_eq.1 same
    cases found
    rfl
  · exact h.loaded other outcome found

theorem files (h : s.Agrees d depth root exclude) :
    (s.files d depth).1 = (d.source depth root exclude).files ∧
      (s.files d depth).2.Agrees d depth root exclude := by
  obtain rfl := h.root_eq
  obtain rfl := h.exclude_eq
  simp only [Disk.source, Snapshot.files]
  split
  · next l listed => exact ⟨(h.listed l listed).symm, h⟩
  · split
    · next l listed => exact ⟨listed.symm, h.list listed⟩
    · next why listed => exact ⟨listed.symm, h⟩

theorem present (h : s.Agrees d depth root exclude) (path : String) :
    s.present d path = (d.source depth root exclude).present path := by
  obtain rfl := h.root_eq
  rfl

theorem read (h : s.Agrees d depth root exclude) (path : String) :
    (s.read d path).1 = (d.source depth root exclude).read path ∧
      (s.read d path).2.Agrees d depth root exclude := by
  obtain rfl := h.root_eq
  simp only [Disk.source, Snapshot.read]
  split
  · next outcome found => exact ⟨by rw [h.loaded path outcome found], h⟩
  · split
    · next text loaded => exact ⟨loaded.symm, h.store path⟩
    · next why loaded => exact ⟨loaded.symm, h⟩

theorem andThen {β : Type} {look : Except Fault β × Snapshot} {found : Except Fault β}
    {next : β → Snapshot → Except Fault α × Snapshot} {result : β → Except Fault α}
    (h : look.1 = found ∧ look.2.Agrees d depth root exclude)
    (later : ∀ b s, s.Agrees d depth root exclude →
      (next b s).1 = result b ∧ (next b s).2.Agrees d depth root exclude) :
    (Snapshot.andThen look next).1 = found.bind result ∧
      (Snapshot.andThen look next).2.Agrees d depth root exclude := by
  obtain ⟨outcome, s⟩ := look
  obtain ⟨rfl, agrees⟩ := h
  cases outcome with
  | ok b => exact later b s agrees
  | error why => exact ⟨rfl, agrees⟩

/-- A scan finds what it finds on the source, and leaves the snapshot in agreement. -/
theorem perform (h : s.Agrees d depth root exclude) (scan : Scan α) :
    (s.perform d depth scan).1 = scan.run (d.source depth root exclude) ∧
      (s.perform d depth scan).2.Agrees d depth root exclude := by
  induction scan generalizing s with
  | done result => exact ⟨rfl, h⟩
  | files next ih => exact Agrees.andThen h.files fun l s agrees => ih l agrees
  | present path next ih => exact Agrees.andThen ⟨h.present path, h⟩ fun b s agrees => ih b agrees
  | read path next ih => exact Agrees.andThen (h.read path) fun text s agrees => ih text agrees

end Agrees

/-- On a new snapshot a scan finds what it finds on the source. -/
theorem perform_new (d : Disk) (depth : Nat) (root : Location) (exclude : List String)
    (scan : Scan α) :
    ((new root exclude).perform d depth scan).1 = scan.run (d.source depth root exclude) :=
  ((new_agrees d depth root exclude).perform scan).1

end CodeSurvey.Snapshot
