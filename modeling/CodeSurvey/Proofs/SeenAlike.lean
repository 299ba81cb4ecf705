import CodeSurvey.Proofs.Disk.Related
import CodeSurvey.Proofs.Failures

/-!
# Surveys of disks that are seen alike

A survey knows of the disk what its looks show: what stands at a location, the texts, the settings,
the listing and the documents. Where these are the same (`Disk.SeenAlike`), it comes to the same
step by step, up to the whole analysis with its events (`Disk.SeenAlike.analyze`).
-/

namespace CodeSurvey

/-- Two disks of which every look shows the same. -/
structure Disk.SeenAlike (d d' : Disk) : Prop where
  isFolder : d.isFolder = d'.isFolder
  present : d.present = d'.present
  load : d.load = d'.load
  text? : d.text? = d'.text?
  settings : Settings.load d = Settings.load d'
  listing : d.listing = d'.listing
  loadAll : Document.loadAll d = Document.loadAll d'

/-- If a difference does not show at single locations, it is enough that it does not show in the
listing and in the documents. -/
theorem Disk.Related.seenAlike {R : Node → Node → Prop} {d d' : Disk} (h : Related R d d')
    (listing : d.listing = d'.listing) (loadAll : Document.loadAll d = Document.loadAll d') :
    SeenAlike d d' :=
  ⟨h.isFolder, h.present, h.load, h.text?, h.settings, listing, loadAll⟩

namespace Disk.SeenAlike

variable {d d' : Disk}

/-! ## Looks -/

theorem source (h : SeenAlike d d') : d.source = d'.source := by
  funext depth root exclude
  rw [Disk.source, Disk.source, h.listing, h.present, h.load]

theorem files (h : SeenAlike d d') : Snapshot.files d = Snapshot.files d' := by
  funext depth s
  rw [Snapshot.files, Snapshot.files, h.listing]

theorem read (h : SeenAlike d d') : Snapshot.read d = Snapshot.read d' := by
  funext s path
  rw [Snapshot.read, Snapshot.read, h.load]

/-- A scan is carried out in the same way, look by look. -/
theorem perform (h : SeenAlike d d') (depth : Nat) {α : Type} (scan : Scan α) :
    Snapshot.perform d depth scan = Snapshot.perform d' depth scan := by
  funext s
  induction scan generalizing s with
  | done a => rfl
  | files next ih =>
    simp only [Snapshot.perform, h.files, ih]
  | present path next ih =>
    simp only [Snapshot.perform, Snapshot.present, h.present, ih]
  | read path next ih =>
    simp only [Snapshot.perform, h.read, ih]

theorem readme (h : SeenAlike d d') : d.readme = d'.readme := by
  funext root
  have first (names : List String) : d.firstText root names = d'.firstText root names := by
    induction names with
    | nil => rfl
    | cons name rest ih => rw [firstText_cons, firstText_cons, h.text?, ih]
  rw [Disk.readme, Disk.readme, first]

/-! ## Surveys -/

theorem settingsAt (h : SeenAlike d d') : Survey.settingsAt d = Survey.settingsAt d' := by
  funext host root
  rw [Survey.settingsAt, Survey.settingsAt, h.settings]

theorem detectIn (h : SeenAlike d d') : Survey.detectIn d = Survey.detectIn d' := by
  funext host depth s limits
  rw [Survey.detectIn, Survey.detectIn, h.perform]

theorem detect (h : SeenAlike d d') : Survey.detect d = Survey.detect d' := by
  funext host path limits
  rw [Survey.detect, Survey.detect, h.settingsAt, h.detectIn]

theorem findings (h : SeenAlike d d') : Survey.findings d = Survey.findings d' := by
  have part (depth : Nat) {α : Type} (scan : Scan α) :
      Survey.perform d depth scan = Survey.perform d' depth scan := by
    funext s
    rw [Survey.perform, Survey.perform, h.perform]
  funext depths settings stack s
  simp only [Survey.findings, part]

theorem analyzeTree (h : SeenAlike d d') : Survey.analyzeTree d = Survey.analyzeTree d' := by
  funext host root settings
  simp only [Survey.analyzeTree, h.files, h.detectIn, h.findings, h.readme]

theorem analyze (h : SeenAlike d d') : Survey.analyze d = Survey.analyze d' := by
  funext host path settings
  rw [Survey.analyze, Survey.analyze, h.isFolder, h.settingsAt, h.analyzeTree]

theorem documents (h : SeenAlike d d') : Survey.documents d = Survey.documents d' := by
  funext host folder
  rw [Survey.documents, Survey.documents, h.isFolder, h.loadAll]

end Disk.SeenAlike

end CodeSurvey
