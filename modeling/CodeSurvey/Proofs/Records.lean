import CodeSurvey.Extractors
import CodeSurvey.Proofs.Scan

/-!
# Records by file

Every record names the file it was found in. Of records with the same key the first one counts;
where the key has the file in it, the records of one file do not matter to those of another
(`firstBy_keptIn`).
-/

namespace CodeSurvey

/-! ## Records of any kind -/

inductive Record where
  | route (r : Route)
  | model (m : Model)
  | controller (c : Controller)
  | component (c : Component)
  | service (s : Service)

def Record.file : Record → String
  | route r => r.file
  | model m => m.file
  | controller c => c.file
  | component c => c.file
  | service s => s.file

instance : Filed Route := ⟨Route.file⟩
instance : Filed Model := ⟨Model.file⟩
instance : Filed Controller := ⟨Controller.file⟩
instance : Filed Component := ⟨Component.file⟩
instance : Filed Service := ⟨Service.file⟩
instance : Filed Record := ⟨Record.file⟩

@[simp] theorem Route.filed (r : Route) : Filed.file r = r.file := rfl
@[simp] theorem Model.filed (m : Model) : Filed.file m = m.file := rfl
@[simp] theorem Controller.filed (c : Controller) : Filed.file c = c.file := rfl
@[simp] theorem Component.filed (c : Component) : Filed.file c = c.file := rfl
@[simp] theorem Service.filed (s : Service) : Filed.file s = s.file := rfl

namespace Extractor

/-- The extractor with its records among those of any kind. -/
def toRecords {ρ : Type} (kind : ρ → Record) (e : Extractor ρ) : Extractor Record :=
  ⟨e.label, do let records ← e.scan; return records.map kind⟩

theorem run_toRecords {ρ : Type} (s : Source) (kind : ρ → Record) (e : Extractor ρ) :
    (e.toRecords kind).scan.run s = (e.scan.run s).map (List.map kind) := by
  show (e.scan.bind fun records => Scan.done (records.map kind)).run s = _
  rw [Scan.run_bind]
  cases e.scan.run s <;> rfl

/-- The extractors of all categories. -/
def all : List (Extractor Record) :=
  allRoutes.map (toRecords .route) ++ allModels.map (toRecords .model) ++
    allControllers.map (toRecords .controller) ++ allComponents.map (toRecords .component) ++
    allServices.map (toRecords .service)

end Extractor

/-! ## The first record for each key -/

section
variable {ρ κ : Type} [BEq κ]

/-- One record looked at by `Routes.firstBy`: the keys seen and the records kept so far. -/
def firstStep (key : ρ → κ) (state : List κ × List ρ) (r : ρ) : List κ × List ρ :=
  if state.1.contains (key r) then state else (key r :: state.1, r :: state.2)

theorem firstBy_eq (key : ρ → κ) (records : List ρ) :
    Routes.firstBy key records = (records.foldl (firstStep key) ([], [])).2.reverse := rfl

variable {key : ρ → κ}

theorem mem_firstBy {records : List ρ} {r : ρ} (h : r ∈ Routes.firstBy key records) :
    r ∈ records := by
  have go (state : List κ × List ρ) (rest : List ρ)
      (member : r ∈ (rest.foldl (firstStep key) state).2) : r ∈ state.2 ∨ r ∈ rest := by
    induction rest generalizing state with
    | nil => exact .inl member
    | cons first rest ih =>
      rcases ih _ member with kept | later
      · rw [firstStep] at kept
        split at kept
        · exact .inl kept
        · rcases List.mem_cons.1 kept with rfl | kept
          · exact .inr (.head _)
          · exact .inl kept
      · exact .inr (.tail _ later)
  rw [firstBy_eq, List.mem_reverse] at h
  simpa using go ([], []) records h

/-- Where the key of a record has its file in it, files do not matter to each other. The induction
goes along the records; the keys seen with and without the missing files are the same for records
that are kept. -/
theorem firstBy_keptIn [LawfulBEq κ] [Filed ρ]
    (apart : ∀ r r', key r = key r' → Filed.file r = Filed.file r') (keep : String → Bool)
    (records : List ρ) :
    Routes.firstBy key (keptIn keep records) = keptIn keep (Routes.firstBy key records) := by
  have go (seen seen' : List κ) (kept : List ρ)
      (agree : ∀ r, keep (Filed.file r) = true → seen'.contains (key r) = seen.contains (key r)) :
      ((keptIn keep records).foldl (firstStep key) (seen', keptIn keep kept)).2 =
        keptIn keep (records.foldl (firstStep key) (seen, kept)).2 := by
    induction records generalizing seen seen' kept with
    | nil => rfl
    | cons r rest ih =>
      have sameKey (r' : ρ) (keeps : keep (Filed.file r') ≠ keep (Filed.file r)) :
          key r' ≠ key r := fun same => keeps (by rw [apart r' r same])
      cases keeps : keep (Filed.file r) with
      | true =>
        have first : keptIn keep (r :: rest) = r :: keptIn keep rest :=
          List.filter_cons_of_pos keeps
        rw [first, List.foldl_cons, List.foldl_cons]
        simp only [firstStep, agree r keeps]
        split
        · exact ih seen seen' kept agree
        · have step := ih (key r :: seen) (key r :: seen') (r :: kept)
            fun r' keeps' => by simp only [List.contains_cons, agree r' keeps']
          rwa [show keptIn keep (r :: kept) = r :: keptIn keep kept from
            List.filter_cons_of_pos keeps] at step
      | false =>
        have first : keptIn keep (r :: rest) = keptIn keep rest :=
          List.filter_cons_of_neg (by simp [keeps])
        rw [first, List.foldl_cons]
        simp only [firstStep]
        split
        · exact ih seen seen' kept agree
        · have step := ih (key r :: seen) seen' (r :: kept) fun r' keeps' => by
            have other : (key r' == key r) = false :=
              beq_false_of_ne (sameKey r' (by rw [keeps', keeps]; simp))
            rw [List.contains_cons, other, Bool.false_or, agree r' keeps']
          rwa [show keptIn keep (r :: kept) = keptIn keep kept from
            List.filter_cons_of_neg (by simp [keeps])] at step
  rw [firstBy_eq, firstBy_eq]
  have same := go [] [] [] fun _ _ => rfl
  rw [show keptIn keep ([] : List ρ) = [] from rfl] at same
  rw [same, keptIn, keptIn, List.filter_reverse]

end

end CodeSurvey
