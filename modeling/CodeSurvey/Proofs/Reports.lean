import CodeSurvey.Proofs.Scan
import CodeSurvey.Record

/-!
# What is reported of files

A type is reported as a model if it has any field (`Model.ofFields_eq_iff`). An extractor that
visits files one by one reports of a source what the visits to the texts give
(`Scan.run_eachFile_of_reads`).
-/

namespace CodeSurvey

namespace Model

theorem ofFields_eq_iff {name file : String} {fields fields' : List Field} :
    ofFields name fields file = [⟨name, fields', file⟩] ↔
      fields' ≠ [] ∧ fields = fields' := by
  rw [ofFields]
  split
  · next empty =>
    have none : fields = [] := List.isEmpty_iff.1 empty
    refine iff_of_false nofun ?_
    rintro ⟨nonempty, rfl⟩
    exact nonempty none
  · next nonempty =>
    have some : fields ≠ [] := fun none => nonempty (List.isEmpty_iff.2 none)
    constructor
    · intro same
      obtain ⟨model, -⟩ := List.cons.inj same
      injection model with _ fieldsSame
      exact ⟨fieldsSame ▸ some, fieldsSame⟩
    · rintro ⟨-, rfl⟩
      rfl

/-- Two lists of fields give the same report only if they are the same. -/
theorem ofFields_inj {name file : String} {fields fields' : List Field} :
    ofFields name fields file = ofFields name fields' file ↔ fields = fields' := by
  cases fields' with
  | nil => simp [ofFields]
  | cons f fields' =>
    have some : ofFields name (f :: fields') file = [⟨name, f :: fields', file⟩] := rfl
    rw [some, ofFields_eq_iff]
    simp

end Model

namespace Scan

variable {ρ : Type} {s : Source} {l : List String} {texts : String → Option Text}

/-- What a visit to a file gives, if there is a text. -/
def visited (visit : String → Text → List ρ) (texts : String → Option Text) (path : String) :
    List ρ := ((texts path).map (visit path)).getD []

theorem run_eachFile_of_reads (listed : s.files = .ok l)
    (reads : ∀ path ∈ l, s.read path = .ok (texts path)) (patterns : List String)
    (visit : String → Text → List ρ) :
    (eachFile patterns visit).run s =
      .ok ((findFiles patterns l).flatMap (visited visit texts)) := by
  rw [run_eachFile listed]
  exact run_eachText_of_reads (fun path chosen =>
    reads path ((findFiles_choosesEach patterns).mem chosen)) visit

end Scan

end CodeSurvey
