import CodeSurvey.Proofs.Categories
import CodeSurvey.Proofs.Detection
import CodeSurvey.Proofs.Extractors

/-!
# What the parts of a survey can see

A path is visible if it enters no folder with an excluded name. The parts of a survey look at the
listed files and at fixed paths, and all of these are visible but one: `bin/rails` tells Rails by
being there, and is never read. So two sources that are alike for visible paths and for the presence
of `bin/rails` have the same stack (`Source.VisiblyAlike.stackOf`), and each part finds the same in
both (`Source.VisiblyAlike.parts`).
-/

namespace CodeSurvey

/-- Whether names lead to a place without entering a folder with an excluded name. The last name may
be excluded. -/
def IsVisible (names : List String) : Prop := ∀ name ∈ names.dropLast, name ∉ excludedNames

instance : DecidablePred IsVisible :=
  fun names => inferInstanceAs (Decidable (∀ name ∈ names.dropLast, _))

/-- Whether a path is made of names of entries that are visible. -/
def IsVisiblePath (path : String) : Prop :=
  (∀ name ∈ segments path, isEntryName name = true) ∧ IsVisible (segments path)

instance : DecidablePred IsVisiblePath :=
  fun path => inferInstanceAs (Decidable ((∀ name ∈ segments path, _) ∧ _))

/-- Whether two sources list the same files, all of them visible, and are alike for all visible
paths and for the presence of the one path that is asked for without being visible. -/
structure Source.VisiblyAlike (l : List String) (s s' : Source) : Prop where
  files : s.files = .ok l
  files' : s'.files = .ok l
  listed : ∀ path ∈ l, IsVisiblePath path
  present : ∀ path, IsVisiblePath path → s'.present path = s.present path
  read : ∀ path, IsVisiblePath path → s'.read path = s.read path
  rails : s'.present "bin/rails" = s.present "bin/rails"

open Scan

/-! ## Scans of visible paths -/

/-- Whether a scan looks at the listing and at visible paths only. -/
abbrev Scan.LooksAtVisible {α : Type} (l : List String) (scan : Scan α) : Prop :=
  scan.KeepsTo l IsVisiblePath IsVisiblePath fun _ => True

namespace Manifest

variable {l : List String}

theorem fromText_visible {path : String} {otherwise : Entries}
    {entries : Text → Except Fault Entries} (visible : IsVisiblePath path) :
    (fromText path otherwise entries).LooksAtVisible l := by
  refine .bind (.readText visible) fun text _ => ?_
  cases text with
  | none => trivial
  | some text => trivial

theorem python_visible (depths : Depths) : (python.scan depths).LooksAtVisible l := by
  refine .bind (.isPresent (by decide +kernel)) fun declared _ => ?_
  cases declared with
  | true => exact fromText_visible (by decide +kernel)
  | false =>
    refine .bind (.isPresent (by decide +kernel)) fun installed _ => ?_
    cases installed with
    | true => trivial
    | false => trivial

theorem readers_visible (depths : Depths) :
    ∀ entry ∈ readers, (entry.2.scan depths).LooksAtVisible l := by
  simp only [readers, List.forall_mem_cons, List.not_mem_nil, false_implies, implies_true, and_true]
  have package : (package.scan depths).LooksAtVisible l := fromText_visible (by decide +kernel)
  exact ⟨fromText_visible (by decide +kernel), python_visible depths, package, package,
    fromText_visible (by decide +kernel), fromText_visible (by decide +kernel),
    fromText_visible (by decide +kernel), fromText_visible (by decide +kernel),
    fromText_visible (by decide +kernel), trivial⟩

end Manifest

theorem Manifest.readerFor_visible (depths : Depths) (l : List String) (language : String) :
    ((readerFor language).scan depths).LooksAtVisible l := by
  rw [readerFor]
  cases found : readers.lookup language with
  | none => trivial
  | some reader => exact readers_visible depths _ (mem_of_lookup found)

/-- What holds of the extractors of a table and of another one holds of the one chosen for a
stack. -/
theorem Extractor.Table.find?_elim {ρ : Type} {table : Table ρ} {P : Extractor ρ → Prop}
    {otherwise : Extractor ρ} (entries : ∀ entry ∈ table, P entry.2) (other : P otherwise)
    (stack : Stack) : P ((table.find? stack).getD otherwise) := by
  rw [Table.find?]
  cases exactly : table.lookup stack with
  | some e => exact entries _ (mem_of_lookup exactly)
  | none =>
    cases byLanguage : table.lookup ⟨stack.language, none⟩ with
    | some e => exact entries _ (mem_of_lookup byLanguage)
    | none => exact other

/-! ## Sources that are alike -/

namespace Source.VisiblyAlike

variable {l : List String} {s s' : Source}

theorem run (h : s.VisiblyAlike l s') {α : Type} {scan : Scan α} (looks : scan.LooksAtVisible l) :
    scan.run s' = scan.run s :=
  looks.run_eq h.files h.files' h.present h.read

theorem detect (h : s.VisiblyAlike l s') (depth : Nat) (limits : SampleLimits) :
    (Stack.detect depth limits).run s' = (Stack.detect depth limits).run s := by
  have manifests : ∀ path ∈ Stack.manifests, path ≠ "bin/rails" → IsVisiblePath path := by
    decide +kernel
  refine (Stack.detect_keepsTo depth limits l).run_eq h.files h.files' (fun path asked => ?_)
    fun path may => h.read path ?_
  · by_cases rails : path = "bin/rails"
    · rw [rails, h.rails]
    · exact h.present path (manifests path asked rails)
  · rcases may with ⟨asked, other⟩ | member
    · exact manifests path asked other
    · exact h.listed path member

theorem stackOf (h : s.VisiblyAlike l s') (depth : Nat) (limits : SampleLimits) :
    Survey.stackOf depth limits s' = Survey.stackOf depth limits s := by
  rw [Survey.stackOf, Survey.stackOf, h.detect]

/-- Nothing is left out where one source is restricted to the other. -/
theorem restricts (h : s.VisiblyAlike l s') {asides : List String}
    (visible : ∀ path ∈ asides, IsVisiblePath path) :
    s.Restricts (fun _ => true) asides l s' where
  files := h.files
  files' := by rw [List.filter_true]; exact h.files'
  same path member _ := h.read path (h.listed path member)
  asides path aside := h.read path (visible path aside)
  reads _ _ missing := by cases missing

theorem run_local (h : s.VisiblyAlike l s') {ρ : Type} [Filed ρ] {asides : List String}
    {scan : Scan (List ρ)} (isLocal : IsLocal asides scan)
    (visible : ∀ path ∈ asides, IsVisiblePath path) : scan.run s' = scan.run s := by
  rw [isLocal (h.restricts visible)]
  have all (records : List ρ) : keptIn (fun _ => true) records = records := by simp [keptIn]
  cases scan.run s with
  | error why => rfl
  | ok records => exact congrArg Except.ok (all records)

theorem run_ordinary (h : s.VisiblyAlike l s') {ρ : Type} [Filed ρ] (e : Extractor ρ)
    (ordinary : e.IsOrdinary) : e.scan.run s' = e.scan.run s :=
  h.run_local (ordinary.1 []) (List.forall_mem_nil _)

/-! ### Parts -/

theorem routes (h : s.VisiblyAlike l s') (stack : Stack) :
    stack.routes.scan.run s' = stack.routes.scan.run s := by
  refine Extractor.Table.find?_elim (P := fun e => e.scan.run s' = e.scan.run s)
    (Extractor.forall_routeTable h.run_ordinary ?phoenix ?rails) ?generic stack
  case phoenix =>
    rw [Routes.run_phoenix, Routes.run_phoenix,
      h.run_local Routes.inRouters_isLocal (List.forall_mem_nil _)]
  case rails => rw [Routes.run_rails, Routes.run_rails, h.read _ (by decide +kernel)]
  case generic => exact h.run_local Routes.generic_isLocal (List.forall_mem_nil _)

theorem models (h : s.VisiblyAlike l s') (stack : Stack) :
    stack.models.scan.run s' = stack.models.scan.run s := by
  refine Extractor.Table.find?_elim (P := fun e => e.scan.run s' = e.scan.run s)
    (Extractor.forall_modelTable h.run_ordinary ?activeRecord) rfl stack
  have schema : ∀ path ∈ [Models.schemaFile], IsVisiblePath path := by decide +kernel
  exact h.run_local (Models.activeRecord_isLocal (.head _)) schema

theorem chosen (h : s.VisiblyAlike l s') {ρ : Type} [Filed ρ] {table : Extractor.Table ρ}
    (ordinary : ∀ entry ∈ table, entry.2.IsOrdinary) (stack : Stack) :
    ((table.find? stack).getD .nothing).scan.run s' =
      ((table.find? stack).getD .nothing).scan.run s :=
  Extractor.Table.find?_elim (P := fun e => e.scan.run s' = e.scan.run s)
    (fun entry member => h.run_ordinary entry.2 (ordinary entry member)) rfl stack

/-- Each part of a survey finds the same in both. -/
theorem parts (h : s.VisiblyAlike l s') (depths : Depths) (settings : Settings) (stack : Stack)
    (i : Option Category) :
    (Survey.parts depths settings stack i).run s' =
      (Survey.parts depths settings stack i).run s := by
  have asked {ρ : Type} (category : Category) {e : Extractor ρ}
      (same : e.scan.run s' = e.scan.run s) :
      (Survey.extract settings category e).run s' = (Survey.extract settings category e).run s := by
    rw [Survey.run_extract, Survey.run_extract, same]
  match i with
  | none => exact h.run (Manifest.readerFor_visible depths l stack.language)
  | some .routes => exact asked .routes (h.routes stack)
  | some .models => exact asked .models (h.models stack)
  | some .controllers =>
    exact asked .controllers (h.chosen Extractor.controllerTable_isOrdinary stack)
  | some .components => exact asked .components (h.chosen Extractor.componentTable_isOrdinary stack)
  | some .services => exact asked .services (h.chosen Extractor.serviceTable_isOrdinary stack)

end Source.VisiblyAlike

end CodeSurvey
