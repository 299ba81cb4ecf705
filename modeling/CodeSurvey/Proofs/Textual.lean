import CodeSurvey.Proofs.Extractors
import CodeSurvey.Proofs.Looks

/-!
# Extractors that go by texts

Most extractors take all that they find from the texts of files (`Scan.IsTextual`): what is listed
matters to them only as far as it can be read. Four go by the paths of files as well: the routers of
Next.js, Nuxt and SvelteKit, whose routes are the layout of the files, and the views of Rails. What
holds of these four and of all textual extractors holds of all (`Extractor.forall_all_textual`).
-/

namespace CodeSurvey

/-! ## Textual scans -/

/-- Scans that are built from visits to the texts of listed files and to texts at given paths. -/
inductive Scan.IsTextual : {α : Type} → Scan α → Prop where
  | done {α : Type} (result : α) : IsTextual (.done result)
  | text (path : String) : IsTextual (.readText path)
  | visits {ρ : Type} {choose : List String → List String} (chooses : ChoosesEach choose)
      (visit : String → Text → List ρ) :
      IsTextual (.files fun l => .collect (.visitText visit) (choose l))
  | bind {α β : Type} {scan : Scan α} {f : α → Scan β} (first : scan.IsTextual)
      (later : ∀ a, (f a).IsTextual) : IsTextual (scan.bind f)

namespace Scan.IsTextual

variable {α β ρ : Type}

theorem eachFile (patterns : List String) (visit : String → Text → List ρ) :
    (Scan.eachFile patterns visit).IsTextual :=
  visits (findFiles_choosesEach patterns) visit

theorem after {scan : Scan α} (h : scan.IsTextual) (g : α → β) :
    IsTextual (do let a ← scan; return g a) :=
  bind h fun a => done (g a)

theorem append {a b : Scan (List ρ)} (ha : a.IsTextual) (hb : b.IsTextual) :
    IsTextual (do let first ← a; let second ← b; return first ++ second) :=
  bind ha fun first => after hb (first ++ ·)

/-- All that a textual scan looks at is the listing and texts. -/
theorem neverAsks {scan : Scan α} (h : scan.IsTextual) : scan.NeverAsks := by
  induction h with
  | done result => exact .done result
  | text path => exact .readText path
  | visits chooses visit => exact ⟨fun l => .eachText fun _ _ => trivial⟩
  | bind first later ihFirst ihLater => exact .bind ihFirst ihLater

end Scan.IsTextual

/-! ## Extractors -/

namespace Extractor

open Scan.IsTextual

/-- The extractors that go by the paths of files, too. -/
def pathLabels : List String :=
  ["extract_nextjs_routes", "extract_nuxt_routes", "extract_sveltekit_routes",
    "extract_rails_views"]

/-- Whether an extractor is textual, and none of those that go by paths. -/
def IsTextual {ρ : Type} (e : Extractor ρ) : Prop := e.scan.IsTextual ∧ e.label ∉ pathLabels

theorem forall_routeTable_textual {P : Extractor Route → Prop} (textual : ∀ e, IsTextual e → P e)
    (nextJs : P Routes.nextJs) (nuxt : P Routes.nuxt) (svelteKit : P Routes.svelteKit) :
    ∀ entry ∈ routeTable, P entry.2 := by
  delta routeTable
  simp only [List.forall_mem_append, forall_forFrameworks, forall_forScripts, and_assoc]
  exact ⟨fun _ _ => textual _ ⟨after (eachFile _ _) _, by decide⟩,
    fun _ _ => textual _ ⟨eachFile _ _, by decide⟩,
    fun _ _ => textual _ ⟨eachFile _ _, by decide⟩,
    fun _ _ => textual _ ⟨eachFile _ _, by decide⟩,
    fun _ _ => and_self_iff.2 (textual _ ⟨eachFile _ _, by decide⟩),
    fun _ _ => and_self_iff.2 nextJs,
    fun _ _ => and_self_iff.2 nuxt,
    fun _ _ => and_self_iff.2 svelteKit,
    fun _ _ => textual _ ⟨after (text _) _, by decide⟩,
    fun _ _ => textual _ ⟨visits ((Scan.findFiles_choosesEach _).filter _) _, by decide⟩,
    fun _ _ => textual _ ⟨eachFile _ _, by decide⟩,
    fun _ _ => textual _ ⟨eachFile _ _, by decide⟩,
    fun _ _ => textual _ ⟨eachFile _ _, by decide⟩,
    fun _ _ => textual _ ⟨eachFile _ _, by decide⟩,
    fun _ _ => textual _ ⟨eachFile _ _, by decide⟩,
    fun _ _ => textual _ ⟨append (eachFile _ _) (eachFile _ _), by decide⟩,
    fun _ _ => textual _ ⟨eachFile _ _, by decide⟩,
    fun _ _ => textual _ ⟨eachFile _ _, by decide⟩,
    fun _ _ => textual _ ⟨eachFile _ _, by decide⟩⟩

theorem modelTable_isTextual : ∀ entry ∈ modelTable, entry.2.IsTextual := by
  simp only [modelTable, List.forall_mem_append, forall_forFrameworks, forall_forLanguage,
    and_assoc]
  have typeScript : Models.typeScript.scan.IsTextual := append (eachFile _ _) (eachFile _ _)
  exact ⟨⟨eachFile _ _, by decide⟩,
    fun _ _ => ⟨eachFile _ _, by decide⟩,
    ⟨eachFile _ _, by decide⟩,
    ⟨append (eachFile _ _) typeScript, by decide⟩,
    ⟨typeScript, by decide⟩,
    fun _ _ => ⟨bind (text _) fun _ => eachFile _ _, by decide⟩,
    ⟨visits ((Scan.findFiles_choosesEach _).filter _) _, by decide⟩,
    ⟨eachFile _ _, by decide⟩,
    fun _ _ => ⟨eachFile _ _, by decide⟩,
    ⟨eachFile _ _, by decide⟩,
    ⟨eachFile _ _, by decide⟩⟩

theorem controllerTable_isTextual : ∀ entry ∈ controllerTable, entry.2.IsTextual := by
  simp only [controllerTable, List.forall_mem_append, forall_forFrameworks, forall_forScripts,
    forall_forLanguage, and_assoc]
  exact ⟨fun _ _ => ⟨eachFile _ _, by decide⟩,
    fun _ _ => ⟨eachFile _ _, by decide⟩,
    fun _ _ => ⟨eachFile _ _, by decide⟩,
    fun _ _ => and_self_iff.2 ⟨eachFile _ _, by decide⟩,
    fun _ _ => ⟨eachFile _ _, by decide⟩,
    ⟨visits ((Scan.findFiles_choosesEach _).filter _) _, by decide⟩,
    fun _ _ => ⟨eachFile _ _, by decide⟩,
    fun _ _ => ⟨after (eachFile _ _) _, by decide⟩,
    fun _ _ => ⟨eachFile _ _, by decide⟩,
    fun _ _ => ⟨eachFile _ _, by decide⟩⟩

theorem forall_componentTable_textual {P : Extractor Component → Prop}
    (textual : ∀ e, IsTextual e → P e) (views : P Components.rails) :
    ∀ entry ∈ componentTable, P entry.2 := by
  simp only [componentTable, List.forall_mem_append, forall_forFrameworks, forall_forScripts,
    and_assoc]
  exact ⟨fun _ _ => textual _ ⟨eachFile _ _, by decide⟩,
    fun _ _ => and_self_iff.2 (textual _ ⟨eachFile _ _, by decide⟩),
    fun _ _ => and_self_iff.2 (textual _ ⟨eachFile _ _, by decide⟩),
    fun _ _ => and_self_iff.2 (textual _ ⟨eachFile _ _, by decide⟩),
    fun _ _ => views⟩

theorem serviceTable_isTextual : ∀ entry ∈ serviceTable, entry.2.IsTextual := by
  simp only [serviceTable, List.forall_mem_append, forall_forLanguage, and_assoc]
  exact ⟨⟨visits ((Scan.findFiles_choosesEach _).filter _) _, by decide⟩,
    ⟨eachFile _ _, by decide⟩,
    ⟨eachFile _ _, by decide⟩,
    ⟨eachFile _ _, by decide⟩,
    ⟨eachFile _ _, by decide⟩,
    ⟨visits ((Scan.findFiles_choosesEach _).filter _) _, by decide⟩,
    ⟨eachFile _ _, by decide⟩,
    ⟨eachFile _ _, by decide⟩,
    ⟨eachFile _ _, by decide⟩⟩

theorem IsTextual.toRecords {ρ : Type} {kind : ρ → Record} {e : Extractor ρ} (h : e.IsTextual) :
    (e.toRecords kind).IsTextual :=
  ⟨after h.1 (List.map kind), h.2⟩

/-- What holds of textual extractors and of the four that go by paths holds of all. -/
theorem forall_all_textual {P : Extractor Record → Prop} (textual : ∀ e, IsTextual e → P e)
    (nextJs : P (Routes.nextJs.toRecords .route)) (nuxt : P (Routes.nuxt.toRecords .route))
    (svelteKit : P (Routes.svelteKit.toRecords .route))
    (views : P (Components.rails.toRecords .component)) : ∀ e ∈ all, P e := by
  simp only [all, allRoutes, allModels, allControllers, allComponents, allServices,
    List.forall_mem_append, List.forall_mem_map, List.forall_mem_cons, and_assoc]
  exact ⟨textual _ (IsTextual.toRecords ⟨after (eachFile _ _) _, by decide⟩),
    forall_routeTable_textual (P := fun e => P (e.toRecords .route))
      (fun e h => textual _ h.toRecords) nextJs nuxt svelteKit,
    textual _ (IsTextual.toRecords ⟨eachFile _ _, by decide⟩),
    fun entry member => textual _ (modelTable_isTextual entry member).toRecords,
    fun entry member => textual _ (controllerTable_isTextual entry member).toRecords,
    forall_componentTable_textual (P := fun e => P (e.toRecords .component))
      (fun e h => textual _ h.toRecords) views,
    fun entry member => textual _ (serviceTable_isTextual entry member).toRecords⟩

/-! ### Looks -/

theorem folderRoutes_neverAsks (folder handlers file : String) :
    (Routes.folderRoutes folder handlers file).NeverAsks := by
  rw [Routes.folderRoutes]
  split
  · exact .after (.readText file) _
  · exact .done _

theorem nextFolders_neverAsks (folder : String) : (Routes.nextFolders folder).NeverAsks :=
  .eachFound fun file => folderRoutes_neverAsks folder "route" file

theorem nextJs_neverAsks : Routes.nextJs.scan.NeverAsks :=
  .append (.collect fun _ => .after (.find _) _) (.collect nextFolders_neverAsks)

theorem nuxt_neverAsks : Routes.nuxt.scan.NeverAsks := .collect fun _ => .after (.find _) _

theorem svelteKit_neverAsks : Routes.svelteKit.scan.NeverAsks :=
  .eachFound fun file => folderRoutes_neverAsks "src/routes" "+server" file

theorem railsViews_neverAsks : Components.rails.scan.NeverAsks :=
  .eachFound fun file => .after (.readText file) _

/-- No extractor asks whether something stands at a path. -/
theorem neverAsks : ∀ e ∈ all, e.scan.NeverAsks := by
  apply forall_all_textual
  case textual => exact fun e h => h.1.neverAsks
  case nextJs => exact .after nextJs_neverAsks _
  case nuxt => exact .after nuxt_neverAsks _
  case svelteKit => exact .after svelteKit_neverAsks _
  case views => exact .after railsViews_neverAsks _

end Extractor

end CodeSurvey
