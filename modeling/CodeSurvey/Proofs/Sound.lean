import CodeSurvey.Proofs.Extractors
import CodeSurvey.Proofs.Fields

/-!
# What all records have

Whatever the tree, what an extractor finds is sound (`Record.IsSound`): actions, properties, events
and functions are names, each listed once; fields have a name and a type; and where an extractor
leaves out what has no fields or functions, or reports only so many, no record is otherwise.
-/

namespace CodeSurvey

/-! ## Names -/

theorem nodup_eraseDups (names : List String) : names.eraseDups.Nodup := by
  match names with
  | [] => simp
  | name :: rest =>
    have later := nodup_eraseDups (rest.filter fun other => !other == name)
    rw [List.eraseDups_cons, List.nodup_cons]
    exact ⟨by simp [List.mem_eraseDups], later⟩
termination_by names.length
decreasing_by exact Nat.lt_succ_of_le (List.length_filter_le _ _)

/-- Whether a list holds names, each once. -/
structure AreNames (names : List String) : Prop where
  nodup : names.Nodup
  nonempty : ∀ name ∈ names, name ≠ ""

theorem areNames_nil : AreNames [] := ⟨List.nodup_nil, List.forall_mem_nil _⟩

theorem areNames_unique (names : List String) : AreNames (unique names) :=
  ⟨nodup_eraseDups _, fun _ => Models.ne_empty_of_mem_unique⟩

theorem AreNames.take {names : List String} (h : AreNames names) (n : Nat) :
    AreNames (names.take n) :=
  ⟨h.nodup.sublist (List.take_sublist n names),
    fun name member => h.nonempty name (List.mem_of_mem_take member)⟩

/-! ## Sound records -/

/-- The extractors that leave out models without fields. -/
def fieldedLabels : List String :=
  ["extract_python_models", "extract_ts_models", "extract_js_models", "extract_prisma_models",
   "extract_go_models", "extract_rust_models", "extract_ef_models"]

/-- What the models have that the extractor with a label finds. -/
structure Model.IsSound (label : String) (m : Model) : Prop where
  filled : ∀ f ∈ m.fields, f.IsFilled
  fielded : label ∈ fieldedLabels → m.fields ≠ []
  short : label = "extract_python_models" → m.fields.length ≤ 20

def Controller.IsSound (c : Controller) : Prop := AreNames c.actions

/-- What the components have that the extractor with a label finds. -/
structure Component.IsSound (label : String) (c : Component) : Prop where
  props : AreNames c.props
  events : AreNames c.events
  short : label = "extract_react_components" → c.props.length ≤ 10

structure Service.IsSound (s : Service) : Prop where
  functions : AreNames s.functions
  nonempty : s.functions ≠ []

/-- Whether a record is as all are that the extractor with a label finds. -/
def Record.IsSound (label : String) : Record → Prop
  | route _ => True
  | model m => m.IsSound label
  | controller c => c.IsSound
  | component c => c.IsSound label
  | service s => s.IsSound

/-! ## What scans yield -/

namespace Scan

variable {α ι ρ σ : Type} {P : ρ → Prop}

/-- Whether all that a scan can find is as asked for. -/
def Yields (P : ρ → Prop) (scan : Scan (List ρ)) : Prop :=
  ∀ s records, scan.run s = .ok records → ∀ r ∈ records, P r

theorem yields_done {records : List ρ} (h : ∀ r ∈ records, P r) : Yields P (done records) := by
  intro s _ found
  cases found
  exact h

theorem yields_bind {scan : Scan α} {next : α → Scan (List ρ)} (h : ∀ a, Yields P (next a)) :
    Yields P (scan.bind next) := by
  intro s records found
  rw [run_bind] at found
  obtain ⟨a, -, found⟩ := Except.exists_of_bind found
  exact h a s records found

theorem yields_append {a b : Scan (List ρ)} (ha : Yields P a) (hb : Yields P b) :
    Yields P (do let first ← a; let second ← b; return first ++ second) := by
  intro s records found
  rw [show (do let first ← a; let second ← b; return first ++ second : Scan (List ρ)) =
    a.bind fun first => do let second ← b; return first ++ second from rfl, run_bind] at found
  obtain ⟨first, early, found⟩ := Except.exists_of_bind found
  rw [run_after] at found
  obtain ⟨second, late, rfl⟩ := Except.exists_of_map found
  exact List.forall_mem_append.2 ⟨ha s first early, hb s second late⟩

theorem yields_after {scan : Scan (List ρ)} {g : List ρ → List σ} {Q : σ → Prop}
    (h : Yields P scan) (keeps : ∀ records, (∀ r ∈ records, P r) → ∀ r ∈ g records, Q r) :
    Yields Q (do let records ← scan; return g records) := by
  intro s records found
  rw [run_after] at found
  obtain ⟨all, before, rfl⟩ := Except.exists_of_map found
  exact keeps all (h s all before)

theorem yields_collect {visit : ι → Scan (List ρ)} (h : ∀ i, Yields P (visit i)) (items : List ι) :
    Yields P (collect visit items) := by
  induction items with
  | nil => exact yields_done (List.forall_mem_nil _)
  | cons i rest ih => exact yields_append (h i) ih

theorem yields_eachText {visit : String → Text → List ρ}
    (h : ∀ path text, ∀ r ∈ visit path text, P r) (paths : List String) :
    Yields P (eachText visit paths) :=
  yields_collect (fun path => yields_bind fun text => yields_done (by
    cases text with
    | none => exact List.forall_mem_nil _
    | some text => exact h path text)) paths

theorem yields_eachFile {patterns : List String} {visit : String → Text → List ρ}
    (h : ∀ path text, ∀ r ∈ visit path text, P r) : Yields P (eachFile patterns visit) :=
  yields_bind fun paths => yields_eachText h paths

theorem Yields.imp {Q : ρ → Prop} {scan : Scan (List ρ)} (h : Yields P scan)
    (weaker : ∀ r, P r → Q r) : Yields Q scan :=
  fun s records found r member => weaker r (h s records found r member)

end Scan

open Scan

/-! ## Models -/

/-- A model with fields, all of them with a name and a type. -/
structure Model.IsFielded (m : Model) : Prop where
  filled : ∀ f ∈ m.fields, f.IsFilled
  nonempty : m.fields ≠ []

namespace Models

theorem isFielded_ofFields {name file : String} {fields : List Field}
    (h : ∀ f ∈ fields, f.IsFilled) : ∀ m ∈ Model.ofFields name fields file, m.IsFielded := by
  rw [Model.ofFields]
  split
  · exact List.forall_mem_nil _
  · next some => exact List.forall_mem_singleton.2 ⟨h, by simpa using some⟩

theorem isFielded_inBraces {declaration : Pattern} {fields : Text → List Field}
    (h : ∀ body, ∀ f ∈ fields body, f.IsFilled) (file : String) (text : Text) :
    ∀ m ∈ inBraces declaration fields file text, m.IsFielded := by
  refine List.forall_mem_flatMap.2 fun m _ => ?_
  split
  · exact isFielded_ofFields (h _)
  · exact List.forall_mem_nil _

theorem prisma_isFielded : Yields Model.IsFielded prisma.scan :=
  yields_eachFile (isFielded_inBraces isFilled_prismaFields)

theorem typeScript_isFielded : Yields Model.IsFielded typeScript.scan :=
  yields_append (yields_eachFile (isFielded_inBraces isFilled_tsFields)) prisma_isFielded

theorem isFielded_inMongoose (file : String) (text : Text) :
    ∀ m ∈ inMongoose file text, m.IsFielded := by
  refine List.forall_mem_map.2 fun m member => ?_
  obtain ⟨filled, nonempty⟩ := isFielded_inBraces isFilled_mongooseFields file text m member
  exact ⟨filled, nonempty⟩

theorem javaScript_isFielded : Yields Model.IsFielded javaScript.scan :=
  yields_append (yields_eachFile isFielded_inMongoose) typeScript_isFielded

theorem go_isFielded : Yields Model.IsFielded go.scan :=
  yields_bind fun _ => yields_eachText (isFielded_inBraces isFilled_goFields) _

theorem rust_isFielded : Yields Model.IsFielded rust.scan :=
  yields_eachFile (isFielded_inBraces isFilled_rustFields)

theorem entityFramework_isFielded : Yields Model.IsFielded entityFramework.scan :=
  yields_eachFile fun file text => by
    rw [inEntityFramework]
    split
    · exact List.forall_mem_nil _
    · exact isFielded_inBraces isFilled_csharpFields file text

/-- The attributes of a class that are reported are no more than the limit. -/
theorem python_isSound : Yields (Model.IsSound python.label) python.scan :=
  yields_eachFile fun file text => by
    refine List.forall_mem_flatMap.2 fun m _ => ?_
    rw [Model.ofFields]
    split
    · exact List.forall_mem_nil _
    · next some =>
      exact List.forall_mem_singleton.2 ⟨isFilled_annotatedFields _,
        fun _ => by simpa using some, fun _ => List.length_take_le ..⟩

/-! ### Models that may have no fields -/

theorem ecto_isFilled : Yields (fun m => ∀ f ∈ m.fields, f.IsFilled) ecto.scan :=
  yields_eachFile fun file text => by
    rw [inEcto]
    split
    · split
      · exact List.forall_mem_singleton.2 (isFilled_ectoFields _)
      · exact List.forall_mem_nil _
    · exact List.forall_mem_nil _

theorem django_isFilled : Yields (fun m => ∀ f ∈ m.fields, f.IsFilled) django.scan :=
  yields_eachFile fun _ _ => List.forall_mem_map.2 fun _ _ => isFilled_djangoFields _

theorem jpa_isFilled : Yields (fun m => ∀ f ∈ m.fields, f.IsFilled) jpa.scan :=
  yields_eachFile fun file text => by
    rw [inJpa]
    split
    · exact List.forall_mem_nil _
    · split
      · exact List.forall_mem_nil _
      · exact List.forall_mem_singleton.2 (isFilled_all (by decide +kernel) (by decide +kernel))

theorem eloquent_isFilled : Yields (fun m => ∀ f ∈ m.fields, f.IsFilled) eloquent.scan :=
  yields_eachFile fun file text => by
    rw [inEloquent]
    split
    · exact List.forall_mem_singleton.2 (isFilled_eloquentFields text)
    · exact List.forall_mem_nil _

theorem activeRecord_isFilled : Yields (fun m => ∀ f ∈ m.fields, f.IsFilled) activeRecord.scan :=
  yields_bind fun schema => yields_eachFile fun file text => by
    rw [inActiveRecord]
    split
    · exact List.forall_mem_nil _
    · next m _ =>
      refine List.forall_mem_singleton.2 ?_
      cases listed : lastFor? (schemaColumns schema) (tableName (m.string 1)) with
      | none => exact List.forall_mem_nil _
      | some fields => simpa [listed] using isFilled_schemaColumns (mem_of_lastFor? listed)

end Models

/-! ## Controllers -/

namespace Controllers

theorem inPython_isSound (file : String) (text : Text) :
    ∀ c ∈ inPython file text, c.IsSound := by
  rw [inPython]
  split
  · exact List.forall_mem_nil _
  · exact List.forall_mem_singleton.2 (areNames_unique _)

theorem inPhp_isSound (file : String) (text : Text) : ∀ c ∈ inPhp file text, c.IsSound :=
  List.forall_mem_singleton.2 (areNames_unique _)

theorem phoenix_isSound : Yields Controller.IsSound phoenix.scan :=
  yields_eachFile fun _ _ => List.forall_mem_singleton.2 (areNames_unique _)

theorem django_isSound : Yields Controller.IsSound django.scan := yields_eachFile inPython_isSound

theorem python_isSound : Yields Controller.IsSound python.scan := yields_eachFile inPython_isSound

theorem express_isSound : Yields Controller.IsSound express.scan :=
  yields_eachFile fun _ _ => List.forall_mem_singleton.2 (areNames_unique _)

theorem rails_isSound : Yields Controller.IsSound rails.scan :=
  yields_eachFile fun _ _ => List.forall_mem_singleton.2 (areNames_unique _)

theorem inGo_isSound (file : String) (text : Text) : ∀ c ∈ inGo file text, c.IsSound :=
  List.forall_mem_singleton.2 (areNames_unique _)

theorem go_isSound : Yields Controller.IsSound go.scan :=
  yields_bind fun _ => yields_eachText inGo_isSound _

theorem spring_isSound : Yields Controller.IsSound spring.scan :=
  yields_eachFile fun _ _ => List.forall_mem_singleton.2 (areNames_unique _)

theorem laravel_isSound : Yields Controller.IsSound laravel.scan :=
  yields_after (yields_eachFile inPhp_isSound) fun _ sound c member =>
    sound c (List.mem_filter.1 member).1

theorem symfony_isSound : Yields Controller.IsSound symfony.scan := yields_eachFile inPhp_isSound

theorem dotNet_isSound : Yields Controller.IsSound dotNet.scan :=
  yields_eachFile fun _ _ => List.forall_mem_singleton.2 (areNames_unique _)

end Controllers

/-! ## Components -/

namespace Components

theorem phoenix_isSound : Yields (Component.IsSound phoenix.label) phoenix.scan :=
  yields_eachFile fun _ _ => List.forall_mem_singleton.2
    ⟨areNames_unique _, areNames_unique _, fun same => absurd same (by decide)⟩

/-- The properties that are reported are no more than the limit. -/
theorem react_isSound : Yields (Component.IsSound react.label) react.scan :=
  yields_eachFile fun _ _ => List.forall_mem_singleton.2
    ⟨(areNames_unique _).take _, areNames_nil, fun _ => List.length_take_le ..⟩

theorem vue_isSound : Yields (Component.IsSound vue.label) vue.scan :=
  yields_eachFile fun _ _ => List.forall_mem_singleton.2
    ⟨areNames_unique _, areNames_nil, fun same => absurd same (by decide)⟩

theorem svelte_isSound : Yields (Component.IsSound svelte.label) svelte.scan :=
  yields_eachFile fun _ _ => List.forall_mem_singleton.2
    ⟨areNames_unique _, areNames_nil, fun same => absurd same (by decide)⟩

theorem rails_isSound : Yields (Component.IsSound rails.label) rails.scan :=
  yields_bind fun _ => yields_collect (fun _ => yields_bind fun _ => yields_done
    (List.forall_mem_singleton.2
      ⟨areNames_unique _, areNames_nil, fun same => absurd same (by decide)⟩)) _

end Components

/-! ## Services -/

namespace Services

theorem isSound_ofFunctions {name file : String} (functions : List String) :
    ∀ s ∈ Service.ofFunctions name (unique functions) file, s.IsSound := by
  rw [Service.ofFunctions]
  split
  · exact List.forall_mem_nil _
  · next some => exact List.forall_mem_singleton.2 ⟨areNames_unique _, by simpa using some⟩

theorem elixir_isSound : Yields Service.IsSound elixir.scan :=
  yields_bind fun _ => yields_eachText (fun _ _ => isSound_ofFunctions _) _

theorem python_isSound : Yields Service.IsSound python.scan :=
  yields_eachFile fun _ _ => isSound_ofFunctions _

theorem script_isSound : Yields Service.IsSound script.scan :=
  yields_eachFile fun _ _ => isSound_ofFunctions _

theorem ruby_isSound : Yields Service.IsSound ruby.scan :=
  yields_eachFile fun _ _ => isSound_ofFunctions _

theorem go_isSound : Yields Service.IsSound go.scan :=
  yields_bind fun _ => yields_eachText (fun _ _ => isSound_ofFunctions _) _

theorem java_isSound : Yields Service.IsSound java.scan :=
  yields_eachFile fun _ _ => isSound_ofFunctions _

theorem php_isSound : Yields Service.IsSound php.scan :=
  yields_eachFile fun _ _ => isSound_ofFunctions _

theorem csharp_isSound : Yields Service.IsSound csharp.scan :=
  yields_eachFile fun _ _ => isSound_ofFunctions _

end Services

/-! ## All extractors -/

theorem Model.isSound_of_filled {label : String} {m : Model} (filled : ∀ f ∈ m.fields, f.IsFilled)
    (other : label ∉ fieldedLabels) : m.IsSound label :=
  ⟨filled, fun same => absurd same other, fun same => absurd (by rw [same]; decide) other⟩

theorem Model.IsFielded.isSound {label : String} {m : Model} (h : m.IsFielded)
    (other : label ≠ "extract_python_models") : m.IsSound label :=
  ⟨h.filled, fun _ => h.nonempty, fun same => absurd same other⟩

namespace Extractor

theorem modelTable_isSound : ∀ entry ∈ modelTable,
    Yields (Model.IsSound entry.2.label) entry.2.scan := by
  have filled {e : Extractor Model} (h : Yields (fun m => ∀ f ∈ m.fields, f.IsFilled) e.scan)
      (other : e.label ∉ fieldedLabels) : Yields (Model.IsSound e.label) e.scan :=
    h.imp fun m filled => m.isSound_of_filled filled other
  have fielded {e : Extractor Model} (h : Yields Model.IsFielded e.scan)
      (other : e.label ≠ "extract_python_models") : Yields (Model.IsSound e.label) e.scan :=
    h.imp fun m fielded => fielded.isSound other
  simp only [modelTable, List.forall_mem_append, forall_forFrameworks, forall_forLanguage,
    and_assoc]
  exact ⟨filled Models.ecto_isFilled (by decide),
    fun _ _ => filled Models.django_isFilled (by decide),
    Models.python_isSound,
    fielded Models.javaScript_isFielded (by decide),
    fielded Models.typeScript_isFielded (by decide),
    fun _ _ => filled Models.activeRecord_isFilled (by decide),
    fielded Models.go_isFielded (by decide),
    filled Models.jpa_isFilled (by decide),
    fun _ _ => filled Models.eloquent_isFilled (by decide),
    fielded Models.rust_isFielded (by decide),
    fielded Models.entityFramework_isFielded (by decide)⟩

theorem controllerTable_isSound : ∀ entry ∈ controllerTable,
    Yields Controller.IsSound entry.2.scan := by
  simp only [controllerTable, List.forall_mem_append, forall_forFrameworks,
    forall_forScripts, forall_forLanguage, and_assoc]
  exact ⟨fun _ _ => Controllers.phoenix_isSound,
    fun _ _ => Controllers.django_isSound,
    fun _ _ => Controllers.python_isSound,
    fun _ _ => and_self_iff.2 Controllers.express_isSound,
    fun _ _ => Controllers.rails_isSound,
    Controllers.go_isSound,
    fun _ _ => Controllers.spring_isSound,
    fun _ _ => Controllers.laravel_isSound,
    fun _ _ => Controllers.symfony_isSound,
    fun _ _ => Controllers.dotNet_isSound⟩

theorem componentTable_isSound : ∀ entry ∈ componentTable,
    Yields (Component.IsSound entry.2.label) entry.2.scan := by
  simp only [componentTable, List.forall_mem_append, forall_forFrameworks,
    forall_forScripts, and_assoc]
  exact ⟨fun _ _ => Components.phoenix_isSound,
    fun _ _ => and_self_iff.2 Components.react_isSound,
    fun _ _ => and_self_iff.2 Components.vue_isSound,
    fun _ _ => and_self_iff.2 Components.svelte_isSound,
    fun _ _ => Components.rails_isSound⟩

theorem serviceTable_isSound : ∀ entry ∈ serviceTable, Yields Service.IsSound entry.2.scan := by
  simp only [serviceTable, List.forall_mem_append, forall_forLanguage, and_assoc]
  exact ⟨Services.elixir_isSound, Services.python_isSound, Services.script_isSound,
    Services.script_isSound, Services.ruby_isSound, Services.go_isSound, Services.java_isSound,
    Services.php_isSound, Services.csharp_isSound⟩

theorem all_isSound : ∀ e ∈ all, Yields (Record.IsSound e.label) e.scan := by
  have ofKind {ρ : Type} {kind : ρ → Record} {P : ρ → Prop} {e : Extractor ρ}
      (h : Yields P e.scan) (sound : ∀ r, P r → (kind r).IsSound e.label) :
      Yields (Record.IsSound (e.toRecords kind).label) (e.toRecords kind).scan :=
    yields_after h fun records each => List.forall_mem_map.2 fun r member => sound r (each r member)
  have route (e : Extractor Route) :
      Yields (Record.IsSound (e.toRecords .route).label) (e.toRecords .route).scan :=
    ofKind (P := fun _ => True) (fun _ _ _ _ _ => trivial) fun _ _ => trivial
  simp only [all, allRoutes, allModels, allControllers, allComponents, allServices,
    List.forall_mem_append, List.forall_mem_map, List.forall_mem_cons, and_assoc]
  exact ⟨route _, fun entry _ => route entry.2,
    ofKind Models.prisma_isFielded fun m fielded => fielded.isSound (by decide),
    fun entry member => ofKind (modelTable_isSound entry member) fun _ => id,
    fun entry member => ofKind (controllerTable_isSound entry member) fun _ => id,
    fun entry member => ofKind (componentTable_isSound entry member) fun _ => id,
    fun entry member => ofKind (serviceTable_isSound entry member) fun _ => id⟩

/-- The records that an extractor finds in any tree are sound. -/
theorem found_isSound {d : Disk} {depth : Nat} {root : Location} {exclude : List String}
    {e : Extractor Record} (member : e ∈ all) {records : List Record}
    (found : ((Snapshot.new root exclude).perform d depth e.scan).1 = .ok records) :
    ∀ r ∈ records, r.IsSound e.label := by
  rw [Snapshot.perform_new] at found
  exact all_isSound e member _ records found

/-- A class with an attribute. -/
def accounts : Disk :=
  ⟨.folder [("repo", .folder [("app.py", .file
    ((Text.of "class User:\n    name: str\n").map fun c => UInt8.ofNat c.toNat))])], []⟩

theorem accounts_listing : accounts.listing 10 (Location.read "/repo") [] = .ok ["app.py"] :=
  Disk.listing_of_walk [⟨["app.py"], .file⟩] rfl rfl rfl (by decide)

theorem pythonModels_mem_all : Models.python.toRecords .model ∈ all := by
  have entry : (⟨"python", none⟩, Models.python) ∈ modelTable := by
    simp [modelTable, forFrameworks, forLanguage]
  simp only [all, allModels, List.mem_append, List.mem_map, List.mem_cons]
  exact .inl (.inl (.inl (.inr ⟨_, .inr ⟨_, entry, rfl⟩, rfl⟩)))

theorem accounts_found :
    ((Snapshot.new (Location.read "/repo") []).perform accounts 10
      (Models.python.toRecords .model).scan).1 =
        .ok [.model ⟨"User", [⟨"name", "str"⟩], "app.py"⟩] := by
  have app : (accounts.source 10 (Location.read "/repo") []).read "app.py" =
      .ok (some (Text.of "class User:\n    name: str\n")) := rfl
  have chosen : findFiles ["**/*.py"] ["app.py"] = ["app.py"] := by decide +kernel
  have inApp : Models.inPython "app.py" (Text.of "class User:\n    name: str\n") =
      [⟨"User", [⟨"name", "str"⟩], "app.py"⟩] := by decide +kernel
  rw [Snapshot.perform_new, run_toRecords, Models.python, run_eachFile accounts_listing, chosen,
    run_collect_cons, run_visitText, app]
  simp only [Except.map, Except.bind, Option.map_some, Option.getD_some, inApp]
  rfl

/-- The class is a sound model. -/
theorem accounts_isSound :
    (Record.model ⟨"User", [⟨"name", "str"⟩], "app.py"⟩).IsSound "extract_python_models" :=
  found_isSound pythonModels_mem_all accounts_found _ (.head _)

end Extractor

end CodeSurvey
