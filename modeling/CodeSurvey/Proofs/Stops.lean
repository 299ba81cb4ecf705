import CodeSurvey.Proofs.Detection

/-!
# Where the checks stop

The checks for a stack end early only over a look that fails. They ask for manifests, language by
language, and list the files where a sample is to be taken or no manifest is there. So they fail
exactly if they come to a path of which cannot be told whether something is there (`Stack.Untold`),
or to the listing of a tree that cannot be listed (`Stack.Lists`, `Stack.detect_eq_fault_iff`).
-/

namespace CodeSurvey.Stack

open Scan

variable {s : Source} {passed : Bool → Prop} {why : Fault} {paths : List String}

/-! ## One path after the other -/

/-- Whether paths that are asked for one after the other come to one of which cannot be told whether
something is there. They go on as long as what is told of them lets them pass. -/
inductive Stops (s : Source) (passed : Bool → Prop) (why : Fault) : List String → Prop
  | here {path : String} {rest : List String} (untold : s.present path = .error why) :
      Stops s passed why (path :: rest)
  | later {path : String} {rest : List String} {here : Bool} (told : s.present path = .ok here)
      (passes : passed here) (later : Stops s passed why rest) : Stops s passed why (path :: rest)

/-- Whether it can be told of each path if something is there. -/
def AreTold (s : Source) (paths : List String) : Prop :=
  ∀ path ∈ paths, ∃ here, s.present path = .ok here

theorem Stops.mono {passed' : Bool → Prop} (h : Stops s passed why paths)
    (more : ∀ here, passed here → passed' here) : Stops s passed' why paths := by
  induction h with
  | here untold => exact .here untold
  | later told passes _ ih => exact .later told (more _ passes) ih

theorem stops_cons {path : String} {rest : List String} :
    Stops s passed why (path :: rest) ↔ s.present path = .error why ∨
      ∃ here, s.present path = .ok here ∧ passed here ∧ Stops s passed why rest := by
  constructor
  · rintro (untold | ⟨told, passes, later⟩)
    · exact .inl untold
    · exact .inr ⟨_, told, passes, later⟩
  · rintro (untold | ⟨here, told, passes, later⟩)
    · exact .here untold
    · exact .later told passes later

theorem run_anyPresent_cons (path : String) (rest : List String) :
    (anyPresent (path :: rest)).run s = (s.present path).bind fun here =>
      if here then .ok true else (anyPresent rest).run s := by
  show (s.present path).bind _ = _
  congr 1
  funext here
  cases here <;> rfl

theorem run_presentOf_cons (path : String) (rest : List String) :
    (presentOf (path :: rest)).run s = (s.present path).bind fun here =>
      ((presentOf rest).run s).map fun later => if here then path :: later else later := by
  show ((isPresent path).bind fun here => (presentOf rest).bind fun later =>
    done (if here then path :: later else later)).run s = _
  rw [run_bind, run_isPresent]
  congr 1
  funext here
  exact run_after (presentOf rest) _

theorem anyPresent_eq_error_iff :
    (anyPresent paths).run s = .error why ↔ Stops s (· = false) why paths := by
  induction paths with
  | nil => exact iff_of_false nofun nofun
  | cons path rest ih =>
    rw [stops_cons, ← ih, run_anyPresent_cons]
    cases s.present path with
    | error other => simp [Except.bind]
    | ok here => cases here <;> simp [Except.bind]

theorem presentOf_eq_error_iff :
    (presentOf paths).run s = .error why ↔ Stops s (fun _ => True) why paths := by
  induction paths with
  | nil => exact iff_of_false nofun nofun
  | cons path rest ih =>
    rw [stops_cons, ← ih, run_presentOf_cons]
    cases s.present path with
    | error other => simp [Except.bind]
    | ok here => cases (presentOf rest).run s <;> simp [Except.bind, Except.map]

/-- Where all paths are asked for up to one that cannot be told, those before it are absent or one
of them is there. -/
theorem Stops.absent_or_there (h : Stops s passed why paths) :
    Stops s (· = false) why paths ∨ (anyPresent paths).run s = .ok true := by
  induction h with
  | here untold => exact .inl (.here untold)
  | @later path rest here told _ _ ih =>
    rw [run_anyPresent_cons, told]
    cases here with
    | true => exact .inr rfl
    | false => exact ih.imp (.later told rfl) id

theorem areTold_iff : AreTold s paths ↔ ∃ found, (presentOf paths).run s = .ok found := by
  induction paths with
  | nil => exact iff_of_true (List.forall_mem_nil _) ⟨[], rfl⟩
  | cons path rest ih =>
    rw [AreTold, List.forall_mem_cons, ← AreTold, ih, run_presentOf_cons]
    cases s.present path with
    | error other => simp [Except.bind]
    | ok here => cases (presentOf rest).run s <;> simp [Except.bind, Except.map]

theorem anyPresent_eq_true_iff (told : AreTold s paths) :
    (anyPresent paths).run s = .ok true ↔ ∃ path ∈ paths, s.present path = .ok true := by
  induction paths with
  | nil => exact iff_of_false nofun nofun
  | cons path rest ih =>
    obtain ⟨⟨here, first⟩, later⟩ := List.forall_mem_cons.1 told
    rw [List.exists_mem_cons_iff, first, ← ih later, run_anyPresent_cons, first]
    cases here <;> simp [Except.bind]

/-! ## One language after the other -/

/-- What the check for a language asks for. -/
structure Language where
  manifests : List String
  /-- What is asked for once a manifest is there, up to the first path at which something is. -/
  further : List String
  /-- Whether the files are listed once a manifest is there. -/
  lists : Bool

namespace Language

/-- Whether a path that is asked for cannot be told. -/
inductive Untold (s : Source) (why : Fault) (x : Language) : Prop
  | manifest (stops : Stops s (fun _ => True) why x.manifests)
  | further (there : ∃ path ∈ x.manifests, s.present path = .ok true)
      (stops : Stops s (· = false) why x.further)

/-- Whether the files are asked for. -/
structure Lists (s : Source) (x : Language) : Prop where
  lists : x.lists = true
  told : AreTold s x.manifests
  there : ∃ path ∈ x.manifests, s.present path = .ok true

def IsAbsent (s : Source) (x : Language) : Prop := ∀ path ∈ x.manifests, s.present path = .ok false

/-- Whether a check asks for this and comes to an answer otherwise. -/
structure Describes (s : Source) (x : Language) (check : Check) : Prop where
  passes : check.run s = .ok (.ok none) ↔ x.IsAbsent s
  fails : ∀ why, check.run s = .error why ↔ x.Untold s why ∨ x.Lists s ∧ s.files = .error why

end Language

/-- Whether the checks for some languages come to one of them: the manifests of those before it are
absent. -/
inductive Reaches (s : Source) : List Language → Language → Prop
  | here {x : Language} {rest : List Language} : Reaches s (x :: rest) x
  | later {x y : Language} {rest : List Language} (absent : x.IsAbsent s)
      (later : Reaches s rest y) : Reaches s (x :: rest) y

/-- The languages that have manifests, in the order of the checks. -/
def languages : List Language :=
  [⟨["mix.exs"], [], false⟩, ⟨["requirements.txt", "pyproject.toml", "setup.py"], [], true⟩,
    ⟨["Gemfile"], ["config/routes.rb", "bin/rails"], false⟩, ⟨["package.json"], [], false⟩,
    ⟨["go.mod"], [], false⟩, ⟨["Cargo.toml"], [], false⟩,
    ⟨["pom.xml", "build.gradle", "build.gradle.kts"], [], true⟩, ⟨["composer.json"], [], false⟩]

/-- Whether the checks come to a path that cannot be told. -/
def Untold (s : Source) (why : Fault) : Prop := ∃ x, Reaches s languages x ∧ x.Untold s why

theorem Untold.exists_present (h : Untold s why) : ∃ path, s.present path = .error why := by
  have stops {passed : Bool → Prop} {paths : List String} (h : Stops s passed why paths) :
      ∃ path, s.present path = .error why := by
    induction h with
    | here untold => exact ⟨_, untold⟩
    | later _ _ _ ih => exact ih
  obtain ⟨x, -, manifest | ⟨-, further⟩⟩ := h
  · exact stops manifest
  · exact stops further

/-- Whether the checks come to ask for the files, for a sample or as no manifest is there. -/
def Lists (s : Source) : Prop :=
  (∃ x, Reaches s languages x ∧ x.Lists s) ∨ ∀ x ∈ languages, x.IsAbsent s

section
variable {check : Check} {checks : List Check} {xs : List Language}

theorem firstCheck_cons_eq_fault_iff :
    (firstCheck (check :: checks)).run s = .error why ↔ check.run s = .error why ∨
      check.run s = .ok (.ok none) ∧ (firstCheck checks).run s = .error why := by
  show (check.bind _).run s = _ ↔ _
  rw [run_bind]
  cases check.run s with
  | error other => simp [Except.bind]
  | ok outcome =>
    match outcome with
    | .error fault =>
      show Except.ok (Except.error fault) = _ ↔ _
      simp
    | .ok (some found) =>
      show Except.ok (Except.ok found) = _ ↔ _
      simp
    | .ok none =>
      show (firstCheck checks).run s = _ ↔ _
      simp

/-- The induction is on the checks, of which each is described by its language. -/
theorem firstCheck_eq_fault_iff (last : Check)
    (described : List.Forall₂ (Language.Describes s) xs checks) :
    (firstCheck (checks ++ [last])).run s = .error why ↔
      (∃ x, Reaches s xs x ∧ (x.Untold s why ∨ x.Lists s ∧ s.files = .error why)) ∨
        (∀ x ∈ xs, x.IsAbsent s) ∧ last.run s = .error why := by
  induction described with
  | nil =>
    rw [List.nil_append, firstCheck_cons_eq_fault_iff]
    constructor
    · rintro (failed | ⟨-, failed⟩)
      · exact .inr ⟨List.forall_mem_nil _, failed⟩
      · cases failed
    · rintro (⟨x, reached, -⟩ | ⟨-, failed⟩)
      · cases reached
      · exact .inl failed
  | @cons x check xs checks first _ ih =>
    rw [List.cons_append, firstCheck_cons_eq_fault_iff, first.fails, first.passes, ih,
      List.forall_mem_cons]
    constructor
    · rintro (failed | ⟨absent, ⟨y, reached, failed⟩ | ⟨others, failed⟩⟩)
      · exact .inl ⟨x, .here, failed⟩
      · exact .inl ⟨y, .later absent reached, failed⟩
      · exact .inr ⟨⟨absent, others⟩, failed⟩
    · rintro (⟨y, _ | ⟨absent, reached⟩, failed⟩ | ⟨⟨absent, others⟩, failed⟩)
      · exact .inl failed
      · exact .inr ⟨absent, .inl ⟨y, reached, failed⟩⟩
      · exact .inr ⟨absent, .inr ⟨others, failed⟩⟩

end

/-! ## The checks -/

/-- Whether the manifests and the listed files can be looked at. -/
structure IsReadable (s : Source) : Prop where
  manifests : ∀ path ∈ Stack.manifests, ∃ text, s.read path = .ok text
  files : ∀ l, s.files = .ok l → ∀ path ∈ l, ∃ text, s.read path = .ok text

theorem run_if_eq_error_iff (presence : Scan Bool) (later : Check) :
    (do if ← presence then later else return .ok none : Check).run s = .error why ↔
      presence.run s = .error why ∨ presence.run s = .ok true ∧ later.run s = .error why := by
  rw [run_if]
  cases presence.run s with
  | error other => simp [Except.bind]
  | ok here => cases here <;> simp [Except.bind]

theorem stops_singleton {path : String} :
    Stops s passed why [path] ↔ s.present path = .error why := by
  rw [stops_cons]
  exact or_iff_left fun ⟨_, _, _, none_left⟩ => nomatch none_left

/-- A check that asks for one manifest only. -/
theorem single_describes {manifest : String} {later : Check} (outcome : Except Json.Fault Detection)
    (answers : later.run s = .ok (outcome.map some)) :
    Language.Describes s ⟨[manifest], [], false⟩
      (do if ← isPresent manifest then later else return .ok none) where
  passes := by
    rw [run_if, run_isPresent, answers, Language.IsAbsent, List.forall_mem_singleton]
    cases s.present manifest with
    | error other => simp [Except.bind]
    | ok here => cases here <;> cases outcome <;> simp [Except.bind, Except.map]
  fails why := by
    rw [run_if_eq_error_iff, run_isPresent, answers]
    constructor
    · rintro (untold | ⟨-, failed⟩)
      · exact .inl (.manifest (stops_singleton.2 untold))
      · cases failed
    · rintro ((stops | ⟨-, none_left⟩) | ⟨⟨listed, -, -⟩, -⟩)
      · exact .inl (stops_singleton.1 stops)
      · cases none_left
      · cases listed

theorem run_readText {path : String} {text : Option Text} (read : s.read path = .ok text) :
    (readText path).run s = .ok text := by
  show (s.read path).bind _ = _
  rw [read]
  rfl

theorem stated_describes {language manifest : String} {signs : Signs}
    (readable : ∃ text, s.read manifest = .ok text) :
    Language.Describes s ⟨[manifest], [], false⟩ (stated language manifest signs) := by
  obtain ⟨text, read⟩ := readable
  refine single_describes
    (.ok ⟨⟨language, some ((frameworkIn? (text.getD []) signs).getD language)⟩, none⟩) ?_
  rw [run_after, run_readText read]
  rfl

theorem node_describes {depth : Nat} (readable : ∃ text, s.read "package.json" = .ok text) :
    Language.Describes s ⟨["package.json"], [], false⟩ (node depth) := by
  obtain ⟨text, read⟩ := readable
  obtain ⟨outcome, same⟩ : ∃ outcome : Except Json.Fault Detection,
      ofPackage depth (text.getD []) = outcome.map some := by
    rw [ofPackage]
    split
    · exact ⟨.ok _, rfl⟩
    · split
      · exact ⟨.ok _, rfl⟩
      · exact ⟨.ok _, rfl⟩
      · exact ⟨.error _, rfl⟩
  refine single_describes outcome ?_
  rw [run_after, run_readText read]
  exact congrArg Except.ok same

/-- Rails is told by one of two files, the second of which is asked for if the first is absent. -/
theorem ruby_describes :
    Language.Describes s ⟨["Gemfile"], ["config/routes.rb", "bin/rails"], false⟩
    ruby where
  passes := ruby_goesBy.passes
  fails why := by
    have later : (do
        let isRails ← anyPresent ["config/routes.rb", "bin/rails"]
        return holds "ruby" (some (if isRails then "rails" else "ruby")) : Check).run s =
          .error why ↔ Stops s (· = false) why ["config/routes.rb", "bin/rails"] := by
      rw [run_after, ← anyPresent_eq_error_iff]
      cases (anyPresent ["config/routes.rb", "bin/rails"]).run s <;> simp [Except.map]
    rw [ruby, run_if_eq_error_iff, run_isPresent, later]
    constructor
    · rintro (untold | ⟨here, stops⟩)
      · exact .inl (.manifest (stops_singleton.2 untold))
      · exact .inl (.further ⟨_, .head _, here⟩ stops)
    · rintro ((stops | ⟨there, stops⟩) | ⟨⟨listed, -, -⟩, -⟩)
      · exact .inl (stops_singleton.1 stops)
      · obtain ⟨path, member, here⟩ := there
        rw [List.mem_singleton.1 member] at here
        exact .inr ⟨here, stops⟩
      · cases listed

section
variable {endings : List String} {limit : Int} {signs : Signs}

theorem run_samplePaths_eq : (samplePaths paths endings limit).run s =
    ((presentOf paths).run s).bind fun present => s.files.map fun files =>
      present ++ takeLimit limit (files.filter fun file =>
        endings.any (hasEnding file) && !present.contains file) := by
  show ((presentOf paths).bind fun present => listFiles.bind fun files => done _).run s = _
  rw [run_bind]
  congr 1

theorem subset_of_presentOf {found : List String} (asked : (presentOf paths).run s = .ok found) :
    found ⊆ paths := by
  induction paths generalizing found with
  | nil =>
    cases asked
    exact List.Subset.refl []
  | cons path rest ih =>
    rw [run_presentOf_cons] at asked
    obtain ⟨here, -, asked⟩ := Except.exists_of_bind asked
    obtain ⟨later, others, rfl⟩ := Except.exists_of_map asked
    cases here with
    | true => exact List.cons_subset_cons path (ih others)
    | false => exact List.subset_cons_of_subset path (ih others)

theorem exists_run_eachText (visit : String → Text → List Text)
    (readable : ∀ path ∈ paths, ∃ text, s.read path = .ok text) :
    ∃ texts, (eachText visit paths).run s = .ok texts := by
  choose! texts read using readable
  exact ⟨_, run_eachText_of_reads read visit⟩

/-- Taking a sample fails over a manifest that cannot be told or, after the manifests, over the
listing. -/
theorem sampleText_eq_error_iff (readable : IsReadable s) (among : paths ⊆ Stack.manifests) :
    (sampleText paths endings limit).run s = .error why ↔
      Stops s (fun _ => True) why paths ∨ AreTold s paths ∧ s.files = .error why := by
  have ran : (sampleText paths endings limit).run s =
      ((samplePaths paths endings limit).run s).bind fun sample =>
        ((eachText (fun _ text => [text]) sample).run s).map (Text.joinWith ['\n']) := by
    show ((samplePaths paths endings limit).bind fun sample =>
      (eachText (fun _ text => [text]) sample).bind fun texts => done _).run s = _
    rw [run_bind]
    congr 1
    funext sample
    exact run_after _ _
  rw [ran, run_samplePaths_eq, ← presentOf_eq_error_iff, areTold_iff]
  cases asked : (presentOf paths).run s with
  | error other => simp [Except.bind]
  | ok present =>
    cases listed : s.files with
    | error other => simp [Except.bind, Except.map]
    | ok l =>
      have seen : ∀ path ∈ present ++ takeLimit limit (l.filter fun file =>
          endings.any (hasEnding file) && !present.contains file),
          ∃ text, s.read path = .ok text := by
        intro path member
        rcases List.mem_append.1 member with member | member
        · exact readable.manifests path (among (subset_of_presentOf asked member))
        · exact readable.files l listed path (List.mem_of_mem_filter (mem_takeLimit member))
      obtain ⟨texts, read⟩ := exists_run_eachText (fun _ text => [text]) seen
      simp only [Except.bind, Except.map, read]
      simp

theorem sampled_describes {language : String} (readable : IsReadable s)
    (among : paths ⊆ Stack.manifests) :
    Language.Describes s ⟨paths, [], true⟩ (sampled language paths endings limit signs) where
  passes := (sampled_goesBy ..).passes
  fails why := by
    have later : (do
        let text ← sampleText paths endings limit
        return holds language (some ((frameworkIn? text signs).getD language)) : Check).run s =
          .error why ↔
            Stops s (fun _ => True) why paths ∨ AreTold s paths ∧ s.files = .error why := by
      rw [run_after, ← sampleText_eq_error_iff readable among]
      cases (sampleText paths endings limit).run s <;> simp [Except.map]
    rw [sampled, run_if_eq_error_iff, later, anyPresent_eq_error_iff]
    constructor
    · rintro (stops | ⟨there, stops | ⟨told, unlisted⟩⟩)
      · exact .inl (.manifest (stops.mono fun _ _ => trivial))
      · exact .inl (.manifest stops)
      · exact .inr ⟨⟨rfl, told, (anyPresent_eq_true_iff told).1 there⟩, unlisted⟩
    · rintro ((stops | ⟨-, none_left⟩) | ⟨⟨-, told, there⟩, unlisted⟩)
      · exact stops.absent_or_there.imp_right fun there => ⟨there, .inl stops⟩
      · cases none_left
      · exact .inr ⟨(anyPresent_eq_true_iff told).2 there, .inr ⟨told, unlisted⟩⟩

end

/-- The checks fail over a look exactly if they come to a path that cannot be told, or to the
listing of a tree that cannot be listed. -/
theorem detect_eq_fault_iff {depth : Nat} {limits : SampleLimits} (readable : IsReadable s) :
    (detect depth limits).run s = .error why ↔ Untold s why ∨ Lists s ∧ s.files = .error why := by
  have text (path : String) (member : path ∈ Stack.manifests) : ∃ text, s.read path = .ok text :=
    readable.manifests path member
  have described : List.Forall₂ (Language.Describes s) languages
      [elixir, python limits.python, ruby, node depth, go, rust, java limits.java, php] :=
    .cons (stated_describes (text _ (by decide))) <|
      .cons (sampled_describes readable (by decide)) <| .cons ruby_describes <|
      .cons (node_describes (text _ (by decide))) <|
      .cons (stated_describes (text _ (by decide))) <|
      .cons (stated_describes (text _ (by decide))) <|
      .cons (sampled_describes readable (by decide)) <|
      .cons (stated_describes (text _ (by decide))) .nil
  have last : csharp.run s = .error why ↔ s.files = .error why := by
    rw [csharp, run_after]
    show (s.files.bind _).map _ = _ ↔ _
    cases s.files <;> simp [Except.bind, Except.map, run]
  refine (firstCheck_eq_fault_iff csharp described).trans ?_
  rw [last]
  constructor
  · rintro (⟨x, reached, untold | ⟨lists, unlisted⟩⟩ | ⟨absent, unlisted⟩)
    · exact .inl ⟨x, reached, untold⟩
    · exact .inr ⟨.inl ⟨x, reached, lists⟩, unlisted⟩
    · exact .inr ⟨.inr absent, unlisted⟩
  · rintro (⟨x, reached, untold⟩ | ⟨⟨x, reached, lists⟩ | absent, unlisted⟩)
    · exact .inl ⟨x, reached, .inl untold⟩
    · exact .inl ⟨x, reached, .inr ⟨lists, unlisted⟩⟩
    · exact .inr ⟨absent, unlisted⟩

end CodeSurvey.Stack
