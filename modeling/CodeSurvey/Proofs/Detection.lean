import CodeSurvey.Proofs.Looks
import CodeSurvey.Proofs.Scan
import CodeSurvey.Stack

/-!
# Finding out a stack

The checks ask for the manifests of the languages, one language after the other, and read manifests
and listed files only (`Stack.detect_keepsTo`). Only the manifest of a package can keep them from an
answer: it is read as JSON if none of the languages before has a manifest, and not every text can be
read or passed over as malformed (`Stack.detect_eq_error_iff`). Where there is nothing at all the
stack is unknown (`Stack.detect_eq_unknown`).
-/

namespace CodeSurvey.Stack

open Scan

variable {l : List String} {mayAsk : String → Prop} {s : Source}

/-! ## Looks -/

/-- Whether a scan asks only for certain paths, and reads only those and listed files. -/
abbrev LooksAt {α : Type} (l : List String) (mayAsk : String → Prop) (wanted : α → Prop)
    (scan : Scan α) : Prop :=
  scan.KeepsTo l mayAsk (fun path => mayAsk path ∨ path ∈ l) wanted

theorem anyPresent_keepsTo {mayRead : String → Prop} {paths : List String}
    (may : ∀ path ∈ paths, mayAsk path) :
    (anyPresent paths).KeepsTo l mayAsk mayRead fun _ => True := by
  induction paths with
  | nil => trivial
  | cons path rest ih =>
    obtain ⟨first, rest⟩ := List.forall_mem_cons.1 may
    refine .bind (.isPresent first) fun here _ => ?_
    cases here with
    | true => trivial
    | false => exact ih rest

theorem presentOf_looksAt {paths : List String} (may : ∀ path ∈ paths, mayAsk path) :
    LooksAt l mayAsk (fun found => ∀ path ∈ found, path ∈ paths) (presentOf paths) := by
  induction paths with
  | nil => exact fun path member => by cases member
  | cons path rest ih =>
    obtain ⟨first, rest⟩ := List.forall_mem_cons.1 may
    refine .bind (.isPresent first) fun here _ => .bind (ih rest) fun later among => ?_
    cases here with
    | true => exact List.forall_mem_cons.2 ⟨.head _, fun p member => .tail _ (among p member)⟩
    | false => exact fun p member => .tail _ (among p member)

theorem mem_takeLimit {α : Type} {limit : Int} {items : List α} {item : α}
    (h : item ∈ takeLimit limit items) : item ∈ items := by
  rw [takeLimit] at h
  split at h
  · exact List.mem_of_mem_take h
  · exact List.mem_of_mem_take h

theorem sampled_looksAt {language : String} {manifests endings : List String} {limit : Int}
    {signs : Signs} (may : ∀ path ∈ manifests, mayAsk path) :
    LooksAt l mayAsk (fun _ => True) (sampled language manifests endings limit signs) := by
  refine .bind (anyPresent_keepsTo may) fun here _ => ?_
  cases here with
  | false => trivial
  | true =>
    have paths : LooksAt l mayAsk (fun found => ∀ path ∈ found, mayAsk path ∨ path ∈ l)
        (samplePaths manifests endings limit) := by
      refine .bind (presentOf_looksAt may) fun present among => ?_
      show ∀ path ∈ present ++ _, mayAsk path ∨ path ∈ l
      intro path member
      rcases List.mem_append.1 member with member | member
      · exact .inl (may path (among path member))
      · exact .inr (List.mem_of_mem_filter (mem_takeLimit member))
    have text : LooksAt l mayAsk (fun _ => True) (sampleText manifests endings limit) :=
      .bind paths fun _ readable => .bind (.eachText readable) fun _ _ => trivial
    exact .bind text fun _ _ => trivial

theorem stated_looksAt {language manifest : String} {signs : Signs} (may : mayAsk manifest) :
    LooksAt l mayAsk (fun _ => True) (stated language manifest signs) := by
  refine .bind (.isPresent may) fun here _ => ?_
  cases here with
  | true => exact .bind (.readText (.inl may)) fun _ _ => trivial
  | false => trivial

theorem firstCheck_keepsTo {mayRead : String → Prop} {checks : List Check}
    (h : ∀ check ∈ checks, check.KeepsTo l mayAsk mayRead fun _ => True) :
    (firstCheck checks).KeepsTo l mayAsk mayRead fun _ => True := by
  induction checks with
  | nil => trivial
  | cons check rest ih =>
    obtain ⟨first, rest⟩ := List.forall_mem_cons.1 h
    refine .bind first fun outcome _ => ?_
    match outcome with
    | .error fault => trivial
    | .ok (some found) => trivial
    | .ok none => exact ih rest

/-- The paths that the checks ask for. -/
def manifests : List String :=
  ["mix.exs", "requirements.txt", "pyproject.toml", "setup.py", "Gemfile", "config/routes.rb",
    "bin/rails", "package.json", "go.mod", "Cargo.toml", "pom.xml", "build.gradle",
    "build.gradle.kts", "composer.json"]

/-- The manifests that the checks may read. Of the one that tells Rails they only ask whether it is
there. -/
def IsReadManifest (path : String) : Prop := path ∈ manifests ∧ path ≠ "bin/rails"

instance : DecidablePred IsReadManifest := fun _ => inferInstanceAs (Decidable (_ ∧ _))

theorem detect_keepsTo (depth : Nat) (limits : SampleLimits) (l : List String) :
    (detect depth limits).KeepsTo l (· ∈ manifests) (fun path => IsReadManifest path ∨ path ∈ l)
      fun _ => True := by
  have asked {check : Check} (looks : LooksAt l IsReadManifest (fun _ => True) check) :
      check.KeepsTo l (· ∈ manifests) (fun path => IsReadManifest path ∨ path ∈ l)
        fun _ => True :=
    looks.mono (fun _ may => may.1) fun _ => id
  refine firstCheck_keepsTo ?_
  simp only [checks, List.forall_mem_cons, List.not_mem_nil, false_implies, implies_true, and_true]
  refine ⟨asked (stated_looksAt (by decide)), asked (sampled_looksAt (by decide)), ?ruby, ?node,
    asked (stated_looksAt (by decide)), asked (stated_looksAt (by decide)),
    asked (sampled_looksAt (by decide)), asked (stated_looksAt (by decide)), ?csharp⟩
  case ruby =>
    refine .bind (.isPresent (by decide)) fun here _ => ?_
    cases here with
    | true => exact .bind (anyPresent_keepsTo (by decide)) fun _ _ => trivial
    | false => trivial
  case node =>
    refine .bind (.isPresent (by decide)) fun here _ => ?_
    cases here with
    | true => exact .bind (.readText (.inl (by decide))) fun _ _ => trivial
    | false => trivial
  case csharp => trivial

/-! ## Outcomes -/

/-- Whether a check comes to nothing exactly if none of the manifests is there, and never fails over
what a manifest says. -/
structure GoesBy (s : Source) (manifests : List String) (check : Check) : Prop where
  passes : check.run s = .ok (.ok none) ↔ ∀ path ∈ manifests, s.present path = .ok false
  sound : ∀ fault, check.run s ≠ .ok (.error fault)

theorem run_anyPresent_eq_false {paths : List String} :
    (anyPresent paths).run s = .ok false ↔ ∀ path ∈ paths, s.present path = .ok false := by
  induction paths with
  | nil => simp [anyPresent, run]
  | cons path rest ih =>
    rw [List.forall_mem_cons, ← ih]
    show (s.present path).bind _ = _ ↔ _
    cases s.present path with
    | error why => simp [Except.bind]
    | ok here =>
      cases here with
      | true => exact iff_of_false (fun same => by cases same) fun all => by cases all.1
      | false => exact ⟨fun later => ⟨rfl, later⟩, fun all => all.2⟩

theorem run_if (presence : Scan Bool) (later : Check) :
    (do if ← presence then later else return .ok none : Check).run s =
      (presence.run s).bind fun here => if here then later.run s else .ok (.ok none) := by
  show (presence.bind _).run s = _
  rw [run_bind]
  congr 1
  funext here
  cases here <;> rfl

/-- A check that asks for manifests first, and holds whatever it finds in them. -/
theorem goesBy_if {manifests : List String} {presence : Scan Bool} {α : Type} {later : Scan α}
    {found : α → Detection}
    (told : presence.run s = .ok false ↔ ∀ path ∈ manifests, s.present path = .ok false) :
    GoesBy s manifests (do
      if ← presence then
        let a ← later
        return .ok (some (found a))
      else
        return .ok none) := by
  have ran := run_if (s := s) presence (do let a ← later; return .ok (some (found a)))
  rw [run_after later fun a => (.ok (some (found a)) : Except Json.Fault (Option Detection))] at ran
  constructor
  · rw [← told, ran]
    cases presence.run s with
    | error why => simp [Except.bind]
    | ok here => cases here <;> cases later.run s <;> simp [Except.bind, Except.map]
  · intro fault
    rw [ran]
    cases presence.run s with
    | error why => simp [Except.bind]
    | ok here => cases here <;> cases later.run s <;> simp [Except.bind, Except.map]

theorem run_isPresent (path : String) : (isPresent path).run s = s.present path := by
  show (s.present path).bind _ = _
  cases s.present path <;> rfl

theorem stated_goesBy (language manifest : String) (signs : Signs) :
    GoesBy s [manifest] (stated language manifest signs) :=
  goesBy_if (by rw [run_isPresent, List.forall_mem_singleton])

theorem sampled_goesBy (language : String) (manifests endings : List String) (limit : Int)
    (signs : Signs) : GoesBy s manifests (sampled language manifests endings limit signs) :=
  goesBy_if run_anyPresent_eq_false

theorem ruby_goesBy : GoesBy s ["Gemfile"] ruby :=
  goesBy_if (by rw [run_isPresent, List.forall_mem_singleton])

theorem csharp_sound (fault : Json.Fault) : csharp.run s ≠ .ok (.error fault) := by
  rw [csharp, run_after]
  cases listFiles.run s with
  | error why => simp [Except.map]
  | ok l =>
    simp only [Except.map]
    split <;> simp [holds]

/-! ## The manifest of a package -/

theorem ofPackage_eq_error_iff {depth : Nat} {text : Text} {fault : Json.Fault} :
    ofPackage depth text = .error fault ↔ text ≠ [] ∧ Json.read depth text = .error fault ∧
      ∀ problem rest, fault ≠ .malformed problem rest := by
  rw [ofPackage]
  split
  · next empty => simp [List.isEmpty_iff.1 empty]
  · next full =>
    have nonempty : text ≠ [] := fun empty => full (List.isEmpty_iff.2 empty)
    split
    · next value read => simp [read]
    · next problem rest read =>
      simp only [read, reduceCtorEq, false_iff]
      rintro ⟨-, same, wellFormed⟩
      cases same
      exact wellFormed problem rest rfl
    · next other wellFormed read =>
      simp only [read, Except.error.injEq]
      constructor
      · rintro rfl
        exact ⟨nonempty, rfl, fun problem rest same => wellFormed problem rest same⟩
      · exact fun h => h.2.1

/-- Whether the manifest of a package is read, as that of no language before is there, and can
neither be read nor passed over. -/
structure PackageFault (depth : Nat) (s : Source) (fault : Json.Fault) : Prop where
  before : ∀ path ∈ ["mix.exs", "requirements.txt", "pyproject.toml", "setup.py", "Gemfile"],
    s.present path = .ok false
  here : s.present "package.json" = .ok true
  unreadable : ∃ text, s.read "package.json" = .ok (some text) ∧ text ≠ [] ∧
    Json.read depth text = .error fault
  wellFormed : ∀ problem rest, fault ≠ .malformed problem rest

theorem node_eq_error_iff {depth : Nat} {fault : Json.Fault} :
    (node depth).run s = .ok (.error fault) ↔ s.present "package.json" = .ok true ∧
      (∃ text, s.read "package.json" = .ok (some text) ∧ text ≠ [] ∧
        Json.read depth text = .error fault) ∧ ∀ problem rest, fault ≠ .malformed problem rest := by
  have ran : (readText "package.json").run s = s.read "package.json" := by
    show (s.read _).bind _ = _
    cases s.read "package.json" <;> rfl
  rw [node, run_if, run_isPresent, run_after, ran]
  cases s.present "package.json" with
  | error why => simp [Except.bind]
  | ok here =>
    cases here with
    | false => simp [Except.bind]
    | true =>
      cases s.read "package.json" with
      | error why => simp [Except.bind, Except.map]
      | ok text =>
        cases text with
        | none => simp [Except.bind, Except.map, ofPackage]
        | some text => simp [Except.bind, Except.map, ofPackage_eq_error_iff, and_assoc]

/-! ## All checks -/

theorem firstCheck_cons_eq_error_iff {check : Check} {rest : List Check} {fault : Json.Fault} :
    (firstCheck (check :: rest)).run s = .ok (.error fault) ↔ check.run s = .ok (.error fault) ∨
      check.run s = .ok (.ok none) ∧ (firstCheck rest).run s = .ok (.error fault) := by
  show (check.bind _).run s = _ ↔ _
  rw [run_bind]
  cases check.run s with
  | error why => simp [Except.bind]
  | ok outcome =>
    match outcome with
    | .error other =>
      show Except.ok (Except.error other) = _ ↔ _
      simp
    | .ok (some found) =>
      show Except.ok (Except.ok found) = _ ↔ _
      simp
    | .ok none =>
      show (firstCheck rest).run s = _ ↔ _
      simp

theorem firstCheck_sound {checks : List Check}
    (sound : ∀ check ∈ checks, ∀ fault, check.run s ≠ .ok (.error fault)) (fault : Json.Fault) :
    (firstCheck checks).run s ≠ .ok (.error fault) := by
  induction checks with
  | nil => simp [firstCheck, run]
  | cons check rest ih =>
    obtain ⟨first, rest⟩ := List.forall_mem_cons.1 sound
    rw [Ne, firstCheck_cons_eq_error_iff, not_or]
    exact ⟨first fault, fun later => ih rest later.2⟩

theorem detect_eq_error_iff {depth : Nat} {limits : SampleLimits} {fault : Json.Fault} :
    (detect depth limits).run s = .ok (.error fault) ↔ PackageFault depth s fault := by
  have elixir : GoesBy s ["mix.exs"] elixir := stated_goesBy ..
  have python :
      GoesBy s ["requirements.txt", "pyproject.toml", "setup.py"] (python limits.python) :=
    sampled_goesBy ..
  have ruby : GoesBy s ["Gemfile"] ruby := ruby_goesBy
  have rest : (firstCheck [go, rust, java limits.java, php, csharp]).run s ≠ .ok (.error fault) :=
    firstCheck_sound (by
      simp only [List.forall_mem_cons, List.not_mem_nil, false_implies, implies_true, and_true]
      exact ⟨(stated_goesBy ..).sound, (stated_goesBy ..).sound, (sampled_goesBy ..).sound,
        (stated_goesBy ..).sound, csharp_sound⟩) fault
  rw [detect, checks, firstCheck_cons_eq_error_iff, firstCheck_cons_eq_error_iff,
    firstCheck_cons_eq_error_iff, firstCheck_cons_eq_error_iff, node_eq_error_iff, elixir.passes,
    python.passes, ruby.passes]
  simp only [elixir.sound, python.sound, ruby.sound, rest, false_or, and_false, or_false]
  constructor
  · rintro ⟨noElixir, noPython, noRuby, here, unreadable, wellFormed⟩
    have before := List.forall_mem_append.2 ⟨noElixir, List.forall_mem_append.2 ⟨noPython, noRuby⟩⟩
    exact ⟨before, here, unreadable, wellFormed⟩
  · rintro ⟨before, here, unreadable, wellFormed⟩
    exact ⟨fun path member => before path (List.mem_append_left _ member),
      fun path member => before path
        (List.mem_append_right ["mix.exs"] (List.mem_append_left ["Gemfile"] member)),
      fun path member => before path (List.mem_append_right
        ["mix.exs", "requirements.txt", "pyproject.toml", "setup.py"] member),
      here, unreadable, wellFormed⟩

/-! ## Trees without manifests -/

theorem firstCheck_of_none {check : Check} (rest : List Check)
    (passes : check.run s = .ok (.ok none)) :
    (firstCheck (check :: rest)).run s = (firstCheck rest).run s := by
  show (check.bind _).run s = _
  rw [run_bind, passes]
  rfl

theorem firstCheck_of_error {check : Check} (rest : List Check) {why : Fault}
    (failed : check.run s = .error why) : (firstCheck (check :: rest)).run s = .error why := by
  show (check.bind _).run s = _
  rw [run_bind, failed]
  rfl

theorem firstCheck_eq_unknown {checks : List Check}
    (pass : ∀ check ∈ checks, check.run s = .ok (.ok none)) :
    (firstCheck checks).run s = .ok (.ok ⟨unknown, none⟩) := by
  induction checks with
  | nil => rfl
  | cons check rest ih =>
    obtain ⟨first, rest⟩ := List.forall_mem_cons.1 pass
    rw [firstCheck_of_none _ first, ih rest]

/-- The manifests that tell a language. -/
def languageManifests : List String :=
  ["mix.exs", "requirements.txt", "pyproject.toml", "setup.py", "Gemfile", "package.json", "go.mod",
    "Cargo.toml", "pom.xml", "build.gradle", "build.gradle.kts", "composer.json"]

/-- Where neither a manifest nor any file is there, the stack is unknown. -/
theorem detect_eq_unknown {depth : Nat} {limits : SampleLimits} (listed : s.files = .ok [])
    (absent : ∀ path ∈ languageManifests, s.present path = .ok false) :
    (detect depth limits).run s = .ok (.ok ⟨unknown, none⟩) := by
  have within {paths : List String} (among : paths ⊆ languageManifests) :
      ∀ path ∈ paths, s.present path = .ok false :=
    fun path member => absent path (among member)
  have stated (language manifest : String) (signs : Signs) (member : manifest ∈ languageManifests) :
      (stated language manifest signs).run s = .ok (.ok none) :=
    (stated_goesBy language manifest signs).passes.2 (within (by simpa using member))
  have sampled (language : String) (manifests endings : List String) (limit : Int) (signs : Signs)
      (among : manifests ⊆ languageManifests) :
      (sampled language manifests endings limit signs).run s = .ok (.ok none) :=
    (sampled_goesBy language manifests endings limit signs).passes.2 (within among)
  have node : (node depth).run s = .ok (.ok none) := by
    rw [node, run_if, run_isPresent, absent "package.json" (by decide)]
    rfl
  have csharp : csharp.run s = .ok (.ok none) := by
    show s.files.bind _ = _
    rw [listed]
    rfl
  refine firstCheck_eq_unknown ?_
  simp only [checks, List.forall_mem_cons, List.not_mem_nil, false_implies, implies_true, and_true]
  exact ⟨stated _ _ _ (by decide), sampled _ _ _ _ _ (by decide),
    ruby_goesBy.passes.2 (within (by decide)), node, stated _ _ _ (by decide),
    stated _ _ _ (by decide), sampled _ _ _ _ _ (by decide), stated _ _ _ (by decide), csharp⟩

/-- The manifests of Elixir and Python are asked for first. -/
theorem detect_untold {depth : Nat} {limits : SampleLimits} {why : Fault}
    (first : s.present "mix.exs" = .ok false ∨ s.present "mix.exs" = .error why)
    (second : s.present "requirements.txt" = .error why) :
    (detect depth limits).run s = .error why := by
  rcases first with absent | untold
  · have elixir : elixir.run s = .ok (.ok none) :=
      (stated_goesBy ..).passes.2 (List.forall_mem_singleton.2 absent)
    have python : (python limits.python).run s = .error why := by
      have asked : (anyPresent ["requirements.txt", "pyproject.toml", "setup.py"]).run s =
          .error why := by
        show (s.present "requirements.txt").bind _ = _
        rw [second]
        rfl
      rw [python, sampled, run_if, asked]
      rfl
    rw [detect, checks, firstCheck_of_none _ elixir, firstCheck_of_error _ python]
  · have elixir : elixir.run s = .error why := by
      rw [elixir, stated, run_if, run_isPresent, untold]
      rfl
    rw [detect, checks, firstCheck_of_error _ elixir]

end CodeSurvey.Stack
