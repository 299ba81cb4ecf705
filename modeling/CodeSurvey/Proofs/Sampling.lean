import CodeSurvey.Proofs.Detection
import CodeSurvey.Proofs.Location
import CodeSurvey.Settings

/-!
# Frameworks told by a sample

For Python and Java the framework is told by a sample of the files: the manifests that are there,
and the first of the other files with certain endings, as many as the limit allows. The texts of the
sample are joined by line feeds and searched as one. As no word that tells a framework has a line
feed, it occurs in the joined texts exactly if it occurs in one of them
(`Text.exists_of_joinWith_eq`), and so the order of the texts makes no difference. What is found
depends on the sample only (`Stack.framework_of_sample`). A negative limit leaves out files at the
end, so that the sample grows with the tree (`Stack.SampledLanguage.sample_bounded_iff`).
-/

namespace CodeSurvey

/-! ## Words in joined texts -/

namespace Text

theorem has_iff {text needle : Text} : text.has needle = true ↔ needle <:+: text := by
  induction text with
  | nil => simp [has]
  | cons c rest ih => rw [has, Bool.or_eq_true, ih, List.isPrefixOf_iff_prefix, List.infix_cons_iff]

/-- Where texts are joined by a character, a word without it occurs only within one of them. -/
theorem exists_of_joinWith_eq {c : Char} {word : Text} (some : word ≠ []) (outside : c ∉ word)
    {texts : List Text} {before after : Text}
    (occurs : joinWith [c] texts = before ++ (word ++ after)) :
    ∃ pre text post front back, texts = pre ++ text :: post ∧ text = front ++ (word ++ back) ∧
      before = pre.flatMap (· ++ [c]) ++ front := by
  induction texts generalizing before with
  | nil =>
    have nothing : word ++ after = [] := (List.append_eq_nil_iff.1 occurs.symm).2
    exact absurd (List.append_eq_nil_iff.1 nothing).1 some
  | cons text others ih =>
    cases others with
    | nil =>
      rw [joinWith_singleton] at occurs
      exact ⟨[], text, [], before, after, rfl, occurs, rfl⟩
    | cons next others =>
      rw [joinWith_cons_cons, List.append_assoc, List.singleton_append] at occurs
      rcases List.append_eq_append_iff.1 occurs with ⟨gap, rfl, later⟩ | ⟨gap, rfl, later⟩
      · -- The word starts at the character that follows the first text, or after it.
        cases gap with
        | nil =>
          obtain ⟨w, word, rfl⟩ := List.exists_cons_of_ne_nil some
          obtain ⟨rfl, -⟩ := List.cons.inj later
          exact absurd (.head _) outside
        | cons d gap =>
          obtain ⟨rfl, joined⟩ := List.cons.inj later
          obtain ⟨pre, found, post, front, back, rest, within, rfl⟩ := ih joined
          exact ⟨text :: pre, found, post, front, back, by rw [rest]; rfl, within, by simp⟩
      · -- The word starts within the first text, and would go on over the character after it.
        rcases List.append_eq_append_iff.1 later with ⟨back, rfl, -⟩ | ⟨tail, rfl, joined⟩
        · exact ⟨[], _, next :: others, before, back, rfl, rfl, rfl⟩
        · cases tail with
          | nil =>
            refine ⟨[], _, next :: others, before, [], rfl, ?_, rfl⟩
            rw [List.append_nil, List.append_nil]
          | cons d tail =>
            obtain ⟨rfl, -⟩ := List.cons.inj joined
            exact absurd (List.mem_append_right _ (.head _)) outside

theorem infix_joinWith_iff {c : Char} {word : Text} (some : word ≠ []) (outside : c ∉ word)
    {texts : List Text} : word <:+: joinWith [c] texts ↔ ∃ text ∈ texts, word <:+: text := by
  constructor
  · rintro ⟨before, after, occurs⟩
    obtain ⟨pre, text, post, front, back, rfl, rfl, -⟩ :=
      exists_of_joinWith_eq some outside (occurs.symm.trans (List.append_assoc ..))
    exact ⟨_, List.mem_append_right _ (.head _), front, back, List.append_assoc ..⟩
  · rintro ⟨text, member, within⟩
    exact within.trans (infix_joinWith member)

end Text

/-! ## Looks at a sample -/

namespace Source

/-- Whether something is known to stand at a path. -/
def isPresent (s : Source) (path : String) : Bool :=
  match s.present path with
  | .ok here => here
  | .error _ => false

/-- The text at a path, if there is one. -/
def text? (s : Source) (path : String) : Option Text :=
  match s.read path with
  | .ok text => text
  | .error _ => none

theorem isPresent_eq {s : Source} {path : String} {here : Bool} (h : s.present path = .ok here) :
    s.isPresent path = here := by rw [isPresent, h]

theorem text?_eq {s : Source} {path : String} {text : Option Text} (h : s.read path = .ok text) :
    s.text? path = text := by rw [text?, h]

end Source

namespace Scan

variable {α β ρ : Type} {s : Source}

/-- A scan that goes on after another one reads what that one reads, and more only if it
succeeds. -/
theorem reads_bind (scan : Scan α) (f : α → Scan β) : (scan.bind f).reads s = scan.reads s ++
    match scan.run s with
    | .ok a => (f a).reads s
    | .error _ => [] := by
  induction scan with
  | done a => rfl
  | files next ih =>
    simp only [bind, reads, run]
    cases s.files with
    | error _ => rfl
    | ok l => exact ih l
  | present path next ih =>
    simp only [bind, reads, run]
    cases s.present path with
    | error _ => rfl
    | ok here => exact ih here
  | read path next ih =>
    simp only [bind, reads, run]
    cases s.read path with
    | error _ => rfl
    | ok text => exact congrArg (path :: ·) (ih text)

theorem reads_bind_done {scan : Scan α} {f : α → β} :
    (scan.bind fun a => done (f a)).reads s = scan.reads s := by
  rw [reads_bind]
  cases scan.run s <;> exact List.append_nil _

theorem reads_listFiles : listFiles.reads s = [] := by
  rw [listFiles, reads]
  cases s.files <;> rfl

theorem reads_readText (path : String) : (readText path).reads s = [path] := by
  rw [readText, reads]
  cases s.read path <;> rfl

theorem reads_isPresent (path : String) : (isPresent path).reads s = [] := by
  rw [isPresent, reads]
  cases s.present path <;> rfl

theorem reads_visitText (visit : String → Text → List ρ) (path : String) :
    (visitText visit path).reads s = [path] :=
  reads_bind_done.trans (reads_readText path)

theorem reads_eachText_cons (visit : String → Text → List ρ) (path : String)
    (paths : List String) : (eachText visit (path :: paths)).reads s = path ::
      match (visitText visit path).run s with
      | .ok _ => (eachText visit paths).reads s
      | .error _ => [] := by
  show ((visitText visit path).bind fun found =>
    (collect (visitText visit) paths).bind fun later => done (found ++ later)).reads s = _
  rw [reads_bind, reads_visitText]
  cases (visitText visit path).run s with
  | error _ => rfl
  | ok found => exact congrArg (path :: ·) reads_bind_done

/-- A visit to the texts at some paths reads them in order, perhaps not to the end. -/
theorem reads_eachText_prefix (visit : String → Text → List ρ) (paths : List String) :
    (eachText visit paths).reads s <+: paths := by
  induction paths with
  | nil => exact List.nil_prefix
  | cons path paths ih =>
    rw [reads_eachText_cons, List.cons_prefix_cons]
    refine ⟨rfl, ?_⟩
    cases (visitText visit path).run s with
    | error _ => exact List.nil_prefix
    | ok found => exact ih

/-- It reads all of them if it succeeds, and then each can be looked at. -/
theorem reads_eachText {visit : String → Text → List ρ} {paths : List String} {found : List ρ}
    (ran : (eachText visit paths).run s = .ok found) :
    (eachText visit paths).reads s = paths ∧ ∀ path ∈ paths, ∃ text, s.read path = .ok text := by
  induction paths generalizing found with
  | nil => exact ⟨rfl, List.forall_mem_nil _⟩
  | cons path paths ih =>
    rw [eachText, run_collect_cons, run_visitText] at ran
    obtain ⟨here, visited, ran⟩ := Except.exists_of_bind ran
    obtain ⟨later, others, rfl⟩ := Except.exists_of_map ran
    obtain ⟨text, seen, -⟩ := Except.exists_of_map visited
    obtain ⟨same, all⟩ := ih others
    rw [reads_eachText_cons, run_visitText, visited]
    exact ⟨congrArg (path :: ·) same, List.forall_mem_cons.2 ⟨⟨text, seen⟩, all⟩⟩

/-- The texts at some paths that can be looked at. -/
theorem run_texts {paths : List String} (all : ∀ path ∈ paths, ∃ text, s.read path = .ok text) :
    (eachText (fun _ text => [text]) paths).run s = .ok (paths.filterMap s.text?) := by
  have reads : ∀ path ∈ paths, s.read path = .ok (s.text? path) := fun path member => by
    obtain ⟨text, seen⟩ := all path member
    rw [Source.text?_eq seen, seen]
  rw [run_eachText_of_reads reads, List.filterMap_eq_flatMap_toList]
  congr 2
  funext path
  cases s.text? path <;> rfl

end Scan

namespace Stack

open Scan

variable {s : Source} {l : List String}

theorem reads_anyPresent (paths : List String) : (anyPresent paths).reads s = [] := by
  induction paths with
  | nil => rfl
  | cons path paths ih =>
    show ((isPresent path).bind fun here => if here then done true else anyPresent paths).reads s =
      _
    rw [reads_bind, reads_isPresent, List.nil_append]
    match (isPresent path).run s with
    | .error _ => rfl
    | .ok true => rfl
    | .ok false => exact ih

theorem reads_presentOf (paths : List String) : (presentOf paths).reads s = [] := by
  induction paths with
  | nil => rfl
  | cons path paths ih =>
    show ((isPresent path).bind fun here => (presentOf paths).bind fun later =>
      done (if here then path :: later else later)).reads s = _
    rw [reads_bind, reads_isPresent, List.nil_append]
    match (isPresent path).run s with
    | .error _ => rfl
    | .ok here => exact reads_bind_done.trans ih

/-- The question which paths are there is answered by those that are there. -/
theorem run_presentOf {paths found : List String} (ran : (presentOf paths).run s = .ok found) :
    found = paths.filter s.isPresent := by
  induction paths generalizing found with
  | nil =>
    cases ran
    rfl
  | cons path paths ih =>
    change ((isPresent path).bind fun here => (presentOf paths).bind fun later =>
      done (if here then path :: later else later)).run s = _ at ran
    rw [run_bind, run_isPresent] at ran
    obtain ⟨here, told, ran⟩ := Except.exists_of_bind ran
    rw [run_bind] at ran
    obtain ⟨later, others, ran⟩ := Except.exists_of_bind ran
    obtain rfl := ih others
    cases ran
    cases here with
    | true => rw [if_pos rfl, List.filter_cons_of_pos (Source.isPresent_eq told)]
    | false => rw [if_neg nofun, List.filter_cons_of_neg (by rw [Source.isPresent_eq told]; nofun)]

/-! ## Sampled languages -/

/-- A language whose framework is told by a sample of the files. -/
structure SampledLanguage where
  name : String
  manifests : List String
  /-- How the names of the other files end that may be in the sample. -/
  endings : List String
  signs : Signs
  limit : SampleLimits → Int

namespace SampledLanguage

def python : SampledLanguage :=
  ⟨"python", ["requirements.txt", "pyproject.toml", "setup.py"], [".py", ".txt", ".toml"],
    [(["django"], "django"), (["fastapi", "FastAPI"], "fastapi"), (["flask", "Flask"], "flask")],
    SampleLimits.python⟩

def java : SampledLanguage :=
  ⟨"java", ["pom.xml", "build.gradle", "build.gradle.kts"], [".xml", ".gradle", ".kts", ".java"],
    [(["spring"], "spring"), (["quarkus"], "quarkus"), (["micronaut"], "micronaut")],
    SampleLimits.java⟩

def all : List SampledLanguage := [python, java]

variable (x : SampledLanguage)

/-- The check for the language, with the number of other files that may be looked at. -/
def check (limit : Int) : Check := sampled x.name x.manifests x.endings limit x.signs

theorem python_check (limit : Int) : python.check limit = Stack.python limit := rfl

theorem java_check (limit : Int) : java.check limit = Stack.java limit := rfl

/-- The manifests that are there. -/
def present (s : Source) : List String := x.manifests.filter s.isPresent

/-- The files that may be in the sample beside the manifests. -/
def others (s : Source) (l : List String) : List String :=
  l.filter fun file => x.endings.any (hasEnding file) && !(x.present s).contains file

/-- The paths of the sample. -/
def sample (s : Source) (l : List String) (limit : Int) : List String :=
  x.present s ++ takeLimit limit (x.others s l)

/-- The texts of the sample, as far as its files can be read. -/
def texts (s : Source) (l : List String) (limit : Int) : List Text :=
  (x.sample s l limit).filterMap s.text?

variable {x}

theorem reads_samplePaths (limit : Int) :
    (samplePaths x.manifests x.endings limit).reads s = [] := by
  show ((presentOf x.manifests).bind fun present => listFiles.bind fun files => done _).reads s = _
  rw [reads_bind, reads_presentOf, List.nil_append]
  match (presentOf x.manifests).run s with
  | .error _ => rfl
  | .ok present => exact reads_bind_done.trans reads_listFiles

theorem run_samplePaths {limit : Int} {paths : List String}
    (ran : (samplePaths x.manifests x.endings limit).run s = .ok paths) :
    ∃ l, s.files = .ok l ∧ paths = x.sample s l limit := by
  change ((presentOf x.manifests).bind fun present => listFiles.bind fun files =>
    done (present ++ takeLimit limit (files.filter fun file =>
      x.endings.any (hasEnding file) && !present.contains file))).run s = _ at ran
  rw [run_bind] at ran
  obtain ⟨present, asked, ran⟩ := Except.exists_of_bind ran
  obtain rfl := run_presentOf asked
  obtain ⟨l, listed, ran⟩ := Except.exists_of_bind ran
  cases ran
  exact ⟨l, listed, rfl⟩

/-- The texts of a sample are read once its paths are known. -/
theorem reads_sampleText (limit : Int) : (sampleText x.manifests x.endings limit).reads s =
    match (samplePaths x.manifests x.endings limit).run s with
    | .ok paths => (eachText (fun _ text => [text]) paths).reads s
    | .error _ => [] := by
  show ((samplePaths x.manifests x.endings limit).bind fun paths =>
    (eachText (fun _ text => [text]) paths).bind fun texts =>
      done (Text.joinWith ['\n'] texts)).reads s = _
  rw [reads_bind, reads_samplePaths, List.nil_append]
  match (samplePaths x.manifests x.endings limit).run s with
  | .error _ => rfl
  | .ok paths => exact reads_bind_done

/-- A check reads the texts of its sample, if it finds a manifest. -/
theorem reads_check (limit : Int) : (x.check limit).reads s =
    match (anyPresent x.manifests).run s with
    | .ok true => (sampleText x.manifests x.endings limit).reads s
    | _ => [] := by
  show ((anyPresent x.manifests).bind fun here => if here then
    (sampleText x.manifests x.endings limit).bind fun text =>
      done (holds x.name ((frameworkIn? text x.signs).getD x.name)) else done (.ok none)).reads s =
        _
  rw [reads_bind, reads_anyPresent, List.nil_append]
  match (anyPresent x.manifests).run s with
  | .error _ => rfl
  | .ok false => rfl
  | .ok true => exact reads_bind_done

/-- Whatever comes of a check, it reads nothing outside the sample. -/
theorem reads_check_prefix (limit : Int) : (x.check limit).reads s = [] ∨
    ∃ l, s.files = .ok l ∧ (x.check limit).reads s <+: x.sample s l limit := by
  rw [reads_check]
  match (anyPresent x.manifests).run s with
  | .error _ => exact .inl rfl
  | .ok false => exact .inl rfl
  | .ok true =>
    show (sampleText x.manifests x.endings limit).reads s = [] ∨ _
    rw [reads_sampleText]
    cases chosen : (samplePaths x.manifests x.endings limit).run s with
    | error _ => exact .inl rfl
    | ok paths =>
      obtain ⟨l, listed, rfl⟩ := run_samplePaths chosen
      exact .inr ⟨l, listed, reads_eachText_prefix _ _⟩

/-- A check that finds its language has read the sample, and tells the framework by its texts. -/
theorem check_outcome {limit : Int} {found : Detection}
    (ran : (x.check limit).run s = .ok (.ok (some found))) : ∃ l, s.files = .ok l ∧
      found = ⟨⟨x.name, some ((frameworkIn? (Text.joinWith ['\n'] (x.texts s l limit))
        x.signs).getD x.name)⟩, none⟩ ∧
      (x.check limit).reads s = x.sample s l limit := by
  change ((anyPresent x.manifests).bind fun here => if here then
    (sampleText x.manifests x.endings limit).bind fun text =>
      done (holds x.name ((frameworkIn? text x.signs).getD x.name)) else done (.ok none)).run s =
    _ at ran
  rw [run_bind] at ran
  obtain ⟨here, asked, ran⟩ := Except.exists_of_bind ran
  cases here with
  | false => cases ran
  | true =>
    rw [if_pos rfl, run_bind] at ran
    obtain ⟨text, gathered, ran⟩ := Except.exists_of_bind ran
    cases ran
    change ((samplePaths x.manifests x.endings limit).bind fun paths =>
      (eachText (fun _ text => [text]) paths).bind fun texts =>
        done (Text.joinWith ['\n'] texts)).run s = _ at gathered
    rw [run_bind] at gathered
    obtain ⟨paths, chosen, gathered⟩ := Except.exists_of_bind gathered
    obtain ⟨l, listed, rfl⟩ := run_samplePaths chosen
    rw [run_bind] at gathered
    obtain ⟨texts, visited, gathered⟩ := Except.exists_of_bind gathered
    obtain ⟨readAll, readable⟩ := reads_eachText visited
    rw [run_texts readable] at visited
    cases visited
    cases gathered
    refine ⟨l, listed, rfl, ?_⟩
    rw [reads_check, asked]
    show (sampleText x.manifests x.endings limit).reads s = _
    rw [reads_sampleText, chosen]
    exact readAll

/-- Where the same manifests are there, and the texts of the sample are the same, the sample is. -/
theorem texts_congr {s' : Source} {limit : Int}
    (sameManifests : ∀ manifest ∈ x.manifests, s'.isPresent manifest = s.isPresent manifest)
    (sameTexts : ∀ path ∈ x.sample s l limit, s'.text? path = s.text? path) :
    x.texts s' l limit = x.texts s l limit := by
  have present : x.present s' = x.present s := List.filter_congr sameManifests
  have sample : x.sample s' l limit = x.sample s l limit := by
    rw [sample, sample, others, others, present]
  rw [texts, texts, sample]
  exact List.filterMap_congr sameTexts

/-! ## The sample and the limit -/

/-- How many files beside the manifests are in the sample. -/
theorem length_takeLimit {α : Type} (limit : Int) (items : List α) :
    (takeLimit limit items).length =
      if limit < 0 then items.length - limit.natAbs else min limit.toNat items.length := by
  rw [takeLimit]
  split
  · rw [List.length_take, Nat.min_eq_left (Nat.sub_le ..)]
  · exact List.length_take

theorem takeLimit_prefix {α : Type} (limit : Int) (items : List α) :
    takeLimit limit items <+: items := by
  rw [takeLimit]
  split
  · exact List.take_prefix ..
  · exact List.take_prefix ..

theorem length_takeLimit_le_iff {α : Type} {limit : Int} {items : List α} :
    ((takeLimit limit items).length : Int) ≤ max 0 limit ↔
      0 ≤ limit ∨ items.length ≤ limit.natAbs := by
  rw [length_takeLimit]
  split
  · omega
  · omega

/-- Any number may be stated as a limit. -/
theorem exists_settings_of_limit (root : Location) {x : SampledLanguage} (known : x ∈ all)
    (limit : Int) : ∃ document settings, Settings.ofValue root document = .ok settings ∧
      x.limit settings.limits = limit := by
  refine ⟨.map [("sample_limits", .map [("python", .int limit), ("java", .int limit)])],
    ⟨root, [], Category.all, Settings.standardWorkers, ⟨limit, limit⟩⟩, rfl, ?_⟩
  simp only [all, List.mem_cons, List.not_mem_nil, or_false] at known
  rcases known with rfl | rfl <;> rfl

/-- Whatever comes of a check, it reads none but the manifests that are there and the first of the
other files. These are no more than the limit, or than none where it is negative, exactly if the
limit is not negative or leaves out all of them. What is found depends on nothing else. -/
theorem sample_bounded_iff {x : SampledLanguage} (known : x ∈ all) (s : Source) (limit : Int) :
    (∀ root, ∃ document settings, Settings.ofValue root document = .ok settings ∧
      x.limit settings.limits = limit) ∧
    (∀ fault, s.files = .error fault → (x.check limit).reads s = []) ∧
    ∀ l, s.files = .ok l → ∃ beyond, beyond <+: x.others s l ∧
      (x.check limit).reads s <+: x.present s ++ beyond ∧
      ((beyond.length : Int) ≤ max 0 limit ↔ 0 ≤ limit ∨ (x.others s l).length ≤ limit.natAbs) ∧
      ∀ found, (x.check limit).run s = .ok (.ok (some found)) →
        (x.check limit).reads s = x.present s ++ beyond ∧
        ∀ s' found', (x.check limit).run s' = .ok (.ok (some found')) → s'.files = .ok l →
          (∀ manifest ∈ x.manifests, s'.isPresent manifest = s.isPresent manifest) →
          (∀ path ∈ x.present s ++ beyond, s'.text? path = s.text? path) → found' = found := by
  refine ⟨fun root => exists_settings_of_limit root known limit, fun fault failed => ?_,
    fun l listed => ⟨takeLimit limit (x.others s l), takeLimit_prefix .., ?_,
      length_takeLimit_le_iff, fun found ran => ?_⟩⟩
  · rcases reads_check_prefix (x := x) (s := s) limit with none | ⟨l, listed, -⟩
    · exact none
    · rw [failed] at listed
      cases listed
  · rcases reads_check_prefix (x := x) (s := s) limit with none | ⟨l', listed', reads⟩
    · rw [none]
      exact List.nil_prefix
    · obtain rfl : l' = l := Except.ok.inj (listed'.symm.trans listed)
      exact reads
  · obtain ⟨l', listed', rfl, reads⟩ := check_outcome ran
    obtain rfl : l' = l := Except.ok.inj (listed'.symm.trans listed)
    refine ⟨reads, fun s' found' ran' alike sameManifests sameTexts => ?_⟩
    obtain ⟨l, listed, rfl, -⟩ := check_outcome ran'
    obtain rfl : l = l' := Except.ok.inj (listed.symm.trans alike)
    rw [texts_congr sameManifests sameTexts]

/-- A project that is sampled beyond a limit that allows no file. -/
def unlimited : Source :=
  .ofTexts [("a.py", Text.of "import flask"), ("b.py", []), ("requirements.txt", [])]

theorem unlimited_found :
    (python.check (-1)).run unlimited = .ok (.ok (some ⟨⟨"python", some "flask"⟩, none⟩)) := rfl

/-- A limit that allows a file. -/
theorem unlimited_bounded : ∃ beyond,
    (python.check 1).reads unlimited = ["requirements.txt"] ++ beyond ∧ beyond.length ≤ 1 := by
  have found : (python.check 1).run unlimited =
      .ok (.ok (some ⟨⟨"python", some "flask"⟩, none⟩)) := rfl
  have present : python.present unlimited = ["requirements.txt"] := by decide +kernel
  obtain ⟨-, -, sampled⟩ := sample_bounded_iff (.head _) unlimited 1
  obtain ⟨beyond, -, -, bounded, told⟩ := sampled _ rfl
  obtain ⟨reads, -⟩ := told _ found
  rw [present] at reads
  have atMost := bounded.2 (.inl (by decide))
  exact ⟨beyond, reads, by omega⟩

/-- A negative limit does not keep the check from files beside the manifests. -/
theorem sample_not_bounded : ¬ ∀ x ∈ all, ∀ (s : Source) (limit : Int) (found : Detection),
    (x.check limit).run s = .ok (.ok (some found)) →
      (((x.check limit).reads s).length : Int) ≤ (x.present s).length + max 0 limit := by
  intro bounded
  have few := bounded python (.head _) unlimited (-1) _ unlimited_found
  exact absurd few (by decide +kernel)

end SampledLanguage

/-! ## Languages of checks -/

/-- Whether a check finds only certain languages. -/
def Finds (check : Check) (languages : List String) : Prop :=
  ∀ ⦃s : Source⦄ ⦃found : Detection⦄, check.run s = .ok (.ok (some found)) →
    found.stack.language ∈ languages

/-- A check that asks for manifests first finds what it finds in them. -/
theorem finds_if {presence : Scan Bool} {α : Type} {later : Scan α}
    {outcome : α → Except Json.Fault (Option Detection)} {languages : List String}
    (named : ∀ a found, outcome a = .ok (some found) → found.stack.language ∈ languages) :
    Finds (do
      if ← presence then
        let a ← later
        return outcome a
      else
        return .ok none) languages := by
  intro s found ran
  rw [run_if] at ran
  obtain ⟨here, -, ran⟩ := Except.exists_of_bind ran
  cases here with
  | false => cases ran
  | true =>
    rw [if_pos rfl, run_after] at ran
    obtain ⟨a, -, same⟩ := Except.exists_of_map ran
    exact named a found same

theorem stated_finds (language manifest : String) (signs : Signs) :
    Finds (stated language manifest signs) [language] :=
  finds_if fun text found same => by
    cases same
    exact .head _

theorem sampled_finds (language : String) (manifests endings : List String) (limit : Int)
    (signs : Signs) : Finds (sampled language manifests endings limit signs) [language] :=
  finds_if fun text found same => by
    cases same
    exact .head _

theorem ruby_finds : Finds ruby ["ruby"] :=
  finds_if fun isRails found same => by
    cases same
    exact .head _

theorem ofDependencies_language (names : List String) :
    (ofDependencies names).language ∈ ["typescript", "javascript"] := by
  rw [ofDependencies]
  split <;> simp

theorem node_finds {depth : Nat} : Finds (node depth) ["typescript", "javascript"] :=
  finds_if fun text found same => by
    rw [ofPackage] at same
    split at same
    · cases same
      exact ofDependencies_language []
    · split at same <;> cases same <;> exact ofDependencies_language _

theorem csharp_finds : Finds csharp ["csharp"] := by
  intro s found ran
  rw [csharp, run_after] at ran
  obtain ⟨l, -, same⟩ := Except.exists_of_map ran
  split at same
  · cases same
    exact .head _
  · cases same

theorem exists_of_firstCheck {checks : List Check} {found : Detection}
    (ran : (firstCheck checks).run s = .ok (.ok found)) : found = ⟨unknown, none⟩ ∨
      ∃ check ∈ checks, check.run s = .ok (.ok (some found)) := by
  induction checks with
  | nil =>
    cases ran
    exact .inl rfl
  | cons check rest ih =>
    change (check.bind _).run s = _ at ran
    rw [run_bind] at ran
    obtain ⟨outcome, checked, later⟩ := Except.exists_of_bind ran
    match outcome with
    | .error fault => cases later
    | .ok (some other) =>
      cases later
      exact .inr ⟨check, .head _, checked⟩
    | .ok none =>
      refine (ih later).imp_right ?_
      rintro ⟨other, member, ran⟩
      exact ⟨other, .tail _ member, ran⟩

/-- All other checks find other languages than the one of a sampled language. -/
theorem check_or_finds {x : SampledLanguage} (known : x ∈ SampledLanguage.all)
    (depth : Nat) (limits : SampleLimits) :
    ∀ check ∈ checks depth limits, check = x.check (x.limit limits) ∨
      ∃ languages, Finds check languages ∧ x.name ∉ languages := by
  simp only [SampledLanguage.all, List.mem_cons, List.not_mem_nil, or_false] at known
  simp only [checks, List.forall_mem_cons, List.not_mem_nil, false_implies, implies_true, and_true]
  rcases known with rfl | rfl
  · exact ⟨.inr ⟨_, stated_finds .., by decide⟩, .inl rfl, .inr ⟨_, ruby_finds, by decide⟩,
      .inr ⟨_, node_finds, by decide⟩, .inr ⟨_, stated_finds .., by decide⟩,
      .inr ⟨_, stated_finds .., by decide⟩, .inr ⟨_, sampled_finds .., by decide⟩,
      .inr ⟨_, stated_finds .., by decide⟩, .inr ⟨_, csharp_finds, by decide⟩⟩
  · exact ⟨.inr ⟨_, stated_finds .., by decide⟩, .inr ⟨_, sampled_finds .., by decide⟩,
      .inr ⟨_, ruby_finds, by decide⟩, .inr ⟨_, node_finds, by decide⟩,
      .inr ⟨_, stated_finds .., by decide⟩, .inr ⟨_, stated_finds .., by decide⟩, .inl rfl,
      .inr ⟨_, stated_finds .., by decide⟩, .inr ⟨_, csharp_finds, by decide⟩⟩

/-- A sampled language is found by its own check. -/
theorem check_of_detect {x : SampledLanguage} (known : x ∈ SampledLanguage.all)
    {depth : Nat} {limits : SampleLimits} {found : Detection}
    (detected : (detect depth limits).run s = .ok (.ok found))
    (language : found.stack.language = x.name) :
    (x.check (x.limit limits)).run s = .ok (.ok (some found)) := by
  rcases exists_of_firstCheck detected with rfl | ⟨check, member, ran⟩
  · have named : ∀ x ∈ SampledLanguage.all, "unknown" ≠ x.name := by decide
    exact absurd language (named x known)
  · rcases check_or_finds known depth limits check member with rfl | ⟨languages, finds, other⟩
    · exact ran
    · exact absurd (language ▸ finds ran) other

/-! ## Frameworks -/

/-- Whether one of the words occurs within one of the texts. -/
def Mentions (texts : List Text) (words : List String) : Prop :=
  ∃ text ∈ texts, ∃ word ∈ words, Text.of word <:+: text

/-- Whether a framework is that of the first signs that the texts mention, or else the default. -/
def IsToldBy (signs : Signs) (default_ : String) (texts : List Text) (framework : String) : Prop :=
  (∃ before words after, signs = before ++ (words, framework) :: after ∧ Mentions texts words ∧
    ∀ row ∈ before, ¬ Mentions texts row.1) ∨
  framework = default_ ∧ ∀ row ∈ signs, ¬ Mentions texts row.1

/-- Whether a word can be told in texts that are joined by line feeds. -/
def IsSign (word : String) : Prop := Text.of word ≠ [] ∧ '\n' ∉ Text.of word

instance : DecidablePred IsSign := fun _ => inferInstanceAs (Decidable (_ ∧ _))

theorem SampledLanguage.isSign {x : SampledLanguage} (known : x ∈ SampledLanguage.all) :
    ∀ row ∈ x.signs, ∀ word ∈ row.1, IsSign word := by
  have all : ∀ x ∈ SampledLanguage.all, ∀ row ∈ x.signs, ∀ word ∈ row.1, IsSign word := by decide
  exact all x known

section
variable {signs : Signs} {texts : List Text}

theorem any_has_iff {words : List String} (legible : ∀ word ∈ words, IsSign word) :
    (words.any fun word => (Text.joinWith ['\n'] texts).has (Text.of word)) = true ↔
      Mentions texts words := by
  rw [List.any_eq_true, Mentions]
  constructor
  · rintro ⟨word, member, has⟩
    obtain ⟨some, outside⟩ := legible word member
    obtain ⟨text, inTexts, within⟩ := (Text.infix_joinWith_iff some outside).1 (Text.has_iff.1 has)
    exact ⟨text, inTexts, word, member, within⟩
  · rintro ⟨text, inTexts, word, member, within⟩
    exact ⟨word, member, Text.has_iff.2 (within.trans (Text.infix_joinWith inTexts))⟩

/-- The framework found in the joined texts is the one that the texts tell. -/
theorem isToldBy_frameworkIn? (legible : ∀ row ∈ signs, ∀ word ∈ row.1, IsSign word)
    (default_ : String) : IsToldBy signs default_ texts
      ((frameworkIn? (Text.joinWith ['\n'] texts) signs).getD default_) := by
  have opened : frameworkIn? (Text.joinWith ['\n'] texts) signs = (signs.find? fun row =>
    row.1.any fun word => (Text.joinWith ['\n'] texts).has (Text.of word)).map (·.2) := rfl
  rw [opened]
  cases first : signs.find? fun row =>
      row.1.any fun word => (Text.joinWith ['\n'] texts).has (Text.of word) with
  | none =>
    refine .inr ⟨rfl, fun row member mentioned => ?_⟩
    exact List.find?_eq_none.1 first row member ((any_has_iff (legible row member)).2 mentioned)
  | some row =>
    obtain ⟨mentioned, before, after, rfl, none⟩ := List.find?_eq_some_iff_append.1 first
    obtain ⟨earlier, here⟩ := List.forall_mem_append.1 legible
    refine .inl ⟨before, row.1, after, rfl, (any_has_iff (here row (.head _))).1 mentioned, ?_⟩
    intro other member mentioned
    have has := (any_has_iff (earlier other member)).2 mentioned
    have lacks := none other member
    rw [has] at lacks
    cases lacks

theorem frameworkIn?_cons (text : Text) (words : List String) (framework : String) :
    frameworkIn? text ((words, framework) :: signs) =
      if words.any fun word => text.has (Text.of word) then some framework
      else frameworkIn? text signs := by
  unfold frameworkIn? firstFramework?
  rw [List.find?_cons]
  split
  · next has => exact (if_pos has).symm
  · next lacks => exact (if_neg (Bool.not_eq_true _ ▸ lacks)).symm

theorem mentions_perm {texts' : List Text} (perm : texts'.Perm texts) {words : List String} :
    Mentions texts' words ↔ Mentions texts words := by
  simp only [Mentions, perm.mem_iff]

theorem frameworkIn?_perm (legible : ∀ row ∈ signs, ∀ word ∈ row.1, IsSign word)
    {texts' : List Text} (perm : texts'.Perm texts) :
    frameworkIn? (Text.joinWith ['\n'] texts') signs =
      frameworkIn? (Text.joinWith ['\n'] texts) signs := by
  induction signs with
  | nil => rfl
  | cons row signs ih =>
    obtain ⟨words, framework⟩ := row
    obtain ⟨here, later⟩ := List.forall_mem_cons.1 legible
    have same : (words.any fun word => (Text.joinWith ['\n'] texts').has (Text.of word)) =
        words.any fun word => (Text.joinWith ['\n'] texts).has (Text.of word) := by
      rw [Bool.eq_iff_iff, any_has_iff here, any_has_iff here, mentions_perm perm]
    rw [frameworkIn?_cons, frameworkIn?_cons, same, ih later]

end

/-- The framework of a sampled language is told by the texts of the sample: it is that of the first
signs that one of them mentions, and no word is found across two of them. The order of the texts
makes no difference, and neither does anything else in the tree. -/
theorem framework_of_sample {x : SampledLanguage} (known : x ∈ SampledLanguage.all) {s : Source}
    {depth : Nat} {limits : SampleLimits} {found : Detection}
    (detected : (detect depth limits).run s = .ok (.ok found))
    (language : found.stack.language = x.name) :
    ∃ l framework, s.files = .ok l ∧ found.stack.framework = some framework ∧
      IsToldBy x.signs x.name (x.texts s l (x.limit limits)) framework ∧
      (∀ row ∈ x.signs, ∀ word ∈ row.1, ∀ before after,
        Text.joinWith ['\n'] (x.texts s l (x.limit limits)) = before ++ (Text.of word ++ after) →
          ∃ pre text post front back, x.texts s l (x.limit limits) = pre ++ text :: post ∧
            text = front ++ (Text.of word ++ back) ∧
            before = pre.flatMap (· ++ ['\n']) ++ front) ∧
      (∀ texts : List Text, texts.Perm (x.texts s l (x.limit limits)) →
        (frameworkIn? (Text.joinWith ['\n'] texts) x.signs).getD x.name = framework) ∧
      ∀ s' depth' found', (detect depth' limits).run s' = .ok (.ok found') →
        found'.stack.language = x.name → s'.files = .ok l →
        (∀ manifest ∈ x.manifests, s'.isPresent manifest = s.isPresent manifest) →
        (∀ path ∈ x.sample s l (x.limit limits), s'.text? path = s.text? path) →
        found'.stack = found.stack := by
  have legible := SampledLanguage.isSign known
  obtain ⟨l, listed, rfl, -⟩ :=
    SampledLanguage.check_outcome (check_of_detect known detected language)
  refine ⟨l, _, listed, rfl, isToldBy_frameworkIn? legible x.name, ?_, ?_, ?_⟩
  · intro row inSigns word inRow before after occurs
    obtain ⟨some, outside⟩ := legible row inSigns word inRow
    exact Text.exists_of_joinWith_eq some outside occurs
  · intro texts perm
    rw [frameworkIn?_perm legible perm]
  · intro s' depth' found' detected' language' listed' sameManifests sameTexts
    obtain ⟨l', listed'', rfl, -⟩ :=
      SampledLanguage.check_outcome (check_of_detect known detected' language')
    obtain rfl : l' = l := Except.ok.inj (listed''.symm.trans listed')
    rw [SampledLanguage.texts_congr sameManifests sameTexts]

/-- A project with a file that is not sampled. -/
def partlySampled : Source :=
  .ofTexts [("app.py", Text.of "import flask"), ("requirements.txt", []),
    ("web.py", Text.of "import django")]

/-- The framework is told by the first file. -/
theorem partlySampled_framework : IsToldBy SampledLanguage.python.signs "python"
    [[], Text.of "import flask"] "flask" := by
  have detected : (detect 10 ⟨1, 0⟩).run partlySampled =
      .ok (.ok ⟨⟨"python", some "flask"⟩, none⟩) := rfl
  obtain ⟨l, framework, listed, same, told, -⟩ := framework_of_sample (.head _) detected rfl
  cases listed
  cases same
  exact told

end Stack

end CodeSurvey
