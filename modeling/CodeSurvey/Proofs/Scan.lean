import CodeSurvey.Source
import Mathlib.Data.List.Basic

/-!
# Local scans

A scan for records is local if each record depends on the file that it names and on no other: on a
source with fewer files it finds what it found before, less the records of the missing files
(`Scan.IsLocal`). The ways in which scans are built from visits to files keep this. What a local
scan finds lies in listed files (`Scan.IsLocal.mem_files`).
-/

namespace CodeSurvey

/-! ## Stages of a computation -/

theorem Except.exists_of_bind {ε α β : Type} {x : Except ε α} {f : α → Except ε β} {b : β}
    (h : x.bind f = .ok b) : ∃ a, x = .ok a ∧ f a = .ok b := by
  cases x with
  | error why => cases h
  | ok a => exact ⟨a, rfl, h⟩

theorem Except.exists_of_map {ε α β : Type} {x : Except ε α} {f : α → β} {b : β}
    (h : x.map f = .ok b) : ∃ a, x = .ok a ∧ f a = b := by
  cases x with
  | error why => cases h
  | ok a => cases h; exact ⟨a, rfl, rfl⟩

/-! ## Records and their files -/

/-- Records that name the file they were found in. -/
class Filed (ρ : Type) where
  file : ρ → String

/-- Whether all records are from one file. -/
def AllIn {ρ : Type} [Filed ρ] (file : String) (records : List ρ) : Prop :=
  ∀ r ∈ records, Filed.file r = file

/-- The records from files that pass the test. -/
def keptIn {ρ : Type} [Filed ρ] (keep : String → Bool) (records : List ρ) : List ρ :=
  records.filter fun r => keep (Filed.file r)

section
variable {ρ : Type} [Filed ρ] {keep : String → Bool} {file : String} {records : List ρ}

theorem keptIn_append (a b : List ρ) : keptIn keep (a ++ b) = keptIn keep a ++ keptIn keep b :=
  List.filter_append ..

theorem keptIn_map {σ : Type} [Filed σ] (f : ρ → σ) (h : ∀ r, Filed.file (f r) = Filed.file r)
    (records : List ρ) : keptIn keep (records.map f) = (keptIn keep records).map f := by
  rw [keptIn, keptIn, List.filter_map]
  congr 2
  funext r
  exact congrArg keep (h r)

@[simp] theorem allIn_nil : AllIn file ([] : List ρ) := fun _ member => by cases member

@[simp] theorem allIn_singleton {r : ρ} : AllIn file [r] ↔ Filed.file r = file := by simp [AllIn]

@[simp] theorem allIn_append {a b : List ρ} : AllIn file (a ++ b) ↔ AllIn file a ∧ AllIn file b :=
  List.forall_mem_append

@[simp] theorem allIn_map {α : Type} {f : α → ρ} {l : List α} :
    AllIn file (l.map f) ↔ ∀ a ∈ l, Filed.file (f a) = file := List.forall_mem_map

@[simp] theorem allIn_flatMap {α : Type} {f : α → List ρ} {l : List α} :
    AllIn file (l.flatMap f) ↔ ∀ a ∈ l, AllIn file (f a) := by
  simp only [AllIn, List.mem_flatMap]
  exact ⟨fun h a member r found => h r ⟨a, member, found⟩,
    fun h r ⟨a, member, found⟩ => h a member r found⟩

theorem AllIn.keptIn_pos (h : AllIn file records) (kept : keep file = true) :
    keptIn keep records = records :=
  List.filter_eq_self.2 fun r member => by rw [h r member, kept]

theorem AllIn.keptIn_neg (h : AllIn file records) (dropped : keep file = false) :
    keptIn keep records = [] :=
  List.filter_eq_nil_iff.2 fun r member => by rw [h r member, dropped]; simp

end

/-- Whether `s'` is what `s` is on the files that are kept. The listed files are `l`, and the asides
are paths that may be read whether they are listed or not. A file that is not kept may be
unreadable, but reading it does not fail. -/
structure Source.Restricts (keep : String → Bool) (asides l : List String) (s s' : Source) :
    Prop where
  files : s.files = .ok l
  files' : s'.files = .ok (l.filter keep)
  same : ∀ path ∈ l, keep path = true → s'.read path = s.read path
  asides : ∀ path ∈ asides, s'.read path = s.read path
  reads : ∀ path ∈ l, keep path = false → ∃ text, s.read path = .ok text

/-- The source of texts at the paths that are listed with them. -/
def Source.ofTexts (texts : List (String × Text)) : Source where
  files := .ok (texts.map (·.1))
  present path := .ok (texts.any (·.1 == path))
  read path := .ok (texts.lookup path)

namespace Scan

variable {α β ρ : Type} {s s' : Source}

/-! ## Runs -/

theorem run_bind (scan : Scan α) (f : α → Scan β) :
    (scan.bind f).run s = (scan.run s).bind fun a => (f a).run s := by
  induction scan with
  | done a => rfl
  | files next ih =>
    simp only [bind, run, ih]
    cases s.files <;> rfl
  | present path next ih =>
    simp only [bind, run, ih]
    cases s.present path <;> rfl
  | read path next ih =>
    simp only [bind, run, ih]
    cases s.read path <;> rfl

/-- Where the files cannot be listed, a scan fails over this or finds what it would find
otherwise. -/
theorem run_eq_or {why : Fault} (files : s'.files = s.files ∨ s'.files = .error why)
    (present : s'.present = s.present) (read : s'.read = s.read) (scan : Scan α) :
    scan.run s' = scan.run s ∨ scan.run s' = .error why := by
  induction scan with
  | done a => exact .inl rfl
  | files next ih =>
    rcases files with same | unlisted
    · rw [run, run, same]
      cases s.files with
      | error other => exact .inl rfl
      | ok l => exact ih l
    · exact .inr (by rw [run, unlisted]; rfl)
  | present path next ih =>
    rw [run, run, present]
    cases s.present path with
    | error other => exact .inl rfl
    | ok here => exact ih here
  | read path next ih =>
    rw [run, run, read]
    cases s.read path with
    | error other => exact .inl rfl
    | ok text => exact ih text

theorem run_after (scan : Scan α) (g : α → β) :
    (do let a ← scan; return g a : Scan β).run s = (scan.run s).map g := by
  show (scan.bind fun a => done (g a)).run s = _
  rw [run_bind]
  cases scan.run s <;> rfl

theorem run_visitText (visit : String → Text → List ρ) (path : String) :
    (visitText visit path).run s =
      (s.read path).map fun text => (text.map (visit path)).getD [] := by
  show (s.read path).bind _ = _
  cases s.read path with
  | error why => rfl
  | ok text => cases text <;> rfl

theorem run_collect_cons {ι : Type} (visit : ι → Scan (List ρ)) (i : ι) (rest : List ι) :
    (collect visit (i :: rest)).run s =
      ((visit i).run s).bind fun found =>
        ((collect visit rest).run s).map fun later => found ++ later := by
  show ((visit i).bind _).run s = _
  rw [run_bind]
  congr 1
  funext found
  show ((collect visit rest).bind _).run s = _
  rw [run_bind]
  cases (collect visit rest).run s <;> rfl

theorem run_eachFile {l : List String} (listed : s.files = .ok l) (patterns : List String)
    (visit : String → Text → List ρ) :
    (eachFile patterns visit).run s =
      (collect (visitText visit) (findFiles patterns l)).run s := by
  show s.files.bind _ = _
  rw [listed]
  rfl

theorem run_eachText_singleton {path : String} {text : Text}
    (readable : s.read path = .ok (some text)) (visit : String → Text → List ρ) :
    (eachText visit [path]).run s = .ok (visit path text) := by
  rw [eachText, run_collect_cons, run_visitText, readable]
  exact congrArg Except.ok (List.append_nil _)

/-- Where every visit gives something, all of it is collected. -/
theorem run_collect_of_runs {ι : Type} {visit : ι → Scan (List ρ)} {items : List ι}
    {found : ι → List ρ} (runs : ∀ i ∈ items, (visit i).run s = .ok (found i)) :
    (collect visit items).run s = .ok (items.flatMap found) := by
  induction items with
  | nil => rfl
  | cons i items ih =>
    obtain ⟨here, later⟩ := List.forall_mem_cons.1 runs
    rw [run_collect_cons, here, ih later]
    rfl

/-- Where all files can be looked at, a visit to each gives what it gives on the texts. -/
theorem run_eachText_of_reads {paths : List String} {texts : String → Option Text}
    (reads : ∀ path ∈ paths, s.read path = .ok (texts path)) (visit : String → Text → List ρ) :
    (eachText visit paths).run s =
      .ok (paths.flatMap fun path => ((texts path).map (visit path)).getD []) :=
  run_collect_of_runs fun path member => by rw [run_visitText, reads path member]; rfl

/-! ## Choosing files -/

/-- Whether the files are chosen one by one, so that the choice among fewer is the same as far as it
goes. -/
def ChoosesEach (choose : List String → List String) : Prop :=
  ∀ (keep : String → Bool) (l : List String), choose (l.filter keep) = (choose l).filter keep

theorem ChoosesEach.mem {choose : List String → List String} (h : ChoosesEach choose)
    {l : List String} {path : String} (chosen : path ∈ choose l) : path ∈ l := by
  have same := h (fun path => decide (path ∈ l)) l
  rw [List.filter_eq_self.2 (by simp)] at same
  rw [same] at chosen
  simpa using (List.mem_filter.1 chosen).2

theorem eraseDups_filter (keep : String → Bool) (l : List String) :
    (l.filter keep).eraseDups = l.eraseDups.filter keep := by
  match l with
  | [] => simp
  | path :: rest =>
    have later := eraseDups_filter keep (rest.filter fun other => !other == path)
    rw [List.filter_comm] at later
    cases kept : keep path with
    | true =>
      rw [List.filter_cons_of_pos kept, List.eraseDups_cons, List.eraseDups_cons, later,
        List.filter_cons_of_pos kept]
    | false =>
      -- A path that is not kept is gone before its repetitions are looked for.
      have gone : (rest.filter keep).filter (fun other => !other == path) = rest.filter keep := by
        refine List.filter_eq_self.2 fun other member => ?_
        have kept' := (List.mem_filter.1 member).2
        have differs : other ≠ path := fun same => by rw [same, kept] at kept'; cases kept'
        simpa using differs
      rw [gone] at later
      simp [List.eraseDups_cons, kept, later]
termination_by l.length
decreasing_by exact Nat.lt_succ_of_le (List.length_filter_le _ _)

theorem findFiles_choosesEach (patterns : List String) : ChoosesEach (findFiles patterns) := by
  intro keep l
  have select (pattern : String) :
      Glob.select pattern (l.filter keep) = (Glob.select pattern l).filter keep := by
    simp only [Glob.select]
    rw [List.filter_comm]
  simp only [findFiles, select]
  rw [← eraseDups_filter, List.filter_flatMap]

theorem ChoosesEach.filter {choose : List String → List String} (h : ChoosesEach choose)
    (ok : String → Bool) : ChoosesEach fun l => (choose l).filter ok := by
  intro keep l
  show (choose (l.filter keep)).filter ok = _
  rw [h, List.filter_comm]

/-! ## Visits -/

variable [Filed ρ]

/-- Whether a visit to a file looks at this file only and finds records of this file only. It fails
only if the file cannot be looked at. -/
structure IsVisit (visit : String → Scan (List ρ)) : Prop where
  same : ∀ {path s s'}, s'.read path = s.read path → (visit path).run s' = (visit path).run s
  allIn : ∀ {path s records}, (visit path).run s = .ok records → AllIn path records
  succeeds : ∀ {path s text}, s.read path = .ok text → ∃ records, (visit path).run s = .ok records

theorem visitText_isVisit {visit : String → Text → List ρ}
    (h : ∀ path text, AllIn path (visit path text)) : IsVisit (visitText visit) where
  same {path s s'} same := by rw [run_visitText, run_visitText, same]
  allIn {path s records} found := by
    rw [run_visitText] at found
    cases read : s.read path with
    | error why => rw [read] at found; cases found
    | ok text =>
      rw [read] at found
      cases found
      cases text with
      | none => exact fun r member => by cases member
      | some text => exact h path text
  succeeds {path s text} read := by rw [run_visitText, read]; exact ⟨_, rfl⟩

/-! ## Local scans -/

variable {keep : String → Bool} {asides l : List String} {scan : Scan (List ρ)}

/-- Whether a scan finds, where files are missing, what it finds where they are there, less the
records from these files. -/
def IsLocal (asides : List String) (scan : Scan (List ρ)) : Prop :=
  ∀ {keep : String → Bool} {l : List String} {s s' : Source}, s.Restricts keep asides l s' →
    scan.run s' = (scan.run s).map (keptIn keep)

/-- The records that a local scan finds are from listed files. -/
theorem IsLocal.mem_files (h : IsLocal asides scan) (listed : s.files = .ok l) {records : List ρ}
    (found : scan.run s = .ok records) : ∀ r ∈ records, Filed.file r ∈ l := by
  -- The source is what is left of it on the listed files.
  have restricts : s.Restricts (fun path => decide (path ∈ l)) asides l s :=
    ⟨listed, by rw [listed, List.filter_eq_self.2 (by simp)], fun _ _ _ => rfl, fun _ _ => rfl,
      fun path member missing => absurd member (of_decide_eq_false missing)⟩
  have same := h restricts
  rw [found] at same
  have all : records = keptIn (fun path => decide (path ∈ l)) records := Except.ok.inj same
  intro r member
  rw [all] at member
  simpa using (List.mem_filter.1 member).2

/-- A scan of a source on which every look succeeds gives a result. -/
theorem exists_run {scan : Scan α} (files : ∃ l, s.files = .ok l)
    (present : ∀ path, ∃ b, s.present path = .ok b)
    (read : ∀ path, ∃ text, s.read path = .ok text) :
    ∃ a, scan.run s = .ok a := by
  induction scan with
  | done a => exact ⟨a, rfl⟩
  | files next ih =>
    obtain ⟨l, listed⟩ := files
    obtain ⟨a, later⟩ := ih l
    exact ⟨a, by rw [run, listed]; exact later⟩
  | present path next ih =>
    obtain ⟨b, seen⟩ := present path
    obtain ⟨a, later⟩ := ih b
    exact ⟨a, by rw [run, seen]; exact later⟩
  | read path next ih =>
    obtain ⟨text, seen⟩ := read path
    obtain ⟨a, later⟩ := ih text
    exact ⟨a, by rw [run, seen]; exact later⟩

/-- A local scan succeeds if the files that it may read can be looked at. -/
theorem IsLocal.succeeds (h : IsLocal asides scan) (listed : s.files = .ok l)
    (read : ∀ path, path ∈ l ∨ path ∈ asides → ∃ text, s.read path = .ok text) :
    ∃ records, scan.run s = .ok records := by
  -- Nothing depends on what is not listed, so looking there may as well succeed.
  let patched : Source := ⟨.ok l, fun _ => .ok false,
    fun path => if path ∈ l ∨ path ∈ asides then s.read path else .ok none⟩
  have restricts : s.Restricts (fun _ => true) asides l patched :=
    ⟨listed, by simp [patched], fun path member _ => if_pos (.inl member),
      fun path member => if_pos (.inr member), fun _ _ missing => by cases missing⟩
  have total : ∃ records, scan.run patched = .ok records := by
    refine exists_run ⟨l, rfl⟩ (fun _ => ⟨false, rfl⟩) fun path => ?_
    by_cases within : path ∈ l ∨ path ∈ asides
    · obtain ⟨text, seen⟩ := read path within
      exact ⟨text, (if_pos within).trans seen⟩
    · exact ⟨none, if_neg within⟩
  obtain ⟨records, found⟩ := total
  rw [h restricts] at found
  cases run : scan.run s with
  | ok records => exact ⟨records, rfl⟩
  | error why => rw [run] at found; cases found

/-- The induction is on the visited paths; each is kept, and visited again with the same result, or
not, and then its records are not kept either. -/
theorem collect_restricts {visit : String → Scan (List ρ)} (visits : IsVisit visit)
    (h : s.Restricts keep asides l s') {paths : List String} (listed : ∀ path ∈ paths, path ∈ l) :
    (collect visit (paths.filter keep)).run s' =
      ((collect visit paths).run s).map (keptIn keep) := by
  induction paths with
  | nil => rfl
  | cons path rest ih =>
    obtain ⟨member, listed⟩ := List.forall_mem_cons.1 listed
    have later := ih listed
    rw [run_collect_cons visit path rest]
    cases kept : keep path with
    | true =>
      rw [List.filter_cons_of_pos kept, run_collect_cons, visits.same (h.same path member kept),
        later]
      cases found : (visit path).run s with
      | error why => rfl
      | ok records =>
        cases (collect visit rest).run s with
        | error why => rfl
        | ok others =>
          simp [Except.bind, Except.map, keptIn_append, (visits.allIn found).keptIn_pos kept]
    | false =>
      obtain ⟨text, read⟩ := h.reads path member kept
      obtain ⟨records, found⟩ := visits.succeeds read
      rw [List.filter_cons_of_neg (by simp [kept]), later, found]
      cases (collect visit rest).run s with
      | error why => rfl
      | ok others =>
        simp [Except.bind, Except.map, keptIn_append, (visits.allIn found).keptIn_neg kept]

theorem isLocal_visits {choose : List String → List String} {visit : String → Scan (List ρ)}
    (chooses : ChoosesEach choose) (visits : IsVisit visit) :
    IsLocal asides (files fun l => collect visit (choose l)) := by
  intro keep l s s' h
  simp only [run, h.files, h.files']
  show (collect visit (choose (l.filter keep))).run s' = _
  rw [chooses]
  exact collect_restricts visits h fun path chosen => chooses.mem chosen

theorem isLocal_eachFile {patterns : List String} {visit : String → Text → List ρ}
    (h : ∀ path text, AllIn path (visit path text)) : IsLocal asides (eachFile patterns visit) :=
  isLocal_visits (findFiles_choosesEach patterns) (visitText_isVisit h)

/-- One record for each chosen file needs no look at it. -/
theorem isLocal_names {choose : List String → List String} {record : String → ρ}
    (chooses : ChoosesEach choose) (h : ∀ path, Filed.file (record path) = path) :
    IsLocal asides (files fun l => done ((choose l).map record)) := by
  intro keep l s s' restricts
  simp only [run, restricts.files, restricts.files']
  show Except.ok ((choose (l.filter keep)).map record) = .ok (keptIn keep ((choose l).map record))
  rw [chooses, keptIn, List.filter_map]
  congr 3
  funext path
  simp [h]

theorem isLocal_append {a b : Scan (List ρ)} (ha : IsLocal asides a) (hb : IsLocal asides b) :
    IsLocal asides (do let first ← a; let second ← b; return first ++ second) := by
  intro keep l s s' h
  show (a.bind fun first => b.bind fun second => done (first ++ second)).run s' =
    ((a.bind fun first => b.bind fun second => done (first ++ second)).run s).map _
  simp only [run_bind, ha h, hb h]
  cases a.run s with
  | error why => rfl
  | ok first =>
    cases b.run s with
    | error why => rfl
    | ok second => exact congrArg Except.ok (keptIn_append first second).symm

theorem isLocal_collect {ι : Type} {visit : ι → Scan (List ρ)} {items : List ι}
    (h : ∀ i ∈ items, IsLocal asides (visit i)) : IsLocal asides (collect visit items) := by
  induction items with
  | nil => exact fun _ => rfl
  | cons i rest ih =>
    obtain ⟨first, rest⟩ := List.forall_mem_cons.1 h
    exact isLocal_append first (ih rest)

theorem isLocal_after {σ : Type} [Filed σ] {g : List ρ → List σ} (h : IsLocal asides scan)
    (commutes : ∀ keep records, g (keptIn keep records) = keptIn keep (g records)) :
    IsLocal asides (do let records ← scan; return g records) := by
  intro keep l s s' restricts
  show (scan.bind fun records => done (g records)).run s' =
    ((scan.bind fun records => done (g records)).run s).map _
  simp only [run_bind, h restricts]
  cases scan.run s with
  | error why => rfl
  | ok records => exact congrArg Except.ok (commutes keep records)

theorem isLocal_aside {path : String} {next : Option Text → Scan (List ρ)} (aside : path ∈ asides)
    (h : ∀ text, IsLocal asides (next text)) :
    IsLocal asides (do let text ← readText path; next text) := by
  intro keep l s s' restricts
  show (s'.read path).bind _ = ((s.read path).bind _).map _
  rw [restricts.asides path aside]
  cases s.read path with
  | error why => rfl
  | ok text => exact h text restricts

end Scan

/-! ## Where records are found -/

section
variable {ρ : Type} {s : Source} {visit : String → Text → List ρ} {records : List ρ} {r : ρ}

theorem exists_text_of_mem_eachText {paths : List String}
    (found : (Scan.eachText visit paths).run s = .ok records) (member : r ∈ records) :
    ∃ path text, s.read path = .ok (some text) ∧ r ∈ visit path text := by
  induction paths generalizing records with
  | nil =>
    cases found
    cases member
  | cons path paths ih =>
    rw [Scan.eachText, Scan.run_collect_cons] at found
    obtain ⟨here, visited, found⟩ := Except.exists_of_bind found
    obtain ⟨later, others, rfl⟩ := Except.exists_of_map found
    rcases List.mem_append.1 member with inHere | inLater
    · rw [Scan.run_visitText] at visited
      obtain ⟨read, readable, rfl⟩ := Except.exists_of_map visited
      cases read with
      | none => cases inHere
      | some text => exact ⟨path, text, readable, inHere⟩
    · exact ih others inLater

/-- What is found in the texts of files is found in the text of one of them. -/
theorem exists_text_of_mem {choose : Scan (List String)}
    (found : (choose.bind (Scan.eachText visit)).run s = .ok records) (member : r ∈ records) :
    ∃ path text, s.read path = .ok (some text) ∧ r ∈ visit path text := by
  rw [Scan.run_bind] at found
  obtain ⟨paths, -, found⟩ := Except.exists_of_bind found
  exact exists_text_of_mem_eachText found member

end

end CodeSurvey
