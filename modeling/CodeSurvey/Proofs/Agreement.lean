import CodeSurvey.Proofs.Disk.Absent
import CodeSurvey.Proofs.Failures

/-!
# The stack of a survey

A survey finds out the stack of a tree, and the stack can also be asked for alone. Both come to the
same, with the same settings and the same faults (`StacksAgree`), but for two differences
(`stacksAgree_iff`). Where there is no folder a survey does not look for settings or manifests, but
who asks for the stack alone does. This shows only where these looks fail: with nothing at a root
whose path is so long that a path below it is too long (`FailsOverNothing`). And a survey lists the
files of every folder, but who asks for the stack alone lists them only if a check asks for them,
and with another part of the machine's stack in use. This shows where directories stand in each
other too deeply (`FailsOverDepth`).
-/

namespace CodeSurvey

/-! ## Roots without anything -/

namespace Disk

variable {d : Disk} {root : Location} {why : Fault}

theorem node?_absent (nothing : d.locate root = .error why) :
    d.node? root = if why = .nameTooLong then .error .nameTooLong else .ok none := by
  rw [node?, nothing]
  cases why <;> rfl

theorem listing_absent (nothing : d.locate root = .error why) (short : why ≠ .nameTooLong)
    (depth : Nat) (exclude : List String) : d.listing depth root exclude = .ok [] := by
  have walked : d.walk root.lead root (isExcluded exclude) = .ok [] := by
    rw [walk, nothing]
    cases why with
    | nameTooLong => exact absurd rfl short
    | _ => rfl
  exact listing_of_walk [] walked rfl rfl .nil

theorem present_absent (nothing : d.locate root = .error why) {name : String}
    (named : isEntryName name = true) :
    d.present (root.join name) =
      if (root.join name).fault? = some .nameTooLong ∨ why = .nameTooLong then .error .nameTooLong
      else .ok false := by
  rw [root.join_eq_entry named, present, node?_entry_absent nothing named]
  split <;> rfl

end Disk

/-- The manifest that is asked for first, unless the one of Elixir is there. Its name is as long as
any other that tells a language. -/
def Stack.pythonManifest : String := "requirements.txt"

theorem Stack.languageManifests_fit : ∀ name ∈ languageManifests,
    isEntryName name = true ∧ byteSize name ≤ byteSize pythonManifest := by
  decide

namespace Survey

variable {d : Disk} {host : Host} {path : Value} {root : Location} {why : Fault}

/-- Whether the path of a manifest at a root is too long to be asked for. -/
def IsOverlong (root : Location) : Prop :=
  (root.join Stack.pythonManifest).fault? = some .nameTooLong

instance : DecidablePred IsOverlong := fun _ => inferInstanceAs (Decidable (_ = _))

theorem isOverlong_of_join {name : String} (named : isEntryName name = true)
    (short : byteSize name ≤ byteSize Stack.pythonManifest)
    (long : (root.join name).fault? = some .nameTooLong) : IsOverlong root := by
  rw [IsOverlong, root.join_eq_entry (by decide)]
  rw [root.join_eq_entry named] at long
  exact Location.tooLong_mono (by decide) short long

/-- Where nothing is, the stack is unknown, if it can be told at all. -/
theorem stackOf_absent (nothing : d.locate root = .error why) (depth depth' : Nat)
    (limits : SampleLimits) (exclude : List String) :
    stackOf depth' limits (d.source depth root exclude) =
      if IsOverlong root ∨ why = .nameTooLong then .error (.disk .nameTooLong)
      else .ok .unknown := by
  have seen (name : String) (named : isEntryName name = true) :
      (d.source depth root exclude).present name =
        if (root.join name).fault? = some .nameTooLong ∨ why = .nameTooLong
        then .error .nameTooLong else .ok false := by
    rw [Disk.source_present, Disk.present_absent nothing named]
  split
  · next untold =>
    -- the name of the first manifest is shorter, so its path may still fit
    have first : (d.source depth root exclude).present "mix.exs" = .ok false ∨
        (d.source depth root exclude).present "mix.exs" = .error .nameTooLong := by
      rw [seen _ (by decide)]
      split
      · exact .inr rfl
      · exact .inl rfl
    have second : (d.source depth root exclude).present "requirements.txt" =
        .error .nameTooLong := by
      rw [seen _ (by decide)]
      exact if_pos untold
    rw [stackOf, Stack.detect_untold first second]
  · next told =>
    obtain ⟨fits, short⟩ := not_or.1 told
    have listed : (d.source depth root exclude).files = .ok [] := by
      rw [Disk.source_files, Disk.listing_absent nothing short]
    have absent : ∀ name ∈ Stack.languageManifests,
        (d.source depth root exclude).present name = .ok false := by
      intro name member
      obtain ⟨named, size⟩ := Stack.languageManifests_fit name member
      rw [seen name named, if_neg]
      exact not_or.2 ⟨fun long => fits (isOverlong_of_join named size long), short⟩
    rw [stackOf, Stack.detect_eq_unknown listed absent]

/-- The settings for a root without anything are the standard ones, if the root stands for itself
and the path of the file can be asked for. -/
theorem load_absent (nothing : d.locate root = .error why)
    (expanded : root.expand host.homes = .ok root) {fault : Settings.Fault}
    (failed : Settings.load d host root = .error fault) :
    fault = .disk .nameTooLong ∧ (why = .nameTooLong ∨ IsOverlong root) := by
  have named : isEntryName Settings.fileName = true := by decide
  obtain ⟨file, found, seen⟩ : ∃ file, Settings.file host.homes root = .ok file ∧
      (d.node? file = .ok none ∨
        d.node? file = .error .nameTooLong ∧ (why = .nameTooLong ∨ IsOverlong root)) := by
    rw [Settings.file, expanded, Except.map]
    refine ⟨_, rfl, ?_⟩
    split
    · rw [Disk.node?_absent nothing]
      split
      · next long => exact .inr ⟨rfl, .inl long⟩
      · exact .inl rfl
    · rw [root.join_eq_entry named, Disk.node?_entry_absent nothing named]
      split
      · next untold =>
        rw [← root.join_eq_entry named] at untold
        exact .inr ⟨rfl, untold.symm.imp_right (isOverlong_of_join named (by decide))⟩
      · exact .inl rfl
  rw [Settings.load, found] at failed
  simp only [Disk.bytes?] at failed
  rcases seen with absent | ⟨untold, long⟩
  · simp only [absent, Except.map, reduceCtorEq] at failed
  · simp only [untold, Except.map, Except.error.injEq] at failed
    exact ⟨failed.symm, long⟩

/-! ## The stack alone -/

theorem detect_result (d : Disk) (host : Host) (path : Value) (limits : Option SampleLimits) :
    (detect d host path limits).result =
      ((Location.ofValue host.homes path).mapError .root).bind fun root =>
        (settingsAt d host root).result.bind fun settings =>
          stackOf host.depths.package (limits.getD settings.limits)
            (d.source host.depths.detection root settings.exclude) := by
  rw [detect, Report.result_bind]
  congr 1
  funext root
  rw [Report.result_bind]
  congr 1
  funext settings
  rw [Report.result_bind,
    detectIn_result (Snapshot.new_agrees d host.depths.detection root settings.exclude)]
  cases stackOf host.depths.package (limits.getD settings.limits)
    (d.source host.depths.detection root settings.exclude) <;> rfl

/-! ## Agreement -/

/-- The fault as it is seen from outside, where it does not show whether it was met with when the
settings were looked for. -/
def bare : SurveyFault → SurveyFault
  | .settings (.disk why) => .disk why
  | .settings (.root fault) => .root fault
  | fault => fault

/-- Whether the stack that is found out alone is that of the survey, and what keeps one of them from
a stack also keeps the other from it. Once it has a stack, a survey can still fail over the
readme. -/
structure StacksAgree (d : Disk) (host : Host) (path : Value) : Prop where
  stack : ∀ a, (analyze d host path none).result = .ok a →
    (detect d host path none).result = .ok a.stack
  fromDetect : ∀ fault, (detect d host path none).result = .error fault →
    ∃ other, (analyze d host path none).result = .error other ∧ bare other = bare fault
  fromSurvey : ∀ fault, (analyze d host path none).result = .error fault →
    (∃ other, (detect d host path none).result = .error other ∧ bare other = bare fault) ∨
      ∃ root why stack, Location.ofValue host.homes path = .ok root ∧ d.readme root = .error why ∧
        fault = .disk why ∧ (detect d host path none).result = .ok stack

/-- Whether nothing stands at the root that a value names, and to look for its settings or manifests
fails nevertheless, in another way than to look for the root. -/
inductive FailsOverNothing (d : Disk) (host : Host) (path : Value) : Prop where
  | settings {root : Location} {why : Fault} {fault : SurveyFault}
      (named : Location.ofValue host.homes path = .ok root) (nothing : d.locate root = .error why)
      (failed : (settingsAt d host root).result = .error fault)
      (other : why = .nameTooLong → bare fault ≠ .disk .nameTooLong)
  | manifest {root : Location} {why : Fault}
      (named : Location.ofValue host.homes path = .ok root) (nothing : d.locate root = .error why)
      (short : why ≠ .nameTooLong) (long : IsOverlong root)

namespace StacksAgree

theorem of_errors {fault other : SurveyFault}
    (survey : (analyze d host path none).result = .error fault)
    (alone : (detect d host path none).result = .error other) (same : bare fault = bare other) :
    StacksAgree d host path where
  stack a found := by rw [survey] at found; cases found
  fromDetect fault failed := by
    rw [alone] at failed
    cases failed
    exact ⟨_, survey, same⟩
  fromSurvey fault failed := by
    rw [survey] at failed
    cases failed
    exact .inl ⟨_, alone, same.symm⟩

theorem of_stack {a : Analysis} (survey : (analyze d host path none).result = .ok a)
    (alone : (detect d host path none).result = .ok a.stack) : StacksAgree d host path where
  stack b found := by
    rw [survey] at found
    cases found
    exact alone
  fromDetect fault failed := by rw [alone] at failed; cases failed
  fromSurvey fault failed := by rw [survey] at failed; cases failed

theorem of_readme {stack : Stack} (named : Location.ofValue host.homes path = .ok root)
    (unread : d.readme root = .error why)
    (survey : (analyze d host path none).result = .error (.disk why))
    (alone : (detect d host path none).result = .ok stack) : StacksAgree d host path where
  stack a found := by rw [survey] at found; cases found
  fromDetect fault failed := by rw [alone] at failed; cases failed
  fromSurvey fault failed := by
    rw [survey] at failed
    cases failed
    exact .inr ⟨root, why, stack, named, unread, rfl, alone⟩

end StacksAgree

/-! ## Folders -/

/-- The stack fails over depth only where a check comes to ask for the files. -/
theorem stackOf_eq_tooDeep_iff (proper : d.isProper = true) (folder : d.isFolder root = .ok true)
    {depth depth' : Nat} {limits : SampleLimits} {exclude : List String} :
    stackOf depth' limits (d.source depth root exclude) = .error (.disk .tooDeep) ↔
      d.IsTooDeep depth root exclude ∧ Stack.Lists (d.source depth root exclude) := by
  obtain ⟨entries, above, located⟩ := Disk.isFolder_iff.1 folder
  have fails_iff := @Stack.detect_eq_fault_iff _ .tooDeep depth' limits
    (isReadable proper located depth exclude)
  rw [Disk.source_files, Disk.listing_eq_tooDeep_iff located, ← Disk.isTooDeep_iff located]
    at fails_iff
  rw [stackOf_eq_error_iff]
  constructor
  · rintro (⟨why, -, ⟨⟩⟩ | ⟨why, stopped, ⟨⟩⟩)
    rcases fails_iff.1 stopped with untold | ⟨lists, deep⟩
    · obtain ⟨path, asked⟩ := untold.exists_present
      cases (Disk.present_eq_error asked).1
    · exact ⟨deep, lists⟩
  · rintro ⟨deep, lists⟩
    exact .inr ⟨_, fails_iff.2 (.inr ⟨lists, deep⟩), rfl⟩

/-- The bound on the depth matters to the stack in no other way. -/
theorem stackOf_eq_or {depth depth' nesting : Nat} {limits : SampleLimits} {exclude l : List String}
    (listed : d.listing depth root exclude = .ok l) :
    stackOf nesting limits (d.source depth' root exclude) =
        stackOf nesting limits (d.source depth root exclude) ∨
      stackOf nesting limits (d.source depth' root exclude) = .error (.disk .tooDeep) := by
  have files : (d.source depth' root exclude).files = (d.source depth root exclude).files ∨
      (d.source depth' root exclude).files = .error .tooDeep := by
    rw [Disk.source_files, Disk.source_files, listed]
    exact Disk.listing_eq_or listed depth'
  rcases Scan.run_eq_or files rfl rfl (Stack.detect nesting limits) with same | failed
  · exact .inl (by rw [stackOf, stackOf, same])
  · exact .inr (by rw [stackOf, failed])

section
variable {settings : Settings} {nesting : Nat} {limits : SampleLimits} {s : Source}

theorem bare_of_stackOf {fault : SurveyFault} (failed : stackOf nesting limits s = .error fault) :
    bare fault = fault := by
  rcases stackOf_eq_error_iff.1 failed with ⟨why, -, rfl⟩ | ⟨why, -, rfl⟩ <;> rfl

/-- A survey that fails over depth agrees with whoever asks for the stack alone exactly if that one
does so too. -/
theorem stacksAgree_iff_of_deep
    (survey : (analyze d host path none).result = .error (.disk .tooDeep))
    (alone : (detect d host path none).result = stackOf nesting limits s) :
    StacksAgree d host path ↔ stackOf nesting limits s = .error (.disk .tooDeep) := by
  rw [← alone]
  constructor
  · intro agree
    obtain ⟨other, failed, same⟩ | ⟨_, why, stack, -, unread, ⟨⟩, -⟩ := agree.fromSurvey _ survey
    · rw [bare_of_stackOf (alone.symm.trans failed)] at same
      rw [failed, same]
      rfl
    · cases (Disk.readme_eq_error_iff.1 unread).1
  · exact fun failed => .of_errors survey failed rfl

theorem stacksAgree_of_stackOf {stack : Except SurveyFault Stack}
    (named : Location.ofValue host.homes path = .ok root)
    (survey : (analyze d host path none).result = stack.bind fun stack =>
      ((d.readme root).mapError .disk).map (assembled d host.depths root settings stack))
    (alone : (detect d host path none).result = stack) : StacksAgree d host path := by
  cases stack with
  | error fault => exact .of_errors survey alone rfl
  | ok stack =>
    cases text : d.readme root with
    | error why =>
      rw [text] at survey
      exact .of_readme named text survey alone
    | ok readme =>
      rw [text] at survey
      exact .of_stack survey alone

/-- Once the files are listed, only the stack could still make a survey fail over depth. -/
theorem bare_ne_tooDeep {other : SurveyFault}
    (told : stackOf nesting limits s ≠ .error (.disk .tooDeep))
    (failed : (stackOf nesting limits s).bind (fun stack =>
      ((d.readme root).mapError .disk).map (assembled d host.depths root settings stack)) =
        .error other) : bare other ≠ .disk .tooDeep := by
  cases found : stackOf nesting limits s with
  | error fault =>
    rw [found] at failed told
    cases failed
    rw [bare_of_stackOf found]
    exact fun same => told (congrArg _ same)
  | ok stack =>
    rw [found] at failed
    cases text : d.readme root with
    | error why =>
      rw [text] at failed
      cases failed
      obtain ⟨rfl, -⟩ := Disk.readme_eq_error_iff.1 text
      exact nofun
    | ok readme =>
      rw [text] at failed
      cases failed

/-- In a folder whose settings hold both come to the same exactly if both or neither fail over the
depth of its directories. -/
theorem stacksAgree_iff_of_hold (proper : d.isProper = true)
    (named : Location.ofValue host.homes path = .ok root) (folder : d.isFolder root = .ok true)
    (hold : Settings.Hold d host root settings) :
    StacksAgree d host path ↔ (d.IsTooDeep host.depths.listing root settings.exclude ↔
      d.IsTooDeep host.depths.detection root settings.exclude ∧
        Stack.Lists (d.source host.depths.detection root settings.exclude)) := by
  have survey := analyze_of_hold named folder hold
  have alone : (detect d host path none).result = stackOf host.depths.package settings.limits
      (d.source host.depths.detection root settings.exclude) := by
    rw [detect_result, named, Except.mapError, Except.bind, Settings.settingsAt_eq_ok_iff.2 hold]
    rfl
  have deep_iff (depth : Nat) := @stackOf_eq_tooDeep_iff _ _ proper folder depth
    host.depths.package settings.limits settings.exclude
  obtain ⟨entries, above, located⟩ := Disk.isFolder_iff.1 folder
  rw [← deep_iff, Disk.isTooDeep_iff located]
  obtain ⟨failed, deep⟩ | ⟨⟨l, listed⟩, shallow⟩ :=
    Disk.listing_outcome located host.depths.listing settings.exclude
  · rw [failed] at survey
    exact (stacksAgree_iff_of_deep survey alone).trans (iff_true_left deep).symm
  · rw [listed, Except.mapError, Except.bind] at survey
    rw [iff_false_left shallow]
    have told : stackOf host.depths.package settings.limits
        (d.source host.depths.listing root settings.exclude) ≠ .error (.disk .tooDeep) :=
      fun failed => shallow ((Disk.isTooDeep_iff located).1 ((deep_iff _).1 failed).1)
    constructor
    · intro agree failed
      obtain ⟨other, found, same⟩ := agree.fromDetect _ (alone.trans failed)
      exact bare_ne_tooDeep told (survey.symm.trans found) same
    · intro told
      have same := (stackOf_eq_or listed).resolve_right told
      exact stacksAgree_of_stackOf named survey (alone.trans same)

end

/-- Whether in a folder whose settings hold the directories stand in each other too deeply for the
survey alone, which always lists the files, or for the search for the stack alone. -/
inductive FailsOverDepth (d : Disk) (host : Host) (path : Value) : Prop where
  | survey {root : Location} {settings : Settings}
      (named : Location.ofValue host.homes path = .ok root)
      (hold : Settings.Hold d host root settings)
      (deep : d.IsTooDeep host.depths.listing root settings.exclude)
      (free : ¬ (d.IsTooDeep host.depths.detection root settings.exclude ∧
        Stack.Lists (d.source host.depths.detection root settings.exclude)))
  | search {root : Location} {settings : Settings}
      (named : Location.ofValue host.homes path = .ok root)
      (hold : Settings.Hold d host root settings)
      (free : ¬ d.IsTooDeep host.depths.listing root settings.exclude)
      (deep : d.IsTooDeep host.depths.detection root settings.exclude)
      (lists : Stack.Lists (d.source host.depths.detection root settings.exclude))

theorem failsOverDepth_iff_of_hold {settings : Settings}
    (named : Location.ofValue host.homes path = .ok root)
    (hold : Settings.Hold d host root settings) :
    FailsOverDepth d host path ↔ ¬ (d.IsTooDeep host.depths.listing root settings.exclude ↔
      d.IsTooDeep host.depths.detection root settings.exclude ∧
        Stack.Lists (d.source host.depths.detection root settings.exclude)) := by
  constructor
  · intro fails
    cases fails with
    | survey named' hold' deep free =>
      rw [named] at named'
      cases named'
      obtain rfl := hold.unique hold'
      exact fun same => free (same.1 deep)
    | search named' hold' free deep lists =>
      rw [named] at named'
      cases named'
      obtain rfl := hold.unique hold'
      exact fun same => free (same.2 ⟨deep, lists⟩)
  · intro differ
    by_cases deep : d.IsTooDeep host.depths.listing root settings.exclude
    · exact .survey named hold deep fun both => differ (iff_of_true deep both)
    · obtain ⟨deep', lists⟩ := not_not.1 fun both => differ (iff_of_false deep both)
      exact .search named hold deep deep' lists

theorem stacksAgree_folder_iff (proper : d.isProper = true)
    (named : Location.ofValue host.homes path = .ok root) (folder : d.isFolder root = .ok true) :
    StacksAgree d host path ↔ ¬ FailsOverDepth d host path := by
  cases settled : (settingsAt d host root).result with
  | error fault =>
    have survey := analyze_folder named folder none
    have alone := detect_result d host path none
    rw [named, Except.mapError, Except.bind, settled] at alone
    rw [Option.elim_none, settled] at survey
    refine iff_of_true (.of_errors survey alone rfl) fun fails => ?_
    have unsettled {settings : Settings} (hold : Settings.Hold d host root settings) : False := by
      rw [Settings.settingsAt_eq_ok_iff.2 hold] at settled
      cases settled
    cases fails with
    | survey named' hold _ _ =>
      rw [named] at named'
      cases named'
      exact unsettled hold
    | search named' hold _ _ _ =>
      rw [named] at named'
      cases named'
      exact unsettled hold
  | ok settings =>
    have hold := Settings.settingsAt_eq_ok_iff.1 settled
    rw [stacksAgree_iff_of_hold proper named folder hold, failsOverDepth_iff_of_hold named hold,
      not_not]

/-! ## Where nothing is -/

theorem analyze_absent (named : Location.ofValue host.homes path = .ok root)
    (nothing : d.locate root = .error why) (settings : Option Settings) :
    (analyze d host path settings).result =
      if why = .nameTooLong then .error (.disk .nameTooLong)
      else .ok (.empty root.text .unknown) := by
  have seen : d.isFolder root =
      if why = .nameTooLong then .error .nameTooLong else .ok false := by
    rw [Disk.isFolder, Disk.node?_absent nothing]
    split <;> rfl
  rw [analyze_result, named, Except.mapError, Except.bind, seen]
  split <;> rfl

theorem detect_absent (named : Location.ofValue host.homes path = .ok root)
    (nothing : d.locate root = .error why) (limits : Option SampleLimits) :
    (detect d host path limits).result = (settingsAt d host root).result.bind fun _ =>
      if IsOverlong root ∨ why = .nameTooLong then .error (.disk .nameTooLong)
      else .ok .unknown := by
  rw [detect_result, named]
  simp only [Except.mapError, Except.bind, stackOf_absent nothing]

/-- Who looks for the stack alone fails where a survey does not. -/
theorem FailsOverNothing.not_agree (fails : FailsOverNothing d host path) :
    ¬ StacksAgree d host path := by
  intro agree
  cases fails with
  | settings named nothing failed other =>
    have alone := detect_absent named nothing none
    rw [failed] at alone
    obtain ⟨fault, survey, same⟩ := agree.fromDetect _ alone
    rw [analyze_absent named nothing] at survey
    split at survey
    · next long =>
      cases survey
      exact other long same.symm
    · cases survey
  | manifest named nothing short long =>
    have alone := detect_absent named nothing none
    have survey := analyze_absent named nothing none
    rw [if_neg short] at survey
    rw [agree.stack _ survey] at alone
    cases settled : (settingsAt d host _).result with
    | error fault => rw [settled] at alone; cases alone
    | ok settings =>
      rw [settled, Except.bind, if_pos (.inl long)] at alone
      cases alone

theorem stacksAgree_absent (named : Location.ofValue host.homes path = .ok root)
    (nothing : d.locate root = .error why) (free : ¬ FailsOverNothing d host path) :
    StacksAgree d host path := by
  have survey := analyze_absent named nothing none
  have alone := detect_absent named nothing none
  cases settled : (settingsAt d host root).result with
  | error fault =>
    rw [settled] at alone
    have other : ¬ (why = .nameTooLong → bare fault ≠ .disk .nameTooLong) :=
      fun other => free (.settings named nothing settled other)
    obtain ⟨long, same⟩ := Classical.not_imp.1 other
    rw [if_pos long] at survey
    exact .of_errors survey alone (not_not.1 same).symm
  | ok settings =>
    rw [settled, Except.bind] at alone
    by_cases long : why = .nameTooLong
    · rw [if_pos long] at survey
      rw [if_pos (.inr long)] at alone
      exact .of_errors survey alone rfl
    · have fits : ¬ IsOverlong root := fun overlong => free (.manifest named nothing long overlong)
      rw [if_neg long] at survey
      rw [if_neg (not_or.2 ⟨fits, long⟩)] at alone
      exact .of_stack survey alone

/-- Where no home directory is put in for the root, its settings are looked for below it, and only
the length of the path counts. -/
theorem failsOverNothing_iff (named : Location.ofValue host.homes path = .ok root)
    (expanded : root.expand host.homes = .ok root) :
    FailsOverNothing d host path ↔
      ∃ why, d.locate root = .error why ∧ why ≠ .nameTooLong ∧ IsOverlong root := by
  constructor
  · intro fails
    cases fails with
    | settings named' nothing failed other =>
      rw [named] at named'
      cases named'
      obtain ⟨fault, unread, rfl⟩ := settingsAt_eq_error_iff.1 failed
      obtain ⟨rfl, untold⟩ := load_absent nothing expanded unread.load_eq_error
      have short := fun long => other long rfl
      exact ⟨_, nothing, short, untold.resolve_left short⟩
    | manifest named' nothing short long =>
      rw [named] at named'
      cases named'
      exact ⟨_, nothing, short, long⟩
  · rintro ⟨why, nothing, short, long⟩
    exact .manifest named nothing short long

theorem FailsOverNothing.exists_absent (fails : FailsOverNothing d host path) :
    ∃ root why, Location.ofValue host.homes path = .ok root ∧ d.locate root = .error why := by
  cases fails with
  | settings named nothing _ _ => exact ⟨_, _, named, nothing⟩
  | manifest named nothing _ _ => exact ⟨_, _, named, nothing⟩

theorem FailsOverDepth.exists_located (fails : FailsOverDepth d host path) :
    ∃ root trail, Location.ofValue host.homes path = .ok root ∧ d.locate root = .ok trail := by
  cases fails with
  | survey named _ deep _ =>
    obtain ⟨entries, above, located, -⟩ := deep
    exact ⟨_, _, named, located⟩
  | search named _ _ deep _ =>
    obtain ⟨entries, above, located, -⟩ := deep
    exact ⟨_, _, named, located⟩

/-- The stack that is found out alone is that of the survey, with the same faults, unless nothing is
there and to look below it fails, or the directories there stand in each other too deeply for one of
both. Where the root stands for itself nothing is at fault exactly if its path leaves no room for
that of a manifest. -/
theorem stacksAgree_iff (proper : d.isProper = true)
    (place : ∀ root, Location.ofValue host.homes path = .ok root →
      d.isFolder root = .ok true ∨ ∃ why, d.locate root = .error why) :
    (StacksAgree d host path ↔ ¬ FailsOverNothing d host path ∧ ¬ FailsOverDepth d host path) ∧
    ∀ root, Location.ofValue host.homes path = .ok root → root.expand host.homes = .ok root →
      (FailsOverNothing d host path ↔
        ∃ why, d.locate root = .error why ∧ why ≠ .nameTooLong ∧ IsOverlong root) := by
  refine ⟨?_, fun root named expanded => failsOverNothing_iff named expanded⟩
  cases named : Location.ofValue host.homes path with
  | error fault =>
    have survey := analyze_result d host path none
    have alone := detect_result d host path none
    rw [named] at survey alone
    refine iff_of_true (.of_errors survey alone rfl) ⟨fun fails => ?_, fun fails => ?_⟩
    · obtain ⟨root, why, named', -⟩ := fails.exists_absent
      rw [named] at named'
      cases named'
    · obtain ⟨root, trail, named', -⟩ := fails.exists_located
      rw [named] at named'
      cases named'
  | ok root =>
    rcases place root named with folder | ⟨why, nothing⟩
    · have free : ¬ FailsOverNothing d host path := by
        intro fails
        obtain ⟨_, why, named', nothing⟩ := fails.exists_absent
        obtain ⟨entries, above, located⟩ := Disk.isFolder_iff.1 folder
        rw [named] at named'
        cases named'
        rw [located] at nothing
        cases nothing
      rw [stacksAgree_folder_iff proper named folder, and_iff_right free]
    · have free : ¬ FailsOverDepth d host path := by
        intro fails
        obtain ⟨_, trail, named', located⟩ := fails.exists_located
        rw [named] at named'
        cases named'
        rw [nothing] at located
        cases located
      rw [and_iff_left free]
      exact ⟨fun agree fails => fails.not_agree agree, stacksAgree_absent named nothing⟩

/-- A project whose settings leave out the file that tells its stack. -/
def narrowed : Disk :=
  ⟨.folder [("repo", .folder [
    (".codeingest.yml", .file "exclude_paths: [app.csproj]".toUTF8.toList),
    ("app.csproj", .file [])])], []⟩

theorem narrowed_located : narrowed.locate (Location.read "/repo") = .ok
    [.folder [(".codeingest.yml", .file "exclude_paths: [app.csproj]".toUTF8.toList),
      ("app.csproj", .file [])], narrowed.top] := rfl

/-- No directories stand in it. -/
theorem narrowed_shallow (depth : Nat) (exclude : List String) :
    ¬ narrowed.IsTooDeep depth (Location.read "/repo") exclude := by
  rw [Disk.isTooDeep_iff narrowed_located, ← Disk.anyDeeper_iff narrowed_located]
  simp only [walkEntries, walkEntry]
  cases isExcluded exclude ".codeingest.yml" <;> cases isExcluded exclude "app.csproj" <;>
    simp [Found.anyDeeper, Found.isDirectory]

/-- Both leave it out. -/
theorem narrowed_agrees : narrowed.isFolder (Location.read "/repo") = .ok true ∧
    StacksAgree narrowed plainHost (.str "/repo") := by
  have folder : narrowed.isFolder (Location.read "/repo") = .ok true := rfl
  obtain ⟨agree, short⟩ := @stacksAgree_iff narrowed plainHost (.str "/repo") (by decide)
    fun root named => .inl (by cases named; exact folder)
  refine ⟨folder, agree.2 ⟨fun fails => ?_, fun fails => ?_⟩⟩
  · obtain ⟨why, nothing, -⟩ := (short (Location.read "/repo") rfl rfl).1 fails
    cases nothing
  · cases fails with
    | survey named _ deep _ =>
      cases named
      exact narrowed_shallow _ _ deep
    | search named _ _ deep _ =>
      cases named
      exact narrowed_shallow _ _ deep

/-! ## A path without room -/

/-- A disk with nothing on it. -/
def vacant : Disk := ⟨.folder [], []⟩

/-- The location of a chain of equal names. -/
def chain (n : Nat) : Location := ⟨.here, List.replicate n "x"⟩

theorem chain_isEntryName (n : Nat) : ∀ name ∈ (chain n).names, isEntryName name = true := by
  intro name member
  rw [List.eq_of_mem_replicate member]
  decide

theorem chain_text (n : Nat) : (chain (n + 1)).text = "/".intercalate (chain (n + 1)).names := rfl

theorem byteSize_chain (n : Nat) : byteSize (chain (n + 1)).text = 2 * n + 1 := by
  have parts : byteSize "x" = 1 ∧ byteSize "/" = 1 := by decide
  induction n with
  | zero => exact parts.1
  | succ n ih =>
    rw [chain_text] at ih ⊢
    simp only [chain] at ih ⊢
    rw [List.replicate_succ', intercalate_concat (by simp), byteSize_append, byteSize_append, ih]
    omega

theorem chain_clean (n : Nat) : nameFault? (chain n).text = none := by
  have named := fun name member => (isEntryName_iff.1 (chain_isEntryName n name member)).faultless
  exact @Location.nameFault?_below ⟨.here, []⟩ _ (by decide) named

theorem chain_named (n : Nat) :
    Location.ofValue plainHost.homes (.str (chain (n + 1)).text) = .ok (chain (n + 1)) := by
  have read := Location.read_intercalate (chain_isEntryName (n + 1)) (by simp [chain])
  have visible : Text.isBlankText (chain (n + 1)).text.toList = false := by
    have seen : 'x' ∈ (chain (n + 1)).text.toList :=
      Location.mem_text_of_mem (List.mem_replicate.2 ⟨by omega, rfl⟩) (by decide)
    exact List.all_eq_false.2 ⟨'x', seen, by decide⟩
  rw [Location.ofValue, visible, chain_text, read]
  rfl

theorem chain_vacant {n : Nat} (fits : 2 * n + 1 ≤ maxPathSize) :
    vacant.locate (chain (n + 1)) = .error .absent := by
  have free : (chain (n + 1)).fault? = none :=
    Location.fault?_eq_none_iff.2 ⟨chain_clean (n + 1), by rwa [byteSize_chain]⟩
  rw [Disk.locate_of_free free]
  show Trail.follow _ [vacant.top] ("x" :: List.replicate n "x") = _
  rw [vacant, Trail.follow_cons]
  rfl

theorem chain_file (n : Nat) : Settings.file plainHost.homes (chain (n + 1)) =
    .ok ((chain (n + 1)).entry Settings.fileName) := by
  have expanded : (chain (n + 1)).expand plainHost.homes = .ok (chain (n + 1)) := rfl
  have name : (chain (n + 1)).name = "x" := by simp [Location.name, chain, List.getLast?_replicate]
  rw [Settings.file, expanded, Except.map, name, if_neg (by decide),
    Location.join_eq_entry _ (by decide)]

theorem chain_unread {n : Nat} (long : maxPathSize < 2 * n + 15) :
    Settings.Unread vacant plainHost (chain (n + 1)) (.disk .nameTooLong) := by
  have clean : nameFault? ((chain (n + 1)).entry Settings.fileName).text = none :=
    Location.nameFault?_below (chain_clean (n + 1)) (List.forall_mem_singleton.2 (by decide))
  have size : maxPathSize < byteSize ((chain (n + 1)).entry Settings.fileName).text := by
    obtain ⟨size, entries, whole⟩ := (chain (n + 1)).exists_size
    have names : byteSize Settings.fileName = 15 := by decide
    rw [byteSize_chain] at whole
    rw [entries, names]
    omega
  have untold : vacant.node? ((chain (n + 1)).entry Settings.fileName) = .error .nameTooLong := by
    rw [Disk.node?, Disk.locate, Location.fault?_eq_nameTooLong_iff.2 ⟨clean, size⟩]
  exact .nameTooLong (chain_file n) untold

/-- At a path of 4089 bytes at which nothing stands a survey gives the stack as unknown, and who
asks for the stack alone gets a fault: the path of the settings file is too long. -/
theorem detect_fails_over_nothing :
    Location.ofValue plainHost.homes (.str (chain 2045).text) = .ok (chain 2045) ∧
    vacant.locate (chain 2045) = .error .absent ∧
    (∃ a, (analyze vacant plainHost (.str (chain 2045).text) none).result = .ok a ∧
      a.stack = .unknown) ∧
    (detect vacant plainHost (.str (chain 2045).text) none).result =
      .error (.settings (.disk .nameTooLong)) := by
  have named := chain_named 2044
  have nothing : vacant.locate (chain 2045) = .error .absent := chain_vacant (by decide)
  have unread : (settingsAt vacant plainHost (chain 2045)).result =
      .error (.settings (.disk .nameTooLong)) :=
    settingsAt_eq_error_iff.2 ⟨_, chain_unread (by decide), rfl⟩
  refine ⟨named, nothing, ⟨_, analyze_absent named nothing none, rfl⟩, ?_⟩
  rw [detect_absent named nothing none, unread]
  rfl

end Survey

end CodeSurvey
