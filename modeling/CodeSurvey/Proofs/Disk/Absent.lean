import CodeSurvey.Proofs.Disk.LinkFree

/-!
# Below what is not there

Where a location leads nowhere, no location below it leads anywhere, and for the same reason
(`Trail.follow_append_error`). Only a path that is too long to be looked at is told apart.
-/

namespace CodeSurvey

/-! ## Searches -/

namespace Trail

/-- What a walk reaches if more names follow. -/
def Reached.goOn (more : List String) : Reached → Reached
  | goal trail => walk trail more
  | fault why => .fault why
  | link trail target rest => .link trail target (rest ++ more)

theorem walk_append (trail : Trail) (names more : List String) :
    walk trail (names ++ more) = (walk trail names).goOn more := by
  induction names generalizing trail with
  | nil => rw [List.nil_append, walk, Reached.goOn]
  | cons name rest ih =>
    rw [List.cons_append]
    cases trail with
    | nil => simp only [walk, Reached.goOn]
    | cons node above =>
      cases node with
      | file content => simp only [walk, Reached.goOn]
      | link target => simp only [walk, Reached.goOn]
      | folder entries =>
        simp only [walk]
        split
        · exact ih _
        · split
          · exact ih _
          · split
            · rfl
            · cases looked : entries.lookup name with
              | none => rfl
              | some next =>
                cases next with
                | link target => rfl
                | file content => exact ih _
                | folder inner => exact ih _

/-- Where names lead nowhere, more names lead nowhere. -/
theorem follow_append_error {links : Nat} {trail : Trail} {names : List String} {why : Fault}
    (failed : follow links trail names = .error why) (more : List String) :
    follow links trail (names ++ more) = .error why := by
  fun_induction follow links trail names with
  | case1 => cases failed
  | case2 links trail names other fault =>
    cases failed
    rw [follow, walk_append, fault, Reached.goOn]
  | case3 trail names place target rest linked =>
    cases failed
    rw [follow, walk_append, linked, Reached.goOn]
  | case4 trail names place target rest linked links ih =>
    rw [follow, walk_append, linked, Reached.goOn]
    have later := ih failed
    rwa [List.append_assoc] at later

end Trail

namespace Disk

variable {d : Disk} {l : Location} {name : String} {why : Fault}

theorem locate_entry_error (failed : d.locate l = .error why) (full : 1 ≤ byteSize name)
    (free : (l.entry name).fault? = none) : d.locate (l.entry name) = .error why := by
  rw [locate_of_free (Location.fault?_of_entry full free)] at failed
  rw [locate_of_free free]
  change Except.bind (if l.anchor = .here then d.here else .ok [d.top]) _ = _
  cases start : (if l.anchor = .here then d.here else .ok [d.top]) with
  | error other =>
    rw [start] at failed
    exact failed
  | ok trail =>
    rw [start] at failed
    exact Trail.follow_append_error failed [name]

/-- Nothing stands at an entry of a location that leads nowhere. That is left open only where the
path is too long, or already the search for the location met with a name that is. -/
theorem node?_entry_absent (failed : d.locate l = .error why) (named : isEntryName name = true) :
    d.node? (l.entry name) =
      if (l.entry name).fault? = some .nameTooLong ∨ why = .nameTooLong then .error .nameTooLong
      else .ok none := by
  have proper := isEntryName_iff.1 named
  cases bad : nameFault? l.text with
  | some fault =>
    -- a fault of the name is told without the disk, for the location as for its entry
    have here : l.fault? = some (.badName fault) := by rw [Location.fault?, bad]
    obtain ⟨other, below⟩ : ∃ other, (l.entry name).fault? = some (.badName other) := by
      cases inside : nameFault? (l.entry name).text with
      | some other => exact ⟨other, by rw [Location.fault?, inside]⟩
      | none => rw [Location.nameFault?_of_entry inside] at bad; cases bad
    rw [locate, here] at failed
    cases failed
    rw [node?, locate, below]
    simp
  | none =>
    have clean : nameFault? (l.entry name).text = none :=
      Location.nameFault?_below bad (List.forall_mem_singleton.2 proper.faultless)
    by_cases long : maxPathSize < byteSize (l.entry name).text
    · have fault := Location.fault?_eq_nameTooLong_iff.2 ⟨clean, long⟩
      rw [node?, locate, fault]
      simp
    · have free := Location.fault?_eq_none_iff.2 ⟨clean, Nat.not_lt.1 long⟩
      rw [node?, locate_entry_error failed (one_le_byteSize proper.full) free, free]
      cases why <;> simp

end Disk

end CodeSurvey
