import CodeSurvey.Proofs.Disk.Proper

/-!
# Ways and trails

A place on a disk is found along nodes (`Trail.follow`, which looks) or along names (`Node.wayFrom`,
which changes are made with). `Node.trailAt` is the trail that belongs to a path; with it the two
agree (`Node.follow_eq_wayFrom`), so that what stands at a location is what stands at the path of
its way (`Disk.locate_eq_wayTo`). `Node.Passes` says step by step how names lead to a folder.
-/

namespace CodeSurvey

/-! ## Single steps -/

theorem Trail.follow_nil (links : Nat) (trail : Trail) : follow links trail [] = .ok trail := by
  rw [follow, walk]

theorem Trail.follow_cons (links : Nat) (entries : List (String × Node)) (above : Trail)
    (name : String) (rest : List String) :
    follow links (.folder entries :: above) (name :: rest) =
      if name = "." then follow links (.folder entries :: above) rest
      else if name = ".." then
        follow links (if above.isEmpty then .folder entries :: above else above) rest
      else if maxNameSize < byteSize name then .error .nameTooLong
      else
        match entries.lookup name, links with
        | none, _ => .error .absent
        | some (.link _), 0 => .error .tooManyLinks
        | some (.link target), links + 1 =>
          follow links (origin (.folder entries :: above) (Location.read target).anchor)
            (namesTo target ++ rest)
        | some next, links => follow links (next :: .folder entries :: above) rest := by
  rw [follow, walk]
  by_cases dot : name = "."
  · rw [if_pos dot, if_pos dot, follow]
  · rw [if_neg dot, if_neg dot]
    by_cases dots : name = ".."
    · rw [if_pos dots, if_pos dots, follow]
    · rw [if_neg dots, if_neg dots]
      by_cases long : maxNameSize < byteSize name
      · rw [if_pos long, if_pos long]
      · rw [if_neg long, if_neg long]
        cases entries.lookup name with
        | none => rfl
        | some next =>
          cases next with
          | link target => cases links <;> rfl
          | file content => simp only; rw [follow]
          | folder inner => simp only; rw [follow]

theorem Trail.follow_notFolder {node : Node} (h : ∀ entries, node ≠ .folder entries) (links : Nat)
    (above : Trail) (name : String) (rest : List String) :
    follow links (node :: above) (name :: rest) = .error .notFolder := by
  rw [follow]
  cases node with
  | folder entries => exact absurd rfl (h entries)
  | file content => rfl
  | link target => rfl

namespace Node

theorem wayFrom_cons {top : Node} {here : List String} {entries : List (String × Node)}
    (placed : top.at? here.reverse = some (folder entries)) (links : Nat) (name : String)
    (rest : List String) :
    top.wayFrom links here (name :: rest) =
      if name = "." then top.wayFrom links here rest
      else if name = ".." then top.wayFrom links here.tail rest
      else if maxNameSize < byteSize name then .error .nameTooLong
      else
        match entries.lookup name, links with
        | none, _ => if rest.isEmpty then .ok (name :: here).reverse else .error .absent
        | some (link _), 0 => .error .tooManyLinks
        | some (link target), links + 1 =>
          top.wayFrom links (if (Location.read target).anchor = .here then here else [])
            (Trail.namesTo target ++ rest)
        | some _, links => top.wayFrom links (name :: here) rest := by
  have unfolded := wayFrom.eq_2 top links here name rest
  rw [placed] at unfolded
  exact unfolded

theorem wayFrom_notFolder {top node : Node} {here : List String}
    (placed : top.at? here.reverse = some node) (h : ∀ entries, node ≠ folder entries)
    (links : Nat) (name : String) (rest : List String) :
    top.wayFrom links here (name :: rest) = .error .notFolder := by
  rw [wayFrom, placed]
  cases node with
  | folder entries => exact absurd rfl (h entries)
  | file content => rfl
  | link target => rfl

theorem wayFrom_absent {top : Node} {here : List String} (absent : top.at? here.reverse = none)
    (links : Nat) (name : String) (rest : List String) :
    top.wayFrom links here (name :: rest) = .error .absent := by
  rw [wayFrom, absent]

/-! ## The trail of a path -/

/-- The trail to the place that the names lead to from the top through folders only; the last name
stands first. -/
def trailAt (top : Node) : (here : List String) → Option Trail
  | [] => some [top]
  | name :: here =>
    match trailAt top here with
    | some (folder entries :: above) =>
      (entries.lookup name).map fun node => node :: folder entries :: above
    | _ => none

/-- The trail of a path from the top. -/
def trailTo (top : Node) (way : List String) : Except Fault Trail :=
  match top.trailAt way.reverse with
  | some trail => .ok trail
  | none => .error .absent

theorem at?_append (p q : List String) (node : Node) :
    node.at? (p ++ q) = (node.at? p).bind (at? q) := by
  induction p generalizing node with
  | nil => rfl
  | cons name p ih =>
    cases node with
    | folder entries =>
      simp only [List.cons_append, at?]
      cases entries.lookup name with
      | none => rfl
      | some next => exact ih next
    | file content => rfl
    | link target => rfl

theorem at?_snoc {top : Node} {path : List String} {entries : List (String × Node)}
    (placed : top.at? path = some (folder entries)) (name : String) :
    top.at? (path ++ [name]) = entries.lookup name := by
  rw [at?_append, placed]
  simp only [Option.bind_some, at?]
  cases entries.lookup name <;> rfl

theorem at?_reverse (top : Node) (here : List String) :
    top.at? here.reverse = (top.trailAt here).bind List.head? := by
  induction here with
  | nil => rfl
  | cons name here ih =>
    rw [List.reverse_cons, at?_append, ih, trailAt]
    cases top.trailAt here with
    | none => rfl
    | some trail =>
      match trail with
      | [] => rfl
      | folder entries :: above =>
        simp only [Option.bind_some, List.head?_cons, at?]
        cases entries.lookup name <;> rfl
      | file content :: above => rfl
      | link target :: above => rfl

theorem trailAt_eq_cons {top : Node} {here : List String} {trail : Trail}
    (h : top.trailAt here = some trail) :
    ∃ node above, trail = node :: above ∧ top.at? here.reverse = some node := by
  rw [at?_reverse, h]
  cases here with
  | nil => cases h; exact ⟨top, [], rfl, rfl⟩
  | cons name here =>
    rw [trailAt] at h
    split at h
    · obtain ⟨next, _, rfl⟩ := Option.map_eq_some_iff.1 h
      exact ⟨next, _, rfl, rfl⟩
    · cases h

theorem trailAt_tail {top node : Node} {here : List String} {above : Trail}
    (h : top.trailAt here = some (node :: above)) :
    top.trailAt here.tail = some (if above.isEmpty then node :: above else above) := by
  cases here with
  | nil => cases h; rfl
  | cons name here =>
    rw [trailAt] at h
    split at h
    · next entries above' e =>
      obtain ⟨next, _, e'⟩ := Option.map_eq_some_iff.1 h
      cases e'
      exact e
    · cases h

theorem trailAt_origin {top : Node} {here : List String} {trail : Trail}
    (h : top.trailAt here = some trail) (anchor : Anchor) :
    top.trailAt (if anchor = .here then here else []) = some (trail.origin anchor) := by
  have last : trail.getLast?.toList = [top] := by
    induction here generalizing trail with
    | nil => cases h; rfl
    | cons name here ih =>
      rw [trailAt] at h
      split at h
      · next entries above e =>
        obtain ⟨next, _, rfl⟩ := Option.map_eq_some_iff.1 h
        rw [List.getLast?_cons_cons]
        exact ih e
      · cases h
  cases anchor with
  | here => exact h
  | top => simp only [Trail.origin, last]; rfl
  | twoSlashes => simp only [Trail.origin, last]; rfl

/-! ## Agreement -/

/-- Following names along nodes ends on the trail of the path that following them along names gives.
The outer induction is on the links that may still be followed, the inner one on the names. -/
theorem follow_eq_wayFrom (top : Node) (links : Nat) {here names : List String} {trail : Trail}
    (placed : top.trailAt here = some trail) :
    Trail.follow links trail names = (top.wayFrom links here names).bind top.trailTo := by
  induction links using Nat.strongRecOn generalizing here names trail with
  | ind links ihl =>
    induction names generalizing here trail with
    | nil =>
      rw [Trail.follow_nil, wayFrom]
      simp only [Except.bind, trailTo, List.reverse_reverse, placed]
    | cons name rest ih =>
      obtain ⟨node, above, rfl, reached⟩ := trailAt_eq_cons placed
      cases node with
      | file content =>
        rw [Trail.follow_notFolder (by simp), wayFrom_notFolder reached (by simp)]; rfl
      | link target =>
        rw [Trail.follow_notFolder (by simp), wayFrom_notFolder reached (by simp)]; rfl
      | folder entries =>
        have next : top.trailAt (name :: here) =
            (entries.lookup name).map fun node => node :: folder entries :: above := by
          rw [trailAt, placed]
        rw [Trail.follow_cons, wayFrom_cons reached]
        split
        · exact ih placed
        · split
          · exact ih (trailAt_tail placed)
          · split
            · rfl
            · cases e : entries.lookup name with
              | none =>
                rw [e, Option.map_none] at next
                cases rest with
                | nil => simp [Except.bind, trailTo, next]
                | cons => rfl
              | some node =>
                rw [e, Option.map_some] at next
                cases node with
                | file content => exact ih next
                | folder inner => exact ih next
                | link target =>
                  cases links with
                  | zero => rfl
                  | succ links => exact ihl links (Nat.lt_succ_self _) (trailAt_origin placed _)

theorem at?_cons_eq_folder {entries : List (String × Node)} {name : String} {path : List String}
    {node : Node} (h : node.at? (name :: path) = some (folder entries)) :
    ∃ outer inner, node = folder outer ∧ outer.lookup name = some (folder inner) ∧
      (folder inner).at? path = some (folder entries) := by
  cases node with
  | file content => cases h
  | link target => cases h
  | folder outer =>
    obtain ⟨next, looked, h⟩ := Option.bind_eq_some_iff.1 h
    cases next with
    | folder inner => exact ⟨outer, inner, rfl, looked, h⟩
    | file content => cases path <;> cases h
    | link target => cases path <;> cases h

/-- Names that lead from folder to folder are passed without following a link. -/
theorem wayFrom_folders {top : Node} (proper : top.isProper = true) (links : Nat)
    {here names : List String} {entries : List (String × Node)}
    (placed : top.at? (here.reverse ++ names) = some (folder entries)) (rest : List String) :
    top.wayFrom links here (names ++ rest) = top.wayFrom links (names.reverse ++ here) rest := by
  induction names generalizing here with
  | nil => rfl
  | cons name names ih =>
    have step := placed
    rw [at?_append] at step
    obtain ⟨node, reached, step⟩ := Option.bind_eq_some_iff.1 step
    obtain ⟨outer, inner, rfl, looked, -⟩ := at?_cons_eq_folder step
    obtain ⟨-, dot, dots, -, -, short⟩ :=
      isEntryName_iff.1 (isEntryName_of_lookup (everyFolder_at? proper reached) looked)
    have next : top.at? ((name :: here).reverse ++ names) = some (folder entries) := by
      simpa using placed
    have later := ih next
    simp only [List.cons_append, wayFrom_cons reached, if_neg dot, if_neg dots,
      if_neg (Nat.not_lt.2 short), looked]
    simpa using later

/-! ## Ways to folders -/

/-- From the folder at `here`, with at most `links` links followed, the names lead to the folder at
`there`, and `left` links may still be followed. Both paths have their last name first. -/
inductive Passes (top : Node) : (links : Nat) → (here names : List String) → (left : Nat) →
    (there : List String) → Prop
  | arrive {links : Nat} {here : List String} {entries : List (String × Node)}
      (placed : top.at? here.reverse = some (folder entries)) : Passes top links here [] links here
  | dot {links left : Nat} {here rest there : List String} {entries : List (String × Node)}
      (placed : top.at? here.reverse = some (folder entries))
      (later : Passes top links here rest left there) :
      Passes top links here ("." :: rest) left there
  | dots {links left : Nat} {here rest there : List String} {entries : List (String × Node)}
      (placed : top.at? here.reverse = some (folder entries))
      (later : Passes top links here.tail rest left there) :
      Passes top links here (".." :: rest) left there
  | inside {links left : Nat} {here rest there : List String} {entries inner : List (String × Node)}
      {name : String} (placed : top.at? here.reverse = some (folder entries))
      (dot : name ≠ ".") (dots : name ≠ "..") (short : byteSize name ≤ maxNameSize)
      (looked : entries.lookup name = some (folder inner))
      (later : Passes top links (name :: here) rest left there) :
      Passes top links here (name :: rest) left there
  | link {links left : Nat} {here rest there : List String} {entries : List (String × Node)}
      {name target : String} (placed : top.at? here.reverse = some (folder entries))
      (dot : name ≠ ".") (dots : name ≠ "..") (short : byteSize name ≤ maxNameSize)
      (looked : entries.lookup name = some (link target))
      (later : Passes top links (if (Location.read target).anchor = .here then here else [])
        (Trail.namesTo target ++ rest) left there) :
      Passes top (links + 1) here (name :: rest) left there

theorem folder_of_wayFrom {top : Node} {links : Nat} {here rest way : List String} {name : String}
    (found : top.wayFrom links here (name :: rest) = .ok way) :
    ∃ entries, top.at? here.reverse = some (folder entries) := by
  cases placed : top.at? here.reverse with
  | none => rw [wayFrom_absent placed] at found; cases found
  | some node =>
    cases node with
    | folder entries => exact ⟨entries, rfl⟩
    | file content => rw [wayFrom_notFolder placed (by simp)] at found; cases found
    | link target => rw [wayFrom_notFolder placed (by simp)] at found; cases found

/-- A way that ends at a folder passes through folders and links only. The induction is that of
`follow_eq_wayFrom`. -/
theorem passes_of_wayFrom {top : Node} {links : Nat} {here names way : List String}
    {entries : List (String × Node)} (found : top.wayFrom links here names = .ok way)
    (placed : top.at? way = some (folder entries)) :
    ∃ left, top.Passes links here names left way.reverse := by
  induction links using Nat.strongRecOn generalizing here names with
  | ind links ihl =>
    induction names generalizing here with
    | nil =>
      rw [wayFrom] at found
      cases found
      rw [List.reverse_reverse]
      exact ⟨links, .arrive placed⟩
    | cons name rest ih =>
      obtain ⟨outer, reached⟩ := folder_of_wayFrom found
      rw [wayFrom_cons reached] at found
      split at found
      · next dot =>
        subst dot
        exact (ih found).imp fun _ => .dot reached
      · next dot =>
        split at found
        · next dots =>
          subst dots
          exact (ih found).imp fun _ => .dots reached
        · next dots =>
          split at found
          · cases found
          · next long =>
            have short := Nat.not_lt.1 long
            cases looked : outer.lookup name with
            | none =>
              simp only [looked] at found
              split at found
              · -- What the names lead to would be absent, and it is a folder.
                cases found
                rw [List.reverse_cons, at?_snoc reached, looked] at placed
                cases placed
              · cases found
            | some next =>
              simp only [looked] at found
              cases next with
              | folder inner => exact (ih found).imp fun _ => .inside reached dot dots short looked
              | link target =>
                cases links with
                | zero => cases found
                | succ links =>
                  exact (ihl links (Nat.lt_succ_self _) found).imp fun _ =>
                    .link reached dot dots short looked
              | file content =>
                have file : top.at? (name :: here).reverse = some (.file content) := by
                  rw [List.reverse_cons, at?_snoc reached, looked]
                cases rest with
                | nil =>
                  simp only [wayFrom] at found
                  cases found
                  rw [file] at placed
                  cases placed
                | cons second rest =>
                  obtain ⟨inner, folder⟩ := folder_of_wayFrom found
                  rw [file] at folder
                  cases folder

/-- More names lead on from where names lead to, with the links that are left. -/
theorem Passes.wayFrom_append {top : Node} {links left : Nat} {here names there : List String}
    (h : top.Passes links here names left there) (more : List String) :
    top.wayFrom links here (names ++ more) = top.wayFrom left there more := by
  induction h with
  | arrive placed => rfl
  | dot placed later ih => rw [List.cons_append, wayFrom_cons placed, if_pos rfl, ih]
  | dots placed later ih =>
    rw [List.cons_append, wayFrom_cons placed, if_neg (by decide), if_pos rfl, ih]
  | inside placed dot dots short looked later ih =>
    rw [List.cons_append, wayFrom_cons placed, if_neg dot, if_neg dots, if_neg (Nat.not_lt.2 short),
      looked]
    exact ih
  | link placed dot dots short looked later ih =>
    rw [List.cons_append, wayFrom_cons placed, if_neg dot, if_neg dots, if_neg (Nat.not_lt.2 short),
      looked]
    rw [List.append_assoc] at ih
    exact ih

theorem Passes.wayFrom {top : Node} {links left : Nat} {here names there : List String}
    (h : top.Passes links here names left there) :
    top.wayFrom links here names = .ok there.reverse := by
  have found := h.wayFrom_append []
  rwa [List.append_nil, Node.wayFrom] at found

end Node

/-! ## Locations -/

namespace Disk

/-- Whether the tree is proper and the current directory is a folder in it. -/
def isProper (d : Disk) : Bool := d.top.isProper && (d.top.at? d.current).any Node.isFolder

theorem isProper_iff {d : Disk} :
    d.isProper = true ↔
      d.top.isProper = true ∧ ∃ entries, d.top.at? d.current = some (.folder entries) := by
  simp only [isProper, Bool.and_eq_true, Option.any_eq_true]
  refine and_congr_right fun _ => ⟨fun ⟨node, e, h⟩ => ?_, fun ⟨entries, e⟩ => ⟨_, e, rfl⟩⟩
  cases node with
  | folder entries => exact ⟨entries, e⟩
  | file content => cases h
  | link target => cases h

/-- The trail of a location is that of its way. -/
theorem locate_eq_wayTo {d : Disk} (proper : d.isProper = true) (l : Location) :
    d.locate l = (d.wayTo l).bind d.top.trailTo := by
  obtain ⟨proper, entries, placed⟩ := isProper_iff.1 proper
  obtain ⟨trail, trailed⟩ : ∃ trail, d.top.trailAt d.current.reverse = some trail := by
    have h := Node.at?_reverse d.top d.current.reverse
    rw [List.reverse_reverse, placed] at h
    obtain ⟨trail, h, -⟩ := Option.bind_eq_some_iff.1 h.symm
    exact ⟨trail, h⟩
  have atTop : d.top.trailAt [] = some [d.top] := rfl
  have here (names : List String) :
      d.top.wayFrom Trail.maxLinks [] (d.current ++ names) =
        d.top.wayFrom Trail.maxLinks d.current.reverse names := by
    have placed : d.top.at? ([].reverse ++ d.current) = some (.folder entries) := placed
    simpa using Node.wayFrom_folders proper Trail.maxLinks placed names
  have start : d.here = .ok trail := by
    rw [Disk.here, Node.follow_eq_wayFrom d.top Trail.maxLinks atTop,
      ← List.append_nil d.current, here, Node.wayFrom]
    simp [Except.bind, Node.trailTo, trailed]
  rw [locate, wayTo]
  cases l.fault? with
  | some why => rfl
  | none =>
    cases l.anchor with
    | here =>
      simp only [start, here]
      exact Node.follow_eq_wayFrom d.top Trail.maxLinks trailed
    | top => exact Node.follow_eq_wayFrom d.top Trail.maxLinks atTop
    | twoSlashes => exact Node.follow_eq_wayFrom d.top Trail.maxLinks atTop

/-- The names of a location are followed from the current directory or from the top. -/
theorem wayTo_eq {d : Disk} {l : Location} (h : l.fault? = none) :
    d.wayTo l =
      d.top.wayFrom Trail.maxLinks []
        ((if l.anchor = .here then d.current else []) ++ l.names) := by
  rw [wayTo, h]
  cases l.anchor <;> rfl

theorem fault?_of_wayTo {d : Disk} {l : Location} {way : List String} (h : d.wayTo l = .ok way) :
    l.fault? = none := by
  rw [wayTo] at h
  cases fault : l.fault? with
  | none => rfl
  | some why => rw [fault] at h; cases h

/-- The way to a location below a folder goes on from the way to the folder. -/
theorem wayTo_below {d : Disk} {root : Location} {way : List String}
    {entries : List (String × Node)} (h : d.wayTo root = .ok way)
    (placed : d.top.at? way = some (.folder entries)) :
    ∃ left, ∀ names, (⟨root.anchor, root.names ++ names⟩ : Location).fault? = none →
      d.wayTo ⟨root.anchor, root.names ++ names⟩ = d.top.wayFrom left way.reverse names := by
  rw [wayTo_eq (fault?_of_wayTo h)] at h
  obtain ⟨left, passes⟩ := Node.passes_of_wayFrom h placed
  refine ⟨left, fun names fault => ?_⟩
  rw [wayTo_eq fault, ← passes.wayFrom_append, List.append_assoc]

/-- What is located stands at the path of its way. -/
theorem locate_eq_ok {d : Disk} (proper : d.isProper = true) {l : Location} {node : Node}
    {above : Trail} (located : d.locate l = .ok (node :: above)) :
    ∃ way, d.wayTo l = .ok way ∧ d.top.at? way = some node := by
  rw [locate_eq_wayTo proper] at located
  cases e : d.wayTo l with
  | error why => rw [e] at located; cases located
  | ok way =>
    rw [e] at located
    simp only [Except.bind, Node.trailTo] at located
    split at located
    · next trail trailed =>
      cases located
      obtain ⟨node, above, same, placed⟩ := Node.trailAt_eq_cons trailed
      cases same
      exact ⟨way, rfl, by simpa using placed⟩
    · cases located

end Disk

end CodeSurvey
