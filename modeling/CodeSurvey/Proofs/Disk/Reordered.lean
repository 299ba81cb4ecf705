import CodeSurvey.Proofs.Disk.Related

/-!
# Folders enumerated in another order

A folder enumerates its entries in some order, of which nothing is promised. `Node.Reordered` says
that two trees differ in these orders only. In proper trees a name then stands for the same in both
(`Node.Shuffled.lookup`), so that the difference is not seen at any location
(`Node.Shuffled.isUnseen`).
-/

namespace CodeSurvey

namespace Node

/-- The same tree, with the entries of each folder enumerated in any order. -/
inductive Reordered : Node → Node → Prop
  | file (content : Bytes) : Reordered (file content) (file content)
  | link (target : String) : Reordered (link target) (link target)
  | folder {entries entries' : List (String × Node)}
      (names : (entries.map (·.1)).Perm (entries'.map (·.1)))
      (inner : ∀ name node node', (name, node) ∈ entries → (name, node') ∈ entries' →
        Reordered node node') :
      Reordered (folder entries) (folder entries')

theorem Reordered.symm {node node' : Node} (h : Reordered node node') : Reordered node' node := by
  induction h with
  | file content => exact .file content
  | link target => exact .link target
  | folder names _ ih =>
    exact .folder names.symm fun name node node' member member' =>
      ih name node' node member' member

/-- An entry of one folder has its name in the other. -/
theorem mem_of_names {entries entries' : List (String × Node)}
    (names : (entries.map (·.1)).Perm (entries'.map (·.1))) {name : String} {node : Node}
    (member : (name, node) ∈ entries) : ∃ node', (name, node') ∈ entries' := by
  have listed : name ∈ entries'.map (·.1) := names.mem_iff.1 (List.mem_map.2 ⟨_, member, rfl⟩)
  obtain ⟨⟨_, node'⟩, member', rfl⟩ := List.mem_map.1 listed
  exact ⟨node', member'⟩

theorem Reordered.isProper {node node' : Node} (h : Reordered node node')
    (proper : node.isProper = true) : node'.isProper = true := by
  induction h with
  | file content => exact proper
  | link target => exact proper
  | folder names _ ih =>
    obtain ⟨distinct, inner⟩ := isProper_folder.1 proper
    refine isProper_folder.2 ⟨names.nodup_iff.1 distinct, fun (name, node') member' => ?_⟩
    obtain ⟨node, member⟩ := mem_of_names names.symm member'
    obtain ⟨named, below⟩ := inner _ member
    exact ⟨named, ih name node node' member member' below⟩

/-- A proper tree and the same tree in another order. -/
structure Shuffled (node node' : Node) : Prop where
  proper : node.isProper = true
  reordered : Reordered node node'

namespace Shuffled

theorem symm {node node' : Node} (h : Shuffled node node') : Shuffled node' node :=
  ⟨h.reordered.isProper h.proper, h.reordered.symm⟩

section
variable {entries entries' : List (String × Node)}

theorem entry (h : Shuffled (folder entries) (folder entries')) {name : String} {node : Node}
    (member : (name, node) ∈ entries) :
    ∃ node', (name, node') ∈ entries' ∧ Shuffled node node' := by
  have proper := ((isProper_folder.1 h.proper).2 _ member).2
  cases h.reordered with
  | folder names inner =>
    obtain ⟨node', member'⟩ := mem_of_names names member
    exact ⟨node', member', proper, inner name node node' member member'⟩

/-- A name stands for the same in both folders. -/
theorem lookup (h : Shuffled (folder entries) (folder entries')) (name : String) :
    Option.Rel Shuffled (entries.lookup name) (entries'.lookup name) := by
  cases found : entries.lookup name with
  | some node =>
    obtain ⟨node', member', same⟩ := h.entry (mem_of_lookup found)
    rw [lookup_of_mem (isProper_folder.1 h.symm.proper).1 member']
    exact .some same
  | none =>
    cases found' : entries'.lookup name with
    | none => exact .none
    | some node' =>
      obtain ⟨node, member, -⟩ := h.symm.entry (mem_of_lookup found')
      rw [lookup_of_mem (isProper_folder.1 h.proper).1 member] at found
      cases found

end

theorem isUnseen : IsUnseen Shuffled := by
  intro node node' h
  cases h.reordered with
  | file content => exact .file (.refl content)
  | link target => exact .link target
  | folder names inner => exact .folder h.lookup

end Shuffled

end Node

namespace Trail

/-- Trails through the same places. -/
abbrev Shuffled (trail trail' : Trail) : Prop := List.Forall₂ Node.Shuffled trail trail'

/-- Two searches that fail for the same reason or end at the same place. -/
inductive Alike : Except Fault Trail → Except Fault Trail → Prop
  | fault (why : Fault) : Alike (.error why) (.error why)
  | goal {trail trail' : Trail} (same : Shuffled trail trail') : Alike (.ok trail) (.ok trail')

theorem Alike.of_ends {place place' : Except Fault Trail}
    (ends : EndsRelated Node.Shuffled place place') : Alike place place' := by
  cases ends with
  | fault why => exact .fault why
  | goal places => exact .goal places

end Trail

namespace Disk

/-- Disks that differ in the order of entries only. -/
structure Shuffled (d d' : Disk) : Prop where
  top : Node.Shuffled d.top d'.top
  current : d'.current = d.current

namespace Shuffled

variable {d d' : Disk}

theorem related (h : Shuffled d d') : Related Node.Shuffled d d' :=
  ⟨Node.Shuffled.isUnseen, h.top, h.current⟩

theorem locate (h : Shuffled d d') (l : Location) : Trail.Alike (d.locate l) (d'.locate l) :=
  .of_ends (h.related.locate l)

end Shuffled

end Disk

end CodeSurvey
