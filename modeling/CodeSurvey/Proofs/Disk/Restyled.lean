import CodeSurvey.Listing
import CodeSurvey.Proofs.Disk.Related
import CodeSurvey.Proofs.LineEnds

/-!
# Files with other line ends

`Node.Restyled` says that a tree is another one with the line ends of some files rewritten. Such
files read alike (`Bytes.readsAlike_withEnds`), so that the difference is not seen at any location
(`Node.Restyled.isUnseen`), and walks find the same paths in the same order
(`Disk.Related.walk_restyled`).
-/

namespace CodeSurvey

/-- A file of which no line ends with a carriage return reads the same with its line ends
rewritten, unless that makes it too large. -/
theorem Bytes.readsAlike_withEnds {content : Bytes} (e : LineEnd) (clean : 13 ∉ content)
    (size : content.length ≤ maxFileSize ↔ (content.withEnds e).length ≤ maxFileSize) :
    content.ReadsAlike (content.withEnds e) :=
  ⟨size, (joinLines_decode_withEnds e clean).symm, (map_joinLines_decode?_withEnds e clean).symm⟩

namespace Node

mutual

/-- The same tree, with the line feeds of any of its files rewritten where a file has no carriage
return and stays on its side of the size limit. -/
inductive Restyled : Node → Node → Prop
  | same (content : Bytes) : Restyled (file content) (file content)
  | rewritten {content : Bytes} (e : LineEnd) (clean : 13 ∉ content)
      (size : content.length ≤ maxFileSize ↔ (content.withEnds e).length ≤ maxFileSize) :
      Restyled (file content) (file (content.withEnds e))
  | link (target : String) : Restyled (link target) (link target)
  | folder {entries entries' : List (String × Node)} (inner : EntriesRestyled entries entries') :
      Restyled (folder entries) (folder entries')

/-- The same entries, with trees restyled. -/
inductive EntriesRestyled : List (String × Node) → List (String × Node) → Prop
  | nil : EntriesRestyled [] []
  | cons (name : String) {node node' : Node} {entries entries' : List (String × Node)}
      (first : Restyled node node') (later : EntriesRestyled entries entries') :
      EntriesRestyled ((name, node) :: entries) ((name, node') :: entries')

end

theorem EntriesRestyled.lookup {entries entries' : List (String × Node)}
    (h : EntriesRestyled entries entries') (name : String) :
    Option.Rel Restyled (entries.lookup name) (entries'.lookup name) := by
  induction entries generalizing entries' with
  | nil => cases h; exact .none
  | cons entry entries ih =>
    cases h with
    | cons other first later =>
      rw [List.lookup_cons, List.lookup_cons]
      cases name == other with
      | true => exact .some first
      | false => exact ih later

theorem Restyled.isUnseen : IsUnseen Restyled := by
  intro node node' h
  cases h with
  | same content => exact .file (.refl content)
  | rewritten e clean size => exact .file (Bytes.readsAlike_withEnds e clean size)
  | link target => exact .link target
  | folder inner => exact .folder inner.lookup

end Node

open Node

/-! ## Walks -/

mutual

theorem walkEntry_restyled (skip : String → Bool) (size : Nat) {trail trail' : Trail}
    (places : Trail.Related Restyled trail trail') (name : String) :
    ∀ {node node' : Node}, Restyled node node' →
      walkEntry skip size trail name node = walkEntry skip size trail' name node'
  | _, _, .same content => rfl
  | _, _, .rewritten e clean size => rfl
  | _, _, .link target => by
    rw [walkEntry, walkEntry, places.leadsToFolder Restyled.isUnseen]
  | _, _, .folder inner => by
    rw [walkEntry, walkEntry, walkEntries_restyled skip _ (.cons (.folder inner) places) inner]

theorem walkEntries_restyled (skip : String → Bool) (size : Nat) {trail trail' : Trail}
    (places : Trail.Related Restyled trail trail') :
    ∀ {entries entries' : List (String × Node)}, EntriesRestyled entries entries' →
      walkEntries skip size trail entries = walkEntries skip size trail' entries'
  | _, _, .nil => rfl
  | _, _, .cons name first later => by
    rw [walkEntries, walkEntries, walkEntry_restyled skip size places name first,
      walkEntries_restyled skip size places later]

end

theorem Disk.Related.walk_restyled {d d' : Disk} (h : Related Restyled d d') :
    d.walk = d'.walk := by
  funext size root skip
  have ends := h.locate root
  rw [Disk.walk, Disk.walk]
  generalize d.locate root = place, d'.locate root = place' at ends
  cases ends with
  | fault why => rfl
  | goal places =>
    cases places with
    | nil => rfl
    | cons first later =>
      cases first with
      | same content => rfl
      | rewritten e clean size => rfl
      | link target => rfl
      | folder inner =>
        exact congrArg Except.ok
          (walkEntries_restyled skip size (.cons (.folder inner) later) inner)

end CodeSurvey
