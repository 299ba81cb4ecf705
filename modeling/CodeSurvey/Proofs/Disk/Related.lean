import CodeSurvey.Proofs.Disk.Way
import CodeSurvey.Settings
import CodeSurvey.Source
import Mathlib.Data.List.Forall2

/-!
# Differences that are not seen

Two trees may differ in a way that shows neither on the way to a place nor in what is read there:
the same names lead to related nodes, links have the same targets, and files read alike. Such a
relation between nodes is `Node.IsUnseen`. It passes from the trees to all places that a location
names (`Disk.Related.locate`), so that whatever is asked about a single location has the same answer
on both disks.
-/

namespace CodeSurvey

/-- Contents from which the same text is read, or none for the same reason. -/
structure Bytes.ReadsAlike (content content' : Bytes) : Prop where
  size : content.length ≤ maxFileSize ↔ content'.length ≤ maxFileSize
  text : content.decode.joinLines = content'.decode.joinLines
  checked : content.decode?.map Text.joinLines = content'.decode?.map Text.joinLines

theorem Bytes.ReadsAlike.refl (content : Bytes) : content.ReadsAlike content := ⟨.rfl, rfl, rfl⟩

namespace Node

variable {R : Node → Node → Prop} {node node' : Node}

/-- Nodes of one kind of which the same is seen, and below which the same names stand for related
nodes. -/
inductive Corresponds (R : Node → Node → Prop) : Node → Node → Prop
  | file {content content' : Bytes} (alike : content.ReadsAlike content') :
      Corresponds R (file content) (file content')
  | link (target : String) : Corresponds R (link target) (link target)
  | folder {entries entries' : List (String × Node)}
      (named : ∀ name, Option.Rel R (entries.lookup name) (entries'.lookup name)) :
      Corresponds R (folder entries) (folder entries')

/-- No walk and no read tells related nodes apart. -/
def IsUnseen (R : Node → Node → Prop) : Prop :=
  ∀ {node node' : Node}, R node node' → Corresponds R node node'

theorem Corresponds.isFolder (h : Corresponds R node node') : node.isFolder = node'.isFolder := by
  cases h <;> rfl

end Node

open Node

namespace Trail

variable {R : Node → Node → Prop} {trail trail' : Trail}

/-- Trails through related places. -/
abbrev Related (R : Node → Node → Prop) (trail trail' : Trail) : Prop :=
  List.Forall₂ R trail trail'

/-- Two searches that fail for the same reason or end at related places. -/
inductive EndsRelated (R : Node → Node → Prop) : Except Fault Trail → Except Fault Trail → Prop
  | fault (why : Fault) : EndsRelated R (.error why) (.error why)
  | goal {trail trail' : Trail} (places : Related R trail trail') :
      EndsRelated R (.ok trail) (.ok trail')

theorem Related.origin (h : Related R trail trail') (anchor : Anchor) :
    Related R (trail.origin anchor) (trail'.origin anchor) := by
  have last : Related R trail.getLast?.toList trail'.getLast?.toList := by
    induction h with
    | nil => exact .nil
    | cons first later ih =>
      cases later with
      | nil => exact .cons first .nil
      | cons second rest => exact ih
  cases anchor with
  | here => exact h
  | top => exact last
  | twoSlashes => exact last

/-- The same names lead to related places. The outer induction is on the links that may still be
followed, the inner one on the names. -/
theorem follow_related (unseen : IsUnseen R) (links : Nat) (h : Related R trail trail')
    (names : List String) :
    EndsRelated R (follow links trail names) (follow links trail' names) := by
  induction links using Nat.strongRecOn generalizing trail trail' names with
  | ind links ihl =>
    induction names generalizing trail trail' with
    | nil =>
      rw [follow_nil, follow_nil]
      exact .goal h
    | cons name rest ih =>
      cases h with
      | nil =>
        rw [follow, walk]
        exact .fault .absent
      | @cons node node' above above' first later =>
        have upward : Related R (if above.isEmpty then node :: above else above)
            (if above'.isEmpty then node' :: above' else above') := by
          cases later with
          | nil => exact .cons first .nil
          | cons second rest => exact .cons second rest
        cases unseen first with
        | file alike =>
          rw [follow_notFolder (by simp), follow_notFolder (by simp)]
          exact .fault .notFolder
        | link target =>
          rw [follow_notFolder (by simp), follow_notFolder (by simp)]
          exact .fault .notFolder
        | @folder entries entries' named =>
          rw [follow_cons, follow_cons]
          split
          · exact ih (.cons first later)
          · split
            · exact ih upward
            · split
              · exact .fault .nameTooLong
              · have inside := named name
                generalize entries.lookup name = next, entries'.lookup name = next' at inside
                cases inside with
                | none => exact .fault .absent
                | some below =>
                  cases unseen below with
                  | file alike => exact ih (.cons below (.cons first later))
                  | folder inner => exact ih (.cons below (.cons first later))
                  | link target =>
                    cases links with
                    | zero => exact .fault .tooManyLinks
                    | succ links =>
                      exact ihl links (Nat.lt_succ_self _) (.origin (.cons first later) _) _

theorem Related.leadsToFolder (unseen : IsUnseen R) (h : Related R trail trail')
    (target : String) : trail.leadsToFolder target = trail'.leadsToFolder target := by
  have ends := follow_related unseen (maxLinks - 1) (h.origin (Location.read target).anchor)
    (namesTo target)
  rw [Trail.leadsToFolder, Trail.leadsToFolder]
  generalize follow _ (trail.origin _) _ = reached, follow _ (trail'.origin _) _ = reached' at ends
  cases ends with
  | fault why => rfl
  | goal places =>
    cases places with
    | nil => rfl
    | cons first later => cases unseen first <;> rfl

end Trail

namespace Disk

/-- Disks with a difference that is not seen. -/
structure Related (R : Node → Node → Prop) (d d' : Disk) : Prop where
  unseen : IsUnseen R
  top : R d.top d'.top
  current : d'.current = d.current

namespace Related

variable {R : Node → Node → Prop} {d d' : Disk}

theorem locate (h : Related R d d') (l : Location) :
    Trail.EndsRelated R (d.locate l) (d'.locate l) := by
  have top : Trail.Related R [d.top] [d'.top] := .cons h.top .nil
  have fromTop := Trail.follow_related h.unseen Trail.maxLinks top
  have here : Trail.EndsRelated R d.here d'.here := by
    rw [here, Disk.here, h.current]
    exact fromTop d.current
  rw [Disk.locate, Disk.locate]
  cases l.fault? with
  | some why => exact .fault why
  | none =>
    cases l.anchor with
    | top => exact fromTop l.names
    | twoSlashes => exact fromTop l.names
    | here =>
      generalize d.here = place, d'.here = place' at here
      cases here with
      | fault why => exact .fault why
      | goal places => exact Trail.follow_related h.unseen Trail.maxLinks places l.names

/-- What stands at a location is related. -/
theorem node? (h : Related R d d') (l : Location) :
    (∃ why, d.node? l = .error why ∧ d'.node? l = .error why) ∨
      ∃ node node', d.node? l = .ok node ∧ d'.node? l = .ok node' ∧ Option.Rel R node node' := by
  have ends := h.locate l
  rw [Disk.node?, Disk.node?]
  generalize d.locate l = place, d'.locate l = place' at ends
  cases ends with
  | fault why =>
    cases why with
    | nameTooLong => exact .inl ⟨_, rfl, rfl⟩
    | _ => exact .inr ⟨none, none, rfl, rfl, .none⟩
  | goal places =>
    refine .inr ⟨_, _, rfl, rfl, ?_⟩
    cases places with
    | nil => exact .none
    | cons first later => exact .some first

/-- What is said of the node at a location is the same if it is the same of nodes that
correspond. -/
theorem view (h : Related R d d') {β : Type} {view : Option Node → β}
    (blind : ∀ node node', Corresponds R node node' → view (some node) = view (some node'))
    (l : Location) : (d.node? l).map view = (d'.node? l).map view := by
  rcases h.node? l with ⟨why, failed, failed'⟩ | ⟨node, node', found, found', related⟩
  · rw [failed, failed']
  · rw [found, found']
    cases related with
    | none => rfl
    | some related => exact congrArg Except.ok (blind _ _ (h.unseen related))

theorem isFolder (h : Related R d d') : d.isFolder = d'.isFolder :=
  funext <| h.view fun _ _ => Corresponds.isFolder

theorem present (h : Related R d d') : d.present = d'.present :=
  funext <| h.view fun _ _ _ => rfl

/-- What is read at a location: nothing on either disk, or files that read alike. -/
theorem bytes? (h : Related R d d') (l : Location) :
    d.bytes? l = d'.bytes? l ∨
      ∃ content content', d.bytes? l = .ok (some content) ∧ d'.bytes? l = .ok (some content') ∧
        content.ReadsAlike content' := by
  rw [Disk.bytes?, Disk.bytes?]
  rcases h.node? l with ⟨why, failed, failed'⟩ | ⟨node, node', found, found', related⟩
  · rw [failed, failed']
    exact .inl rfl
  · rw [found, found']
    cases related with
    | none => exact .inl rfl
    | some related =>
      cases h.unseen related with
      | file alike => exact .inr ⟨_, _, rfl, rfl, alike⟩
      | link target => exact .inl rfl
      | folder named => exact .inl rfl

theorem text? (h : Related R d d') : d.text? = d'.text? := by
  funext l
  rw [Disk.text?, Disk.text?]
  rcases h.bytes? l with same | ⟨content, content', found, found', alike⟩
  · rw [same]
  · rw [found, found']
    exact congrArg (fun text => Except.ok (some text)) alike.text

theorem load (h : Related R d d') : d.load = d'.load := by
  funext l
  have ends := h.locate l
  rw [Disk.load, Disk.load]
  generalize d.locate l = place, d'.locate l = place' at ends
  cases ends with
  | fault why => rfl
  | goal places =>
    cases places with
    | nil => rfl
    | cons first later =>
      cases h.unseen first with
      | file alike => simp only [alike.size, alike.text]
      | link target => rfl
      | folder named => rfl

/-- A settings file is taken to mean the same, or refused for the same reason. -/
theorem settings (h : Related R d d') : Settings.load d = Settings.load d' := by
  have staged (nesting : Nat) (root : Location) (content : Bytes) :
      Settings.ofBytes nesting root content =
        (content.decode?.map Text.joinLines).elim (.error .notText)
          fun text => (Settings.document nesting text).bind (Settings.ofValue root) := by
    rw [Settings.ofBytes]
    cases content.decode? <;> rfl
  funext host l
  rw [Settings.load, Settings.load]
  cases Settings.file host.homes l with
  | error fault => rfl
  | ok file =>
    rcases h.bytes? file with same | ⟨content, content', found, found', alike⟩
    · simp only [same]
    · simp only [found, found', staged, alike.checked]

end Related

end Disk

end CodeSurvey
