import CodeSurvey.Proofs.Deletion
import CodeSurvey.Proofs.Textual

/-!
# Sessions

In a session a tree is looked at through one snapshot while the disk is changed, in any order. What
is seen first stays: the listing is always that of the disk when it was first made, and a path
always reads as it did when it was first read, by whatever inquiry. So an inquiry that is made again
gets the answer that it got before (`Session.first_sight_stays`).

The lemmas say what a scan makes of a snapshot: what was kept is kept, the new is as on the disk
(`Snapshot.perform_grows`), and all that the scan has seen is kept (`Snapshot.perform_keeps`). A
scan that takes only looks that are kept is then answered from the snapshot alone
(`Snapshot.perform_again`).
-/

namespace CodeSurvey

/-! ## Looks that are kept -/

/-- A look whose outcome a snapshot keeps. -/
inductive Look where
  | files
  | read (path : String)
  deriving DecidableEq

/-- What is kept of a look. -/
abbrev Look.Sight : Look → Type
  | files => List String
  | read _ => Except Unread Text

/-- Whether a look at the tree at a root succeeds and shows this, if directories may stand in each
other `depth` deep. -/
def Look.Shows (d : Disk) (depth : Nat) (root : Location) (exclude : List String) :
    (look : Look) → look.Sight → Prop
  | files, l => d.listing depth root exclude = .ok l
  | read path, outcome =>
    d.load (root.join path) = outcome ∧ ∃ text, readResult outcome = .ok text

namespace Snapshot

variable {α β : Type} {d : Disk} {depth : Nat} {s s' s'' : Snapshot} {look : Look}

/-- What the snapshot keeps of a look. -/
def kept (s : Snapshot) : (look : Look) → Option look.Sight
  | .files => s.listed
  | .read path => s.loaded.lookup path

/-- Whether all that a snapshot keeps is kept in another one of the same tree. -/
structure Extends (s s' : Snapshot) : Prop where
  root_eq : s'.root = s.root
  exclude_eq : s'.exclude = s.exclude
  kept : ∀ look sight, s.kept look = some sight → s'.kept look = some sight

/-- Whether a snapshot extends another one by what is on the disk. -/
structure Grows (d : Disk) (depth : Nat) (s s' : Snapshot) : Prop extends Extends s s' where
  new : ∀ look sight, s'.kept look = some sight →
    s.kept look = some sight ∨ look.Shows d depth s.root s.exclude sight

theorem Extends.refl (s : Snapshot) : s.Extends s := ⟨rfl, rfl, fun _ _ => id⟩

theorem Extends.trans (h : s.Extends s') (h' : s'.Extends s'') : s.Extends s'' :=
  ⟨h'.root_eq.trans h.root_eq, h'.exclude_eq.trans h.exclude_eq,
    fun look sight kept => h'.kept look sight (h.kept look sight kept)⟩

theorem Grows.refl (d : Disk) (depth : Nat) (s : Snapshot) : s.Grows d depth s :=
  ⟨.refl s, fun _ _ kept => .inl kept⟩

theorem Grows.trans (h : s.Grows d depth s') (h' : s'.Grows d depth s'') :
    s.Grows d depth s'' := by
  refine ⟨h.toExtends.trans h'.toExtends, fun look sight kept => ?_⟩
  rcases h'.new look sight kept with kept | shown
  · exact h.new look sight kept
  · rw [h.root_eq, h.exclude_eq] at shown
    exact .inr shown

/-! ## Single looks -/

/-- What is seen by a look and after it; nothing if the look fails. -/
def sightsFrom (seen : List Look) (look : Except Fault β × Snapshot)
    (later : β → Snapshot → List Look) : List Look :=
  match look with
  | (.ok found, s) => seen ++ later found s
  | (.error _, _) => []

/-- What a look makes of a snapshot: it is answered by what is kept, or it fails, or what it shows
is kept from now on. -/
inductive Looked (d : Disk) (depth : Nat) (s : Snapshot) (look : Look)
    (answer : look.Sight → Except Fault β) : Except Fault β × Snapshot → Prop where
  | again (sight : look.Sight) (kept : s.kept look = some sight) :
      Looked d depth s look answer (answer sight, s)
  | fails (why : Fault) : Looked d depth s look answer (.error why, s)
  | first (sight : look.Sight) (b : β) (s' : Snapshot) (ok : answer sight = .ok b)
      (unseen : s.kept look = none) (shows : look.Shows d depth s.root s.exclude sight)
      (sameTree : s'.root = s.root ∧ s'.exclude = s.exclude) (kept : s'.kept look = some sight)
      (others : ∀ other, other ≠ look → s'.kept other = s.kept other) :
      Looked d depth s look answer (.ok b, s')

theorem files_looked (d : Disk) (depth : Nat) (s : Snapshot) :
    Looked d depth s .files .ok (s.files d depth) := by
  unfold files
  split
  · next l listed => exact .again _ (show s.kept .files = some l from listed)
  · next unlisted =>
    split
    · next l listing =>
      refine .first l l _ rfl (show s.kept .files = none from unlisted)
        (show Look.files.Shows d depth s.root s.exclude l from listing) ⟨rfl, rfl⟩ rfl
        fun other differs => ?_
      cases other with
      | files => exact absurd rfl differs
      | read path => rfl
    · exact .fails _

theorem read_looked (d : Disk) (depth : Nat) (s : Snapshot) (path : String) :
    Looked d depth s (.read path) readResult (s.read d path) := by
  unfold read
  split
  · next outcome loaded => exact .again _ (show s.kept (.read path) = some outcome from loaded)
  · next unread =>
    cases outcome : readResult (d.load (s.root.join path)) with
    | error why => simp only [outcome]; exact .fails why
    | ok text =>
      simp only [outcome]
      refine .first _ text _ outcome (show s.kept (.read path) = none from unread)
        ⟨rfl, text, outcome⟩ ⟨rfl, rfl⟩ List.lookup_cons_self fun other differs => ?_
      cases other with
      | files => rfl
      | read other =>
        have apart : (other == path) = false := beq_false_of_ne fun same => differs (by rw [same])
        simp only [kept, List.lookup_cons, apart]

namespace Looked

variable {answer : look.Sight → Except Fault β} {after : Except Fault β × Snapshot}

theorem grows (h : Looked d depth s look answer after) : s.Grows d depth after.2 := by
  cases h with
  | again sight kept => exact .refl d depth s
  | fails why => exact .refl d depth s
  | first sight b s' answered unseen shows sameTree kept others =>
    refine ⟨⟨sameTree.1, sameTree.2, fun other sight' kept' => ?_⟩, fun other sight' kept' => ?_⟩
    · have differs : other ≠ look := by
        rintro rfl
        rw [unseen] at kept'
        cases kept'
      rw [others other differs, kept']
    · by_cases same : other = look
      · subst same
        rw [kept] at kept'
        cases kept'
        exact .inr shows
      · rw [others other same] at kept'
        exact .inl kept'

/-- A look that succeeds is kept, and is answered by what is kept. -/
theorem kept_of_ok (h : Looked d depth s look answer after) {b : β} (ok : after.1 = .ok b) :
    ∃ sight, after.2.kept look = some sight ∧ answer sight = .ok b := by
  cases h with
  | again sight kept => exact ⟨sight, kept, ok⟩
  | fails why => cases ok
  | first sight b s' answered unseen shows sameTree kept others =>
    cases ok
    exact ⟨sight, kept, answered⟩

theorem unchanged (h : Looked d depth s look answer after) {why : Fault}
    (failed : after.1 = .error why) : after.2 = s := by
  cases h with
  | again sight kept => rfl
  | fails why => rfl
  | first sight b s' answered unseen shows sameTree kept others => cases failed

theorem keeps_iff (h : Looked d depth s look answer after) {b : β} (ok : after.1 = .ok b)
    (other : Look) : (after.2.kept other).isSome ↔ (s.kept other).isSome ∨ other = look := by
  cases h with
  | again sight kept =>
    refine ⟨.inl, fun keeps => keeps.elim id ?_⟩
    rintro rfl
    rw [kept]
    rfl
  | fails why => cases ok
  | first sight b s' answered unseen shows sameTree kept others =>
    by_cases same : other = look
    · subst same
      simp [kept]
    · simp [others other same, same]

/-- A look and what is done after it extend a snapshot by what is on the disk. -/
theorem andThen_grows (h : Looked d depth s look answer after)
    {next : β → Snapshot → Except Fault α × Snapshot}
    (later : ∀ b (s : Snapshot), s.Grows d depth (next b s).2) :
    s.Grows d depth (andThen after next).2 := by
  have grown := h.grows
  obtain ⟨why | b, s'⟩ := after
  · exact grown
  · exact grown.trans (later b s')

theorem andThen_keeps (h : Looked d depth s look answer after) {other : Look}
    {next : β → Snapshot → Except Fault α × Snapshot} {seen : β → Snapshot → List Look}
    (later : ∀ b s, ((next b s).2.kept other).isSome ↔ (s.kept other).isSome ∨ other ∈ seen b s) :
    ((andThen after next).2.kept other).isSome ↔
      (s.kept other).isSome ∨ other ∈ sightsFrom [look] after seen := by
  obtain ⟨why | b, s'⟩ := after
  · simp [andThen, sightsFrom, h.unchanged rfl]
  · simp [andThen, sightsFrom, later b s', h.keeps_iff rfl, or_assoc]

end Looked

theorem files_of_kept {l : List String} (h : s.kept .files = some l) (d : Disk) (depth : Nat) :
    s.files d depth = (.ok l, s) := by
  rw [files, show s.listed = some l from h]

theorem read_of_kept {path : String} {outcome : Except Unread Text}
    (h : s.kept (.read path) = some outcome) (d : Disk) :
    s.read d path = (readResult outcome, s) := by
  rw [read, show s.loaded.lookup path = some outcome from h]

/-! ## Scans -/

/-- The looks of a scan that succeed and are kept, in order. -/
def sights (d : Disk) (depth : Nat) : Scan α → Snapshot → List Look
  | .done _, _ => []
  | .files next, s => sightsFrom [.files] (s.files d depth) fun l s => sights d depth (next l) s
  | .present path next, s =>
    sightsFrom [] (s.present d path, s) fun b s => sights d depth (next b) s
  | .read path next, s =>
    sightsFrom [.read path] (s.read d path) fun text s => sights d depth (next text) s

theorem perform_grows (d : Disk) (depth : Nat) (scan : Scan α) (s : Snapshot) :
    s.Grows d depth (s.perform d depth scan).2 := by
  induction scan generalizing s with
  | done result => exact .refl d depth s
  | files next ih => exact (files_looked d depth s).andThen_grows ih
  | present path next ih =>
    simp only [perform]
    cases s.present d path with
    | error why => exact .refl d depth s
    | ok here => exact ih here s
  | read path next ih => exact (read_looked d depth s path).andThen_grows ih

/-- After a scan all that was kept and all that the scan has seen is kept, and nothing else. -/
theorem perform_keeps (d : Disk) (depth : Nat) (scan : Scan α) (s : Snapshot) (look : Look) :
    ((s.perform d depth scan).2.kept look).isSome ↔
      (s.kept look).isSome ∨ look ∈ s.sights d depth scan := by
  induction scan generalizing s with
  | done result => simp [perform, sights]
  | files next ih => exact (files_looked d depth s).andThen_keeps ih
  | present path next ih =>
    simp only [perform, sights]
    cases s.present d path with
    | error why => simp [andThen, sightsFrom]
    | ok here => exact ih here s
  | read path next ih => exact (read_looked d depth s path).andThen_keeps ih

/-- What a scan has found without asking for presence it finds again on any disk, as long as nothing
that was kept is lost. -/
theorem perform_again {scan : Scan α} {a : α} (found : (s.perform d depth scan).1 = .ok a)
    (later : (s.perform d depth scan).2.Extends s')
    (keeps : scan.KeepsTo (s'.listed.getD []) (fun _ => False) (fun _ => True) fun _ => True)
    (d' : Disk) (depth' : Nat) : s'.perform d' depth' scan = (.ok a, s') := by
  induction scan generalizing s with
  | done result => rw [perform] at found; rw [perform, ← found]
  | files next ih =>
    have looked := files_looked d depth s
    simp only [perform] at found later
    generalize s.files d depth = after at looked found later
    obtain ⟨why | l, s₁⟩ := after
    · cases found
    · obtain ⟨l', kept, same⟩ := looked.kept_of_ok rfl
      cases same
      have listed := later.kept _ _ ((perform_grows d depth (next l) s₁).kept _ _ kept)
      have next_eq : next (s'.listed.getD []) = next l := by
        rw [show s'.listed = some l from listed, Option.getD_some]
      rw [Scan.KeepsTo, next_eq] at keeps
      rw [perform, files_of_kept listed]
      exact ih l found later keeps
  | present path next ih => exact keeps.1.elim
  | read path next ih =>
    have looked := read_looked d depth s path
    simp only [perform] at found later
    generalize s.read d path = after at looked found later
    obtain ⟨why | text, s₁⟩ := after
    · cases found
    · obtain ⟨outcome, kept, same⟩ := looked.kept_of_ok rfl
      have loaded := later.kept _ _ ((perform_grows d depth (next text) s₁).kept _ _ kept)
      rw [perform, read_of_kept loaded, same]
      exact ih text found later (keeps.2 text)

end Snapshot

/-! ## Inquiries -/

/-- What can be asked of a tree. Texts that are taken one by one are several inquiries. -/
inductive Inquiry where
  | files
  | find (patterns : List String)
  | read (path : String)
  /-- The paths that have a text, each with its text. -/
  | texts (paths : List String)
  | extract (e : Extractor Record) (member : e ∈ Extractor.all)

namespace Inquiry

def Answer : Inquiry → Type
  | files | find _ => List String
  | read _ => Option Text
  | texts _ => List (String × Text)
  | extract _ _ => List Record

def scan : (q : Inquiry) → Scan q.Answer
  | files => .listFiles
  | find patterns => .find patterns
  | read path => .readText path
  | texts paths => .eachText (fun path text => [(path, text)]) paths
  | extract e _ => e.scan

theorem neverAsks (q : Inquiry) : q.scan.NeverAsks := by
  cases q with
  | files => exact ⟨fun l => trivial⟩
  | find patterns => exact .find patterns
  | read path => exact .readText path
  | texts paths => exact ⟨fun l => .eachText fun _ _ => trivial⟩
  | extract e member => exact Extractor.neverAsks e member

end Inquiry

/-! ## Sessions -/

/-- A disk with the snapshot that a tree on it is looked at through. -/
structure Session where
  disk : Disk
  tree : Snapshot

namespace Session

inductive Step where
  /-- Changes the disk, which stays as it is if the change cannot be made. -/
  | edit (change : Disk → Except Disk.Unwritable Disk)
  /-- Asks where directories may stand in each other `depth` deep. -/
  | ask (depth : Nat) (q : Inquiry)

def answer (s : Session) (depth : Nat) (q : Inquiry) : Except Fault q.Answer :=
  (s.tree.perform s.disk depth q.scan).1

/-- The looks that an inquiry takes and that are kept. -/
def sees (s : Session) (depth : Nat) (q : Inquiry) : List Look := s.tree.sights s.disk depth q.scan

def step (s : Session) : Step → Session
  | .edit change =>
    match change s.disk with
    | .ok disk => { s with disk := disk }
    | .error _ => s
  | .ask depth q => { s with tree := (s.tree.perform s.disk depth q.scan).2 }

def run (s : Session) (steps : List Step) : Session := steps.foldl step s

/-- All that is seen in the steps of a session. -/
def seen : Session → List Step → List Look
  | _, [] => []
  | s, .edit change :: rest => (s.step (.edit change)).seen rest
  | s, .ask depth q :: rest => s.sees depth q ++ (s.step (.ask depth q)).seen rest

variable {s : Session} {depth : Nat}

theorem tree_edit (s : Session) (change : Disk → Except Disk.Unwritable Disk) :
    (s.step (.edit change)).tree = s.tree := by
  rw [step]
  split
  · rfl
  · rfl

theorem run_extends (s : Session) (steps : List Step) : s.tree.Extends (s.run steps).tree := by
  induction steps generalizing s with
  | nil => exact .refl s.tree
  | cons first rest ih =>
    refine .trans ?_ (ih (s.step first))
    cases first with
    | edit change => rw [tree_edit]; exact .refl s.tree
    | ask depth q => exact (Snapshot.perform_grows s.disk depth q.scan s.tree).toExtends

/-- What is kept after a session was kept before it or is seen in it. -/
theorem run_keeps (s : Session) (steps : List Step) (look : Look) :
    ((s.run steps).tree.kept look).isSome ↔ (s.tree.kept look).isSome ∨ look ∈ s.seen steps := by
  induction steps generalizing s with
  | nil => simp [run, seen]
  | cons first rest ih =>
    rw [show s.run (first :: rest) = (s.step first).run rest from rfl, ih (s.step first)]
    cases first with
    | edit change => rw [tree_edit, seen]
    | ask depth q =>
      rw [seen, List.mem_append, ← or_assoc]
      exact or_congr_left (Snapshot.perform_keeps s.disk depth q.scan s.tree look)

/-- What is seen for the first time is kept as it is on the disk, whatever follows. -/
theorem kept_of_first {look : Look} (fresh : s.tree.kept look = none) {depth : Nat} {q : Inquiry}
    (sees : look ∈ s.sees depth q) (after : List Step) :
    ∃ sight, look.Shows s.disk depth s.tree.root s.tree.exclude sight ∧
      (s.run (.ask depth q :: after)).tree.kept look = some sight := by
  have keeps := (Snapshot.perform_keeps s.disk depth q.scan s.tree look).2 (.inr sees)
  obtain ⟨sight, kept⟩ := Option.isSome_iff_exists.1 keeps
  refine ⟨sight, ?_, (run_extends (s.step (.ask depth q)) after).kept look sight kept⟩
  rcases (Snapshot.perform_grows s.disk depth q.scan s.tree).new look sight kept with old | shows
  · rw [fresh] at old
    cases old
  · exact shows

theorem answer_files {l : List String} (kept : s.tree.kept .files = some l) :
    s.answer depth .files = .ok l := by
  show (Snapshot.andThen (s.tree.files s.disk depth) _).1 = _
  rw [Snapshot.files_of_kept kept]
  rfl

theorem answer_read {path : String} {outcome : Except Unread Text}
    (kept : s.tree.kept (.read path) = some outcome) :
    s.answer depth (.read path) = readResult outcome := by
  show (Snapshot.andThen (s.tree.read s.disk path) _).1 = _
  rw [Snapshot.read_of_kept kept]
  cases readResult outcome <;> rfl

/-- Whatever happens in a session that starts with a new snapshot: an inquiry that is the first to
see the listing, or the text at a path, sees it as it is on the disk then, and so does every later
inquiry, however the disk is changed; and an inquiry that has got an answer gets the same answer
when it is made again. -/
theorem first_sight_stays (d : Disk) (root : Location) (exclude : List String)
    (before after : List Step) (depth depth' : Nat) (q : Inquiry) :
    let start : Session := ⟨d, .new root exclude⟩
    let here := start.run before
    let later := here.run (.ask depth q :: after)
    (.files ∈ here.sees depth q → .files ∉ start.seen before →
      ∃ l, here.disk.listing depth root exclude = .ok l ∧ later.answer depth' .files = .ok l) ∧
    (∀ path, .read path ∈ here.sees depth q → .read path ∉ start.seen before →
      ∃ text, readResult (here.disk.load (root.join path)) = .ok text ∧
        later.answer depth' (.read path) = .ok text) ∧
    ∀ a, here.answer depth q = .ok a → later.answer depth' q = .ok a := by
  intro start here later
  have root_eq : here.tree.root = root := (run_extends start before).root_eq
  have exclude_eq : here.tree.exclude = exclude := (run_extends start before).exclude_eq
  have fresh (look : Look) (unseen : look ∉ start.seen before) : here.tree.kept look = none := by
    refine Option.not_isSome_iff_eq_none.1 fun kept => ?_
    rcases (run_keeps start before look).1 kept with old | seen
    · cases look <;> cases old
    · exact unseen seen
  refine ⟨fun sees unseen => ?_, fun path sees unseen => ?_, fun a found => ?_⟩
  · obtain ⟨l, shows, kept⟩ := kept_of_first (fresh _ unseen) sees after
    rw [root_eq, exclude_eq] at shows
    exact ⟨l, shows, answer_files kept⟩
  · obtain ⟨outcome, ⟨shows, text, readable⟩, kept⟩ := kept_of_first (fresh _ unseen) sees after
    rw [root_eq] at shows
    exact ⟨text, by rw [shows, readable], (answer_read kept).trans readable⟩
  · have extended := run_extends (here.step (.ask depth q)) after
    exact congrArg Prod.fst
      (Snapshot.perform_again found extended (q.neverAsks.keepsTo _) later.disk depth')

/-- Asks for the components of Svelte. -/
def askSvelte : Inquiry :=
  .extract (Components.svelte.toRecords .component) Extractor.svelte_mem_all

/-- A new session on the disk with two cards. -/
def withCards : Session := ⟨Extractor.cards, .new (Location.read "/repo") []⟩

/-- First the files are listed, then the first card is read. -/
theorem withCards_sees : [.files, .read "Card.svelte"] <+: withCards.sees 10 askSvelte := by
  have chosen : findFiles ["**/*.svelte"] ["Card.svelte", "List.svelte"] =
      ["Card.svelte", "List.svelte"] := by decide +kernel
  have listed : withCards.tree.files Extractor.cards 10 =
      (.ok ["Card.svelte", "List.svelte"],
        { withCards.tree with listed := some ["Card.svelte", "List.svelte"] }) := by
    simp only [withCards, Snapshot.files, Snapshot.new, Extractor.cards_listing]
  show _ <+: Snapshot.sightsFrom [.files] (withCards.tree.files Extractor.cards 10) fun l s =>
    s.sights Extractor.cards 10
      ((Scan.eachText Components.inSvelte (findFiles ["**/*.svelte"] l)).bind _)
  rw [listed]
  simp only [Snapshot.sightsFrom, chosen]
  exact ⟨_, rfl⟩

/-- After all is gone from the disk the files are listed as before, the first card has its text, and
the components are found again. -/
theorem withCards_emptied :
    let later := withCards.run [.ask 10 askSvelte, .edit fun _ => .ok ⟨.folder [], []⟩]
    later.answer 10 .files = .ok ["Card.svelte", "List.svelte"] ∧
    later.answer 10 (.read "Card.svelte") = .ok (some (Text.of "export let title")) ∧
    later.answer 10 askSvelte = .ok [.component ⟨"Card", ["title"], "Card.svelte", []⟩,
      .component ⟨"List", [], "List.svelte", []⟩] := by
  obtain ⟨files, texts, again⟩ := first_sight_stays Extractor.cards (Location.read "/repo") [] []
    [.edit fun _ => .ok ⟨.folder [], []⟩] 10 10 askSvelte
  obtain ⟨l, listing, files⟩ := files (withCards_sees.subset (by simp)) (by simp [seen])
  obtain ⟨text, read, texts⟩ := texts "Card.svelte" (withCards_sees.subset (by simp))
    (by simp [seen])
  cases Extractor.cards_listing.symm.trans listing
  cases read
  exact ⟨files, texts, again _ Extractor.cards_found⟩

end Session

end CodeSurvey
