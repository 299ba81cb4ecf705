import CodeSurvey.Source

/-!
# What a scan may look at

Which looks a scan takes depends on what it has seen so far. `Scan.KeepsTo` limits them whatever is
seen: the listing is given, presence is asked only of certain paths, texts are read only at certain
paths, and the result is as wanted. Such a scan has the same result wherever these looks give the
same (`Scan.KeepsTo.run_eq`), and fails only with the fault of one of them (`Scan.KeepsTo.fault`).
-/

namespace CodeSurvey.Scan

variable {α β : Type} {l : List String} {mayAsk mayRead : String → Prop} {wanted : α → Prop}

/-- Whether a scan of a tree with the listed files `l` keeps to the paths that it may ask for and
read, and ends with a result as wanted, whatever the answers are. -/
def KeepsTo (l : List String) (mayAsk mayRead : String → Prop) (wanted : α → Prop) : Scan α → Prop
  | done result => wanted result
  | files next => (next l).KeepsTo l mayAsk mayRead wanted
  | present path next => mayAsk path ∧ ∀ here, (next here).KeepsTo l mayAsk mayRead wanted
  | read path next => mayRead path ∧ ∀ text, (next text).KeepsTo l mayAsk mayRead wanted

namespace KeepsTo

/-! ## Ways of building scans -/

theorem bind {scan : Scan β} {f : β → Scan α} {between : β → Prop}
    (first : scan.KeepsTo l mayAsk mayRead between)
    (later : ∀ b, between b → (f b).KeepsTo l mayAsk mayRead wanted) :
    (scan.bind f).KeepsTo l mayAsk mayRead wanted := by
  induction scan with
  | done b => exact later b first
  | files next ih => exact ih l first
  | present path next ih => exact ⟨first.1, fun here => ih here (first.2 here)⟩
  | read path next ih => exact ⟨first.1, fun text => ih text (first.2 text)⟩

theorem isPresent {path : String} (may : mayAsk path) :
    (Scan.isPresent path).KeepsTo l mayAsk mayRead fun _ => True :=
  ⟨may, fun _ => trivial⟩

theorem readText {path : String} (may : mayRead path) :
    (Scan.readText path).KeepsTo l mayAsk mayRead fun _ => True :=
  ⟨may, fun _ => trivial⟩

theorem collect {ι : Type} {visit : ι → Scan (List β)} {items : List ι}
    (visits : ∀ i ∈ items, (visit i).KeepsTo l mayAsk mayRead fun _ => True) :
    (Scan.collect visit items).KeepsTo l mayAsk mayRead fun _ => True := by
  induction items with
  | nil => trivial
  | cons i rest ih =>
    obtain ⟨first, rest⟩ := List.forall_mem_cons.1 visits
    exact bind first fun _ _ => bind (ih rest) fun _ _ => trivial

theorem eachText {visit : String → Text → List β} {paths : List String}
    (may : ∀ path ∈ paths, mayRead path) :
    (Scan.eachText visit paths).KeepsTo l mayAsk mayRead fun _ => True :=
  collect fun path member => bind (readText (may path member)) fun _ _ => trivial

/-- A scan that keeps to some looks keeps to more. -/
theorem mono {mayAsk' mayRead' : String → Prop} {scan : Scan α}
    (keeps : scan.KeepsTo l mayAsk mayRead wanted) (asks : ∀ path, mayAsk path → mayAsk' path)
    (reads : ∀ path, mayRead path → mayRead' path) : scan.KeepsTo l mayAsk' mayRead' wanted := by
  induction scan with
  | done result => exact keeps
  | files next ih => exact ih l keeps
  | present path next ih => exact ⟨asks path keeps.1, fun here => ih here (keeps.2 here)⟩
  | read path next ih => exact ⟨reads path keeps.1, fun text => ih text (keeps.2 text)⟩

/-! ## Results -/

/-- Where the looks that a scan keeps to give the same, so does the scan. -/
theorem run_eq {scan : Scan α} {s s' : Source} (keeps : scan.KeepsTo l mayAsk mayRead wanted)
    (files : s.files = .ok l) (files' : s'.files = .ok l)
    (asks : ∀ path, mayAsk path → s'.present path = s.present path)
    (reads : ∀ path, mayRead path → s'.read path = s.read path) : scan.run s' = scan.run s := by
  induction scan with
  | done result => rfl
  | files next ih =>
    rw [run, run, files, files']
    exact ih l keeps
  | present path next ih =>
    rw [run, run, asks path keeps.1]
    congr 1
    funext here
    exact ih here (keeps.2 here)
  | read path next ih =>
    rw [run, run, reads path keeps.1]
    congr 1
    funext text
    exact ih text (keeps.2 text)

/-! ## Faults -/

/-- If the files are listed and what may be read can be read, a scan fails only where it asks for a
path whose presence cannot be told. -/
theorem fault {scan : Scan α} {s : Source} (keeps : scan.KeepsTo l mayAsk mayRead wanted)
    (listed : s.files = .ok l) (readable : ∀ path, mayRead path → ∃ text, s.read path = .ok text)
    {why : Fault} (failed : scan.run s = .error why) :
    ∃ path, mayAsk path ∧ s.present path = .error why := by
  induction scan with
  | done result => cases failed
  | files next ih =>
    rw [run, listed] at failed
    exact ih l keeps failed
  | present path next ih =>
    rw [run] at failed
    cases seen : s.present path with
    | error other =>
      rw [seen] at failed
      cases failed
      exact ⟨path, keeps.1, seen⟩
    | ok here =>
      rw [seen] at failed
      exact ih here (keeps.2 here) failed
  | read path next ih =>
    obtain ⟨text, seen⟩ := readable path keeps.1
    rw [run, seen] at failed
    exact ih text (keeps.2 text) failed

end KeepsTo

/-! ## Looks at files only -/

/-- Whether a scan looks at the listing and at texts only. -/
structure NeverAsks (scan : Scan α) : Prop where
  keepsTo : ∀ l, scan.KeepsTo l (fun _ => False) (fun _ => True) fun _ => True

namespace NeverAsks

theorem done (result : α) : (Scan.done result).NeverAsks := ⟨fun _ => trivial⟩

theorem find (patterns : List String) : (Scan.find patterns).NeverAsks := ⟨fun _ => trivial⟩

theorem readText (path : String) : (Scan.readText path).NeverAsks := ⟨fun _ => .readText trivial⟩

theorem bind {scan : Scan β} {f : β → Scan α} (first : scan.NeverAsks)
    (later : ∀ b, (f b).NeverAsks) : (scan.bind f).NeverAsks :=
  ⟨fun l => .bind (first.keepsTo l) fun b _ => (later b).keepsTo l⟩

theorem after {scan : Scan β} (h : scan.NeverAsks) (g : β → α) :
    NeverAsks (do let b ← scan; return g b) :=
  bind h fun b => done (g b)

theorem append {a b : Scan (List α)} (ha : a.NeverAsks) (hb : b.NeverAsks) :
    NeverAsks (do let first ← a; let second ← b; return first ++ second) :=
  bind ha fun first => after hb (first ++ ·)

theorem collect {ι : Type} {visit : ι → Scan (List α)} {items : List ι}
    (visits : ∀ i, (visit i).NeverAsks) : (Scan.collect visit items).NeverAsks :=
  ⟨fun l => .collect fun i _ => (visits i).keepsTo l⟩

theorem eachFound {patterns : List String} {visit : String → Scan (List α)}
    (visits : ∀ file, (visit file).NeverAsks) :
    NeverAsks (do let files ← Scan.find patterns; Scan.collect visit files) :=
  bind (find patterns) fun _ => collect visits

end NeverAsks

end CodeSurvey.Scan
