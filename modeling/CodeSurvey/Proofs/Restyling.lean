import CodeSurvey.Proofs.Disk.Restyled
import CodeSurvey.Proofs.SeenAlike

/-!
# The style of line ends

It does not matter to a survey whether the lines of a file end with a line feed, with a carriage
return or with both. This holds of all files, also of those that are not well-formed: the readers
pass over the same bytes, and settings that are refused are refused in any style.
-/

namespace CodeSurvey

open Node

theorem Disk.Related.seenAlike_restyled {d d' : Disk} (h : Related Restyled d d') :
    SeenAlike d d' := by
  refine h.seenAlike ?_ ?_
  · funext depth root exclude
    rw [Disk.listing, Disk.listing, h.walk_restyled]
  · funext depth folder
    have loads : Document.load? d = Document.load? d' := by
      funext folder segments
      rw [Document.load?, Document.load?, h.text?]
    rw [Document.loadAll, Document.loadAll, Document.paths, Document.paths, h.walk_restyled, loads]

/-- When the line ends of any files without carriage returns are rewritten, and none of them changes
its side of the size limit, every path reads as before, every extractor finds the same, the settings
are the same or refused as before, and so are the stack, the readme, the documents and the analysis,
with the same events, at every location. -/
theorem Disk.lineEnds_irrelevant {d d' : Disk} (restyled : Restyled d.top d'.top)
    (current : d'.current = d.current) :
    d'.source = d.source ∧
      Snapshot.read d' = Snapshot.read d ∧
      (∀ (depth : Nat) (ρ : Type) (e : Extractor ρ),
        Snapshot.perform d' depth e.scan = Snapshot.perform d depth e.scan) ∧
      Settings.load d' = Settings.load d ∧
      Survey.detect d' = Survey.detect d ∧
      d'.readme = d.readme ∧
      Survey.documents d' = Survey.documents d ∧
      Survey.analyze d' = Survey.analyze d := by
  have h : SeenAlike d d' := Related.seenAlike_restyled ⟨Restyled.isUnseen, restyled, current⟩
  exact ⟨h.source.symm, h.read.symm, fun depth _ e => (h.perform depth e.scan).symm,
    h.settings.symm, h.detect.symm, h.readme.symm, h.documents.symm, h.analyze.symm⟩

/-- A tree with a readme and settings that are not well-formed. -/
def strayTree : Disk :=
  ⟨.folder [("app", .folder
    [("README", .file [72, 105, 255, 10, 10]), (".codeingest.yml", .file [195, 10])])], []⟩

/-- The same tree, with pairs of carriage return and line feed in the readme and with carriage
returns in the settings. -/
def strayTreeRestyled : Disk :=
  ⟨.folder [("app", .folder
    [("README", .file [72, 105, 255, 13, 10, 13, 10]), (".codeingest.yml", .file [195, 13])])], []⟩

theorem strayTree_restyled : Restyled strayTree.top strayTreeRestyled.top :=
  .folder <| .cons "app"
    (.folder <| .cons "README" (.rewritten .crlf (by decide) (by decide)) <|
      .cons ".codeingest.yml" (.rewritten .cr (by decide) (by decide)) .nil) .nil

theorem strayTreeRestyled_read :
    strayTreeRestyled.readme (Location.read "/app") = .ok (some "Hi\n\n") ∧
      Settings.load strayTreeRestyled Survey.plainHost (Location.read "/app") =
        .error .notText := by
  obtain ⟨-, -, -, settings, -, readme, -⟩ := Disk.lineEnds_irrelevant strayTree_restyled rfl
  rw [readme, settings]
  exact ⟨rfl, rfl⟩

end CodeSurvey
