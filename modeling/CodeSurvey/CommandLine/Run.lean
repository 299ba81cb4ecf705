import CodeSurvey.CommandLine.Request
import CodeSurvey.Disk.Edit
import CodeSurvey.Feature
import CodeSurvey.Json.Write
import CodeSurvey.Survey

/-!
# Carrying out requests

A request is carried out on a disk. What it prints, and which events it reports where, is its
`Outcome`. A root that is no path is reported to the user; other faults end the program.
-/

namespace CodeSurvey

structure Outcome where
  code : Nat
  output : Text
  /-- The lines on the console beside the output. -/
  console : List String
  /-- The lines that are added to the log file, without their times. -/
  log : List String

/-- Why a request has no outcome. -/
inductive RequestFault where
  | survey (fault : SurveyFault)
  | logFile (why : Disk.Unwritable)
  /-- No folder of documents is named. -/
  | noDocuments
  /-- The request asks for a server, which is none of the things done here. -/
  | server

namespace Request

/-- The severity from which on events are reported. -/
def threshold (r : Request) : Severity :=
  if r.isVerbose then .debug else if r.isQuiet then .warning else .info

/-- The events that are reported. -/
def reported (r : Request) (events : List Event) : List Event :=
  events.filter fun e => r.threshold.rank ≤ e.severity.rank

/-- A line of output. -/
def line (text : Text) : Text := text ++ ['\n']

def gapLine (g : Gap) : Text :=
  line (Text.of ("[" ++ Gap.priority ++ "] " ++ g.type ++ ": " ++ g.feature))

def gapLines (found : List Gap) : Text :=
  if found.isEmpty then line (Text.of "No documentation gaps found") else found.flatMap gapLine

/-- The settings at a path, but with the categories of the given names. -/
def settingsFor (d : Disk) (host : Host) (path : String) (names : List String) :
    Report SurveyFault Settings := do
  let root ← .ofExcept (((Location.read path).expand host.homes).mapError .root)
  let settings ← Survey.settingsAt d host root
  return { settings with categories := Settings.categoriesAmong names }

/-- The output of an analysis. -/
def analyze (d : Disk) (host : Host) (path : String) (format : Format)
    (categories : Option (List String)) : Report SurveyFault Text := do
  let settings ← match categories with
    | some names => (settingsFor d host path names).bind fun settings => pure (some settings)
    | none => pure none
  let analysis ← Survey.analyze d host (.str path) settings
  let value ← match format with
    | .json => .ofExcept (Survey.inFull host analysis)
    | .summary => pure (analysis.summary Analysis.sampleSize)
  return line (Json.write 0 value)

def detect (d : Disk) (host : Host) (path : String) : Report SurveyFault Text := do
  let stack ← Survey.detect d host (.str path) none
  return line (Text.of (stack.language ++ " " ++ stack.framework.getD "-"))

def gaps (d : Disk) (host : Host) (path : String) (docs : Option String) :
    Report RequestFault Text := do
  let analysis ← (Survey.analyze d host (.str path) none).mapError .survey
  match docs with
  | none => .fail .noDocuments
  | some docs =>
    let documents ← (Survey.documents d host (Location.read docs)).mapError .survey
    return gapLines (CodeSurvey.gaps analysis.features (documents.map (·.title)))

/-- The outcome of a report for a request. -/
def outcome (r : Request) (report : Report RequestFault Text) : Except RequestFault Outcome :=
  let events := r.reported report.events
  let console := events.map Event.consoleLine
  let log := if r.logFile.isSome then events.map Event.fileLine else []
  match report.result with
  | .ok output => .ok ⟨0, output, console, log⟩
  | .error (.survey (.root fault)) =>
    let complaint := "codeingest " ++ r.command.name ++ " failed: " ++ fault.message
    if fault.isRefusal then .ok ⟨1, [], console ++ [complaint], log⟩
    else .error (.survey (.root fault))
  | .error fault => .error fault

/-- Opens the log file, if there is one. -/
def openLog (r : Request) (d : Disk) : Except RequestFault Disk :=
  match r.logFile with
  | none => .ok d
  | some path => (d.open? (Location.read path)).mapError .logFile

/-- Carries out a request. -/
def run (d : Disk) (host : Host) (r : Request) : Except RequestFault Outcome := do
  let d ← r.openLog d
  match r.command with
  | .analyze path format categories =>
    r.outcome ((analyze d host path format categories).mapError .survey)
  | .detect path => r.outcome ((detect d host path).mapError .survey)
  | .gaps path docs => r.outcome (gaps d host path docs)
  | .serve _ _ => .error .server

end Request

end CodeSurvey
