import CodeSurvey.Json.Bytes
import CodeSurvey.Json.Write
import CodeSurvey.Survey

/-!
# Surveys over HTTP

A service answers three requests: whether it is there, what the stack of a tree is, and what the
whole analysis of a tree is. The root of the tree is given in a JSON body. Requests that are refused
get the status that tells why.
-/

namespace CodeSurvey.Http

structure Request where
  method : String
  path : String
  /-- The body, empty if there is none. -/
  body : Bytes

structure Response where
  status : Nat
  /-- The value of the body, where one is promised. -/
  body : Option Value

/-- Why a request gets no response. -/
inductive Fault where
  | survey (fault : SurveyFault)
  /-- A value that is refused holds a number for which JSON has no name. -/
  | endlessNumber
  /-- A value that is refused holds half of a pair, which has no bytes. -/
  | half
  /-- The analysis has no form in bytes. -/
  | unwritable

/-! ## Paths -/

inductive Endpoint where
  | health
  | analyze
  | detect
  deriving DecidableEq

namespace Endpoint

def all : List Endpoint := [health, analyze, detect]

def path : Endpoint → String
  | health => "/health"
  | analyze => "/analyze"
  | detect => "/detect"

def method : Endpoint → String
  | health => "GET"
  | analyze => "POST"
  | detect => "POST"

end Endpoint

/-- The paths under which the service describes itself. -/
def pages : List String := ["/openapi.json", "/docs", "/docs/oauth2-redirect", "/redoc"]

/-- Whether a path is the expected one. A line feed at its end does not count. -/
def isAt (expected path : String) : Bool := path == expected || path == expected ++ "\n"

def endpoint? (path : String) : Option Endpoint := Endpoint.all.find? fun e => isAt e.path path

def isPage (path : String) : Bool := pages.any (isAt · path)

/-- The path that a request for a path with slashes at its end is sent on to, if there is one. -/
def onward? (path : String) : Option String :=
  let shorter := String.ofList (Text.trimRightBy path.toList (· == '/'))
  if hasEnding path "/" && ((endpoint? shorter).isSome || isPage shorter) then some shorter
  else none

/-! ## Bodies -/

/-- What a body says about the root of a tree. -/
inductive Asked where
  | root (path : String)
  /-- The body names no path. What is reported of it is a value in it, if it has one. -/
  | nothing (reported : Option Value)
  /-- The body cannot be read at all. -/
  | unreadable

/-- What the value of a body says. -/
def askedBy : Value → Asked
  | .map entries =>
    match entries.lookup "path" with
    | some (.str path) => .root path
    | some value => .nothing (some value)
    | none => .nothing (some (.map entries))
  | value => .nothing (some value)

def asked (depth : Nat) (body : Bytes) : Asked :=
  match Json.decode? body with
  | none => .unreadable
  | some text =>
    match Json.read depth text with
    | .ok value => askedBy value
    | .error (.malformed _ _) => .nothing none
    | .error _ => .unreadable

/-! ## Responses -/

def stackValue (s : Stack) : Value :=
  .map [("language", .str s.language), ("framework", .ofString? s.framework)]

/-- How deep values may stand in each other in an entry of a response, whatever the stack allows. -/
def maxDepth : Nat := 255

/-- An analysis in full together with its counts. -/
def analysisValue (host : Host) (a : Analysis) : Except Fault Value :=
  match Survey.inFull host a with
  | .error fault => .error (.survey fault)
  | .ok value =>
    if a.config.all (fun (_, v) => v.fitsDepth maxDepth) && !value.anyText (·.any Text.isHalf) then
      .ok (Json.standard (.map (value.entries ++ [("counts", a.countsValue)])))
    else .error .unwritable

def refused (detail : String) : Response := ⟨400, some (.map [("detail", .str detail)])⟩

/-- The response to a body that names no path, in which a value of the body is repeated. -/
def invalid (reported : Option Value) : Except Fault Response :=
  let value := reported.getD .null
  if value.anyFloat fun x => x.isNaN || x.isInf then .error .endlessNumber
  else if value.anyText (·.any Text.isHalf) then .error .half
  else .ok ⟨422, none⟩

/-- The response with what a report finds out. A root that is no path is refused. -/
def respond {α : Type} (value : α → Except Fault Value) (report : Report SurveyFault α) :
    Except Fault Response :=
  match report.result with
  | .ok a => (value a).map fun v => ⟨200, some v⟩
  | .error (.root fault) =>
    if fault.isRefusal then .ok (refused fault.message) else .error (.survey (.root fault))
  | .error fault => .error (.survey fault)

/-- Surveys the tree whose root a body names. -/
def survey (d : Disk) (host : Host) (e : Endpoint) (body : Bytes) : Except Fault Response :=
  match asked host.depths.body body with
  | .nothing reported => invalid reported
  | .unreadable => .ok (refused "There was an error parsing the body")
  | .root path =>
    match e with
    | .detect => respond (fun s => .ok (stackValue s)) (Survey.detect d host (.str path) none)
    | _ => respond (analysisValue host) (Survey.analyze d host (.str path) none)

/-- The response to a request. -/
def serve (d : Disk) (host : Host) (r : Request) : Except Fault Response :=
  match endpoint? r.path with
  | some e =>
    if r.method != e.method then .ok ⟨405, none⟩
    else if e = .health then .ok ⟨200, some (.map [("status", .str "ok")])⟩
    else survey d host e r.body
  | none =>
    if isPage r.path then .ok ⟨if ["GET", "HEAD"].contains r.method then 200 else 405, none⟩
    else if (onward? r.path).isSome then .ok ⟨307, none⟩
    else .ok ⟨404, none⟩

end CodeSurvey.Http
