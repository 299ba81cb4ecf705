import CodeSurvey.Text.Basic

/-!
# Values of data files

What a manifest or a settings file holds. A map keeps its entries in the order in which their
names came up first.
-/

namespace CodeSurvey

inductive Value where
  | null
  | bool (b : Bool)
  | int (n : Int)
  | float (x : Float)
  | str (s : String)
  | list (items : List Value)
  | map (entries : List (String × Value))
  /-- A value of another kind, such as a date or a set. -/
  | other (isEmpty : Bool)

/-- The entries with `name` set to `value`, at its present place or else at the end. -/
def setEntry {α : Type} (name : String) (value : α) : List (String × α) → List (String × α)
  | [] => [(name, value)]
  | (other, old) :: rest =>
    if other = name then (name, value) :: rest else (other, old) :: setEntry name value rest

/-- The entries with one for each name, the last, at the place of the first. -/
def lastEntries {α : Type} (entries : List (String × α)) : List (String × α) :=
  entries.foldl (fun kept (name, value) => setEntry name value kept) []

/-- The first items up to a limit; a negative limit leaves out as many at the end. -/
def takeLimit {α : Type} (limit : Int) (items : List α) : List α :=
  if limit < 0 then items.take (items.length - limit.natAbs) else items.take limit.toNat

namespace Value

def entries : Value → List (String × Value)
  | map entries => entries
  | _ => []

/-- The value under a name of a map. -/
def get? (v : Value) (name : String) : Option Value := v.entries.lookup name

def string? : Value → Option String
  | str s => some s
  | _ => none

/-- The string under a name of a map. -/
def getString? (v : Value) (name : String) : Option String := (v.get? name).bind string?

/-- Whether at most `n` values stand in each other, the outermost and the innermost included. -/
def fitsDepth : (n : Nat) → Value → Bool
  | 0, _ => false
  | n + 1, list items => items.all (fitsDepth n)
  | n + 1, map entries => entries.all fun (_, v) => fitsDepth n v
  | _ + 1, _ => true

mutual

/-- Whether one of the strings and names within the value is as asked for. -/
def anyText (ok : Text → Bool) : Value → Bool
  | str s => ok s.toList
  | list items => anyTextOf ok items
  | map entries => anyTextIn ok entries
  | _ => false

def anyTextOf (ok : Text → Bool) : List Value → Bool
  | [] => false
  | v :: rest => v.anyText ok || anyTextOf ok rest

def anyTextIn (ok : Text → Bool) : List (String × Value) → Bool
  | [] => false
  | (name, v) :: rest => ok name.toList || v.anyText ok || anyTextIn ok rest

end

mutual

/-- Whether one of the floating-point numbers within the value is as asked for. -/
def anyFloat (ok : Float → Bool) : Value → Bool
  | float x => ok x
  | list items => anyFloatOf ok items
  | map entries => anyFloatIn ok entries
  | _ => false

def anyFloatOf (ok : Float → Bool) : List Value → Bool
  | [] => false
  | v :: rest => v.anyFloat ok || anyFloatOf ok rest

def anyFloatIn (ok : Float → Bool) : List (String × Value) → Bool
  | [] => false
  | (_, v) :: rest => v.anyFloat ok || anyFloatIn ok rest

end

/-- Whether a value counts as nothing: null, false, zero, or without content. -/
def isNothing : Value → Bool
  | null => true
  | bool b => !b
  | int n => n == 0
  | float x => x == 0.0
  | str s => s.isEmpty
  | list items => items.isEmpty
  | map entries => entries.isEmpty
  | other isEmpty => isEmpty

end Value

end CodeSurvey
