import CodeSurvey.Location
import CodeSurvey.Value

/-!
# The root of a survey

A survey is asked for by a value that has to be a string and not blank. A path that starts with a
tilde starts in a home directory.
-/

namespace CodeSurvey

/-- Where the users of a machine are at home. -/
structure Homes where
  own : String
  /-- The home directories of users by their names. -/
  users : List (String × String)

/-- Why a value names no root. -/
inductive RootFault where
  | notString (kind : String)
  | blank
  | unknownHome
  /-- No user can have the name after the tilde. -/
  | badUser (why : NameFault)
  deriving DecidableEq

/-- Whether the value is refused as none that names a root. -/
def RootFault.isRefusal : RootFault → Bool
  | notString _ => true
  | blank => true
  | _ => false

def RootFault.message : RootFault → String
  | notString kind => "Expected a path string, got " ++ kind
  | blank => "Path must be a non-empty string"
  | unknownHome => "Could not determine home directory."
  | badUser why => why.message

/-- The name of the kind of a value. -/
def Value.kind : Value → String
  | null => "NoneType"
  | bool _ => "bool"
  | int _ => "int"
  | float _ => "float"
  | str _ => "str"
  | list _ => "list"
  | map _ => "dict"
  | other _ => "object"

namespace Location

/-- The home directory that a first name stands for: a tilde, perhaps with the name of a user. -/
def homeFor (homes : Homes) (name : String) : Except RootFault String :=
  let user := String.ofList (name.toList.drop 1)
  if user.isEmpty then .ok homes.own
  else match nameFault? user, homes.users.lookup user with
    | some why, _ => .error (.badUser why)
    | none, some home => .ok home
    | none, none => .error .unknownHome

/-- The location with a tilde at its start replaced. -/
def expand (homes : Homes) (l : Location) : Except RootFault Location :=
  match l.anchor, l.names with
  | .here, name :: rest =>
    if name.toList.head? = some '~' then
      (homeFor homes name).map fun home =>
        let home := read home
        ⟨home.anchor, home.names ++ rest⟩
    else .ok l
  | _, _ => .ok l

/-- The root that a value names. -/
def ofValue (homes : Homes) : Value → Except RootFault Location
  | .str path => if Text.isBlankText path.toList then .error .blank else (read path).expand homes
  | value => .error (.notString value.kind)

end Location

end CodeSurvey
