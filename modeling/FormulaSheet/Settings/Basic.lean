import FormulaSheet.Scope.Naming
import FormulaSheet.Settings.Json
import FormulaSheet.Target.Language

/-!
Settings of a compilation, and their JSON form: an object with optional members, or an array of
the values in a fixed order. Unknown members are passed over, and a known one may stand only once.
-/

namespace FormulaSheet

structure Settings where
  language : Target.Language := .csharp
  namespaceName : String := "TranspiledMML"
  className : String := "Program"
  /-- Whether statements with a fault are left out. -/
  ignoreErrors : Bool := false
  naming : Naming := {}
  deriving DecidableEq, Repr

namespace Settings

/-- What a known member holds, if it is there. A member that stands twice is refused. -/
def member? (members : List (Option String × Json)) (name : String) : Option (Option Json) :=
  match members.filter (·.1 = some name) with
  | [] => some none
  | [(_, value)] => some (some value)
  | _ => none

/-- The values of known members, in the order of `names`. -/
def slots? (names : List String) : Json → Option (List (Option Json))
  | .object members =>
    if members.all (·.1.isSome) then names.mapM (member? members) else none
  | .array items =>
    if items.length ≤ names.length then
      some (items.map some ++ List.replicate (names.length - items.length) none)
    else none
  | _ => none

/-- The value of a slot, or the default if it is empty. -/
def slot {α : Type} (read : Json → Option α) (default : α) : Option Json → Option α
  | some json => read json
  | none => some default

def readString? : Json → Option String
  | .string text => text
  | _ => none

def readBool? : Json → Option Bool
  | .bool value => some value
  | _ => none

/-- A language by its name, or an object with the name and nothing in it. -/
def readLanguage? : Json → Option Target.Language
  | .string (some name) => Target.Language.ofName? name
  | .object [(some name, .null)] => Target.Language.ofName? name
  | _ => none

def readNaming? (json : Json) : Option Naming := do
  match ← slots? ["variablePrefix", "functionPrefix", "initPrefix"] json with
  | [variableStem, functionStem, initStem] =>
    let usual : Naming := {}
    return {
      variableStem := ← slot readString? usual.variableStem variableStem
      functionStem := ← slot readString? usual.functionStem functionStem
      initStem := ← slot readString? usual.initStem initStem }
  | _ => none

def read? (json : Json) : Option Settings := do
  match ← slots? ["language", "namespace", "className", "ignoreErrors", "naming"] json with
  | [language, namespaceName, className, ignoreErrors, naming] =>
    let usual : Settings := {}
    return {
      language := ← slot readLanguage? usual.language language
      namespaceName := ← slot readString? usual.namespaceName namespaceName
      className := ← slot readString? usual.className className
      ignoreErrors := ← slot readBool? usual.ignoreErrors ignoreErrors
      naming := ← slot readNaming? usual.naming naming }
  | _ => none

/-- `from_json_str`: the settings in a JSON text. -/
def ofText? (text : String) : Option Settings := (Json.ofText? text).bind read?

end Settings

end FormulaSheet
