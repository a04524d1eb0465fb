import Concord.Dictionary
import Concord.Json.Value

namespace Concord.Json

def text? : Json → Option String
  | .text value => value
  | _ => none

def signedLimit : Int := 0x8000000000000000

def integer? : Json → Option Int
  | .number (some value) =>
    if -signedLimit ≤ value ∧ value < signedLimit then some value else none
  | _ => none

def listOf? {α : Type} (item? : Json → Option α) : Json → Option (List α)
  | .array items => items.mapM item?
  | _ => none

def orNull? {α : Type} (value? : Json → Option α) : Json → Option (Option α)
  | .null => some none
  | value => (value? value).map some

def member? {α : Type} (value? : Json → Option α) (member : JsonText × Json) :
    Option (String × α) := do
  return (← member.1, ← value? member.2)

-- The last member with a key counts, but the values of all must be of the right shape.
def dictionaryOf? {α : Type} (value? : Json → Option α) : Json → Option (Dictionary α)
  | .object members => (members.mapM (member? value?)).map Dictionary.ofList
  | _ => none

def field? (members : List (JsonText × Json)) (name : String) : Option (Option Json) :=
  match members.filter fun member => member.1 = some name with
  | [] => some none
  | [(_, value)] => some (some value)
  | _ => none

-- The named fields of an object, which may hold others beside them, or the items of an array of
-- just that length. A field that is not there is `none`.
def fields? (names : List String) : Json → Option (List (Option Json))
  | .object members =>
    if members.all fun member => member.1.isSome then names.mapM (field? members) else none
  | .array items => if items.length = names.length then some (items.map some) else none
  | _ => none

def optional? {α : Type} (value? : Json → Option α) : Option Json → Option (Option α)
  | none => some none
  | some value => orNull? value? value

end Concord.Json
