import Concord.Json.Number
import Concord.Json.Text
import Concord.Json.Value

namespace Concord.Json

def isBlank (c : Char) : Bool := c = ' ' || c = '\t' || c = '\n' || c = '\r'

def skipBlanks (input : List Char) : List Char := input.dropWhile isBlank

-- A string without its opening quote.
def readText? (input : List Char) : Option (JsonText × List Char) := do
  let (letters, rest) ← readLetters? input
  some ((chars? letters).map String.ofList, rest)

def readKey? (input : List Char) : Option (JsonText × List Char) :=
  match skipBlanks input with
  | '"' :: rest => do
    let (key, rest) ← readText? rest
    match skipBlanks rest with
    | ':' :: rest => some (key, rest)
    | _ => none
  | _ => none

mutual

-- Of any two steps in a row one takes a character, so twice the length of the text is enough
-- fuel, and two more for the end.
def readValue? : Nat → List Char → Option (Json × List Char)
  | 0, _ => none
  | fuel + 1, input =>
    match skipBlanks input with
    | 'n' :: 'u' :: 'l' :: 'l' :: rest => some (.null, rest)
    | 't' :: 'r' :: 'u' :: 'e' :: rest => some (.bool true, rest)
    | 'f' :: 'a' :: 'l' :: 's' :: 'e' :: rest => some (.bool false, rest)
    | '"' :: rest => (readText? rest).map fun (value, rest) => (.text value, rest)
    | '[' :: rest =>
      match skipBlanks rest with
      | ']' :: rest => some (.array [], rest)
      | _ => (readItems? fuel rest).map fun (items, rest) => (.array items, rest)
    | '{' :: rest =>
      match skipBlanks rest with
      | '}' :: rest => some (.object [], rest)
      | _ => (readMembers? fuel rest).map fun (members, rest) => (.object members, rest)
    | input => (readNumber? input).map fun (integer, rest) => (.number integer, rest)

def readItems? : Nat → List Char → Option (List Json × List Char)
  | 0, _ => none
  | fuel + 1, input => do
    let (item, rest) ← readValue? fuel input
    match skipBlanks rest with
    | ']' :: rest => some ([item], rest)
    | ',' :: rest =>
      let (items, rest) ← readItems? fuel rest
      some (item :: items, rest)
    | _ => none

def readMembers? : Nat → List Char → Option (List (JsonText × Json) × List Char)
  | 0, _ => none
  | fuel + 1, input => do
    let (key, rest) ← readKey? input
    let (value, rest) ← readValue? fuel rest
    match skipBlanks rest with
    | '}' :: rest => some ([(key, value)], rest)
    | ',' :: rest =>
      let (members, rest) ← readMembers? fuel rest
      some ((key, value) :: members, rest)
    | _ => none

end

def read? (text : String) : Option Json :=
  let input := text.toList
  match readValue? (2 * input.length + 2) input with
  | some (value, rest) => if (skipBlanks rest).isEmpty then some value else none
  | none => none

end Concord.Json
