namespace Concord.Json

def digits (input : List Char) : List Char × List Char :=
  (input.takeWhile Char.isDigit, input.dropWhile Char.isDigit)

def digitsValue (digits : List Char) : Nat :=
  digits.foldl (fun value c => value * 10 + (c.toNat - '0'.toNat)) 0

def readFraction? : List Char → Option (Bool × List Char)
  | '.' :: rest =>
    let (fraction, rest) := digits rest
    if fraction.isEmpty then none else some (true, rest)
  | rest => some (false, rest)

def dropSign : List Char → List Char
  | '+' :: rest => rest
  | '-' :: rest => rest
  | rest => rest

def readExponent? (input : List Char) : Option (Bool × List Char) :=
  match input with
  | c :: rest =>
    if c = 'e' ∨ c = 'E' then
      let (exponent, rest) := digits (dropSign rest)
      if exponent.isEmpty then none else some (true, rest)
    else some (false, input)
  | [] => some (false, input)

def readWhole? : List Char → Option (Nat × List Char)
  | '0' :: rest => some (0, rest)
  | input =>
    let (whole, rest) := digits input
    if whole.isEmpty then none else some (digitsValue whole, rest)

def readNumber? (input : List Char) : Option (Option Int × List Char) := do
  let (negative, input) := match input with
    | '-' :: rest => (true, rest)
    | rest => (false, rest)
  let (whole, input) ← readWhole? input
  let (fraction, input) ← readFraction? input
  let (exponent, input) ← readExponent? input
  let integer : Option Int :=
    if fraction || exponent || (negative && whole == 0) then none
    else some (if negative then -(whole : Int) else whole)
  some (integer, input)

end Concord.Json
