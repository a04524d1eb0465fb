namespace Concord.Json

inductive Letter where
  | char (c : Char)
  | unit (value : Nat)

def hexDigit? (c : Char) : Option Nat :=
  if '0' ≤ c ∧ c ≤ '9' then some (c.toNat - '0'.toNat)
  else if 'a' ≤ c ∧ c ≤ 'f' then some (c.toNat - 'a'.toNat + 10)
  else if 'A' ≤ c ∧ c ≤ 'F' then some (c.toNat - 'A'.toNat + 10)
  else none

def hexUnit? (digits : List Char) : Option Nat :=
  digits.foldlM (fun value c => (hexDigit? c).map (value * 16 + ·)) 0

def escaped? : Char → Option Char
  | '"' => some '"'
  | '\\' => some '\\'
  | '/' => some '/'
  | 'b' => some '\x08'
  | 'f' => some '\x0c'
  | 'n' => some '\n'
  | 'r' => some '\r'
  | 't' => some '\t'
  | _ => none

def readLetters? : List Char → Option (List Letter × List Char)
  | [] => none
  | '"' :: rest => some ([], rest)
  | '\\' :: 'u' :: a :: b :: c :: d :: rest => do
    let value ← hexUnit? [a, b, c, d]
    let (letters, rest) ← readLetters? rest
    some (.unit value :: letters, rest)
  | '\\' :: c :: rest => do
    let c ← escaped? c
    let (letters, rest) ← readLetters? rest
    some (.char c :: letters, rest)
  | c :: rest =>
    if c.toNat < 0x20 then none
    else do
      let (letters, rest) ← readLetters? rest
      some (.char c :: letters, rest)

def isHighSurrogate (value : Nat) : Bool := 0xd800 ≤ value && value < 0xdc00

def isLowSurrogate (value : Nat) : Bool := 0xdc00 ≤ value && value < 0xe000

-- A high surrogate and the low one right after it are one character; alone they are none.
def chars? : List Letter → Option (List Char)
  | [] => some []
  | .char c :: rest => (chars? rest).map (c :: ·)
  | .unit high :: .unit low :: rest =>
    if isHighSurrogate high then
      if isLowSurrogate low then
        (chars? rest).map (Char.ofNat (0x10000 + (high - 0xd800) * 0x400 + (low - 0xdc00)) :: ·)
      else none
    else if isLowSurrogate high then none
    else (chars? (.unit low :: rest)).map (Char.ofNat high :: ·)
  | .unit value :: rest =>
    if isHighSurrogate value || isLowSurrogate value then none
    else (chars? rest).map (Char.ofNat value :: ·)

end Concord.Json
