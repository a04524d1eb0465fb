import Concord.Morphology.Spelling
import Concord.Text.Words
import Std.Data.TreeMap

namespace Concord

structure Lexicon where
  words : Std.TreeSet String
  frequencies : Std.TreeMap String Nat := ∅

namespace Lexicon

def ofWords (words : List String) : Lexicon where
  words := .ofList words compare

def ofText (text : String) : Lexicon := ofWords (Text.pieces text)

def size (lexicon : Lexicon) : Nat := lexicon.words.size

def isEmpty (lexicon : Lexicon) : Bool := lexicon.words.isEmpty

def contains (lexicon : Lexicon) (word : String) : Bool := lexicon.words.contains word

def frequency (lexicon : Lexicon) (word : String) : Nat := lexicon.frequencies.getD word 0

def count (lexicon : Lexicon) (word : String) : Lexicon :=
  { lexicon with
    frequencies := lexicon.frequencies.alter word fun counted => some (counted.getD 0 + 1) }

def countCorpus (lexicon : Lexicon) (corpus : String) : Lexicon :=
  (Text.countedWords corpus).foldl count lexicon

def preferred (lexicon : Lexicon) (a b : String) : String :=
  if lexicon.frequency a < lexicon.frequency b then b
  else if lexicon.frequency b < lexicon.frequency a then a
  else if b < a then b
  else a

def corrections (lexicon : Lexicon) (word : String) : List String :=
  ((Spelling.edits word.toList).map String.ofList).filter fun candidate =>
    candidate ≠ word && lexicon.contains candidate

def correct? (lexicon : Lexicon) (word : String) : Option String :=
  if word.isEmpty then none
  else match lexicon.corrections word with
    | [] => none
    | candidate :: rest => some (rest.foldl lexicon.preferred candidate)

end Lexicon
end Concord
