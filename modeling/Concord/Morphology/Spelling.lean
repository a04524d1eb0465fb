import Std.Data.TreeSet

namespace Concord.Spelling

def alphabet : List Char := "abcçdefgğhıijklmnoöpqrsştuüvwxyz".toList

def deletions : List Char → List (List Char)
  | [] => []
  | c :: rest => rest :: (deletions rest).map (c :: ·)

def transpositions : List Char → List (List Char)
  | c :: d :: rest => (d :: c :: rest) :: (transpositions (d :: rest)).map (c :: ·)
  | _ => []

def replacements : List Char → List (List Char)
  | [] => []
  | c :: rest => alphabet.map (· :: rest) ++ (replacements rest).map (c :: ·)

def insertions : List Char → List (List Char)
  | [] => alphabet.map ([·])
  | c :: rest => alphabet.map (· :: c :: rest) ++ (insertions rest).map (c :: ·)

-- The same word may come about in several ways; the word itself is among them when a letter is
-- replaced by itself or equal letters are exchanged.
def edits (word : List Char) : List (List Char) :=
  deletions word ++ transpositions word ++ replacements word ++ insertions word

def neighbours (word : String) : List String :=
  (Std.TreeSet.ofList ((edits word.toList).map String.ofList) compare).toList

end Concord.Spelling
