namespace Concord.Text

def occurs (word : List Char) : List Char → Bool
  | [] => word.isEmpty
  | c :: rest => word.isPrefixOf (c :: rest) || occurs word rest

def contains (text word : String) : Bool := occurs word.toList text.toList

-- The leftmost place at which one of the words stands decides; of the words standing there the
-- one listed first is taken.
def findFrom (words : List String) : List Char → Option String
  | [] => words.find? fun word => word.toList.isEmpty
  | c :: rest => (words.find? fun word => word.toList.isPrefixOf (c :: rest)).or (findFrom words rest)

def leftmost? (words : List String) (text : String) : Option String :=
  findFrom words text.toList

end Concord.Text
