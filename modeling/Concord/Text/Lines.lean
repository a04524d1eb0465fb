namespace Concord.Text

-- A text read up to some point: the finished lines and the characters of the line being read,
-- both latest first.
structure LineReader where
  finished : List (List Char) := []
  current : List Char := []

def endedLine : List Char → List Char
  | '\r' :: line => line.reverse
  | line => line.reverse

def LineReader.read (reader : LineReader) (c : Char) : LineReader :=
  if c = '\n' then { finished := endedLine reader.current :: reader.finished }
  else { reader with current := c :: reader.current }

-- An unended last line counts unless it is empty, and it keeps a carriage return.
def LineReader.close (reader : LineReader) : List (List Char) :=
  (if reader.current.isEmpty then reader.finished
   else reader.current.reverse :: reader.finished).reverse

def lines (text : String) : List String :=
  (text.toList.foldl LineReader.read {}).close.map String.ofList

def firstLine (text : List Char) : List Char × List Char :=
  let ending := text.dropWhile (· ≠ '\n')
  (text.takeWhile (· ≠ '\n') ++ ending.take 1, ending.drop 1)

theorem firstLine_append (text : List Char) : (firstLine text).1 ++ (firstLine text).2 = text := by
  simp only [firstLine, List.append_assoc, List.take_append_drop, List.takeWhile_append_dropWhile]

def padTo (width : Nat) (text : String) : String :=
  text ++ String.ofList (List.replicate (width - text.length) ' ')

def longest (texts : List String) : Nat :=
  texts.foldl (fun width text => max width text.length) 0

end Concord.Text
