namespace Concord.Text

-- A text read up to some point: the finished runs and the run being read, both latest first.
structure RunReader where
  finished : List (List Char) := []
  current : List Char := []

def RunReader.close (reader : RunReader) : RunReader :=
  if reader.current.isEmpty then reader
  else { finished := reader.current.reverse :: reader.finished }

def RunReader.read (keep : Char → Bool) (reader : RunReader) (c : Char) : RunReader :=
  if keep c then { reader with current := c :: reader.current } else reader.close

def runs (keep : Char → Bool) (text : List Char) : List (List Char) :=
  (text.foldl (RunReader.read keep) {}).close.finished.reverse

end Concord.Text
