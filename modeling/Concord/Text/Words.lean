import Concord.Text.Runs
import Concord.Unicode.Class

namespace Concord.Text

open Unicode

def pieces (text : String) : List String :=
  (runs (fun c => !isWhiteSpace c) text.toList).map String.ofList

def countedWords (text : String) : List String :=
  (runs isWordCharacter text.toList).map String.ofList

def trimTo (keep : Char → Bool) (word : List Char) : List Char :=
  ((word.dropWhile fun c => !keep c).reverse.dropWhile fun c => !keep c).reverse

def trim (text : String) : String :=
  String.ofList (trimTo (fun c => !isWhiteSpace c) text.toList)

def tokens (sentence : String) : List String :=
  (((runs (fun c => !isWhiteSpace c) sentence.toList).map (trimTo isAlphanumeric)).filter
    fun word => !word.isEmpty).map String.ofList

end Concord.Text
