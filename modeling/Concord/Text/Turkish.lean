import Concord.Unicode.Lowercase

namespace Concord.Text

def turkishLowerChar (c : Char) : Char :=
  if c = 'I' then 'ı' else if c = 'İ' then 'i' else Unicode.toLower c

def turkishLower (text : String) : String :=
  String.ofList (text.toList.map turkishLowerChar)

end Concord.Text
