import Concord.Unicode.Alphabetic
import Concord.Unicode.Number
import Concord.Unicode.Mark

namespace Concord.Unicode

-- Property White_Space. A zero width space is not in it.
def whiteSpace : Ranges :=
  [(0x9, 0xd), (0x20, 0x20), (0x85, 0x85), (0xa0, 0xa0), (0x1680, 0x1680), (0x2000, 0x200a),
   (0x2028, 0x2029), (0x202f, 0x202f), (0x205f, 0x205f), (0x3000, 0x3000)]

-- Category Pc, the low line and its relatives.
def connectors : Ranges :=
  [(0x5f, 0x5f), (0x203f, 0x2040), (0x2054, 0x2054), (0xfe33, 0xfe34), (0xfe4d, 0xfe4f), (0xff3f, 0xff3f)]

-- Property Join_Control: the zero width joiner and non-joiner.
def joiners : Ranges := [(0x200c, 0x200d)]

-- The letters, marks and digits that are new in Unicode 17.0. The tables know them, but words are
-- counted by the standard before that one, which had no characters at these places.
def newest : Ranges :=
  [(0x88f, 0x88f), (0xc5c, 0xc5c), (0xcdc, 0xcdc), (0x1acf, 0x1add), (0x1ae0, 0x1aeb), (0xa7ce, 0xa7cf),
   (0xa7d2, 0xa7d2), (0xa7d4, 0xa7d4), (0xa7f1, 0xa7f1), (0x10940, 0x10959), (0x10ec5, 0x10ec7), (0x10efa, 0x10efb),
   (0x11b60, 0x11b67), (0x11db0, 0x11ddb), (0x11de0, 0x11de9), (0x16ea0, 0x16eb8), (0x16ebb, 0x16ed3), (0x16ff2, 0x16ff6),
   (0x187f8, 0x187ff), (0x18d09, 0x18d1e), (0x18d80, 0x18df2), (0x1e6c0, 0x1e6de), (0x1e6e0, 0x1e6f5), (0x1e6fe, 0x1e6ff),
   (0x2b73a, 0x2b73f), (0x2cea2, 0x2cead), (0x323b0, 0x33479)]

def isWhiteSpace (c : Char) : Bool := whiteSpace.covers c.toNat

def isAlphanumeric (c : Char) : Bool := isAlphabetic c || isNumeric c

def isWordCharacter (c : Char) : Bool :=
  (isAlphabetic c || isMark c || isDecimalDigit c || connectors.covers c.toNat
    || joiners.covers c.toNat) && !newest.covers c.toNat

end Concord.Unicode
