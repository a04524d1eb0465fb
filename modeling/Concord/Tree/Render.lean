import Concord.Text.Lines
import Concord.Tree.Basic

namespace Concord.Tree

mutual

def bracketed : Tree → String
  | leaf word _ => word
  | branch symbol _ children => "(" ++ symbol ++ bracketedAll children ++ ")"

def bracketedAll : List Tree → String
  | [] => ""
  | tree :: rest => " " ++ bracketed tree ++ bracketedAll rest

end

def caption (tree : Tree) : String :=
  toString tree.extent.start ++ ".." ++ toString tree.extent.stop ++ ": " ++ tree.value

def indented (text : String) : String :=
  String.join ((Text.lines text).map fun line => "\n  " ++ line)

mutual

def outline : Tree → String
  | leaf word extent => caption (leaf word extent)
  | branch symbol extent children =>
    "(" ++ caption (branch symbol extent children) ++ outlineAll children ++ ")"

def outlineAll : List Tree → String
  | [] => ""
  | tree :: rest => indented (outline tree) ++ outlineAll rest

end

end Concord.Tree
