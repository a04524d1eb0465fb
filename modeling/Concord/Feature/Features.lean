import Concord.Feature.Axis

namespace Concord

structure Features where
  person : Option String := none
  tense : Option String := none
  number : Option String := none
  other : Option String := none
  deriving DecidableEq

namespace Features

def empty : Features := {}

def get (features : Features) : Axis → Option String
  | .person => features.person
  | .tense => features.tense
  | .number => features.number
  | .other => features.other

def insert (features : Features) (axis : Axis) (value : String) : Features :=
  match axis with
  | .person => { features with person := some value }
  | .tense => { features with tense := some value }
  | .number => { features with number := some value }
  | .other => { features with other := some value }

def toList (features : Features) : List (Axis × String) :=
  Axis.all.filterMap fun axis => (features.get axis).map fun value => (axis, value)

def ofList (pairs : List (Axis × String)) : Features :=
  pairs.foldl (fun features pair => features.insert pair.1 pair.2) empty

def size (features : Features) : Nat := features.toList.length

def isEmpty (features : Features) : Bool := features.toList.isEmpty

def overlay (base top : Features) : Features where
  person := top.person.or base.person
  tense := top.tense.or base.tense
  number := top.number.or base.number
  other := top.other.or base.other

-- Only two different values conflict; a missing value agrees with everything, so agreement
-- is symmetric and not transitive.
def agreeOn (left right : Features) (axis : Axis) : Bool :=
  match left.get axis, right.get axis with
  | some a, some b => a = b
  | _, _ => true

def agree (left right : Features) (axes : List Axis) : Bool :=
  axes.all (left.agreeOn right)

def unspecified : Features := { other := some "other" }

def orUnspecified (features : Features) : Features :=
  if features.isEmpty then unspecified else features

instance : Ord Features where
  compare a b :=
    List.compareLex (compareLex (compareOn Prod.fst) (compareOn Prod.snd)) a.toList b.toList

def render (features : Features) : String :=
  if features.isEmpty then "[]"
  else "[ " ++ ", ".intercalate (features.toList.map fun (axis, value) => axis.name ++ ": " ++ value)
    ++ " ]"

end Features
end Concord
