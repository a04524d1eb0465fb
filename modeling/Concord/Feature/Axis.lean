namespace Concord

inductive Axis where
  | person
  | tense
  | number
  | other
  deriving DecidableEq

structure UnknownAxis where
  name : String
  deriving DecidableEq

def UnknownAxis.message (unknown : UnknownAxis) : String :=
  "unknown feature name: " ++ unknown.name

namespace Axis

def all : List Axis := [.person, .tense, .number, .other]

def rank : Axis → Nat
  | person => 0
  | tense => 1
  | number => 2
  | other => 3

instance : Ord Axis := ⟨fun a b => compare a.rank b.rank⟩

def name : Axis → String
  | person => "person"
  | tense => "tense"
  | number => "number"
  | other => "other"

def ofName (name : String) : Except UnknownAxis Axis :=
  match all.find? fun axis => axis.name = name with
  | some axis => .ok axis
  | none => .error ⟨name⟩

end Axis
end Concord
