import Std.Data.TreeMap

namespace Concord

structure Dictionary (α : Type) where
  entries : List (String × α)
  sorted : entries.Pairwise fun a b => compare a.1 b.1 = .lt

namespace Dictionary

variable {α : Type}

def ofList (entries : List (String × α)) : Dictionary α :=
  ⟨(Std.TreeMap.ofList entries compare).toList, Std.TreeMap.ordered_keys_toList⟩

def keys (dictionary : Dictionary α) : List String := dictionary.entries.map (·.1)

def find? (dictionary : Dictionary α) (key : String) : Option α := dictionary.entries.lookup key

def contains (dictionary : Dictionary α) (key : String) : Bool := (dictionary.find? key).isSome

def isEmpty (dictionary : Dictionary α) : Bool := dictionary.entries.isEmpty

end Dictionary
end Concord
