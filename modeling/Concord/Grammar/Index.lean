import Std.Data.TreeMap

namespace Concord

abbrev Index (κ α : Type) (order : κ → κ → Ordering) := Std.TreeMap κ (List α) order

namespace Index

variable {κ α : Type} {order : κ → κ → Ordering}

-- Filing goes from the last item to the first, so each one lands before those that follow it.
def file (key : α → Option κ) (item : α) (index : Index κ α order) : Index κ α order :=
  match key item with
  | some k => index.alter k fun filed => some (item :: filed.getD [])
  | none => index

def of (order : κ → κ → Ordering) (key : α → Option κ) (items : List α) : Index κ α order :=
  items.foldr (file key) ∅

def find (index : Index κ α order) (k : κ) : List α := index.getD k []

end Index
end Concord
