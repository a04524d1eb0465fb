namespace Concord.Unicode

-- The ranges of a table do not touch and stand in increasing order.
abbrev Ranges := List (Nat × Nat)

-- The search ends at the first range that starts too late, as all later ones do too.
def Ranges.covers : Ranges → Nat → Bool
  | [], _ => false
  | (first, last) :: later, code =>
    if code < first then false else code ≤ last || Ranges.covers later code

end Concord.Unicode
