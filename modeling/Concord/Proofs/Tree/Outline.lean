import Concord.Proofs.Text.Lines
import Concord.Proofs.Tree.Values
import Concord.Tree.Render

namespace Concord.Tree

open Text

-- A node with its address: the numbers of the children on the way down to it.
abbrev Entry := List Nat × Tree

mutual

def nodes (address : List Nat) : Tree → List Entry
  | leaf word extent => [(address, leaf word extent)]
  | branch symbol extent children => (address, branch symbol extent children) :: nodesOfAll address 0 children

def nodesOfAll (address : List Nat) (place : Nat) : List Tree → List Entry
  | [] => []
  | tree :: rest => nodes (address ++ [place]) tree ++ nodesOfAll address (place + 1) rest

end

def lastBelow (entries : List Entry) (above : List Nat) : Option (List Nat) :=
  ((entries.map Prod.fst).filter (above.isPrefixOf ·)).getLast?

def closings (entries : List Entry) (address : List Nat) : Nat :=
  entries.countP fun entry => !entry.2.isLeaf && lastBelow entries entry.1 = some address

def blanks (count : Nat) : String := String.ofList (List.replicate count ' ')

def outlineLine (depth closed : Nat) (tree : Tree) : String :=
  blanks (2 * depth) ++ (if tree.isLeaf then "" else "(") ++ caption tree ++
    String.ofList (List.replicate closed ')')

def outlineLines (entries : List Entry) : List String :=
  entries.map fun entry => outlineLine entry.1.length (closings entries entry.1) entry.2

variable {address above : List Nat} {entries front back : List Entry} {tree : Tree} {children : List Tree}

mutual

theorem nodes_below : ∀ (address : List Nat) (tree : Tree), ∀ entry ∈ nodes address tree, address <+: entry.1
  | address, leaf word extent => by simp [nodes]
  | address, branch symbol extent children => by
    rw [nodes, List.forall_mem_cons]
    refine ⟨List.prefix_rfl, fun entry member => ?_⟩
    obtain ⟨child, -, below⟩ := nodesOfAll_below address 0 children entry member
    exact (List.prefix_append address [child]).trans below

theorem nodesOfAll_below : ∀ (address : List Nat) (place : Nat) (trees : List Tree),
    ∀ entry ∈ nodesOfAll address place trees, ∃ child, place ≤ child ∧ address ++ [child] <+: entry.1
  | address, place, [] => by simp [nodesOfAll]
  | address, place, tree :: rest => by
    rw [nodesOfAll, List.forall_mem_append]
    constructor
    · intro entry member
      exact ⟨place, Nat.le_refl place, nodes_below (address ++ [place]) tree entry member⟩
    · intro entry member
      obtain ⟨child, later, below⟩ := nodesOfAll_below address (place + 1) rest entry member
      exact ⟨child, by omega, below⟩

end

theorem child_unique {child other : Nat} (one : address ++ [child] <+: above) (two : address ++ [other] <+: above) :
    child = other := by
  have same := (List.prefix_of_prefix_length_le one two (by simp)).eq_of_length (by simp)
  simpa using same

theorem child_below {child : Nat} (below : address ++ [child] <+: above) : ¬ above <+: address := by
  intro back
  have longer := (below.trans back).length_le
  rw [List.length_append, List.length_singleton] at longer
  omega

def Apart (front back : List Entry) : Prop :=
  ∀ one ∈ front, ∀ other ∈ back, ¬ one.1 <+: other.1 ∧ ¬ other.1 <+: one.1

theorem siblings_apart (address : List Nat) (place : Nat) (tree : Tree) (rest : List Tree) :
    Apart (nodes (address ++ [place]) tree) (nodesOfAll address (place + 1) rest) := by
  intro one member other member'
  have here := nodes_below (address ++ [place]) tree one member
  obtain ⟨child, later, there⟩ := nodesOfAll_below address (place + 1) rest other member'
  constructor
  · intro below
    have same := child_unique (here.trans below) there
    omega
  · intro below
    have same := child_unique here (there.trans below)
    omega

theorem none_below (apart : ∀ entry ∈ entries, ¬ above <+: entry.1) :
    (entries.map Prod.fst).filter (above.isPrefixOf ·) = [] := by
  simpa [List.filter_eq_nil_iff] using fun address place => apart (address, place)

theorem lastBelow_front (apart : ∀ entry ∈ back, ¬ above <+: entry.1) :
    lastBelow (front ++ back) above = lastBelow front above := by
  unfold lastBelow
  rw [List.map_append, List.filter_append, none_below apart, List.append_nil]

theorem lastBelow_back (apart : ∀ entry ∈ front, ¬ above <+: entry.1) :
    lastBelow (front ++ back) above = lastBelow back above := by
  unfold lastBelow
  rw [List.map_append, List.filter_append, none_below apart, List.nil_append]

theorem lastBelow_listed (found : lastBelow entries above = some address) : ∃ entry ∈ entries, entry.1 = address := by
  have member := (List.mem_filter.mp (List.mem_of_getLast? found)).1
  exact List.mem_map.mp member

theorem closings_append (apart : Apart front back) (address : List Nat) :
    closings (front ++ back) address = closings front address + closings back address := by
  have here : ∀ one ∈ front, lastBelow (front ++ back) one.1 = lastBelow front one.1 := fun one listed =>
    lastBelow_front fun other listed' => (apart one listed other listed').1
  have there : ∀ other ∈ back, lastBelow (front ++ back) other.1 = lastBelow back other.1 := fun other listed =>
    lastBelow_back fun one listed' => (apart one listed' other listed).2
  unfold closings
  rw [List.countP_append, List.countP_congr fun one listed => by rw [here one listed],
    List.countP_congr (l := back) fun other listed => by rw [there other listed]]

theorem closings_absent (absent : ∀ entry ∈ entries, entry.1 ≠ address) : closings entries address = 0 := by
  have none (above : List Nat) : lastBelow entries above ≠ some address := by
    intro found
    obtain ⟨entry, listed, same⟩ := lastBelow_listed found
    exact absent entry listed same
  unfold closings
  exact List.countP_eq_zero.mpr fun entry _ => by simp [none]

theorem outlineLines_append (apart : Apart front back) :
    outlineLines (front ++ back) = outlineLines front ++ outlineLines back := by
  have fronts : ∀ one ∈ front, closings (front ++ back) one.1 = closings front one.1 := by
    intro one listed
    have absent : closings back one.1 = 0 := closings_absent fun other listed' same =>
      (apart one listed other listed').1 (same ▸ List.prefix_rfl)
    rw [closings_append apart, absent, Nat.add_zero]
  have backs : ∀ other ∈ back, closings (front ++ back) other.1 = closings back other.1 := by
    intro other listed
    have absent : closings front other.1 = 0 := closings_absent fun one listed' same =>
      (apart one listed' other listed).1 (same ▸ List.prefix_rfl)
    rw [closings_append apart, absent, Nat.zero_add]
  unfold outlineLines
  rw [List.map_append, List.map_congr_left fun one listed => by rw [fronts one listed],
    List.map_congr_left (l := back) fun other listed => by rw [backs other listed]]

mutual

theorem nodes_nodup : ∀ (address : List Nat) (tree : Tree), ((nodes address tree).map Prod.fst).Nodup
  | address, leaf word extent => by simp [nodes]
  | address, branch symbol extent children => by
    rw [nodes, List.map_cons, List.nodup_cons]
    refine ⟨?_, nodesOfAll_nodup address 0 children⟩
    intro again
    obtain ⟨entry, member, same⟩ := List.mem_map.mp again
    obtain ⟨child, -, below⟩ := nodesOfAll_below address 0 children entry member
    exact child_below below (same ▸ List.prefix_rfl)

theorem nodesOfAll_nodup : ∀ (address : List Nat) (place : Nat) (trees : List Tree),
    ((nodesOfAll address place trees).map Prod.fst).Nodup
  | address, place, [] => List.nodup_nil
  | address, place, tree :: rest => by
    rw [nodesOfAll, List.map_append, List.nodup_append]
    refine ⟨nodes_nodup (address ++ [place]) tree, nodesOfAll_nodup address (place + 1) rest, ?_⟩
    intro one here other there same
    obtain ⟨entry, member, rfl⟩ := List.mem_map.mp here
    obtain ⟨entry', member', rfl⟩ := List.mem_map.mp there
    exact (siblings_apart address place tree rest entry member entry' member').1 (same ▸ List.prefix_rfl)

end

-- Over all that is below it a branch is the last but one to close.
theorem closings_branch {symbol : String} {extent : Extent}
    (below : ∀ entry ∈ entries, ∃ child, address ++ [child] <+: entry.1) (place : List Nat) :
    closings ((address, branch symbol extent children) :: entries) place =
      closings entries place +
        if (((address, branch symbol extent children) :: entries).map Prod.fst).getLast? = some place then 1 else 0 := by
  have all : lastBelow ((address, branch symbol extent children) :: entries) address =
      (((address, branch symbol extent children) :: entries).map Prod.fst).getLast? := by
    unfold lastBelow
    rw [List.filter_eq_self.mpr]
    intro other listed
    obtain ⟨entry, member, rfl⟩ := List.mem_map.mp listed
    rcases List.mem_cons.mp member with rfl | member
    · simp
    · obtain ⟨child, longer⟩ := below entry member
      simpa using (List.prefix_append address [child]).trans longer
  have under : ∀ entry ∈ entries, lastBelow ((address, branch symbol extent children) :: entries) entry.1 =
      lastBelow entries entry.1 := by
    intro entry member
    have apart : ∀ top ∈ [(address, branch symbol extent children)], ¬ entry.1 <+: top.1 := by
      intro top listed shorter
      obtain ⟨child, longer⟩ := below entry member
      cases List.mem_singleton.mp listed
      exact child_below longer shorter
    exact lastBelow_back apart
  unfold closings
  rw [List.countP_cons, List.countP_congr fun entry member => by rw [under entry member]]
  simp [all, isLeaf]

def closeLast (lines : List String) : List String :=
  lines.dropLast ++ (lines.getLast?.map (· ++ ")")).toList

theorem closeLast_concat (lines : List String) (line : String) : closeLast (lines ++ [line]) = lines ++ [line ++ ")"] := by
  simp [closeLast]

theorem map_closeLast (left : String) (lines : List String) :
    (closeLast lines).map (left ++ ·) = closeLast (lines.map (left ++ ·)) := by
  rcases List.eq_nil_or_concat lines with rfl | ⟨others, last, rfl⟩
  · rfl
  · simp [closeLast, String.append_assoc]

theorem outlineLine_succ (depth closed : Nat) (tree : Tree) :
    outlineLine depth (closed + 1) tree = outlineLine depth closed tree ++ ")" := by
  simp [outlineLine, ← String.toList_inj, List.replicate_succ']

theorem map_closeLast_line (count : List Nat → Nat) (distinct : (entries.map Prod.fst).Nodup) :
    (entries.map fun entry => outlineLine entry.1.length
      (count entry.1 + if (entries.map Prod.fst).getLast? = some entry.1 then 1 else 0) entry.2) =
        closeLast (entries.map fun entry => outlineLine entry.1.length (count entry.1) entry.2) := by
  rcases List.eq_nil_or_concat entries with rfl | ⟨others, last, rfl⟩
  · rfl
  · have before : ∀ entry ∈ others, last.1 ≠ entry.1 := by
      rw [List.concat_eq_append, List.map_append, List.nodup_append] at distinct
      intro entry member same
      exact distinct.2.2 entry.1 (List.mem_map_of_mem member) last.1 (by simp) same.symm
    simp only [List.concat_eq_append, List.map_append, List.map_singleton, List.getLast?_concat,
      Option.some.injEq, closeLast_concat, if_pos, outlineLine_succ]
    rw [List.map_congr_left fun entry member => by rw [if_neg (before entry member), Nat.add_zero]]

theorem outlineLines_branch (address : List Nat) (symbol : String) (extent : Extent) (children : List Tree) :
    outlineLines (nodes address (branch symbol extent children)) =
      closeLast (outlineLine address.length 0 (branch symbol extent children) ::
        outlineLines (nodesOfAll address 0 children)) := by
  have below : ∀ entry ∈ nodesOfAll address 0 children, ∃ child, address ++ [child] <+: entry.1 := by
    intro entry member
    obtain ⟨child, -, below⟩ := nodesOfAll_below address 0 children entry member
    exact ⟨child, below⟩
  have top : closings (nodesOfAll address 0 children) address = 0 := by
    refine closings_absent fun entry member same => ?_
    obtain ⟨child, longer⟩ := below entry member
    exact child_below longer (same ▸ List.prefix_rfl)
  have raised := map_closeLast_line (closings (nodesOfAll address 0 children))
    (nodes_nodup address (branch symbol extent children))
  rw [nodes] at raised ⊢
  simp only [← closings_branch below] at raised
  rw [outlineLines, raised, List.map_cons, top]
  rfl

theorem blanks_add (few more : Nat) : blanks (few + more) = blanks few ++ blanks more := by
  simp [blanks, ← String.toList_inj]

theorem outlineLine_moved (depth closed : Nat) (tree : Tree) :
    outlineLine depth closed tree = blanks (2 * depth) ++ outlineLine 0 closed tree := by
  simp [outlineLine, blanks, String.append_assoc]

-- An address moves all lines of a tree in alike, so every level further down adds the same.
mutual

theorem outlineLines_moved : ∀ (address : List Nat) (tree : Tree), outlineLines (nodes address tree) =
    (outlineLines (nodes [] tree)).map (blanks (2 * address.length) ++ ·)
  | address, leaf word extent => by
    simp only [nodes, outlineLines, List.map_singleton]
    rw [outlineLine_moved]
    simp [closings, isLeaf]
  | address, branch symbol extent children => by
    rw [outlineLines_branch, outlineLines_branch, map_closeLast, List.map_cons, outlineLine_moved,
      outlineLines_movedAll address 0 children]
    rfl

theorem outlineLines_movedAll : ∀ (address : List Nat) (place : Nat) (trees : List Tree),
    outlineLines (nodesOfAll address place trees) =
      (outlineLines (nodesOfAll [] place trees)).map (blanks (2 * address.length) ++ ·)
  | address, place, [] => rfl
  | address, place, tree :: rest => by
    have deeper : ∀ line, blanks (2 * (address ++ [place]).length) ++ line =
        blanks (2 * address.length) ++ (blanks (2 * ([] ++ [place]).length) ++ line) := by
      intro line
      rw [List.length_append, Nat.mul_add, blanks_add, String.append_assoc]
      rfl
    rw [nodesOfAll, nodesOfAll, outlineLines_append (siblings_apart address place tree rest),
      outlineLines_append (siblings_apart [] place tree rest), outlineLines_moved (address ++ [place]) tree,
      outlineLines_moved ([] ++ [place]) tree, outlineLines_movedAll address (place + 1) rest, List.map_append,
      List.map_map]
    simp only [deeper]
    rfl

end

theorem intercalate_cons (line : String) (lines : List String) :
    "\n".intercalate (line :: lines) = line ++ String.join (lines.map ("\n" ++ ·)) := by
  induction lines generalizing line with
  | nil => simp
  | cons next lines step =>
    rw [String.intercalate_cons_cons, step, List.map_cons, String.join_cons]
    simp only [String.append_assoc]

theorem intercalate_closeLast (line : String) (lines : List String) :
    "\n".intercalate (closeLast (line :: lines)) = "\n".intercalate (line :: lines) ++ ")" := by
  rcases List.eq_nil_or_concat lines with rfl | ⟨others, last, rfl⟩
  · rfl
  · rw [List.concat_eq_append, ← List.cons_append, closeLast_concat, List.cons_append, List.cons_append,
      intercalate_cons, intercalate_cons]
    simp [String.append_assoc, String.join_append]

theorem caption_unbroken (unbroken : Unbroken tree.value.toList) : Unbroken tree.caption.toList := by
  have dots : Unbroken "..".toList := by decide
  have colon : Unbroken ": ".toList := by decide
  simp only [caption, String.toList_append]
  exact ((((unbroken_number _).append dots).append (unbroken_number _)).append colon).append unbroken

theorem outlineLine_legible (unbroken : Unbroken tree.value.toList) (depth closed : Nat) :
    outlineLine depth closed tree ≠ "" ∧ Unbroken (outlineLine depth closed tree).toList := by
  constructor
  · intro none
    have lengths := congrArg String.length none
    simp [outlineLine, caption] at lengths
  · have opens : Unbroken (if tree.isLeaf then "" else "(").toList := by split <;> decide
    simp only [outlineLine, blanks, String.toList_append, String.toList_ofList]
    exact (((unbroken_replicate _ (by decide)).append opens).append (caption_unbroken unbroken)).append
      (unbroken_replicate _ (by decide))

mutual

theorem nodes_value : ∀ (address : List Nat) (tree : Tree), (nodes address tree).map (·.2.value) = tree.values
  | address, leaf word extent => rfl
  | address, branch symbol extent children => by
    rw [nodes, values, List.map_cons, nodesOfAll_value address 0 children]
    rfl

theorem nodesOfAll_value : ∀ (address : List Nat) (place : Nat) (trees : List Tree),
    (nodesOfAll address place trees).map (·.2.value) = valuesOfAll trees
  | address, place, [] => rfl
  | address, place, tree :: rest => by
    rw [nodesOfAll, valuesOfAll, List.map_append, nodes_value (address ++ [place]) tree,
      nodesOfAll_value address (place + 1) rest]

end

theorem outlineLines_legible (unbroken : ∀ value ∈ tree.values, Unbroken value.toList) (address : List Nat) :
    ∀ line ∈ outlineLines (nodes address tree), line ≠ "" ∧ Unbroken line.toList := by
  intro line member
  obtain ⟨entry, listed, rfl⟩ := List.mem_map.mp member
  refine outlineLine_legible (unbroken _ ?_) _ _
  rw [← nodes_value address tree]
  exact List.mem_map_of_mem listed

mutual

theorem outline_eq : ∀ tree : Tree, (∀ value ∈ tree.values, Unbroken value.toList) →
    tree.outline = "\n".intercalate (outlineLines (nodes [] tree))
  | leaf word extent, _ => by
    simp [outline, nodes, outlineLines, outlineLine, closings, isLeaf, blanks]
  | branch symbol extent children, unbroken => by
    rw [outline, outlineLines_branch, intercalate_closeLast, intercalate_cons,
      outlineAll_eq 0 children (List.forall_mem_cons.mp unbroken).2]
    simp [outlineLine, isLeaf, blanks, String.append_assoc]

theorem outlineAll_eq : ∀ (place : Nat) (trees : List Tree), (∀ value ∈ valuesOfAll trees, Unbroken value.toList) →
    outlineAll trees = String.join ((outlineLines (nodesOfAll [] place trees)).map ("\n" ++ ·))
  | place, [], _ => rfl
  | place, tree :: rest, unbroken => by
    obtain ⟨here, later⟩ := List.forall_mem_append.mp unbroken
    have moved : indented tree.outline =
        String.join ((outlineLines (nodes ([] ++ [place]) tree)).map ("\n" ++ ·)) := by
      rw [indented, outline_eq tree here, lines_intercalate (outlineLines_legible here []),
        outlineLines_moved ([] ++ [place]), List.map_map]
      rfl
    rw [outlineAll, moved, outlineAll_eq (place + 1) rest later, nodesOfAll,
      outlineLines_append (siblings_apart [] place tree rest), List.map_append, String.join_append]

end

theorem outline_exact (tree : Tree) (unbroken : ∀ value ∈ tree.values, Unbroken value.toList) :
    lines tree.outline = outlineLines (nodes [] tree) ∧
      tree.outline = "\n".intercalate (outlineLines (nodes [] tree)) := by
  have written := outline_eq tree unbroken
  exact ⟨by rw [written, lines_intercalate (outlineLines_legible unbroken [])], written⟩

-- The last node is a branch without children. With it end two of the branches that it stands in.
def hollowClause : Tree :=
  .branch "S" ⟨0, 2⟩ [.branch "N" ⟨0, 1⟩ [.leaf "ev" ⟨0, 1⟩],
    .branch "VP" ⟨1, 2⟩ [.leaf "yandı" ⟨1, 2⟩, .branch "Aux" ⟨2, 2⟩ []]]

theorem hollowClause_outline :
    (∀ value ∈ hollowClause.values, Unbroken value.toList) ∧
      lines hollowClause.outline = outlineLines (nodes [] hollowClause) ∧
      hollowClause.outline = "\n".intercalate (outlineLines (nodes [] hollowClause)) ∧
      outlineLines (nodes [] hollowClause) =
        ["(0..2: S", "  (0..1: N", "    0..1: ev)", "  (1..2: VP", "    1..2: yandı", "    (2..2: Aux)))"] := by
  have unbroken : ∀ value ∈ hollowClause.values, Unbroken value.toList := by decide
  obtain ⟨read, written⟩ := outline_exact hollowClause unbroken
  exact ⟨unbroken, read, written, by decide +kernel⟩

end Concord.Tree
