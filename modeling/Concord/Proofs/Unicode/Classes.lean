import Concord.Unicode.Class
import Mathlib.Data.List.Chain
import Mathlib.Data.Nat.Bitwise

namespace Concord.Unicode

def Ranges.Ahead (range later : Nat × Nat) : Prop := range.1 ≤ range.2 ∧ range.2 < later.1

instance (range later : Nat × Nat) : Decidable (Ranges.Ahead range later) :=
  inferInstanceAs (Decidable (_ ∧ _))

instance : Trans Ranges.Ahead Ranges.Ahead Ranges.Ahead where
  trans ahead behind := ⟨ahead.1, Nat.lt_of_lt_of_le ahead.2 (Nat.le_trans behind.1 (Nat.le_of_lt behind.2))⟩

namespace Ranges

variable {table : Ranges} {code : Nat}

theorem covers_range (covered : table.covers code = true) : ∃ range ∈ table, range.1 ≤ code ∧ code ≤ range.2 := by
  induction table with
  | nil => cases covered
  | cons range later step =>
    unfold covers at covered
    split at covered
    · cases covered
    · next reached =>
      rcases Bool.or_eq_true _ _ ▸ covered with inside | behind
      · exact ⟨range, List.mem_cons_self, Nat.le_of_not_lt reached, of_decide_eq_true inside⟩
      · obtain ⟨found, member, within⟩ := step behind
        exact ⟨found, List.mem_cons_of_mem _ member, within⟩

theorem covers_iff (ordered : table.IsChain Ahead) :
    table.covers code = true ↔ ∃ range ∈ table, range.1 ≤ code ∧ code ≤ range.2 := by
  refine ⟨covers_range, ?_⟩
  rintro ⟨range, member, first, last⟩
  have pairwise := List.isChain_iff_pairwise.mp ordered
  clear ordered
  induction table with
  | nil => cases member
  | cons head later step =>
    obtain ⟨ahead, rest⟩ := List.pairwise_cons.mp pairwise
    unfold covers
    rcases List.mem_cons.mp member with rfl | behind
    · rw [if_neg (Nat.not_lt.mpr first), decide_eq_true last, Bool.true_or]
    · obtain ⟨wide, before⟩ := ahead range behind
      have reached : ¬ code < head.1 := by omega
      rw [if_neg reached, step behind rest, Bool.or_true]

-- The codes of a table as the bits of a number. Two tables are compared by one operation on these.
def bits (table : Ranges) : Nat :=
  table.foldr (fun range set => (2 ^ (range.2 + 1 - range.1) - 1) <<< range.1 ||| set) 0

theorem testBit_bits : table.bits.testBit code = true ↔ ∃ range ∈ table, range.1 ≤ code ∧ code ≤ range.2 := by
  induction table with
  | nil => simp [bits]
  | cons range later step =>
    have here : ((2 ^ (range.2 + 1 - range.1) - 1) <<< range.1).testBit code = true ↔
        range.1 ≤ code ∧ code ≤ range.2 := by
      simp only [Nat.testBit_shiftLeft, Nat.testBit_two_pow_sub_one, Bool.and_eq_true, decide_eq_true_eq]
      omega
    simp only [List.mem_cons, exists_eq_or_imp]
    rw [← here, ← step, ← Bool.or_eq_true, ← Nat.testBit_or]
    rfl

theorem testBit_of_covers (covered : table.covers code = true) : table.bits.testBit code = true :=
  testBit_bits.mpr (covers_range covered)

end Ranges

def codeBits (codes : List Nat) : Nat := Ranges.bits (codes.map fun code => (code, code))

theorem testBit_codeBits {codes : List Nat} {code : Nat} : (codeBits codes).testBit code = true ↔ code ∈ codes := by
  rw [codeBits, Ranges.testBit_bits]
  simp only [List.mem_map, exists_exists_and_eq_and, ← le_antisymm_iff, exists_eq_right]

theorem alphabetic_ordered : alphabetic.IsChain Ranges.Ahead := by decide +kernel

theorem whiteSpace_apart :
    whiteSpace.bits &&& (alphabetic.bits ||| (decimalDigits.bits ||| otherNumbers.bits)) = 0 := by
  decide +kernel

theorem isWhiteSpace_apart {c : Char} (white : isWhiteSpace c = true) : isAlphanumeric c = false := by
  have apart := congrArg (Nat.testBit · c.toNat) whiteSpace_apart
  simp only [Nat.testBit_and, Nat.testBit_or, Ranges.testBit_of_covers white, Bool.true_and, Nat.zero_testBit,
    Bool.or_eq_false_iff] at apart
  have missed {table : Ranges} (unset : table.bits.testBit c.toNat = false) : table.covers c.toNat = false := by
    cases covered : table.covers c.toNat with
    | false => rfl
    | true =>
      rw [Ranges.testBit_of_covers covered] at unset
      cases unset
  unfold isAlphanumeric isAlphabetic isNumeric isDecimalDigit
  rw [missed apart.1, missed apart.2.1, missed apart.2.2]
  rfl

theorem isAlphanumeric_apart {c : Char} (alphanumeric : isAlphanumeric c = true) : isWhiteSpace c = false := by
  cases white : isWhiteSpace c with
  | false => rfl
  | true =>
    rw [isWhiteSpace_apart white] at alphanumeric
    cases alphanumeric

end Concord.Unicode
