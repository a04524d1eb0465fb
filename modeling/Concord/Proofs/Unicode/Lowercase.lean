import Concord.Proofs.Unicode.Classes
import Concord.Unicode.Lowercase

namespace Concord.Unicode

namespace CaseRun

def size (run : CaseRun) : Nat := (run.last - run.first) / run.step + 1

def capitals (run : CaseRun) : List Nat := List.range' run.first run.size run.step

def lowercase (run : CaseRun) : List Nat := List.range' run.lowerFirst run.size run.step

variable {run : CaseRun} {code lowered : Nat}

theorem lower?_eq_some :
    run.lower? code = some lowered ↔
      (run.first ≤ code ∧ code ≤ run.last ∧ (code - run.first) % run.step = 0) ∧
        run.lowerFirst + (code - run.first) = lowered := by
  unfold lower?
  split
  · next inside => rw [Option.some_inj, and_iff_right inside]
  · next outside => simp [outside]

theorem lower?_members (found : run.lower? code = some lowered) : code ∈ run.capitals ∧ lowered ∈ run.lowercase := by
  obtain ⟨⟨first, last, spaced⟩, rfl⟩ := lower?_eq_some.mp found
  have number : (code - run.first) / run.step < run.size :=
    Nat.lt_succ_of_le (Nat.div_le_div_right (Nat.sub_le_sub_right last run.first))
  have whole := Nat.mul_div_cancel' (Nat.dvd_of_mod_eq_zero spaced)
  constructor
  · exact List.mem_range'.mpr ⟨_, number, by omega⟩
  · exact List.mem_range'.mpr ⟨_, number, by omega⟩

end CaseRun

def capitals : List Nat := caseRuns.flatMap CaseRun.capitals

def lowercase : List Nat := caseRuns.flatMap CaseRun.lowercase

theorem lowercase_still : codeBits lowercase &&& codeBits capitals = 0 := by decide +kernel

theorem capitals_alphabetic : codeBits capitals ||| alphabetic.bits = alphabetic.bits := by decide +kernel

theorem lowercase_alphabetic : codeBits lowercase ||| alphabetic.bits = alphabetic.bits := by decide +kernel

theorem lowercase_scalar : ∀ code ∈ lowercase, code < 0xd800 ∨ 0xdfff < code ∧ code < 0x110000 := by
  decide +kernel

-- The two capitals of I are no lowercase letters, the one with the dot too, although no run has it.
theorem lowercase_dotless : 'I'.toNat ∉ lowercase ∧ 'İ'.toNat ∉ lowercase := by decide +kernel

variable {c : Char}

theorem alphabetic_of_listed {codes : List Nat} (within : codeBits codes ||| alphabetic.bits = alphabetic.bits)
    (listed : c.toNat ∈ codes) : isAlphanumeric c = true := by
  have set : alphabetic.bits.testBit c.toNat = true := by
    rw [← within, Nat.testBit_or, testBit_codeBits.mpr listed, Bool.true_or]
  unfold isAlphanumeric isAlphabetic
  rw [(Ranges.covers_iff alphabetic_ordered).mpr (Ranges.testBit_bits.mp set), Bool.true_or]

theorem toLower_still (still : c.toNat ∉ capitals) : toLower c = c := by
  unfold toLower
  have none : caseRuns.findSome? (fun run => run.lower? c.toNat) = none := by
    rw [List.findSome?_eq_none_iff]
    intro run listed
    rw [Option.eq_none_iff_forall_ne_some]
    intro code found
    exact still (List.mem_flatMap.mpr ⟨run, listed, (CaseRun.lower?_members found).1⟩)
  rw [none]

theorem toLower_cases (c : Char) : toLower c = c ∨ c.toNat ∈ capitals ∧ (toLower c).toNat ∈ lowercase := by
  cases found : caseRuns.findSome? fun run => run.lower? c.toNat with
  | none =>
    left
    unfold toLower
    rw [found]
  | some code =>
    right
    obtain ⟨run, listed, lowered⟩ := List.exists_of_findSome?_eq_some found
    obtain ⟨capital, letter⟩ := CaseRun.lower?_members lowered
    have member : code ∈ lowercase := List.mem_flatMap.mpr ⟨run, listed, letter⟩
    have valid : code.isValidChar := by
      rcases lowercase_scalar code member with below | within
      · exact .inl below
      · exact .inr within
    have same : (toLower c).toNat = code := by
      unfold toLower Char.ofNat
      rw [found]
      dsimp only
      rw [dif_pos valid]
      rfl
    exact ⟨List.mem_flatMap.mpr ⟨run, listed, capital⟩, same ▸ member⟩

theorem toLower_toLower (c : Char) : toLower (toLower c) = toLower c := by
  rcases toLower_cases c with still | ⟨-, letter⟩
  · rw [still, still]
  · apply toLower_still
    intro capital
    have apart := congrArg (Nat.testBit · (toLower c).toNat) lowercase_still
    simp only [Nat.testBit_and, testBit_codeBits.mpr letter, testBit_codeBits.mpr capital, Nat.zero_testBit,
      Bool.and_self, Bool.true_eq_false] at apart

theorem isAlphanumeric_toLower (c : Char) : isAlphanumeric (toLower c) = isAlphanumeric c := by
  rcases toLower_cases c with still | ⟨capital, letter⟩
  · rw [still]
  · rw [alphabetic_of_listed capitals_alphabetic capital, alphabetic_of_listed lowercase_alphabetic letter]

theorem isWhiteSpace_toLower (c : Char) : isWhiteSpace (toLower c) = isWhiteSpace c := by
  rcases toLower_cases c with still | ⟨capital, letter⟩
  · rw [still]
  · rw [isAlphanumeric_apart (alphabetic_of_listed capitals_alphabetic capital),
      isAlphanumeric_apart (alphabetic_of_listed lowercase_alphabetic letter)]

theorem toLower_dotless {capital : Char} (listed : capital ∈ ['I', 'İ']) (other : c ≠ capital) : toLower c ≠ capital := by
  rcases toLower_cases c with still | ⟨-, letter⟩
  · rwa [still]
  · rintro rfl
    simp only [List.mem_cons, List.not_mem_nil, or_false] at listed
    rcases listed with same | same
    · exact lowercase_dotless.1 (same ▸ letter)
    · exact lowercase_dotless.2 (same ▸ letter)

end Concord.Unicode
