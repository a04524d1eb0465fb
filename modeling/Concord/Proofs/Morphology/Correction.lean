import Concord.Morphology.Lexicon
import Std.Data.TreeSet.Lemmas

namespace Concord

theorem Spelling.mem_neighbours {word other : String} :
    other ∈ neighbours word ↔ other ∈ (edits word.toList).map String.ofList := by
  rw [neighbours, Std.TreeSet.mem_toList, Std.TreeSet.mem_ofList, List.contains_iff_mem]

namespace Lexicon

structure Candidate (lexicon : Lexicon) (word other : String) : Prop where
  edited : other ∈ Spelling.neighbours word
  differs : other ≠ word
  known : lexicon.contains other = true

structure Best (lexicon : Lexicon) (word other : String) : Prop where
  candidate : lexicon.Candidate word other
  frequent : ∀ rival, lexicon.Candidate word rival → lexicon.frequency rival ≤ lexicon.frequency other
  first : ∀ rival, lexicon.Candidate word rival → lexicon.frequency rival = lexicon.frequency other →
    other ≤ rival

def tried (lexicon : Lexicon) (word : String) (listing : List String) : List String :=
  listing.filter fun candidate => candidate ≠ word && lexicon.contains candidate

def correctFrom? (lexicon : Lexicon) (word : String) (listing : List String) : Option String :=
  if word.isEmpty then none
  else match lexicon.tried word listing with
    | [] => none
    | candidate :: rest => some (rest.foldl lexicon.preferred candidate)

def Leads (lexicon : Lexicon) (a b : String) : Prop :=
  lexicon.frequency b < lexicon.frequency a ∨ lexicon.frequency b = lexicon.frequency a ∧ a ≤ b

variable {lexicon : Lexicon} {word other found : String} {listing : List String}

theorem Leads.refl (lexicon : Lexicon) (word : String) : lexicon.Leads word word :=
  .inr ⟨rfl, String.le_refl word⟩

theorem Leads.trans {a b c : String} (ab : lexicon.Leads a b) (bc : lexicon.Leads b c) : lexicon.Leads a c := by
  rcases ab with more | ⟨same, before⟩
  · rcases bc with above | ⟨equal, _⟩
    · exact .inl (Nat.lt_trans above more)
    · exact .inl (equal ▸ more)
  · rcases bc with above | ⟨equal, after⟩
    · exact .inl (same ▸ above)
    · exact .inr ⟨equal.trans same, String.le_trans before after⟩

theorem preferred_leads (lexicon : Lexicon) (a b : String) :
    lexicon.Leads (lexicon.preferred a b) a ∧ lexicon.Leads (lexicon.preferred a b) b := by
  unfold preferred
  split
  · next more => exact ⟨.inl more, .refl _ _⟩
  · next less =>
    split
    · next more => exact ⟨.refl _ _, .inl more⟩
    · next same =>
      have equal : lexicon.frequency a = lexicon.frequency b := by omega
      split
      · next before => exact ⟨.inr ⟨equal, String.not_lt.mp (String.lt_asymm before)⟩, .refl _ _⟩
      · next after => exact ⟨.refl _ _, .inr ⟨equal.symm, String.not_lt.mp after⟩⟩

theorem preferred_either (lexicon : Lexicon) (a b : String) :
    lexicon.preferred a b = a ∨ lexicon.preferred a b = b := by
  unfold preferred
  repeat' split
  all_goals simp

-- The word that is left over at the end is one of those tried, and it leads all of them.
theorem foldl_preferred (lexicon : Lexicon) (candidate : String) (rest : List String) :
    rest.foldl lexicon.preferred candidate ∈ candidate :: rest ∧
      ∀ other ∈ candidate :: rest, lexicon.Leads (rest.foldl lexicon.preferred candidate) other := by
  induction rest generalizing candidate with
  | nil => simp [Leads.refl]
  | cons next rest step =>
    obtain ⟨among, leads⟩ := step (lexicon.preferred candidate next)
    obtain ⟨overFirst, overNext⟩ := lexicon.preferred_leads candidate next
    have ahead := leads _ List.mem_cons_self
    rw [List.foldl_cons]
    constructor
    · rcases List.mem_cons.mp among with kept | later
      · rw [kept]
        rcases lexicon.preferred_either candidate next with same | same <;> simp [same]
      · simp [later]
    · intro other member
      rcases List.mem_cons.mp member with rfl | member
      · exact ahead.trans overFirst
      · rcases List.mem_cons.mp member with rfl | later
        · exact ahead.trans overNext
        · exact leads other (List.mem_cons_of_mem _ later)

theorem Best.of_leads (candidate : lexicon.Candidate word found)
    (leads : ∀ rival, lexicon.Candidate word rival → lexicon.Leads found rival) : lexicon.Best word found where
  candidate := candidate
  frequent rival tried := by
    rcases leads rival tried with more | ⟨same, _⟩
    · exact Nat.le_of_lt more
    · exact Nat.le_of_eq same
  first rival tried same := by
    rcases leads rival tried with more | ⟨_, before⟩
    · omega
    · exact before

theorem Best.unique (best : lexicon.Best word found) (better : lexicon.Best word other) : found = other := by
  have more := best.frequent other better.candidate
  have less := better.frequent found best.candidate
  have same : lexicon.frequency other = lexicon.frequency found := by omega
  exact String.le_antisymm (best.first other better.candidate same) (better.first found best.candidate same.symm)

theorem mem_tried (complete : ∀ other, other ∈ listing ↔ other ∈ Spelling.neighbours word) :
    other ∈ lexicon.tried word listing ↔ lexicon.Candidate word other := by
  rw [tried, List.mem_filter, complete]
  simp only [Bool.and_eq_true, decide_eq_true_eq]
  constructor
  · intro tried
    exact ⟨tried.1, tried.2.1, tried.2.2⟩
  · intro candidate
    exact ⟨candidate.edited, candidate.differs, candidate.known⟩

theorem correctFrom?_best (complete : ∀ other, other ∈ listing ↔ other ∈ Spelling.neighbours word)
    (corrected : lexicon.correctFrom? word listing = some found) : word ≠ "" ∧ lexicon.Best word found := by
  unfold correctFrom? at corrected
  split at corrected
  · cases corrected
  · next nonempty =>
    split at corrected
    · cases corrected
    · next candidate rest order =>
      cases corrected
      obtain ⟨among, leads⟩ := lexicon.foldl_preferred candidate rest
      simp only [← order, mem_tried complete] at among leads
      exact ⟨by simpa using nonempty, .of_leads among leads⟩

theorem correctFrom?_eq_none (complete : ∀ other, other ∈ listing ↔ other ∈ Spelling.neighbours word) :
    lexicon.correctFrom? word listing = none ↔ word = "" ∨ ∀ other, ¬ lexicon.Candidate word other := by
  simp only [← mem_tried complete, ← List.eq_nil_iff_forall_not_mem]
  unfold correctFrom?
  split
  · next empty => simp [String.isEmpty_iff.mp empty]
  · next nonempty =>
    have letters : word ≠ "" := by simpa using nonempty
    split
    · next order => simp [order]
    · next order => simp [order, letters]

theorem correctFrom?_eq_some (complete : ∀ other, other ∈ listing ↔ other ∈ Spelling.neighbours word) :
    lexicon.correctFrom? word listing = some found ↔ word ≠ "" ∧ lexicon.Best word found := by
  constructor
  · exact correctFrom?_best complete
  · rintro ⟨nonempty, best⟩
    cases corrected : lexicon.correctFrom? word listing with
    | none =>
      rcases (correctFrom?_eq_none complete).mp corrected with empty | missing
      · contradiction
      · exact absurd best.candidate (missing found)
    | some other => rw [(correctFrom?_best complete corrected).2.unique best]

theorem correct?_eq (lexicon : Lexicon) (word : String) :
    lexicon.correct? word = lexicon.correctFrom? word ((Spelling.edits word.toList).map String.ofList) := rfl

theorem correct?_eq_some : lexicon.correct? word = some found ↔ word ≠ "" ∧ lexicon.Best word found := by
  rw [correct?_eq, correctFrom?_eq_some fun _ => Spelling.mem_neighbours.symm]

theorem correct?_eq_none :
    lexicon.correct? word = none ↔ word = "" ∨ ∀ other, ¬ lexicon.Candidate word other := by
  rw [correct?_eq, correctFrom?_eq_none fun _ => Spelling.mem_neighbours.symm]

theorem correct?_known (corrected : lexicon.correct? word = some found) : lexicon.contains found = true :=
  (correct?_eq_some.mp corrected).2.candidate.known

theorem correction_exact (lexicon : Lexicon) (word : String) :
    ((∃ found, lexicon.correct? word = some found) ↔ word ≠ "" ∧ ∃ other, lexicon.Candidate word other) ∧
    (∀ found, lexicon.correct? word = some found ↔ word ≠ "" ∧ lexicon.Best word found) ∧
    ∀ listing : List String, (∀ other, other ∈ listing ↔ other ∈ Spelling.neighbours word) →
      lexicon.correctFrom? word listing = lexicon.correct? word := by
  refine ⟨?_, fun _ => correct?_eq_some, ?_⟩
  · rw [← Option.isSome_iff_exists, ← Option.ne_none_iff_isSome, Ne, correct?_eq_none]
    simp only [not_or, Classical.not_forall, Classical.not_not, Ne]
  · intro listing complete
    apply Option.ext
    intro found
    rw [correctFrom?_eq_some complete, correct?_eq_some]

-- Two known words are one edit away. They tie until a corpus has the later one more often.
theorem bo_corrected :
    (∀ other, other ∈ (Spelling.neighbours "bo").reverse ↔ other ∈ Spelling.neighbours "bo") ∧
    (ofWords ["o", "bu"]).correctFrom? "bo" (Spelling.neighbours "bo").reverse = some "bu" ∧
    ((ofWords ["o", "bu"]).countCorpus "o, bu o").correctFrom? "bo"
      (Spelling.neighbours "bo").reverse = some "o" := by
  have complete : ∀ other, other ∈ (Spelling.neighbours "bo").reverse ↔ other ∈ Spelling.neighbours "bo" :=
    fun _ => List.mem_reverse
  refine ⟨complete, ?_, ?_⟩
  · rw [(correction_exact (ofWords ["o", "bu"]) "bo").2.2 _ complete]
    decide +kernel
  · rw [(correction_exact ((ofWords ["o", "bu"]).countCorpus "o, bu o") "bo").2.2 _ complete]
    decide +kernel

end Lexicon
end Concord
