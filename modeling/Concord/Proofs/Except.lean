import Mathlib.Data.List.Forall2

namespace Concord

variable {ε α β : Type}

@[simp] theorem ok_bind (value : α) (next : α → Except ε β) : (Except.ok value >>= next) = next value := rfl

@[simp] theorem ok_map (f : α → β) (value : α) : (f <$> (Except.ok value : Except ε α)) = .ok (f value) := rfl

@[simp] theorem pure_ok (value : α) : (pure value : Except ε α) = .ok value := rfl

theorem mapM_ok {read : α → Except ε β} {value : α → β} {items : List α}
    (each : ∀ item ∈ items, read item = .ok (value item)) :
    items.mapM read = .ok (items.map value) := by
  induction items with
  | nil => rfl
  | cons item rest step =>
    have head := each item (by simp)
    have tail := step fun other member => each other (by simp [member])
    simp [List.mapM_cons, head, tail]

theorem bind_eq_ok {run : Except ε α} {next : α → Except ε β} {result : β} :
    (run >>= next) = .ok result ↔ ∃ value, run = .ok value ∧ next value = .ok result := by
  cases run with
  | ok value => simp
  | error reason => simp [bind, Except.bind]

theorem bind_eq_error {run : Except ε α} {next : α → Except ε β} {reason : ε} :
    (run >>= next) = .error reason ↔
      run = .error reason ∨ ∃ value, run = .ok value ∧ next value = .error reason := by
  cases run with
  | ok value => simp
  | error fault => simp [bind, Except.bind]

theorem mapError_eq_ok {ε' : Type} {run : Except ε α} {change : ε → ε'} {value : α} :
    run.mapError change = .ok value ↔ run = .ok value := by
  cases run <;> simp [Except.mapError]

theorem mapError_bind {ε' : Type} (change : ε → ε') (run : Except ε α) (next : α → Except ε β) :
    (run >>= next).mapError change = run.mapError change >>= fun value => (next value).mapError change := by
  cases run <;> rfl

theorem mapError_mapM {ε' : Type} (change : ε → ε') (read : α → Except ε β) (items : List α) :
    (items.mapM read).mapError change = items.mapM fun item => (read item).mapError change := by
  induction items with
  | nil => rfl
  | cons item rest step =>
    rw [List.mapM_cons, List.mapM_cons, mapError_bind, ← step]
    cases read item with
    | error reason => rfl
    | ok head => cases rest.mapM read <;> rfl

theorem mapError_foldlM {ε' : Type} (change : ε → ε') (next : β → α → Except ε β) (start : β) (items : List α) :
    (items.foldlM next start).mapError change =
      items.foldlM (fun value item => (next value item).mapError change) start := by
  induction items generalizing start with
  | nil => rfl
  | cons item rest step =>
    rw [List.foldlM_cons, List.foldlM_cons, mapError_bind]
    cases next start item with
    | error reason => rfl
    | ok value => exact step value

theorem mapM_eq_ok {read : α → Except ε β} {items : List α} {results : List β} :
    items.mapM read = .ok results ↔
      List.Forall₂ (fun item result => read item = .ok result) items results := by
  induction items generalizing results with
  | nil => cases results <;> simp
  | cons item rest step =>
    rw [List.mapM_cons, bind_eq_ok, List.forall₂_cons_left_iff]
    simp only [bind_eq_ok, step, pure_ok, Except.ok.injEq]
    constructor
    · rintro ⟨first, read, others, reads, rfl⟩
      exact ⟨first, others, read, reads, rfl⟩
    · rintro ⟨first, others, read, reads, rfl⟩
      exact ⟨first, read, others, reads, rfl⟩

theorem mapM_at {read : α → Except ε β} {items : List α} {results : List β} {place : Nat} {result : β}
    (reads : items.mapM read = .ok results) (found : results[place]? = some result) :
    ∃ item, items[place]? = some item ∧ read item = .ok result := by
  have each := mapM_eq_ok.mp reads
  clear reads
  induction each generalizing place with
  | nil => cases found
  | @cons item _ _ _ head _ step =>
    cases place with
    | zero =>
      cases found
      exact ⟨item, rfl, head⟩
    | succ place => exact step found

theorem mapM_views {γ : Type} {read : α → Except ε β} {before : α → γ} {after : β → γ} {items : List α}
    {results : List β} (reads : items.mapM read = .ok results)
    (agree : ∀ item result, read item = .ok result → after result = before item) :
    results.map after = items.map before := by
  have each := mapM_eq_ok.mp reads
  clear reads
  induction each with
  | nil => rfl
  | cons head _ step => rw [List.map_cons, List.map_cons, agree _ _ head, step]

theorem mapM_filter {read : α → Except ε β} {keep : α → Bool} {keep' : β → Bool} {items : List α}
    {results : List β} (reads : items.mapM read = .ok results)
    (agree : ∀ item result, read item = .ok result → keep' result = keep item) :
    (items.filter keep).mapM read = .ok (results.filter keep') := by
  have each := mapM_eq_ok.mp reads
  clear reads
  rw [mapM_eq_ok]
  induction each with
  | nil => exact .nil
  | @cons item result _ _ head _ step =>
    rw [List.filter_cons, List.filter_cons, agree item result head]
    split
    · exact .cons head step
    · exact step

theorem mapM_source {read : α → Except ε β} {items : List α} {results : List β} {result : β}
    (reads : items.mapM read = .ok results) (member : result ∈ results) :
    ∃ item ∈ items, read item = .ok result := by
  have each := mapM_eq_ok.mp reads
  clear reads
  induction each with
  | nil => cases member
  | cons head _ step =>
    cases member with
    | head => exact ⟨_, by simp, head⟩
    | tail _ member =>
      obtain ⟨item, inside, read⟩ := step member
      exact ⟨item, by simp [inside], read⟩

theorem mapM_congr {read other : α → Except ε β} {items : List α}
    (same : ∀ item ∈ items, read item = other item) : items.mapM read = items.mapM other := by
  induction items with
  | nil => rfl
  | cons item rest step =>
    obtain ⟨head, tail⟩ := List.forall_mem_cons.mp same
    rw [List.mapM_cons, List.mapM_cons, head, step tail]

theorem mapM_eq_error {read : α → Except ε β} {items : List α} {reason : ε} :
    items.mapM read = .error reason ↔
      ∃ before item after, items = before ++ item :: after ∧
        (∀ earlier ∈ before, ∃ result, read earlier = .ok result) ∧ read item = .error reason := by
  induction items with
  | nil => simp
  | cons head rest step =>
    simp only [List.mapM_cons, bind_eq_error, step, pure_ok, reduceCtorEq, and_false, exists_false, or_false]
    constructor
    · rintro (fails | ⟨value, read, before, item, after, rfl, passed, fails⟩)
      · exact ⟨[], head, rest, rfl, by simp, fails⟩
      · exact ⟨head :: before, item, after, rfl, List.forall_mem_cons.mpr ⟨⟨value, read⟩, passed⟩, fails⟩
    · rintro ⟨before, item, after, order, passed, fails⟩
      cases before with
      | nil =>
        cases order
        exact .inl fails
      | cons first before =>
        cases order
        obtain ⟨⟨value, read⟩, passed⟩ := List.forall_mem_cons.mp passed
        exact .inr ⟨value, read, before, item, after, rfl, passed, fails⟩

theorem mapM_succeeds {read : α → Except ε β} {items : List α} :
    (∃ results, items.mapM read = .ok results) ↔ ∀ item ∈ items, ∃ result, read item = .ok result := by
  simp only [mapM_eq_ok]
  induction items with
  | nil => simp
  | cons item rest step =>
    rw [List.forall_mem_cons, ← step]
    constructor
    · rintro ⟨results, reads⟩
      cases reads with
      | cons read others => exact ⟨⟨_, read⟩, ⟨_, others⟩⟩
    · rintro ⟨⟨result, read⟩, ⟨results, others⟩⟩
      exact ⟨result :: results, .cons read others⟩

end Concord
