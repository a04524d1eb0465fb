import Mathlib.Data.List.Basic
import Mathlib.Data.List.Induction

namespace Concord

variable {α : Type} [DecidableEq α]

structure FirstOccurrences (items kept : List α) : Prop where
  nodup : kept.Nodup
  mem_iff : ∀ item, item ∈ kept ↔ item ∈ items
  ordered : kept.Pairwise fun a b => items.idxOf a < items.idxOf b

-- Seen from the end, a last item is kept just when nothing before it is the same.
theorem eraseDups_concat (items : List α) (last : α) :
    (items ++ [last]).eraseDups =
      if last ∈ items then items.eraseDups else items.eraseDups ++ [last] := by
  rw [List.eraseDups_append]
  split
  · next again => simp [List.removeAll, again]
  · next fresh => simp [List.removeAll, fresh, List.eraseDups_cons]

theorem eraseDups_filter (keep : α → Bool) (items : List α) :
    (items.filter keep).eraseDups = items.eraseDups.filter keep := by
  induction items using List.reverseRecOn with
  | nil => rfl
  | append_singleton items last step =>
    rw [List.filter_append, eraseDups_concat]
    by_cases kept : keep last = true
    · by_cases again : last ∈ items
      · simp [kept, again, eraseDups_concat, step]
      · simp [kept, again, eraseDups_concat, step]
    · by_cases again : last ∈ items
      · simp [kept, again, step]
      · simp [kept, again, step]

theorem eraseDups_append_congr {front front' back back' : List α} (fronts : front.eraseDups = front'.eraseDups)
    (backs : back.eraseDups = back'.eraseDups) : (front ++ back).eraseDups = (front' ++ back').eraseDups := by
  have members (item : α) : item ∈ front ↔ item ∈ front' := by
    rw [← List.mem_eraseDups, fronts, List.mem_eraseDups]
  rw [List.eraseDups_append, List.eraseDups_append, List.removeAll, List.removeAll, eraseDups_filter,
    eraseDups_filter, fronts, backs]
  simp [members]

theorem eraseDups_flatMap_congr {β : Type} {parts parts' : β → List α} {sources : List β}
    (same : ∀ source ∈ sources, (parts source).eraseDups = (parts' source).eraseDups) :
    (sources.flatMap parts).eraseDups = (sources.flatMap parts').eraseDups := by
  induction sources with
  | nil => rfl
  | cons source rest step =>
    obtain ⟨head, tail⟩ := List.forall_mem_cons.mp same
    exact eraseDups_append_congr head (step tail)

theorem eraseDups_replicate (times : Nat) (item : α) :
    (List.replicate times item).eraseDups = if times = 0 then [] else [item] := by
  cases times with
  | zero => rfl
  | succ more => simp [List.replicate_succ, List.eraseDups_cons]

theorem nodup_eraseDups (items : List α) : items.eraseDups.Nodup := by
  induction items using List.reverseRecOn with
  | nil => exact List.nodup_nil
  | append_singleton items last step =>
    rw [eraseDups_concat]
    split
    · exact step
    · next fresh =>
      refine List.nodup_append.mpr ⟨step, by simp, ?_⟩
      intro a member b new
      cases List.mem_singleton.mp new
      exact ne_of_mem_of_not_mem (List.mem_eraseDups.mp member) fresh

theorem eraseDups_ordered (items : List α) :
    items.eraseDups.Pairwise fun a b => items.idxOf a < items.idxOf b := by
  induction items using List.reverseRecOn with
  | nil => exact List.Pairwise.nil
  | append_singleton items last step =>
    have before : items.eraseDups.Pairwise fun a b =>
        (items ++ [last]).idxOf a < (items ++ [last]).idxOf b := by
      refine step.imp_of_mem ?_
      intro a b memberA memberB earlier
      rwa [List.idxOf_append_of_mem (List.mem_eraseDups.mp memberA),
        List.idxOf_append_of_mem (List.mem_eraseDups.mp memberB)]
    rw [eraseDups_concat]
    split
    · exact before
    · next fresh =>
      refine List.pairwise_append.mpr ⟨before, List.pairwise_singleton _ _, ?_⟩
      intro a member b new
      cases List.mem_singleton.mp new
      have early := List.mem_eraseDups.mp member
      rw [List.idxOf_append_of_mem early, List.idxOf_append_of_notMem fresh]
      exact Nat.lt_add_right _ (List.idxOf_lt_length_iff.mpr early)

theorem eraseDups_map {β : Type} [DecidableEq β] {view : α → β} {items : List α}
    (apart : ∀ a ∈ items, ∀ b ∈ items, view a = view b → a = b) :
    (items.map view).eraseDups = items.eraseDups.map view := by
  induction items using List.reverseRecOn with
  | nil => rfl
  | append_singleton items last step =>
    have earlier := step fun a member b member' => apart a (by simp [member]) b (by simp [member'])
    have again : view last ∈ items.map view ↔ last ∈ items := by
      constructor
      · intro member
        obtain ⟨item, inside, same⟩ := List.mem_map.mp member
        exact apart item (by simp [inside]) last (by simp) same ▸ inside
      · exact List.mem_map_of_mem
    rw [List.map_append, List.map_singleton, eraseDups_concat, eraseDups_concat, earlier]
    simp only [again]
    split
    · rfl
    · rw [List.map_append, List.map_singleton]

theorem firstOccurrences_eraseDups (items : List α) : FirstOccurrences items items.eraseDups :=
  ⟨nodup_eraseDups items, fun _ => List.mem_eraseDups, eraseDups_ordered items⟩

end Concord
