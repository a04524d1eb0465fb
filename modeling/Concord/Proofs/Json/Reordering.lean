import Concord.Json.Decode
import Concord.Proofs.Dictionary
import Mathlib.Data.List.Forall2

namespace Concord

section Reading

variable {α β : Type} {read : α → Option β} {items others : List α} {results : List β}

theorem readAll_eq_some :
    items.mapM read = some results ↔ List.Forall₂ (fun item result => read item = some result) items results := by
  induction items generalizing results with
  | nil => cases results <;> simp
  | cons item rest step =>
    rw [List.forall₂_cons_left_iff]
    simp only [List.mapM_cons, Option.bind_eq_bind, Option.bind_eq_some_iff, Option.pure_def, Option.some.injEq, step]
    constructor
    · intro read
      obtain ⟨first, head, others, tail, rfl⟩ := read
      exact ⟨first, others, head, tail, rfl⟩
    · intro read
      obtain ⟨first, others, head, tail, rfl⟩ := read
      exact ⟨first, head, others, tail, rfl⟩

theorem readAll_perm (order : items.Perm others) (reads : items.mapM read = some results) :
    ∃ results', others.mapM read = some results' ∧ results.Perm results' := by
  obtain ⟨results', reads', order'⟩ := List.perm_comp_forall₂ order.symm (readAll_eq_some.mp reads)
  exact ⟨results', readAll_eq_some.mpr reads', order'.symm⟩

theorem readAll_congr (same : List.Forall₂ (fun a b => read a = read b) items others) :
    items.mapM read = others.mapM read := by
  induction same with
  | nil => rfl
  | cons head _ step => rw [List.mapM_cons, List.mapM_cons, head, step]

theorem readAll_rel {relation : β → β → Prop} {other : α → Option β}
    (each : ∀ item, Option.Rel relation (read item) (other item)) :
    Option.Rel (List.Forall₂ relation) (items.mapM read) (items.mapM other) := by
  induction items with
  | nil => exact .some .nil
  | cons item rest step =>
    have head := each item
    rw [List.mapM_cons, List.mapM_cons]
    generalize read item = here, other item = there at head
    generalize rest.mapM read = behind, rest.mapM other = further at step
    cases head with
    | none => exact .none
    | some head =>
      cases step with
      | none => exact .none
      | some tail => exact .some (.cons head tail)

end Reading

namespace Json

-- The same value up to the order of the members of its objects, at any depth: the values of the members
-- are reordered, then the members themselves.
inductive Reordered : Json → Json → Prop where
  | refl (json : Json) : Reordered json json
  | array {items others : List Json} (each : List.Forall₂ Reordered items others) :
      Reordered (.array items) (.array others)
  | object {members middle others : List (JsonText × Json)}
      (keys : members.map Prod.fst = middle.map Prod.fst)
      (values : List.Forall₂ Reordered (members.map Prod.snd) (middle.map Prod.snd))
      (order : middle.Perm others) : Reordered (.object members) (.object others)

-- No object has a key twice. Keys that are no text are no keys of anything that is read.
inductive Distinct : Json → Prop where
  | null : Distinct .null
  | bool (value : Bool) : Distinct (.bool value)
  | number (value : Option Int) : Distinct (.number value)
  | text (value : JsonText) : Distinct (.text value)
  | array {items : List Json} (each : ∀ item ∈ items, Distinct item) : Distinct (.array items)
  | object {members : List (JsonText × Json)} (keys : (members.filterMap Prod.fst).Nodup)
      (each : ∀ member ∈ members, Distinct member.2) : Distinct (.object members)

@[simp] theorem distinct_array {items : List Json} : Distinct (.array items) ↔ ∀ item ∈ items, Distinct item := by
  constructor
  · intro distinct
    cases distinct with
    | array each => exact each
  · exact .array

@[simp] theorem distinct_object {members : List (JsonText × Json)} :
    Distinct (.object members) ↔
      (members.filterMap Prod.fst).Nodup ∧ ∀ member ∈ members, Distinct member.2 := by
  constructor
  · intro distinct
    cases distinct with
    | object keys each => exact ⟨keys, each⟩
  · intro distinct
    exact .object distinct.1 distinct.2

structure Same (json other : Json) : Prop where
  distinct : json.Distinct
  reordered : json.Reordered other

def SameMember (member other : JsonText × Json) : Prop := member.1 = other.1 ∧ Same member.2 other.2

variable {items others : List Json} {members middle rest : List (JsonText × Json)} {other : Json}

theorem same_items (distinct : ∀ item ∈ items, Distinct item) (each : List.Forall₂ Reordered items others) :
    List.Forall₂ Same items others :=
  ((List.forall₂_and_left items others).mpr ⟨distinct, each⟩).imp fun _ _ both => ⟨both.1, both.2⟩

theorem same_members (distinct : ∀ member ∈ members, Distinct member.2)
    (keys : members.map Prod.fst = middle.map Prod.fst)
    (values : List.Forall₂ Reordered (members.map Prod.snd) (middle.map Prod.snd)) :
    List.Forall₂ SameMember members middle := by
  induction members generalizing middle with
  | nil =>
    cases middle with
    | nil => exact .nil
    | cons => cases keys
  | cons member rest step =>
    cases middle with
    | nil => cases keys
    | cons other middle =>
      obtain ⟨first, distinct⟩ := List.forall_mem_cons.mp distinct
      obtain ⟨key, keys⟩ := List.cons.inj keys
      cases values with
      | cons value values => exact .cons ⟨key, first, value⟩ (step distinct keys values)

theorem sameMembers_keys (each : List.Forall₂ SameMember members middle) :
    members.map Prod.fst = middle.map Prod.fst := by
  rw [← List.forall₂_eq_eq_eq, List.forall₂_map_left_iff, List.forall₂_map_right_iff]
  exact each.imp fun _ _ both => both.1

theorem Same.array_parts (same : Same (.array items) other) :
    ∃ others, other = .array others ∧ List.Forall₂ Same items others := by
  have distinct := distinct_array.mp same.distinct
  cases same.reordered with
  | refl => exact ⟨items, rfl, same_items distinct (List.forall₂_same.mpr fun item _ => .refl item)⟩
  | array each => exact ⟨_, rfl, same_items distinct each⟩

theorem Same.object_parts (same : Same (.object members) other) :
    ∃ middle rest, other = .object rest ∧ List.Forall₂ SameMember members middle ∧ middle.Perm rest ∧
      (middle.filterMap Prod.fst).Nodup := by
  obtain ⟨keys, distinct⟩ := distinct_object.mp same.distinct
  cases same.reordered with
  | refl =>
    have values : List.Forall₂ Reordered (members.map Prod.snd) (members.map Prod.snd) :=
      List.forall₂_same.mpr fun value _ => .refl value
    exact ⟨members, members, rfl, same_members distinct rfl values, .refl _, keys⟩
  | @object _ middle rest kept values order =>
    have unique : (middle.filterMap Prod.fst).Nodup := by
      have named (list : List (JsonText × Json)) : list.filterMap Prod.fst = (list.map Prod.fst).filterMap id := by
        rw [List.filterMap_map]
        rfl
      rwa [named, ← kept, ← named]
    exact ⟨middle, rest, rfl, same_members distinct kept values, order, unique⟩

def OrderFree {α : Type} (value? : Json → Option α) : Prop :=
  ∀ json other, Same json other → value? json = value? other

theorem text?_orderFree : OrderFree text? := by
  intro json other same
  cases same.reordered <;> rfl

theorem integer?_orderFree : OrderFree integer? := by
  intro json other same
  cases same.reordered <;> rfl

variable {α : Type} {value? : Json → Option α}

theorem OrderFree.listOf? (free : OrderFree value?) : OrderFree (listOf? value?) := by
  intro json other same
  cases json with
  | array items =>
    obtain ⟨others, rfl, each⟩ := same.array_parts
    exact readAll_congr (each.imp free)
  | _ => cases same.reordered <;> rfl

theorem OrderFree.orNull? (free : OrderFree value?) : OrderFree (orNull? value?) := by
  intro json other same
  have kept := free json other same
  cases same.reordered with
  | refl => rfl
  | array each => exact congrArg (Option.map some) kept
  | object keys values order => exact congrArg (Option.map some) kept

theorem member?_keys {results : List (String × α)} (reads : members.mapM (member? value?) = some results) :
    members.filterMap Prod.fst = results.map Prod.fst := by
  have each := readAll_eq_some.mp reads
  clear reads
  induction each with
  | nil => rfl
  | cons head _ step =>
    simp only [member?, Option.pure_def, Option.bind_eq_bind, Option.bind_eq_some_iff, Option.some.injEq] at head
    obtain ⟨key, named, value, _, rfl⟩ := head
    rw [List.filterMap_cons_some named, step, List.map_cons]

-- What the members are read as is no longer in one order, but the dictionary of it is.
theorem OrderFree.dictionaryOf? (free : OrderFree value?) : OrderFree (dictionaryOf? value?) := by
  intro json other same
  cases json with
  | object members =>
    obtain ⟨middle, rest, rfl, each, order, distinct⟩ := same.object_parts
    have first : members.mapM (member? value?) = middle.mapM (member? value?) := by
      refine readAll_congr (each.imp ?_)
      intro member other both
      rw [member?, member?, both.1, free _ _ both.2]
    change (members.mapM (member? value?)).map _ = (rest.mapM (member? value?)).map _
    rw [first]
    cases read : middle.mapM (member? value?) with
    | none =>
      cases again : rest.mapM (member? value?) with
      | none => rfl
      | some results =>
        obtain ⟨_, reads, _⟩ := readAll_perm order.symm again
        rw [read] at reads
        cases reads
    | some results =>
      obtain ⟨results', reads, order'⟩ := readAll_perm order read
      rw [reads, Option.map_some, Option.map_some]
      refine congrArg some (Dictionary.ofList_perm ?_ order')
      rwa [← member?_keys read]
  | _ => cases same.reordered <;> rfl

theorem OrderFree.optional? (free : OrderFree value?) {field field' : Option Json}
    (same : Option.Rel Same field field') : optional? value? field = optional? value? field' := by
  cases same with
  | none => rfl
  | some same => exact free.orNull? _ _ same

theorem field?_same (each : List.Forall₂ SameMember members middle) (order : middle.Perm rest) (name : String) :
    Option.Rel (Option.Rel Same) (field? members name) (field? rest name) := by
  have named : ∀ member other, SameMember member other →
      ((decide (member.1 = some name)) = true ↔ (decide (other.1 = some name)) = true) := by
    intro member other both
    rw [both.1]
  have fields := List.rel_filter (fun member other both => named member other both) each
  have order := order.filter fun member => member.1 = some name
  unfold field?
  generalize members.filter (fun member => member.1 = some name) = these at fields
  generalize middle.filter (fun member => member.1 = some name) = kept at fields order
  generalize rest.filter (fun member => member.1 = some name) = those at order
  cases fields with
  | nil =>
    cases order.nil_eq
    exact .some .none
  | cons both more =>
    cases more with
    | nil =>
      cases order.singleton_eq
      exact .some (.some both.2)
    | cons _ more =>
      have count := order.length_eq
      match those, count with
      | _ :: _ :: _, _ => exact .none

theorem fields?_same {json : Json} (same : Same json other) (names : List String) :
    Option.Rel (List.Forall₂ (Option.Rel Same)) (fields? names json) (fields? names other) := by
  cases json with
  | array items =>
    obtain ⟨others, rfl, each⟩ := same.array_parts
    simp only [fields?, ← each.length_eq]
    split
    · refine .some ?_
      rw [List.forall₂_map_left_iff, List.forall₂_map_right_iff]
      exact each.imp fun _ _ same => .some same
    · exact .none
  | object members =>
    obtain ⟨middle, rest, rfl, each, order, _⟩ := same.object_parts
    have keyed (list : List (JsonText × Json)) :
        (list.all fun member => member.1.isSome) = (list.map Prod.fst).all Option.isSome := by
      rw [List.all_map]
      rfl
    have readable : (members.all fun member => member.1.isSome) = rest.all fun member => member.1.isSome := by
      rw [keyed members, keyed rest, sameMembers_keys each, (order.map Prod.fst).all_eq]
    simp only [fields?, readable]
    split
    · exact readAll_rel fun name => field?_same each order name
    · exact .none
  | _ =>
    cases same.reordered
    exact .none

end Json
end Concord
