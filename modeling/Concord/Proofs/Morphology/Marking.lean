import Concord.Morphology.Morphemes
import Concord.Proofs.Feature.Overlay
import Concord.Proofs.Text.Search

namespace Concord

namespace MorphemeList

def Holds (morpheme marker : String) : Prop := marker.toList <:+: morpheme.toList

def Marked (morphemes : List String) : Prop :=
  ∃ morpheme ∈ morphemes, ∃ row ∈ personMarkers, Holds morpheme row.marker

-- The last row, in the order of the table, that the last marked morpheme holds.
def Decides (morphemes : List String) (row : PersonMarker) : Prop :=
  ∃ front morpheme back before after, morphemes = front ++ morpheme :: back ∧ ¬ Marked back ∧
    personMarkers = before ++ row :: after ∧ Holds morpheme row.marker ∧
      ∀ other ∈ after, ¬ Holds morpheme other.marker

-- Past goes before future and future before present, wherever they stand in the list.
inductive Tense (morphemes : List String) : Option String → Prop
  | past (past : ∃ morpheme ∈ morphemes, Holds morpheme "Past") : Tense morphemes (some "Past")
  | future (past : ¬ ∃ morpheme ∈ morphemes, Holds morpheme "Past")
      (future : ∃ morpheme ∈ morphemes, Holds morpheme "Fut") : Tense morphemes (some "Future")
  | present (past : ¬ ∃ morpheme ∈ morphemes, Holds morpheme "Past")
      (future : ¬ ∃ morpheme ∈ morphemes, Holds morpheme "Fut")
      (present : ∃ morpheme ∈ morphemes, morpheme ∈ presentMorphemes) : Tense morphemes (some "Present")
  | absent (past : ¬ ∃ morpheme ∈ morphemes, Holds morpheme "Past")
      (future : ¬ ∃ morpheme ∈ morphemes, Holds morpheme "Fut")
      (present : ¬ ∃ morpheme ∈ morphemes, morpheme ∈ presentMorphemes) : Tense morphemes none

variable {morphemes others : List String} {row : PersonMarker}

theorem any_holds {marker : String} :
    morphemes.any (Text.contains · marker) = true ↔ ∃ morpheme ∈ morphemes, Holds morpheme marker := by
  simp only [List.any_eq_true, Text.contains_iff, Holds]

theorem tense?_tense (morphemes : List String) : Tense morphemes (tense? morphemes) := by
  unfold tense?
  split
  · next past => exact .past (any_holds.mp past)
  · next past =>
    split
    · next future => exact .future (mt any_holds.mpr past) (any_holds.mp future)
    · next future =>
      split
      · next present =>
        exact .present (mt any_holds.mpr past) (mt any_holds.mpr future) (by simpa using present)
      · next present =>
        exact .absent (mt any_holds.mpr past) (mt any_holds.mpr future) (by simpa using present)

theorem tense?_perm (order : others.Perm morphemes) : tense? others = tense? morphemes := by
  unfold tense?
  rw [order.any_eq, order.any_eq, order.any_eq]

def rowsIn (morpheme : String) : List PersonMarker :=
  personMarkers.filter fun row => Text.contains morpheme row.marker

theorem markersIn_cons (morpheme : String) (rest : List String) :
    markersIn (morpheme :: rest) = rowsIn morpheme ++ markersIn rest := rfl

theorem markersIn_append (morphemes others : List String) :
    markersIn (morphemes ++ others) = markersIn morphemes ++ markersIn others := List.flatMap_append

theorem marked_iff : Marked morphemes ↔ markersIn morphemes ≠ [] := by
  unfold markersIn Marked Holds
  simp only [Ne, List.flatMap_eq_nil_iff, List.filter_eq_nil_iff, Text.contains_iff, not_forall, not_not,
    exists_prop]

instance (morphemes : List String) : Decidable (Marked morphemes) :=
  decidable_of_iff (markersIn morphemes ≠ []) marked_iff.symm

theorem markersIn_unmarked (unmarked : ¬ Marked morphemes) : markersIn morphemes = [] :=
  not_not.mp (mt marked_iff.mpr unmarked)

theorem Marked.last (marked : Marked morphemes) : ∃ row, (markersIn morphemes).getLast? = some row := by
  rw [← Option.isSome_iff_exists, ← Option.ne_none_iff_isSome, Ne, List.getLast?_eq_none_iff]
  exact marked_iff.mp marked

theorem rowsIn_getLast? {morpheme : String} :
    (rowsIn morpheme).getLast? = some row ↔
      ∃ before after, personMarkers = before ++ row :: after ∧ Holds morpheme row.marker ∧
        ∀ other ∈ after, ¬ Holds morpheme other.marker := by
  unfold rowsIn Holds
  simp only [← Text.contains_iff]
  constructor
  · intro last
    obtain ⟨front, order⟩ := List.getLast?_eq_some_iff.mp last
    obtain ⟨passed, behind, whole, -, order⟩ := List.filter_eq_append_iff.mp order
    obtain ⟨between, after, rfl, -, holds, none⟩ := List.filter_eq_cons_iff.mp order
    exact ⟨passed ++ between, after, by simp [whole], holds, List.filter_eq_nil_iff.mp none⟩
  · rintro ⟨before, after, whole, holds, none⟩
    rw [whole, List.filter_append, List.filter_cons, if_pos holds, List.filter_eq_nil_iff.mpr none]
    exact List.getLast?_concat

theorem mem_personMarkers (member : row ∈ markersIn morphemes) : row ∈ personMarkers := by
  obtain ⟨morpheme, -, held⟩ := List.mem_flatMap.mp member
  exact List.mem_of_mem_filter held

-- A marker in what follows goes before all markers in front of it.
theorem decides_cons {morpheme : String} {rest : List String} :
    Decides (morpheme :: rest) row ↔
      Decides rest row ∨ ¬ Marked rest ∧ (rowsIn morpheme).getLast? = some row := by
  rw [rowsIn_getLast?]
  constructor
  · rintro ⟨front, last, back, before, after, order, unmarked, decided⟩
    cases front with
    | nil =>
      cases order
      exact .inr ⟨unmarked, before, after, decided⟩
    | cons first front =>
      cases order
      exact .inl ⟨front, last, back, before, after, rfl, unmarked, decided⟩
  · rintro (⟨front, last, back, before, after, rfl, decided⟩ | ⟨unmarked, before, after, decided⟩)
    · exact ⟨morpheme :: front, last, back, before, after, rfl, decided⟩
    · exact ⟨[], morpheme, rest, before, after, rfl, unmarked, decided⟩

theorem markersIn_getLast? : (markersIn morphemes).getLast? = some row ↔ Decides morphemes row := by
  induction morphemes with
  | nil => simp [markersIn, Decides]
  | cons morpheme rest step =>
    rw [markersIn_cons, List.getLast?_append, decides_cons, ← step, marked_iff, not_not,
      ← List.getLast?_eq_none_iff]
    cases (markersIn rest).getLast? with
    | none => simp
    | some last => simp

end MorphemeList

namespace Features

open MorphemeList

def mark (features : Features) (row : PersonMarker) : Features :=
  (features.insert .person row.person).insert .number row.number

def markAll (features : Features) (morpheme : String) : Features :=
  personMarkers.foldl (fun features row => if Text.contains morpheme row.marker then features.mark row else features)
    features

variable {morphemes others : List String} {row : PersonMarker}

theorem mark_mark (features : Features) (first second : PersonMarker) :
    (features.mark first).mark second = features.mark second := rfl

theorem foldl_mark (features : Features) (rows : List PersonMarker) :
    rows.foldl mark features = match rows.getLast? with
      | none => features
      | some row => features.mark row := by
  induction rows using List.reverseRecOn with
  | nil => rfl
  | append_singleton rows last step =>
    rw [List.foldl_append, step, List.getLast?_concat]
    cases rows.getLast? with
    | none => rfl
    | some row => exact mark_mark features row last

theorem foldl_markAll (features : Features) (morphemes : List String) :
    morphemes.foldl markAll features = (markersIn morphemes).foldl mark features := by
  unfold markersIn
  rw [List.foldl_flatMap]
  congr 1
  funext features morpheme
  rw [List.foldl_filter]
  rfl

def ofMarkers (morphemes : List String) : Features where
  person := (markersIn morphemes).getLast?.map (·.person)
  tense := tense? morphemes
  number := (markersIn morphemes).getLast?.map (·.number)

theorem ofMorphemes_eq (morphemes : List String) : ofMorphemes morphemes = (ofMarkers morphemes).orUnspecified := rfl

theorem ofMarkers_eq_foldl (morphemes : List String) :
    ofMarkers morphemes = morphemes.foldl markAll { tense := tense? morphemes } := by
  rw [foldl_markAll, foldl_mark]
  unfold ofMarkers
  cases (markersIn morphemes).getLast? <;> rfl

theorem get_ofMorphemes (morphemes : List String) (axis : Axis) (marked : axis ≠ .other) :
    (ofMorphemes morphemes).get axis = (ofMarkers morphemes).get axis :=
  (get_orUnspecified _ axis).trans (if_neg fun both => marked both.2)

theorem ofMorphemes_person (morphemes : List String) :
    (ofMorphemes morphemes).person = (markersIn morphemes).getLast?.map (·.person) :=
  get_ofMorphemes morphemes .person (by decide)

theorem ofMorphemes_tense (morphemes : List String) : (ofMorphemes morphemes).tense = tense? morphemes :=
  get_ofMorphemes morphemes .tense (by decide)

theorem ofMorphemes_number (morphemes : List String) :
    (ofMorphemes morphemes).number = (markersIn morphemes).getLast?.map (·.number) :=
  get_ofMorphemes morphemes .number (by decide)

theorem ofMarkers_isEmpty (morphemes : List String) :
    (ofMarkers morphemes).isEmpty = true ↔
      (ofMorphemes morphemes).tense = none ∧ (ofMorphemes morphemes).person = none ∧
        (ofMorphemes morphemes).number = none := by
  rw [ofMorphemes_person, ofMorphemes_tense, ofMorphemes_number, isEmpty_iff]
  constructor
  · intro missing
    exact ⟨missing .tense, missing .person, missing .number⟩
  · rintro ⟨tense, person, number⟩ axis
    cases axis with
    | person => exact person
    | tense => exact tense
    | number => exact number
    | other => rfl

theorem ofMorphemes_other (morphemes : List String) :
    (ofMorphemes morphemes).other =
      if (ofMorphemes morphemes).tense = none ∧ (ofMorphemes morphemes).person = none ∧
        (ofMorphemes morphemes).number = none then some "other" else none := by
  have collapsed := get_orUnspecified (ofMarkers morphemes) .other
  simp only [and_true, ofMarkers_isEmpty] at collapsed
  exact collapsed

theorem ofMorphemes_nonempty (morphemes : List String) : (ofMorphemes morphemes).isEmpty = false := by
  rw [Bool.eq_false_iff]
  intro empty
  have missing := isEmpty_iff.mp empty
  have other := ofMorphemes_other morphemes
  rw [if_pos ⟨missing .tense, missing .person, missing .number⟩] at other
  cases (missing .other).symm.trans other

structure Marks (morphemes : List String) (features : Features) : Prop where
  tense : Tense morphemes features.tense
  decided : ∀ row, Decides morphemes row → features.person = some row.person ∧ features.number = some row.number
  row : Marked morphemes → ∃ row ∈ personMarkers, Decides morphemes row
  unmarked : ¬ Marked morphemes → features.person = none ∧ features.number = none
  other : features.other =
    if features.tense = none ∧ features.person = none ∧ features.number = none then some "other" else none
  nonempty : features.isEmpty = false

theorem ofMorphemes_marks (morphemes : List String) : Marks morphemes (ofMorphemes morphemes) where
  tense := by
    rw [ofMorphemes_tense]
    exact tense?_tense morphemes
  decided := by
    intro row decides
    rw [ofMorphemes_person, ofMorphemes_number, markersIn_getLast?.mpr decides]
    exact ⟨rfl, rfl⟩
  row := by
    intro marked
    obtain ⟨row, last⟩ := marked.last
    exact ⟨row, mem_personMarkers (List.mem_of_getLast? last), markersIn_getLast?.mp last⟩
  unmarked := by
    intro unmarked
    rw [ofMorphemes_person, ofMorphemes_number, markersIn_unmarked unmarked]
    exact ⟨rfl, rfl⟩
  other := ofMorphemes_other morphemes
  nonempty := ofMorphemes_nonempty morphemes

theorem ofMorphemes_append_marked (morphemes : List String) (marked : Marked others) :
    (ofMorphemes (morphemes ++ others)).person = (ofMorphemes others).person ∧
      (ofMorphemes (morphemes ++ others)).number = (ofMorphemes others).number := by
  obtain ⟨row, last⟩ := marked.last
  simp only [ofMorphemes_person, ofMorphemes_number, markersIn_append, List.getLast?_append, last, Option.some_or,
    and_self]

theorem ofMorphemes_append_unmarked (morphemes : List String) (unmarked : ¬ Marked others) :
    (ofMorphemes (morphemes ++ others)).person = (ofMorphemes morphemes).person ∧
      (ofMorphemes (morphemes ++ others)).number = (ofMorphemes morphemes).number := by
  simp only [ofMorphemes_person, ofMorphemes_number, markersIn_append, markersIn_unmarked unmarked, List.append_nil,
    and_self]

theorem ofMorphemes_exact (morphemes : List String) :
    Marks morphemes (ofMorphemes morphemes) ∧
    ofMorphemes morphemes = (morphemes.foldl markAll { tense := tense? morphemes }).orUnspecified ∧
    ∀ others : List String,
      (others.Perm morphemes → (ofMorphemes others).tense = (ofMorphemes morphemes).tense) ∧
      (Marked others → (ofMorphemes (morphemes ++ others)).person = (ofMorphemes others).person ∧
        (ofMorphemes (morphemes ++ others)).number = (ofMorphemes others).number) ∧
      (¬ Marked others → (ofMorphemes (morphemes ++ others)).person = (ofMorphemes morphemes).person ∧
        (ofMorphemes (morphemes ++ others)).number = (ofMorphemes morphemes).number) := by
  refine ⟨ofMorphemes_marks morphemes, ?_, ?_⟩
  · rw [ofMorphemes_eq, ofMarkers_eq_foldl]
  · intro others
    refine ⟨?_, ofMorphemes_append_marked morphemes, ofMorphemes_append_unmarked morphemes⟩
    intro order
    rw [ofMorphemes_tense, ofMorphemes_tense, tense?_perm order]

-- One morpheme holds two markers: their places in the table decide, not those in the morpheme.
theorem p2pl1sg_marks :
    Marked ["A3sg", "P2pl1sg"] ∧ Decides ["A3sg", "P2pl1sg"] ⟨"2pl", "2ndPL", "Plural"⟩ ∧
      (ofMorphemes (["Aor"] ++ ["A3sg", "P2pl1sg"])).person = some "2ndPL" ∧
      (ofMorphemes (["Aor"] ++ ["A3sg", "P2pl1sg"])).number = some "Plural" ∧
    ¬ Marked ["Aor"] ∧
      (ofMorphemes (["A3sg", "P2pl1sg"] ++ ["Aor"])).person = some "2ndPL" ∧
      (ofMorphemes (["A3sg", "P2pl1sg"] ++ ["Aor"])).number = some "Plural" ∧
    ["Past", "Aor"].Perm ["Aor", "Past"] ∧
      (ofMorphemes ["Past", "Aor"]).tense = (ofMorphemes ["Aor", "Past"]).tense := by
  have marked : Marked ["A3sg", "P2pl1sg"] := by decide
  have unmarked : ¬ Marked ["Aor"] := by decide
  have decides : Decides ["A3sg", "P2pl1sg"] ⟨"2pl", "2ndPL", "Plural"⟩ := markersIn_getLast?.mp rfl
  have order : ["Past", "Aor"].Perm ["Aor", "Past"] := .swap _ _ _
  obtain ⟨marks, -, joined⟩ := ofMorphemes_exact ["A3sg", "P2pl1sg"]
  obtain ⟨person, number⟩ := marks.decided _ decides
  obtain ⟨personAfter, numberAfter⟩ := ((ofMorphemes_exact ["Aor"]).2.2 ["A3sg", "P2pl1sg"]).2.1 marked
  obtain ⟨personBefore, numberBefore⟩ := (joined ["Aor"]).2.2 unmarked
  exact ⟨marked, decides, personAfter.trans person, numberAfter.trans number, unmarked, personBefore.trans person,
    numberBefore.trans number, order, ((ofMorphemes_exact ["Aor", "Past"]).2.2 ["Past", "Aor"]).1 order⟩

end Features
end Concord
