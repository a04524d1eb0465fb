import Mathlib.Data.List.Basic
import Concord.Cli.Options

namespace Concord.Cli

inductive Flag where
  | chart
  | bare
  | examples
  deriving DecidableEq

inductive Setting where
  | morphology
  | lexicon
  | suffixes
  | corpus
  | analyses
  deriving DecidableEq

def helpSpellings : List String := ["-h", "--help"]

def Flag.spellings : Flag → List String
  | chart => ["-c", "--chart"]
  | bare => ["--no-derivational"]
  | examples => ["-e", "--examples"]

def Setting.spellings : Setting → List String
  | morphology => ["-m", "--morphology"]
  | lexicon => ["-l", "--lexicon"]
  | suffixes => ["-s", "--suffixes"]
  | corpus => ["--corpus"]
  | analyses => ["-a", "--analyses"]

def Setting.Takes : Setting → String → Prop
  | morphology, value => value = "stemmer" ∨ value = "external"
  | _, _ => True

inductive Group where
  | flag (flag : Flag)
  | setting (setting : Setting) (value : String) (takes : setting.Takes value)
  | path (text : String) (plain : text.toList.head? ≠ some '-')
  deriving DecidableEq

inductive Group.Spells : Group → List String → Prop where
  | flag {flag : Flag} {argument : String} (listed : argument ∈ flag.spellings) : Spells (.flag flag) [argument]
  | setting {setting : Setting} {argument value : String} (takes : setting.Takes value)
      (listed : argument ∈ setting.spellings) : Spells (.setting setting value takes) [argument, value]
  | path {text : String} (plain : text.toList.head? ≠ some '-') : Spells (.path text plain) [text]

inductive Spelt : List Group → List String → Prop where
  | nil : Spelt [] []
  | cons {group : Group} {groups : List Group} {front rest : List String} (here : group.Spells front)
      (others : Spelt groups rest) : Spelt (group :: groups) (front ++ rest)

variable {flag : Flag} {setting : Setting} {argument value : String} {front rest arguments : List String}
  {group : Group} {groups others : List Group}

section Keywords

def Flag.set : Flag → Options → Options
  | chart, options => { options with showChart := true }
  | bare, options => { options with derivational := false }
  | examples, options => { options with examples := true }

def Setting.set : Setting → String → Options → Except ArgumentError Options
  | morphology, value, options => do return { options with strategy := ← Strategy.ofName value }
  | lexicon, value, options => .ok { options with lexicon := value }
  | suffixes, value, options => .ok { options with suffixes := value }
  | corpus, value, options => .ok { options with corpus := some value }
  | analyses, value, options => .ok { options with analyses := value }

inductive Means (argument : String) : Option Keyword → Prop where
  | help (listed : argument ∈ helpSpellings) : Means argument (some .help)
  | flag (flag : Flag) (listed : argument ∈ flag.spellings) : Means argument (some (.plain flag.set))
  | setting (setting : Setting) (listed : argument ∈ setting.spellings) : Means argument (some (.valued setting.set))
  | nothing : Means argument none

theorem ofName?_means (argument : String) : Means argument (Keyword.ofName? argument) := by
  unfold Keyword.ofName?
  split
  · exact .help (by decide)
  · exact .help (by decide)
  · exact .flag .chart (by decide)
  · exact .flag .chart (by decide)
  · exact .setting .morphology (by decide)
  · exact .setting .morphology (by decide)
  · exact .setting .lexicon (by decide)
  · exact .setting .lexicon (by decide)
  · exact .setting .suffixes (by decide)
  · exact .setting .suffixes (by decide)
  · exact .setting .corpus (by decide)
  · exact .flag .bare (by decide)
  · exact .setting .analyses (by decide)
  · exact .setting .analyses (by decide)
  · exact .flag .examples (by decide)
  · exact .flag .examples (by decide)
  · exact .nothing

theorem ofName?_help (listed : argument ∈ helpSpellings) : Keyword.ofName? argument = some .help := by
  have each : helpSpellings.map Keyword.ofName? = helpSpellings.map fun _ => some .help := rfl
  exact List.map_inj_left.mp each argument listed

theorem ofName?_flag (listed : argument ∈ flag.spellings) : Keyword.ofName? argument = some (.plain flag.set) := by
  have each : flag.spellings.map Keyword.ofName? = flag.spellings.map fun _ => some (.plain flag.set) := by
    cases flag <;> rfl
  exact List.map_inj_left.mp each argument listed

theorem ofName?_setting (listed : argument ∈ setting.spellings) :
    Keyword.ofName? argument = some (.valued setting.set) := by
  have each : setting.spellings.map Keyword.ofName? = setting.spellings.map fun _ => some (.valued setting.set) := by
    cases setting <;> rfl
  exact List.map_inj_left.mp each argument listed

theorem help_dashed : ∀ argument ∈ helpSpellings, argument.toList.head? = some '-' := by decide

theorem Flag.dashed (flag : Flag) : ∀ argument ∈ flag.spellings, argument.toList.head? = some '-' := by
  cases flag <;> decide

theorem Setting.dashed (setting : Setting) : ∀ argument ∈ setting.spellings, argument.toList.head? = some '-' := by
  cases setting <;> decide

theorem ofName?_plain (plain : argument.toList.head? ≠ some '-') : Keyword.ofName? argument = none := by
  have means := ofName?_means argument
  generalize Keyword.ofName? argument = keyword at means
  cases means with
  | help listed => exact absurd (help_dashed _ listed) plain
  | flag flag listed => exact absurd (flag.dashed _ listed) plain
  | setting setting listed => exact absurd (setting.dashed _ listed) plain
  | nothing => rfl

end Keywords

section Unambiguous

variable {other : Group} {all : List Group} {front' rest' : List String}

theorem Flag.unique {flag flag' : Flag} (listed : argument ∈ flag.spellings) (listed' : argument ∈ flag'.spellings) :
    flag = flag' := by
  revert argument
  cases flag <;> cases flag' <;> decide

theorem Setting.unique {setting setting' : Setting} (listed : argument ∈ setting.spellings)
    (listed' : argument ∈ setting'.spellings) : setting = setting' := by
  revert argument
  cases setting <;> cases setting' <;> decide

theorem Group.Spells.of_flag (spells : group.Spells front) (listed : argument ∈ flag.spellings)
    (same : argument :: rest = front ++ rest') : group = .flag flag ∧ rest' = rest := by
  cases spells with
  | flag listed' =>
    obtain ⟨rfl, rfl⟩ := List.cons.inj same
    obtain rfl := Flag.unique listed listed'
    exact ⟨rfl, rfl⟩
  | setting takes listed' =>
    obtain ⟨rfl, _⟩ := List.cons.inj same
    cases (ofName?_flag listed).symm.trans (ofName?_setting listed')
  | path plain =>
    obtain ⟨rfl, _⟩ := List.cons.inj same
    cases (ofName?_flag listed).symm.trans (ofName?_plain plain)

theorem Group.Spells.of_setting (spells : group.Spells front) (listed : argument ∈ setting.spellings)
    (same : argument :: value :: rest = front ++ rest') :
    ∃ takes, group = .setting setting value takes ∧ rest' = rest := by
  cases spells with
  | flag listed' =>
    obtain ⟨rfl, _⟩ := List.cons.inj same
    cases (ofName?_setting listed).symm.trans (ofName?_flag listed')
  | setting takes listed' =>
    obtain ⟨rfl, others⟩ := List.cons.inj same
    obtain ⟨rfl, rfl⟩ := List.cons.inj others
    obtain rfl := Setting.unique listed listed'
    exact ⟨takes, rfl, rfl⟩
  | path plain =>
    obtain ⟨rfl, _⟩ := List.cons.inj same
    cases (ofName?_setting listed).symm.trans (ofName?_plain plain)

theorem Group.Spells.of_path (spells : group.Spells front) (plain : argument.toList.head? ≠ some '-')
    (same : argument :: rest = front ++ rest') : group = .path argument plain ∧ rest' = rest := by
  cases spells with
  | flag listed =>
    obtain ⟨rfl, _⟩ := List.cons.inj same
    cases (ofName?_plain plain).symm.trans (ofName?_flag listed)
  | setting takes listed =>
    obtain ⟨rfl, _⟩ := List.cons.inj same
    cases (ofName?_plain plain).symm.trans (ofName?_setting listed)
  | path plain' =>
    obtain ⟨rfl, rfl⟩ := List.cons.inj same
    exact ⟨rfl, rfl⟩

theorem Group.Spells.apart (here : group.Spells front) (there : other.Spells front')
    (same : front ++ rest = front' ++ rest') : other = group ∧ rest' = rest := by
  cases here with
  | flag listed => exact there.of_flag listed same
  | setting takes listed =>
    obtain ⟨_, rfl, rfl⟩ := there.of_setting listed same
    exact ⟨rfl, rfl⟩
  | path plain => exact there.of_path plain same

theorem Group.Spells.ne_nil (spells : group.Spells front) : front ≠ [] := by
  cases spells <;> simp

theorem Group.Spells.cons_iff (here : group.Spells front) :
    Spelt all (front ++ rest) ↔ ∃ later, Spelt later rest ∧ all = group :: later := by
  constructor
  · generalize whole : front ++ rest = arguments
    rintro (_ | ⟨there, others⟩)
    · exact absurd (List.append_eq_nil_iff.mp whole).1 here.ne_nil
    · obtain ⟨rfl, rfl⟩ := here.apart there whole
      exact ⟨_, others, rfl⟩
  · rintro ⟨later, others, rfl⟩
    exact .cons here others

theorem Spelt.append_iff (spelt : Spelt groups front) :
    Spelt all (front ++ rest) ↔ ∃ later, Spelt later rest ∧ all = groups ++ later := by
  induction spelt generalizing all with
  | nil => simp
  | cons here _ step =>
    rw [List.append_assoc, here.cons_iff]
    constructor
    · rintro ⟨middle, tail, rfl⟩
      obtain ⟨later, spelt, rfl⟩ := step.mp tail
      exact ⟨later, spelt, rfl⟩
    · rintro ⟨later, spelt, rfl⟩
      exact ⟨_, step.mpr ⟨later, spelt, rfl⟩, rfl⟩

theorem spelt_nothing (spelt : Spelt groups []) : groups = [] := by
  generalize none : [] = arguments at spelt
  cases spelt with
  | nil => rfl
  | cons here _ => exact absurd (List.append_eq_nil_iff.mp none.symm).1 here.ne_nil

theorem Spelt.unique (spelt : Spelt groups arguments) (spelt' : Spelt others arguments) : others = groups := by
  rw [← List.append_nil arguments] at spelt'
  obtain ⟨later, none, rfl⟩ := spelt.append_iff.mp spelt'
  rw [spelt_nothing none, List.append_nil]

theorem spelt_setting (listed : argument ∈ setting.spellings) : Spelt all (argument :: value :: rest) ↔
    ∃ takes later, Spelt later rest ∧ all = .setting setting value takes :: later := by
  constructor
  · generalize whole : argument :: value :: rest = arguments
    rintro (_ | ⟨here, others⟩)
    · cases whole
    · obtain ⟨takes, rfl, rfl⟩ := here.of_setting listed whole
      exact ⟨takes, _, others, rfl⟩
  · rintro ⟨takes, later, others, rfl⟩
    exact .cons (.setting takes listed) others

end Unambiguous
end Concord.Cli
