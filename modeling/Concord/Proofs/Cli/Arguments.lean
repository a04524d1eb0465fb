import Mathlib.Data.List.Basic
import Mathlib.Data.List.Induction
import Concord.Proofs.Cli.Groups
import Concord.Proofs.Except

namespace Concord.Cli

def paths (groups : List Group) : List String :=
  groups.filterMap fun
    | .path text _ => some text
    | _ => none

def values (setting : Setting) (groups : List Group) : List String :=
  groups.filterMap fun
    | .setting other value _ => if other = setting then some value else none
    | _ => none

structure Settles (groups : List Group) (options : Options) : Prop where
  showChart : options.showChart = true ↔ .flag .chart ∈ groups
  derivational : options.derivational = false ↔ .flag .bare ∈ groups
  examples : options.examples = true ↔ .flag .examples ∈ groups
  strategy : Strategy.ofName ((values .morphology groups).getLast?.getD "stemmer") = .ok options.strategy
  lexicon : options.lexicon = (values .lexicon groups).getLast?.getD defaultLexicon
  suffixes : options.suffixes = (values .suffixes groups).getLast?.getD defaultSuffixes
  corpus : options.corpus = (values .corpus groups).getLast?
  analyses : options.analyses = (values .analyses groups).getLast?.getD defaultAnalyses

inductive Subject where
  | flag (flag : Flag)
  | setting (setting : Setting)
  | grammar
  deriving DecidableEq

def Group.subject : Group → Subject
  | .flag one => .flag one
  | .setting one _ _ => .setting one
  | .path _ _ => .grammar

-- The same groups in another order, where those about one thing keep theirs.
structure Rearranges (groups others : List Group) : Prop where
  perm : groups.Perm others
  order : ∀ subject, groups.filter (·.subject = subject) = others.filter (·.subject = subject)

-- A request for help stands where a group could begin, behind groups that name one grammar at most.
def AsksHelp (arguments : List String) : Prop :=
  ∃ groups front argument rest, Spelt groups front ∧ (paths groups).length ≤ 1 ∧ argument ∈ helpSpellings ∧
    arguments = front ++ argument :: rest

variable {setting : Setting} {argument value path : String} {front rest arguments named : List String}
  {group : Group} {groups others : List Group} {options : Options}

section Reading

def Group.apply : Group → Options → Options
  | .flag one, options => one.set options
  | .setting one value _, options => (one.set value options).toOption.getD options
  | .path _ _, options => options

def settle (groups : List Group) (options : Options) : Options :=
  groups.foldl (fun options group => group.apply options) options

theorem Setting.set_ok (takes : setting.Takes value) (options : Options) :
    setting.set value options = .ok ((Group.setting setting value takes).apply options) := by
  cases setting with
  | morphology => rcases takes with rfl | rfl <;> rfl
  | lexicon => rfl
  | suffixes => rfl
  | corpus => rfl
  | analyses => rfl

theorem Setting.set_error (refused : ¬ setting.Takes value) (options : Options) :
    setting.set value options = .error (.unknownStrategy value) := by
  cases setting with
  | morphology =>
    obtain ⟨stemmer, external⟩ := not_or.mp refused
    rw [set, Strategy.ofName, if_neg stemmer, if_neg external]
    rfl
  | lexicon => exact absurd trivial refused
  | suffixes => exact absurd trivial refused
  | corpus => exact absurd trivial refused
  | analyses => exact absurd trivial refused

theorem paths_append (groups others : List Group) : paths (groups ++ others) = paths groups ++ paths others :=
  List.filterMap_append

theorem paths_cons (group : Group) (groups : List Group) : paths (group :: groups) = paths [group] ++ paths groups :=
  paths_append [group] groups

theorem Group.Spells.read (spells : group.Spells front) (few : (named ++ paths [group]).length ≤ 1) :
    Request.from named.head? options (front ++ rest) =
      Request.from (named ++ paths [group]).head? (group.apply options) rest := by
  cases spells with
  | @flag one _ listed =>
    have same : named ++ paths [.flag one] = named := List.append_nil named
    rw [List.singleton_append, Request.from, ofName?_flag listed, same]
    rfl
  | setting takes listed =>
    have same : named ++ paths [.setting _ _ takes] = named := List.append_nil named
    rw [List.cons_append, List.singleton_append, Request.from, ofName?_setting listed, same]
    simp only [Setting.set_ok takes, ok_bind]
  | @path text plain =>
    obtain rfl : named = [] := by
      have bound : named.length + 1 ≤ 1 := by simpa [paths] using few
      exact List.length_eq_zero_iff.mp (by omega)
    rw [List.singleton_append, Request.from, ofName?_plain plain]
    simp [startsWithDash, plain, paths, Group.apply]

theorem Spelt.read (spelt : Spelt groups front) (few : (named ++ paths groups).length ≤ 1) :
    Request.from named.head? options (front ++ rest) =
      Request.from (named ++ paths groups).head? (settle groups options) rest := by
  induction spelt generalizing named options with
  | nil => rw [List.nil_append, paths, List.filterMap_nil, List.append_nil, settle, List.foldl_nil]
  | @cons group groups front more here others step =>
    rw [paths_cons, ← List.append_assoc] at few ⊢
    have early : (named ++ paths [group]).length ≤ 1 := by
      rw [List.length_append] at few
      omega
    rw [List.append_assoc, here.read early, step few]
    rfl

-- How reading ends, at a place where a group could begin, with the paths named so far.
inductive Ends (named : List String) (options : Options) : List String → Except ArgumentError Request → Prop where
  | run {path : String} (one : named = [path]) : Ends named options [] (.ok (.run path options))
  | missing (none : named = []) : Ends named options [] (.error .missingGrammar)
  | help {argument : String} (listed : argument ∈ helpSpellings) (rest : List String) :
      Ends named options (argument :: rest) (.ok .help)
  | valueless {setting : Setting} {argument : String} (listed : argument ∈ setting.spellings) :
      Ends named options [argument] (.error (.missingValue argument))
  | refused {setting : Setting} {argument value : String} (listed : argument ∈ setting.spellings)
      (refused : ¬ setting.Takes value) (rest : List String) :
      Ends named options (argument :: value :: rest) (.error (.unknownStrategy value))
  | invalid {argument : String} (misplaced : named ≠ [] ∨ argument.toList.head? = some '-') (rest : List String) :
      Ends named options (argument :: rest) (.error .invalid)

def Comes (named : List String) (options : Options) (arguments : List String)
    (result : Except ArgumentError Request) : Prop :=
  ∃ groups front rest, arguments = front ++ rest ∧ Spelt groups front ∧ (named ++ paths groups).length ≤ 1 ∧
    Ends (named ++ paths groups) (settle groups options) rest result

variable {result : Except ArgumentError Request}

theorem Ends.comes (ends : Ends named options arguments result) (few : named.length ≤ 1) :
    Comes named options arguments result := by
  have same : named ++ paths [] = named := List.append_nil named
  exact ⟨[], [], arguments, rfl, .nil, same.symm ▸ few, same.symm ▸ ends⟩

theorem Comes.behind (comes : Comes (named ++ paths [group]) (group.apply options) rest result)
    (spells : group.Spells front) : Comes named options (front ++ rest) result := by
  obtain ⟨groups, middle, last, rfl, others, few, ends⟩ := comes
  rw [List.append_assoc, ← paths_cons] at few ends
  exact ⟨group :: groups, front ++ middle, last, (List.append_assoc ..).symm, .cons spells others, few, ends⟩

-- By the recursion of the reader: each of its branches either reads one group or ends.
theorem from_comes (grammar : Option String) (options : Options) (arguments : List String) :
    Comes grammar.toList options arguments (Request.from grammar options arguments) := by
  have few (grammar : Option String) : grammar.toList.length ≤ 1 := by cases grammar <;> simp
  fun_induction Request.from grammar options arguments with
  | case1 options path => exact Ends.comes (.run rfl) (few _)
  | case2 options => exact Ends.comes (.missing rfl) (few _)
  | case3 grammar options argument rest found =>
    have means := found ▸ ofName?_means argument
    cases means with
    | help listed => exact Ends.comes (.help listed rest) (few _)
  | case4 grammar options argument rest change found step =>
    have means := found ▸ ofName?_means argument
    cases means with
    | flag one listed =>
      have same : grammar.toList ++ paths [.flag one] = grammar.toList := List.append_nil _
      exact Comes.behind (same.symm ▸ step) (.flag listed)
  | case5 grammar options argument change found =>
    have means := found ▸ ofName?_means argument
    cases means with
    | setting one listed => exact Ends.comes (.valueless listed) (few _)
  | case6 grammar options argument change found value rest step =>
    have means := found ▸ ofName?_means argument
    cases means with
    | setting one listed =>
      by_cases takes : one.Takes value
      · have same : grammar.toList ++ paths [.setting one value takes] = grammar.toList := List.append_nil _
        rw [one.set_ok takes, ok_bind]
        exact Comes.behind (same.symm ▸ step _) (.setting takes listed)
      · rw [one.set_error takes]
        exact Ends.comes (.refused listed takes rest) (few _)
  | case7 grammar options argument rest _ free step =>
    obtain ⟨rfl, plain⟩ : grammar = none ∧ argument.toList.head? ≠ some '-' := by
      simpa [startsWithDash] using free
    exact Comes.behind step (.path plain)
  | case8 grammar options argument rest _ taken =>
    have misplaced : grammar.toList ≠ [] ∨ argument.toList.head? = some '-' := by
      cases grammar with
      | none => simpa [startsWithDash] using taken
      | some path => exact .inl (List.cons_ne_nil path [])
    exact Ends.comes (.invalid misplaced rest) (few _)

end Reading

section Settling

theorem settle_concat (groups : List Group) (last : Group) (options : Options) :
    settle (groups ++ [last]) options = last.apply (settle groups options) := by
  rw [settle, List.foldl_append]
  rfl

theorem values_concat (setting : Setting) (groups : List Group) (last : Group) :
    values setting (groups ++ [last]) = values setting groups ++ values setting [last] :=
  List.filterMap_append

theorem Settles.after_flag (settles : Settles groups options) (flag : Flag) :
    Settles (groups ++ [.flag flag]) (flag.set options) := by
  have same (setting : Setting) : values setting (groups ++ [.flag flag]) = values setting groups :=
    (values_concat ..).trans (List.append_nil _)
  obtain ⟨chart, bare, examples, strategy, lexicon, suffixes, corpus, analyses⟩ := settles
  cases flag <;> constructor <;> simp [Flag.set, *]

theorem Settles.after_path {text : String} (settles : Settles groups options) (plain : text.toList.head? ≠ some '-') :
    Settles (groups ++ [.path text plain]) options := by
  have same (setting : Setting) : values setting (groups ++ [.path text plain]) = values setting groups :=
    (values_concat ..).trans (List.append_nil _)
  obtain ⟨chart, bare, examples, strategy, lexicon, suffixes, corpus, analyses⟩ := settles
  constructor <;> simp [*]

theorem Settles.after_setting (settles : Settles groups options) (takes : setting.Takes value) :
    Settles (groups ++ [.setting setting value takes]) ((Group.setting setting value takes).apply options) := by
  have same (other : Setting) : values other (groups ++ [.setting setting value takes]) =
      values other groups ++ if setting = other then [value] else [] := by
    rw [values_concat]
    by_cases here : setting = other <;> simp [values, here]
  obtain ⟨chart, bare, examples, strategy, lexicon, suffixes, corpus, analyses⟩ := settles
  cases setting with
  | morphology =>
    rcases takes with rfl | rfl <;> constructor <;>
      simp [Group.apply, Setting.set, Strategy.ofName, Except.toOption, *]
  | _ => constructor <;> simp [Group.apply, Setting.set, Except.toOption, *]

theorem settle_settles (groups : List Group) : Settles groups (settle groups {}) := by
  induction groups using List.reverseRecOn with
  | nil => constructor <;> simp [settle, values, Strategy.ofName]
  | append_singleton groups last step =>
    rw [settle_concat]
    cases last with
    | flag one => exact step.after_flag one
    | setting one value takes => exact step.after_setting takes
    | path text plain => exact step.after_path plain

theorem Settles.unique {options' : Options} (settles : Settles groups options) (settles' : Settles groups options') :
    options = options' := by
  have chart := Bool.eq_iff_iff.mpr (settles.showChart.trans settles'.showChart.symm)
  have examples := Bool.eq_iff_iff.mpr (settles.examples.trans settles'.examples.symm)
  have bare : options.derivational = options'.derivational := by
    have either := settles.derivational.trans settles'.derivational.symm
    cases same : options.derivational <;> cases same' : options'.derivational <;> simp_all
  have strategy := Except.ok.inj (settles.strategy.symm.trans settles'.strategy)
  have lexicon := settles.lexicon.trans settles'.lexicon.symm
  have suffixes := settles.suffixes.trans settles'.suffixes.symm
  have corpus := settles.corpus.trans settles'.corpus.symm
  have analyses := settles.analyses.trans settles'.analyses.symm
  cases options
  cases options'
  simp_all

theorem Rearranges.filterMap_eq {view : Group → Option String} (rearranges : Rearranges groups others)
    (subject : Subject) (about : ∀ group : Group, group.subject ≠ subject → view group = none) :
    groups.filterMap view = others.filterMap view := by
  have apart (groups : List Group) : (groups.filter (·.subject = subject)).filterMap view = groups.filterMap view := by
    rw [List.filterMap_filter]
    refine List.filterMap_congr fun group _ => ?_
    by_cases same : group.subject = subject
    · simp [same]
    · simp [same, about group same]
  rw [← apart groups, rearranges.order, apart]

theorem Rearranges.paths_eq (rearranges : Rearranges groups others) : paths groups = paths others := by
  refine rearranges.filterMap_eq .grammar fun group other => ?_
  cases group with
  | path => exact absurd rfl other
  | _ => rfl

theorem Rearranges.values_eq (rearranges : Rearranges groups others) (setting : Setting) :
    values setting groups = values setting others := by
  refine rearranges.filterMap_eq (.setting setting) fun group other => ?_
  cases group with
  | setting one value =>
    have apart : one ≠ setting := fun same => other (congrArg Subject.setting same)
    exact if_neg apart
  | _ => rfl

theorem Settles.rearranged (settles : Settles groups options) (rearranges : Rearranges groups others) :
    Settles others options := by
  have member (flag : Flag) : Group.flag flag ∈ groups ↔ .flag flag ∈ others := rearranges.perm.mem_iff
  have same := rearranges.values_eq
  obtain ⟨chart, bare, examples, strategy, lexicon, suffixes, corpus, analyses⟩ := settles
  simp only [member, same] at *
  exact ⟨chart, bare, examples, strategy, lexicon, suffixes, corpus, analyses⟩

end Settling

section Requests

theorem ofArguments_eq (some : arguments ≠ []) : Request.ofArguments arguments = Request.from none {} arguments := by
  rw [Request.ofArguments, List.isEmpty_eq_false_iff.mpr some]
  rfl

theorem ofArguments_comes (some : arguments ≠ []) : Comes [] {} arguments (Request.ofArguments arguments) := by
  rw [ofArguments_eq some]
  exact from_comes none {} arguments

theorem Spelt.ofArguments (spelt : Spelt groups front) (few : (paths groups).length ≤ 1) (some : front ++ rest ≠ []) :
    Request.ofArguments (front ++ rest) = Request.from (paths groups).head? (settle groups {}) rest := by
  have read : Request.from ([] : List String).head? {} (front ++ rest) =
      Request.from ([] ++ paths groups).head? (settle groups {}) rest := spelt.read few
  rw [ofArguments_eq some]
  exact read

theorem ofArguments_run : Request.ofArguments arguments = .ok (.run path options) ↔
    ∃ groups, Spelt groups arguments ∧ paths groups = [path] ∧ options = settle groups {} := by
  constructor
  · intro ran
    have some : arguments ≠ [] := by
      rintro rfl
      cases ran
    obtain ⟨groups, front, rest, rfl, spelt, few, ends⟩ := ran ▸ ofArguments_comes some
    cases ends with
    | run one => exact ⟨groups, by rwa [List.append_nil], one, rfl⟩
  · rintro ⟨groups, spelt, one, rfl⟩
    have some : arguments ++ [] ≠ [] := by
      rw [List.append_nil]
      rintro rfl
      rw [spelt_nothing spelt] at one
      cases one
    have run := spelt.ofArguments (by simp [one]) some
    rw [List.append_nil, one] at run
    exact run

theorem ofArguments_help : Request.ofArguments arguments = .ok .help ↔ AsksHelp arguments := by
  constructor
  · intro ran
    have some : arguments ≠ [] := by
      rintro rfl
      cases ran
    obtain ⟨groups, front, rest, rfl, spelt, few, ends⟩ := ran ▸ ofArguments_comes some
    cases ends with
    | help listed rest => exact ⟨groups, front, _, rest, spelt, few, listed, rfl⟩
  · rintro ⟨groups, front, argument, rest, spelt, few, listed, rfl⟩
    rw [spelt.ofArguments few (by simp), Request.from, ofName?_help listed]

theorem Spelt.run_iff (spelt : Spelt groups arguments) :
    Request.ofArguments arguments = .ok (.run path options) ↔ paths groups = [path] ∧ Settles groups options := by
  rw [ofArguments_run]
  constructor
  · rintro ⟨others, spelt', one, rfl⟩
    obtain rfl := spelt.unique spelt'
    exact ⟨one, settle_settles _⟩
  · rintro ⟨one, settles⟩
    exact ⟨groups, spelt, one, settles.unique (settle_settles groups)⟩

theorem Spelt.refused (spelt : Spelt groups front) (few : (paths groups).length ≤ 1)
    (listed : argument ∈ setting.spellings) (refused : ¬ setting.Takes value) :
    Request.ofArguments (front ++ argument :: value :: rest) = .error (.unknownStrategy value) := by
  rw [spelt.ofArguments few (by simp), Request.from, ofName?_setting listed]
  simp only [Setting.set_error refused]
  rfl

end Requests

theorem arguments_exact :
    (∀ arguments, (∃ path options, Request.ofArguments arguments = .ok (.run path options)) ↔
      ∃ groups path, Spelt groups arguments ∧ paths groups = [path]) ∧
    (∀ arguments groups path options, Spelt groups arguments →
      (Request.ofArguments arguments = .ok (.run path options) ↔ paths groups = [path] ∧ Settles groups options)) ∧
    (∀ arguments, Request.ofArguments arguments = .ok .help ↔ AsksHelp arguments) ∧
    (∀ (setting : Setting) argument value groups front rest, argument ∈ setting.spellings → Spelt groups front →
      (∀ all, Spelt all (front ++ argument :: value :: rest) ↔
        ∃ takes later, Spelt later rest ∧ all = groups ++ .setting setting value takes :: later) ∧
      (¬ setting.Takes value → (paths groups).length ≤ 1 →
        Request.ofArguments (front ++ argument :: value :: rest) = .error (.unknownStrategy value))) ∧
    ∀ arguments arguments' groups groups', Spelt groups arguments → Spelt groups' arguments' →
      Rearranges groups groups' → ∀ path options,
        Request.ofArguments arguments = .ok (.run path options) ↔
          Request.ofArguments arguments' = .ok (.run path options) := by
  refine ⟨fun arguments => ?_, fun arguments groups path options spelt => spelt.run_iff, fun _ => ofArguments_help,
    fun setting argument value groups front rest listed spelt => ⟨fun all => ?_, fun refused few =>
      spelt.refused few listed refused⟩, ?_⟩
  · constructor
    · rintro ⟨path, options, ran⟩
      obtain ⟨groups, spelt, one, _⟩ := ofArguments_run.mp ran
      exact ⟨groups, path, spelt, one⟩
    · rintro ⟨groups, path, spelt, one⟩
      exact ⟨path, _, ofArguments_run.mpr ⟨groups, spelt, one, rfl⟩⟩
  · rw [spelt.append_iff]
    constructor
    · rintro ⟨tail, others, rfl⟩
      obtain ⟨takes, later, spelt', rfl⟩ := (spelt_setting listed).mp others
      exact ⟨takes, later, spelt', rfl⟩
    · rintro ⟨takes, later, spelt', rfl⟩
      exact ⟨_, (spelt_setting listed).mpr ⟨takes, later, spelt', rfl⟩, rfl⟩
  · intro arguments arguments' groups groups' spelt spelt' rearranges path options
    rw [spelt.run_iff, spelt'.run_iff, rearranges.paths_eq]
    refine and_congr_right fun _ => ⟨fun settles => settles.rearranged rearranges, fun settles => ?_⟩
    exact settles.rearranged ⟨rearranges.perm.symm, fun subject => (rearranges.order subject).symm⟩

-- A lexicon whose file is called like the option for help, and another one later on.
def lexiconTwice : List Group :=
  [.setting .lexicon "-h" trivial, .path "g.json" (by decide), .flag .chart, .setting .lexicon "stems.txt" trivial]

def lexiconTwiceLater : List Group :=
  [.path "g.json" (by decide), .setting .lexicon "-h" trivial, .setting .lexicon "stems.txt" trivial, .flag .chart]

theorem lexiconTwice_arguments :
    Spelt lexiconTwice ["-l", "-h", "g.json", "-c", "--lexicon", "stems.txt"] ∧
      Spelt lexiconTwiceLater ["g.json", "--lexicon", "-h", "-l", "stems.txt", "--chart"] ∧
      Rearranges lexiconTwice lexiconTwiceLater ∧
      Request.ofArguments ["-l", "-h", "g.json", "-c", "--lexicon", "stems.txt"] =
        .ok (.run "g.json" { showChart := true, lexicon := "stems.txt" }) ∧
      Request.ofArguments ["g.json", "--lexicon", "-h", "-l", "stems.txt", "--chart"] =
        .ok (.run "g.json" { showChart := true, lexicon := "stems.txt" }) ∧
      Settles lexiconTwice { showChart := true, lexicon := "stems.txt" } ∧
      Request.ofArguments ["g.json", "-m", "-h"] = .error (.unknownStrategy "-h") := by
  have spelt : Spelt lexiconTwice ["-l", "-h", "g.json", "-c", "--lexicon", "stems.txt"] :=
    .cons (.setting _ (by decide)) (.cons (.path (by decide)) (.cons (.flag (by decide))
      (.cons (.setting _ (by decide)) .nil)))
  have later : Spelt lexiconTwiceLater ["g.json", "--lexicon", "-h", "-l", "stems.txt", "--chart"] :=
    .cons (.path (by decide)) (.cons (.setting _ (by decide)) (.cons (.setting _ (by decide))
      (.cons (.flag (by decide)) .nil)))
  have rearranges : Rearranges lexiconTwice lexiconTwiceLater := by
    refine ⟨by decide, ?_⟩
    rintro (one | one | _)
    · cases one <;> rfl
    · cases one <;> rfl
    · rfl
  have grammar : Spelt [.path "g.json" (by decide)] ["g.json"] := .cons (.path (by decide)) .nil
  have ran : Request.ofArguments ["-l", "-h", "g.json", "-c", "--lexicon", "stems.txt"] =
      .ok (.run "g.json" { showChart := true, lexicon := "stems.txt" }) := rfl
  obtain ⟨-, settled, -, valued, moved⟩ := arguments_exact
  exact ⟨spelt, later, rearranges, ran, (moved _ _ _ _ spelt later rearranges _ _).mp ran,
    ((settled _ _ _ _ spelt).mp ran).2, (valued .morphology "-m" "-h" _ _ [] (by decide) grammar).2
      (by simp [Setting.Takes]) (by decide)⟩

end Concord.Cli
