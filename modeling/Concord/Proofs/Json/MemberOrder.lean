import Concord.Grammar.Load
import Concord.Morphology.Suffix
import Concord.Proofs.Json.Reordering

namespace Concord

open Json

theorem GrammarFile.ofJson?_orderFree : OrderFree GrammarFile.ofJson? := by
  intro json other same
  have texts : OrderFree (listOf? text?) := text?_orderFree.listOf?
  have fields := fields?_same same ["start", "variables", "terminals", "constraints", "implies"]
  unfold GrammarFile.ofJson?
  generalize fields? ["start", "variables", "terminals", "constraints", "implies"] json = these at fields
  generalize fields? ["start", "variables", "terminals", "constraints", "implies"] other = those at fields
  cases fields with
  | none => rfl
  | some each =>
    rcases each with _ | ⟨start, _ | ⟨productions, _ | ⟨terminals, _ | ⟨constraints, _ | ⟨implies, _ | _⟩⟩⟩⟩⟩
    case cons.cons.cons.cons.cons.nil =>
      simp only [Option.bind_eq_bind, Option.bind_some]
      rw [text?_orderFree.optional? start, texts.listOf?.dictionaryOf?.optional? productions,
        texts.dictionaryOf?.dictionaryOf?.optional? terminals,
        texts.orNull?.listOf?.dictionaryOf?.optional? constraints,
        integer?_orderFree.listOf?.dictionaryOf?.optional? implies]
    all_goals rfl

theorem SuffixTable.ofText_congr {first second : String} {json other : Json} (useDerivational : Bool)
    (written : read? first = some json) (rewritten : read? second = some other) (same : Same json other) :
    SuffixTable.ofText first useDerivational = SuffixTable.ofText second useDerivational := by
  have read := text?_orderFree.listOf?.dictionaryOf? json other same
  simp only [SuffixTable.ofText, written, rewritten, Option.bind_some, read]

-- A grammar is its start, its rules and its terminals with the indexes made of them, so one grammar has
-- the same look-ups, charts and trees; a table of suffixes is its list.
theorem member_order_irrelevant {first second : String} {json other : Json}
    (written : read? first = some json) (rewritten : read? second = some other)
    (reordered : json.Reordered other) (distinct : json.Distinct) :
    Grammar.ofText first = Grammar.ofText second ∧
      ∀ useDerivational, SuffixTable.ofText first useDerivational = SuffixTable.ofText second useDerivational := by
  have same : Same json other := ⟨distinct, reordered⟩
  refine ⟨?_, fun useDerivational => SuffixTable.ofText_congr useDerivational written rewritten same⟩
  have read := GrammarFile.ofJson?_orderFree json other same
  simp only [Grammar.ofText, GrammarFile.ofText?, written, rewritten, Option.bind_eq_bind, Option.bind_some, read]

def listedText : String :=
  "\x7b\"variables\":\x7b\"S\":[[\"N\"]],\"T\":[]\x7d,\"terminals\":\x7b\"N\":\x7b\"A\":[\"ev\"]\x7d,\"V\":\x7b\x7d\x7d,"
    ++ "\"constraints\":\x7b\"S\":[null],\"T\":[]\x7d\x7d"

def turnedText : String :=
  "\x7b\"constraints\":\x7b\"T\":[],\"S\":[null]\x7d,\"terminals\":\x7b\"V\":\x7b\x7d,\"N\":\x7b\"A\":[\"ev\"]\x7d\x7d,"
    ++ "\"variables\":\x7b\"T\":[],\"S\":[[\"N\"]]\x7d\x7d"

-- One text under two categories: which of them it marks is a matter of their order.
def endingText : String := "\x7b\"Past\":[\"-di\"],\"Case\":[\"-di\"]\x7d"

def turnedEndingText : String := "\x7b\"Case\":[\"-di\"],\"Past\":[\"-di\"]\x7d"

def Json.words (words : List String) : Json := .array (words.map fun word => .text (some word))

def listedJson : Json :=
  .object [
    (some "variables", .object [(some "S", .array [words ["N"]]), (some "T", .array [])]),
    (some "terminals", .object [(some "N", .object [(some "A", words ["ev"])]), (some "V", .object [])]),
    (some "constraints", .object [(some "S", .array [.null]), (some "T", .array [])])]

def turnedJson : Json :=
  .object [
    (some "constraints", .object [(some "T", .array []), (some "S", .array [.null])]),
    (some "terminals", .object [(some "V", .object []), (some "N", .object [(some "A", words ["ev"])])]),
    (some "variables", .object [(some "T", .array []), (some "S", .array [words ["N"]])])]

theorem Json.Reordered.swap (first second : JsonText × Json) :
    Reordered (.object [first, second]) (.object [second, first]) := by
  refine @Reordered.object _ [first, second] _ rfl ?_ (.swap _ _ _)
  exact List.forall₂_same.mpr fun value _ => .refl value

theorem listedJson_reordered : listedJson.Reordered turnedJson := by
  have rules := Reordered.swap (some "S", .array [words ["N"]]) (some "T", .array [])
  have terminals := Reordered.swap (some "N", .object [(some "A", words ["ev"])]) (some "V", .object [])
  have axes := Reordered.swap (some "S", .array [.null]) (some "T", .array [])
  have tables := List.Forall₂.cons rules (.cons terminals (.cons axes .nil))
  exact @Reordered.object _ [(some "variables", _), (some "terminals", _), (some "constraints", _)] _ (by rfl)
    tables (List.reverse_perm _).symm

theorem turnedText_loads :
    (read? listedText = some listedJson ∧ read? turnedText = some turnedJson ∧
      listedJson.Reordered turnedJson ∧ listedJson.Distinct) ∧
    (∃ grammar, Grammar.ofText listedText = .ok grammar ∧ Grammar.ofText turnedText = .ok grammar) ∧
    SuffixTable.ofText endingText true = SuffixTable.ofText turnedEndingText true := by
  have listed : read? listedText = some listedJson := by cbv
  have turned : read? turnedText = some turnedJson := by cbv
  have distinct : listedJson.Distinct := by
    simp [listedJson, words, Distinct.null, Distinct.text]
  have loads : (Grammar.ofText listedText).isOk = true := by decide +kernel
  have same := (member_order_irrelevant listed turned listedJson_reordered distinct).1
  have ending : read? endingText = some (.object [(some "Past", words ["-di"]), (some "Case", words ["-di"])]) := by
    cbv
  have turnedEnding :
      read? turnedEndingText = some (.object [(some "Case", words ["-di"]), (some "Past", words ["-di"])]) := by
    cbv
  have apart : Distinct (.object [(some "Past", words ["-di"]), (some "Case", words ["-di"])]) := by
    simp [words, Distinct.text]
  refine ⟨⟨listed, turned, listedJson_reordered, distinct⟩, ?_,
    (member_order_irrelevant ending turnedEnding (.swap _ _) apart).2 true⟩
  rw [← same]
  cases loaded : Grammar.ofText listedText with
  | ok grammar => exact ⟨grammar, rfl, rfl⟩
  | error error =>
    rw [loaded] at loads
    cases loads

end Concord
