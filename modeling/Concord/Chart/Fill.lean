import Concord.Chart.Basic
import Concord.Grammar.Basic

namespace Concord

-- A span comes after all shorter ones, so the cells that it is combined from do not change any more.
def Chart.spansByLength (size : Nat) : List (Nat × Nat) :=
  (List.range size).flatMap fun extra =>
    (List.range (size - extra)).map fun first => (first, first + extra)

def Chart.readings (chart : Chart) (tags : List (List Category)) (position : Nat) : List Node :=
  match chart.words[position]?, tags[position]? with
  | some text, some categories => categories.map fun category => .token category text position
  | _, _ => []

namespace Grammar

def combineCells (grammar : Grammar) (first last : Nat) (lefts rights : List (Nat × Node)) :
    List Node :=
  lefts.flatMap fun (l, left) => rights.flatMap fun (r, right) =>
    (grammar.combine left.category right.category).map fun (rule, features) =>
      ⟨⟨rule.symbol, features⟩, first, last, .binary l r⟩

def combinations (grammar : Grammar) (chart : Chart) (first last : Nat) :
    Except ChartError (List Node) := do
  let cuts ← (List.range (last - first)).mapM fun extra => do
    let lefts ← chart.entriesAt first (first + extra)
    let rights ← chart.entriesAt (first + extra + 1) last
    return grammar.combineCells first last lefts rights
  return cuts.flatten

def parents (grammar : Grammar) (first last child : Nat) (category : Category) : List Node :=
  (grammar.unaryRules category.symbol).map fun rule =>
    ⟨⟨rule.symbol, category.features⟩, first, last, .unary child⟩

def closeFrom (grammar : Grammar) (first last : Nat) :
    Nat → Nat → Chart → Except ChartError Chart
  | 0, _, chart => .ok chart
  | fuel + 1, position, chart => do
    match (← chart.cell first last)[position]? with
    | none => .ok chart
    | some child =>
      let category := (← chart.node child).category
      let chart ← chart.addAll (grammar.parents first last child category)
      closeFrom grammar first last fuel (position + 1) chart

-- Every node that is added has the features of one that was there and the symbol of a rule, and
-- no category comes twice, so the cell cannot outgrow the fuel.
def closeUnary (grammar : Grammar) (chart : Chart) (first last : Nat) :
    Except ChartError Chart := do
  let cell ← chart.cell first last
  grammar.closeFrom first last (cell.size * (1 + grammar.rules.length)) 0 chart

def fillSpan (grammar : Grammar) (tags : List (List Category)) (chart : Chart) (first last : Nat) :
    Except ChartError Chart := do
  let found ← if first = last then .ok (chart.readings tags first)
    else grammar.combinations chart first last
  grammar.closeUnary (← chart.addAll found) first last

-- The chart of a sentence whose tokens have the given tags. Missing lists of tags are empty,
-- surplus ones are not looked at.
def chart (grammar : Grammar) (words : List String) (tags : List (List Category)) :
    Except ChartError Chart :=
  (Chart.spansByLength words.length).foldlM
    (fun chart (first, last) => grammar.fillSpan tags chart first last) (.empty words)

end Grammar
end Concord
