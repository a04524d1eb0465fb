import Concord.Chart.Basic
import Concord.Text.Lines

namespace Concord.Chart

open Text

def fieldAt (chart : Chart) (first last : Nat) : Except ChartError String :=
  if last < first then .ok ""
  else do
    let symbols ← chart.symbolsAt first last
    return if symbols.isEmpty then "-" else ",".intercalate symbols

def tableLine (margin : Nat) (widths : List Nat) (name : String) (fields : List String) : String :=
  padTo margin name
    ++ String.join (List.zipWith (fun width field => " | " ++ padTo width field) widths fields)
    ++ " |\n"

def columnWidths (header : List String) (rows : List (List String)) : List Nat :=
  rows.foldl (fun widths row => List.zipWith max widths (row.map String.length))
    (header.map String.length)

def table (chart : Chart) : Except ChartError String := do
  let words := chart.words.toList
  let rows ← (List.range chart.size).mapM fun first =>
    (List.range chart.size).mapM fun last => chart.fieldAt first last
  let margin := longest words
  let widths := columnWidths words rows
  return tableLine margin widths "" words
    ++ String.join (List.zipWith (tableLine margin widths) words rows)

end Concord.Chart
