import Concord.Chart.Table
import Concord.Cli.Options
import Concord.Parsing
import Concord.Text.Lines
import Concord.Text.Turkish
import Concord.Text.Words
import Concord.Tree.Render

namespace Concord.Cli

def goodExamples : List String :=
  ["Ben bir kitap okudum.", "Dün kitapları okudum.", "Biz okula geldik.", "Geldim."]

def badExamples : List String :=
  ["Ben kitap okudun.", "Yarın kitap okudum.", "Biz okula geldim."]

def countLine (trees : Nat) : String :=
  "Parsed " ++ toString trees ++ (if trees = 1 then " tree\n" else " trees\n")

def report (parse : Parse) : String :=
  let trees := parse.distinctTrees
  String.join (parse.unknownWords.map fun word => "unknown word: " ++ word ++ "\n")
    ++ countLine trees.length
    ++ String.join (trees.map fun tree => tree.bracketed ++ "\n\n")

def answer (parser : Parser) (showChart : Bool) (sentence : String) :
    Except ChartError String := do
  let parse ← parser.parse (Text.tokens (Text.turkishLower sentence))
  if showChart then return "chart:\n" ++ (← parse.chart.table) ++ "\n" ++ report parse
  else return report parse

def prompt : String := "> "

def answerExamples (parser : Parser) (showChart : Bool) : Except ChartError String := do
  let shown (sentence : String) : Except ChartError String := do
    return prompt ++ sentence ++ "\n" ++ (← answer parser showChart sentence)
  let good ← goodExamples.mapM shown
  let bad ← badExamples.mapM shown
  return "== sentences expected to parse ==\n" ++ String.join good
    ++ "== sentences expected to fail ==\n" ++ String.join bad

structure Console (m : Type → Type) where
  getLine : m String
  put : String → m Unit

section Turns

variable {m : Type → Type} [Monad m] (console : Console m) (parser : Parser) (showChart : Bool)

-- A line that was read is in the buffer with its line feed, even an empty one, so an empty buffer is the
-- end of the input. Otherwise the buffer is given back as the next line finds it.
def respond (buffer : String) : ExceptT ChartError m (Option String) := do
  if buffer = "" then return none
  else
    let text ← answer parser showChart (Text.trim buffer)
    console.put text
    return some ""

def turn (buffer : String) : ExceptT ChartError m (Option String) := do
  console.put prompt
  respond console parser showChart (buffer ++ (← console.getLine))

end Turns

structure Session where
  unread : List Char
  written : String := ""

namespace Session

def console : Console (StateM Session) where
  getLine := modifyGet fun session =>
    let (line, rest) := Text.firstLine session.unread
    (String.ofList line, { session with unread := rest })
  put text := modify fun session => { session with written := session.written ++ text }

variable {parser : Parser} {showChart : Bool} {session next : Session} {buffer later : String}

theorem turn_run : (turn console parser showChart buffer).run.run session =
    (respond console parser showChart (buffer ++ String.ofList (Text.firstLine session.unread).1)).run.run
      ⟨(Text.firstLine session.unread).2, session.written ++ prompt⟩ := rfl

theorem respond_run (filled : buffer ≠ "") : (respond console parser showChart buffer).run.run session =
    match answer parser showChart (Text.trim buffer) with
    | .ok text => (.ok (some ""), ⟨session.unread, session.written ++ text⟩)
    | .error error => (.error error, session) := by
  unfold respond
  rw [if_neg filled]
  cases answer parser showChart (Text.trim buffer) with
  | ok text => rfl
  | error error => rfl

theorem turn_shortens (went : (turn console parser showChart buffer).run.run session = (.ok (some later), next)) :
    next.unread.length + later.length < session.unread.length + buffer.length := by
  have parts := congrArg List.length (Text.firstLine_append session.unread)
  rw [List.length_append] at parts
  rw [turn_run] at went
  by_cases ended : buffer ++ String.ofList (Text.firstLine session.unread).1 = ""
  · rw [ended] at went
    cases went
  · rw [respond_run ended] at went
    split at went
    · cases went
      have filled := mt String.length_eq_zero_iff.mp ended
      simp only [String.length_append, String.length_ofList, String.length_empty] at filled ⊢
      omega
    · cases went

def run (parser : Parser) (showChart : Bool) (session : Session) (buffer : String) :
    Except ChartError String :=
  match _ : (turn console parser showChart buffer).run.run session with
  | (.ok (some later), next) => run parser showChart next later
  | (.ok none, next) => .ok next.written
  | (.error error, _) => .error error
termination_by session.unread.length + buffer.length
decreasing_by exact turn_shortens ‹_›

end Session

def transcript (parser : Parser) (showChart : Bool) (input : String) : Except ChartError String :=
  Session.run parser showChart { unread := input.toList } ""

end Concord.Cli
