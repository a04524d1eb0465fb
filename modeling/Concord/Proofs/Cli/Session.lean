import Concord.Cli.Run
import Concord.Proofs.Cli.Answer
import Concord.Proofs.Text.Lines

namespace Concord.Cli

variable {parser : Parser} {showChart : Bool} {before line rest unread : List Char} {written : String}

namespace Session

end Session

end Concord.Cli
