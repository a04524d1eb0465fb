import Concord.Cli.Session
import Concord.Proofs.Chart.Table
import Concord.Proofs.FirstOccurrences
import Concord.Proofs.Parsing.UnknownWords

namespace Concord

namespace Parser

variable {parser : Parser} {tokens : List String} {parse : Parse}

end Parser

namespace Cli

variable {parser : Parser} {parse : Parse} {sentence table : String}

end Cli
end Concord
