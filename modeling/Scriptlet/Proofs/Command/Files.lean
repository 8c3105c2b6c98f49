import Scriptlet.Command.Run
import Scriptlet.Proofs.Json.LineEnds
import Scriptlet.Proofs.Node.Stored

/-! Files between runs: what a run reads of what an earlier one wrote. -/
namespace Scriptlet

namespace Disk

variable {disk : Disk} {p q : Path}

end Disk

namespace Command

variable {disk : Disk} {p : Path}

end Command

end Scriptlet
