import Scriptlet.Proofs.Grammar.Relabelling
import Scriptlet.Proofs.Token.Seam

/-! Programs joined by a line feed. A first text that is in order has no bearing on how the second is
read: its statements come first, and the second text's statements and errors follow, on lower
lines. -/
namespace Scriptlet

open Grammar (recovered)

def Node.lowered (lines : Nat) (n : Node) : Node := n.relabel (Token.lowered lines)

def ParseError.lowered (lines : Nat) (e : ParseError) : ParseError :=
  e.relabel (Token.lowered lines)

namespace Program

/-- A stream with its tokens changed, but not their kinds. -/
theorem ofStream_relabel {f : Token → Token} (kinds : ∀ t, (f t).kind = t.kind) (s : TokenStream) :
    (recovered (s.body.map f)).statements = (ofStream s).statements.map (.relabel f) ∧
      (recovered (s.body.map f)).obstacles.map (·.error (f s.stop)) =
        (ofStream s).errors.map (.relabel f) := by
  have error : ∀ o : Obstacle, (o.relabel f).error (f s.stop) = (o.error s.stop).relabel f :=
    fun o => o.error_relabel f s.stop
  simp only [Grammar.recovered_relabel kinds, Grammar.relabelRecovered, List.map_map,
    Grammar.errors_ofStream, Function.comp_def, error, and_true]
  rfl

theorem ofStream_lowered (lines : Nat) (s : TokenStream) :
    (recovered (s.lowered lines).body).statements = (ofStream s).statements.map (.lowered lines) ∧
      (recovered (s.lowered lines).body).obstacles.map (·.error (s.lowered lines).stop) =
        (ofStream s).errors.map (.lowered lines) :=
  ofStream_relabel (f := Token.lowered lines) (fun _ => rfl) s

variable {a : String}

theorem ofStream_seam (even : a.toList.count '"' % 2 = 0)
    (clean : (ofStream (Source.stream a)).errors = []) (b : String) :
    (ofStream (Source.stream (a ++ "\n" ++ b))).statements =
        (ofStream (Source.stream a)).statements ++
          (ofStream (Source.stream b)).statements.map (.lowered (Source.lineCount a)) ∧
      (ofStream (Source.stream (a ++ "\n" ++ b))).errors =
        (ofStream (Source.stream b)).errors.map (.lowered (Source.lineCount a)) := by
  obtain ⟨statements, errors⟩ := ofStream_lowered (Source.lineCount a) (Source.stream b)
  have read := Grammar.recovered_append_of_errors_nil clean
  rw [Grammar.statements_ofStream, Grammar.errors_ofStream, Source.body_seam even, read,
    Source.stop_seam, statements, errors]
  exact ⟨rfl, rfl⟩

end Program

end Scriptlet
