import Mathlib.Data.List.Forall2
import Scriptlet.Proofs.Session.Seam

/-! Layout has no part in what a text does. Texts with the same words, wherever these stand and whatever
stands between them, are read as the same trees with the same errors, and they run alike. What the
layout changes is the lines that messages tell of. -/
namespace Scriptlet

namespace Token

/-- The same token, on no line of the text. -/
def unplaced (t : Token) : Token := { t with line := 0 }

theorem map_unplaced {ts us : List Token} (same : ts.map word = us.map word) :
    ts.map unplaced = us.map unplaced := by
  have whole := congrArg (List.map fun w => (⟨w.1, w.2, 0⟩ : Token)) same
  rwa [List.map_map, List.map_map] at whole

end Token

def Node.unplaced (n : Node) : Node := n.relabel Token.unplaced

namespace ParseError

def unplaced (e : ParseError) : ParseError := e.relabel Token.unplaced

/-- The messages of the two errors differ at most in the line that each tells of. -/
def Alike (e e' : ParseError) : Prop :=
  ∃ text, e.message = "[line " ++ toString e.found.line ++ "] " ++ text ∧
    e'.message = "[line " ++ toString e'.found.line ++ "] " ++ text

theorem alike_of_unplaced {e e' : ParseError} (same : e.unplaced = e'.unplaced) : e.Alike e' := by
  obtain ⟨cause, ⟨kind, lexeme, line⟩⟩ := e
  obtain ⟨cause', ⟨kind', lexeme', line'⟩⟩ := e'
  cases same
  refine ⟨cause.text ++ ", got " ++ foundText ⟨kind, lexeme, line⟩, ?_, ?_⟩
  · simp only [message, String.append_assoc]
  · simp only [message, foundText, String.append_assoc]

end ParseError

def Failure.unplaced : Failure → Failure
  | malformed e => malformed e.unplaced
  | unread => unread
  | runtime e => runtime e

namespace Diagnostic

def unplaced : Diagnostic → Diagnostic
  | stray t => stray t.unplaced
  | malformed e => malformed e.unplaced
  | unread => unread
  | runtime e => runtime e

/-- Whether a message is about the program, and not about characters that are no part of it. -/
def aboutProgram : Diagnostic → Bool
  | stray _ => false
  | _ => true

end Diagnostic

/-- The turns differ at most in the lines that their messages tell of, and in the characters that are
reported as strays. -/
structure Turn.Alike (t u : Turn) : Prop where
  outcome : t.outcome.map (Option.map Failure.unplaced) =
    u.outcome.map (Option.map Failure.unplaced)
  output : t.report.output = u.report.output
  trace : t.report.trace = u.report.trace
  session : t.session = u.session
  diagnostics : (t.report.diagnostics.filter (·.aboutProgram)).map Diagnostic.unplaced =
    (u.report.diagnostics.filter (·.aboutProgram)).map Diagnostic.unplaced

namespace Program

/-- Streams with the same words are read as the same program, but for the lines. -/
theorem ofStream_unplaced {s t : TokenStream} (body : s.body.map Token.word = t.body.map Token.word)
    (stop : s.stop.unplaced = t.stop.unplaced) :
    (ofStream s).statements.map Node.unplaced = (ofStream t).statements.map Node.unplaced ∧
      (ofStream s).errors.map ParseError.unplaced = (ofStream t).errors.map ParseError.unplaced := by
  obtain ⟨statements, errors⟩ := ofStream_relabel (f := Token.unplaced) (fun _ => rfl) s
  obtain ⟨statements', errors'⟩ := ofStream_relabel (f := Token.unplaced) (fun _ => rfl) t
  rw [Token.map_unplaced body] at statements errors
  rw [stop] at errors
  exact ⟨statements.symm.trans statements', errors.symm.trans errors'⟩

end Program

namespace Session

/-- Statements that differ in their lines at most are run alike. -/
theorem ran_unplaced (s : Session) {ms ns : List Node}
    (same : ms.map Node.unplaced = ns.map Node.unplaced) :
    s.ran ms = s.ran ns := by
  have alike : ∀ ns, Scriptlet.interpret s.level (ns.map Node.unplaced) =
      Scriptlet.interpret s.level ns :=
    interpret_relabel (f := Token.unplaced) (fun _ => rfl) (fun _ => rfl) s.level
  rw [ran, ran, ← alike ms, ← alike ns, same]

theorem filter_malformed (errors : List ParseError) :
    (errors.map Diagnostic.malformed).filter (·.aboutProgram) = errors.map .malformed := by
  rw [List.filter_eq_self]
  intro d mem
  obtain ⟨e, _, rfl⟩ := List.mem_map.mp mem
  rfl

theorem filter_strays (strays : List Token) :
    (strays.map Diagnostic.stray).filter (·.aboutProgram) = [] := by
  rw [List.filter_eq_nil_iff]
  intro d mem
  obtain ⟨t, _, rfl⟩ := List.mem_map.mp mem
  nofun

/-- A program that has the errors of another, on other lines, and that runs as it does. -/
theorem runProgram_alike {s : Session} {p q : Program} (pComplete : p.complete = true)
    (qComplete : q.complete = true)
    (errors : p.errors.map ParseError.unplaced = q.errors.map ParseError.unplaced)
    (runs : s.ran p.statements = s.ran q.statements)
    (ends : ∃ m, s.ran q.statements = (.ok (), m) ∨ ∃ e, s.ran q.statements = (.error (.error e), m)) :
    (s.runProgram p).Alike (s.runProgram q) := by
  have blamed : (blame p).map Failure.unplaced = (blame q).map Failure.unplaced := by
    have first := congrArg (fun es => es.head?.map Failure.malformed) errors
    simp only [List.head?_map, Option.map_map] at first
    simp only [blame, Option.map_map]
    exact first
  have some : (blame p).isSome = (blame q).isSome := by
    simpa only [Option.isSome_map] using congrArg Option.isSome blamed
  have told : ((p.errors.map Diagnostic.malformed).filter (·.aboutProgram)).map Diagnostic.unplaced =
      ((q.errors.map Diagnostic.malformed).filter (·.aboutProgram)).map Diagnostic.unplaced := by
    have all := congrArg (List.map Diagnostic.malformed) errors
    rw [List.map_map, List.map_map] at all
    rw [filter_malformed, filter_malformed, List.map_map, List.map_map]
    exact all
  obtain ⟨m, ends | ⟨e, ends⟩⟩ := ends
  · rw [runProgram_of_ok pComplete (runs.trans ends), runProgram_of_ok qComplete ends]
    exact ⟨congrArg Except.ok blamed, rfl, rfl, by rw [some], told⟩
  · rw [runProgram_of_error pComplete (runs.trans ends), runProgram_of_error qComplete ends]
    refine ⟨congrArg Except.ok ?_, rfl, rfl, rfl, ?_⟩
    · rw [Option.map_or, Option.map_or, blamed]
    · simp only [List.filter_append, List.map_append, told]

/-- Texts whose words are the same run alike: with the same output, trace, bindings and answer, and as
many errors in the same order, which tell of the same things in other lines. Their statements are
the same but for the lines. -/
theorem run_words (s : Session) {a b : String}
    (same : (Source.stream a).toList.map Token.word = (Source.stream b).toList.map Token.word) :
    (s.run a).Alike (s.run b) ∧
      List.Forall₂ ParseError.Alike (Program.ofStream (Source.stream a)).errors
        (Program.ofStream (Source.stream b)).errors ∧
      (Program.ofStream (Source.stream a)).statements.map Node.unplaced =
        (Program.ofStream (Source.stream b)).statements.map Node.unplaced := by
  have whole : (Source.stream a).body.map Token.word ++ [(Source.stream a).stop.word] =
      (Source.stream b).body.map Token.word ++ [(Source.stream b).stop.word] := by
    rw [TokenStream.toList, TokenStream.toList, List.map_append, List.map_append] at same
    exact same
  obtain ⟨body, _⟩ := List.append_inj' whole rfl
  obtain ⟨statements, errors⟩ := Program.ofStream_unplaced body rfl
  have turn := runProgram_alike (s := s) Grammar.complete_ofStream Grammar.complete_ofStream errors
    (s.ran_unplaced statements) (s.ran_of_source b)
  refine ⟨⟨turn.outcome, turn.output, turn.trace, turn.session, ?_⟩, ?_, statements⟩
  · simp only [run, List.filter_append, filter_strays, List.nil_append]
    exact turn.diagnostics
  · have all : List.Forall₂ Eq _ _ := List.forall₂_eq_eq_eq ▸ errors
    rw [List.forall₂_map_left_iff, List.forall₂_map_right_iff] at all
    exact all.imp fun _ _ => ParseError.alike_of_unplaced

/-- A malformed statement, and an operand that is no number. -/
def packed : String := "var x=\"a\";print;print-x;"

/-- The same words on five lines, with stray characters between them. -/
def spread : String := "var x # = \n\"a\";\n@ print\n\n;print\t-x;"

theorem packed_spread :
    (Source.stream packed).toList.map Token.word = (Source.stream spread).toList.map Token.word ∧
      ((start 3).run packed).Alike ((start 3).run spread) ∧
      List.Forall₂ ParseError.Alike (Program.ofStream (Source.stream packed)).errors
        (Program.ofStream (Source.stream spread)).errors ∧
      (Program.ofStream (Source.stream packed)).statements.map Node.unplaced =
        (Program.ofStream (Source.stream spread)).statements.map Node.unplaced := by
  have same : (Source.stream packed).toList.map Token.word =
      (Source.stream spread).toList.map Token.word := by decide +kernel
  exact ⟨same, run_words (start 3) same⟩

end Session

end Scriptlet
