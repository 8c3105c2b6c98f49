import Scriptlet.Token.Piece

/-! Token streams: the tokens up to the first end of input, that end itself, and whatever stands
beyond it. A source text always makes a stream with nothing beyond its end; stray characters are
kept apart from it. -/
namespace Scriptlet

structure TokenStream where
  body : List Token
  /-- The token that ends the input. -/
  stop : Token
  beyond : List Token
  open_body : ∀ t ∈ body, t.kind ≠ .endOfInput
  stop_kind : stop.kind = .endOfInput

namespace TokenStream

/-- Reads a list of tokens, which has to close with an end of input. -/
def ofTokens? (tokens : List Token) : Option TokenStream :=
  if tokens.getLast?.any (·.kind = .endOfInput) then
    match h : tokens.dropWhile (·.kind != .endOfInput) with
    | stop :: beyond => some {
        body := tokens.takeWhile (·.kind != .endOfInput)
        stop, beyond
        open_body := fun t mem => by
          have := List.all_eq_true.1 (List.all_takeWhile (l := tokens)) t mem
          simpa using this
        stop_kind := by
          have := List.head_dropWhile_not (fun t : Token => t.kind != .endOfInput)
            (l := tokens) (by simp [h])
          simpa [h] using this }
    | [] => none
  else none

def toList (s : TokenStream) : List Token := s.body ++ s.stop :: s.beyond

/-- Whether the first end of input is also the last token. -/
def isWhole (s : TokenStream) : Bool := s.beyond.isEmpty

theorem toList_of_ofTokens? {tokens : List Token} {s : TokenStream}
    (h : ofTokens? tokens = some s) : s.toList = tokens := by
  unfold ofTokens? at h
  split at h
  · split at h
    next stop beyond hd =>
      cases h
      simp [toList, ← hd, List.takeWhile_append_dropWhile]
    · cases h
  · cases h

end TokenStream

namespace Piece

/-- A word that is reserved is a keyword, any other an identifier. -/
def kind : Piece → TokenKind
  | blank _ => .blank
  | symbol s => .symbol s
  | word first others =>
    match Keyword.ofText? (String.ofList (first :: others)) with
    | some w => .keyword w
    | none => .identifier
  | number _ _ => .number
  | quoted _ _ => .string
  | stray _ => .invalid

/-- What a token keeps of its slice: all of it, but for the quotes around a string. -/
def lexeme : Piece → List Char
  | quoted body _ => body
  | p => p.slice

theorem kind_ne_endOfInput (p : Piece) : p.kind ≠ .endOfInput := by
  cases p with
  | word first others => simp only [kind]; split <;> nofun
  | _ => nofun

end Piece

def newlines (cs : List Char) : Nat := cs.count '\n'

/-- The tokens of a run of pieces that starts on a given line. A token stands on the line on which
its slice ends. -/
def tokensFrom (line : Nat) : List Piece → List Token
  | [] => []
  | p :: ps =>
    let line := line + newlines p.slice
    ⟨p.kind, String.ofList p.lexeme, line⟩ :: tokensFrom line ps

theorem kind_ne_endOfInput_of_mem_tokensFrom {line : Nat} {ps : List Piece} {t : Token}
    (h : t ∈ tokensFrom line ps) : t.kind ≠ .endOfInput := by
  induction ps generalizing line with
  | nil => cases h
  | cons p ps ih =>
    rcases List.mem_cons.1 h with rfl | h
    · exact p.kind_ne_endOfInput
    · exact ih h

namespace Source

/-- Every token of a source text, blanks and stray characters included. -/
def tokens (source : String) : List Token := tokensFrom 1 (pieces source.toList)

/-- The tokens that carry the program. -/
def stream (source : String) : TokenStream where
  body := (tokens source).filter fun t => t.kind != .blank && t.kind != .invalid
  stop := ⟨.endOfInput, "", 1 + newlines source.toList⟩
  beyond := []
  open_body _ mem := kind_ne_endOfInput_of_mem_tokensFrom (List.mem_filter.1 mem).1
  stop_kind := rfl

/-- The characters that belong to no token, in order. -/
def strays (source : String) : List Token := (tokens source).filter (·.kind = .invalid)

end Source

end Scriptlet
