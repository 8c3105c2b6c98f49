import Scriptlet.Text.Numeric

/-! The arguments of the command line: at most one program, and options before, behind and around
it. Long options may be abbreviated and may carry their argument behind an equals sign; short
options may be joined. -/
namespace Scriptlet

structure Options where
  verbosity : Nat
  /-- A script of which to write the tree to a file. -/
  emit : Option String
  /-- A stored tree to run. -/
  tree : Option String
  /-- A script to run. -/
  program : Option String
  deriving DecidableEq, Repr

namespace Options

def empty : Options := ⟨0, none, none, none⟩

/-- Why arguments do not make options. -/
inductive Refusal where
  | misused
  | helpWanted
  deriving DecidableEq, Repr

inductive Flag where
  | help | verbose | emit | tree
  deriving DecidableEq, Repr

def longFlags : List (List Char × Flag) :=
  [("--help".toList, .help), ("--emit-ast".toList, .emit), ("--ast".toList, .tree)]

def shortFlag? : Char → Option Flag
  | 'h' => some .help
  | 'v' => some .verbose
  | _ => none

/-- What an argument is by its looks. -/
inductive Word where
  | plain (text : String)
  /-- Two dashes, after which nothing is an option. -/
  | separator
  | long (f : Flag) (attached : Option String)
  | short (f : Flag) (joined : List Char)
  | unknown
  deriving DecidableEq, Repr

def isDigit (c : Char) : Bool := (Text.digitValue? c).isSome

/-- A number without sign and exponent. Behind a dash it is no option. -/
def isNumber (cs : List Char) : Bool :=
  match cs.dropWhile isDigit with
  | [] => cs ≠ []
  | '.' :: places => places ≠ [] && places.all isDigit
  | _ => false

/-- An argument that starts with a dash and is no option: a number, or something with a space. -/
def otherwise (cs : List Char) : Word :=
  if isNumber (cs.drop 1) || cs.contains ' ' then .plain (String.ofList cs) else .unknown

/-- The word that an argument is. An abbreviation has to fit one long option only. -/
def Word.ofChars (cs : List Char) : Except Refusal Word :=
  match cs with
  | '-' :: '-' :: [] => .ok .separator
  | '-' :: '-' :: _ =>
    let name := cs.takeWhile (· ≠ '=')
    let attached := match cs.dropWhile (· ≠ '=') with
      | [] => none
      | _ :: text => some (String.ofList text)
    match longFlags.lookup name with
    | some f => .ok (.long f attached)
    | none =>
      match longFlags.filter fun (spelling, _) => name.isPrefixOf spelling with
      | [] => .ok (otherwise cs)
      | [(_, f)] => .ok (.long f attached)
      | _ => .error .misused
  | '-' :: c :: joined =>
    match shortFlag? c with
    | some f => .ok (.short f joined)
    | none => .ok (otherwise cs)
  | _ => .ok (.plain (String.ofList cs))

/-- The words that arguments are, up to a separator; all behind it are plain. -/
def words : List String → Except Refusal (List Word)
  | [] => .ok []
  | arg :: args => do
    match ← Word.ofChars arg.toList with
    | .separator => return .separator :: args.map .plain
    | word => return word :: (← words args)

/-- The flags that the letters behind a dash stand for. -/
def letters : List Char → Except Refusal (List Flag)
  | [] => .ok []
  | c :: cs =>
    match shortFlag? c with
    | some f => (letters cs).map (f :: ·)
    | none => .error .misused

/-- The flags of a short option with others joined to it. An equals sign may stand in front of the
others, but not by itself. -/
def cluster (f : Flag) : List Char → Except Refusal (List Flag)
  | '=' :: [] => .error .misused
  | '=' :: c :: cs => (letters (c :: cs)).map (f :: ·)
  | cs => (letters cs).map (f :: ·)

/-- Takes a flag without argument. -/
def raise (o : Options) : Flag → Except Refusal Options
  | .help => .error .helpWanted
  | .verbose => .ok { o with verbosity := o.verbosity + 1 }
  | _ => .error .misused

/-- What an argument behind an equals sign says. Two dashes say as little as nothing does. -/
def attachedText (argument : String) : String := if argument = "--" then "" else argument

/-- Takes a flag with its argument. Writing a tree and running one exclude each other, also if the
argument of either is empty. -/
def give (o : Options) (f : Flag) (argument : String) : Except Refusal Options :=
  match f with
  | .emit => if o.tree.isSome then .error .misused else .ok { o with emit := some argument }
  | .tree => if o.emit.isSome then .error .misused else .ok { o with tree := some argument }
  | _ => .error .misused

/-- Takes words in order. `placed` tells that the program's place is taken, `surplus` that there is
a word with no place; it is an error only when all other words are in order. -/
def take (o : Options) (placed surplus : Bool) : List Word → Except Refusal Options
  | [] => if surplus then .error .misused else .ok o
  | .plain text :: .separator :: ws =>
    if placed then take o true true (.separator :: ws)
    else take { o with program := some text } true surplus ws
  | .plain text :: ws =>
    if placed then take o true true ws else take { o with program := some text } true surplus ws
  | .separator :: .plain text :: ws =>
    if placed then take o true true ws else take { o with program := some text } true surplus ws
  | .separator :: ws => take o true (surplus || placed) ws
  | .long f (some argument) :: ws => do
    take (← o.give f (attachedText argument)) placed surplus ws
  | .long .help none :: _ => .error .helpWanted
  | .long f none :: .plain argument :: ws => do take (← o.give f argument) placed surplus ws
  | .long _ none :: _ => .error .misused
  | .short f joined :: ws => do
    let flags ← cluster f joined
    take (← flags.foldlM raise o) placed surplus ws
  | .unknown :: ws => take o placed true ws

def ofArguments (args : List String) : Except Refusal Options := do
  take empty false false (← words args)

end Options

end Scriptlet
