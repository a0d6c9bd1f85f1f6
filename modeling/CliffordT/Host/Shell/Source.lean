import CliffordT.Host.Shell.Script

/-!
# Texts of scripts

A source is the rest of a script's text, with what reading it has to remember.  A token may be put
back once.  Documents that a line announces start behind that line; they are kept by numbers in the
order of their announcement.
-/

namespace CliffordT

namespace Shell

/-- A token of a script. -/
inductive Token where
  | endOfText
  | newline
  /-- One of the operators `;`, `&`, `&&`, `||`, `|`, `(`, `)` and `;;`. -/
  | operator (symbol : String)
  /-- A redirection of a descriptor by one of the symbols `>`, `<` and longer ones. -/
  | redirect (descriptor : Nat) (symbol : String)
  | word (pieces : Phrase)
  | keyword (name : String)

namespace Token

/-- The token in words. -/
def describe : Token → String
  | endOfText => "end of file"
  | newline => "newline"
  | operator symbol => "\"" ++ symbol ++ "\""
  | redirect .. => "redirection"
  | word .. => "word"
  | keyword name => "\"" ++ name ++ "\""

/-- Whether the token is a given operator. -/
def isOperator (t : Token) (symbol : String) : Bool :=
  match t with
  | operator s => s == symbol
  | _ => false

/-- Whether the token is a given keyword. -/
def isKeyword (t : Token) (name : String) : Bool :=
  match t with
  | keyword s => s == name
  | _ => false

/-- Whether the token ends a list of commands. -/
def endsList : Token → Bool
  | endOfText => true
  | operator symbol => [")", ";;"].contains symbol
  | keyword name => ["do", "done", "elif", "else", "esac", "fi", "then", "\x7d"].contains name
  | _ => false

end Token

/-- The words that have a meaning of their own where a command may start. -/
def keywords : List String :=
  ["!", "case", "do", "done", "elif", "else", "esac", "fi", "for", "if", "in", "then", "until",
   "while", "\x7b", "\x7d"]

/-- The builtin commands whose faults end a script, and whose names functions cannot take. -/
def specialBuiltins : List String :=
  [".", ":", "break", "continue", "eval", "exec", "exit", "export", "local", "readonly", "return",
   "set", "shift", "times", "trap", "unset"]

/-- Why a text is no script. -/
inductive SyntaxFault where
  | unexpected (found : String)
  /-- A token stands where another one is due. -/
  | expecting (found due : String)
  | unterminatedQuotes
  | missingBrace
  | missingParentheses
  | unterminatedBackquotes
  | loopVariable
  | functionName
  | descriptor
deriving DecidableEq

/-- The fault in words. -/
def SyntaxFault.message : SyntaxFault → String
  | unexpected found => found ++ " unexpected"
  | expecting found due => found ++ " unexpected (expecting " ++ due ++ ")"
  | unterminatedQuotes => "Unterminated quoted string"
  | missingBrace => "Missing '\x7d'"
  | missingParentheses => "Missing '))'"
  | unterminatedBackquotes => "EOF in backquote substitution"
  | loopVariable => "Bad for loop variable"
  | functionName => "Bad function name"
  | descriptor => "Bad fd number"

/-- A document that a line has announced. -/
structure Announced where
  number : Nat
  /-- The line that ends the document. -/
  mark : Text
  /-- The pieces of the document are replaced. -/
  isOpen : Bool
  /-- Tabs at the start of its lines do not count. -/
  stripsTabs : Bool

/-- The text of an alias that has been put in place of a word. -/
structure Inserted where
  name : Text
  /-- The length of the rest of the script behind it. -/
  behind : Nat
  /-- The word behind the text may be an alias, too. -/
  goesOn : Bool

/-- The rest of a script. -/
structure Source where
  rest : Text
  line : Nat := 1
  /-- A token that has been put back. -/
  returned : Option Token := none
  /-- The documents whose text has not started yet. -/
  announced : List Announced := []
  /-- The number of documents so far. -/
  count : Nat := 0
  /-- The documents that have been read. -/
  documents : List (Nat × Phrase) := []
  /-- The texts that stand for commands. -/
  aliases : List (Text × Text) := []
  /-- The texts of aliases that are being read. -/
  inserted : List Inserted := []
  /-- The next word may be an alias. -/
  awaitsCommand : Bool := false

/-- Reading a script; a fault stands on a line. -/
abbrev Reader := StateT Source (Except (Nat × SyntaxFault))

namespace Source

/-- A fault on the current line. -/
def fail {α : Type} (f : SyntaxFault) : Reader α := fun s => .error (s.line, f)

/-- The text without the line ends at its head that a backslash hides, and their number. -/
def joinLines : Text → Text × Nat
  | '\\' :: '\n' :: cs => ((joinLines cs).1, (joinLines cs).2 + 1)
  | cs => (cs, 0)

/-- Join the lines that a backslash joins here. -/
def join (s : Source) : Source :=
  let (rest, n) := joinLines s.rest
  { s with rest, line := s.line + n }

/-- The next character behind joined lines, which stays. -/
def peek : Reader (Option Char) := fun s => .ok (s.join.rest.head?, s.join)

/-- Behind the next character. -/
def skip : Reader Unit := fun s => .ok ((), { s with
  rest := s.rest.tail
  line := if s.rest.head? == some '\n' then s.line + 1 else s.line })

/-- The next character behind joined lines, if it satisfies a condition. -/
def takeIf (p : Char → Bool) : Reader (Option Char) := do
  match ← peek with
  | some c => if p c then (do skip; return some c) else return none
  | none => return none

/-- Whether a given character is next; it is skipped. -/
def accept (x : Char) : Reader Bool := return (← takeIf (· == x)).isSome

/-- The characters at the head of the text that satisfy a condition. -/
def takeWhile (p : Char → Bool) : Reader Text := fun s =>
  let found := s.rest.takeWhile p
  .ok (found,
    { s with rest := s.rest.dropWhile p, line := s.line + (found.filter (· == '\n')).length })

/-- The next token may be an alias. -/
def awaitCommand : Reader Unit := modify fun s => { s with awaitsCommand := true }

/-- Pass over blanks, and over the ends of aliases' texts.  The result tells whether the token that
starts here may be an alias because of what was in front. -/
def startToken : Reader Bool := do
  let s ← get
  let rest := s.rest.dropWhile fun c => c == ' ' || c == '\t'
  let (ended, others) := s.inserted.partition fun i => rest.length ≤ i.behind
  set { s with rest, inserted := others, awaitsCommand := false }
  return s.awaitsCommand || ended.any (·.goesOn)

/-- Put the text of an alias in place of a word that has just been read, unless it stands within
that text. -/
def insertAlias (name : Text) (wasInserted : List Inserted) : Reader Bool := do
  let s ← get
  match s.aliases.lookup name with
  | some text =>
    if wasInserted.any (·.name == name) then return false
    else
      let goesOn := text.getLast?.any fun c => c == ' ' || c == '\t'
      set { s with
        rest := text ++ s.rest
        inserted := { name, behind := s.rest.length, goesOn } :: wasInserted }
      return true
  | none => return false

/-- Put a token back. -/
def putBack (t : Token) : Reader Unit := modify fun s => { s with returned := some t }

end Source

end Shell

end CliffordT
