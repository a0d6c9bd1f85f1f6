import CliffordT.Host.Shell.Source

/-!
# Reading scripts

A script is read one complete command at a time, since what a command does may show before a later
one turns out to be malformed.  Every reader takes a bound on the depth of its calls; a call goes
down only after a character, or on the way to one, so a small multiple of the text's length is never
reached.
-/

namespace CliffordT

namespace Shell

namespace Source

/-! ### Words -/

/-- What the pieces of a word stand in, and therefore end with. -/
inductive Surrounding where
  /-- Nothing: they end before a character that ends words. -/
  | bare
  /-- Double quotes. -/
  | quotes
  /-- The braces of a parameter.  An inner quote may be open, which a brace does not end. -/
  | braces (inQuotes hasInner : Bool)
  /-- A document, which ends with the text. -/
  | document
  /-- An arithmetic expression with some open parentheses. -/
  | sum (depth : Nat)

/-- Whether blanks and most other characters stand for themselves. -/
def Surrounding.isQuoted : Surrounding → Bool
  | bare => false
  | braces inQuotes _ => inQuotes
  | _ => true

/-- The fault of a text that ends here. -/
def Surrounding.fault : Surrounding → SyntaxFault
  | braces false _ => .missingBrace
  | sum _ => .missingParentheses
  | _ => .unterminatedQuotes

/-- Whether a backslash takes the meaning of a character inside quotes. -/
def Surrounding.escapes (p : Surrounding) (c : Char) : Bool :=
  !p.isQuoted || ['\\', '$', '\x60'].contains c ||
    (match p with
      | document => false
      | braces _ _ => c == '"' || c == '\x7d'
      | _ => c == '"')

/-- The characters that end a word. -/
def endsWord (c : Char) : Bool := [' ', '\t', '\n', ';', '&', '|', '<', '>', '(', ')'].contains c

/-- The parameters whose names are single characters other than letters. -/
def isSpecialName (c : Char) : Bool := ['*', '@', '#', '?', '-', '$', '!'].contains c || c.isDigit

/-- A character without a meaning of its own anywhere. -/
def isOrdinary (c : Char) : Bool := isNameChar c || ['.', ',', '/', '-', '=', '+', '%'].contains c

/-- Characters put before the pieces of a word. -/
def addChars (inQuotes : Bool) (cs : Text) : Phrase → Phrase
  | .chars q ds :: rest =>
    if q = inQuotes then .chars q (cs ++ ds) :: rest else .chars inQuotes cs :: .chars q ds :: rest
  | ps => .chars inQuotes cs :: ps

/-- Whether a piece shows that its word was quoted. -/
def isQuotedPiece : Piece → Bool
  | .chars inQuotes _ => inQuotes
  | _ => false

/-- The text of a word that is used as it stands. -/
def plainText (ps : Phrase) : Text :=
  ps.flatMap fun
    | .chars _ cs => cs
    | .parameter _ name _ _ => '$' :: name
    | _ => []

/-! ### Documents -/

/-- Whether an odd number of backslashes ends a line. -/
def endsJoined (line : Text) : Bool := (line.reverse.takeWhile (· == '\\')).length % 2 == 1

/-- The text of a document among the lines that start with it, and the lines behind the one that
ends it.  A line that is joined to the one before it ends no document. -/
def takeDocument (a : Announced) (isJoined : Bool) : List Text → Text × List Text
  | [] => ([], [])
  | line :: rest =>
    let line := if a.stripsTabs && !isJoined then line.dropWhile (· == '\t') else line
    if !isJoined && line == a.mark then ([], rest)
    else if rest.isEmpty then (line, [])
    else
      let (text, left) := takeDocument a (a.isOpen && endsJoined line) rest
      (line ++ '\n' :: text, left)

/-! ### Assignments and redirections -/

/-- A word that sets a variable: a name and an equals sign before its value. -/
def assignment? : Phrase → Option Assignment
  | .chars false cs :: rest =>
    let name := cs.takeWhile (· != '=')
    match cs.dropWhile (· != '=') with
    | _ :: value =>
      if isName name then
        some (.mk name (if value.isEmpty then rest else .chars false value :: rest))
      else none
    | [] => none
  | _ => none

/-- The words that a redirection may have in front of its symbol: nothing, or one digit. -/
def descriptor? : Phrase → Option (Option Nat)
  | [] => some none
  | [.chars false [d]] => if d.isDigit then some (some (valueOf 10 [d])) else none
  | _ => none

/-- The kind of redirection that a symbol stands for, documents apart. -/
def redirectOf (symbol : String) : Redirect :=
  if symbol = ">>" then .append
  else if symbol = "<" then .input
  else if symbol = "<>" then .both
  else if symbol = ">&" ∨ symbol = "<&" then .copy
  else .output (symbol == ">")

/-- The symbol of a redirection that starts here. -/
def redirectSymbol : Reader String := do
  if ← accept '>' then
    if ← accept '>' then return ">>"
    else if ← accept '|' then return ">|"
    else if ← accept '&' then return ">&"
    else return ">"
  else
    let _ ← accept '<'
    if ← accept '<' then (if ← accept '-' then return "<<-" else return "<<")
    else if ← accept '&' then return "<&"
    else if ← accept '>' then return "<>"
    else return "<"

/-- What a parameter in braces asks for, from behind its name and a colon if there is one.  Each
sign is looked for only where the ones before it do not stand. -/
def treatment (orEmpty : Bool) : Reader Treatment := do
  if ← accept '-' then return .orElse orEmpty
  else if ← accept '=' then return .orSet orEmpty
  else if ← accept '?' then return .orComplain orEmpty
  else if ← accept '+' then return .andThen orEmpty
  else if orEmpty then return .invalid
  else if ← accept '#' then return .withoutStart (← accept '#')
  else if ← accept '%' then return .withoutEnd (← accept '%')
  else return .invalid

/-- A fault at a token that stands where no other one is due in particular. -/
def unexpected {α : Type} (t : Token) : Reader α := fail (.unexpected t.describe)

/-- The lists of commands. -/
inductive ListKind where
  /-- One that ends with its line. -/
  | line
  /-- One that must not be empty. -/
  | body
  /-- One that may be empty. -/
  | optional
deriving DecidableEq

/-! ### Reading -/

mutual

/-- The pieces that stand here, up to the end of their surrounding. -/
def pieces : Nat → Surrounding → Reader Phrase
  | 0, p => fail p.fault
  | n + 1, p => do
    match ← peek with
    | none =>
      match p with
      | .bare => return []
      | .document => return []
      | _ => fail p.fault
    | some c =>
      if isOrdinary c then
        let cs ← takeWhile isOrdinary
        return addChars p.isQuoted cs (← pieces n p)
      else if c = '\\' then
        skip
        match (← get).rest with
        | [] => return addChars true ['\\'] (← pieces n p)
        | d :: _ =>
          skip
          return addChars true (if p.escapes d then [d] else ['\\', d]) (← pieces n p)
      else if c = '\'' && !p.isQuoted then
        skip
        let cs ← takeWhile (· != '\'')
        if (← get).rest.isEmpty then fail .unterminatedQuotes
        skip
        return addChars true cs (← pieces n p)
      else if c = '"' then quote n p
      else if c = '$' then
        skip
        let found ← dollar n p
        match found with
        | some piece => return piece :: (← pieces n p)
        | none => return addChars p.isQuoted ['$'] (← pieces n p)
      else if c = '\x60' then
        skip
        let piece ← backquotes n p
        return piece :: (← pieces n p)
      else
        match p with
        | .bare =>
          if endsWord c then return []
          else do
            skip
            return addChars false [c] (← pieces n p)
        | .braces _ false =>
          skip
          if c = '\x7d' then return [] else return addChars p.isQuoted [c] (← pieces n p)
        | .sum depth =>
          skip
          if c = '(' then return addChars true [c] (← pieces n (.sum (depth + 1)))
          else if c = ')' && depth == 0 then
            if ← accept ')' then return [] else return addChars true [c] (← pieces n p)
          else if c = ')' then return addChars true [c] (← pieces n (.sum (depth - 1)))
          else return addChars true [c] (← pieces n p)
        | _ =>
          skip
          return addChars p.isQuoted [c] (← pieces n p)

/-- What a double quote means here. -/
def quote : Nat → Surrounding → Reader Phrase
  | 0, p => fail p.fault
  | n + 1, p => do
    skip
    match p with
    | .quotes => return []
    | .braces true hasInner => pieces n (.braces true !hasInner)
    | .document => return addChars true ['"'] (← pieces n p)
    | .sum _ => return addChars true ['"'] (← pieces n p)
    | _ =>
      match (← get).rest with
      | '$' :: '@' :: '"' :: rest =>
        modify fun s => { s with rest }
        return .parameter true ['@'] .keep [] :: (← pieces n p)
      | _ =>
        let inner ← pieces n .quotes
        return .chars true [] :: inner ++ (← pieces n p)

/-- What stands behind a dollar sign; nothing if the sign stands for itself. -/
def dollar : Nat → Surrounding → Reader (Option Piece)
  | 0, p => fail p.fault
  | n + 1, p => do
    match ← peek with
    | none => return none
    | some c =>
      if c = '(' then
        skip
        if ← accept '(' then return some (.sum p.isQuoted (← pieces n (.sum 0)))
        let body ← list n .optional none
        let t ← token n false false
        if !t.isOperator ")" then fail (.expecting t.describe "\")\"")
        return some (.output p.isQuoted body)
      else if c = '\x7b' then
        skip
        return some (← inBraces n p)
      else if isNameStart c then
        return some (.parameter p.isQuoted (← takeWhile isNameChar) .keep [])
      else if isSpecialName c then
        skip
        return some (.parameter p.isQuoted [c] .keep [])
      else return none

/-- A parameter in braces, from behind the opening one. -/
def inBraces : Nat → Surrounding → Reader Piece
  | 0, p => fail p.fault
  | n + 1, p => do
    match ← peek with
    | none => treated n p []
    | some c =>
      if isNameStart c then treated n p (← takeWhile isNameChar)
      else if c.isDigit then treated n p (← takeWhile Char.isDigit)
      else if c = '#' then
        skip
        match ← peek with
        | none => treated n p ['#']
        | some d =>
          if isNameChar d then
            let name ← takeWhile (if d.isDigit then Char.isDigit else isNameChar)
            if ← accept '\x7d' then return .parameter p.isQuoted name .length []
            else return .parameter p.isQuoted name .invalid (← pieces n (.braces p.isQuoted false))
          else if d != '\x7d' && isSpecialName d && (← get).rest.tail.head? == some '\x7d' then
            skip
            skip
            return .parameter p.isQuoted [d] .length []
          else treated n p ['#']
      else if isSpecialName c then
        skip
        treated n p [c]
      else return .parameter p.isQuoted [] .invalid (← pieces n (.braces p.isQuoted false))

/-- What is made of a parameter's value, from behind its name. -/
def treated : Nat → Surrounding → Text → Reader Piece
  | 0, p, _ => fail p.fault
  | n + 1, p, name => do
    if ← accept '\x7d' then return .parameter p.isQuoted name .keep []
    let orEmpty ← accept ':'
    let treatment ← treatment orEmpty
    let inQuotes :=
      match treatment with
      | .withoutStart _ => false
      | .withoutEnd _ => false
      | _ => p.isQuoted
    return .parameter p.isQuoted name treatment (← pieces n (.braces inQuotes false))

/-- A script between backquotes, from behind the first one. -/
def backquotes : Nat → Surrounding → Reader Piece
  | 0, p => fail p.fault
  | n + 1, p => do
    let line := (← get).line
    let text ← backquoted n p
    let rest := (← get).rest
    let endLine := (← get).line
    modify fun s => { s with rest := text, line }
    let body ← list n .optional none
    modify fun s => { s with rest, line := endLine, returned := none }
    return .output p.isQuoted body

/-- The text between backquotes.  A backslash takes the meaning of another one, of a dollar sign and
of a backquote. -/
def backquoted : Nat → Surrounding → Reader Text
  | 0, p => fail p.fault
  | n + 1, p => do
    match ← peek with
    | none => fail .unterminatedBackquotes
    | some c =>
      skip
      if c = '\x60' then return []
      else if c = '\\' then
        match (← get).rest with
        | [] => fail .unterminatedBackquotes
        | d :: _ =>
          skip
          let escaped := ['\\', '$', '\x60'].contains d || (p.isQuoted && d == '"')
          return (if escaped then [d] else [c, d]) ++ (← backquoted n p)
      else return c :: (← backquoted n p)

/-- The documents that have been announced, the first of which starts here. -/
def readDocuments : Nat → Reader Unit
  | 0 => pure ()
  | n + 1 => do
    match (← get).announced with
    | [] => pure ()
    | a :: others =>
      let (body, left) := takeDocument a false (splitAt (· == '\n') (← get).rest)
      let line := (← get).line
      modify fun s => { s with rest := body, announced := [] }
      let text ←
        if a.isOpen then pieces n .document
        else pure [Piece.chars true body]
      modify fun s => { s with
        rest := joinWith ['\n'] left
        announced := others
        documents := (a.number, text) :: s.documents
        line := line + (body.filter (· == '\n')).length + 1 }
      readDocuments n

/-- The next token, without regard to keywords. -/
def rawToken : Nat → Reader Token
  | 0 => pure .endOfText
  | n + 1 => do
    match ← peek with
    | none => return .endOfText
    | some c =>
      if c = ' ' ∨ c = '\t' then
        skip
        rawToken n
      else if c = '#' then
        let _ ← takeWhile (· != '\n')
        rawToken n
      else if c = '\n' then
        skip
        readDocuments n
        return .newline
      else if c = '&' then
        skip
        if ← accept '&' then return .operator "&&" else return .operator "&"
      else if c = '|' then
        skip
        if ← accept '|' then return .operator "||" else return .operator "|"
      else if c = ';' then
        skip
        if ← accept ';' then return .operator ";;" else return .operator ";"
      else if c = '(' then
        skip
        return .operator "("
      else if c = ')' then
        skip
        return .operator ")"
      else
        let ps ← pieces n .bare
        match ← peek, descriptor? ps with
        | some d, some number =>
          if d = '<' ∨ d = '>' then
            let symbol ← redirectSymbol
            return .redirect (number.getD (if d = '<' then 0 else 1)) symbol
          else return .word ps
        | _, _ => return .word ps

/-- The next token.  Words may count as keywords, and newlines may be passed over.  Where keywords
count, aliases do, too. -/
def token : Nat → Bool → Bool → Reader Token
  | 0, _, _ => pure .endOfText
  | n + 1, hasKeywords, skipsNewlines => do
    match (← get).returned with
    | some t =>
      modify fun s => { s with returned := none, awaitsCommand := false }
      named n hasKeywords skipsNewlines none t
    | none =>
      let awaited ← startToken
      let inserted := (← get).inserted
      let t ← rawToken n
      named n hasKeywords skipsNewlines (if hasKeywords || awaited then some inserted else none) t

/-- The same from behind a token, which may be an alias if the aliases around it are given. -/
def named : Nat → Bool → Bool → Option (List Inserted) → Token → Reader Token
  | 0, _, _, _, t => pure t
  | n + 1, hasKeywords, skipsNewlines, inserted, t => do
    match t with
    | .newline => if skipsNewlines then token n hasKeywords skipsNewlines else return t
    | .word [.chars false w] =>
      if hasKeywords && keywords.contains (String.ofList w) then
        return .keyword (String.ofList w)
      else
        match inserted with
        | some inserted =>
          if ← insertAlias w inserted then
            awaitCommand
            token n hasKeywords skipsNewlines
          else return t
        | none => return t
    | _ => return t

/-- A word must follow. -/
def expectWord : Nat → Reader Phrase
  | 0 => unexpected .endOfText
  | n + 1 => do
    match ← token n false false with
    | .word ps => return ps
    | t => unexpected t

/-- A given keyword must follow. -/
def expectKeyword : Nat → String → Reader Unit
  | 0, _ => unexpected .endOfText
  | n + 1, name => do
    let t ← token n true true
    if !t.isKeyword name then fail (.expecting t.describe (Token.keyword name).describe)

/-- A redirection, from behind its symbol. -/
def redirection : Nat → Nat → String → Reader Redirection
  | 0, _, _ => unexpected .endOfText
  | n + 1, descriptor, symbol => do
    let target ← expectWord n
    if symbol = "<<" ∨ symbol = "<<-" then
      let number := (← get).count
      let a : Announced :=
        ⟨number, plainText target, !target.any isQuotedPiece, symbol == "<<-"⟩
      modify fun s => { s with announced := s.announced ++ [a], count := number + 1 }
      return .document descriptor number
    else return .file descriptor (redirectOf symbol) target

/-- The redirections that stand here. -/
def redirections : Nat → Reader (List Redirection)
  | 0 => pure []
  | n + 1 => do
    match ← token n true false with
    | .redirect descriptor symbol =>
      let r ← redirection n descriptor symbol
      return r :: (← redirections n)
    | t =>
      putBack t
      return []

/-- A list of commands behind those that are read already. -/
def list : Nat → ListKind → Option Script → Reader (Option Script)
  | 0, _, _ => unexpected .endOfText
  | n + 1, kind, sofar => do
    let t ← token n true (kind != .line)
    match t with
    | .newline => return sofar
    | .endOfText =>
      putBack t
      return sofar
    | _ =>
      putBack t
      if kind != .line && (kind == .optional || sofar.isSome) && t.endsList then return sofar
      let next ← joined n
      let t ← token n false false
      let next := if t.isOperator "&" then Script.background next else next
      let all :=
        match sofar with
        | some s => Script.sequence s next
        | none => next
      match t with
      | .newline =>
        putBack t
        list n kind (some all)
      | .endOfText =>
        putBack t
        return some all
      | _ =>
        if t.isOperator "&" || t.isOperator ";" then list n kind (some all)
        else if kind == .line then unexpected t
        else do
          putBack t
          return some all

/-- A list that must not be empty; a token is due behind it. -/
def body : Nat → String → Reader Script
  | 0, _ => unexpected .endOfText
  | n + 1, due => do
    match ← list n .body none with
    | some s => return s
    | none => fail (.expecting Token.endOfText.describe ("\"" ++ due ++ "\""))

/-- Commands joined by `&&` and `||`. -/
def joined : Nat → Reader Script
  | 0 => unexpected .endOfText
  | n + 1 => do
    let first ← pipeline n true false
    joins n first

/-- What is joined to a command by `&&` and `||`, from left to right. -/
def joins : Nat → Script → Reader Script
  | 0, _ => unexpected .endOfText
  | n + 1, first => do
    let t ← token n false false
    if t.isOperator "&&" then
      let second ← pipeline n true true
      joins n (.andThen first second)
    else if t.isOperator "||" then
      let second ← pipeline n true true
      joins n (.orElse first second)
    else
      putBack t
      return first

/-- Commands joined by pipes. -/
def pipeline : Nat → Bool → Bool → Reader Script
  | 0, _, _ => unexpected .endOfText
  | n + 1, hasKeywords, skipsNewlines => do
    let t ← token n hasKeywords skipsNewlines
    let isNegated := t.isKeyword "!"
    if !isNegated then putBack t
    let first ← command n false
    let rest ← pipes n
    let whole := if rest.isEmpty then first else Script.pipeline (first :: rest)
    return if isNegated then .negated whole else whole

/-- The commands behind pipes. -/
def pipes : Nat → Reader (List Script)
  | 0 => unexpected .endOfText
  | n + 1 => do
    let t ← token n false false
    if t.isOperator "|" then
      let next ← command n true
      return next :: (← pipes n)
    else
      putBack t
      return []

/-- One command, with the redirections behind it. -/
def command : Nat → Bool → Reader Script
  | 0, _ => unexpected .endOfText
  | n + 1, skipsNewlines => do
    let t ← token n true skipsNewlines
    let line := (← get).line
    match t with
    | .word _ =>
      putBack t
      simple n line [] [] [] true
    | .redirect .. =>
      putBack t
      simple n line [] [] [] true
    | .operator symbol =>
      if symbol = "(" then
        let inner ← body n ")"
        let t ← token n false false
        if !t.isOperator ")" then fail (.expecting t.describe "\")\"")
        return .subshell line inner (← redirections n)
      else unexpected t
    | .keyword name =>
      let whole ←
        if name = "if" then conditional n
        else if name = "while" ∨ name = "until" then do
          let condition ← body n "do"
          expectKeyword n "do"
          let inner ← body n "done"
          expectKeyword n "done"
          pure (.loop (name == "until") condition inner)
        else if name = "for" then each n line
        else if name = "case" then choice n line
        else if name = "\x7b" then do
          let inner ← body n "\x7d"
          expectKeyword n "\x7d"
          pure inner
        else unexpected t
      let rs ← redirections n
      return if rs.isEmpty then whole else .redirected line whole rs
    | _ => unexpected t

/-- The condition and the branches of `if`. -/
def conditional : Nat → Reader Script
  | 0 => unexpected .endOfText
  | n + 1 => do
    let condition ← body n "then"
    expectKeyword n "then"
    let yes ← body n "fi"
    let t ← token n true true
    if t.isKeyword "elif" then
      return .conditional condition yes (some (← conditional n))
    else if t.isKeyword "else" then
      let no ← body n "fi"
      expectKeyword n "fi"
      return .conditional condition yes (some no)
    else if t.isKeyword "fi" then return .conditional condition yes none
    else fail (.expecting t.describe "\"fi\"")

/-- The name, the words and the body of `for`. -/
def each : Nat → Nat → Reader Script
  | 0, _ => unexpected .endOfText
  | n + 1, line => do
    match ← token n false false with
    | .word [.chars false name] =>
      if !isName name then fail .loopVariable
      let t ← token n true true
      let words ←
        if t.isKeyword "in" then do
          let ws ← words n
          let t ← token n false false
          match t with
          | .newline => pure ()
          | _ => if !t.isOperator ";" then unexpected t
          pure (some ws)
        else do
          if !t.isOperator ";" then putBack t
          pure none
      expectKeyword n "do"
      let inner ← body n "done"
      expectKeyword n "done"
      return .each line name words inner
    | _ => fail .loopVariable

/-- The words that stand here. -/
def words : Nat → Reader (List Phrase)
  | 0 => pure []
  | n + 1 => do
    match ← token n false false with
    | .word ps => return ps :: (← words n)
    | t =>
      putBack t
      return []

/-- The subject and the branches of `case`. -/
def choice : Nat → Nat → Reader Script
  | 0, _ => unexpected .endOfText
  | n + 1, line => do
    let t ← token n false false
    match t with
    | .word subject =>
      expectKeyword n "in"
      return .choice line subject (← branches n)
    | _ => fail (.expecting t.describe "word")

/-- The branches of `case`, up to its end. -/
def branches : Nat → Reader (List Branch)
  | 0 => unexpected .endOfText
  | n + 1 => do
    let t ← token n true true
    if t.isKeyword "esac" then return []
    let first ← if t.isOperator "(" then token n false false else pure t
    let patterns ← patterns n first
    let inner ← list n .optional none
    let t ← token n true true
    if t.isKeyword "esac" then return [.mk patterns inner]
    else if t.isOperator ";;" then return .mk patterns inner :: (← branches n)
    else fail (.expecting t.describe "\";;\"")

/-- The patterns of a branch, from a token that is the first one. -/
def patterns : Nat → Token → Reader (List Phrase)
  | 0, _ => unexpected .endOfText
  | n + 1, first => do
    let pattern : Phrase :=
      match first with
      | .word ps => ps
      | .keyword name => [.chars false name.toList]
      | _ => []
    let t ← token n false false
    if t.isOperator "|" then
      let next ← token n false false
      return pattern :: (← patterns n next)
    else if t.isOperator ")" then return [pattern]
    else fail (.expecting t.describe "\")\"")

/-- A simple command behind some of its parts: assignments, words and redirections, each with the
last one first.  A word may set a variable as long as `canAssign` holds. -/
def simple : Nat → Nat → List Assignment → List Phrase → List Redirection → Bool → Reader Script
  | 0, _, _, _, _, _ => unexpected .endOfText
  | n + 1, line, settings, ws, rs, canAssign => do
    if canAssign then awaitCommand
    let t ← token n false false
    match t with
    | .word ps =>
      match if canAssign then assignment? ps else none with
      | some a => simple n line (a :: settings) ws rs true
      | none => simple n line settings (ps :: ws) rs false
    | .redirect descriptor symbol =>
      let r ← redirection n descriptor symbol
      simple n line settings ws (r :: rs) canAssign
    | _ =>
      match settings, ws, rs with
      | [], [name], [] =>
        if t.isOperator "(" then
          let t ← token n false false
          if !t.isOperator ")" then fail (.expecting t.describe "\")\"")
          let plain := plainText name
          if !isName plain || specialBuiltins.contains (String.ofList plain) then
            fail .functionName
          return .define plain (← command n true)
        else
          putBack t
          return .simple line [] [name] []
      | _, _, _ =>
        putBack t
        return .simple line settings.reverse ws.reverse rs.reverse

end

/-- A source for a text that starts on the given line. -/
def ofText (text : Text) (line : Nat) : Source := { rest := text, line }

/-- The next complete command, and the source behind it; nothing at the end of the text.  Lines
without a command are passed over. -/
def next : Reader (Option Script) := do
  let s ← get
  let added := s.aliases.foldl (fun n (_, text) => n + text.length) 1
  let bound := 16 * (s.rest.length + 4) * added
  let t ← token bound true true
  match t with
  | .endOfText => return none
  | _ =>
    putBack t
    list bound .line none

end Source

end Shell

end CliffordT
