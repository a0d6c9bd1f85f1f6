import CliffordT.Host.Shell.Text

/-!
# Arithmetic expressions

The expressions of `$((…))` over integers of sixty-four bits, with the operators and priorities of
C.  Variables are read by name and may be set.  An expression is worked out while its text is read,
so of a fault in the text and one in a value, that further to the left counts.

* `Expression.ofText` : the expression that a text holds,
* `Expression.value` : its value, and the variables that it sets.
-/

namespace CliffordT

namespace Shell

/-- Operators between two operands. -/
inductive BinaryOperator where
  | or | and | bitOr | bitXor | bitAnd | equal | notEqual | less | lessOrEqual | greater
  | greaterOrEqual | shiftLeft | shiftRight | plus | minus | times | quotient | remainder
deriving DecidableEq

/-- Operators in front of an operand. -/
inductive UnaryOperator where
  | plus | minus | not | complement
deriving DecidableEq

/-- Why a text has no arithmetic value. -/
inductive ArithmeticFault where
  | expectingPrimary
  | expectingEnd
  | expectingParenthesis
  | expectingColon
  | divisionByZero
  /-- A variable holds no number. -/
  | illegalNumber (text : Text)
deriving DecidableEq

/-- An arithmetic expression. -/
inductive Expression where
  | number (i : Int)
  | named (name : Text)
  | unary (op : UnaryOperator) (a : Expression)
  | binary (op : BinaryOperator) (a b : Expression)
  | conditional (condition yes no : Expression)
  /-- A variable set to a value, or to its old value combined with one. -/
  | assign (name : Text) (op : Option BinaryOperator) (value : Expression)
  /-- An expression behind which the text goes wrong. -/
  | broken (before : Expression) (fault : ArithmeticFault)

/-- The fault of an expression in words. -/
def ArithmeticFault.message (expression : Text) : ArithmeticFault → Text
  | illegalNumber text => "Illegal number: ".toList ++ text
  | fault =>
    let what :=
      match fault with
      | expectingPrimary => "expecting primary"
      | expectingEnd => "expecting EOF"
      | expectingParenthesis => "expecting ')'"
      | expectingColon => "expecting ':'"
      | _ => "division by zero"
    "arithmetic expression: ".toList ++ what.toList ++ ": \"".toList ++ expression ++ "\"".toList

namespace BinaryOperator

/-- The operators by their symbols, longer ones first, with their priorities. -/
def table : List (String × BinaryOperator × Nat) :=
  [("||", or, 1), ("&&", and, 2), ("==", equal, 6), ("!=", notEqual, 6), ("<=", lessOrEqual, 7),
   (">=", greaterOrEqual, 7), ("<<", shiftLeft, 8), (">>", shiftRight, 8), ("|", bitOr, 3),
   ("^", bitXor, 4), ("&", bitAnd, 5), ("<", less, 7), (">", greater, 7), ("+", plus, 9),
   ("-", minus, 9), ("*", times, 10), ("/", quotient, 10), ("%", remainder, 10)]

/-- The operators that an equals sign may follow. -/
def canAssign : BinaryOperator → Bool
  | bitOr | bitXor | bitAnd | shiftLeft | shiftRight | plus | minus | times | quotient
  | remainder => true
  | _ => false

/-- The truth of a condition as a number. -/
def ofBool (b : Bool) : Int64 := if b then 1 else 0

/-- The value of an operator. -/
def apply (op : BinaryOperator) (a b : Int64) : Except ArithmeticFault Int64 :=
  match op with
  | or => .ok (ofBool (a != 0 || b != 0))
  | and => .ok (ofBool (a != 0 && b != 0))
  | bitOr => .ok (a ||| b)
  | bitXor => .ok (a ^^^ b)
  | bitAnd => .ok (a &&& b)
  | equal => .ok (ofBool (a == b))
  | notEqual => .ok (ofBool (a != b))
  | less => .ok (ofBool (a < b))
  | lessOrEqual => .ok (ofBool (a ≤ b))
  | greater => .ok (ofBool (b < a))
  | greaterOrEqual => .ok (ofBool (b ≤ a))
  | shiftLeft => .ok (a <<< b)
  | shiftRight => .ok (a >>> b)
  | plus => .ok (a + b)
  | minus => .ok (a - b)
  | times => .ok (a * b)
  | quotient => if b = 0 then .error .divisionByZero else .ok (a / b)
  | remainder => if b = 0 then .error .divisionByZero else .ok (a % b)

end BinaryOperator

namespace Expression

/-! ### Reading -/

/-- The text behind white space. -/
def skipSpace (t : Text) : Text := t.dropWhile isSpace

/-- The text behind a given symbol. -/
def afterSymbol? (symbol : String) (t : Text) : Option Text :=
  if symbol.toList.isPrefixOf t then some (t.drop symbol.length) else none

/-- The operator that stands between two operands here, with its priority.  An operator in front of
an equals sign belongs to an assignment. -/
def operator? (t : Text) : Option (BinaryOperator × Nat × Text) :=
  let found := BinaryOperator.table.findSome? fun (symbol, op, priority) =>
    (afterSymbol? symbol t).map fun rest => (op, priority, rest)
  found.filter fun (op, _, rest) => !(op.canAssign && rest.head? == some '=')

/-- The assignment operator that stands here. -/
def assignment? (t : Text) : Option (Option BinaryOperator × Text) :=
  match t with
  | '=' :: rest => if rest.head? == some '=' then none else some (none, rest)
  | _ =>
    BinaryOperator.table.findSome? fun (symbol, op, _) =>
      if op.canAssign then
        (afterSymbol? symbol t).bind fun rest =>
          match rest with
          | '=' :: rest => some (some op, rest)
          | _ => none
      else none

/-- The operator that stands in front of an operand. -/
def unary? : Char → Option UnaryOperator
  | '+' => some .plus
  | '-' => some .minus
  | '!' => some .not
  | '~' => some .complement
  | _ => none

/-- A fault in front of which nothing has been read. -/
def faulty (f : ArithmeticFault) : Expression × Text := (.broken (.number 0) f, [])

mutual

/-- The expression at the head of a text: an assignment, or a condition.  Each call uses up a
character or goes down one level of operators. -/
def takeAssignment : Nat → Text → Expression × Text
  | 0, _ => faulty .expectingPrimary
  | n + 1, t =>
    let t := skipSpace t
    let name := t.takeWhile isNameChar
    let rest := skipSpace (t.dropWhile isNameChar)
    match if isName name then assignment? rest else none with
    | some (op, rest) =>
      let (value, rest) := takeAssignment n rest
      (.assign name op value, rest)
    | none => takeConditional n t

/-- A condition with two outcomes, or a simpler expression. -/
def takeConditional : Nat → Text → Expression × Text
  | 0, _ => faulty .expectingPrimary
  | n + 1, t =>
    let (first, rest) := takeUnary n t
    let (condition, rest) := takeBinary n 1 first rest
    match skipSpace rest with
    | '?' :: rest =>
      let (yes, rest) := takeAssignment n rest
      let (no, rest) :=
        match skipSpace rest with
        | ':' :: rest => takeConditional n rest
        | _ => faulty .expectingColon
      (.conditional condition yes no, rest)
    | rest => (condition, rest)

/-- The operators of at least a priority, and their operands, behind a first operand. -/
def takeBinary : Nat → Nat → Expression → Text → Expression × Text
  | 0, _, _, _ => faulty .expectingPrimary
  | n + 1, least, first, t =>
    let t := skipSpace t
    match operator? t with
    | some (op, priority, rest) =>
      if priority < least then (first, t)
      else
        let (second, rest) := takeUnary n rest
        let (second, rest) := takeBinary n (priority + 1) second rest
        takeBinary n least (.binary op first second) rest
    | none => (first, t)

/-- An operand with the operators in front of it. -/
def takeUnary : Nat → Text → Expression × Text
  | 0, _ => faulty .expectingPrimary
  | n + 1, t =>
    match skipSpace t with
    | [] => faulty .expectingPrimary
    | c :: rest =>
      match unary? c with
      | some op =>
        let (a, rest) := takeUnary n rest
        (.unary op a, rest)
      | none =>
        if c = '(' then
          let (inner, rest) := takeAssignment n rest
          match skipSpace rest with
          | ')' :: rest => (inner, rest)
          | _ => (.broken inner .expectingParenthesis, [])
        else if c.isDigit then
          let found := leadingInteger true (c :: rest)
          (.number (clampInteger found.value), found.rest)
        else if isNameStart c then
          (.named ((c :: rest).takeWhile isNameChar), (c :: rest).dropWhile isNameChar)
        else faulty .expectingPrimary

end

/-- The expression that a text holds. -/
def ofText (t : Text) : Expression :=
  let (e, rest) := takeAssignment (16 * t.length + 16) t
  if (skipSpace rest).isEmpty then e else .broken e .expectingEnd

/-- The first fault in the text of an expression. -/
def fault? : Expression → Option ArithmeticFault
  | number _ => none
  | named _ => none
  | unary _ a => fault? a
  | binary _ a b => (fault? a).or (fault? b)
  | conditional c yes no => (fault? c).or ((fault? yes).or (fault? no))
  | assign _ _ e => fault? e
  | broken e f => some ((fault? e).getD f)

/-- A result, unless the text of an expression that does not count for it goes wrong. -/
def passOver {α : Type} (e : Expression) (a : α) : Except ArithmeticFault α :=
  match e.fault? with
  | some f => .error f
  | none => .ok a

/-! ### Values -/

/-- Variables by their names, the latest setting first. -/
abbrev Settings := List (Text × Text)

/-- The number that the text of a variable stands for; nothing counts as zero. -/
def variableValue (text : Text) : Except ArithmeticFault Int64 :=
  let found := leadingInteger true text
  if text.all isSpace then .ok 0
  else if found.isMissing || !found.rest.all isSpace then .error (.illegalNumber text)
  else .ok (Int64.ofInt (clampInteger found.value))

/-- The value of an expression, and the settings that it makes on top of earlier ones. -/
def value (s : Settings) : Expression → Except ArithmeticFault (Int64 × Settings)
  | number i => .ok (Int64.ofInt i, s)
  | named name => return (← variableValue ((s.lookup name).getD []), s)
  | unary op a => do
    let (x, s) ← value s a
    match op with
    | .plus => return (x, s)
    | .minus => return (-x, s)
    | .not => return (BinaryOperator.ofBool (x == 0), s)
    | .complement => return (~~~x, s)
  | binary op a b => do
    let (x, s) ← value s a
    if op = .or ∧ x ≠ 0 then passOver b (1, s)
    else if op = .and ∧ x = 0 then passOver b (0, s)
    else
      let (y, s) ← value s b
      return (← op.apply x y, s)
  | conditional c yes no => do
    let (x, s) ← value s c
    if x ≠ 0 then (value s yes).bind (passOver no) else passOver yes () >>= fun _ => value s no
  | assign name op e => do
    let (y, s) ← value s e
    let z ←
      match op with
      | some op => do op.apply (← variableValue ((s.lookup name).getD [])) y
      | none => pure y
    return (z, (name, signedDecimal z.toInt) :: s)
  | broken e f => do
    let _ ← value s e
    .error f

end Expression

end Shell

end CliffordT
