import CliffordT.Host.Shell.Text

/-!
# Shell scripts

The commands of the shell language and the words they are made of.  A word is a list of pieces:
text, and what is replaced when the word is used: parameters, sums and the output of commands.
-/

namespace CliffordT

namespace Shell

/-- What stands for the value of a parameter. -/
inductive Treatment where
  /-- The value itself. -/
  | keep
  /-- The length of the value. -/
  | length
  /-- The value, or else another one.  Where `orEmpty` holds, an empty value counts as none. -/
  | orElse (orEmpty : Bool)
  /-- The value, or else another one, which the parameter is set to. -/
  | orSet (orEmpty : Bool)
  /-- The value, or else a complaint, and the end of the script. -/
  | orComplain (orEmpty : Bool)
  /-- Another value, if there is one. -/
  | andThen (orEmpty : Bool)
  /-- The value without a start that fits a pattern. -/
  | withoutStart (longest : Bool)
  /-- The value without an end that fits a pattern. -/
  | withoutEnd (longest : Bool)
  /-- Nothing: the text in the braces has no meaning. -/
  | invalid
deriving DecidableEq

/-- The kinds of redirection. -/
inductive Redirect where
  /-- Output to a file, which is emptied first.  Files that exist are kept where `keepsOld` holds
  and the shell has been told to. -/
  | output (keepsOld : Bool)
  /-- Output to the end of a file. -/
  | append
  /-- Input from a file. -/
  | input
  /-- Input from a file and output to it. -/
  | both
  /-- What another descriptor stands for. -/
  | copy
deriving DecidableEq

mutual

/-- A piece of a word. -/
inductive Piece where
  /-- Characters; those in quotes have no special meaning. -/
  | chars (inQuotes : Bool) (text : Text)
  /-- The value of a parameter, or what stands for it. -/
  | parameter (inQuotes : Bool) (name : Text) (treatment : Treatment) (operand : List Piece)
  /-- The output of a script. -/
  | output (inQuotes : Bool) (body : Option Script)
  /-- The value of an arithmetic expression. -/
  | sum (inQuotes : Bool) (expression : List Piece)

/-- A redirection of a descriptor. -/
inductive Redirection where
  | file (descriptor : Nat) (kind : Redirect) (target : List Piece)
  /-- Input from the script itself, by the number of the document. -/
  | document (descriptor number : Nat)

/-- A variable and what it is set to. -/
inductive Assignment where
  | mk (name : Text) (value : List Piece)

/-- Patterns, and what to run where one of them fits. -/
inductive Branch where
  | mk (patterns : List (List Piece)) (body : Option Script)

/-- A script.  Line numbers are those that complaints name. -/
inductive Script where
  /-- Assignments, or a command with its words. -/
  | simple (line : Nat) (assignments : List Assignment) (words : List (List Piece))
      (redirections : List Redirection)
  /-- Commands each of which reads what the one before it writes. -/
  | pipeline (commands : List Script)
  /-- One command after the other. -/
  | sequence (first second : Script)
  /-- The second command if the first one succeeds. -/
  | andThen (first second : Script)
  /-- The second command if the first one fails. -/
  | orElse (first second : Script)
  /-- A command with its success inverted. -/
  | negated (body : Script)
  /-- A command that nothing waits for. -/
  | background (body : Script)
  /-- A command in a process of its own. -/
  | subshell (line : Nat) (body : Script) (redirections : List Redirection)
  /-- A command under redirections. -/
  | redirected (line : Nat) (body : Script) (redirections : List Redirection)
  /-- The body again and again, as long as the condition succeeds, or as long as it fails. -/
  | loop (untilSuccess : Bool) (condition body : Script)
  /-- The body once for each word, which a variable holds; without words, for each argument. -/
  | each (line : Nat) (name : Text) (words : Option (List (List Piece))) (body : Script)
  /-- The first branch if the condition succeeds, the other one if it fails. -/
  | conditional (condition yes : Script) (no : Option Script)
  /-- The first branch with a pattern that fits the subject. -/
  | choice (line : Nat) (subject : List Piece) (branches : List Branch)
  /-- A function, which runs the body when it is called. -/
  | define (name : Text) (body : Script)

end

/-- A word of a command, before its pieces are replaced. -/
abbrev Phrase := List Piece

end Shell

end CliffordT
