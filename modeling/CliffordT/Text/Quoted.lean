import CliffordT.Text.Hidden

/-!
# Quoted texts

A text as it is shown inside a message: in double quotes, with the characters escaped that would not
show.
-/

namespace CliffordT

/-- A character as it is shown in a quoted text. -/
def showQuoted (c : Char) : List Char :=
  match c with
  | '"' => ['\\', '"']
  | '\\' => ['\\', '\\']
  | '\t' => ['\\', 't']
  | '\n' => ['\\', 'n']
  | '\r' => ['\\', 'r']
  | '\x00' => ['\\', '0']
  | c =>
    if isHidden c then ['\\', 'u', '\x7b'] ++ Nat.toDigits 16 c.toNat ++ ['\x7d'] else [c]

/-- The text in double quotes. -/
def quoted (s : String) : String := "\"" ++ String.ofList (s.toList.flatMap showQuoted) ++ "\""

end CliffordT
