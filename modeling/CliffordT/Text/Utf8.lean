/-!
# UTF-8

Bytes read as text.  A lead byte fixes the ranges of the bytes that follow it (`Utf8.followers`),
so a sequence is complete, runs out of input, or breaks off at a byte outside its range.

* `Utf8.encode` : the bytes of a text,
* `Utf8.decode` : the text of valid bytes, or where and how they stop being valid,
* `Utf8.lossy` : the text with U+FFFD for each maximal part of an invalid sequence.
-/

namespace CliffordT

namespace Utf8

/-- The bytes of a text. -/
def encode (cs : List Char) : List UInt8 := cs.flatMap String.utf8EncodeChar

/-- The bytes that may follow each other behind a lead byte, as inclusive ranges.  The first range
is narrower where it keeps out overlong forms, surrogates and values above U+10FFFF. -/
def followers (lead : Nat) : Option (List (Nat × Nat)) :=
  let any := (0x80, 0xbf)
  if lead < 0x80 then some []
  else if lead < 0xc2 then none
  else if lead < 0xe0 then some [any]
  else if lead = 0xe0 then some [(0xa0, 0xbf), any]
  else if lead = 0xed then some [(0x80, 0x9f), any]
  else if lead < 0xf0 then some [any, any]
  else if lead = 0xf0 then some [(0x90, 0xbf), any, any]
  else if lead < 0xf4 then some [any, any, any]
  else if lead = 0xf4 then some [(0x80, 0x8f), any, any]
  else none

/-- How many of the leading bytes lie in the ranges, one byte a range. -/
def matching : List (Nat × Nat) → List UInt8 → Nat
  | (lo, hi) :: rs, b :: bs =>
    if lo ≤ b.toNat ∧ b.toNat ≤ hi then matching rs bs + 1 else 0
  | _, _ => 0

/-- The character with the given lead byte and following bytes. -/
def character (lead : Nat) (rest : List UInt8) : Char :=
  let top := if rest.isEmpty then lead else lead % (1 <<< (6 - rest.length))
  Char.ofNat (rest.foldl (fun n b => n * 64 + b.toNat % 64) top)

/-- What stands at the head of some bytes. -/
inductive Head where
  /-- A character written with `length + 1` bytes. -/
  | character (c : Char) (length : Nat)
  /-- The start of a sequence that breaks off after `length + 1` bytes. -/
  | broken (length : Nat)
  /-- The start of a sequence that runs out of input. -/
  | unfinished
deriving DecidableEq

/-- The head of the bytes `lead :: rest`. -/
def head (lead : UInt8) (rest : List UInt8) : Head :=
  match followers lead.toNat with
  | none => .broken 0
  | some ranges =>
    let n := matching ranges rest
    if n = ranges.length then .character (character lead.toNat (rest.take n)) n
    else if n = rest.length then .unfinished
    else .broken n

/-- Why bytes are not the encoding of a text. -/
inductive Fault where
  /-- The sequence at `position` breaks off after `length` bytes. -/
  | invalid (position length : Nat)
  /-- The sequence at `position` runs out of input. -/
  | incomplete (position : Nat)
deriving DecidableEq

/-- The fault in words. -/
def Fault.message : Fault → String
  | .invalid position length =>
    "invalid utf-8 sequence of " ++ toString length ++ " bytes from index " ++ toString position
  | .incomplete position => "incomplete utf-8 byte sequence from index " ++ toString position

/-- The text of `bytes`, which stand at `position` in the input. -/
def decodeAt (position : Nat) (bytes : List UInt8) : Except Fault (List Char) :=
  match bytes with
  | [] => .ok []
  | lead :: rest =>
    match head lead rest with
    | .character c n => (decodeAt (position + n + 1) (rest.drop n)).map (c :: ·)
    | .broken n => .error (.invalid position (n + 1))
    | .unfinished => .error (.incomplete position)
termination_by bytes.length
decreasing_by simp only [List.length_drop, List.length_cons]; omega

/-- The text of valid bytes, or the first fault. -/
def decode (bytes : List UInt8) : Except Fault (List Char) := decodeAt 0 bytes

/-- The text of any bytes: each maximal part of an invalid sequence becomes one U+FFFD. -/
def lossy (bytes : List UInt8) : List Char :=
  match bytes with
  | [] => []
  | lead :: rest =>
    match head lead rest with
    | .character c n => c :: lossy (rest.drop n)
    | .broken n => Char.ofNat 0xfffd :: lossy (rest.drop n)
    | .unfinished => [Char.ofNat 0xfffd]
termination_by bytes.length
decreasing_by all_goals simp only [List.length_drop, List.length_cons]; omega

end Utf8

end CliffordT
