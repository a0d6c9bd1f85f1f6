import CliffordT.Circuit.Json
import CliffordT.Proofs.JsonParsing
import CliffordT.Proofs.Numerals

/-!
# Lawful libraries

What is assumed of a JSON library, and the proof that the library in use fulfils it.  All that is
said about commands, statistics and configurations as JSON holds for every lawful library.

* `Json.LawfulLibrary` : texts are read by the grammar, written texts denote what was written, and
  numerals stand for the nearest double;
* `Json.Library.lawful_standard` : **the library in use is lawful;**
* `Json.LawfulLibrary.decodeBinary64_of_roundsTo` : a numeral is read as the double that it rounds
  to;
* `Json.valueOf` : the value that a text holds;
* `Json.LawfulLibrary.decodeText_of_denotes` : a text is read as the tree that it denotes.
-/

namespace CliffordT

namespace Json

/-! ### Laws -/

/-- A library is lawful if it reads texts by the grammar, writes texts of the grammar, and rounds
correctly.  A library that reads long numerals by a faster method, which may miss the nearest double
by one unit in the last place, is not lawful. -/
class LawfulLibrary [Library] : Prop where
  /-- A text is read as the tree that it denotes. -/
  read_of_denotes : ∀ {text : String} {v : Value}, Denotes text.toList v →
    Library.read text = ⟨v, true⟩
  /-- Any other text goes wrong somewhere, or goes on behind its value. -/
  denotes_of_read : ∀ {text : String} {v : Value}, Library.read text = ⟨v, true⟩ → v.isSound →
    Denotes text.toList v
  /-- What is written for a tree denotes the tree. -/
  denotes_write : ∀ {v : Value}, v.IsWritten → Denotes (Library.write v).toList v
  wellFormed_numeral : ∀ {x : Binary64}, x.isFinite → (Library.numeral x).IsWellFormed
  /-- No double is nearer to what is written for a double. -/
  roundsTo_numeral : ∀ {x : Binary64}, x.isFinite → (Library.numeral x).RoundsTo x
  /-- A numeral is read as the nearest double. -/
  toBinary64_of_roundsTo : ∀ {n : Numeral} {x : Binary64}, n.RoundsTo x → Library.toBinary64 n = x

/-- **The library in use is lawful.** -/
instance Library.lawful_standard : @LawfulLibrary Library.standard where
  read_of_denotes := fun h => (Document.ofText_eq_iff.2 h).1
  denotes_of_read := fun h hsound => Document.ofText_eq_iff.1 ⟨h, hsound⟩
  denotes_write := fun h => h.denotes_compact
  wellFormed_numeral := Binary64.numeral_wellFormed
  roundsTo_numeral := Binary64.roundsTo_numeral
  toBinary64_of_roundsTo := Numeral.toBinary64_of_roundsTo

section

variable [Library]

/-- The value that a text holds. -/
def valueOf (text : String) : Value := (Library.read text).root

namespace LawfulLibrary

variable [LawfulLibrary] {α : Type} {read : Value → Except Fault α} {text : String} {v : Value}
  {a : α}

/-! ### Numbers -/

/-- A numeral is read as the double that it rounds to, also where it is that of an integer. -/
theorem decodeBinary64_of_roundsTo {n : Numeral} {x : Binary64} (h : n.RoundsTo x) :
    decodeBinary64 (.number n) = .ok x := by
  have hx := toBinary64_of_roundsTo h
  rw [decodeBinary64]
  split
  · rename_i i hnumber
    rw [Numeral.binary64OfInt_of_number? hnumber, Numeral.toBinary64_of_roundsTo h]
  · rename_i y hnumber
    rw [(Numeral.real_of_number? hnumber).1, hx]
  · rename_i hnumber
    have hinfinite := Numeral.isFinite_of_number?_eq_none hnumber
    rw [hx, h.finite] at hinfinite
    cases hinfinite

/-! ### Texts -/

theorem valueOf_of_denotes (h : Denotes text.toList v) : valueOf text = v := by
  rw [valueOf, read_of_denotes h]

theorem denotes_valueOf (h : IsJson text) : Denotes text.toList (valueOf text) := by
  obtain ⟨v, hv⟩ := h
  rwa [valueOf_of_denotes hv]

/-- A text is read as the tree that it denotes. -/
theorem decodeText_of_denotes (read : Value → Except Fault α) (h : Denotes text.toList v) :
    decodeText read text = read v := by
  rw [decodeText, read_of_denotes h]
  cases read v <;> rfl

theorem decodeText_of_isJson (read : Value → Except Fault α) (h : IsJson text) :
    decodeText read text = read (valueOf text) := decodeText_of_denotes read (denotes_valueOf h)

end LawfulLibrary

end

end Json

end CliffordT
