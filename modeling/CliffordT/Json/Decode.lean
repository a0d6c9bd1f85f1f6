import CliffordT.Json.Library
import CliffordT.Text.Quoted

/-!
# Values of JSON trees

A tree is read as a value of an expected form.  Reading walks the tree from left to right and stops
at the first fault.  Which double a numeral stands for is up to the library.

* `Fault` : why a tree does not hold the expected value,
* `decodeNat`, `decodeBinary64`, `decodeString`, `decodeList` : values of simple forms,
* `Variant` : one of several named alternatives, alone or with a payload,
* `Record` : named fields, as an object in any order or as an array in the declared one.
-/

namespace CliffordT

namespace Json

/-! ### Faults -/

/-- What a tree holds instead of the expected value. -/
inductive Found where
  | null
  | bool (b : Bool)
  | integer (i : Int)
  | real (x : Binary64)
  | text (s : String)
  | sequence
  | map
  /-- The name of an alternative, without the payload that it needs. -/
  | bareVariant
deriving DecidableEq

/-- The found value in words. -/
def Found.describe : Found → String
  | null => "null"
  | bool b => "boolean `" ++ toString b ++ "`"
  | integer i => "integer `" ++ toString i ++ "`"
  | real x => "floating point `" ++ String.ofList x.numeral.render ++ "`"
  | text s => "string " ++ quoted s
  | sequence => "sequence"
  | map => "map"
  | bareVariant => "unit variant"

/-- Why a tree does not hold the expected value. -/
inductive Fault where
  /-- The text is not well-formed, or a value stands where no value of its kind is read. -/
  | malformed
  | missingField (field : String)
  | duplicateField (field : String)
  | unknownVariant (name : String) (known : List String)
  /-- An array ends before all fields of a record are read. -/
  | invalidLength (length : Nat) (expected : String)
  | invalidType (found : Found) (expected : String)
  /-- An integer outside the expected range. -/
  | invalidValue (i : Int) (expected : String)
deriving DecidableEq

/-- The fault in words; none for a text that is not well-formed. -/
def Fault.message? : Fault → Option String
  | malformed => none
  | missingField f => some ("missing field `" ++ f ++ "`")
  | duplicateField f => some ("duplicate field `" ++ f ++ "`")
  | unknownVariant v known =>
    some ("unknown variant `" ++ v ++ "`, expected one of " ++
      ", ".intercalate (known.map fun k => "`" ++ k ++ "`"))
  | invalidLength n expected => some ("invalid length " ++ toString n ++ ", expected " ++ expected)
  | invalidType found expected =>
    some ("invalid type: " ++ found.describe ++ ", expected " ++ expected)
  | invalidValue i expected =>
    some ("invalid value: integer `" ++ toString i ++ "`, expected " ++ expected)

/-! ### Numbers -/

/-- What a numeral stands for. -/
inductive Number where
  | integer (i : Int)
  | real (x : Binary64)
deriving DecidableEq

/-- A numeral without point and exponent is an integer from `-2^63` to `2^64 - 1`; any other
numeral, and minus zero, is a double.  A numeral beyond the doubles stands for nothing. -/
def Numeral.number? [Library] (n : Numeral) : Option Number :=
  let i := digitsValue n.whole
  if n.fraction = [] ∧ n.exponent = none ∧ !n.negative ∧ i < UInt64.size then some (.integer i)
  else if n.fraction = [] ∧ n.exponent = none ∧ n.negative ∧ 0 < i ∧ i ≤ 0x8000000000000000 then
    some (.integer (-i))
  else if (Library.toBinary64 n).isFinite then some (.real (Library.toBinary64 n))
  else none

/-- The double nearest to an integer. -/
def binary64OfInt (i : Int) : Binary64 :=
  .ofMagnitude (decide (i < 0)) (Decimal.magnitude ⟨i.natAbs, 0⟩)

/-- The fault of a value that is not of the expected form. -/
def refuse [Library] (expected : String) : Value → Fault
  | .null => .invalidType .null expected
  | .bool b => .invalidType (.bool b) expected
  | .number n =>
    match n.number? with
    | some (.integer i) => .invalidType (.integer i) expected
    | some (.real x) => .invalidType (.real x) expected
    | none => .malformed
  | .text (some s) => .invalidType (.text s) expected
  | .text none => .malformed
  | .array _ => .invalidType .sequence expected
  | .object _ => .invalidType .map expected
  | .broken => .malformed

/-! ### Simple forms -/

/-- A natural number below `limit`. -/
def decodeNat [Library] (expected : String) (limit : Nat) (v : Value) : Except Fault Nat :=
  match v with
  | .number n =>
    match n.number? with
    | some (.integer i) =>
      if 0 ≤ i ∧ i < limit then .ok i.toNat else .error (.invalidValue i expected)
    | _ => .error (refuse expected v)
  | _ => .error (refuse expected v)

/-- A double; an integer counts as the double nearest to it. -/
def decodeBinary64 [Library] (v : Value) : Except Fault Binary64 :=
  match v with
  | .number n =>
    match n.number? with
    | some (.integer i) => .ok (binary64OfInt i)
    | some (.real x) => .ok x
    | none => .error .malformed
  | _ => .error (refuse "f64" v)

/-- A string. -/
def decodeString [Library] (expected : String) : Value → Except Fault String
  | .text (some s) => .ok s
  | v => .error (refuse expected v)

/-- The absence of a payload. -/
def decodeNull [Library] : Value → Except Fault Unit
  | .null => .ok ()
  | v => .error (refuse "unit" v)

/-- The items of an array, each read by `read`. -/
def decodeItems {α : Type} (read : Value → Except Fault α) : Tree .items → Except Fault (List α)
  | .noItem => .ok []
  | .item head rest => do
    let a ← read head
    return a :: (← decodeItems read rest)
  | .broken => .error .malformed

/-- A list, as an array. -/
def decodeList [Library] {α : Type} (read : Value → Except Fault α) : Value → Except Fault (List α)
  | .array items => decodeItems read items
  | v => .error (refuse "a sequence" v)

/-! ### Alternatives -/

/-- One of several named alternatives. -/
structure Variant (α : Type) where
  name : String
  /-- The value of the bare name. -/
  bare : Except Fault α
  /-- The value of the name with a payload. -/
  payload : Value → Except Fault α

/-- An alternative without a payload. -/
def Variant.unit [Library] {α : Type} (name : String) (a : α) : Variant α :=
  ⟨name, .ok a, fun v => (decodeNull v).map fun _ => a⟩

/-- An alternative with a payload that the bare name lacks. -/
def Variant.carrying {α : Type} (name expected : String) (read : Value → Except Fault α) :
    Variant α :=
  ⟨name, .error (.invalidType .bareVariant expected), read⟩

/-- The alternative of a name. -/
def findVariant {α : Type} (variants : List (Variant α)) (name : String) :
    Except Fault (Variant α) :=
  match variants.find? (·.name == name) with
  | some v => .ok v
  | none => .error (.unknownVariant name (variants.map (·.name)))

/-- One of several alternatives, as its name or as an object with its name for the only key. -/
def decodeVariant {α : Type} (variants : List (Variant α)) : Value → Except Fault α
  | .text (some name) => do (← findVariant variants name).bare
  | .object (.member (some name) value rest) => do
    let a ← (← findVariant variants name).payload value
    match rest with
    | .noMember => .ok a
    | _ => .error .malformed
  | _ => .error .malformed

/-! ### Records -/

/-- A field of a record that is read into a state `σ`. -/
structure Field (σ : Type) where
  name : String
  /-- Whether the field may be left out. -/
  isOptional : Bool := false
  /-- Whether the field has been read. -/
  isSet : σ → Bool
  /-- Read the field. -/
  store : σ → Value → Except Fault σ

/-- A record with its fields in the declared order. -/
structure Record (σ : Type) where
  /-- What the record is called in faults. -/
  name : String
  fields : List (Field σ)

namespace Record

variable {σ : Type}

/-- The record and its number of fields, in words. -/
def expectedLength (r : Record σ) : String :=
  r.name ++ " with " ++ toString r.fields.length ++
    if r.fields.length = 1 then " element" else " elements"

/-- The first field that is neither read nor optional. -/
def missing? (r : Record σ) (s : σ) : Option (Field σ) :=
  r.fields.find? fun f => !f.isOptional && !f.isSet s

/-- The members of an object, in any order; members with unknown names are skipped. -/
def decodeMembers (r : Record σ) (s : σ) : Tree .members → Except Fault σ
  | .noMember =>
    match r.missing? s with
    | some f => .error (.missingField f.name)
    | none => .ok s
  | .member (some key) value rest =>
    match r.fields.find? (·.name == key) with
    | some f =>
      if f.isSet s then .error (.duplicateField key)
      else do r.decodeMembers (← f.store s value) rest
    | none => if value.isSound then r.decodeMembers s rest else .error .malformed
  | .member none _ _ => .error .malformed
  | .broken => .error .malformed

/-- The items of an array, one a field, of which `index` are read already.  Fields that may be left
out may be missing at the end. -/
def decodeItems (r : Record σ) (index : Nat) :
    List (Field σ) → σ → Tree .items → Except Fault σ
  | [], s, .noItem => .ok s
  | f :: fs, s, .item head rest => do decodeItems r (index + 1) fs (← f.store s head) rest
  | f :: fs, s, .noItem =>
    if f.isOptional then decodeItems r (index + 1) fs s .noItem
    else .error (.invalidLength index r.expectedLength)
  | _, _, _ => .error .malformed

/-- The record as an object or as an array, read into a state in which no field is set. -/
def decode [Library] (r : Record σ) (empty : σ) : Value → Except Fault σ
  | .object members => r.decodeMembers empty members
  | .array items => r.decodeItems 0 r.fields empty items
  | v => .error (refuse r.name v)

end Record

end Json

end CliffordT
