import CliffordT.Proofs.JsonLibrary
import CliffordT.Proofs.JsonValues

/-!
# Texts put together from texts

Texts of values are put together to the text of an array, and with keys to the text of an object.
The array then holds the values of the texts, and the object holds them under their keys.  The texts
may have any form: white space on both sides, escaped characters, and any depth.

* `Json.MemberText` : a key and a value as they are written;
* `Json.arrayText`, `Json.objectText` : the texts of arrays and objects;
* `Json.denotes_arrayText`, `Json.denotes_objectText` : **the whole denotes the values of its
  parts.**
-/

namespace CliffordT

namespace Json

/-- A member of an object as it is written. -/
structure MemberText where
  /-- The key in quotes, with any of its characters escaped. -/
  spelling : String
  key : String
  /-- The value. -/
  text : String
  spells : Denotes spelling.toList (.text (some key))
  isJson : IsJson text

/-- The array of the values in some texts. -/
def arrayText (texts : List String) : String := "[" ++ ",".intercalate texts ++ "]"

/-- A member, with a colon behind its key. -/
def MemberText.whole (m : MemberText) : String := m.spelling ++ ":" ++ m.text

theorem MemberText.toList_whole (m : MemberText) :
    m.whole.toList = m.spelling.toList ++ ':' :: m.text.toList := by
  rw [MemberText.whole, String.toList_append, String.toList_append]
  simp

/-- The object of some members. -/
def objectText (ms : List MemberText) : String :=
  "\x7b" ++ ",".intercalate (ms.map MemberText.whole) ++ "\x7d"

theorem toList_intercalate_cons_cons (p q : String) (ps : List String) :
    (",".intercalate (p :: q :: ps)).toList =
      p.toList ++ ',' :: (",".intercalate (q :: ps)).toList := by
  rw [String.toList_intercalate, String.toList_intercalate, List.map_cons, List.map_cons,
    List.intercalate_cons_cons]
  simp

section

variable [Library]

/-- The value of the member. -/
def MemberText.value (m : MemberText) : Value := valueOf m.text

/-- The member under its key. -/
def MemberText.pair (m : MemberText) : String × Value := (m.key, m.value)

variable [LawfulLibrary] {texts : List String}

/-! ### Arrays -/

theorem denotes_items (t : String) (ts : List String) (h : ∀ u ∈ t :: ts, IsJson u) :
    Denotes ((",".intercalate (t :: ts)).toList ++ [']'])
      (((t :: ts).map valueOf).foldr .item .noItem) := by
  induction ts generalizing t with
  | nil =>
    rw [String.intercalate_singleton]
    exact .lastItem (LawfulLibrary.denotes_valueOf (h t List.mem_cons_self))
  | cons u us ih =>
    obtain ⟨ht, hus⟩ := List.forall_mem_cons.1 h
    rw [toList_intercalate_cons_cons, List.append_assoc, List.cons_append]
    exact .item (LawfulLibrary.denotes_valueOf ht) (ih u hus)

/-- The text of an array denotes the values of its texts. -/
theorem denotes_arrayText (h : ∀ t ∈ texts, IsJson t) :
    Denotes (arrayText texts).toList (.ofItems (texts.map valueOf)) := by
  rw [arrayText, String.toList_append, String.toList_append]
  cases texts with
  | nil => exact .emptyArray isBlank_nil
  | cons t ts => exact .array (denotes_items t ts h)

/-! ### Objects -/

theorem denotes_members (m : MemberText) (ms : List MemberText) :
    Denotes ((",".intercalate ((m :: ms).map MemberText.whole)).toList ++ ['\x7d'])
      (.membersOf ((m :: ms).map MemberText.pair)) := by
  induction ms generalizing m with
  | nil =>
    rw [List.map_singleton, String.intercalate_singleton, MemberText.toList_whole,
      List.append_assoc, List.cons_append]
    exact .lastMember m.spells (LawfulLibrary.denotes_valueOf m.isJson)
  | cons n ns ih =>
    rw [List.map_cons, List.map_cons, toList_intercalate_cons_cons, ← List.map_cons,
      MemberText.toList_whole, List.append_assoc, List.append_assoc, List.cons_append,
      List.cons_append]
    exact .member m.spells (LawfulLibrary.denotes_valueOf m.isJson) (ih n)

/-- The text of an object denotes the values of its texts under their keys. -/
theorem denotes_objectText (ms : List MemberText) :
    Denotes (objectText ms).toList (.ofMembers (ms.map MemberText.pair)) := by
  rw [objectText, String.toList_append, String.toList_append]
  cases ms with
  | nil => exact .emptyObject isBlank_nil
  | cons m ms => exact .object (denotes_members m ms)

/-! ### Reading -/

variable {α : Type}

theorem decodeText_arrayText (read : Value → Except Fault α) (h : ∀ t ∈ texts, IsJson t) :
    decodeText read (arrayText texts) = read (.ofItems (texts.map valueOf)) :=
  LawfulLibrary.decodeText_of_denotes read (denotes_arrayText h)

theorem decodeText_objectText (read : Value → Except Fault α) (ms : List MemberText) :
    decodeText read (objectText ms) = read (.ofMembers (ms.map MemberText.pair)) :=
  LawfulLibrary.decodeText_of_denotes read (denotes_objectText ms)

end

end Json

end CliffordT
