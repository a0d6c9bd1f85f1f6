import CliffordT.Circuit.Command
import CliffordT.Pipeline.Oracle
import Mathlib.Data.Finset.Card
import Mathlib.Data.Finset.Dedup

/-!
# Tables of words and their histories

A table is filled by putting texts into it one after the other.  It is read by the axis and the bits
of an angle, so two angles may be equal as numbers and have two texts, and an angle that is not a
number has a text like any other.

* `WordTable.lastText?` : the last text that was put in for a rotation;
* `WordTable.find?_ofTexts` : that text is found;
* `WordTable.mem_keys_ofTexts`, `WordTable.nodup_keys_ofTexts` : the keys of a table are those that
  were put in, each once;
* `WordTable.table_history` : **of several texts for a rotation the last one is the answer, and the
  table is as long as there are different keys.**
-/

namespace CliffordT

namespace WordTable

/-- A text for a rotation, as it is put into a table. -/
abbrev Text := (Axis × Binary64) × String

/-- What a table is read by: an axis and the bits of an angle. -/
def keyOf (e : Text) : Axis × UInt64 := (e.1.1, e.1.2.bits)

/-- The table with some more texts, put into it one after the other. -/
def insertAll (t : WordTable) (es : List Text) : WordTable :=
  es.foldl (fun t e => t.insert e.1.1 e.1.2 e.2) t

/-- The table of some texts. -/
def ofTexts (es : List Text) : WordTable := insertAll {} es

/-- The last text for an axis and the bits of an angle. -/
def lastText? (es : List Text) (axis : Axis) (angle : Binary64) : Option String :=
  (es.filter fun e => keyOf e = (axis, angle.bits)).getLast?.map Prod.snd

/-- The keys of a table. -/
def keys (t : WordTable) : List (Axis × UInt64) := t.entries.map keyOf

/-- Two tables that cannot be told apart. -/
def Agrees (t t' : WordTable) : Prop :=
  t.length = t'.length ∧ t.isEmpty = t'.isEmpty ∧
    ∀ axis angle, (Oracle.synthesize t axis angle).result = (Oracle.synthesize t' axis angle).result

variable {t : WordTable} {e e' : Text} {es before after : List Text} {axis : Axis}
  {angle x y : Binary64} {raw raw' : String} {k : Axis × UInt64}

theorem insertAll_cons (t : WordTable) (e : Text) (es : List Text) :
    t.insertAll (e :: es) = (t.insert e.1.1 e.1.2 e.2).insertAll es := rfl

/-! ### Keys -/

theorem keyOf_eq_iff : keyOf e = (axis, angle.bits) ↔ e.1 = (axis, angle) := by
  obtain ⟨⟨a, ⟨bits⟩⟩, raw⟩ := e
  obtain ⟨bits'⟩ := angle
  simp [keyOf]

theorem mem_keys_put : k ∈ (put axis angle raw es).map keyOf ↔
    k = (axis, angle.bits) ∨ k ∈ es.map keyOf := by
  induction es with
  | nil => simp [put, keyOf]
  | cons e es ih =>
    rw [put]
    split_ifs with h
    · rw [List.map_cons, List.map_cons, List.mem_cons, List.mem_cons, keyOf_eq_iff.2 h]
      simp [keyOf]
    · rw [List.map_cons, List.map_cons, List.mem_cons, List.mem_cons, ih]
      tauto

theorem nodup_keys_put (h : (es.map keyOf).Nodup) :
    ((put axis angle raw es).map keyOf).Nodup := by
  induction es with
  | nil => simp [put]
  | cons e es ih =>
    rw [List.map_cons, List.nodup_cons] at h
    rw [put]
    split_ifs with hkey
    · rw [List.map_cons, List.nodup_cons]
      rwa [keyOf_eq_iff.2 hkey] at h
    · rw [List.map_cons, List.nodup_cons, mem_keys_put]
      refine ⟨?_, ih h.2⟩
      rintro (heq | hmem)
      · exact hkey (keyOf_eq_iff.1 heq)
      · exact h.1 hmem

theorem mem_keys_insertAll : k ∈ (t.insertAll es).keys ↔ k ∈ t.keys ∨ k ∈ es.map keyOf := by
  induction es generalizing t with
  | nil => simp [insertAll]
  | cons e es ih =>
    have hinsert : k ∈ (t.insert e.1.1 e.1.2 e.2).keys ↔ k = keyOf e ∨ k ∈ t.keys := mem_keys_put
    rw [insertAll_cons, ih, hinsert, List.map_cons, List.mem_cons]
    tauto

theorem nodup_keys_insertAll (h : t.keys.Nodup) : (t.insertAll es).keys.Nodup := by
  induction es generalizing t with
  | nil => exact h
  | cons e es ih => exact ih (nodup_keys_put h)

/-- The keys of a table are those that were put in. -/
theorem mem_keys_ofTexts : k ∈ (ofTexts es).keys ↔ k ∈ es.map keyOf := by
  rw [ofTexts, mem_keys_insertAll]
  simp [keys]

/-- Each key of a table is there once. -/
theorem nodup_keys_ofTexts (es : List Text) : (ofTexts es).keys.Nodup :=
  nodup_keys_insertAll List.nodup_nil

theorem length_ofTexts (es : List Text) :
    (ofTexts es).length = (es.map keyOf).toFinset.card := by
  have hsame : (ofTexts es).keys.toFinset = (es.map keyOf).toFinset := by
    ext k
    rw [List.mem_toFinset, List.mem_toFinset, mem_keys_ofTexts]
  rw [← hsame, List.toFinset_card_of_nodup (nodup_keys_ofTexts es), keys, List.length_map, length]

theorem isEmpty_iff : t.isEmpty ↔ t.length = 0 := by
  rw [isEmpty, List.isEmpty_iff, length, List.length_eq_zero_iff]

theorem isEmpty_eq (t : WordTable) : t.isEmpty = (t.length == 0) := by
  rw [Bool.eq_iff_iff, isEmpty_iff, beq_iff_eq]

/-! ### Texts -/

@[simp] theorem lastText?_nil : lastText? [] axis angle = none := rfl

theorem lastText?_cons : lastText? (e :: es) axis angle =
    (lastText? es axis angle).or (if e.1 = (axis, angle) then some e.2 else none) := by
  simp only [lastText?, List.filter_cons, keyOf_eq_iff, decide_eq_true_eq]
  split_ifs
  · rw [List.getLast?_cons]
    cases (es.filter fun e => decide (e.1 = (axis, angle))).getLast? <;> rfl
  · rw [Option.or_none]

theorem find?_insertAll : (t.insertAll es).find? axis angle =
    (lastText? es axis angle).or (t.find? axis angle) := by
  induction es generalizing t with
  | nil => rfl
  | cons e es ih =>
    rw [insertAll_cons, ih, find?_insert, lastText?_cons, Option.or_assoc]
    by_cases h : e.1 = (axis, angle)
    · simp [h]
    · simp [h, Ne.symm h]

/-- The last text that was put in for a rotation is found. -/
theorem find?_ofTexts (es : List Text) (axis : Axis) (angle : Binary64) :
    (ofTexts es).find? axis angle = lastText? es axis angle := by
  rw [ofTexts, find?_insertAll]
  exact Option.or_none

theorem lastText?_append : lastText? (before ++ after) axis angle =
    (lastText? after axis angle).or (lastText? before axis angle) := by
  rw [lastText?, List.filter_append, List.getLast?_append, Option.map_or]
  rfl

theorem lastText?_swap (h : keyOf e ≠ keyOf e') :
    lastText? (before ++ e :: e' :: after) axis angle =
      lastText? (before ++ e' :: e :: after) axis angle := by
  rw [lastText?_append, lastText?_append]
  congr 1
  simp only [lastText?_cons, ← keyOf_eq_iff, Option.or_assoc]
  by_cases he : keyOf e = (axis, angle.bits)
  · rw [if_pos he, if_neg fun he' => h (he.trans he'.symm)]
    simp
  · rw [if_neg he]
    simp

theorem agrees_swap (h : keyOf e ≠ keyOf e') :
    (ofTexts (before ++ e :: e' :: after)).Agrees (ofTexts (before ++ e' :: e :: after)) := by
  have hlength : (ofTexts (before ++ e :: e' :: after)).length =
      (ofTexts (before ++ e' :: e :: after)).length := by
    rw [length_ofTexts, length_ofTexts]
    congr 1
    ext k
    simp only [List.mem_toFinset, List.map_append, List.map_cons, List.mem_append, List.mem_cons]
    tauto
  refine ⟨hlength, ?_, fun axis angle => ?_⟩
  · rw [isEmpty_eq, isEmpty_eq, hlength]
  · simp only [Oracle.synthesize, find?_ofTexts, lastText?_swap h]

/-- **Of several texts for a rotation the last one is the answer.**  It is found by the axis and all
bits of the angle, and returned as it was put in; where there is none, the fault names the rotation.
The table stays as it is.  It is as long as there are different keys, and empty if and only if its
length is zero.  Two angles with different bits have two texts, also if they are equal as numbers or
are no numbers, and texts with different keys may be put in in either order. -/
theorem table_history (es : List Text) :
    (∀ axis angle, (Oracle.synthesize (ofTexts es) axis angle).result =
      match lastText? es axis angle with
      | some raw => .ok raw
      | none => .error (.oracleFailed "static" none
          ("no word registered for R" ++ axis.name ++ "(" ++ angle.plain ++ ")"))) ∧
    (∀ axis angle, (Oracle.synthesize (ofTexts es) axis angle).oracle = ofTexts es) ∧
    (ofTexts es).length = (es.map fun e => (e.1.1, e.1.2.bits)).toFinset.card ∧
    ((ofTexts es).isEmpty ↔ (ofTexts es).length = 0) ∧
    (∀ axis x y raw raw', x.bits ≠ y.bits →
      (Oracle.synthesize (ofTexts (es ++ [((axis, x), raw), ((axis, y), raw')])) axis x).result =
        .ok raw ∧
      (Oracle.synthesize (ofTexts (es ++ [((axis, x), raw), ((axis, y), raw')])) axis y).result =
        .ok raw') ∧
    ∀ before e e' after, es = before ++ e :: e' :: after →
      (e.1.1 ≠ e'.1.1 ∨ e.1.2.bits ≠ e'.1.2.bits) →
        (ofTexts es).Agrees (ofTexts (before ++ e' :: e :: after)) := by
  have hresult : ∀ es axis angle, (Oracle.synthesize (ofTexts es) axis angle).result =
      match lastText? es axis angle with
      | some raw => .ok raw
      | none => .error (absent axis angle) := by
    intro es axis angle
    cases hlast : lastText? es axis angle <;> simp [Oracle.synthesize, find?_ofTexts, hlast]
  refine ⟨hresult es, fun _ _ => rfl, length_ofTexts es, isEmpty_iff, ?_, ?_⟩
  · intro axis x y raw raw' h
    have hne : ((axis, x) : Axis × Binary64) ≠ (axis, y) := fun heq =>
      h (congrArg (·.2.bits) heq)
    constructor
    · rw [hresult, lastText?_append, lastText?_cons, lastText?_cons, lastText?_nil]
      simp [hne.symm]
    · rw [hresult, lastText?_append, lastText?_cons, lastText?_cons, lastText?_nil]
      simp
  · rintro before e e' after rfl h
    refine agrees_swap fun hkey => ?_
    obtain ⟨haxis, hbits⟩ := Prod.mk.inj hkey
    exact h.elim (· haxis) (· hbits)

/-- Rotations by the two zeros are equal as commands and have texts of their own, and so have angles
that are no numbers. -/
theorem table_history_zeros :
    (Command.rz ⟨0x0⟩ ⟨0⟩).sameValue (.rz ⟨0x8000000000000000⟩ ⟨0⟩) ∧
    (Oracle.synthesize (ofTexts [((.z, ⟨0x0⟩), "T"), ((.x, ⟨0x0⟩), "H"), ((.z, ⟨0x0⟩), "Z\n")])
      .z ⟨0x0⟩).result = .ok "Z\n" ∧
    (Oracle.synthesize (ofTexts [((.z, ⟨0x0⟩), "T"), ((.x, ⟨0x0⟩), "H"), ((.z, ⟨0x0⟩), "Z\n")])
      .z ⟨0x8000000000000000⟩).result =
        .error (.oracleFailed "static" none "no word registered for Rz(-0)") ∧
    (ofTexts [((.z, ⟨0x0⟩), "T"), ((.x, ⟨0x0⟩), "H"), ((.z, ⟨0x0⟩), "Z\n")]).length = 2 ∧
    (Oracle.synthesize (ofTexts ([] ++ [((.z, ⟨0x0⟩), "T"), ((.z, ⟨0x8000000000000000⟩), "S")]))
      .z ⟨0x0⟩).result = .ok "T" ∧
    (Oracle.synthesize (ofTexts ([] ++ [((.y, ⟨0x7ff8000000000001⟩), "T"), ((.y, .nan), "S")]))
      .y .nan).result = .ok "S" ∧
    (ofTexts [((.z, ⟨0x0⟩), "T"), ((.z, ⟨0x8000000000000000⟩), "S")]).Agrees
      (ofTexts [((.z, ⟨0x8000000000000000⟩), "S"), ((.z, ⟨0x0⟩), "T")]) := by
  obtain ⟨hresult, -, hlength, -⟩ :=
    table_history [((.z, ⟨0x0⟩), "T"), ((.x, ⟨0x0⟩), "H"), ((.z, ⟨0x0⟩), "Z\n")]
  refine ⟨by decide, (hresult _ _).trans rfl, (hresult _ _).trans ?_, hlength.trans (by decide),
    ?_, ?_, ?_⟩
  · decide +kernel
  · exact ((table_history []).2.2.2.2.1 .z ⟨0x0⟩ ⟨0x8000000000000000⟩ "T" "S" (by decide)).1
  · exact ((table_history []).2.2.2.2.1 .y ⟨0x7ff8000000000001⟩ .nan "T" "S" (by decide)).2
  · exact (table_history _).2.2.2.2.2 [] _ _ [] rfl (.inr (by decide))

end WordTable

end CliffordT
