import CliffordT.Config.Basic
import CliffordT.Pipeline.Stats
import CliffordT.Proofs.JsonPieces

/-!
# Readers accept nothing that is broken

A tree ends where its text goes wrong.  Every reader walks the whole tree that it accepts, skipped
values included, so what it accepts is a well-formed text.

* `Json.IsStrict` : whatever the reader accepts is sound;
* `Json.isStrict_decodeNat`, `Json.isStrict_decodeBinary64`, `Json.isStrict_decodeString`,
  `Json.IsStrict.list`, `Json.isStrict_decodeVariant`, `Json.Record.isStrict_decode` : the simple
  forms and their combinations;
* `Gate.isStrict_ofJson`, `Tally.isStrict_ofJson` and others : the types that are read;
* `Json.IsStrict.decodeText_eq_ok_iff` : **the texts that are read as a value are the well-formed
  texts whose value is read as it.**
-/

namespace CliffordT

namespace Json

variable {α β σ : Type} {read : Value → Except Fault α}

/-- Whatever the reader accepts is sound. -/
def IsStrict (read : Value → Except Fault α) : Prop := ∀ ⦃v a⦄, read v = .ok a → v.isSound

theorem IsStrict.map (h : IsStrict read) (f : α → β) : IsStrict fun v => (read v).map f :=
  fun _ _ hv => (exists_of_map hv).elim fun _ ha => h ha.1

theorem IsStrict.bind (h : IsStrict read) (f : α → Except Fault β) :
    IsStrict fun v => read v >>= f :=
  fun _ _ hv => (exists_of_bind hv).elim fun _ ha => h ha.1

/-! ### Simple forms -/

section

variable [Library]

theorem isStrict_decodeNat (expected : String) (limit : Nat) :
    IsStrict (decodeNat expected limit) := by
  intro v n h
  cases v with
  | number _ => rfl
  | _ => cases h

theorem isStrict_decodeBinary64 : IsStrict decodeBinary64 := by
  intro v x h
  cases v with
  | number _ => rfl
  | _ => cases h

theorem isStrict_decodeString (expected : String) : IsStrict (decodeString expected) := by
  intro v s h
  cases v with
  | text _ => rfl
  | _ => cases h

theorem isStrict_decodeNull : IsStrict decodeNull := by
  intro v s h
  cases v with
  | null => rfl
  | _ => cases h

end

theorem isSound_of_decodeItems (hread : IsStrict read) {items : Tree .items} {as : List α}
    (h : decodeItems read items = .ok as) : items.isSound := by
  fun_induction decodeItems read items generalizing as with
  | case1 => rfl
  | case2 head rest ih =>
    obtain ⟨a, ha, h⟩ := exists_of_bind h
    obtain ⟨bs, hbs, -⟩ := exists_of_bind h
    exact Bool.and_eq_true_iff.2 ⟨hread ha, ih hbs⟩
  | case3 => cases h

theorem IsStrict.list [Library] (h : IsStrict read) : IsStrict (decodeList read) := by
  intro v as hv
  cases v with
  | array items => exact isSound_of_decodeItems h hv
  | _ => cases hv

/-! ### Alternatives -/

variable {variants : List (Variant α)}

theorem Variant.isStrict_unit [Library] (name : String) (a : α) :
    IsStrict (Variant.unit name a).payload :=
  isStrict_decodeNull.map fun _ => a

theorem isStrict_decodeVariant (h : ∀ w ∈ variants, IsStrict w.payload) :
    IsStrict (decodeVariant variants) := by
  intro v a hv
  unfold decodeVariant at hv
  split at hv
  · rfl
  · rename_i name value rest
    obtain ⟨w, hw, hv⟩ := exists_of_bind hv
    obtain ⟨b, hb, hv⟩ := exists_of_bind hv
    cases rest with
    | noMember => exact Bool.and_eq_true_iff.2 ⟨h w (mem_of_findVariant hw) hb, rfl⟩
    | _ => cases hv
  · cases hv

/-! ### Records -/

namespace Record

variable {r : Record σ} {s s' : σ}

theorem isSound_of_decodeMembers (hstore : ∀ f ∈ r.fields, ∀ s, IsStrict (f.store s))
    {members : Tree .members} (h : r.decodeMembers s members = .ok s') : members.isSound := by
  fun_induction decodeMembers r s members with
  | case2 => rfl
  | case4 s key value rest f hfind _ ih =>
    obtain ⟨t, ht, hrest⟩ := exists_of_bind h
    exact Bool.and_eq_true_iff.2
      ⟨hstore f (List.mem_of_find?_eq_some hfind) s ht, ih t hrest⟩
  | case5 s key value rest _ hvalue ih => exact Bool.and_eq_true_iff.2 ⟨hvalue, ih h⟩
  | _ => cases h

theorem isSound_of_decodeItems {fs : List (Field σ)} (hstore : ∀ f ∈ fs, ∀ s, IsStrict (f.store s))
    {index : Nat} {items : Tree .items} (h : r.decodeItems index fs s items = .ok s') :
    items.isSound := by
  fun_induction decodeItems r index fs s items with
  | case1 => rfl
  | case2 _ f fs s head rest ih =>
    obtain ⟨hf, hfs⟩ := List.forall_mem_cons.1 hstore
    obtain ⟨t, ht, hrest⟩ := exists_of_bind h
    exact Bool.and_eq_true_iff.2 ⟨hf s ht, ih t hfs hrest⟩
  | case3 => rfl
  | _ => cases h

theorem isStrict_decode [Library] (hstore : ∀ f ∈ r.fields, ∀ s, IsStrict (f.store s)) (empty : σ) :
    IsStrict (r.decode empty) := by
  intro v s h
  cases v with
  | object members => exact isSound_of_decodeMembers hstore h
  | array items => exact isSound_of_decodeItems hstore h
  | _ => cases h

end Record

end Json

/-! ### The types that are read -/

open Json

section

variable [Library]

theorem Axis.isStrict_ofJson : IsStrict Axis.ofJson := by
  refine isStrict_decodeVariant ?_
  simp only [List.forall_mem_cons]
  exact ⟨Variant.isStrict_unit _ _, Variant.isStrict_unit _ _, Variant.isStrict_unit _ _, nofun⟩

theorem FixedGate.isStrict_ofJson : IsStrict FixedGate.ofJson := by
  refine isStrict_decodeVariant fun w hw => ?_
  obtain ⟨g, -, rfl⟩ := List.mem_map.1 hw
  exact Variant.isStrict_unit _ _

theorem Qubit.isStrict_ofJson : IsStrict Qubit.ofJson := (isStrict_decodeNat _ _).map _

theorem isStrict_rotationRecord : IsStrict (rotationRecord.decode {}) := by
  refine Record.isStrict_decode ?_ _
  simp only [rotationRecord, List.forall_mem_cons]
  exact ⟨fun _ => Axis.isStrict_ofJson.bind _, fun _ => isStrict_decodeBinary64.bind _, nofun⟩

theorem Gate.isStrict_ofJson : IsStrict Gate.ofJson := by
  refine isStrict_decodeVariant ?_
  simp only [List.forall_mem_cons]
  exact ⟨Variant.isStrict_unit _ _, Variant.isStrict_unit _ _, Variant.isStrict_unit _ _,
    isStrict_rotationRecord.map _, FixedGate.isStrict_ofJson.map _, Variant.isStrict_unit _ _,
    (isStrict_decodeString _).map _, nofun⟩

theorem Tally.isSound_of_ofMembers {members : Tree .members} {a b : Tally}
    (h : a.ofMembers members = .ok b) : members.isSound := by
  fun_induction ofMembers a members with
  | case1 => rfl
  | case2 a key value rest ih =>
    obtain ⟨g, -, h⟩ := exists_of_bind h
    obtain ⟨n, hn, h⟩ := exists_of_bind h
    exact Bool.and_eq_true_iff.2 ⟨isStrict_decodeNat _ _ hn, ih _ _ h⟩
  | case3 => cases h

theorem Tally.isStrict_ofJson : IsStrict Tally.ofJson := by
  intro v a h
  cases v with
  | object members => exact isSound_of_ofMembers h
  | _ => cases h

end

/-! ### Texts -/

namespace Json

variable [Library] [LawfulLibrary] {α : Type} {read : Value → Except Fault α} {text : String}
  {a : α}

/-- **A text is read as a value if and only if it is well-formed and its value is read as it.** -/
theorem IsStrict.decodeText_eq_ok_iff (hread : IsStrict read) :
    decodeText read text = .ok a ↔ IsJson text ∧ read (valueOf text) = .ok a := by
  constructor
  · intro h
    obtain ⟨b, hb, hwhole⟩ := exists_of_bind h
    split at hwhole
    · rename_i hw
      obtain rfl := Except.ok.inj hwhole
      have hdocument : Library.read text = ⟨valueOf text, true⟩ := by rw [valueOf, ← hw]
      exact ⟨⟨_, LawfulLibrary.denotes_of_read hdocument (hread hb)⟩, hb⟩
    · cases hwhole
  · rintro ⟨htext, h⟩
    rw [LawfulLibrary.decodeText_of_isJson read htext, h]

end Json

end CliffordT
