import CliffordT.Proofs.JsonLibrary

/-!
# Values read back from JSON

What a reader makes of what a writer made.  The laws for strings, numbers, lists, alternatives and
records combine into the law for a type that is built of them.

* `Json.ReadsBack` : a tree has a text, and a value is read from it;
* `Json.ReadsBack.decodeText_of_denotes`, `Json.ReadsBack.decodeText` : then the value is read from
  every text of the tree, what is written for it included;
* `Json.ReadsBack.string`, `.nat`, `.list`, `.unit`, `.carrying` : the simple forms and their
  combinations;
* `Json.Record.Stores`, `Json.Record.Stores.readsBack` : a record is read back field by field;
* `Json.decodeVariant_yields`, `Json.Record.decode_induction` : what a reader accepts comes from one
  of its alternatives, or from its fields one after the other.
-/

namespace CliffordT

namespace Json

variable {α β σ : Type} {read : Value → Except Fault α} {v : Value} {a : α}

theorem exists_of_bind {x : Except Fault α} {f : α → Except Fault β} {b : β}
    (h : x >>= f = .ok b) : ∃ a, x = .ok a ∧ f a = .ok b := by
  cases x with
  | error fault => cases h
  | ok a => exact ⟨a, rfl, h⟩

theorem exists_of_map {x : Except Fault α} {f : α → β} {b : β} (h : x.map f = .ok b) :
    ∃ a, x = .ok a ∧ f a = b := by
  cases x with
  | error fault => cases h
  | ok a => exact ⟨a, rfl, Except.ok.inj h⟩

/-- The tree has a text, and `a` is read from the tree. -/
structure ReadsBack (read : Value → Except Fault α) (v : Value) (a : α) : Prop where
  written : v.IsWritten
  read : read v = .ok a

section

variable [Library] [LawfulLibrary]

/-- The value is read from every text of the tree. -/
theorem ReadsBack.decodeText_of_denotes {text : String} (h : ReadsBack read v a)
    (htext : Denotes text.toList v) : decodeText read text = .ok a :=
  (LawfulLibrary.decodeText_of_denotes read htext).trans h.read

/-- The value is read from what is written for the tree. -/
theorem ReadsBack.decodeText (h : ReadsBack read v a) : decodeText read (Library.write v) = .ok a :=
  h.decodeText_of_denotes (LawfulLibrary.denotes_write h.written)

end

theorem exists_of_decodeText [Library] {text : String} (h : decodeText read text = .ok a) :
    ∃ v, read v = .ok a := by
  obtain ⟨b, hb, hwhole⟩ := exists_of_bind h
  refine ⟨_, hb.trans ?_⟩
  split at hwhole
  · exact hwhole
  · cases hwhole

theorem ReadsBack.map (h : ReadsBack read v a) (f : α → β) :
    ReadsBack (fun v => (read v).map f) v (f a) :=
  ⟨h.written, by rw [h.read]; rfl⟩

/-! ### Written trees -/

namespace Tree

/-- The members of the object of some named values. -/
def membersOf (ms : List (String × Value)) : Tree .members :=
  ms.foldr (fun m rest => .member (some m.1) m.2 rest) .noMember

theorem ofMembers_eq (ms : List (String × Value)) : ofMembers ms = .object (membersOf ms) := rfl

theorem membersOf_cons (key : String) (v : Value) (ms : List (String × Value)) :
    membersOf ((key, v) :: ms) = .member (some key) v (membersOf ms) := rfl

theorem isWritten_ofItems {vs : List Value} (h : ∀ v ∈ vs, v.IsWritten) :
    (ofItems vs).IsWritten := by
  show (vs.foldr item noItem).IsWritten
  induction vs with
  | nil => trivial
  | cons v vs ih => exact ⟨h v List.mem_cons_self, ih fun w hw => h w (List.mem_cons_of_mem v hw)⟩

theorem isWritten_ofMembers {ms : List (String × Value)} (h : ∀ m ∈ ms, m.2.IsWritten) :
    (ofMembers ms).IsWritten := by
  show (membersOf ms).IsWritten
  induction ms with
  | nil => trivial
  | cons m ms ih =>
    exact ⟨rfl, h m List.mem_cons_self, ih fun n hn => h n (List.mem_cons_of_mem m hn)⟩

end Tree

/-! ### Simple forms -/

theorem ReadsBack.string [Library] (expected s : String) :
    ReadsBack (decodeString expected) (.ofString s) s :=
  ⟨rfl, rfl⟩

/-- A natural number is read back below the reader's limit, if that is no more than sixty-four
bits. -/
theorem ReadsBack.nat [Library] (expected : String) {limit n : Nat} (hn : n < limit)
    (hlimit : limit ≤ UInt64.size) : ReadsBack (decodeNat expected limit) (.ofNat n) n where
  written := Numeral.ofNat_wellFormed n
  read := by
    rw [Tree.ofNat, decodeNat, Numeral.number?_ofNat (hn.trans_le hlimit)]
    dsimp only
    rw [if_pos ⟨Int.natCast_nonneg n, Int.ofNat_lt.2 hn⟩, Int.toNat_natCast]

theorem ReadsBack.list [Library] {write : α → Value} {as : List α}
    (h : ∀ a ∈ as, ReadsBack read (write a) a) :
    ReadsBack (decodeList read) (.ofItems (as.map write)) as where
  written := by
    refine Tree.isWritten_ofItems fun v hv => ?_
    obtain ⟨a, ha, rfl⟩ := List.mem_map.1 hv
    exact (h a ha).written
  read := by
    show decodeItems read ((as.map write).foldr .item .noItem) = .ok as
    induction as with
    | nil => rw [List.map_nil, List.foldr_nil, decodeItems]
    | cons a as ih =>
      rw [List.map_cons, List.foldr_cons, decodeItems, (h a List.mem_cons_self).read]
      show (decodeItems read _ >>= fun bs => pure (a :: bs)) = _
      rw [ih fun b hb => h b (List.mem_cons_of_mem a hb)]
      rfl

/-! ### Alternatives -/

variable {variants : List (Variant α)} {w : Variant α}

theorem ReadsBack.bare {name : String} (hfind : variants.find? (·.name == name) = some w)
    (hw : w.bare = .ok a) : ReadsBack (decodeVariant variants) (.ofString name) a where
  written := rfl
  read := by
    show ((findVariant variants name) >>= Variant.bare) = _
    rw [findVariant, hfind]
    exact hw

theorem decodeVariant_payload {name : String}
    (hfind : variants.find? (·.name == name) = some w) (v : Value) :
    decodeVariant variants (.ofMembers [(name, v)]) = w.payload v := by
  show (findVariant variants name >>= fun w => w.payload v >>= fun a => .ok a) = _
  rw [findVariant, hfind]
  show (w.payload v >>= fun a => .ok a) = _
  cases w.payload v <;> rfl

theorem ReadsBack.payload {name : String} (hfind : variants.find? (·.name == name) = some w)
    (hw : ReadsBack w.payload v a) :
    ReadsBack (decodeVariant variants) (.ofMembers [(name, v)]) a where
  written := Tree.isWritten_ofMembers fun _ hm => List.mem_singleton.1 hm ▸ hw.written
  read := (decodeVariant_payload hfind v).trans hw.read

/-- Whatever the alternative is read as satisfies `P`. -/
structure Variant.Yields (P : α → Prop) (w : Variant α) : Prop where
  bare : ∀ a, w.bare = .ok a → P a
  payload : ∀ v a, w.payload v = .ok a → P a

variable {P : α → Prop}

theorem Variant.Yields.unit [Library] {name : String} (h : P a) :
    (Variant.unit name a).Yields P where
  bare := fun _ hb => Except.ok.inj hb ▸ h
  payload := fun _ _ hb => (exists_of_map hb).elim fun _ ha => ha.2 ▸ h

theorem Variant.Yields.carrying {name expected : String}
    (h : ∀ v a, read v = .ok a → P a) : (Variant.carrying name expected read).Yields P where
  bare := fun _ hb => by cases hb
  payload := h

theorem mem_of_findVariant {name : String} (h : findVariant variants name = .ok w) :
    w ∈ variants := by
  unfold findVariant at h
  split at h
  · rename_i w' hfind
    obtain rfl := Except.ok.inj h
    exact List.mem_of_find?_eq_some hfind
  · cases h

/-- What all alternatives yield holds of a value that is read. -/
theorem decodeVariant_yields (hvariants : ∀ w ∈ variants, w.Yields P)
    (h : decodeVariant variants v = .ok a) : P a := by
  unfold decodeVariant at h
  split at h
  · obtain ⟨w, hw, hbare⟩ := exists_of_bind h
    exact (hvariants w (mem_of_findVariant hw)).bare a hbare
  · rename_i name value rest
    obtain ⟨w, hw, hpayload⟩ := exists_of_bind h
    obtain ⟨b, hb, hrest⟩ := exists_of_bind hpayload
    have hP := (hvariants w (mem_of_findVariant hw)).payload value b hb
    cases rest with
    | noMember => exact Except.ok.inj hrest ▸ hP
    | _ => cases hrest
  · cases h

/-! ### Records -/

namespace Record

/-- The members `ms` are written, and storing them one after the other leads from `s` to `s'`. -/
inductive Stores (r : Record σ) : σ → List (String × Value) → σ → Prop where
  | nil {s : σ} : Stores r s [] s
  | cons {s s' t : σ} {f : Field σ} {key : String} {v : Value} {ms : List (String × Value)}
      (hfind : r.fields.find? (·.name == key) = some f) (hunset : f.isSet s = false)
      (hv : v.IsWritten) (hstore : f.store s v = .ok t) (hms : Stores r t ms s') :
      Stores r s ((key, v) :: ms) s'

variable {r : Record σ} {s s' : σ} {f : Field σ} {key : String} {ms : List (String × Value)}

theorem Stores.field {set : α → σ} (hfind : r.fields.find? (·.name == key) = some f)
    (hunset : f.isSet s = false) (hstore : f.store s v = (read v >>= fun a => pure (set a)))
    (h : ReadsBack read v a) (hms : r.Stores (set a) ms s') : r.Stores s ((key, v) :: ms) s' := by
  refine .cons hfind hunset h.written ?_ hms
  rw [hstore, h.read]
  rfl

theorem Stores.isWritten (h : r.Stores s ms s') : ∀ m ∈ ms, m.2.IsWritten := by
  induction h with
  | nil => exact fun m hm => absurd hm List.not_mem_nil
  | cons _ _ hv _ _ ih => exact List.forall_mem_cons.2 ⟨hv, ih⟩

theorem Stores.decodeMembers (h : r.Stores s ms s') (rest : List (String × Value)) :
    r.decodeMembers s (.membersOf (ms ++ rest)) = r.decodeMembers s' (.membersOf rest) := by
  induction h with
  | nil => rfl
  | cons hfind hunset _ hstore _ ih =>
    rw [List.cons_append, Tree.membersOf_cons, Record.decodeMembers, hfind]
    simp only [hunset, hstore]
    exact ih

/-- A record is read back from its members once none of its fields is missing. -/
theorem Stores.readsBack [Library] (h : r.Stores s ms s') (hmissing : r.missing? s' = none) :
    ReadsBack (r.decode s) (.ofMembers ms) s' where
  written := Tree.isWritten_ofMembers h.isWritten
  read := by
    have hmembers := h.decodeMembers []
    rw [List.append_nil] at hmembers
    rw [Tree.ofMembers_eq, decode, hmembers, Tree.membersOf, List.foldr_nil, Record.decodeMembers,
      hmissing]

theorem Stores.decode_error [Library] {rest : List (String × Value)} {fault : Fault}
    (h : r.Stores s ms s') (hfind : r.fields.find? (·.name == key) = some f)
    (hunset : f.isSet s' = false) (hstore : f.store s' v = .error fault) :
    r.decode s (.ofMembers (ms ++ (key, v) :: rest)) = .error fault := by
  rw [Tree.ofMembers_eq, decode, h.decodeMembers, Tree.membersOf_cons, Record.decodeMembers, hfind]
  simp only [hunset, hstore]
  rfl

variable {P : σ → Prop}

theorem decodeMembers_induction {members : Tree .members}
    (hstore : ∀ f ∈ r.fields, ∀ s v s', P s → f.store s v = .ok s' → P s') (hs : P s)
    (h : r.decodeMembers s members = .ok s') : P s' := by
  fun_induction decodeMembers r s members with
  | case2 s _ => exact Except.ok.inj h ▸ hs
  | case4 s key value rest f hfind _ ih =>
    obtain ⟨t, ht, hrest⟩ := exists_of_bind h
    exact ih t (hstore f (List.mem_of_find?_eq_some hfind) s value t hs ht) hrest
  | case5 s key value rest _ _ ih => exact ih hs h
  | _ => cases h

theorem decodeItems_induction {items : Tree .items} {fs : List (Field σ)} {index : Nat}
    (hstore : ∀ f ∈ fs, ∀ s v s', P s → f.store s v = .ok s' → P s') (hs : P s)
    (h : r.decodeItems index fs s items = .ok s') : P s' := by
  fun_induction decodeItems r index fs s items with
  | case1 _ s => exact Except.ok.inj h ▸ hs
  | case2 _ f fs s head rest ih =>
    obtain ⟨t, ht, hrest⟩ := exists_of_bind h
    exact ih t (fun g hg => hstore g (List.mem_cons_of_mem f hg))
      (hstore f List.mem_cons_self s head t hs ht) hrest
  | case3 _ f fs s _ ih => exact ih (fun g hg => hstore g (List.mem_cons_of_mem f hg)) hs h
  | _ => cases h

/-- What storing any field preserves holds of a record that is read. -/
theorem decode_induction [Library] {empty : σ}
    (hstore : ∀ f ∈ r.fields, ∀ s v s', P s → f.store s v = .ok s' → P s') (hempty : P empty)
    (h : r.decode empty v = .ok s) : P s := by
  unfold decode at h
  split at h
  · exact decodeMembers_induction hstore hempty h
  · exact decodeItems_induction hstore hempty h
  · cases h

end Record

end Json

end CliffordT
