import CliffordT.Proofs.JsonValues
import Mathlib.Data.List.Find
import Mathlib.Data.List.Nodup

/-!
# Records are read field by field, in any order

Each field of a record has a slot of its own in the state that is read into: storing the field fills
its slot, and storing another field leaves the slot as it is.  So the slots of what is read depend
on the members with the name of the field alone, wherever these stand among the others.

* `Json.Field.Keeps`, `Json.Field.Spares` : the field fills a slot, or leaves it as it is;
* `Json.Record.Slot`, `Json.Record.IsSlotted` : a slot of a record, and records with a slot for each
  field;
* `Json.valuesOf` : the values under a name;
* `Json.Record.decodeMembers_append` : readable members in front are read, each field once at most,
  and fill the slots;
* `Json.Record.isSingle_of_decodeMembers`, `Json.Record.exists_value_of_decodeMembers` : what is
  accepted has each field once at most, and has all that may not be left out;
* `Json.Record.decode_ofMembers` : **an object of readable members fills the slots, unless a field
  is missing;**
* `Json.Record.decode_repeated`, `Json.Record.decode_missing` : **a repeated field is rejected, and
  so is a missing one that may not be left out;**
* `Json.Record.decode_ofItems` : **an array is read as the object of its items under the declared
  names.**
-/

namespace CliffordT

namespace Json

variable {α σ : Type}

/-! ### Slots -/

/-- What the field reads is kept in the slot `get`. -/
structure Field.Keeps (f : Field σ) (read : Value → Except Fault α) (get : σ → Option α) :
    Prop where
  isSet : ∀ s, f.isSet s = (get s).isSome
  store : ∀ s v, (f.store s v).map get = (read v).map some

/-- The field leaves the slot `get` as it is. -/
def Field.Spares (f : Field σ) (get : σ → Option α) : Prop :=
  ∀ s v t, f.store s v = .ok t → get t = get s

/-- The slot of the field with a name, in which the field alone keeps what it reads. -/
structure Record.Slot (r : Record σ) (name : String) (read : Value → Except Fault α)
    (get : σ → Option α) : Prop where
  keeps : ∀ f ∈ r.fields, f.name = name → f.Keeps read get
  spares : ∀ f ∈ r.fields, f.name ≠ name → f.Spares get

/-- Every field has a slot. -/
def Record.IsSlotted (r : Record σ) : Prop :=
  ∀ f ∈ r.fields, ∃ (α : Type) (read : Value → Except Fault α) (get : σ → Option α),
    r.Slot f.name read get

section

variable {f : Field σ} {read : Value → Except Fault α} {get : σ → Option α} {s t : σ} {v : Value}

theorem Field.Keeps.exists_of_store (h : f.Keeps read get) (hstore : f.store s v = .ok t) :
    ∃ a, read v = .ok a ∧ get t = some a := by
  have hmap := h.store s v
  rw [hstore] at hmap
  obtain ⟨a, ha, hget⟩ := exists_of_map hmap.symm
  exact ⟨a, ha, hget.symm⟩

theorem Field.Keeps.exists_store (h : f.Keeps read get) {a : α} (hread : read v = .ok a) (s : σ) :
    ∃ t, f.store s v = .ok t ∧ get t = some a := by
  have hmap := h.store s v
  rw [hread] at hmap
  exact exists_of_map hmap

end

section

variable {f : Field σ} {read : Value → Except Fault α} {get : σ → Option α}

theorem Field.Keeps.of_store {put : σ → α → σ}
    (hstore : ∀ s v, f.store s v = read v >>= fun a => pure (put s a))
    (hget : ∀ s a, get (put s a) = some a) (hset : ∀ s, f.isSet s = (get s).isSome) :
    f.Keeps read get where
  isSet := hset
  store := by
    intro s v
    rw [hstore]
    cases read v with
    | error fault => rfl
    | ok a => exact congrArg Except.ok (hget s a)

theorem Field.Spares.of_store {β : Type} {readOther : Value → Except Fault β} {put : σ → β → σ}
    (hstore : ∀ s v, f.store s v = readOther v >>= fun b => pure (put s b))
    (hget : ∀ s b, get (put s b) = get s) : f.Spares get := by
  intro s v t h
  rw [hstore] at h
  obtain ⟨b, -, ht⟩ := exists_of_bind h
  exact Except.ok.inj ht ▸ hget s b

theorem Record.Slot.of_fields {r : Record σ} {name : String}
    (h : ∀ f ∈ r.fields, if f.name = name then f.Keeps read get else f.Spares get) :
    r.Slot name read get where
  keeps := fun f hf hname => by simpa only [if_pos hname] using h f hf
  spares := fun f hf hname => by simpa only [if_neg hname] using h f hf

end

/-! ### Values under a name -/

/-- The values of the members with a name. -/
def valuesOf (ms : List (String × Value)) (name : String) : List Value :=
  (ms.filter (·.1 == name)).map Prod.snd

variable {m : String × Value} {ms rest : List (String × Value)} {name : String}

theorem valuesOf_cons_self (key : String) (v : Value) (ms : List (String × Value)) :
    valuesOf ((key, v) :: ms) key = v :: valuesOf ms key := by
  simp [valuesOf]

theorem valuesOf_cons_of_ne {key : String} (h : key ≠ name) (v : Value)
    (ms : List (String × Value)) : valuesOf ((key, v) :: ms) name = valuesOf ms name := by
  simp [valuesOf, h]

/-! ### Reading the members -/

namespace Record

variable {r : Record σ} {s s' t : σ} {f g : Field σ} {key : String} {v : Value}

/-- The member is skipped, or its field stores it. -/
structure Takes (r : Record σ) (m : String × Value) : Prop where
  skips : r.fields.find? (·.name == m.1) = none → m.2.isSound
  stores : ∀ f ∈ r.fields, f.name = m.1 → ∀ s, ∃ t, f.store s m.2 = .ok t

/-- Every field is set once at most, if the members are read into the state. -/
def IsSingle (r : Record σ) (s : σ) (ms : List (String × Value)) : Prop :=
  ∀ f ∈ r.fields, (valuesOf ms f.name).length + (f.isSet s).toNat ≤ 1

/-- The state `t` differs from `s` in the slots of the members, which hold what is read. -/
structure Fills (r : Record σ) (s : σ) (ms : List (String × Value)) (t : σ) : Prop where
  isSet : ∀ f ∈ r.fields, f.isSet t = (f.isSet s || !(valuesOf ms f.name).isEmpty)
  slot : ∀ {α : Type} {name : String} {read : Value → Except Fault α} {get : σ → Option α},
    r.Slot name read get → name ∈ r.fields.map (·.name) →
      get t = ((valuesOf ms name).head?.bind fun v => (read v).toOption).or (get s)

theorem find?_cases (r : Record σ) (key : String) :
    (r.fields.find? (·.name == key) = none ∧ ∀ f ∈ r.fields, key ≠ f.name) ∨
      ∃ f ∈ r.fields, f.name = key ∧ r.fields.find? (·.name == key) = some f := by
  cases hfind : r.fields.find? (·.name == key) with
  | none =>
    refine .inl ⟨rfl, fun f hf hname => ?_⟩
    exact List.find?_eq_none.1 hfind f hf (by simp [hname])
  | some f =>
    exact .inr ⟨f, List.mem_of_find?_eq_some hfind, by simpa using List.find?_some hfind, rfl⟩

theorem exists_find? (h : f ∈ r.fields) : ∃ g ∈ r.fields, g.name = f.name ∧
    r.fields.find? (·.name == f.name) = some g :=
  (r.find?_cases f.name).resolve_left fun hnone => hnone.2 f h rfl

theorem isSet_congr (hr : r.IsSlotted) (hf : f ∈ r.fields) (hg : g ∈ r.fields)
    (hname : g.name = f.name) (s : σ) : g.isSet s = f.isSet s := by
  obtain ⟨α, read, get, hslot⟩ := hr f hf
  rw [(hslot.keeps f hf rfl).isSet, (hslot.keeps g hg hname).isSet]

theorem isSet_of_store (hr : r.IsSlotted) (hf : f ∈ r.fields) (hstore : f.store s v = .ok t)
    (hg : g ∈ r.fields) : g.isSet t = (g.name == f.name || g.isSet s) := by
  obtain ⟨α, read, get, hslot⟩ := hr g hg
  have hkeeps := hslot.keeps g hg rfl
  rw [hkeeps.isSet, hkeeps.isSet]
  by_cases hname : f.name = g.name
  · obtain ⟨a, -, hget⟩ := (hslot.keeps f hf hname).exists_of_store hstore
    rw [hget, hname, beq_self_eq_true]
    rfl
  · rw [hslot.spares f hf hname s v t hstore, beq_false_of_ne (Ne.symm hname), Bool.false_or]

theorem isSingle_iff_of_empty (hempty : ∀ f ∈ r.fields, f.isSet s = false) :
    r.IsSingle s ms ↔ ∀ f ∈ r.fields, (valuesOf ms f.name).length ≤ 1 :=
  forall₂_congr fun f hf => by rw [hempty f hf, Bool.toNat_false, Nat.add_zero]

theorem isSingle_cons_of_ne (hkey : ∀ f ∈ r.fields, key ≠ f.name) :
    r.IsSingle s ((key, v) :: ms) ↔ r.IsSingle s ms :=
  forall₂_congr fun f hf => by rw [valuesOf_cons_of_ne (hkey f hf)]

theorem isSingle_cons_iff (hr : r.IsSlotted) (hf : f ∈ r.fields) (hstore : f.store s v = .ok t) :
    r.IsSingle s ((f.name, v) :: ms) ↔ f.isSet s = false ∧ r.IsSingle t ms := by
  -- the member counts for fields of its name, and for no other
  have hsame : ∀ g ∈ r.fields, g.name = f.name →
      ((valuesOf ((f.name, v) :: ms) g.name).length + (g.isSet s).toNat ≤ 1 ↔
        f.isSet s = false ∧ (valuesOf ms g.name).length + (g.isSet t).toNat ≤ 1) := by
    intro g hg hname
    rw [isSet_of_store hr hf hstore hg, isSet_congr hr hf hg hname, hname, valuesOf_cons_self,
      beq_self_eq_true, List.length_cons]
    cases f.isSet s <;> simp
  have hother : ∀ g ∈ r.fields, g.name ≠ f.name →
      ((valuesOf ((f.name, v) :: ms) g.name).length + (g.isSet s).toNat ≤ 1 ↔
        (valuesOf ms g.name).length + (g.isSet t).toNat ≤ 1) := by
    intro g hg hname
    rw [isSet_of_store hr hf hstore hg, valuesOf_cons_of_ne (Ne.symm hname),
      beq_false_of_ne hname, Bool.false_or]
  constructor
  · intro h
    refine ⟨((hsame f hf rfl).1 (h f hf)).1, fun g hg => ?_⟩
    by_cases hname : g.name = f.name
    · exact ((hsame g hg hname).1 (h g hg)).2
    · exact (hother g hg hname).1 (h g hg)
  · rintro ⟨hunset, h⟩ g hg
    by_cases hname : g.name = f.name
    · exact (hsame g hg hname).2 ⟨hunset, h g hg⟩
    · exact (hother g hg hname).2 (h g hg)

theorem fills_nil : r.Fills s [] s where
  isSet := fun _ _ => (Bool.or_false _).symm
  slot := fun _ _ => rfl

theorem Fills.skip (hkey : ∀ f ∈ r.fields, key ≠ f.name) (h : r.Fills s ms t) :
    r.Fills s ((key, v) :: ms) t where
  isSet := fun f hf => by rw [h.isSet f hf, valuesOf_cons_of_ne (hkey f hf)]
  slot := by
    intro α name read get hslot hname
    obtain ⟨f, hf, rfl⟩ := List.mem_map.1 hname
    rw [h.slot hslot hname, valuesOf_cons_of_ne (hkey f hf)]

theorem Fills.store (hr : r.IsSlotted) (hf : f ∈ r.fields) (hstore : f.store s v = .ok s')
    (hlast : valuesOf ms f.name = []) (h : r.Fills s' ms t) :
    r.Fills s ((f.name, v) :: ms) t where
  isSet := by
    intro g hg
    rw [h.isSet g hg, isSet_of_store hr hf hstore hg]
    by_cases hname : g.name = f.name
    · rw [hname, beq_self_eq_true, valuesOf_cons_self]
      simp
    · rw [beq_false_of_ne hname, valuesOf_cons_of_ne (Ne.symm hname), Bool.false_or]
  slot := by
    intro α name read get hslot hname
    rw [h.slot hslot hname]
    by_cases hname : f.name = name
    · subst hname
      obtain ⟨a, hread, hget⟩ := (hslot.keeps f hf rfl).exists_of_store hstore
      rw [hlast, valuesOf_cons_self, List.head?_cons, Option.bind_some, hread, hget]
      rfl
    · rw [valuesOf_cons_of_ne hname, hslot.spares f hf hname s v s' hstore]

/-- Members that can be read are read, and then those behind them. -/
theorem decodeMembers_append (hr : r.IsSlotted) (hms : ∀ m ∈ ms, r.Takes m)
    (hsingle : r.IsSingle s ms) : ∃ t, r.Fills s ms t ∧ ∀ rest,
      r.decodeMembers s (.membersOf (ms ++ rest)) = r.decodeMembers t (.membersOf rest) := by
  induction ms generalizing s with
  | nil => exact ⟨s, fills_nil, fun rest => rfl⟩
  | cons m ms ih =>
    obtain ⟨key, v⟩ := m
    obtain ⟨hm, hmsrest⟩ := List.forall_mem_cons.1 hms
    obtain ⟨hfind, hkey⟩ | ⟨f, hf, rfl, hfind⟩ := r.find?_cases key
    · obtain ⟨t, hfills, ht⟩ := ih hmsrest ((isSingle_cons_of_ne hkey).1 hsingle)
      refine ⟨t, hfills.skip hkey, fun rest => ?_⟩
      rw [List.cons_append, Tree.membersOf_cons, decodeMembers, hfind]
      simp only [hm.skips hfind, if_true]
      exact ht rest
    · -- the field is set now, so no value with its name can follow
      obtain ⟨s', hstore⟩ := hm.stores f hf rfl s
      obtain ⟨hunset, hsingle'⟩ := (isSingle_cons_iff hr hf hstore).1 hsingle
      have hlast : valuesOf ms f.name = [] := by
        have hone := hsingle' f hf
        rw [isSet_of_store hr hf hstore hf, beq_self_eq_true, Bool.true_or] at hone
        exact List.length_eq_zero_iff.1 (by simpa using hone)
      obtain ⟨t, hfills, ht⟩ := ih hmsrest hsingle'
      refine ⟨t, hfills.store hr hf hstore hlast, fun rest => ?_⟩
      rw [List.cons_append, Tree.membersOf_cons, decodeMembers, hfind]
      simp only [hunset, hstore]
      exact ht rest

theorem decodeMembers_cons_cases (h : r.decodeMembers s (.membersOf ((key, v) :: ms)) = .ok t) :
    ((∀ f ∈ r.fields, key ≠ f.name) ∧ r.decodeMembers s (.membersOf ms) = .ok t) ∨
      ∃ f ∈ r.fields, f.name = key ∧ f.isSet s = false ∧
        ∃ s', f.store s v = .ok s' ∧ r.decodeMembers s' (.membersOf ms) = .ok t := by
  rw [Tree.membersOf_cons, decodeMembers] at h
  obtain ⟨hfind, hkey⟩ | ⟨f, hf, hname, hfind⟩ := r.find?_cases key
  · rw [hfind] at h
    dsimp only at h
    split_ifs at h
    exact .inl ⟨hkey, h⟩
  · rw [hfind] at h
    dsimp only at h
    split_ifs at h with hset
    exact .inr ⟨f, hf, hname, by simpa using hset, exists_of_bind h⟩

/-- What is accepted has every field once at most. -/
theorem isSingle_of_decodeMembers (hr : r.IsSlotted)
    (h : r.decodeMembers s (.membersOf ms) = .ok t) : r.IsSingle s ms := by
  induction ms generalizing s with
  | nil => exact fun f _ => (Nat.zero_add _).trans_le (Bool.toNat_le _)
  | cons m ms ih =>
    obtain ⟨key, v⟩ := m
    obtain ⟨hkey, hrest⟩ | ⟨f, hf, rfl, hunset, s', hstore, hrest⟩ := decodeMembers_cons_cases h
    · exact (isSingle_cons_of_ne hkey).2 (ih hrest)
    · exact (isSingle_cons_iff hr hf hstore).2 ⟨hunset, ih hrest⟩

/-- What is accepted has every field that may not be left out. -/
theorem exists_value_of_decodeMembers (hr : r.IsSlotted)
    (h : r.decodeMembers s (.membersOf ms) = .ok t) (hf : f ∈ r.fields)
    (hrequired : f.isOptional = false) : f.isSet s ∨ valuesOf ms f.name ≠ [] := by
  -- the fields that are set so far are general in the induction
  induction ms generalizing s with
  | nil =>
    rw [Tree.membersOf, List.foldr_nil, decodeMembers] at h
    cases hmissing : r.missing? s with
    | some g =>
      rw [hmissing] at h
      cases h
    | none =>
      have hset := List.find?_eq_none.1 hmissing f hf
      rw [hrequired] at hset
      exact .inl (by simpa using hset)
  | cons m ms ih =>
    obtain ⟨key, v⟩ := m
    obtain ⟨hkey, hrest⟩ | ⟨g, hg, rfl, -, s', hstore, hrest⟩ := decodeMembers_cons_cases h
    · rw [valuesOf_cons_of_ne (hkey f hf)]
      exact ih hrest
    · by_cases hname : g.name = f.name
      · rw [hname, valuesOf_cons_self]
        exact .inr (List.cons_ne_nil _ _)
      · have hset := isSet_of_store hr hg hstore hf
        rw [beq_false_of_ne (Ne.symm hname), Bool.false_or] at hset
        rw [valuesOf_cons_of_ne hname, ← hset]
        exact ih hrest

/-- **An object whose members can be read fills the slots, unless a field is missing.** -/
theorem decode_ofMembers [Library] (hr : r.IsSlotted) (hempty : ∀ f ∈ r.fields, f.isSet s = false)
    (hms : ∀ m ∈ ms, r.Takes m) (hsingle : ∀ f ∈ r.fields, (valuesOf ms f.name).length ≤ 1) :
    ∃ t, r.Fills s ms t ∧ r.decode s (.ofMembers ms) =
      match r.fields.find? fun f => !f.isOptional && (valuesOf ms f.name).isEmpty with
      | some f => .error (.missingField f.name)
      | none => .ok t := by
  obtain ⟨t, hfills, ht⟩ := decodeMembers_append hr hms ((isSingle_iff_of_empty hempty).2 hsingle)
  have hmissing : r.missing? t =
      r.fields.find? fun f => !f.isOptional && (valuesOf ms f.name).isEmpty := by
    refine List.find?_congr fun f hf => ?_
    rw [hfills.isSet f hf, hempty f hf, Bool.false_or, Bool.not_not]
  refine ⟨t, hfills, ?_⟩
  have hdecode := ht []
  rw [List.append_nil] at hdecode
  rw [Tree.ofMembers_eq, decode, hdecode, Tree.membersOf, List.foldr_nil, decodeMembers]
  cases hfind : r.fields.find? fun f => !f.isOptional && (valuesOf ms f.name).isEmpty <;>
    rw [hmissing, hfind]

/-- **A repeated field is rejected**, whatever its values are. -/
theorem decode_repeated [Library] (hr : r.IsSlotted) (hf : f ∈ r.fields)
    (h : 1 < (valuesOf ms f.name).length) (s : σ) :
    ∃ fault, r.decode s (.ofMembers ms) = .error fault := by
  cases hdecode : r.decode s (.ofMembers ms) with
  | error fault => exact ⟨fault, rfl⟩
  | ok t =>
    have hone := isSingle_of_decodeMembers hr hdecode f hf
    omega

/-- **A field that may not be left out is not left out**, whatever the other values are. -/
theorem decode_missing [Library] (hr : r.IsSlotted) (hf : f ∈ r.fields)
    (hrequired : f.isOptional = false) (hempty : f.isSet s = false) (h : valuesOf ms f.name = []) :
    ∃ fault, r.decode s (.ofMembers ms) = .error fault := by
  cases hdecode : r.decode s (.ofMembers ms) with
  | error fault => exact ⟨fault, rfl⟩
  | ok t =>
    obtain hset | hvalue := exists_value_of_decodeMembers hr hdecode hf hrequired
    · exact absurd (hset.symm.trans hempty) (by decide)
    · exact absurd h hvalue

theorem decode_duplicate [Library] (hr : r.IsSlotted) (hempty : ∀ f ∈ r.fields, f.isSet s = false)
    (hms : ∀ m ∈ ms, r.Takes m) (hsingle : ∀ f ∈ r.fields, (valuesOf ms f.name).length ≤ 1)
    (hf : f ∈ r.fields) (hfirst : valuesOf ms f.name ≠ []) (v : Value)
    (rest : List (String × Value)) :
    r.decode s (.ofMembers (ms ++ (f.name, v) :: rest)) = .error (.duplicateField f.name) := by
  obtain ⟨t, hfills, ht⟩ := decodeMembers_append hr hms ((isSingle_iff_of_empty hempty).2 hsingle)
  obtain ⟨g, hg, hname, hfind⟩ := exists_find? hf
  have hset : g.isSet t := by
    rw [hfills.isSet g hg, hname, List.isEmpty_eq_false_iff.2 hfirst, Bool.not_false, Bool.or_true]
  rw [Tree.ofMembers_eq, decode, ht, Tree.membersOf_cons, decodeMembers, hfind]
  exact if_pos hset

/-! ### Arrays -/

theorem decodeItems_noItem {fs : List (Field σ)} (h : ∀ f ∈ fs, f.isOptional) (index : Nat)
    (s : σ) : r.decodeItems index fs s .noItem = .ok s := by
  induction fs generalizing index with
  | nil => rw [decodeItems]
  | cons f fs ih =>
    obtain ⟨hf, hfs⟩ := List.forall_mem_cons.1 h
    rw [decodeItems, if_pos hf]
    exact ih hfs (index + 1)

/-- The rest of an array is read as the members of an object that follow in the declared order. -/
theorem decodeItems_eq (hr : r.IsSlotted) {fs : List (Field σ)}
    (hfind : ∀ f ∈ fs, r.fields.find? (·.name == f.name) = some f)
    (hnodup : (fs.map (·.name)).Nodup) (hunset : ∀ f ∈ fs, f.isSet s = false)
    (hset : ∀ f ∈ r.fields, f ∈ fs ∨ f.isSet s) (hnames : ms.map Prod.fst <+: fs.map (·.name))
    (hrest : ∀ f ∈ fs.drop ms.length, f.isOptional) (index : Nat) :
    r.decodeItems index fs s ((ms.map Prod.snd).foldr .item .noItem) =
      r.decodeMembers s (.membersOf ms) := by
  -- the fields still to come are unset, and all others are set
  induction ms generalizing fs s index with
  | nil =>
    have hoptional : ∀ f ∈ fs, f.isOptional := hrest
    have hmissing : r.missing? s = none := by
      refine List.find?_eq_none.2 fun f hf => ?_
      obtain hmem | hset := hset f hf
      · simp [hoptional f hmem]
      · simp [hset]
    rw [List.map_nil, List.foldr_nil, decodeItems_noItem hoptional, Tree.membersOf, List.foldr_nil,
      decodeMembers, hmissing]
  | cons m ms ih =>
    obtain ⟨key, v⟩ := m
    obtain _ | ⟨f, fs⟩ := fs
    · exact absurd hnames (by simp)
    obtain ⟨rfl, htail⟩ := List.cons_prefix_cons.1 hnames
    obtain ⟨hf, hfs⟩ := List.forall_mem_cons.1 hfind
    obtain ⟨hfunset, hfsunset⟩ := List.forall_mem_cons.1 hunset
    obtain ⟨hfresh, hnodupfs⟩ := List.nodup_cons.1 hnodup
    rw [List.map_cons, List.foldr_cons, decodeItems, Tree.membersOf_cons, decodeMembers, hf]
    simp only [hfunset, Bool.false_eq_true, if_false]
    cases hstore : f.store s v with
    | error fault => rfl
    | ok t =>
      have hmem := List.mem_of_find?_eq_some hf
      refine ih hfs hnodupfs (fun g hg => ?_) (fun g hg => ?_) htail hrest (index + 1)
      · have hne : g.name ≠ f.name := fun hname =>
          hfresh (List.mem_map.2 ⟨g, hg, hname⟩)
        rw [isSet_of_store hr hmem hstore (List.mem_of_find?_eq_some (hfs g hg)),
          beq_false_of_ne hne, hfsunset g hg, Bool.or_false]
      · rw [isSet_of_store hr hmem hstore hg]
        obtain hmem | hset := hset g hg
        · obtain rfl | hmem := List.mem_cons.1 hmem
          · simp
          · exact .inl hmem
        · simp [hset]

/-- **An array is read as the object of its items under the declared names.**  Fields that may be
left out may be missing at the end. -/
theorem decode_ofItems [Library] (hr : r.IsSlotted) (hnodup : (r.fields.map (·.name)).Nodup)
    (hempty : ∀ f ∈ r.fields, f.isSet s = false)
    (hnames : ms.map Prod.fst <+: r.fields.map (·.name))
    (hrest : ∀ f ∈ r.fields.drop ms.length, f.isOptional) :
    r.decode s (.ofItems (ms.map Prod.snd)) = r.decode s (.ofMembers ms) := by
  have hfind : ∀ f ∈ r.fields, r.fields.find? (·.name == f.name) = some f := by
    intro f hf
    obtain ⟨g, hg, hname, hfind⟩ := exists_find? hf
    rw [hfind, List.inj_on_of_nodup_map hnodup hg hf hname]
  exact decodeItems_eq hr hfind hnodup hempty (fun f hf => .inl hf) hnames hrest 0

end Record

end Json

end CliffordT
