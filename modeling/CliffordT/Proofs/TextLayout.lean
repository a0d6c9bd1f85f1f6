import CliffordT.Proofs.RecordLayout
import CliffordT.Proofs.StrictReaders

/-!
# Texts of objects are read in any layout

An object is put together from texts of keys and of values.  What a record reads from it depends on
the texts with the names of its fields, and not on their order, on their spelling or on the other
members.

* `Json.textsOf` : the texts of the members with a name;
* `Json.IsLayout`, `Json.IsPartial` : every field is written once, or is written once or left out,
  in any order and among any other members;
* `Json.ReadsInAnyLayout`, `Json.RejectsRepeated`, `Json.RejectsMissing` : what a reader of whole
  texts makes of them;
* `Json.Record.Fills.slot_eq_some`, `Json.Record.Fills.slot_getD` : what a slot holds, from the
  texts of its field;
* `Json.RecordReader` : a reader of whole texts with the record behind it;
* `Json.RecordReader.decode_objectText` : what is read from an object;
* `Json.RecordReader.read_arrayText_eq` : an array is read as the object of its items;
* `Json.RecordReader.rejectsRepeated`, `Json.RecordReader.rejectsMissing` : **no field may be
  repeated, and none may be missing.**
-/

namespace CliffordT

namespace Json

variable {α β σ : Type}

/-! ### Layouts -/

/-- The texts of the members with a name. -/
def textsOf (ms : List MemberText) (name : String) : List String :=
  (ms.filter (·.key == name)).map (·.text)

/-- Every field is written once, as a member with its text.  The order of the fields is free, and
members with other names may stand anywhere. -/
def IsLayout (fields : List (String × String)) (ms : List MemberText) : Prop :=
  ∀ f ∈ fields, textsOf ms f.1 = [f.2]

/-- The text is read as some value. -/
def Readable [Library] (read : Value → Except Fault α) (text : String) : Prop :=
  ∃ a, decodeText read text = .ok a

/-- Every field is left out, or written once with a text that can be read as the field. -/
def IsPartial (fields : List (String × (String → Prop))) (ms : List MemberText) : Prop :=
  ∀ f ∈ fields, textsOf ms f.1 = [] ∨ ∃ text, textsOf ms f.1 = [text] ∧ f.2 text

/-- The value is read from the text, or is the default if there is no text. -/
def ReadsOr [Library] (read : Value → Except Fault α) (default : α) : Option String → α → Prop
  | none, a => a = default
  | some text, a => decodeText read text = .ok a

/-- The fields are read as `b` from an object of any layout, and from the array of their texts. -/
def ReadsInAnyLayout (read : String → Except Fault β) (fields : List (String × String)) (b : β) :
    Prop :=
  (∀ ms, IsLayout fields ms → read (objectText ms) = .ok b) ∧
    read (arrayText (fields.map Prod.snd)) = .ok b

/-- An object that repeats a field is rejected, whatever its texts are.  If everything in front of
the repetition can be read, the repeated field is named. -/
def RejectsRepeated (read : String → Except Fault β) (fields : List (String × (String → Prop))) :
    Prop :=
  ∀ f ∈ fields,
    (∀ ms, 1 < (textsOf ms f.1).length → ∃ fault, read (objectText ms) = .error fault) ∧
    ∀ ms m rest, IsPartial fields ms → textsOf ms f.1 ≠ [] → m.key = f.1 →
      read (objectText (ms ++ m :: rest)) = .error (.duplicateField f.1)

/-- An object that lacks a field is rejected, whatever its texts are.  If all of it can be read, the
first missing field in the declared order is named. -/
def RejectsMissing (read : String → Except Fault β) (fields : List (String × (String → Prop))) :
    Prop :=
  (∀ f ∈ fields, ∀ ms, textsOf ms f.1 = [] → ∃ fault, read (objectText ms) = .error fault) ∧
  ∀ ms name, IsPartial fields ms →
    (fields.map Prod.fst).find? (fun name => (textsOf ms name).isEmpty) = some name →
      read (objectText ms) = .error (.missingField name)

variable {ms : List MemberText} {name text : String}

theorem MemberText.isSound_value [Library] [LawfulLibrary] (m : MemberText) : m.value.isSound :=
  (LawfulLibrary.denotes_valueOf m.isJson).isSound

theorem valuesOf_pairs [Library] (ms : List MemberText) (name : String) :
    valuesOf (ms.map MemberText.pair) name = (textsOf ms name).map valueOf := by
  rw [valuesOf, textsOf, List.filter_map, List.map_map, List.map_map]
  rfl

theorem textsOf_cons_self {m : MemberText} (h : m.key = name) (ms : List MemberText) :
    textsOf (m :: ms) name = m.text :: textsOf ms name := by
  simp [textsOf, h]

theorem textsOf_cons_of_ne {m : MemberText} (h : m.key ≠ name) (ms : List MemberText) :
    textsOf (m :: ms) name = textsOf ms name := by
  simp [textsOf, h]

theorem textsOf_eq_nil (h : ∀ m ∈ ms, m.key ≠ name) : textsOf ms name = [] := by
  rw [textsOf, List.map_eq_nil_iff, List.filter_eq_nil_iff]
  simpa using h

theorem ReadsOr.isPartial [Library] {read : Value → Except Fault α} {default a : α}
    {text? : Option String} (h : ReadsOr read default text? a)
    (htexts : textsOf ms name = text?.toList) :
    textsOf ms name = [] ∨ ∃ text, textsOf ms name = [text] ∧ Readable read text := by
  cases text? with
  | none => exact .inl htexts
  | some text => exact .inr ⟨text, htexts, a, h⟩

theorem isJson_of_mem_textsOf (h : text ∈ textsOf ms name) : IsJson text := by
  obtain ⟨m, -, rfl⟩ := List.mem_map.1 h
  exact m.isJson

/-! ### Objects with the fields alone -/

/-- The member with a key, written without escapes where that is possible. -/
def MemberText.ofKey (key text : String) (h : IsJson text) : MemberText :=
  ⟨(Tree.ofString key).compact, key, text, Tree.IsWritten.denotes_compact rfl, h⟩

/-- The members of some fields, in their order. -/
def membersOfTexts (fields : List (String × String)) (h : ∀ f ∈ fields, IsJson f.2) :
    List MemberText :=
  fields.pmap (fun f hf => .ofKey f.1 f.2 hf) h

theorem pairs_membersOfTexts [Library] {fields : List (String × String)}
    (h : ∀ f ∈ fields, IsJson f.2) :
    (membersOfTexts fields h).map MemberText.pair = fields.map fun f => (f.1, valueOf f.2) := by
  rw [membersOfTexts, List.map_pmap]
  show List.pmap (fun f _ => (f.1, valueOf f.2)) fields h = _
  exact List.pmap_eq_map h

theorem isLayout_membersOfTexts {fields : List (String × String)} (h : ∀ f ∈ fields, IsJson f.2)
    (hnodup : (fields.map Prod.fst).Nodup) : IsLayout fields (membersOfTexts fields h) := by
  induction fields with
  | nil => exact fun f hf => absurd hf List.not_mem_nil
  | cons g gs ih =>
    obtain ⟨hfresh, hgs⟩ := List.nodup_cons.1 hnodup
    have hlayout := ih (List.forall_mem_cons.1 h).2 hgs
    rw [membersOfTexts, List.pmap_cons]
    intro f hf
    obtain rfl | hf := List.mem_cons.1 hf
    · refine (textsOf_cons_self rfl _).trans (congrArg (f.2 :: ·) (textsOf_eq_nil ?_))
      intro m hm hkey
      obtain ⟨g, hg, rfl⟩ := List.mem_pmap.1 hm
      exact hfresh (List.mem_map.2 ⟨g, hg, hkey⟩)
    · have hne : g.1 ≠ f.1 := fun hkey => hfresh (List.mem_map.2 ⟨f, hf, hkey.symm⟩)
      exact (textsOf_cons_of_ne hne _).trans (hlayout f hf)

/-! ### Slots -/

theorem Record.mem_names_of_any (r : Record σ) (h : r.fields.any (·.name == name)) :
    name ∈ r.fields.map (·.name) := by
  obtain ⟨f, hf, hname⟩ := List.any_eq_true.1 h
  exact List.mem_map.2 ⟨f, hf, beq_iff_eq.1 hname⟩

namespace Record.Fills

variable [Library] {r : Record σ} {s t : σ} {read : Value → Except Fault α}
  {get : σ → Option α} {a : α}

/-- The slot of a field that is written holds what is read from its text. -/
theorem slot_eq_some [LawfulLibrary] (h : r.Fills s (ms.map MemberText.pair) t)
    (hslot : r.Slot name read get) (hname : r.fields.any (·.name == name))
    (htexts : textsOf ms name = [text]) (hread : decodeText read text = .ok a) :
    get t = some a := by
  have hjson : IsJson text := isJson_of_mem_textsOf (htexts ▸ List.mem_singleton_self text)
  rw [LawfulLibrary.decodeText_of_isJson read hjson] at hread
  rw [h.slot hslot (r.mem_names_of_any hname), valuesOf_pairs, htexts, List.map_singleton,
    List.head?_cons, Option.bind_some, hread]
  rfl

theorem slot_eq_of_missing (h : r.Fills s (ms.map MemberText.pair) t)
    (hslot : r.Slot name read get) (hname : r.fields.any (·.name == name))
    (htexts : textsOf ms name = []) : get t = get s := by
  rw [h.slot hslot (r.mem_names_of_any hname), valuesOf_pairs, htexts, List.map_nil,
    List.head?_nil, Option.bind_none, Option.none_or]

/-- The slot of a field that may be left out. -/
theorem slot_getD [LawfulLibrary] (h : r.Fills s (ms.map MemberText.pair) t)
    (hslot : r.Slot name read get) (hname : r.fields.any (·.name == name)) (hempty : get s = none)
    {text? : Option String} {default : α} (htexts : textsOf ms name = text?.toList)
    (hread : ReadsOr read default text? a) :
    (get t).getD default = a := by
  cases text? with
  | none =>
    rw [h.slot_eq_of_missing hslot hname htexts, hempty]
    exact hread.symm
  | some text =>
    rw [h.slot_eq_some hslot hname htexts hread]
    rfl

end Record.Fills

/-! ### Readers -/

/-- A reader of whole texts that reads objects as a record of the given fields. -/
structure RecordReader [Library] (σ : Type) (fields : List (String × (String → Prop)))
    (read : String → Except Fault β) where
  record : Record σ
  /-- The state in which no field is set. -/
  empty : σ
  /-- What is made of the state. -/
  build : σ → β
  names_eq : record.fields.map (·.name) = fields.map Prod.fst
  nodup : (fields.map Prod.fst).Nodup
  /-- Every field has a slot, and can be read from a text if its slot can. -/
  slot : ∀ f ∈ fields, ∃ (α : Type) (read : Value → Except Fault α) (get : σ → Option α),
    record.Slot f.1 read get ∧ f.2 = Readable read
  isSet_empty : ∀ f ∈ record.fields, f.isSet empty = false
  read_objectText : ∀ ms : List MemberText, read (objectText ms) =
    (record.decode empty (.ofMembers (ms.map MemberText.pair))).map build
  read_arrayText : ∀ texts : List String, (∀ t ∈ texts, IsJson t) → read (arrayText texts) =
    (record.decode empty (.ofItems (texts.map valueOf))).map build

namespace RecordReader

variable [Library] {fields : List (String × (String → Prop))} {read : String → Except Fault β}
  {R : RecordReader σ fields read} {t : σ}

theorem exists_field (R : RecordReader σ fields read) {f : Field σ} (hf : f ∈ R.record.fields) :
    ∃ p ∈ fields, p.1 = f.name := by
  have hname : f.name ∈ fields.map Prod.fst := R.names_eq ▸ List.mem_map_of_mem hf
  exact List.mem_map.1 hname

theorem exists_recordField (R : RecordReader σ fields read) {p : String × (String → Prop)}
    (hp : p ∈ fields) : ∃ f ∈ R.record.fields, f.name = p.1 := by
  have hname : p.1 ∈ R.record.fields.map (·.name) := R.names_eq ▸ List.mem_map_of_mem hp
  exact List.mem_map.1 hname

theorem isSlotted (R : RecordReader σ fields read) : R.record.IsSlotted := by
  intro f hf
  obtain ⟨p, hp, hname⟩ := R.exists_field hf
  obtain ⟨α, read, get, hslot, -⟩ := R.slot p hp
  exact ⟨α, read, get, hname ▸ hslot⟩

theorem takes_of_isPartial [LawfulLibrary] (R : RecordReader σ fields read)
    (hms : IsPartial fields ms) : ∀ m ∈ ms.map MemberText.pair, R.record.Takes m := by
  intro m hm
  obtain ⟨m, hmem, rfl⟩ := List.mem_map.1 hm
  refine ⟨fun _ => m.isSound_value, fun f hf hname s => ?_⟩
  obtain ⟨p, hp, hpname⟩ := R.exists_field hf
  obtain ⟨α, read, get, hslot, hreadable⟩ := R.slot p hp
  have htext : m.text ∈ textsOf ms p.1 := by
    refine List.mem_map.2 ⟨m, List.mem_filter.2 ⟨hmem, ?_⟩, rfl⟩
    rw [hpname, hname]
    exact beq_self_eq_true m.key
  -- the text of the member is the only one of its field
  obtain hnone | ⟨text, hone, hfits⟩ := hms p hp
  · rw [hnone] at htext
    cases htext
  · rw [hone, List.mem_singleton] at htext
    rw [hreadable, ← htext] at hfits
    obtain ⟨a, ha⟩ := hfits
    rw [LawfulLibrary.decodeText_of_isJson _ m.isJson] at ha
    obtain ⟨t, ht, -⟩ := (hslot.keeps f hf hpname.symm).exists_store ha s
    exact ⟨t, ht⟩

theorem length_valuesOf (R : RecordReader σ fields read) (hms : IsPartial fields ms) :
    ∀ f ∈ R.record.fields, (valuesOf (ms.map MemberText.pair) f.name).length ≤ 1 := by
  intro f hf
  obtain ⟨p, hp, hname⟩ := R.exists_field hf
  rw [valuesOf_pairs, List.length_map, ← hname]
  obtain hnone | ⟨text, hone, -⟩ := hms p hp
  · rw [hnone]
    exact Nat.zero_le 1
  · rw [hone]
    exact le_rfl

/-- **What is read from an object**, unless a field is missing. -/
theorem decode_objectText [LawfulLibrary] (R : RecordReader σ fields read)
    (hms : IsPartial fields ms) :
    ∃ t, R.record.Fills R.empty (ms.map MemberText.pair) t ∧ read (objectText ms) =
      match R.record.fields.find? fun f => !f.isOptional && (textsOf ms f.name).isEmpty with
      | some f => .error (.missingField f.name)
      | none => .ok (R.build t) := by
  obtain ⟨t, hfills, hdecode⟩ := Record.decode_ofMembers R.isSlotted R.isSet_empty
    (R.takes_of_isPartial hms) (R.length_valuesOf hms)
  refine ⟨t, hfills, ?_⟩
  rw [R.read_objectText, hdecode]
  simp only [valuesOf_pairs, List.isEmpty_map]
  cases R.record.fields.find? fun f => !f.isOptional && (textsOf ms f.name).isEmpty <;> rfl

theorem exists_read [LawfulLibrary] (R : RecordReader σ fields read)
    (hms : ∀ f ∈ fields, ∃ text, textsOf ms f.1 = [text] ∧ f.2 text) :
    ∃ t, R.record.Fills R.empty (ms.map MemberText.pair) t ∧
      read (objectText ms) = .ok (R.build t) := by
  obtain ⟨t, hfills, hread⟩ := R.decode_objectText fun f hf => .inr (hms f hf)
  refine ⟨t, hfills, ?_⟩
  have hnone : R.record.fields.find?
      (fun f => !f.isOptional && (textsOf ms f.name).isEmpty) = none := by
    refine List.find?_eq_none.2 fun f hf => ?_
    obtain ⟨p, hp, hname⟩ := R.exists_field hf
    obtain ⟨text, htexts, -⟩ := hms p hp
    rw [← hname, htexts]
    simp
  rw [hread, hnone]

/-- **An array is read as the object of its items under the declared names.** -/
theorem read_arrayText_eq (R : RecordReader σ fields read) {texts : List (String × String)}
    (hnames : texts.map Prod.fst <+: fields.map Prod.fst)
    (hrest : ∀ f ∈ R.record.fields.drop texts.length, f.isOptional)
    (hjson : ∀ f ∈ texts, IsJson f.2) :
    read (arrayText (texts.map Prod.snd)) = read (objectText (membersOfTexts texts hjson)) := by
  have hjsons : ∀ t ∈ texts.map Prod.snd, IsJson t := List.forall_mem_map.2 hjson
  have harray : R.record.decode R.empty
      (.ofItems ((texts.map fun f => (f.1, valueOf f.2)).map Prod.snd)) =
        R.record.decode R.empty (.ofMembers (texts.map fun f => (f.1, valueOf f.2))) :=
    Record.decode_ofItems R.isSlotted (R.names_eq ▸ R.nodup) R.isSet_empty
      (by rwa [R.names_eq, List.map_map]) (by rwa [List.length_map])
  rw [R.read_arrayText _ hjsons, R.read_objectText, pairs_membersOfTexts, ← harray, List.map_map,
    List.map_map]
  rfl

theorem readsInAnyLayout (R : RecordReader σ fields read) {texts : List (String × String)} {b : β}
    (hnames : texts.map Prod.fst = fields.map Prod.fst) (hjson : ∀ f ∈ texts, IsJson f.2)
    (h : ∀ ms, IsLayout texts ms → read (objectText ms) = .ok b) :
    ReadsInAnyLayout read texts b := by
  refine ⟨h, ?_⟩
  have hlength : R.record.fields.length = texts.length := by
    rw [← List.length_map (f := (·.name)), R.names_eq, ← hnames, List.length_map]
  rw [R.read_arrayText_eq (hnames ▸ List.prefix_refl _) ?_ hjson]
  · exact h _ (isLayout_membersOfTexts hjson (hnames ▸ R.nodup))
  · rw [← hlength, List.drop_length]
    exact fun f hf => absurd hf List.not_mem_nil

/-- **No field may be repeated.** -/
theorem rejectsRepeated [LawfulLibrary] (R : RecordReader σ fields read) :
    RejectsRepeated read fields := by
  intro p hp
  obtain ⟨f, hf, hname⟩ := R.exists_recordField hp
  rw [← hname]
  refine ⟨fun ms hms => ?_, fun ms m rest hms hfirst hkey => ?_⟩
  · obtain ⟨fault, hfault⟩ := Record.decode_repeated R.isSlotted hf
      (by rwa [valuesOf_pairs, List.length_map]) R.empty
    exact ⟨fault, by rw [R.read_objectText, hfault]; rfl⟩
  · have hdecode := Record.decode_duplicate R.isSlotted R.isSet_empty (R.takes_of_isPartial hms)
      (R.length_valuesOf hms) hf (by rwa [valuesOf_pairs, ne_eq, List.map_eq_nil_iff]) m.value
      (rest.map MemberText.pair)
    rw [R.read_objectText, List.map_append, List.map_cons, MemberText.pair, hkey, hdecode]
    rfl

/-- **No field may be missing**, if all are required. -/
theorem rejectsMissing [LawfulLibrary] (R : RecordReader σ fields read)
    (hall : R.record.fields.all (!·.isOptional)) : RejectsMissing read fields := by
  have hrequired : ∀ f ∈ R.record.fields, f.isOptional = false := fun f hf => by
    simpa using List.all_eq_true.1 hall f hf
  refine ⟨fun p hp ms hms => ?_, fun ms name hms hname => ?_⟩
  · obtain ⟨f, hf, hname⟩ := R.exists_recordField hp
    obtain ⟨fault, hfault⟩ := Record.decode_missing R.isSlotted hf (hrequired f hf)
      (R.isSet_empty f hf) (by rw [valuesOf_pairs, hname, hms, List.map_nil])
    exact ⟨fault, by rw [R.read_objectText, hfault]; rfl⟩
  · obtain ⟨t, -, hread⟩ := R.decode_objectText hms
    -- no field may be left out, so the first one without a text is named
    have hfind : R.record.fields.find? (fun f => !f.isOptional && (textsOf ms f.name).isEmpty) =
        R.record.fields.find? fun f => (textsOf ms f.name).isEmpty :=
      List.find?_congr fun f hf => by rw [hrequired f hf, Bool.not_false, Bool.true_and]
    rw [← R.names_eq, List.find?_map] at hname
    obtain ⟨f, hf, rfl⟩ := Option.map_eq_some_iff.1 hname
    rw [hread, hfind]
    simp only [Function.comp_def] at hf
    rw [hf]

end RecordReader

end Json

end CliffordT
