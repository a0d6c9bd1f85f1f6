import CliffordT.Proofs.SnapshotJson
import CliffordT.Proofs.TextLayout

/-!
# Structs are read in any layout

Commands, words, statistics, configurations and the parameters of a rotation are read from objects
and from arrays.  What is read depends on the texts of the fields alone, and the fields of a
configuration are the only ones that may be left out.

* `commandRecord_slots`, `wordRecord_slot`, `rotationRecord_slots`, `statsRecord_slots`,
  `configRecord_slots` : each field has a slot of its own;
* `Command.reader`, `Word.reader`, `Gate.rotationReader`, `Stats.reader`, `Config.reader` : the
  readers with their records;
* `Command.readsInAnyLayout`, `Word.readsInAnyLayout`, `Gate.rotation_readsInAnyLayout`,
  `Stats.readsInAnyLayout` : what is read from an object of any layout, and from an array;
* `Config.read_objectText`, `Config.read_arrayText` : each field of a configuration is read or takes
  its default;
* `Json.layout_independent` : **reading does not depend on the layout, no field is read twice, and
  the first missing one is named.**
-/

namespace CliffordT

open Json

section

variable [Library]

/-! ### Commands -/

/-- The fields of a command, as texts. -/
def Command.fieldTexts : List (String × (String → Prop)) :=
  [("gate", Readable Gate.ofJson), ("targets", Readable (decodeList Qubit.ofJson))]

theorem commandRecord_slots :
    commandRecord.Slot "gate" Gate.ofJson (·.gate) ∧
      commandRecord.Slot "targets" (decodeList Qubit.ofJson) (·.targets) := by
  constructor
  all_goals
    refine .of_fields ?_
    simp only [commandRecord, List.forall_mem_cons]
    refine ⟨?_, ?_, List.forall_mem_nil _⟩
    all_goals
      first
      | exact Field.Keeps.of_store (fun _ _ => rfl) (fun _ _ => rfl) fun _ => rfl
      | exact Field.Spares.of_store (fun _ _ => rfl) fun _ _ => rfl

/-- Commands are read through their record. -/
def Command.reader [LawfulLibrary] :
    RecordReader CommandFields Command.fieldTexts (decodeText Command.ofJson) where
  record := commandRecord
  empty := {}
  build := fun s => ⟨s.gate.getD .flush, s.targets.getD []⟩
  names_eq := rfl
  nodup := show ["gate", "targets"].Nodup by decide
  slot := by
    obtain ⟨hgate, htargets⟩ := commandRecord_slots
    simp only [Command.fieldTexts, List.forall_mem_cons]
    exact ⟨⟨_, _, _, hgate, rfl⟩, ⟨_, _, _, htargets, rfl⟩, nofun⟩
  isSet_empty := by
    simp only [commandRecord, List.forall_mem_cons]
    exact ⟨rfl, rfl, nofun⟩
  read_objectText := decodeText_objectText Command.ofJson
  read_arrayText := fun _ h => decodeText_arrayText Command.ofJson h

theorem Command.readsInAnyLayout [LawfulLibrary] {gateText targetsText : String} {gate : Gate}
    {targets : List Qubit} (hgate : decodeText Gate.ofJson gateText = .ok gate)
    (htargets : decodeText (decodeList Qubit.ofJson) targetsText = .ok targets) :
    ReadsInAnyLayout (decodeText Command.ofJson)
      [("gate", gateText), ("targets", targetsText)] ⟨gate, targets⟩ := by
  refine Command.reader.readsInAnyLayout rfl ?_ fun ms hms => ?_
  · simp only [List.forall_mem_cons]
    exact ⟨(Gate.isStrict_ofJson.decodeText_eq_ok_iff.1 hgate).1,
      (Qubit.isStrict_ofJson.list.decodeText_eq_ok_iff.1 htargets).1, nofun⟩
  · simp only [IsLayout, List.forall_mem_cons] at hms
    obtain ⟨hgateText, htargetsText, -⟩ := hms
    obtain ⟨hgateSlot, htargetsSlot⟩ := commandRecord_slots
    have hfields : ∀ f ∈ Command.fieldTexts, ∃ text, textsOf ms f.1 = [text] ∧ f.2 text := by
      simp only [Command.fieldTexts, List.forall_mem_cons]
      exact ⟨⟨_, hgateText, gate, hgate⟩, ⟨_, htargetsText, targets, htargets⟩, nofun⟩
    obtain ⟨t, hfills, hread⟩ := Command.reader.exists_read hfields
    have hstate : commandRecord.Fills {} (ms.map MemberText.pair) t := hfills
    rw [hread, Command.reader]
    simp only [hstate.slot_eq_some hgateSlot rfl hgateText hgate,
      hstate.slot_eq_some htargetsSlot rfl htargetsText htargets, Option.getD_some]

/-! ### Words -/

/-- The field of a word, as a text. -/
def Word.fieldTexts : List (String × (String → Prop)) :=
  [("gates", Readable (decodeList FixedGate.ofJson))]

theorem wordRecord_slot : wordRecord.Slot "gates" (decodeList FixedGate.ofJson) id := by
  refine .of_fields ?_
  simp only [wordRecord, List.forall_mem_cons]
  exact ⟨Field.Keeps.of_store (fun _ _ => rfl) (fun _ _ => rfl) fun _ => rfl, nofun⟩

/-- Words are read through their record. -/
def Word.reader [LawfulLibrary] :
    RecordReader (Option (List FixedGate)) Word.fieldTexts (decodeText Word.ofJson) where
  record := wordRecord
  empty := none
  build := fun gates => ⟨gates.getD []⟩
  names_eq := rfl
  nodup := show ["gates"].Nodup by decide
  slot := by
    simp only [Word.fieldTexts, List.forall_mem_cons]
    exact ⟨⟨_, _, _, wordRecord_slot, rfl⟩, nofun⟩
  isSet_empty := by
    simp only [wordRecord, List.forall_mem_cons]
    exact ⟨rfl, nofun⟩
  read_objectText := decodeText_objectText Word.ofJson
  read_arrayText := fun _ h => decodeText_arrayText Word.ofJson h

theorem Word.readsInAnyLayout [LawfulLibrary] {text : String} {gates : List FixedGate}
    (hgates : decodeText (decodeList FixedGate.ofJson) text = .ok gates) :
    ReadsInAnyLayout (decodeText Word.ofJson) [("gates", text)] ⟨gates⟩ := by
  refine Word.reader.readsInAnyLayout rfl ?_ fun ms hms => ?_
  · exact List.forall_mem_singleton.2
      (FixedGate.isStrict_ofJson.list.decodeText_eq_ok_iff.1 hgates).1
  · have htext : textsOf ms "gates" = [text] := hms _ (List.mem_singleton_self _)
    obtain ⟨t, hfills, hread⟩ := Word.reader.exists_read
      (List.forall_mem_singleton.2 ⟨text, htext, gates, hgates⟩)
    have hstate : wordRecord.Fills none (ms.map MemberText.pair) t := hfills
    have ht : id t = some gates := hstate.slot_eq_some wordRecord_slot rfl htext hgates
    rw [id_eq] at ht
    rw [hread, Word.reader, ht]
    rfl

/-! ### Rotations -/

/-- The rotation whose parameters are in a text. -/
def Gate.ofRotationText (text : String) : Except Fault Gate :=
  decodeText Gate.ofJson ("\x7b\"Rotation\":" ++ text ++ "\x7d")

/-- The fields of a rotation, as texts. -/
def Gate.rotationTexts : List (String × (String → Prop)) :=
  [("axis", Readable Axis.ofJson), ("angle", Readable decodeBinary64)]

theorem rotationRecord_slots :
    rotationRecord.Slot "axis" Axis.ofJson (·.axis) ∧
      rotationRecord.Slot "angle" decodeBinary64 (·.angle) := by
  constructor
  all_goals
    refine .of_fields ?_
    simp only [rotationRecord, List.forall_mem_cons]
    refine ⟨?_, ?_, List.forall_mem_nil _⟩
    all_goals
      first
      | exact Field.Keeps.of_store (fun _ _ => rfl) (fun _ _ => rfl) fun _ => rfl
      | exact Field.Spares.of_store (fun _ _ => rfl) fun _ _ => rfl

theorem Gate.ofRotationText_eq [LawfulLibrary] {text : String} (h : IsJson text) :
    ofRotationText text = (rotationRecord.decode {} (valueOf text)).map ofRotationFields := by
  have htext : "\x7b\"Rotation\":" ++ text ++ "\x7d" =
      objectText [.ofKey "Rotation" text h] := by
    have hspelling : (Tree.ofString "Rotation").compact = "\"Rotation\"" := by decide
    show _ = "\x7b" ++ ((Tree.ofString "Rotation").compact ++ ":" ++ text) ++ "\x7d"
    rw [hspelling, ← String.append_assoc, ← String.append_assoc]
    rfl
  rw [ofRotationText, htext, decodeText_objectText]
  show Gate.ofJson (.ofMembers [("Rotation", valueOf text)]) = _
  exact (decodeVariant_payload rfl (valueOf text)).trans rfl

/-- Rotations are read through their record. -/
def Gate.rotationReader [LawfulLibrary] :
    RecordReader RotationFields Gate.rotationTexts Gate.ofRotationText where
  record := rotationRecord
  empty := {}
  build := Gate.ofRotationFields
  names_eq := rfl
  nodup := show ["axis", "angle"].Nodup by decide
  slot := by
    obtain ⟨haxis, hangle⟩ := rotationRecord_slots
    simp only [Gate.rotationTexts, List.forall_mem_cons]
    exact ⟨⟨_, _, _, haxis, rfl⟩, ⟨_, _, _, hangle, rfl⟩, nofun⟩
  isSet_empty := by
    simp only [rotationRecord, List.forall_mem_cons]
    exact ⟨rfl, rfl, nofun⟩
  read_objectText := fun ms => by
    rw [Gate.ofRotationText_eq ⟨_, denotes_objectText ms⟩,
      LawfulLibrary.valueOf_of_denotes (denotes_objectText ms)]
  read_arrayText := fun texts h => by
    rw [Gate.ofRotationText_eq ⟨_, denotes_arrayText h⟩,
      LawfulLibrary.valueOf_of_denotes (denotes_arrayText h)]

theorem Gate.rotation_readsInAnyLayout [LawfulLibrary] {axisText angleText : String} {axis : Axis}
    {angle : Binary64} (haxis : decodeText Axis.ofJson axisText = .ok axis)
    (hangle : decodeText decodeBinary64 angleText = .ok angle) :
    ReadsInAnyLayout Gate.ofRotationText [("axis", axisText), ("angle", angleText)]
      (.rotation axis angle) := by
  refine Gate.rotationReader.readsInAnyLayout rfl ?_ fun ms hms => ?_
  · simp only [List.forall_mem_cons]
    exact ⟨(Axis.isStrict_ofJson.decodeText_eq_ok_iff.1 haxis).1,
      (isStrict_decodeBinary64.decodeText_eq_ok_iff.1 hangle).1, nofun⟩
  · simp only [IsLayout, List.forall_mem_cons] at hms
    obtain ⟨haxisText, hangleText, -⟩ := hms
    obtain ⟨haxisSlot, hangleSlot⟩ := rotationRecord_slots
    have hfields : ∀ f ∈ Gate.rotationTexts, ∃ text, textsOf ms f.1 = [text] ∧ f.2 text := by
      simp only [Gate.rotationTexts, List.forall_mem_cons]
      exact ⟨⟨_, haxisText, axis, haxis⟩, ⟨_, hangleText, angle, hangle⟩, nofun⟩
    obtain ⟨t, hfills, hread⟩ := Gate.rotationReader.exists_read hfields
    have hstate : rotationRecord.Fills {} (ms.map MemberText.pair) t := hfills
    rw [hread, Gate.rotationReader]
    simp only [Gate.ofRotationFields, hstate.slot_eq_some haxisSlot rfl haxisText haxis,
      hstate.slot_eq_some hangleSlot rfl hangleText hangle, Option.getD_some]

/-! ### Statistics -/

/-- The fields of statistics, as texts. -/
def Stats.fieldTexts : List (String × (String → Prop)) :=
  [("active_qubits", Readable (decodeNat "usize" UInt64.size)),
   ("max_width", Readable (decodeNat "usize" UInt64.size)),
   ("rotations", Readable (decodeNat "u64" UInt64.size)),
   ("measurements", Readable (decodeNat "u64" UInt64.size)),
   ("emitted", Readable Tally.ofJson),
   ("forwarded", Readable (decodeNat "u64" UInt64.size))]

theorem statsRecord_slots :
    statsRecord.Slot "active_qubits" (decodeNat "usize" UInt64.size) (·.activeQubits) ∧
      statsRecord.Slot "max_width" (decodeNat "usize" UInt64.size) (·.maxWidth) ∧
      statsRecord.Slot "rotations" (decodeNat "u64" UInt64.size) (·.rotations) ∧
      statsRecord.Slot "measurements" (decodeNat "u64" UInt64.size) (·.measurements) ∧
      statsRecord.Slot "emitted" Tally.ofJson (·.emitted) ∧
      statsRecord.Slot "forwarded" (decodeNat "u64" UInt64.size) (·.forwarded) := by
  refine ⟨?_, ?_, ?_, ?_, ?_, ?_⟩
  all_goals
    refine .of_fields ?_
    simp only [statsRecord, List.forall_mem_cons]
    refine ⟨?_, ?_, ?_, ?_, ?_, ?_, nofun⟩
    all_goals
      first
      | exact Field.Keeps.of_store (fun _ _ => rfl) (fun _ _ => rfl) fun _ => rfl
      | exact Field.Spares.of_store (fun _ _ => rfl) fun _ _ => rfl

/-- Statistics are read through their record. -/
def Stats.reader [LawfulLibrary] :
    RecordReader StatsFields Stats.fieldTexts (decodeText Stats.ofJson) where
  record := statsRecord
  empty := {}
  build := fun s => ⟨s.activeQubits.getD 0, s.maxWidth.getD 0, s.rotations.getD 0,
    s.measurements.getD 0, s.emitted.getD {}, s.forwarded.getD 0⟩
  names_eq := rfl
  nodup := show ["active_qubits", "max_width", "rotations", "measurements", "emitted",
    "forwarded"].Nodup by decide
  slot := by
    obtain ⟨hactive, hwidth, hrotations, hmeasurements, hemitted, hforwarded⟩ := statsRecord_slots
    simp only [Stats.fieldTexts, List.forall_mem_cons]
    exact ⟨⟨_, _, _, hactive, rfl⟩, ⟨_, _, _, hwidth, rfl⟩, ⟨_, _, _, hrotations, rfl⟩,
      ⟨_, _, _, hmeasurements, rfl⟩, ⟨_, _, _, hemitted, rfl⟩, ⟨_, _, _, hforwarded, rfl⟩, nofun⟩
  isSet_empty := by
    simp only [statsRecord, List.forall_mem_cons]
    exact ⟨rfl, rfl, rfl, rfl, rfl, rfl, nofun⟩
  read_objectText := decodeText_objectText Stats.ofJson
  read_arrayText := fun _ h => decodeText_arrayText Stats.ofJson h

/-- The texts of the fields of some statistics. -/
structure Stats.Texts where
  activeQubits : String
  maxWidth : String
  rotations : String
  measurements : String
  emitted : String
  forwarded : String

/-- The fields in the declared order. -/
def Stats.Texts.fields (t : Stats.Texts) : List (String × String) :=
  [("active_qubits", t.activeQubits), ("max_width", t.maxWidth), ("rotations", t.rotations),
   ("measurements", t.measurements), ("emitted", t.emitted), ("forwarded", t.forwarded)]

/-- Each text is read as its field of `s`. -/
structure Stats.Texts.AreReadAs (t : Stats.Texts) (s : Stats) : Prop where
  activeQubits : decodeText (decodeNat "usize" UInt64.size) t.activeQubits = .ok s.activeQubits
  maxWidth : decodeText (decodeNat "usize" UInt64.size) t.maxWidth = .ok s.maxWidth
  rotations : decodeText (decodeNat "u64" UInt64.size) t.rotations = .ok s.rotations
  measurements : decodeText (decodeNat "u64" UInt64.size) t.measurements = .ok s.measurements
  emitted : decodeText Tally.ofJson t.emitted = .ok s.emitted
  forwarded : decodeText (decodeNat "u64" UInt64.size) t.forwarded = .ok s.forwarded

theorem Stats.readsInAnyLayout [LawfulLibrary] {texts : Stats.Texts} {s : Stats}
    (h : texts.AreReadAs s) : ReadsInAnyLayout (decodeText Stats.ofJson) texts.fields s := by
  refine Stats.reader.readsInAnyLayout rfl ?_ fun ms hms => ?_
  · have hnat : ∀ {expected text n}, decodeText (decodeNat expected UInt64.size) text = .ok n →
        IsJson text := fun h => ((isStrict_decodeNat _ _).decodeText_eq_ok_iff.1 h).1
    simp only [Stats.Texts.fields, List.forall_mem_cons]
    exact ⟨hnat h.activeQubits, hnat h.maxWidth, hnat h.rotations, hnat h.measurements,
      (Tally.isStrict_ofJson.decodeText_eq_ok_iff.1 h.emitted).1, hnat h.forwarded, nofun⟩
  · simp only [Stats.Texts.fields, IsLayout, List.forall_mem_cons] at hms
    obtain ⟨hactive, hwidth, hrotations, hmeasurements, hemitted, hforwarded, -⟩ := hms
    obtain ⟨hactiveSlot, hwidthSlot, hrotationsSlot, hmeasurementsSlot, hemittedSlot,
      hforwardedSlot⟩ := statsRecord_slots
    have hfields : ∀ f ∈ Stats.fieldTexts, ∃ text, textsOf ms f.1 = [text] ∧ f.2 text := by
      simp only [Stats.fieldTexts, List.forall_mem_cons]
      exact ⟨⟨_, hactive, _, h.activeQubits⟩, ⟨_, hwidth, _, h.maxWidth⟩,
        ⟨_, hrotations, _, h.rotations⟩, ⟨_, hmeasurements, _, h.measurements⟩,
        ⟨_, hemitted, _, h.emitted⟩, ⟨_, hforwarded, _, h.forwarded⟩, nofun⟩
    obtain ⟨t, hfills, hread⟩ := Stats.reader.exists_read hfields
    have hstate : statsRecord.Fills {} (ms.map MemberText.pair) t := hfills
    rw [hread, Stats.reader]
    simp only [hstate.slot_eq_some hactiveSlot rfl hactive h.activeQubits,
      hstate.slot_eq_some hwidthSlot rfl hwidth h.maxWidth,
      hstate.slot_eq_some hrotationsSlot rfl hrotations h.rotations,
      hstate.slot_eq_some hmeasurementsSlot rfl hmeasurements h.measurements,
      hstate.slot_eq_some hemittedSlot rfl hemitted h.emitted,
      hstate.slot_eq_some hforwardedSlot rfl hforwarded h.forwarded, Option.getD_some]

/-! ### Configurations -/

/-- A program, as a text. -/
def Config.readProgram (v : Value) : Except Fault Path :=
  (decodeString "path string" v).map .ofString

/-- The fields of a configuration, as texts. -/
def Config.fieldTexts : List (String × (String → Prop)) :=
  [("program", Readable Config.readProgram),
   ("args", Readable (decodeList (decodeString "a string")))]

theorem configRecord_slots :
    configRecord.Slot "program" Config.readProgram (·.program) ∧
      configRecord.Slot "args" (decodeList (decodeString "a string")) (·.args) := by
  constructor
  all_goals
    refine .of_fields ?_
    simp only [configRecord, List.forall_mem_cons]
  · have hstore : ∀ (s : ConfigFields) v, (do
        return { s with program := some (.ofString (← decodeString "path string" v)) }) =
          Config.readProgram v >>= fun program =>
            (pure { s with program := some program } : Except Fault ConfigFields) := by
      intro s v
      rw [Config.readProgram]
      cases decodeString "path string" v <;> rfl
    exact ⟨Field.Keeps.of_store hstore (fun _ _ => rfl) fun _ => rfl,
      Field.Spares.of_store (fun _ _ => rfl) fun _ _ => rfl, nofun⟩
  · exact ⟨Field.Spares.of_store (fun _ _ => rfl) fun _ _ => rfl,
      Field.Keeps.of_store (fun _ _ => rfl) (fun _ _ => rfl) fun _ => rfl, nofun⟩

/-- Configurations are read through their record. -/
def Config.reader [LawfulLibrary] :
    RecordReader ConfigFields Config.fieldTexts (decodeText Config.ofJson) where
  record := configRecord
  empty := {}
  build := ConfigFields.toConfig
  names_eq := rfl
  nodup := show ["program", "args"].Nodup by decide
  slot := by
    obtain ⟨hprogram, hargs⟩ := configRecord_slots
    simp only [Config.fieldTexts, List.forall_mem_cons]
    exact ⟨⟨_, _, _, hprogram, rfl⟩, ⟨_, _, _, hargs, rfl⟩, nofun⟩
  isSet_empty := by
    simp only [configRecord, List.forall_mem_cons]
    exact ⟨rfl, rfl, nofun⟩
  read_objectText := decodeText_objectText Config.ofJson
  read_arrayText := fun _ h => decodeText_arrayText Config.ofJson h

section

variable {programText? argsText? : Option String} {program : Path} {args : List String}

/-- Each field is read from its text or takes its default, whatever the other one does. -/
theorem Config.read_objectText [LawfulLibrary]
    (hprogram : ReadsOr Config.readProgram Config.standard.program programText? program)
    (hargs : ReadsOr (decodeList (decodeString "a string")) Config.standard.args argsText? args)
    {ms : List MemberText} (hprogramText : textsOf ms "program" = programText?.toList)
    (hargsText : textsOf ms "args" = argsText?.toList) :
    decodeText Config.ofJson (objectText ms) = .ok ⟨program, args⟩ := by
  obtain ⟨hprogramSlot, hargsSlot⟩ := configRecord_slots
  have hpartial : IsPartial Config.fieldTexts ms := by
    simp only [IsPartial, Config.fieldTexts, List.forall_mem_cons]
    exact ⟨hprogram.isPartial hprogramText, hargs.isPartial hargsText, nofun⟩
  obtain ⟨t, hfills, hread⟩ := Config.reader.decode_objectText hpartial
  have hstate : configRecord.Fills {} (ms.map MemberText.pair) t := hfills
  have hnone : configRecord.fields.find?
      (fun f => !f.isOptional && (textsOf ms f.name).isEmpty) = none := rfl
  rw [hread, Config.reader, hnone]
  simp only [ConfigFields.toConfig,
    hstate.slot_getD hprogramSlot rfl rfl hprogramText hprogram,
    hstate.slot_getD hargsSlot rfl rfl hargsText hargs]

/-- In an array only the last fields can be left out. -/
theorem Config.read_arrayText [LawfulLibrary]
    (hprogram : ReadsOr Config.readProgram Config.standard.program programText? program)
    (hargs : ReadsOr (decodeList (decodeString "a string")) Config.standard.args argsText? args)
    (hlast : argsText?.isSome → programText?.isSome) :
    decodeText Config.ofJson (arrayText (programText?.toList ++ argsText?.toList)) =
      .ok ⟨program, args⟩ := by
  have hoptional : configRecord.fields.all (·.isOptional) := rfl
  have harray : ∀ texts hjson, texts.map Prod.fst <+: ["program", "args"] →
      decodeText Config.ofJson (arrayText (texts.map Prod.snd)) =
        decodeText Config.ofJson (objectText (membersOfTexts texts hjson)) :=
    fun texts hjson hnames => Config.reader.read_arrayText_eq hnames
      (fun f hf => List.all_eq_true.1 hoptional f (List.mem_of_mem_drop hf)) hjson
  have hprogramJson : ∀ text ∈ programText?, IsJson text := by
    rintro text rfl
    exact (((isStrict_decodeString _).map _).decodeText_eq_ok_iff.1 hprogram).1
  have hargsJson : ∀ text ∈ argsText?, IsJson text := by
    rintro text rfl
    exact ((isStrict_decodeString _).list.decodeText_eq_ok_iff.1 hargs).1
  -- an array has no place for the arguments without the program before them
  match programText?, argsText? with
  | none, none => exact (harray [] nofun (by simp)).trans (read_objectText hprogram hargs rfl rfl)
  | none, some _ => exact absurd (hlast rfl) (by decide)
  | some text, none =>
    have hjson : ∀ f ∈ [("program", text)], IsJson f.2 :=
      List.forall_mem_singleton.2 (hprogramJson text rfl)
    exact (harray _ hjson (by simp)).trans (read_objectText hprogram hargs rfl rfl)
  | some text, some text' =>
    have hjson : ∀ f ∈ [("program", text), ("args", text')], IsJson f.2 :=
      List.forall_mem_cons.2 ⟨hprogramJson text rfl,
        List.forall_mem_singleton.2 (hargsJson text' rfl)⟩
    exact (harray _ hjson (by simp)).trans (read_objectText hprogram hargs rfl rfl)

end

/-! ### All structs -/

/-- **Structs are read in any layout.**  For commands, words, statistics, configurations and the
parameters of a rotation: the fields are read as the same value from an object in which each of them
is written once, in any order, with any spelling of the keys and among any other members, and from
the array of their texts in the declared order.  An object that repeats a field is rejected.  An
object that lacks a field is rejected, and the first missing field is named; only the fields of a
configuration take their defaults, each by itself. -/
theorem Json.layout_independent [LawfulLibrary] :
    ((∀ gateText targetsText gate targets, decodeText Gate.ofJson gateText = .ok gate →
        decodeText (decodeList Qubit.ofJson) targetsText = .ok targets →
          ReadsInAnyLayout (decodeText Command.ofJson)
            [("gate", gateText), ("targets", targetsText)] ⟨gate, targets⟩) ∧
      RejectsRepeated (decodeText Command.ofJson) Command.fieldTexts ∧
      RejectsMissing (decodeText Command.ofJson) Command.fieldTexts) ∧
    ((∀ text gates, decodeText (decodeList FixedGate.ofJson) text = .ok gates →
        ReadsInAnyLayout (decodeText Word.ofJson) [("gates", text)] ⟨gates⟩) ∧
      RejectsRepeated (decodeText Word.ofJson) Word.fieldTexts ∧
      RejectsMissing (decodeText Word.ofJson) Word.fieldTexts) ∧
    ((∀ (texts : Stats.Texts) s, texts.AreReadAs s →
        ReadsInAnyLayout (decodeText Stats.ofJson) texts.fields s) ∧
      RejectsRepeated (decodeText Stats.ofJson) Stats.fieldTexts ∧
      RejectsMissing (decodeText Stats.ofJson) Stats.fieldTexts) ∧
    ((∀ axisText angleText axis angle, decodeText Axis.ofJson axisText = .ok axis →
        decodeText decodeBinary64 angleText = .ok angle →
          ReadsInAnyLayout Gate.ofRotationText [("axis", axisText), ("angle", angleText)]
            (.rotation axis angle)) ∧
      RejectsRepeated Gate.ofRotationText Gate.rotationTexts ∧
      RejectsMissing Gate.ofRotationText Gate.rotationTexts) ∧
    (∀ programText? argsText? program args,
      ReadsOr Config.readProgram Config.standard.program programText? program →
      ReadsOr (decodeList (decodeString "a string")) Config.standard.args argsText? args →
        (∀ ms, textsOf ms "program" = programText?.toList → textsOf ms "args" = argsText?.toList →
          decodeText Config.ofJson (objectText ms) = .ok ⟨program, args⟩) ∧
        ((argsText?.isSome → programText?.isSome) →
          decodeText Config.ofJson (arrayText (programText?.toList ++ argsText?.toList)) =
            .ok ⟨program, args⟩)) ∧
      RejectsRepeated (decodeText Config.ofJson) Config.fieldTexts := by
  refine ⟨⟨?_, Command.reader.rejectsRepeated, Command.reader.rejectsMissing rfl⟩,
    ⟨?_, Word.reader.rejectsRepeated, Word.reader.rejectsMissing rfl⟩,
    ⟨?_, Stats.reader.rejectsRepeated, Stats.reader.rejectsMissing rfl⟩,
    ⟨?_, Gate.rotationReader.rejectsRepeated, Gate.rotationReader.rejectsMissing rfl⟩,
    ?_, Config.reader.rejectsRepeated⟩
  · exact fun _ _ _ _ hgate htargets => Command.readsInAnyLayout hgate htargets
  · exact fun _ _ hgates => Word.readsInAnyLayout hgates
  · exact fun _ _ htexts => Stats.readsInAnyLayout htexts
  · exact fun _ _ _ _ haxis hangle => Gate.rotation_readsInAnyLayout haxis hangle
  · exact fun _ _ _ _ hprogram hargs => ⟨fun _ => Config.read_objectText hprogram hargs,
      Config.read_arrayText hprogram hargs⟩

end

/-- A member with the key `gate`, of which a letter is escaped. -/
def Json.escapedGate : MemberText :=
  ⟨" \"g\\u0061te\"", "gate", "\"Flush\"", by decide +kernel, by decide +kernel⟩

/-- A member that no struct knows, with a key of a struct inside. -/
def Json.unknownMember : MemberText :=
  ⟨"\"\"", "", "[null, \x7b\"gate\": [1e999, \"\\ud800\"]\x7d]", by decide +kernel,
    by decide +kernel⟩

/-- Texts of the fields of statistics. -/
def Stats.sampleTexts : Stats.Texts :=
  ⟨"1", " 2", "3 ", "0", "\x7b\"T\": 3, \"T\": 4\x7d", "18446744073709551615"⟩

theorem Json.layout_independent_escaped :
    (decodeText Command.ofJson
        (objectText [unknownMember, .ofKey "targets" "[ 3 ]" (by decide +kernel), escapedGate]) =
          .ok ⟨.flush, [⟨3⟩]⟩ ∧
      decodeText Command.ofJson (objectText [escapedGate, unknownMember, escapedGate]) =
        .error (.duplicateField "gate") ∧
      decodeText Command.ofJson (objectText [escapedGate]) = .error (.missingField "targets")) ∧
    decodeText Word.ofJson (arrayText ["[\"T\", \"H\"]"]) = .ok ⟨[.t, .h]⟩ ∧
    decodeText Stats.ofJson (arrayText ["1", " 2", "3 ", "0", "\x7b\"T\": 3, \"T\": 4\x7d",
      "18446744073709551615"]) = .ok ⟨1, 2, 3, 0, { t := some 4 }, 18446744073709551615⟩ ∧
    Gate.ofRotationText (arrayText ["\"Z\"", "-0.0"]) =
      .ok (.rotation .z ⟨0x8000000000000000⟩) ∧
    decodeText Config.ofJson (objectText [unknownMember, .ofKey "args" "[]" (by decide +kernel)]) =
      .ok Config.standard ∧
    decodeText Config.ofJson (arrayText []) = .ok Config.standard := by
  obtain ⟨⟨hcommand, hrepeated, hmissing⟩, ⟨hword, -⟩, ⟨hstats, -⟩, ⟨hrotation, -⟩, hconfig, -⟩ :=
    Json.layout_independent
  have hgate : decodeText Gate.ofJson "\"Flush\"" = .ok .flush :=
    (Gate.readsBack (g := .flush) trivial).decodeText_of_denotes (by decide +kernel)
  have hgateTexts : ∀ ms, textsOf ms "gate" = ["\"Flush\""] → textsOf ms "targets" = [] →
      IsPartial Command.fieldTexts ms := fun ms hpresent habsent =>
    List.forall_mem_cons.2 ⟨.inr ⟨_, hpresent, .flush, hgate⟩,
      List.forall_mem_singleton.2 (.inl habsent)⟩
  refine ⟨⟨?_, ?_, ?_⟩, ?_, ?_, ?_, ?_, ?_⟩
  · have htargets : decodeText (decodeList Qubit.ofJson) "[ 3 ]" = .ok [⟨3⟩] :=
      (ReadsBack.list fun q _ => q.readsBack).decodeText_of_denotes (by decide +kernel)
    exact (hcommand _ _ _ _ hgate htargets).1 _
      (List.forall_mem_cons.2 ⟨rfl, List.forall_mem_singleton.2 rfl⟩)
  · exact (hrepeated _ List.mem_cons_self).2 [escapedGate, unknownMember] escapedGate []
      (hgateTexts _ rfl rfl) (by decide) rfl
  · exact hmissing.2 _ _ (hgateTexts _ rfl rfl) rfl
  · have hgates : decodeText (decodeList FixedGate.ofJson) "[\"T\", \"H\"]" = .ok [.t, .h] :=
      (ReadsBack.list fun g _ => g.readsBack).decodeText_of_denotes (by decide +kernel)
    exact (hword _ _ hgates).2
  · have hentries : ReadsBack Tally.ofJson (Tally.entriesJson [(.t, 3), (.t, 4)]) { t := some 4 } :=
      Tally.readsBack_entries (by decide)
    have hemitted : decodeText Tally.ofJson "\x7b\"T\": 3, \"T\": 4\x7d" = .ok { t := some 4 } :=
      hentries.decodeText_of_denotes (by decide +kernel)
    exact (hstats Stats.sampleTexts ⟨1, 2, 3, 0, { t := some 4 }, 18446744073709551615⟩
      ⟨by decide +kernel, by decide +kernel, by decide +kernel, by decide +kernel, hemitted,
        by decide +kernel⟩).2
  · have haxis : decodeText Axis.ofJson "\"Z\"" = .ok .z :=
      (Axis.readsBack .z).decodeText_of_denotes (by decide +kernel)
    exact (hrotation _ _ _ _ haxis (by decide +kernel)).2
  · have hnone : ReadsBack (decodeList (decodeString "a string"))
        (.ofItems (([] : List String).map Tree.ofString)) [] := .list fun text _ => .string _ text
    have hargs : decodeText (decodeList (decodeString "a string")) "[]" = .ok [] :=
      hnone.decodeText_of_denotes (by decide +kernel)
    exact (hconfig none (some "[]") _ _ rfl hargs).1 _ rfl rfl
  · exact (hconfig none none _ _ rfl rfl).2 id

end CliffordT
