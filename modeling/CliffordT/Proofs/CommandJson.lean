import CliffordT.Proofs.JsonValues

/-!
# Commands read back from JSON

A command is read back from its text, whatever its gate and its targets are, as long as the angle of
a rotation is finite.  Another angle is written as `null` and refused, so no text that is read holds
one.

* `Gate.HasFiniteAngle` : the angle of a rotation is finite;
* `Axis.readsBack`, `FixedGate.readsBack`, `Gate.readsBack`, `Qubit.readsBack`,
  `Command.readsBack` : the parts of a command, from the inside out;
* `Gate.hasFiniteAngle_of_ofJson`, `Command.hasFiniteAngle_of_ofJson` : what is read has a finite
  angle;
* `Command.json_roundTrip` : **commands are read back from their texts, and writing what was read
  changes nothing any more.**
-/

namespace CliffordT

open Json

section

variable [Library]

/-! ### Parts -/

theorem Axis.readsBack (a : Axis) : ReadsBack Axis.ofJson a.toJson a := by
  cases a <;> exact .bare rfl rfl

theorem FixedGate.readsBack (g : FixedGate) : ReadsBack FixedGate.ofJson g.toJson g := by
  cases g <;> exact .bare rfl rfl

/-- A finite double is read back bit for bit. -/
theorem Binary64.readsBack [LawfulLibrary] {x : Binary64} (h : x.isFinite) :
    ReadsBack decodeBinary64 x.toJson x := by
  rw [toJson, if_pos h]
  exact ⟨LawfulLibrary.wellFormed_numeral h,
    LawfulLibrary.decodeBinary64_of_roundsTo (LawfulLibrary.roundsTo_numeral h)⟩

theorem Binary64.isWritten_toJson [LawfulLibrary] (x : Binary64) : x.toJson.IsWritten := by
  cases h : x.isFinite with
  | true => exact (readsBack h).written
  | false =>
    rw [toJson, h]
    trivial

theorem Qubit.readsBack (q : Qubit) : ReadsBack Qubit.ofJson q.toJson q := by
  have hlt : q.index.toNat < UInt32.size := q.index.toNat_lt
  have hnat := ReadsBack.nat "u32" hlt (by decide)
  have hq : (⟨UInt32.ofNat q.index.toNat⟩ : Qubit) = q := by rw [UInt32.ofNat_toNat]
  have hread := hnat.map fun n => (⟨UInt32.ofNat n⟩ : Qubit)
  rw [hq] at hread
  exact hread

/-! ### Gates -/

namespace Gate

/-- The angle of a rotation is finite.  Other gates have none. -/
def HasFiniteAngle : Gate → Prop
  | rotation _ angle => angle.isFinite
  | _ => True

theorem rotation_readsBack [LawfulLibrary] (axis : Axis) {angle : Binary64}
    (h : angle.isFinite) :
    ReadsBack (fun v => (rotationRecord.decode {} v).map ofRotationFields)
      (.ofMembers [("axis", axis.toJson), ("angle", angle.toJson)]) (rotation axis angle) := by
  have hstores : rotationRecord.Stores {} [("axis", axis.toJson), ("angle", angle.toJson)]
      ⟨some axis, some angle⟩ :=
    .field rfl rfl rfl axis.readsBack <| .field rfl rfl rfl (Binary64.readsBack h) .nil
  exact (hstores.readsBack rfl).map ofRotationFields

theorem readsBack [LawfulLibrary] {g : Gate} (h : g.HasFiniteAngle) :
    ReadsBack Gate.ofJson g.toJson g := by
  cases g with
  | rotation axis angle => exact .payload rfl (rotation_readsBack axis h)
  | fixed g => exact .payload rfl (g.readsBack.map fixed)
  | other name => exact .payload rfl ((ReadsBack.string "a string" name).map other)
  | _ => exact .bare rfl rfl

theorem isWritten_toJson [LawfulLibrary] (g : Gate) : g.toJson.IsWritten := by
  have hfinite : ∀ g : Gate, g.HasFiniteAngle → g.toJson.IsWritten := fun g h =>
    (readsBack h).written
  cases g with
  | rotation axis angle =>
    refine Tree.isWritten_ofMembers (List.forall_mem_singleton.2 (Tree.isWritten_ofMembers ?_))
    exact List.forall_mem_cons.2 ⟨axis.readsBack.written,
      List.forall_mem_singleton.2 angle.isWritten_toJson⟩
  | _ => exact hfinite _ trivial

theorem ofJson_of_null (axis : Axis) {angle : Binary64} (h : angle.toJson = .null) :
    Gate.ofJson (rotation axis angle).toJson = .error (.invalidType .null "f64") := by
  have hstores : rotationRecord.Stores {} [("axis", axis.toJson)] ⟨some axis, none⟩ :=
    .field rfl rfl rfl axis.readsBack .nil
  have hdecode : rotationRecord.decode {} (.ofMembers [("axis", axis.toJson), ("angle", .null)]) =
      .error (.invalidType .null "f64") := hstores.decode_error rfl rfl rfl
  refine (decodeVariant_payload rfl _).trans ?_
  show Except.map ofRotationFields (rotationRecord.decode {} _) = _
  rw [h, hdecode]
  rfl

theorem hasFiniteAngle_ofRotationFields {v : Value} {s : RotationFields}
    (h : rotationRecord.decode {} v = .ok s) : (ofRotationFields s).HasFiniteAngle := by
  have hangle : ∀ x ∈ s.angle, x.isFinite := by
    refine Record.decode_induction (P := fun s => ∀ x ∈ s.angle, x.isFinite)
      (List.forall_mem_cons.2 ⟨?_, List.forall_mem_singleton.2 ?_⟩) (by simp) h
    · intro s v s' hs hstore
      obtain ⟨axis, -, hset⟩ := exists_of_bind hstore
      rw [← Except.ok.inj hset]
      exact hs
    · intro s v s' _ hstore
      obtain ⟨x, hx, hset⟩ := exists_of_bind hstore
      rw [← Except.ok.inj hset]
      intro y hy
      rw [← Option.some.inj hy]
      exact Binary64.isFinite_of_decodeBinary64 hx
  show (s.angle.getD .zero).isFinite
  cases hs : s.angle with
  | none => decide
  | some x => exact hangle x hs

/-- The angle of a gate that is read is finite. -/
theorem hasFiniteAngle_of_ofJson {v : Value} {g : Gate} (h : Gate.ofJson v = .ok g) :
    g.HasFiniteAngle := by
  refine decodeVariant_yields ?_ h
  simp only [List.forall_mem_cons]
  refine ⟨.unit trivial, .unit trivial, .unit trivial, .carrying ?_,
    .carrying ?_, .unit trivial, .carrying ?_, nofun⟩
  · intro v g hg
    obtain ⟨s, hs, rfl⟩ := exists_of_map hg
    exact hasFiniteAngle_ofRotationFields hs
  · intro v g hg
    obtain ⟨k, -, rfl⟩ := exists_of_map hg
    trivial
  · intro v g hg
    obtain ⟨name, -, rfl⟩ := exists_of_map hg
    trivial

end Gate

/-! ### Commands -/

namespace Command

theorem readsBack [LawfulLibrary] {c : Command} (h : c.gate.HasFiniteAngle) :
    ReadsBack Command.ofJson c.toJson c := by
  have hstores : commandRecord.Stores {}
      [("gate", c.gate.toJson), ("targets", .ofItems (c.targets.map Qubit.toJson))]
      ⟨some c.gate, some c.targets⟩ :=
    .field rfl rfl rfl (Gate.readsBack h) <|
      .field rfl rfl rfl (.list fun q _ => q.readsBack) .nil
  exact (hstores.readsBack rfl).map fun s => (⟨s.gate.getD .flush, s.targets.getD []⟩ : Command)

theorem isWritten_toJson [LawfulLibrary] (c : Command) : c.toJson.IsWritten := by
  refine Tree.isWritten_ofMembers (List.forall_mem_cons.2 ⟨c.gate.isWritten_toJson,
    List.forall_mem_singleton.2 ?_⟩)
  have htargets : ReadsBack (decodeList Qubit.ofJson) (.ofItems (c.targets.map Qubit.toJson))
      c.targets := .list fun q _ => q.readsBack
  exact htargets.written

theorem ofJson_error {c : Command} {fault : Fault} (h : Gate.ofJson c.gate.toJson = .error fault) :
    Command.ofJson c.toJson = .error fault := by
  have hdecode : commandRecord.decode {} c.toJson = .error fault := by
    refine Record.Stores.nil.decode_error rfl rfl ?_
    show (Gate.ofJson c.gate.toJson >>= _) = _
    rw [h]
    rfl
  rw [Command.ofJson, hdecode]
  rfl

/-- The angle of a command that is read is finite. -/
theorem hasFiniteAngle_of_ofJson {v : Value} {c : Command} (h : Command.ofJson v = .ok c) :
    c.gate.HasFiniteAngle := by
  obtain ⟨s, hs, rfl⟩ := exists_of_map h
  have hgate : ∀ g ∈ s.gate, g.HasFiniteAngle := by
    refine Record.decode_induction (P := fun s => ∀ g ∈ s.gate, g.HasFiniteAngle)
      (List.forall_mem_cons.2 ⟨?_, List.forall_mem_singleton.2 ?_⟩) nofun hs
    · intro s v s' _ hstore
      obtain ⟨g, hg, hset⟩ := exists_of_bind hstore
      rw [← Except.ok.inj hset]
      intro k hk
      rw [← Option.some.inj hk]
      exact Gate.hasFiniteAngle_of_ofJson hg
    · intro s v s' hs hstore
      obtain ⟨targets, -, hset⟩ := exists_of_bind hstore
      rw [← Except.ok.inj hset]
      exact hs
  show (s.gate.getD .flush).HasFiniteAngle
  cases hs : s.gate with
  | none => trivial
  | some g => exact hgate g hs

/-- The text that is written for the command in a text. -/
def rewrite (text : String) : Except Fault String :=
  (decodeText Command.ofJson text).map fun c => Library.write c.toJson

/-- **A command is read back from its text, unless it is a rotation by an angle that is not
finite.**  That angle is written as `null` and refused.  So every command that is read at all has
a finite angle, is read back from what is written for it, and writing it again changes nothing. -/
theorem json_roundTrip [LawfulLibrary] :
    (∀ c : Command, c.gate.HasFiniteAngle →
      decodeText Command.ofJson (Library.write c.toJson) = .ok c) ∧
    (∀ axis angle targets, angle.isFinite = false → angle.toJson = .null ∧
      decodeText Command.ofJson
        (Library.write (⟨.rotation axis angle, targets⟩ : Command).toJson) =
          .error (.invalidType .null "f64")) ∧
    (∀ text c, decodeText Command.ofJson text = .ok c →
      c.gate.HasFiniteAngle ∧ decodeText Command.ofJson (Library.write c.toJson) = .ok c) ∧
    ∀ text text', rewrite text = .ok text' → rewrite text' = .ok text' := by
  have hback : ∀ c : Command, c.gate.HasFiniteAngle →
      decodeText Command.ofJson (Library.write c.toJson) = .ok c :=
    fun c h => (readsBack h).decodeText
  have hfinite : ∀ text c, decodeText Command.ofJson text = .ok c → c.gate.HasFiniteAngle := by
    intro text c h
    obtain ⟨v, hv⟩ := exists_of_decodeText h
    exact hasFiniteAngle_of_ofJson hv
  refine ⟨hback, fun axis angle targets h => ?_,
    fun text c h => ⟨hfinite text c h, hback c (hfinite text c h)⟩, fun text text' h => ?_⟩
  · have hnull : angle.toJson = .null := by rw [Binary64.toJson, h]; rfl
    refine ⟨hnull, ?_⟩
    rw [LawfulLibrary.decodeText_of_denotes _
      (LawfulLibrary.denotes_write (isWritten_toJson _))]
    exact ofJson_error (Gate.ofJson_of_null axis hnull)
  · obtain ⟨c, hc, rfl⟩ := exists_of_map h
    rw [rewrite, hback c (hfinite text c hc)]
    rfl

end Command

end

theorem Command.json_roundTrip_negative_zero :
    (decodeText Command.ofJson
      (⟨.rotation .z ⟨0x8000000000000000⟩, [⟨4294967295⟩]⟩ : Command).toJson.compact =
        .ok ⟨.rotation .z ⟨0x8000000000000000⟩, [⟨4294967295⟩]⟩) ∧
    (decodeText Command.ofJson (⟨.rotation .x .nan, []⟩ : Command).toJson.compact =
      .error (.invalidType .null "f64")) ∧
    (decodeText Command.ofJson (⟨.other "\"\\\n", [⟨1⟩, ⟨1⟩]⟩ : Command).toJson.compact =
      .ok ⟨.other "\"\\\n", [⟨1⟩, ⟨1⟩]⟩) ∧
    Command.rewrite (⟨.other "\"\\\n", [⟨1⟩, ⟨1⟩]⟩ : Command).toJson.compact =
      .ok (⟨.other "\"\\\n", [⟨1⟩, ⟨1⟩]⟩ : Command).toJson.compact := by
  let c : Command := ⟨.other "\"\\\n", [⟨1⟩, ⟨1⟩]⟩
  -- an array of the fields is read, too, though it is never written
  let v : Value := .ofItems [c.gate.toJson, .ofItems (c.targets.map Qubit.toJson)]
  have hgate : ReadsBack Gate.ofJson c.gate.toJson c.gate := Gate.readsBack trivial
  have htargets : ReadsBack (decodeList Qubit.ofJson) (.ofItems (c.targets.map Qubit.toJson))
      c.targets := .list fun q _ => q.readsBack
  have hwritten : v.IsWritten := Tree.isWritten_ofItems <|
    List.forall_mem_cons.2 ⟨hgate.written, List.forall_mem_singleton.2 htargets.written⟩
  have hdecode : commandRecord.decode {} v = .ok ⟨some c.gate, some c.targets⟩ := by
    show commandRecord.decodeItems 0 commandRecord.fields {}
      (.item c.gate.toJson (.item (.ofItems (c.targets.map Qubit.toJson)) .noItem)) = _
    simp only [commandRecord, Record.decodeItems, hgate.read, htargets.read]
    rfl
  have haccepted : decodeText Command.ofJson v.compact = .ok c := by
    rw [LawfulLibrary.decodeText_of_denotes _ hwritten.denotes_compact, Command.ofJson, hdecode]
    rfl
  obtain ⟨hback, hrefused, hagain, hidempotent⟩ := Command.json_roundTrip
  have hrewritten : Command.rewrite v.compact = .ok c.toJson.compact := by
    rw [Command.rewrite, haccepted]
    rfl
  exact ⟨hback _ rfl, (hrefused .x .nan [] rfl).2, (hagain _ _ haccepted).2,
    hidempotent _ _ hrewritten⟩

end CliffordT
