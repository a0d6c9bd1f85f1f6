import CliffordT.Config.Basic
import CliffordT.Pipeline.Stats
import CliffordT.Proofs.CommandJson
import CliffordT.Proofs.Utf8
import Mathlib.Data.List.Perm.Basic

/-!
# Words, statistics and configurations read back from JSON

* `Word.readsBack` : a word is read back;
* `Tally.ofMembers_entries`, `Tally.get?_ofList` : entries are read one after the other, and the
  last one of a gate counts;
* `Tally.ofList_of_perm` : the entries of a tally make it, in any order;
* `Stats.Fits`, `Stats.jsonWith`, `Stats.readsBack` : statistics of sixty-four bits, with the
  emitted gates written in any way;
* `Path.text?_eq_some_iff`, `Config.readsBack` : a configuration is written if its program is a
  text, and then it is read back;
* `Json.snapshots_roundTrip` : **each of the three is read back from its text.**
-/

namespace CliffordT

open Json

/-! ### Words -/

theorem Word.readsBack [Library] (w : Word) : ReadsBack Word.ofJson w.toJson w := by
  have hstores : wordRecord.Stores none [("gates", .ofItems (w.gates.map FixedGate.toJson))]
      (some w.gates) :=
    .field rfl rfl rfl (.list fun g _ => g.readsBack) .nil
  exact (hstores.readsBack rfl).map fun gates => (⟨gates.getD []⟩ : Word)

/-! ### Tallies -/

namespace Tally

variable {a : Tally} {es : List (FixedGate × Nat)}

/-- The entries `es` as an object. -/
def entriesJson (es : List (FixedGate × Nat)) : Value :=
  .ofMembers (es.map fun e => (e.1.text, .ofNat e.2))

theorem ext_get? {a b : Tally} (h : ∀ g, a.get? g = b.get? g) : a = b := by
  obtain ⟨h₁, s₁, t₁, x₁⟩ := a
  obtain ⟨h₂, s₂, t₂, x₂⟩ := b
  obtain rfl : h₁ = h₂ := h .h
  obtain rfl : s₁ = s₂ := h .s
  obtain rfl : t₁ = t₂ := h .t
  obtain rfl : x₁ = x₂ := h .x
  rfl

theorem get?_foldl_set (a : Tally) (es : List (FixedGate × Nat)) (g : FixedGate) :
    (es.foldl (fun a e => a.set e.2 e.1) a).get? g =
      ((es.filter (·.1 == g)).getLast?.map Prod.snd).or (a.get? g) := by
  induction es generalizing a with
  | nil => rfl
  | cons e es ih =>
    rw [List.foldl_cons, ih, get?_set, List.filter_cons]
    by_cases h : g = e.1
    · subst h
      rw [if_pos rfl, if_pos (beq_self_eq_true e.1), List.getLast?_cons]
      cases (es.filter (·.1 == e.1)).getLast? <;> rfl
    · rw [if_neg h, if_neg (by simpa using Ne.symm h)]

theorem get?_ofList (es : List (FixedGate × Nat)) (g : FixedGate) :
    (ofList es).get? g = (es.filter (·.1 == g)).getLast?.map Prod.snd := by
  rw [ofList, get?_foldl_set]
  cases g <;> exact Option.or_none

theorem filter_entries (a : Tally) (g : FixedGate) :
    a.entries.filter (·.1 == g) = ((a.get? g).map fun n => (g, n)).toList := by
  obtain ⟨h, s, t, x⟩ := a
  cases g <;> cases h <;> cases s <;> cases t <;> cases x <;> rfl

/-- The entries of a tally make it, in any order. -/
theorem ofList_of_perm (h : es.Perm a.entries) : ofList es = a := by
  refine ext_get? fun g => ?_
  have hperm := h.filter (·.1 == g)
  rw [filter_entries] at hperm
  rw [get?_ofList]
  cases hg : a.get? g with
  | none =>
    rw [hg] at hperm
    rw [hperm.eq_nil]
    rfl
  | some n =>
    rw [hg] at hperm
    rw [List.perm_singleton.1 hperm]
    rfl

/-- Entries are read one after the other. -/
theorem ofMembers_entries [Library] (a : Tally) (h : ∀ e ∈ es, e.2 < UInt64.size) :
    a.ofMembers (.membersOf (es.map fun e => (e.1.text, .ofNat e.2))) =
      .ok (es.foldl (fun a e => a.set e.2 e.1) a) := by
  induction es generalizing a with
  | nil => rw [List.map_nil, Tree.membersOf, List.foldr_nil, ofMembers, List.foldl_nil]
  | cons e es ih =>
    have hn := (ReadsBack.nat "u64" (h e List.mem_cons_self) le_rfl).read
    rw [List.map_cons, Tree.membersOf_cons, ofMembers, List.foldl_cons,
      ← ih (a.set e.2 e.1) fun e he => h e (List.mem_cons_of_mem _ he)]
    show (FixedGate.ofJson e.1.toJson >>= fun g => _) = _
    rw [e.1.readsBack.read]
    show (decodeNat "u64" UInt64.size (.ofNat e.2) >>= fun n => _) = _
    rw [hn]
    rfl

theorem readsBack_entries [Library] (h : ∀ e ∈ es, e.2 < UInt64.size) :
    ReadsBack Tally.ofJson (entriesJson es) (ofList es) where
  written := by
    refine Tree.isWritten_ofMembers fun m hm => ?_
    obtain ⟨e, -, rfl⟩ := List.mem_map.1 hm
    exact Numeral.ofNat_wellFormed e.2
  read := ofMembers_entries {} h

end Tally

/-! ### Statistics -/

namespace Stats

/-- All counters have sixty-four bits. -/
structure Fits (s : Stats) : Prop where
  activeQubits : s.activeQubits < UInt64.size
  maxWidth : s.maxWidth < UInt64.size
  rotations : s.rotations < UInt64.size
  measurements : s.measurements < UInt64.size
  emitted : ∀ e ∈ s.emitted.entries, e.2 < UInt64.size
  forwarded : s.forwarded < UInt64.size

/-- The statistics as JSON, with the entries `es` for the gates that were emitted. -/
def jsonWith (s : Stats) (es : List (FixedGate × Nat)) : Value :=
  .ofMembers
    [("active_qubits", .ofNat s.activeQubits), ("max_width", .ofNat s.maxWidth),
     ("rotations", .ofNat s.rotations), ("measurements", .ofNat s.measurements),
     ("emitted", Tally.entriesJson es), ("forwarded", .ofNat s.forwarded)]

theorem toJson_eq (s : Stats) : s.toJson = s.jsonWith s.emitted.entries := rfl

variable {s : Stats} {es : List (FixedGate × Nat)}

theorem readsBack [Library] (hs : s.Fits) (hes : ∀ e ∈ es, e.2 < UInt64.size) :
    ReadsBack Stats.ofJson (s.jsonWith es) { s with emitted := Tally.ofList es } := by
  have hstores : statsRecord.Stores {}
      [("active_qubits", .ofNat s.activeQubits), ("max_width", .ofNat s.maxWidth),
       ("rotations", .ofNat s.rotations), ("measurements", .ofNat s.measurements),
       ("emitted", Tally.entriesJson es), ("forwarded", .ofNat s.forwarded)]
      ⟨some s.activeQubits, some s.maxWidth, some s.rotations, some s.measurements,
        some (Tally.ofList es), some s.forwarded⟩ :=
    .field rfl rfl rfl (.nat _ hs.activeQubits le_rfl) <|
      .field rfl rfl rfl (.nat _ hs.maxWidth le_rfl) <|
      .field rfl rfl rfl (.nat _ hs.rotations le_rfl) <|
      .field rfl rfl rfl (.nat _ hs.measurements le_rfl) <|
      .field rfl rfl rfl (Tally.readsBack_entries hes) <|
      .field rfl rfl rfl (.nat _ hs.forwarded le_rfl) .nil
  exact (hstores.readsBack rfl).map fun s =>
    (⟨s.activeQubits.getD 0, s.maxWidth.getD 0, s.rotations.getD 0, s.measurements.getD 0,
      s.emitted.getD {}, s.forwarded.getD 0⟩ : Stats)

end Stats

/-! ### Configurations -/

/-- The text of a path is the one whose bytes it has. -/
theorem Path.text?_eq_some_iff {p : Path} {s : String} : p.text? = some s ↔ p = .ofString s := by
  unfold text?
  constructor
  · intro h
    obtain ⟨cs, hcs, rfl⟩ := Option.map_eq_some_iff.1 h
    cases hdecode : Utf8.decode p.bytes with
    | error fault =>
      rw [hdecode] at hcs
      cases hcs
    | ok ds =>
      rw [hdecode] at hcs
      obtain rfl := Option.some.inj hcs
      rw [ofString, String.toList_ofList, ← Utf8.decode_eq_ok_iff.1 hdecode]
  · rintro rfl
    rw [ofString, Utf8.decode_eq_ok_iff.2 rfl]
    exact congrArg some String.ofList_toList

namespace Config

theorem readsBack [Library] {c : Config} {program : String} (h : c.program = .ofString program) :
    ReadsBack Config.ofJson
      (.ofMembers [("program", .ofString program), ("args", .ofItems (c.args.map Tree.ofString))])
      c := by
  have hstores : configRecord.Stores {}
      [("program", .ofString program), ("args", .ofItems (c.args.map Tree.ofString))]
      ⟨some (.ofString program), some c.args⟩ :=
    .field rfl rfl rfl (.string _ program) <|
      .field rfl rfl rfl (.list fun arg _ => .string _ arg) .nil
  have hc := (hstores.readsBack rfl).map ConfigFields.toConfig
  rw [← h] at hc
  exact hc

theorem toJson?_eq_some_iff {c : Config} {v : Value} : c.toJson? = some v ↔
    ∃ program, c.program = .ofString program ∧ v = .ofMembers
      [("program", .ofString program), ("args", .ofItems (c.args.map Tree.ofString))] := by
  rw [toJson?, Option.map_eq_some_iff]
  simp only [Path.text?_eq_some_iff, eq_comm (a := v)]

end Config

/-! ### All forms -/

/-- **Words, statistics and configurations are read back from their texts.**  For statistics it does
not matter in which order the emitted gates are written, and of several entries of a gate the last
one counts.  A configuration is written if and only if its program is a text. -/
theorem Json.snapshots_roundTrip [Library] [LawfulLibrary] :
    (∀ w : Word, decodeText Word.ofJson (Library.write w.toJson) = .ok w) ∧
    (∀ s : Stats, s.Fits → decodeText Stats.ofJson (Library.write s.toJson) = .ok s ∧
      ∀ es, es.Perm s.emitted.entries →
        decodeText Stats.ofJson (Library.write (s.jsonWith es)) = .ok s) ∧
    (∀ (s : Stats) (es : List (FixedGate × Nat)), s.Fits → (∀ e ∈ es, e.2 < UInt64.size) →
      ∃ a, decodeText Stats.ofJson (Library.write (s.jsonWith es)) = .ok { s with emitted := a } ∧
        ∀ g, a.get? g = (es.filter (·.1 == g)).getLast?.map Prod.snd) ∧
    ∀ c : Config, (c.toJson?.isSome ↔ ∃ program, c.program = .ofString program) ∧
      ∀ v, c.toJson? = some v → decodeText Config.ofJson (Library.write v) = .ok c := by
  have hperm : ∀ s : Stats, s.Fits → ∀ es : List (FixedGate × Nat), es.Perm s.emitted.entries →
      decodeText Stats.ofJson (Library.write (s.jsonWith es)) = .ok s := by
    intro s hs es hes
    have hread := (Stats.readsBack hs fun e he => hs.emitted e (hes.mem_iff.1 he)).decodeText
    rwa [Tally.ofList_of_perm hes] at hread
  refine ⟨fun w => w.readsBack.decodeText, fun s hs => ⟨?_, hperm s hs⟩, fun s es hs hes => ?_,
    fun c => ⟨?_, fun v hv => ?_⟩⟩
  · rw [Stats.toJson_eq]
    exact hperm s hs s.emitted.entries (List.Perm.refl _)
  · exact ⟨_, (Stats.readsBack hs hes).decodeText, Tally.get?_ofList es⟩
  · simp only [Option.isSome_iff_exists, Config.toJson?_eq_some_iff]
    constructor
    · rintro ⟨v, program, hprogram, -⟩
      exact ⟨program, hprogram⟩
    · rintro ⟨program, hprogram⟩
      exact ⟨_, program, hprogram, rfl⟩
  · obtain ⟨program, hprogram, rfl⟩ := Config.toJson?_eq_some_iff.1 hv
    exact (Config.readsBack hprogram).decodeText

theorem Json.snapshots_roundTrip_largest :
    decodeText Word.ofJson (⟨[.t, .h, .t]⟩ : Word).toJson.compact = .ok ⟨[.t, .h, .t]⟩ ∧
    decodeText Stats.ofJson
      (⟨18446744073709551615, 3, 0, 0, { t := some 0, x := some 7 }, 18446744073709551615⟩ :
        Stats).toJson.compact =
      .ok ⟨18446744073709551615, 3, 0, 0, { t := some 0, x := some 7 }, 18446744073709551615⟩ ∧
    (∃ a, decodeText Stats.ofJson
        (({} : Stats).jsonWith [(.h, 3), (.t, 0), (.h, 18446744073709551615)]).compact =
          .ok { emitted := a } ∧
      a.get? .h = some 18446744073709551615 ∧ a.get? .t = some 0 ∧ a.get? .s = none) ∧
    ∃ v, (⟨.ofString "/opt/\"é", ["-e"]⟩ : Config).toJson? = some v ∧
      decodeText Config.ofJson v.compact = .ok ⟨.ofString "/opt/\"é", ["-e"]⟩ := by
  obtain ⟨hwords, hstats, hentries, hconfigs⟩ := Json.snapshots_roundTrip
  refine ⟨hwords _, (hstats _ ⟨by decide, by decide, by decide, by decide, by decide,
    by decide⟩).1, ?_, ?_⟩
  · obtain ⟨a, hread, hget⟩ := hentries {} [(.h, 3), (.t, 0), (.h, 18446744073709551615)]
      ⟨by decide, by decide, by decide, by decide, by decide, by decide⟩ (by decide)
    exact ⟨a, hread, hget .h, hget .t, hget .s⟩
  · obtain ⟨hwritten, hread⟩ := hconfigs ⟨.ofString "/opt/\"é", ["-e"]⟩
    obtain ⟨v, hv⟩ := Option.isSome_iff_exists.1 (hwritten.2 ⟨_, rfl⟩)
    exact ⟨v, hv, hread v hv⟩

end CliffordT
