import CliffordT.Proofs.Deliveries
import CliffordT.Proofs.Downstream
import CliffordT.Proofs.Recount
import Mathlib.Data.Finset.Card

/-!
# What is recorded of measurements

Outcomes are recorded while a batch is classified, before it is known whether the batch will be
forwarded.  What a recorder holds, and what the engine has counted, are therefore those of the
commands that classification has come to.

* `Register.Holds` : a register that has taken an outcome for each of some qubits;
* `Engine.measured_classify` : a command records and counts its own targets and nothing else,
  whatever becomes of it;
* `Outcome.Agrees`, `Engine.classify_withoutRecorder` : without a recorder classification does the
  same, apart from what it reports;
* `Engine.measured_accepted` : where all calls succeed before a sink, the accepted commands measure
  what was recorded, in the same order;
* `Engine.measurement_history` : all this after any uses.
-/

namespace CliffordT

open Outcome (forEach)

/-! ### Recorders -/

/-- The recorder after the outcome `false` for each of some qubits. -/
def Recorder.recordAll {ρ : Type} [Recorder ρ] (r : ρ) (qs : List Qubit) : ρ :=
  qs.foldl (fun r q => Recorder.record r q false) r

theorem Recorder.recordAll_append {ρ : Type} [Recorder ρ] (r : ρ) (qs ks : List Qubit) :
    recordAll r (qs ++ ks) = recordAll (recordAll r qs) ks :=
  List.foldl_append

theorem OutcomeLog.recordAll_eq (l : OutcomeLog) (qs : List Qubit) :
    Recorder.recordAll l qs = ⟨l.outcomes ++ qs.map fun q => (q, false)⟩ := by
  induction qs generalizing l with
  | nil => simp [Recorder.recordAll]
  | cons q qs ih =>
    have h : Recorder.recordAll l (q :: qs) =
        Recorder.recordAll (⟨l.outcomes ++ [(q, false)]⟩ : OutcomeLog) qs := rfl
    rw [h, ih, List.append_assoc]
    rfl

namespace Register

/-- The qubits with an outcome. -/
def qubits (r : Register) : List Qubit := r.values.map Prod.fst

/-- The outcomes stand in the order of their handles, each handle once. -/
def Ascending (es : List (Qubit × Bool)) : Prop := es.Pairwise fun a b => a.1.index < b.1.index

theorem mem_keys_put {q k : Qubit} {b : Bool} {es : List (Qubit × Bool)} :
    k ∈ (put q b es).map Prod.fst ↔ k = q ∨ k ∈ es.map Prod.fst := by
  induction es with
  | nil => simp [put]
  | cons e es ih =>
    rw [put]
    split
    · rename_i heq
      simp [heq]
    · split
      · simp
      · rw [List.map_cons, List.mem_cons, ih, List.map_cons, List.mem_cons]
        tauto

theorem Ascending.put {es : List (Qubit × Bool)} (h : Ascending es) (q : Qubit) (b : Bool) :
    Ascending (put q b es) := by
  induction es with
  | nil => exact List.pairwise_singleton _ _
  | cons e es ih =>
    obtain ⟨hfirst, hrest⟩ := List.pairwise_cons.1 h
    rw [Register.put]
    -- the entry takes the place of one, stands before all, or goes further back
    split
    · rename_i heq
      exact List.pairwise_cons.2 ⟨fun a ha => heq ▸ hfirst a ha, hrest⟩
    · rename_i hne
      split
      · rename_i hlt
        refine List.pairwise_cons.2 ⟨fun a ha => ?_, h⟩
        obtain rfl | ha := List.mem_cons.1 ha
        · exact hlt
        · exact UInt32.lt_trans hlt (hfirst a ha)
      · -- the qubit lies behind the first one, and so does everything else
        rename_i hlt
        refine List.pairwise_cons.2 ⟨fun a ha => ?_, ih hrest⟩
        obtain heq | hmem := mem_keys_put.1 (List.mem_map_of_mem (f := Prod.fst) ha)
        · rw [heq]
          have hindex : e.1.index ≠ q.index := fun h => hne (congrArg Qubit.mk h)
          exact UInt32.lt_of_le_of_ne (UInt32.not_lt.1 hlt) hindex
        · obtain ⟨a', ha', hkey⟩ := List.mem_map.1 hmem
          rw [← hkey]
          exact hfirst a' ha'

/-- The register has taken the outcome `false` for each of the qubits `qs`, and nothing else. -/
structure Holds (r : Register) (qs : List Qubit) : Prop where
  records : r.records = qs.length
  /-- Repeated qubits count once. -/
  length : r.length = qs.toFinset.card
  length_le : r.length ≤ r.records
  get? : ∀ q, r.get? q = if q ∈ qs then some false else none

theorem records_recordAll (r : Register) (qs : List Qubit) :
    (Recorder.recordAll r qs).records = r.records + qs.length := by
  induction qs generalizing r with
  | nil => rfl
  | cons q qs ih =>
    have h : Recorder.recordAll r (q :: qs) = Recorder.recordAll (r.record q false) qs := rfl
    have hrecords : (r.record q false).records = r.records + 1 := rfl
    rw [h, ih, hrecords, List.length_cons]
    omega

theorem get?_recordAll (r : Register) (qs : List Qubit) (k : Qubit) :
    (Recorder.recordAll r qs).get? k = if k ∈ qs then some false else r.get? k := by
  induction qs generalizing r with
  | nil => rfl
  | cons q qs ih =>
    have h : Recorder.recordAll r (q :: qs) = Recorder.recordAll (r.record q false) qs := rfl
    rw [h, ih, get?_record]
    grind

theorem qubits_recordAll {r : Register} (h : Ascending r.values) (qs : List Qubit) :
    Ascending (Recorder.recordAll r qs).values ∧
      ∀ k, k ∈ (Recorder.recordAll r qs).qubits ↔ k ∈ qs ∨ k ∈ r.qubits := by
  induction qs generalizing r with
  | nil => exact ⟨h, fun k => by simp [Recorder.recordAll]⟩
  | cons q qs ih =>
    obtain ⟨hascending, hmem⟩ := ih (r := r.record q false) (h.put q false)
    refine ⟨hascending, fun k => (hmem k).trans ?_⟩
    rw [qubits, record, mem_keys_put, List.mem_cons, qubits]
    tauto

theorem holds_recordAll (qs : List Qubit) : Holds (Recorder.recordAll {} qs) qs := by
  obtain ⟨hascending, hmem⟩ := qubits_recordAll (r := {}) List.Pairwise.nil qs
  have hnodup : (Recorder.recordAll ({} : Register) qs).qubits.Nodup := by
    refine List.Pairwise.map Prod.fst (fun a b hlt heq => ?_) hascending
    rw [heq] at hlt
    exact UInt32.lt_irrefl _ hlt
  have hlength : (Recorder.recordAll ({} : Register) qs).length = qs.toFinset.card := by
    rw [length, ← List.length_map (f := Prod.fst), ← qubits, ← List.toFinset_card_of_nodup hnodup]
    refine congrArg Finset.card (Finset.ext fun k => ?_)
    rw [List.mem_toFinset, List.mem_toFinset, hmem]
    simp [qubits]
  have hrecords : (Recorder.recordAll ({} : Register) qs).records = qs.length :=
    (records_recordAll {} qs).trans (Nat.zero_add _)
  refine ⟨hrecords, hlength, ?_, fun q => get?_recordAll {} qs q⟩
  rw [hlength, hrecords]
  exact List.toFinset_card_le qs

end Register

/-! ### Outcomes that agree -/

/-- The second outcome has the fault of the first one, and leaves what `r` makes of its state.
What was reported may differ. -/
structure Outcome.Agrees {τ υ : Type} (r : τ → υ) (o : Outcome τ) (o' : Outcome υ) : Prop where
  state : o'.state = r o.state
  error : o'.error? = o.error?

namespace Outcome.Agrees

variable {τ υ α ε : Type} {r : τ → υ} {f : τ → α → Outcome τ} {f' : υ → α → Outcome υ}
  {o : Outcome τ}

theorem map : Agrees r o (o.map r) := ⟨rfl, rfl⟩

theorem forEach (h : ∀ s a, Agrees r (f s a) (f' (r s) a)) (s : τ) (as : List α) :
    Agrees r (forEach f s as) (forEach f' (r s) as) := by
  induction as generalizing s with
  | nil => exact ⟨rfl, rfl⟩
  | cons a as ih =>
    rw [forEach_cons, forEach_cons]
    obtain ⟨hstate, herror⟩ := h s a
    cases ha : (f s a).error? with
    | some err =>
      rw [andThen_of_error ha, andThen_of_error (herror.trans ha)]
      exact h s a
    | none =>
      obtain ⟨istate, ierror⟩ := ih (f s a).state
      rw [← hstate] at istate ierror
      constructor
      · rw [state_andThen ha, state_andThen (herror.trans ha), istate]
      · rw [error?_andThen ha, error?_andThen (herror.trans ha), ierror]

theorem collect (h : ∀ s a, Agrees r (f s a) (f' (r s) a)) (g : α → List ε) (s : τ)
    (as : List α) :
    Outcome.collect f' (fun _ a => g a) (r s) as = Outcome.collect f (fun _ a => g a) s as := by
  induction as generalizing s with
  | nil => rfl
  | cons a as ih =>
    rw [Outcome.collect, Outcome.collect, isOk, isOk, (h s a).error, (h s a).state]
    exact congrArg (g a ++ if (f s a).error?.isNone then · else []) (ih (f s a).state)

end Outcome.Agrees

namespace Engine

variable {ω σ ρ : Type}

/-! ### One command -/

section Classify

variable [Oracle ω] [Recorder ρ]

omit [Oracle ω] in
theorem measure_state (e : Engine ω σ ρ) (qs : List Qubit) :
    (e.measure qs).state.recorder = e.recorder.map (Recorder.recordAll · qs) ∧
      (e.measure qs).state.stats.measurements = e.stats.measurements + qs.length := by
  unfold measure
  cases e.recorder <;> simp [Recorder.recordAll, placeholderOutcome]

/-- A command records and counts its own measured targets, whatever becomes of it. -/
theorem measured_classify (e : Engine ω σ ρ) (c : Command) :
    (e.classify c).state.recorder = e.recorder.map (Recorder.recordAll · c.measured) ∧
      (e.classify c).state.stats.measurements = e.stats.measurements + c.measured.length := by
  have hnone : e.recorder = e.recorder.map (Recorder.recordAll · []) := by
    cases e.recorder <;> rfl
  -- claiming and releasing keep what measuring changes
  let P : Engine ω σ ρ → Prop := fun e' =>
    e'.recorder = e.recorder ∧ e'.stats.measurements = e.stats.measurements
  have hclaim : ∀ e' q, P e' → P (claim e' q).state := by
    intro e' q h
    unfold claim
    split <;> exact h
  have hrelease : ∀ e' q, P e' → P (release e' q).state := by
    intro e' q h
    unfold release
    dsimp only
    repeat' split
    all_goals exact h
  obtain ⟨gate, targets⟩ := c
  cases gate with
  | allocate =>
    obtain ⟨hrecorder, hcount⟩ := Outcome.andThen_induction (P := P)
      (g := fun e => .done e.updateWidth) (Outcome.forEach_induction hclaim ⟨rfl, rfl⟩ targets)
      (fun h => h)
    exact ⟨hrecorder.trans hnone, hcount⟩
  | deallocate =>
    obtain ⟨hrecorder, hcount⟩ :=
      Outcome.forEach_induction (P := P) hrelease (s := e) ⟨rfl, rfl⟩ targets
    exact ⟨hrecorder.trans hnone, hcount⟩
  | measure => exact measure_state e targets
  | rotation axis angle =>
    by_cases hlen : targets.length = 1
    · obtain ⟨q, rfl⟩ := List.length_eq_one_iff.1 hlen
      have hstate := state_synthesize e axis angle
      rw [← classify_rotation e axis angle q] at hstate
      rw [show (⟨.rotation axis angle, [q]⟩ : Command) = .rotation axis angle q from rfl, hstate]
      exact ⟨hnone, rfl⟩
    · rw [classify_rotation_of_targets e axis angle hlen]
      exact ⟨hnone, rfl⟩
  | _ => exact ⟨hnone, rfl⟩

end Classify

/-! ### Without a recorder -/

variable {τ : Type}

/-- The engine without its recorder. -/
def withoutRecorder (e : Engine ω σ ρ) : Engine ω σ τ where
  oracle := e.oracle
  sink := e.sink
  pending := e.pending
  live := e.live
  stats := e.stats

theorem keepsRegister_withoutRecorder :
    KeepsRegister (withoutRecorder : Engine ω σ ρ → Engine ω σ τ) :=
  ⟨fun _ => rfl, fun _ => rfl, fun _ _ _ => rfl⟩

theorem synthesize_withoutRecorder [Oracle ω] (e : Engine ω σ ρ) (axis : Axis)
    (angle : Binary64) : (withoutRecorder (τ := τ) e).synthesize axis angle =
      (e.synthesize axis angle).map withoutRecorder := by
  have horacle : (withoutRecorder (τ := τ) e).oracle = e.oracle := rfl
  unfold synthesize
  dsimp only
  rw [horacle]
  cases (Oracle.synthesize e.oracle axis angle).result with
  | error err => rfl
  | ok raw =>
    dsimp only
    cases Word.ofOperatorText raw <;> rfl

variable [Oracle ω] [Recorder ρ] [Recorder τ]

/-- Without a recorder a command is classified in the same way; only the outcomes that are dropped
are reported. -/
theorem classify_withoutRecorder (e : Engine ω σ ρ) (c : Command) :
    Outcome.Agrees (withoutRecorder (τ := τ)) (e.classify c)
      ((withoutRecorder e).classify c) := by
  by_cases hc : c.gate = .measure
  · obtain ⟨gate, targets⟩ := c
    obtain rfl : gate = .measure := hc
    show Outcome.Agrees _ (e.measure targets) ((withoutRecorder e).measure targets)
    unfold measure
    dsimp only
    cases e.recorder <;> exact ⟨rfl, rfl⟩
  · have hrun : (withoutRecorder (τ := τ) e).classify c = (e.classify c).map withoutRecorder :=
      classify_map keepsRegister_withoutRecorder (fun _ => rfl) synthesize_withoutRecorder
        fun h => absurd h hc
    rw [hrun]
    exact .map

end Engine

namespace Intake

variable {ω ρ τ : Type}

/-- The intake without its recorder. -/
def withoutRecorder (i : Intake ω ρ) : Intake ω τ := { i with recorder := none }

variable [Oracle ω] [Recorder ρ] [Recorder τ]

theorem reached_withoutRecorder (i : Intake ω ρ) (batches : List (List Command)) :
    (withoutRecorder (τ := τ) i).reached batches = i.reached batches := by
  induction batches generalizing i with
  | nil => rfl
  | cons batch batches ih =>
    have hengine : (withoutRecorder (τ := τ) i).engine = i.engine.withoutRecorder := rfl
    have hagrees := Engine.classify_withoutRecorder (ω := ω) (σ := Empty) (ρ := ρ) (τ := τ)
    have hvisited : ((withoutRecorder (τ := τ) i).engine.visited batch).map Visit.command =
        (i.engine.visited batch).map Visit.command := by
      rw [hengine, Engine.visited, Engine.visited, Outcome.map_collect, Outcome.map_collect]
      exact Outcome.Agrees.collect hagrees (fun c => [c]) i.engine batch
    have hafter : (withoutRecorder (τ := τ) i).after batch = (i.after batch).withoutRecorder := by
      rw [after, hengine, (Outcome.Agrees.forEach hagrees i.engine batch).state]
      rfl
    rw [reached, hvisited, hafter, ih, reached]

end Intake

namespace Engine

variable {ω σ ρ τ : Type} [Oracle ω] [Sink σ] [Recorder ρ] [Recorder τ]

/-! ### Any uses -/

/-- The qubits that are measured by the commands that classification comes to, once for each target
and in order. -/
def measuredDuring (e : Engine ω σ ρ) (us : List (Use σ)) : List Qubit :=
  ((e.visits us).map Visit.command).flatMap Command.measured

theorem measuredDuring_process (e : Engine ω σ ρ) (batch : List Command) (us : List (Use σ)) :
    e.measuredDuring (.process batch :: us) =
      ((e.visited batch).map Visit.command).flatMap Command.measured ++
        (e.process batch).state.measuredDuring us := by
  rw [measuredDuring, visits, history_process, List.map_append, List.flatMap_append]
  rfl

theorem measured_afterUses (e : Engine ω σ ρ) (us : List (Use σ)) :
    (e.afterUses us).recorder = e.recorder.map (Recorder.recordAll · (e.measuredDuring us)) ∧
      (e.afterUses us).stats.measurements =
        e.stats.measurements + (e.measuredDuring us).length := by
  let measured : List (Visit ω σ ρ) → List Qubit := fun vs =>
    (vs.map Visit.command).flatMap Command.measured
  have happend : ∀ vs (e : Engine ω σ ρ) c, measured (vs ++ [⟨e, c⟩]) = measured vs ++ c.measured :=
    fun vs e c => by simp [measured]
  let Recorded : Engine ω σ ρ → List (Visit ω σ ρ) → Prop := fun e' vs =>
    e'.recorder = e.recorder.map (Recorder.recordAll · (measured vs)) ∧
      e'.stats.measurements = e.stats.measurements + (measured vs).length
  have hstart : Recorded e [] := ⟨by cases e.recorder <;> rfl, rfl⟩
  -- one command measures what it says; nothing is measured between the commands
  refine visits_induction (P := Recorded) (fun e' c vs h => ?_) (fun e' e'' vs hsame h => ?_)
    hstart us
  · obtain ⟨hrecorder, hcount⟩ := measured_classify e' c
    refine ⟨?_, by rw [hcount, h.2, happend, List.length_append, Nat.add_assoc]⟩
    rw [hrecorder, h.1, happend, Option.map_map]
    exact congrArg (Option.map · e.recorder)
      (funext fun r => (Recorder.recordAll_append r (measured vs) c.measured).symm)
  · show Recorded e'' vs
    simp only [Recorded]
    rw [hsame.recorder, hsame.measurements]
    exact h

theorem visits_of_recorders (o : ω) (recorder : Option ρ) (recorder' : Option τ)
    (us : List (Use σ)) :
    (({ oracle := o, recorder } : Engine ω σ ρ).visits us).map Visit.command =
      (({ oracle := o, recorder := recorder' } : Engine ω σ τ).visits us).map Visit.command := by
  rw [visits_eq, visits_eq, ← Intake.reached_withoutRecorder (τ := ρ),
    ← Intake.reached_withoutRecorder (τ := ρ)
      (({ oracle := o, recorder := recorder' } : Engine ω σ τ).intake)]
  rfl

/-! ### Accepted commands -/

theorem measured_tape {e : Engine ω (Tap σ) ρ} {t : Tap σ} {batch : List Command}
    (hs : e.sink = some t) (h : (e.process batch).error? = none) :
    (e.process batch).state.sink.isSome ∧
      (e.process batch).state.tape.flatMap Command.measured =
        e.tape.flatMap Command.measured ++ batch.flatMap Command.measured := by
  have hok := classify_ok_of_process_ok h
  obtain ⟨ps, hps⟩ := exists_rewrites_of_classifyAll hok
  have hsend := (process_rewrites hs hok hps).1.symm.trans h
  have hstate := process_of_accepted hs hok hps hsend
  obtain ⟨herror, htap⟩ := Tap.sendAll_eq t (ps.flatMap Part.commands)
  have hall : Sink.accepted t.sink (ps.flatMap Part.commands) = (ps.flatMap Part.commands).length :=
    Sink.accepted_of_ok (herror.symm.trans hsend)
  have htape : e.tape = t.accepted := by rw [tape, hs]
  rw [hall, List.take_length] at htap
  refine ⟨by rw [hstate]; rfl, ?_⟩
  rw [hstate, htape, ← hps.measured_eq, ← List.flatMap_append]
  show (Sink.sendAll t (ps.flatMap Part.commands)).state.accepted.flatMap _ = _
  rw [htap]

/-- Where all uses succeed before a sink, the sinks accept commands that measure what classification
has come to. -/
theorem measured_accepted {e : Engine ω (Tap σ) ρ} {us : List (Use σ)} (hs : e.sink.isSome)
    (h : (forEach use e (us.map (Use.map Tap.on))).error? = none) :
    ((e.sinks (us.map (Use.map Tap.on))).flatMap Tap.accepted).flatMap Command.measured =
      e.tape.flatMap Command.measured ++ e.measuredDuring (us.map (Use.map Tap.on)) := by
  induction us generalizing e with
  | nil =>
    rw [List.map_nil, sinks, flatMap_accepted_sink]
    exact (List.append_nil _).symm
  | cons u us ih =>
    rw [List.map_cons, Outcome.forEach_cons, Outcome.andThen_eq_none_iff] at h
    cases u with
    | process batch =>
      obtain ⟨t, ht⟩ := Option.isSome_iff_exists.1 hs
      obtain ⟨hsink, hmeasured⟩ := measured_tape ht h.1
      have hlater := ih hsink h.2
      rw [hmeasured, List.append_assoc] at hlater
      rw [List.map_cons, Use.map, sinks, hlater, measuredDuring_process,
        visited_of_ok (classify_ok_of_process_ok h.1)]
    | setSink s =>
      -- the tape of the new sink is empty
      have hlater := ih (e := e.setSink (Tap.on s)) rfl h.2
      rw [List.map_cons, Use.map, sinks, List.flatMap_append, List.flatMap_append, hlater,
        flatMap_accepted_sink]
      rfl

/-! ### Measurements -/

/-- **Every measured target that classification comes to is recorded as `false`, and counted**, in
order and with repeats, whatever becomes of the batches and whatever the recorder is; without a
recorder it is counted as well.  A register that was empty has as many records, and an outcome for
these qubits and no others.  If all uses succeed and there is a sink from the first one on, the
commands that the sinks have accepted measure the same targets in the same order. -/
theorem measurement_history (o : ω) (r : ρ) (us : List (Use σ)) :
    let start : Engine ω σ ρ := { oracle := o, recorder := some r }
    let logging : Engine ω σ OutcomeLog := { oracle := o, recorder := some {} }
    let registering : Engine ω σ Register := { oracle := o, recorder := some {} }
    let bare : Engine ω σ ρ := { oracle := o }
    let tapped : Engine ω (Tap σ) ρ := { oracle := o, recorder := some r }
    let tappedUses := us.map (Use.map Tap.on)
    let reached := (start.visits us).map Visit.command
    let qs := reached.flatMap Command.measured
    ((start.afterUses us).recorder = some (qs.foldl (fun r q => Recorder.record r q false) r) ∧
      (start.afterUses us).stats.measurements = qs.length) ∧
    ((logging.visits us).map Visit.command = reached ∧
      (logging.afterUses us).recorder = some ⟨qs.map fun q => (q, false)⟩) ∧
    ((registering.visits us).map Visit.command = reached ∧
      ∃ register, (registering.afterUses us).recorder = some register ∧ register.Holds qs) ∧
    ((bare.visits us).map Visit.command = reached ∧
      (bare.afterUses us).stats.measurements = qs.length) ∧
    start.sinks us = (tapped.sinks tappedUses).map Tap.sink ∧
    ∀ s rest, us = .setSink s :: rest → (forEach use start us).error? = none →
      ((tapped.sinks tappedUses).flatMap Tap.accepted).flatMap Command.measured = qs := by
  intro start logging registering bare tapped tappedUses reached qs
  -- the recorders see the same commands, since none of them is asked anything
  have hlogging : (logging.visits us).map Visit.command = reached := visits_of_recorders o _ _ us
  have hregistering : (registering.visits us).map Visit.command = reached :=
    visits_of_recorders o _ _ us
  have hbare : (bare.visits us).map Visit.command = reached := visits_of_recorders o _ _ us
  have hmeasured := measured_afterUses start us
  have hparts : SameParts (id : ω → ω) (Tap.sink (σ := σ)) := .of_send fun _ _ => rfl
  have huses : tappedUses.map (Use.map Tap.sink) = us :=
    (Use.map_map Tap.on Tap.sink us).trans (Use.map_id us)
  have hsinks := sinks_mapParts (e := tapped) hparts tappedUses
  rw [huses] at hsinks
  refine ⟨⟨hmeasured.1, hmeasured.2.trans (Nat.zero_add _)⟩, ⟨hlogging, ?_⟩, ⟨hregistering, ?_⟩,
    ⟨hbare, ?_⟩, hsinks, ?_⟩
  · rw [(measured_afterUses logging us).1, measuredDuring, hlogging]
    exact congrArg some (OutcomeLog.recordAll_eq {} qs)
  · rw [(measured_afterUses registering us).1, measuredDuring, hregistering]
    exact ⟨_, rfl, Register.holds_recordAll qs⟩
  · rw [(measured_afterUses bare us).2, measuredDuring, hbare]
    exact Nat.zero_add _
  · rintro s rest rfl hok
    have hstart : start = mapParts id Tap.sink tapped := rfl
    have htapped : (forEach use tapped tappedUses).error? = none := by
      rw [← huses, hstart, useAll_mapParts tapped hparts] at hok
      exact hok
    have hreached : (tapped.visits tappedUses).map Visit.command = reached := by
      rw [visits_eq, Use.batches_map]
      exact (visits_eq start _).symm
    have hrest : (forEach use (tapped.setSink (Tap.on s))
        (rest.map (Use.map Tap.on))).error? = none :=
      (Outcome.andThen_eq_none_iff.1 htapped).2
    show (((tapped.setSink (Tap.on s)).sinks _).flatMap Tap.accepted).flatMap Command.measured = qs
    rw [measured_accepted rfl hrest]
    exact congrArg (List.flatMap Command.measured) hreached

/-- Two sinks, several targets, and one of them twice.  A batch that measures and then stops at a
release is recorded all the same. -/
theorem measurement_history_repeated_target :
    let o : FunctionOracle := ⟨fun _ _ => .ok "TH"⟩
    let start : Engine FunctionOracle CommandLog Register := { oracle := o, recorder := some {} }
    let tapped : Engine FunctionOracle (Tap CommandLog) Register :=
      { oracle := o, recorder := some {} }
    let half : Binary64 := ⟨0x3fe0000000000000⟩
    let us : List (Use CommandLog) := [.setSink {},
      .process [.measureAll [⟨4⟩, ⟨2⟩, ⟨4⟩], .rz half ⟨0⟩], .setSink {}, .process [.measure ⟨2⟩]]
    let stopped : Use CommandLog := .process [.measure ⟨9⟩, .deallocate ⟨7⟩, .measure ⟨8⟩]
    let qs : List Qubit := [⟨4⟩, ⟨2⟩, ⟨4⟩, ⟨2⟩]
    (forEach use start us).error? = none ∧
      ((tapped.sinks (us.map (Use.map Tap.on))).flatMap Tap.accepted).flatMap Command.measured =
        qs ∧
      (∃ register, (start.afterUses us).recorder = some register ∧ register.Holds qs) ∧
      ((start.afterUses us).use stopped).error? = some (.counterUnderflow ⟨7⟩) ∧
      (start.afterUses (us ++ [stopped])).recorder =
        some ⟨[(⟨2⟩, false), (⟨4⟩, false), (⟨9⟩, false)], 5⟩ := by
  intro o start tapped half us stopped qs
  have hok : (forEach use start us).error? = none := by decide
  obtain ⟨-, -, ⟨-, hholds⟩, -, -, haccepted⟩ := measurement_history o ({} : Register) us
  exact ⟨hok, haccepted _ _ rfl hok, hholds, by decide, by decide⟩

end Engine

end CliffordT
