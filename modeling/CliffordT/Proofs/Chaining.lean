import CliffordT.Proofs.BatchBoundaries
import CliffordT.Proofs.Recount
import CliffordT.Proofs.RewrittenStream

/-!
# Chained engines

An engine is itself a sink.  Behind another engine it gets no rotation, so all that it does is to
count once more and to send everything on.  The first engine classifies a whole batch before the
second one sees a command of it, so they agree between calls only.

* `Cascade` : any number of engines one before the other, of any kinds, the last one before a log;
* `Relays`, `Mirrors` : the engines of a cascade when they have relayed some commands;
* `Mirrors.sendAll` : a cascade relays commands whose requests are in order, and none of its engines
  fails;
* `Engine.Beside` : an engine before a log and the same engine before a cascade;
* `Engine.run_before_cascade` : they do the same in every run.
-/

namespace CliffordT

open Outcome (forEach)
open RegisterEvent (AllFit liveAfter)

/-! ### Cascades -/

/-- What an engine is made of: an oracle, and perhaps a recorder, of any kind. -/
structure Stage where
  ω : Type
  ρ : Type
  oracles : Oracle ω
  recorders : Recorder ρ
  oracle : ω
  recorder : Option ρ

attribute [instance] Stage.oracles Stage.recorders

/-- Engines one before the other, the last one before a log. -/
def Cascade : List Stage → Type
  | [] => CommandLog
  | k :: ks => Engine k.ω (Cascade ks) k.ρ

namespace Cascade

/-- A cascade is a sink. -/
@[reducible]
def sink : (ks : List Stage) → Sink (Cascade ks)
  | [] => inferInstanceAs (Sink CommandLog)
  | k :: ks =>
    letI := sink ks
    inferInstanceAs (Sink (Engine k.ω (Cascade ks) k.ρ))

instance (ks : List Stage) : Sink (Cascade ks) := sink ks

/-- Fresh engines before an empty log. -/
def fresh : (ks : List Stage) → Cascade ks
  | [] => ({} : CommandLog)
  | k :: ks =>
    ({ oracle := k.oracle, sink := some (fresh ks), recorder := k.recorder } :
      Engine k.ω (Cascade ks) k.ρ)

/-- The log behind the last engine. -/
def log? : (ks : List Stage) → Cascade ks → Option CommandLog
  | [], l => some l
  | _ :: ks, e => (Engine.sink e).bind (log? ks)

/-- The counters of the engines, those of the first one first. -/
def stats : (ks : List Stage) → Cascade ks → List Stats
  | [], _ => []
  | _ :: ks, e => Engine.stats e :: ((Engine.sink e).map (stats ks)).getD []

theorem getD_isAvailable {ks : List Stage} (t : Cascade ks) (c : Command) :
    (Sink.isAvailable t c).getD true = true := by
  induction ks with
  | nil => rfl
  | cons k ks ih =>
    show Engine.availability t c = true
    unfold Engine.availability
    split
    · rfl
    · exact ih _

end Cascade

/-! ### Relaying one command -/

namespace Engine

variable {ω σ ρ : Type} [Oracle ω] [Sink σ] [Recorder ρ]

theorem process_of_plain {e : Engine ω σ ρ} {t : σ} {c : Command} (hs : e.sink = some t)
    (hp : e.pending = []) (hc : c.gate.isRotation = false) (hok : (e.classify c).error? = none)
    (hsend : (Sink.send t c).error? = none) :
    (e.process [c]).error? = none ∧
      (e.process [c]).state = { (e.classify c).state.sent (Sink.send t c).state [⟨c, none⟩] with
        pending := [] } := by
  have hclassify : (forEach classify e [c]).error? = none := by
    rw [Outcome.forEach_singleton]
    exact hok
  have hcount : rotationCount [c] = 0 := rotationCount_cons_of_plain hc []
  have hfound : e.found [c] = [] :=
    List.length_eq_zero_iff.1 ((length_found hclassify).trans hcount)
  have hps : Rewrites [c] ((e.pending ++ e.found [c]).take (rotationCount [c])) [.plain c] := by
    rw [hp, hfound, hcount]
    exact .plain hc .nil
  have hsendall : Sink.sendAll t ([.plain c].flatMap Part.commands) = Sink.send t c :=
    Outcome.forEach_singleton c
  have hsend' := (congrArg Outcome.error? hsendall).trans hsend
  refine ⟨(process_rewrites hs hclassify hps).1.trans hsend', ?_⟩
  rw [process_of_accepted hs hclassify hps hsend', hsendall, Outcome.forEach_singleton, hp, hfound,
    hcount]
  rfl

end Engine

/-! ### Relaying a stream -/

/-- The first engine of a cascade when it has relayed the commands `cs`, in one call for each. -/
structure Relays (k : Stage) (ks : List Stage) (cs : List Command)
    (e : Engine k.ω (Cascade ks) k.ρ) : Prop extends Engine.Recounted e cs where
  /-- None of the calls has failed. -/
  ok : (Engine.run (Cascade.fresh (k :: ks)) (cs.map fun c => [c])).error? = none
  /-- They have made the engine what it is. -/
  state : (Engine.run (Cascade.fresh (k :: ks)) (cs.map fun c => [c])).state = e
  /-- They have asked the oracle nothing. -/
  asks : Engine.asks (Cascade.fresh (k :: ks)) (cs.map fun c => [c]) = []
  oracle : e.oracle = k.oracle
  rotations : e.stats.rotations = 0
  emitted : e.stats.emitted = {}
  pending : e.pending = []
  forwarded : e.stats.forwarded = cs.length

/-- All engines of a cascade have relayed the commands `cs`, and the log has received them. -/
def Mirrors (cs : List Command) : (ks : List Stage) → Cascade ks → Prop
  | [], l => l = CommandLog.mk cs
  | k :: ks, e => Relays k ks cs e ∧ ∃ t, Engine.sink e = some t ∧ Mirrors cs ks t

/-- A command that is no rotation, and whose requests are in order, is relayed if it is accepted
behind the engine. -/
theorem Relays.send {k : Stage} {ks : List Stage} {cs : List Command}
    {e : Engine k.ω (Cascade ks) k.ρ} {t : Cascade ks} {c : Command} (h : Relays k ks cs e)
    (hs : e.sink = some t) (hc : c.gate.isRotation = false)
    (hfit : AllFit (liveAfter [] (cs.flatMap Command.registerEvents)) c.registerEvents)
    (hsend : (Sink.send t c).error? = none) :
    (e.process [c]).error? = none ∧ Relays k ks (cs ++ [c]) (e.process [c]).state ∧
      (e.process [c]).state.sink = some (Sink.send t c).state := by
  have hok : (e.classify c).error? = none := by
    rw [h.classify_ok_iff hc, h.live]
    exact hfit
  have hquestion := Command.question?_of_plain hc
  obtain ⟨hcall, hstate⟩ := Engine.process_of_plain hs h.pending hc hok hsend
  obtain ⟨-, horacle, hrotations⟩ := Engine.classify_of_no_question e hquestion
  have hsent : Engine.SameOutput e (e.classify c).state :=
    Engine.sameOutput_classify ⟨rfl, rfl, rfl⟩ c
  have hsame := Engine.sameIntake_process e [c]
  rw [Outcome.forEach_singleton] at hsame
  -- the call is one more behind those that have made the engine
  obtain ⟨rerror, rstate, rasks⟩ := Engine.run_concat h.ok [c]
  rw [h.state] at rerror rstate rasks
  have hquestions : e.questions [c] = [] := by
    simp [Engine.questions, Outcome.collect, hquestion]
  rw [h.asks, hquestions] at rasks
  refine ⟨hcall, ?_, by rw [hstate]; rfl⟩
  refine { (h.classify hok).of_sameIntake hsame with
    ok := ?_, state := ?_, asks := ?_, oracle := ?_, rotations := ?_, emitted := ?_
    pending := ?_, forwarded := ?_ }
  · rw [List.map_append]
    exact rerror.trans hcall
  · rw [List.map_append]
    exact rstate
  · rw [List.map_append]
    exact rasks
  · rw [hsame.oracle, horacle, h.oracle]
  · rw [hsame.rotations, hrotations, h.rotations]
  · rw [hstate]
    exact hsent.emitted.trans h.emitted
  · rw [hstate]
  · rw [hstate, List.length_append, ← h.forwarded, ← hsent.forwarded]
    rfl

theorem mirrors_fresh (ks : List Stage) : Mirrors [] ks (Cascade.fresh ks) := by
  induction ks with
  | nil => rfl
  | cons k ks ih =>
    refine ⟨?_, _, rfl, ih⟩
    exact { Engine.Recounted.fresh k.oracle (some (Cascade.fresh ks)) k.recorder with
      ok := rfl, state := rfl, asks := rfl, oracle := rfl, rotations := rfl, emitted := rfl
      pending := rfl, forwarded := rfl }

namespace Mirrors

variable {ks : List Stage} {cs : List Command} {t : Cascade ks}

theorem log?_eq (h : Mirrors cs ks t) : Cascade.log? ks t = some ⟨cs⟩ := by
  induction ks with
  | nil => exact congrArg some h
  | cons k ks ih =>
    obtain ⟨-, t', hs, ht'⟩ := h
    rw [Cascade.log?, hs, Option.bind_some, ih ht']

/-- A cascade relays a command that is no rotation and whose requests are in order, and none of its
engines fails. -/
theorem send {c : Command} (h : Mirrors cs ks t) (hc : c.gate.isRotation = false)
    (hfit : AllFit (liveAfter [] (cs.flatMap Command.registerEvents)) c.registerEvents) :
    (Sink.send t c).error? = none ∧ Mirrors (cs ++ [c]) ks (Sink.send t c).state := by
  induction ks with
  | nil =>
    cases h
    exact ⟨rfl, rfl⟩
  | cons k ks ih =>
    -- all engines have the same register, so the ones behind the first accept what it classifies
    obtain ⟨hrelays, t', hs, ht'⟩ := h
    obtain ⟨hsend, hmirrors⟩ := ih ht'
    obtain ⟨hcall, hrelays', hs'⟩ := hrelays.send hs hc hfit hsend
    exact ⟨hcall, hrelays', _, hs', hmirrors⟩

/-- A cascade relays commands that are no rotations and whose requests are in order, and none of its
engines fails. -/
theorem sendAll {ds : List Command} (h : Mirrors cs ks t)
    (hplain : ∀ c ∈ ds, c.gate.isRotation = false)
    (hfit : AllFit (liveAfter [] (cs.flatMap Command.registerEvents))
      (ds.flatMap Command.registerEvents)) :
    (Sink.sendAll t ds).error? = none ∧ Mirrors (cs ++ ds) ks (Sink.sendAll t ds).state := by
  induction ds generalizing cs t with
  | nil =>
    rw [List.append_nil]
    exact ⟨rfl, h⟩
  | cons c ds ih =>
    obtain ⟨hc, hds⟩ := List.forall_mem_cons.1 hplain
    rw [List.flatMap_cons, RegisterEvent.allFit_append_iff] at hfit
    obtain ⟨hfirst, hmirrors⟩ := h.send hc hfit.1
    -- the others are in order for the register that the first command leaves
    have hrest := hfit.2
    rw [← RegisterEvent.liveAfter_append, ← List.flatMap_singleton Command.registerEvents c,
      ← List.flatMap_append] at hrest
    rw [Sink.sendAll_cons, Outcome.error?_andThen hfirst, Outcome.state_andThen hfirst,
      List.append_cons]
    exact ih hmirrors hds hrest

end Mirrors

/-! ### Before a log and before a cascade -/

namespace Engine

variable {ω ρ : Type} {ks : List Stage} {cs : List Command} {t : Cascade ks}
  {e : Engine ω CommandLog ρ}

/-- The engine has counted the commands `cs`, which the log behind it has received, and no word
waits. -/
structure Logged (e : Engine ω CommandLog ρ) (cs : List Command) : Prop extends
    Recounted e cs where
  sink : e.sink = some ⟨cs⟩
  pending : e.pending = []
  forwarded : e.stats.forwarded = cs.length

/-- How an engine before a log and the same engine before a cascade end, when the log has received
the commands `cs` and the cascade is `t`. -/
structure Beside (plain : Outcome (Engine ω CommandLog ρ))
    (chained : Outcome (Engine ω (Cascade ks) ρ)) (cs : List Command) (t : Cascade ks) : Prop where
  /-- With the same result. -/
  result : chained.error? = plain.error?
  /-- With the same state, but for the sink. -/
  state : chained.state = plain.state.withSink (some t)
  log : plain.state.sink = some ⟨cs⟩
  /-- The cascade has relayed what the log has received. -/
  mirrors : Mirrors cs ks t
  /-- As long as nothing fails, the engine has counted it. -/
  logged : plain.error? = none → Logged plain.state cs

/-- The counters of an engine that has relayed what another one has sent are those of the other one,
as far as rotations do not matter. -/
theorem Logged.stats_eq (h : Logged e cs) {k : Stage} {e' : Engine k.ω (Cascade ks) k.ρ}
    (h' : Relays k ks cs e') : e'.stats = { e.stats with rotations := 0, emitted := {} } := by
  have hactive : e'.stats.activeQubits = e.stats.activeQubits := by
    rw [h'.count, h'.live, h.count, h.live]
  have hwidth := h'.maxWidth.trans h.maxWidth.symm
  have hmeasured := h'.measurements.trans h.measurements.symm
  have hforwarded := h'.forwarded.trans h.forwarded.symm
  calc e'.stats
      = ⟨e'.stats.activeQubits, e'.stats.maxWidth, e'.stats.rotations, e'.stats.measurements,
          e'.stats.emitted, e'.stats.forwarded⟩ := rfl
    _ = _ := by rw [hactive, hwidth, h'.rotations, hmeasured, h'.emitted, hforwarded]

theorem Logged.stats_cascade (h : Logged e cs) (ht : Mirrors cs ks t) :
    Cascade.stats ks t =
      List.replicate ks.length { e.stats with rotations := 0, emitted := {} } := by
  induction ks with
  | nil => rfl
  | cons k ks ih =>
    obtain ⟨hrelays, t', hs, ht'⟩ := ht
    rw [Cascade.stats, hs]
    exact congrArg₂ List.cons (h.stats_eq hrelays) (ih ht')

variable [Oracle ω] [Recorder ρ]

/-- A call on both engines that is not classified: nothing is sent, so the log and the cascade stay
as they are. -/
theorem Logged.process_of_error (h : Logged e cs) (ht : Mirrors cs ks t) {batch : List Command}
    {err : PipelineError} (hclassify : (forEach classify e batch).error? = some err) :
    Beside (e.process batch) ((e.withSink (some t)).process batch) cs t := by
  have hsame := classifyAll_withSink (some t) e batch
  have hclassify' := (congrArg Outcome.error? hsame).trans hclassify
  rw [Engine.process_of_error hclassify, Engine.process_of_error hclassify', hsame]
  refine ⟨rfl, rfl, (sameOutput_classifyAll e batch).sink.trans h.sink, ht, fun hok => ?_⟩
  rw [hclassify] at hok
  cases hok

/-- A call on both engines that is classified: the log and the cascade receive the same parts. -/
theorem Logged.process_of_ok (h : Logged e cs) (ht : Mirrors cs ks t) {batch : List Command}
    (hclassify : (forEach classify e batch).error? = none) :
    ∃ ds t', Beside (e.process batch) ((e.withSink (some t)).process batch) ds t' := by
  have hsame := classifyAll_withSink (some t) e batch
  have hclassify' := (congrArg Outcome.error? hsame).trans hclassify
  have hfound : (e.withSink (some t)).found batch = e.found batch := found_rebase _ e batch
  obtain ⟨ps, hps⟩ := exists_rewrites_of_classifyAll hclassify
  have hps' : Rewrites batch (((e.withSink (some t)).pending ++
      (e.withSink (some t)).found batch).take (rotationCount batch)) ps := by
    rw [hfound]
    exact hps
  -- the requests of the batch were in order, so those of its parts are in order for the cascade,
  -- which has seen none of them yet
  obtain ⟨hcounted, hfit⟩ := h.classifyAll hclassify
  rw [← hps.registerEvents_eq, h.live] at hfit
  obtain ⟨hsend', hmirrors⟩ := ht.sendAll hps.plain_of_mem hfit
  have hlog := CommandLog.sendAll_eq ⟨cs⟩ (ps.flatMap Part.commands)
  have hsend := congrArg Outcome.error? hlog
  have hok := (process_rewrites h.sink hclassify hps).1.trans hsend
  have hok' := (process_rewrites rfl hclassify' hps').1.trans hsend'
  have hstate := process_of_accepted h.sink hclassify hps hsend
  have hstate' := process_of_accepted rfl hclassify' hps' hsend'
  have hsink : (e.process batch).state.sink = some ⟨cs ++ ps.flatMap Part.commands⟩ := by
    rw [hstate, hlog]
    rfl
  refine ⟨_, _, hok'.trans hok.symm, ?_, hsink, hmirrors, fun _ => ⟨?_, hsink, ?_, ?_⟩⟩
  · rw [hstate, hstate', hsame, hfound]
    rfl
  · exact (hcounted.of_rewrites hps).of_sameIntake (sameIntake_process e batch)
  · have hlen := length_found hclassify
    rw [hstate, h.pending]
    exact List.drop_of_length_le (by simp [hlen])
  · rw [hstate, List.length_append, ← h.forwarded, ← Part.length_stream,
      ← (sameOutput_classifyAll e batch).forwarded]
    rfl

theorem Logged.process (h : Logged e cs) (ht : Mirrors cs ks t) (batch : List Command) :
    ∃ ds t', Beside (e.process batch) ((e.withSink (some t)).process batch) ds t' := by
  cases hclassify : (forEach classify e batch).error? with
  | some err => exact ⟨cs, t, h.process_of_error ht hclassify⟩
  | none => exact h.process_of_ok ht hclassify

theorem Logged.run (h : Logged e cs) (ht : Mirrors cs ks t) (batches : List (List Command)) :
    ∃ ds t', Beside (e.run batches) ((e.withSink (some t)).run batches) ds t' := by
  induction batches generalizing e cs t with
  | nil => exact ⟨cs, t, rfl, rfl, h.sink, ht, fun _ => h⟩
  | cons batch batches ih =>
    -- the first call fails on both engines, or leaves them beside each other
    obtain ⟨ds, t', hcall⟩ := h.process ht batch
    rw [run_cons, run_cons]
    cases hresult : (e.process batch).error? with
    | some err =>
      rw [Outcome.andThen_of_error hresult, Outcome.andThen_of_error (hcall.result.trans hresult)]
      exact ⟨ds, t', hcall⟩
    | none =>
      have hresult' := hcall.result.trans hresult
      obtain ⟨ds', t'', hrest⟩ := ih (hcall.logged hresult) hcall.mirrors
      rw [← hcall.state] at hrest
      refine ⟨ds', t'', ?_, ?_, ?_, hrest.mirrors, ?_⟩
      · rw [Outcome.error?_andThen hresult, Outcome.error?_andThen hresult', hrest.result]
      · rw [Outcome.state_andThen hresult, Outcome.state_andThen hresult', hrest.state]
      · rw [Outcome.state_andThen hresult, hrest.log]
      · rw [Outcome.state_andThen hresult, Outcome.error?_andThen hresult]
        exact hrest.logged

/-- **Chaining is transparent.**  Calls on a fresh engine, up to the first one that fails, have the
same result before a log as before any number of further engines before a log, and leave the same
engine and the same log; as this holds of all calls, it holds after each of them.  The further
engines have relayed what is in the log: none of their own calls has failed, and they have asked
their oracles nothing.  As long as nothing fails, the counters of all engines are a recount of the
log, and the same but for the rotations of the first one. -/
theorem run_before_cascade (ks : List Stage) (o : ω) (recorder : Option ρ)
    (batches : List (List Command)) :
    let log : CommandLog := {}
    let plain := run ({ oracle := o, sink := some log, recorder } : Engine ω CommandLog ρ) batches
    let chained := run ({ oracle := o, sink := some (Cascade.fresh ks), recorder } :
      Engine ω (Cascade ks) ρ) batches
    ∃ cs t, Beside plain chained cs t ∧ Cascade.log? ks t = some ⟨cs⟩ ∧
      (∀ c, chained.state.availability c = plain.state.availability c) ∧
      (plain.error? = none → Cascade.stats ks t =
        List.replicate ks.length { plain.state.stats with rotations := 0, emitted := {} }) := by
  intro log plain chained
  have hfresh : Logged ({ oracle := o, sink := some log, recorder } : Engine ω CommandLog ρ) [] :=
    ⟨.fresh o (some log) recorder, rfl, rfl, rfl⟩
  obtain ⟨cs, t, hrun⟩ := hfresh.run (mirrors_fresh ks) batches
  change Beside plain chained cs t at hrun
  refine ⟨cs, t, hrun, hrun.mirrors.log?_eq, fun c => ?_,
    fun hok => (hrun.logged hok).stats_cascade hrun.mirrors⟩
  have hplain : plain.state.availability c = true := by
    rw [availability, hrun.log]
    rfl
  have hchained : chained.state.availability c = true := by
    rw [availability, hrun.state]
    exact Cascade.getD_isAvailable t c
  rw [hplain, hchained]

/-- Two further engines, whose oracles have no word for any rotation.  The second call measures and
releases behind a word; the third one fails, and nothing of it reaches the cascade. -/
theorem run_before_cascade_two_stages :
    let mute : FunctionOracle := ⟨fun _ _ => .error (.sink "never asked")⟩
    let table : WordTable := {}
    let register : Register := {}
    let ks : List Stage := [⟨_, Register, inferInstance, inferInstance, mute, some register⟩,
      ⟨_, OutcomeLog, inferInstance, inferInstance, table, none⟩]
    let o : FunctionOracle := ⟨fun _ _ => .ok "TH"⟩
    let log : CommandLog := {}
    let half : Binary64 := ⟨0x3fe0000000000000⟩
    let batches : List (List Command) := [[⟨.allocate, [⟨0⟩, ⟨1⟩]⟩, .rz half ⟨0⟩],
      [.measureAll [⟨0⟩, ⟨1⟩], .deallocate ⟨1⟩], [.allocate ⟨1⟩, .deallocate ⟨7⟩]]
    let plain := run ({ oracle := o, sink := some log, recorder := none } :
      Engine FunctionOracle CommandLog OutcomeLog) batches
    let chained := run ({ oracle := o, sink := some (Cascade.fresh ks), recorder := none } :
      Engine FunctionOracle (Cascade ks) OutcomeLog) batches
    plain.error? = some (.counterUnderflow ⟨7⟩) ∧
      plain.state.sink = some ⟨[⟨.allocate, [⟨0⟩, ⟨1⟩]⟩, .fixed .h ⟨0⟩, .fixed .t ⟨0⟩,
        .measureAll [⟨0⟩, ⟨1⟩], .deallocate ⟨1⟩]⟩ ∧
      ∃ cs t, Beside plain chained cs t ∧ Cascade.log? ks t = some ⟨cs⟩ := by
  intro mute table register ks o log half batches plain chained
  obtain ⟨cs, t, hbeside, hlog, -⟩ :=
    run_before_cascade ks o (none : Option OutcomeLog) batches
  exact ⟨by decide, by decide, cs, t, hbeside, hlog⟩

end Engine

end CliffordT
