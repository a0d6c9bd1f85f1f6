import CliffordT.Proofs.WholeBatch

/-!
# Sinks that refuse

A classified batch is sent command by command, and the first refusal of the sink ends it.

* `Engine.Accounted` : what is counted when `n` commands of a stream are accepted;
* `Engine.SentInFull`, `Engine.SentUpTo` : a batch that is sent in full, and one that is not;
* `Engine.process_sends_up_to_refusal` : with an empty queue, every classified batch is one or the
  other, whatever the sink does.
-/

namespace CliffordT

namespace Engine

open Outcome (forEach)

variable {ω σ ρ : Type} [Oracle ω] [Sink σ] [Recorder ρ] {e : Engine ω σ ρ} {s : σ}
  {batch : List Command}

omit [Sink σ] in
/-- `e'` has counted `n` commands of the stream of the parts `ps` as sent, each gate of a word for
the alphabet too.  Everything else is as classification of the whole batch left it: in an engine
that keeps its register, as every reachable one does, the whole batch is taken in. -/
structure Accounted (e : Engine ω σ ρ) (batch : List Command) (ps : List Part) (n : Nat)
    (e' : Engine ω σ ρ) : Prop where
  forwarded : e'.stats.forwarded = e.stats.forwarded + n
  emitted : ∀ g, e'.stats.emitted.count g =
    e.stats.emitted.count g + (((Part.stream ps).take n).filterMap (·.gate?)).count g
  intake : SameIntake (forEach classify e batch).state e'
  takenIn : Registered e → TakenIn e batch e'

/-- The sink accepts the whole stream of the parts `ps`, and the batch succeeds. -/
structure SentInFull (e : Engine ω σ ρ) (s : σ) (batch : List Command) (ps : List Part)
    (o : Outcome (Engine ω σ ρ)) : Prop where
  accepts : (Sink.sendAll s (ps.flatMap Part.commands)).error? = none
  ok : o.error? = none
  sink : o.state.sink = some (Sink.sendAll s (ps.flatMap Part.commands)).state
  pending : o.state.pending = []
  accounted : Accounted e batch ps (ps.flatMap Part.commands).length o.state

/-- The sink accepts `n` commands of the stream of the parts `ps` and refuses the next one, `c`,
which belongs to the `k`-th command of the batch. -/
structure SentUpTo (e : Engine ω σ ρ) (s : σ) (batch : List Command) (ps : List Part) (n k : Nat)
    (c : Command) (err : PipelineError) (o : Outcome (Engine ω σ ρ)) : Prop where
  refuses : Sink.Refuses s (ps.flatMap Part.commands) n c err
  /-- The fault is that of the sink. -/
  error : o.error? = some err
  /-- The sink is as the refusal left it: nothing is sent behind `c`. -/
  sink : o.state.sink =
    some (Sink.send (Sink.sendAll s ((ps.flatMap Part.commands).take n)).state c).state
  /-- The parts before the `k`-th one are sent in full. -/
  before : ((ps.take k).flatMap Part.commands).length ≤ n
  /-- The `k`-th one is not. -/
  within : n < ((ps.take (k + 1)).flatMap Part.commands).length
  /-- The words of the rotations behind it wait, and no others. -/
  waits : Rewrites (batch.drop (k + 1)) o.state.pending (ps.drop (k + 1))
  accounted : Accounted e batch ps n o.state

omit [Sink σ] in
theorem accounted_sent {ps : List Part} {n : Nat} (s' : σ) (ws : List Word)
    (h : (forEach classify e batch).error? = none) (hn : n ≤ (Part.stream ps).length) :
    Accounted e batch ps n
      { (forEach classify e batch).state.sent s' ((Part.stream ps).take n) with
        pending := ws } := by
  have houtput := sameOutput_classifyAll e batch
  have hsame : SameIntake (forEach classify e batch).state
      { (forEach classify e batch).state.sent s' ((Part.stream ps).take n) with pending := ws } :=
    ⟨rfl, rfl, rfl, rfl, rfl, rfl, rfl⟩
  refine ⟨?_, ?_, hsame, fun hregistered => (hregistered.takenIn_classifyAll h).congr hsame⟩
  · show (forEach classify e batch).state.stats.forwarded + _ = _
    rw [houtput.forwarded, List.length_take, Nat.min_eq_left hn]
  · intro g
    show ((forEach classify e batch).state.stats.emitted.bumpAll _).count g = _
    rw [Tally.count_bumpAll, houtput.emitted]

/-- **A classified batch is sent up to the first refusal.**  Its stream is what the oracle makes of
its rotations.  Either the sink accepts all of it, or the batch ends with the first command that is
refused. -/
theorem process_sends_up_to_refusal (hs : e.sink = some s) (hp : e.pending = [])
    (h : (forEach classify e batch).error? = none) :
    ∃ ws ps, Oracle.words e.oracle (batch.filterMap Command.question?) = .ok ws ∧
      Rewrites batch ws ps ∧
      (SentInFull e s batch ps (e.process batch) ∨
        ∃ n k c err, SentUpTo e s batch ps n k c err (e.process batch)) := by
  obtain ⟨ws, ps, hws, hps, herror, hstate⟩ := process_rewrites_of_nil hs hp h
  have hstream := Part.length_stream ps
  refine ⟨ws, ps, hws, hps, ?_⟩
  cases hsend : (Sink.sendAll s (ps.flatMap Part.commands)).error? with
  | none =>
    have hn := Sink.accepted_of_ok hsend
    refine .inl ⟨hsend, herror.trans hsend, by rw [hstate]; rfl, ?_, ?_⟩
    · rw [hstate]
      exact Part.waiting_accepted hsend
    · rw [hstate, hn]
      exact accounted_sent _ _ h (by omega)
  | some err =>
    obtain ⟨c, hrefuses, hsink⟩ := Sink.exists_refuses hsend
    have hlt := Sink.accepted_lt hsend
    rw [← hstream] at hlt
    -- the refused command belongs to the `k`-th part, and the words of the parts behind it wait
    obtain ⟨k, -, hbefore, hwithin, hwaits⟩ := Part.exists_waiting hlt
    rw [Part.length_stream] at hbefore hwithin
    refine .inr ⟨_, k, c, err, hrefuses, herror.trans hsend, ?_, hbefore, hwithin, ?_, ?_⟩
    · rw [hstate, ← hsink]
      rfl
    · rw [hstate]
      show Rewrites _ (Part.waiting ps _) _
      rw [hwaits]
      exact hps.drop (k + 1)
    · rw [hstate]
      exact accounted_sent _ _ h (by omega)

/-- A sink that refuses a gate in the middle of a word: the word of the second rotation is gone, and
that of the third one waits. -/
theorem process_sends_up_to_refusal_within_word :
    let o : FunctionOracle := ⟨fun axis _ => .ok (if axis = .z then "THSX" else "TH")⟩
    let s : ScriptedSink := { refusals := [(4, .sink "full")] }
    let e : Engine FunctionOracle ScriptedSink OutcomeLog := { oracle := o, sink := some s }
    let half : Binary64 := ⟨0x3fe0000000000000⟩
    let batch : List Command :=
      [.allocate ⟨0⟩, .rx half ⟨0⟩, .rz half ⟨0⟩, .measure ⟨0⟩, .ry half ⟨0⟩]
    (e.process batch).error? = some (.sink "full") ∧
      (e.process batch).state.pending = [⟨[.h, .t]⟩] ∧
      ∃ ws ps, Oracle.words e.oracle (batch.filterMap Command.question?) = .ok ws ∧
        Rewrites batch ws ps ∧
        (SentInFull e s batch ps (e.process batch) ∨
          ∃ n k c err, SentUpTo e s batch ps n k c err (e.process batch)) := by
  intro o s e half batch
  exact ⟨by decide, by decide, process_sends_up_to_refusal rfl rfl (by decide)⟩

end Engine

end CliffordT
