import CliffordT.Proofs.Forwarding

/-!
# Whole batches

`Engine.process` is a first pass, and a second one if the first one succeeds and there is a sink.

* `Engine.process_of_error` : a batch that is not classified ends with the first pass;
* `Engine.process_rewrites` : a classified batch before a sink is sent as its parts, whose words are
  the oldest ones of the queue, stale ones included; `Engine.process_rewrites_of_nil` says so of an
  engine without stale ones;
* `Engine.SameIntake` : the second pass leaves alone what the first one keeps
  (`Engine.sameIntake_process`);
* `Engine.process_induction` : what both passes preserve, a batch preserves.
-/

namespace CliffordT

namespace Engine

open Outcome (forEach)

variable {ω σ ρ : Type}

/-! ### The parts of a batch -/

section Process

variable [Oracle ω] [Sink σ] [Recorder ρ] {e : Engine ω σ ρ} {s : σ} {batch : List Command}
  {err : PipelineError}

/-- A batch that is not classified ends with the first pass. -/
theorem process_of_error (h : (forEach classify e batch).error? = some err) :
    e.process batch = forEach classify e batch :=
  Outcome.andThen_of_error h _

theorem process_of_ok (h : (forEach classify e batch).error? = none) :
    (e.process batch).state = ((forEach classify e batch).state.forwardAll batch).state ∧
      (e.process batch).error? = ((forEach classify e batch).state.forwardAll batch).error? := by
  unfold process
  rw [Outcome.state_andThen h, Outcome.error?_andThen h, Outcome.state_andThen rfl,
    Outcome.error?_andThen rfl]
  exact ⟨rfl, rfl⟩

theorem classify_ok_of_process_ok (h : (e.process batch).error? = none) :
    (forEach classify e batch).error? = none :=
  (Outcome.andThen_eq_none_iff.1 h).1

omit [Oracle ω] [Recorder ρ] in
theorem forwardAll_of_none (hs : e.sink = none) (batch : List Command) :
    (e.forwardAll batch).state = { e with pending := [] } ∧
      (e.forwardAll batch).error? = none := by
  simp only [forwardAll, hs, dropPending]
  cases hp : e.pending with
  | nil =>
    obtain ⟨oracle, sink, recorder, pending, live, stats⟩ := e
    cases hs
    cases hp
    exact ⟨rfl, rfl⟩
  | cons w ws => exact ⟨rfl, rfl⟩

omit [Oracle ω] [Recorder ρ] in
theorem forwardAll_of_some (hs : e.sink = some s) (batch : List Command) :
    (e.forwardAll batch).state = (forEach forward e batch).state ∧
      (e.forwardAll batch).error? = (forEach forward e batch).error? := by
  simp only [forwardAll, hs]
  cases h : (forEach forward e batch).error? with
  | some err =>
    rw [Outcome.andThen_of_error h]
    exact ⟨rfl, h⟩
  | none =>
    rw [Outcome.state_andThen h, Outcome.error?_andThen h]
    exact ⟨rfl, rfl⟩

theorem process_of_terminal (hs : e.sink = none)
    (h : (forEach classify e batch).error? = none) :
    (e.process batch).state = { (forEach classify e batch).state with pending := [] } ∧
      (e.process batch).error? = none := by
  have hsink := (sameOutput_classifyAll e batch).sink.trans hs
  obtain ⟨hstate, herror⟩ := process_of_ok h
  obtain ⟨fstate, ferror⟩ := forwardAll_of_none hsink batch
  exact ⟨hstate.trans fstate, herror.trans ferror⟩

theorem process_of_sink (hs : e.sink = some s) (h : (forEach classify e batch).error? = none) :
    (e.process batch).state = (forEach forward (forEach classify e batch).state batch).state ∧
      (e.process batch).error? =
        (forEach forward (forEach classify e batch).state batch).error? := by
  have hsink := (sameOutput_classifyAll e batch).sink.trans hs
  obtain ⟨hstate, herror⟩ := process_of_ok h
  obtain ⟨fstate, ferror⟩ := forwardAll_of_some hsink batch
  exact ⟨hstate.trans fstate, herror.trans ferror⟩

omit [Sink σ] in
/-- A classified batch takes its words from the front of the queue, where stale ones may be, and
leaves as many behind. -/
theorem exists_rewrites_of_classifyAll (h : (forEach classify e batch).error? = none) :
    ∃ ps, Rewrites batch ((e.pending ++ e.found batch).take (rotationCount batch)) ps := by
  refine exists_rewrites (targets_of_classifyAll h) ?_
  rw [List.length_take, List.length_append, length_found h]
  omega

/-- A classified batch before a sink is sent as its parts, up to the first refusal. -/
theorem process_rewrites (hs : e.sink = some s) (h : (forEach classify e batch).error? = none)
    {ps : List Part}
    (hps : Rewrites batch ((e.pending ++ e.found batch).take (rotationCount batch)) ps) :
    (e.process batch).error? = (Sink.sendAll s (ps.flatMap Part.commands)).error? ∧
      (e.process batch).state =
        { (forEach classify e batch).state.sent (Sink.sendAll s (ps.flatMap Part.commands)).state
            ((Part.stream ps).take (Sink.accepted s (ps.flatMap Part.commands))) with
          pending := Part.waiting ps (Sink.accepted s (ps.flatMap Part.commands)) ++
            (e.pending ++ e.found batch).drop (rotationCount batch) } := by
  obtain ⟨hstate, herror⟩ := process_of_sink hs h
  have hsink := (sameOutput_classifyAll e batch).sink.trans hs
  obtain ⟨ferror, fstate⟩ := forward_rewrites hps hsink
    (by rw [pending_classifyAll, List.take_append_drop])
  exact ⟨herror.trans ferror, hstate.trans fstate⟩

/-- A classified batch whose parts are all accepted succeeds, and leaves in the queue what lies
behind the words that it has taken. -/
theorem process_of_accepted (hs : e.sink = some s) (h : (forEach classify e batch).error? = none)
    {ps : List Part}
    (hps : Rewrites batch ((e.pending ++ e.found batch).take (rotationCount batch)) ps)
    (hsend : (Sink.sendAll s (ps.flatMap Part.commands)).error? = none) :
    (e.process batch).state =
      { (forEach classify e batch).state.sent (Sink.sendAll s (ps.flatMap Part.commands)).state
          (Part.stream ps) with
        pending := (e.pending ++ e.found batch).drop (rotationCount batch) } := by
  obtain ⟨-, hstate⟩ := process_rewrites hs h hps
  rw [hstate, Part.waiting_accepted hsend, List.nil_append, Sink.accepted_of_ok hsend,
    ← Part.length_stream, List.take_length]

/-- With an empty queue the parts of a classified batch take the words that the oracle has for it,
and what is not sent of them is all that waits. -/
theorem process_rewrites_of_nil (hs : e.sink = some s) (hp : e.pending = [])
    (h : (forEach classify e batch).error? = none) :
    ∃ ws ps, Oracle.words e.oracle (batch.filterMap Command.question?) = .ok ws ∧
      Rewrites batch ws ps ∧
      (e.process batch).error? = (Sink.sendAll s (ps.flatMap Part.commands)).error? ∧
      (e.process batch).state =
        { (forEach classify e batch).state.sent (Sink.sendAll s (ps.flatMap Part.commands)).state
            ((Part.stream ps).take (Sink.accepted s (ps.flatMap Part.commands))) with
          pending := Part.waiting ps (Sink.accepted s (ps.flatMap Part.commands)) } := by
  obtain ⟨ps, hps⟩ := exists_rewrites_of_classifyAll h
  obtain ⟨herror, hstate⟩ := process_rewrites hs h hps
  have hlen := length_found h
  -- the words taken are those of the batch, and none is left behind them
  rw [hp, List.nil_append] at hps hstate
  rw [List.take_of_length_le (by omega)] at hps
  rw [List.drop_of_length_le (by omega), List.append_nil] at hstate
  exact ⟨e.found batch, ps, words_classifyAll h, hps, herror, hstate⟩

end Process

/-! ### What is preserved -/

/-- `e'` has everything of `e` but, perhaps, the sink, the queue and what is counted as sent. -/
structure SameIntake (e e' : Engine ω σ ρ) : Prop where
  oracle : e'.oracle = e.oracle
  recorder : e'.recorder = e.recorder
  live : e'.live = e.live
  activeQubits : e'.stats.activeQubits = e.stats.activeQubits
  maxWidth : e'.stats.maxWidth = e.stats.maxWidth
  rotations : e'.stats.rotations = e.stats.rotations
  measurements : e'.stats.measurements = e.stats.measurements

theorem SameIntake.refl (e : Engine ω σ ρ) : SameIntake e e := ⟨rfl, rfl, rfl, rfl, rfl, rfl, rfl⟩

theorem SameIntake.trans {e₀ e₁ e₂ : Engine ω σ ρ} (h : SameIntake e₀ e₁)
    (h' : SameIntake e₁ e₂) : SameIntake e₀ e₂ :=
  ⟨h'.oracle.trans h.oracle, h'.recorder.trans h.recorder, h'.live.trans h.live,
    h'.activeQubits.trans h.activeQubits, h'.maxWidth.trans h.maxWidth,
    h'.rotations.trans h.rotations, h'.measurements.trans h.measurements⟩

section Forward

variable [Sink σ]

theorem sameIntake_deliver (e : Engine ω σ ρ) (c : Command) :
    SameIntake e (e.deliver c).state := by
  unfold deliver
  cases e.sink with
  | none => exact .refl e
  | some s =>
    refine Outcome.andThen_induction (P := SameIntake e) ?_ fun h => ?_
    · exact ⟨rfl, rfl, rfl, rfl, rfl, rfl, rfl⟩
    · exact h.trans ⟨rfl, rfl, rfl, rfl, rfl, rfl, rfl⟩

theorem sameIntake_emit (q : Qubit) (e : Engine ω σ ρ) (g : FixedGate) :
    SameIntake e (e.emit q g).state := by
  unfold emit
  refine Outcome.andThen_induction (P := SameIntake e) (sameIntake_deliver e _) fun h => ?_
  exact h.trans ⟨rfl, rfl, rfl, rfl, rfl, rfl, rfl⟩

theorem sameIntake_forward (e : Engine ω σ ρ) (c : Command) :
    SameIntake e (e.forward c).state := by
  unfold forward
  split
  · cases e.pending with
    | nil => exact .refl e
    | cons w ws =>
      have hpop : SameIntake e { e with pending := ws } := ⟨rfl, rfl, rfl, rfl, rfl, rfl, rfl⟩
      dsimp only
      split
      · exact hpop
      · refine Outcome.forEach_induction (P := SameIntake e) (fun e' g h => ?_) hpop w.gates
        exact h.trans (sameIntake_emit _ e' g)
  · exact sameIntake_deliver e c

end Forward

/-- Whatever the result of a batch, the second pass over it changes nothing of what the first one
keeps. -/
theorem sameIntake_process [Oracle ω] [Sink σ] [Recorder ρ] (e : Engine ω σ ρ)
    (batch : List Command) :
    SameIntake (forEach classify e batch).state (e.process batch).state := by
  cases hok : (forEach classify e batch).error? with
  | some err =>
    rw [process_of_error hok]
    exact .refl _
  | none =>
    cases hs : e.sink with
    | none =>
      rw [(process_of_terminal hs hok).1]
      exact ⟨rfl, rfl, rfl, rfl, rfl, rfl, rfl⟩
    | some s =>
      rw [(process_of_sink hs hok).1]
      exact Outcome.forEach_induction (fun e c h => h.trans (sameIntake_forward e c)) (.refl _)
        batch

/-- What classification, forwarding and dropping words preserve, a batch preserves, whatever its
result. -/
theorem process_induction [Oracle ω] [Sink σ] [Recorder ρ] {P : Engine ω σ ρ → Prop}
    (hclassify : ∀ e c, P e → P (classify e c).state)
    (hforward : ∀ e c, P e → P (forward e c).state)
    (hdrop : ∀ e, P e → P { e with pending := [] }) {e : Engine ω σ ρ} (h : P e)
    (batch : List Command) : P (e.process batch).state := by
  have hfirst : P (forEach classify e batch).state := Outcome.forEach_induction hclassify h batch
  cases hok : (forEach classify e batch).error? with
  | some err =>
    rw [process_of_error hok]
    exact hfirst
  | none =>
    cases hs : e.sink with
    | none =>
      rw [(process_of_terminal hs hok).1]
      exact hdrop _ hfirst
    | some s =>
      rw [(process_of_sink hs hok).1]
      exact Outcome.forEach_induction hforward hfirst batch

end Engine

end CliffordT
