import CliffordT.Proofs.BatchBoundaries
import CliffordT.Proofs.Parts

/-!
# Taps

A tap in front of a sink writes down the commands that the sink accepts.

* `Tap.sendAll_eq` : it writes down exactly those before the first refusal;
* `Engine.process_mapSink` : an engine does the same before a sink that does the same;
* `Engine.run_tapped` : so nobody notices a tap.
-/

namespace CliffordT

open Outcome (forEach)

/-- A sink with the commands that it has accepted, in order. -/
structure Tap (σ : Type) where
  sink : σ
  accepted : List Command := []

namespace Tap

variable {σ : Type} [Sink σ]

instance : Sink (Tap σ) where
  send t c := (Sink.send t.sink c).map fun s =>
    ⟨s, if (Sink.send t.sink c).isOk then t.accepted ++ [c] else t.accepted⟩
  isAvailable t c := Sink.isAvailable t.sink c

variable {t : Tap σ} {c : Command}

theorem send_of_ok (h : (Sink.send t.sink c).error? = none) :
    (Sink.send t c).error? = none ∧
      (Sink.send t c).state = ⟨(Sink.send t.sink c).state, t.accepted ++ [c]⟩ := by
  refine ⟨h, ?_⟩
  show (⟨_, if _ then _ else _⟩ : Tap σ) = _
  rw [if_pos (Outcome.isOk_iff.2 h)]

theorem send_of_error {err : PipelineError} (h : (Sink.send t.sink c).error? = some err) :
    (Sink.send t c).error? = some err ∧
      (Sink.send t c).state = ⟨(Sink.send t.sink c).state, t.accepted⟩ := by
  refine ⟨h, ?_⟩
  show (⟨_, if _ then _ else _⟩ : Tap σ) = _
  rw [if_neg (by simp [Outcome.isOk, h])]

/-- A tap writes down the commands before the first refusal. -/
theorem sendAll_eq (t : Tap σ) (cs : List Command) :
    (Sink.sendAll t cs).error? = (Sink.sendAll t.sink cs).error? ∧
      (Sink.sendAll t cs).state = ⟨(Sink.sendAll t.sink cs).state,
        t.accepted ++ cs.take (Sink.accepted t.sink cs)⟩ := by
  induction cs generalizing t with
  | nil => simp
  | cons c cs ih =>
    rw [Sink.sendAll_cons, Sink.sendAll_cons]
    cases h : (Sink.send t.sink c).error? with
    | some err =>
      obtain ⟨herror, hstate⟩ := send_of_error h
      rw [Outcome.andThen_of_error herror, Outcome.andThen_of_error h, herror, hstate, h,
        Sink.accepted_cons_of_error h]
      simp
    | none =>
      obtain ⟨herror, hstate⟩ := send_of_ok h
      obtain ⟨ierror, istate⟩ := ih (Sink.send t c).state
      rw [Outcome.error?_andThen herror, Outcome.state_andThen herror, Outcome.error?_andThen h,
        Outcome.state_andThen h, ierror, istate, hstate, Sink.accepted_cons_of_ok h]
      simp

theorem accepted_eq (t : Tap σ) (cs : List Command) :
    Sink.accepted t cs = Sink.accepted t.sink cs := by
  induction cs generalizing t with
  | nil => rfl
  | cons c cs ih =>
    cases h : (Sink.send t.sink c).error? with
    | some err =>
      rw [Sink.accepted_cons_of_error h, Sink.accepted_cons_of_error (send_of_error h).1]
    | none =>
      rw [Sink.accepted_cons_of_ok h, Sink.accepted_cons_of_ok (send_of_ok h).1, ih,
        (send_of_ok h).2]

end Tap

/-! ### Engines before a tap -/

namespace Engine

variable {ω σ σ' ρ : Type} [Sink σ] [Sink σ'] {r : σ → σ'}

omit [Sink σ] [Sink σ'] in
/-- The engine before the sink that `r` makes of its own. -/
def mapSink (r : σ → σ') (e : Engine ω σ ρ) : Engine ω σ' ρ := e.withSink (e.sink.map r)

section MapSink

variable (hr : ∀ s c, Sink.send (r s) c = (Sink.send s c).map r)

include hr

/-- An engine does the same before a sink that does the same. -/
theorem process_mapSink [Oracle ω] [Recorder ρ] (e : Engine ω σ ρ) (batch : List Command) :
    (mapSink r e).process batch = (e.process batch).map (mapSink r) :=
  process_mapParts e (.of_send hr) batch

theorem run_mapSink [Oracle ω] [Recorder ρ] (e : Engine ω σ ρ) (batches : List (List Command)) :
    (mapSink r e).run batches = (e.run batches).map (mapSink r) :=
  Outcome.forEach_map_state (fun e batch => process_mapSink hr e batch) e batches

end MapSink

omit [Sink σ] in
/-- The engine with a tap before its sink, if there is one. -/
def tapped (e : Engine ω σ ρ) : Engine ω (Tap σ) ρ := e.withSink (e.sink.map fun s => { sink := s })

/-- Nobody notices a tap. -/
theorem run_tapped [Oracle ω] [Recorder ρ] (e : Engine ω σ ρ) (batches : List (List Command)) :
    e.run batches = (e.tapped.run batches).map (mapSink Tap.sink) := by
  have htapped : mapSink Tap.sink e.tapped = e := by
    obtain ⟨oracle, sink, recorder, pending, live, stats⟩ := e
    cases sink <;> rfl
  rw [← run_mapSink (fun _ _ => rfl), htapped]

end Engine

end CliffordT
