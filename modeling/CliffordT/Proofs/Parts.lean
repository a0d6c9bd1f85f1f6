import CliffordT.Pipeline.Chain
import CliffordT.Proofs.Uses

/-!
# Engines with other parts

An engine works with its oracle and its sink only through what they answer.

* `SameParts` : functions that make oracles and sinks of others which do the same;
* `Engine.mapParts` : an engine with what the functions make of its oracle and its sink;
* `Engine.process_mapParts`, `Engine.afterUses_mapParts` : it does the same, whatever it is used
  for, and classification comes to the same commands (`Engine.visits_mapParts`).
-/

namespace CliffordT

open Outcome (forEach)

variable {ω ω' σ σ' ρ : Type}

/-- The oracles and the sinks that the functions make do what those do of which they are made. -/
structure SameParts [Oracle ω] [Oracle ω'] [Sink σ] [Sink σ'] (fo : ω → ω') (fs : σ → σ') :
    Prop where
  name : ∀ o, Oracle.name (fo o) = Oracle.name o
  synthesize : ∀ o axis angle,
    Oracle.synthesize (fo o) axis angle = (Oracle.synthesize o axis angle).map fo
  send : ∀ s c, Sink.send (fs s) c = (Sink.send s c).map fs

theorem SameParts.of_send [Oracle ω] [Sink σ] [Sink σ'] {fs : σ → σ'}
    (h : ∀ s c, Sink.send (fs s) c = (Sink.send s c).map fs) : SameParts (id : ω → ω) fs :=
  ⟨fun _ => rfl, fun _ _ _ => rfl, h⟩

namespace Engine

/-- The engine with what the functions make of its oracle and its sink. -/
def mapParts (fo : ω → ω') (fs : σ → σ') (e : Engine ω σ ρ) : Engine ω' σ' ρ where
  oracle := fo e.oracle
  sink := e.sink.map fs
  recorder := e.recorder
  pending := e.pending
  live := e.live
  stats := e.stats

variable {fo : ω → ω'} {fs : σ → σ'} (e : Engine ω σ ρ)

/-! ### Classification -/

theorem keepsRegister_mapParts : KeepsRegister (mapParts (ρ := ρ) fo fs) :=
  ⟨fun _ => rfl, fun _ => rfl, fun _ _ _ => rfl⟩

theorem measure_mapParts [Recorder ρ] (qs : List Qubit) :
    (mapParts fo fs e).measure qs = (e.measure qs).map (mapParts fo fs) := by
  have hrecorder : (mapParts fo fs e).recorder = e.recorder := rfl
  unfold measure
  dsimp only
  rw [hrecorder]
  cases e.recorder <;> rfl

variable [Oracle ω] [Oracle ω'] [Sink σ] [Sink σ'] (h : SameParts fo fs)

include h

theorem synthesize_mapParts (axis : Axis) (angle : Binary64) :
    (mapParts fo fs e).synthesize axis angle =
      (e.synthesize axis angle).map (mapParts fo fs) := by
  have horacle : (mapParts fo fs e).oracle = fo e.oracle := rfl
  unfold synthesize
  dsimp only
  rw [horacle, h.synthesize]
  obtain ⟨result, o, notices⟩ := Oracle.synthesize e.oracle axis angle
  cases result with
  | error err => rfl
  | ok raw =>
    dsimp only [Answer.map]
    rw [h.name]
    cases Word.ofOperatorText raw <;> rfl

theorem classify_mapParts [Recorder ρ] (c : Command) :
    (mapParts fo fs e).classify c = (e.classify c).map (mapParts fo fs) :=
  classify_map keepsRegister_mapParts (fun _ => rfl) (fun e => synthesize_mapParts e h)
    fun _ => measure_mapParts e c.targets

/-! ### Forwarding -/

theorem deliver_mapParts (c : Command) :
    (mapParts fo fs e).deliver c = (e.deliver c).map (mapParts fo fs) := by
  obtain ⟨oracle, sink, recorder, pending, live, stats⟩ := e
  cases sink with
  | none => rfl
  | some s =>
    simp only [deliver, mapParts, Option.map_some, h.send]
    obtain ⟨s', error?, notices⟩ := Sink.send s c
    cases error? <;> rfl

theorem emit_mapParts (q : Qubit) (g : FixedGate) :
    (mapParts fo fs e).emit q g = (e.emit q g).map (mapParts fo fs) := by
  have hbump : ∀ e : Engine ω σ ρ,
      Outcome.done { mapParts fo fs e with
        stats := { (mapParts fo fs e).stats with
          emitted := (mapParts fo fs e).stats.emitted.bump g } } =
      (Outcome.done { e with
        stats := { e.stats with emitted := e.stats.emitted.bump g } }).map (mapParts fo fs) :=
    fun _ => rfl
  unfold emit
  rw [deliver_mapParts e h]
  exact Outcome.map_andThen hbump _

theorem forward_mapParts (c : Command) :
    (mapParts fo fs e).forward c = (e.forward c).map (mapParts fo fs) := by
  unfold forward
  by_cases hc : c.gate.isRotation = true
  · rw [if_pos hc, if_pos hc]
    have hpending : (mapParts fo fs e).pending = e.pending := rfl
    rw [hpending]
    cases e.pending with
    | nil => rfl
    | cons word rest =>
      dsimp only
      cases c.qubit with
      | error cause => rfl
      | ok q =>
        exact Outcome.forEach_map_state (fun e g => emit_mapParts e h q g)
          { e with pending := rest } _
  · rw [if_neg hc, if_neg hc]
    exact deliver_mapParts e h c

theorem forwardAll_mapParts (batch : List Command) :
    (mapParts fo fs e).forwardAll batch = (e.forwardAll batch).map (mapParts fo fs) := by
  have hnote : ∀ e : Engine ω σ ρ,
      Outcome.note (mapParts fo fs e) (.forwarded (mapParts fo fs e).stats.forwarded) =
        (Outcome.note e (.forwarded e.stats.forwarded)).map (mapParts fo fs) := fun _ => rfl
  have hsink : (mapParts fo fs e).sink = e.sink.map fs := rfl
  unfold forwardAll
  rw [hsink]
  cases e.sink with
  | none =>
    obtain ⟨oracle, sink, recorder, pending, live, stats⟩ := e
    cases pending <;> rfl
  | some s =>
    dsimp only [Option.map_some]
    rw [Outcome.forEach_map_state fun e c => forward_mapParts e h c]
    exact Outcome.map_andThen hnote _

/-! ### Uses -/

variable [Recorder ρ]

/-- An engine does the same with parts that do the same. -/
theorem process_mapParts (batch : List Command) :
    (mapParts fo fs e).process batch = (e.process batch).map (mapParts fo fs) := by
  have hforward : ∀ e' : Engine ω σ ρ,
      (Outcome.note (mapParts fo fs e') (.classified batch.length
        ((mapParts fo fs e').stats.rotations - (mapParts fo fs e).stats.rotations))).andThen
          (fun e' => e'.forwardAll batch) =
      ((Outcome.note e' (.classified batch.length
        (e'.stats.rotations - e.stats.rotations))).andThen
          (fun e' => e'.forwardAll batch)).map (mapParts fo fs) :=
    fun e' => Outcome.map_andThen (r := mapParts fo fs) (fun e => forwardAll_mapParts e h batch)
      (.note e' (.classified batch.length (e'.stats.rotations - e.stats.rotations)))
  unfold process
  rw [Outcome.forEach_map_state fun e c => classify_mapParts e h c]
  exact Outcome.map_andThen hforward _

theorem use_mapParts (u : Use σ) :
    (mapParts fo fs e).use (u.map fs) = (e.use u).map (mapParts fo fs) := by
  cases u with
  | process batch => exact process_mapParts e h batch
  | setSink s => rfl

theorem useAll_mapParts (us : List (Use σ)) :
    forEach use (mapParts fo fs e) (us.map (Use.map fs)) =
      (forEach use e us).map (mapParts fo fs) := by
  rw [Outcome.forEach_map]
  exact Outcome.forEach_map_state (fun e u => use_mapParts e h u) e us

/-- After any uses, too, the parts are what the functions make of those of the other engine, and
everything else is the same. -/
theorem afterUses_mapParts (us : List (Use σ)) :
    (mapParts fo fs e).afterUses (us.map (Use.map fs)) = mapParts fo fs (e.afterUses us) := by
  induction us generalizing e with
  | nil => rfl
  | cons u us ih => rw [List.map_cons, afterUses_cons, use_mapParts e h, afterUses_cons, ← ih]; rfl

end Engine

/-! ### Visits -/

/-- The visit of the same command, with what the functions make of the parts of the engine. -/
def Visit.mapParts (fo : ω → ω') (fs : σ → σ') (v : Visit ω σ ρ) : Visit ω' σ' ρ :=
  ⟨v.engine.mapParts fo fs, v.command⟩

namespace Engine

variable [Oracle ω] [Oracle ω'] [Sink σ] [Sink σ'] [Recorder ρ] {fo : ω → ω'} {fs : σ → σ'}
  (e : Engine ω σ ρ) (h : SameParts fo fs)

include h

theorem visited_mapParts (cs : List Command) :
    (mapParts fo fs e).visited cs = (e.visited cs).map (Visit.mapParts fo fs) := by
  induction cs generalizing e with
  | nil => rfl
  | cons c cs ih =>
    have hc := classify_mapParts e h c
    cases herror : (e.classify c).error? with
    | some err =>
      have herror' : ((mapParts fo fs e).classify c).error? = some err := by rw [hc]; exact herror
      rw [visited, visited, Outcome.collect_cons_of_error herror,
        Outcome.collect_cons_of_error herror']
      rfl
    | none =>
      have herror' : ((mapParts fo fs e).classify c).error? = none := by rw [hc]; exact herror
      rw [visited, visited, Outcome.collect_cons_of_ok herror, Outcome.collect_cons_of_ok herror',
        hc, List.map_append]
      exact congrArg (_ :: ·) (ih (e.classify c).state)

/-- Classification comes to the same commands. -/
theorem visits_mapParts (us : List (Use σ)) :
    (mapParts fo fs e).visits (us.map (Use.map fs)) =
      (e.visits us).map (Visit.mapParts fo fs) := by
  induction us generalizing e with
  | nil => rfl
  | cons u us ih =>
    cases u with
    | process batch =>
      have hprocess := process_mapParts e h batch
      rw [List.map_cons, Use.map, visits, visits, history_process, history_process, hprocess,
        visited_mapParts e h, List.map_append]
      exact congrArg (_ ++ ·) (ih (e.process batch).state)
    | setSink s => exact ih (e.setSink s)

end Engine

end CliffordT
