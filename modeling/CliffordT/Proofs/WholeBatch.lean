import CliffordT.Proofs.Measurements
import CliffordT.Proofs.PeakWidth

/-!
# What a whole batch does to the intake

A batch that is classified is taken in as a whole, before anything of it is sent.  What it does to
the register, the counters, the recorder and the oracle can be read off its commands.

* `Engine.settledWidths` : how many handles are claimed at the end of each command that claims;
* `Engine.TakenIn` : the intake is that of another engine after a whole batch, field by field;
* `Engine.TakenIn.append` : one batch after another is both of them joined;
* `Engine.Registered.takenIn_classify`, `Engine.Registered.takenIn_classifyAll` : a command that is
  classified is taken in, and so is a batch.
-/

namespace CliffordT

open Outcome (forEach)
open RegisterEvent (liveAfter)

namespace Engine

variable {ω σ ρ : Type} {e e' e'' : Engine ω σ ρ} {c : Command} {cs ds : List Command}

/-- How many handles are claimed at the end of each command that claims, if the handles `live` are
claimed first and all requests are granted. -/
def settledWidths (live : List Qubit) : List Command → List Nat
  | [] => []
  | c :: cs =>
    (if c.gate = .allocate then [(liveAfter live c.registerEvents).length] else []) ++
      settledWidths (liveAfter live c.registerEvents) cs

theorem settledWidths_append (live : List Qubit) (cs ds : List Command) :
    settledWidths live (cs ++ ds) = settledWidths live cs ++
      settledWidths (liveAfter live (cs.flatMap Command.registerEvents)) ds := by
  induction cs generalizing live with
  | nil => rfl
  | cons c cs ih =>
    rw [List.cons_append, settledWidths, ih, settledWidths, List.append_assoc, List.flatMap_cons,
      RegisterEvent.liveAfter_append]

variable [Oracle ω] [Recorder ρ]

/-- What `e'` knows of its commands is what `e` knows of them after the whole of `batch`. -/
structure TakenIn (e : Engine ω σ ρ) (batch : List Command) (e' : Engine ω σ ρ) : Prop where
  live : e'.live = liveAfter e.live (batch.flatMap Command.registerEvents)
  activeQubits : e'.stats.activeQubits = e'.live.length
  /-- The width is taken when a command has claimed all of its targets. -/
  maxWidth : e'.stats.maxWidth = max e.stats.maxWidth (largest (settledWidths e.live batch))
  rotations : e'.stats.rotations = e.stats.rotations + rotationCount batch
  measurements :
    e'.stats.measurements = e.stats.measurements + (batch.flatMap Command.measured).length
  recorder : e'.recorder =
    e.recorder.map (Recorder.recordAll · (batch.flatMap Command.measured))
  oracle : e'.oracle = Oracle.after e.oracle (batch.filterMap Command.question?)

namespace TakenIn

theorem nil (h : Registered e) : TakenIn e [] e where
  live := rfl
  activeQubits := h.count
  maxWidth := (Nat.max_zero _).symm
  rotations := rfl
  measurements := rfl
  recorder := by cases e.recorder <;> rfl
  oracle := (Oracle.after_nil _).symm

/-- One batch after another is both of them joined. -/
theorem append (h : TakenIn e cs e') (h' : TakenIn e' ds e'') : TakenIn e (cs ++ ds) e'' where
  live := by rw [h'.live, h.live, List.flatMap_append, RegisterEvent.liveAfter_append]
  activeQubits := h'.activeQubits
  maxWidth := by
    rw [h'.maxWidth, h.maxWidth, h.live, settledWidths_append, largest_append, Nat.max_assoc]
  rotations := by rw [h'.rotations, h.rotations, rotationCount_append, Nat.add_assoc]
  measurements := by
    rw [h'.measurements, h.measurements, List.flatMap_append, List.length_append, Nat.add_assoc]
  recorder := by
    rw [h'.recorder, h.recorder, Option.map_map, List.flatMap_append]
    exact Option.map_congr fun r _ => (Recorder.recordAll_append r _ _).symm
  oracle := by rw [h'.oracle, h.oracle, List.filterMap_append, Oracle.after_append]

theorem congr (h : TakenIn e cs e') (hsame : SameIntake e' e'') : TakenIn e cs e'' where
  live := hsame.live.trans h.live
  activeQubits := by rw [hsame.activeQubits, h.activeQubits, hsame.live]
  maxWidth := hsame.maxWidth.trans h.maxWidth
  rotations := hsame.rotations.trans h.rotations
  measurements := hsame.measurements.trans h.measurements
  recorder := hsame.recorder.trans h.recorder
  oracle := hsame.oracle.trans h.oracle

end TakenIn

omit [Oracle ω] [Recorder ρ] in
theorem Registered.live_requests (h : Registered e) {vs : List RegisterEvent}
    (hok : (forEach Engine.request e vs).error? = none) :
    (forEach Engine.request e vs).state.live = liveAfter e.live vs := by
  induction vs generalizing e with
  | nil => rfl
  | cons v vs ih =>
    obtain ⟨hv, -⟩ := h.requests_ok_iff.1 hok
    have hgranted := h.request v
    rw [h.request_of_fits hv, Outcome.state_done] at hgranted
    rw [Outcome.forEach_cons, h.request_of_fits hv, Outcome.done_andThen] at hok ⊢
    rw [ih hgranted hok, h.live_granted hv, RegisterEvent.liveAfter_cons]

theorem length_question_of_ok (hok : (e.classify c).error? = none) :
    c.question?.toList.length = rotationCount [c] := by
  cases hc : c.gate.isRotation with
  | true =>
    obtain ⟨axis, angle, q, w, rfl, -⟩ := exists_of_classify_rotation hc hok
    rfl
  | false =>
    rw [Command.question?_of_plain hc, rotationCount_cons_of_plain hc]
    rfl

/-- A command that is classified is taken in. -/
theorem Registered.takenIn_classify (h : Registered e) (hok : (e.classify c).error? = none) :
    TakenIn e [c] (e.classify c).state := by
  have hlive : (e.classify c).state.live = liveAfter e.live c.registerEvents :=
    (register_classify e c).1.trans (h.live_requests (requests_ok_of_classify_ok hok))
  obtain ⟨hrecorder, hmeasured⟩ := measured_classify e c
  constructor
  case live => rw [hlive, List.flatMap_singleton]
  case activeQubits => exact (h.classify c).count
  case maxWidth =>
    -- only an allocation that succeeds settles a width
    rw [h.maxWidth_classify c, settledWidths, settledWidths, List.append_nil, ← hlive]
    congr 2
    by_cases hc : c.gate = .allocate
    · rw [if_pos hc, Visit.settled?, if_pos ⟨hc, Outcome.isOk_iff.2 hok⟩]
      rfl
    · rw [if_neg hc, Visit.settled?, if_neg fun hclaims => hc hclaims.1]
      rfl
  case rotations => rw [rotations_classify, length_question_of_ok hok]
  case measurements => rw [hmeasured, List.flatMap_singleton]
  case recorder => rw [hrecorder, List.flatMap_singleton]
  case oracle =>
    rw [(queue_classify e c).2]
    cases hc : c.question? <;> simp [hc]

/-- **A batch that is classified is taken in as a whole.** -/
theorem Registered.takenIn_classifyAll (h : Registered e)
    (hok : (forEach Engine.classify e cs).error? = none) :
    TakenIn e cs (forEach Engine.classify e cs).state := by
  induction cs generalizing e with
  | nil => exact .nil h
  | cons c cs ih =>
    rw [Outcome.forEach_cons, Outcome.andThen_eq_none_iff] at hok
    rw [Outcome.forEach_cons, Outcome.state_andThen hok.1]
    exact (h.takenIn_classify hok.1).append (ih (h.classify c) hok.2)

end Engine

end CliffordT
