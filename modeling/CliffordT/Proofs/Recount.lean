import CliffordT.Proofs.RegisterEvents

/-!
# Recounting commands

What an engine knows of the register and of the measurements can be counted again from the commands
that it has classified.

* `RegisterEvent.AllFit` : requests that are all in order, one after the other;
* `RegisterEvent.peak` : the most handles that are claimed at once while requests are worked off;
* `Engine.Registered.classify_ok_iff` : a command that is no rotation is classified if and only if
  its requests are in order, whatever else the engine has been through;
* `Engine.Recounted` : the register, the width and the measurements are those of some commands,
  which classification preserves as long as it succeeds (`Engine.Recounted.classifyAll`);
* `Rewrites.registerEvents_eq`, `Rewrites.measured_eq` : what becomes of commands when they are
  forwarded counts as they do.
-/

namespace CliffordT

open Outcome (forEach)

/-! ### Requests -/

namespace RegisterEvent

/-- Each request is in order when it is due. -/
def AllFit (live : List Qubit) : List RegisterEvent → Prop
  | [] => True
  | v :: vs => v.Fits live ∧ AllFit (v.apply live) vs

/-- The most handles that are claimed at once while some requests are worked off, the moments before
the first one and between any two of them included. -/
def peak (live : List Qubit) : List RegisterEvent → Nat
  | [] => live.length
  | v :: vs => max live.length (peak (v.apply live) vs)

variable {live : List Qubit} {vs : List RegisterEvent}

theorem allFit_append_iff {ws : List RegisterEvent} :
    AllFit live (vs ++ ws) ↔ AllFit live vs ∧ AllFit (liveAfter live vs) ws := by
  induction vs generalizing live with
  | nil => simp [AllFit]
  | cons v vs ih => simp [AllFit, ih, and_assoc]

theorem length_le_peak (live : List Qubit) (vs : List RegisterEvent) :
    live.length ≤ peak live vs := by
  cases vs with
  | nil => exact Nat.le_refl _
  | cons v vs => exact Nat.le_max_left _ _

theorem length_liveAfter_le_peak (live : List Qubit) (vs : List RegisterEvent) :
    (liveAfter live vs).length ≤ peak live vs := by
  induction vs generalizing live with
  | nil => exact Nat.le_refl _
  | cons v vs ih => exact Nat.le_trans (ih (v.apply live)) (Nat.le_max_right _ _)

theorem peak_append (live : List Qubit) (vs ws : List RegisterEvent) :
    peak live (vs ++ ws) = max (peak live vs) (peak (liveAfter live vs) ws) := by
  induction vs generalizing live with
  | nil => exact (Nat.max_eq_right (length_le_peak live ws)).symm
  | cons v vs ih =>
    rw [List.cons_append, peak, peak, ih, ← Nat.max_assoc]
    rfl

theorem peak_claims {qs : List Qubit} (h : AllFit live (qs.map claim)) :
    peak live (qs.map claim) = live.length + qs.length := by
  induction qs generalizing live with
  | nil => rfl
  | cons q qs ih =>
    obtain ⟨hq, hqs⟩ := h
    have hlength : ((claim q).apply live).length = live.length + 1 :=
      List.length_insert_of_not_mem hq
    rw [List.map_cons, peak, ih hqs, hlength, List.length_cons]
    omega

theorem peak_releases (live : List Qubit) (qs : List Qubit) :
    peak live (qs.map release) = live.length := by
  induction qs generalizing live with
  | nil => rfl
  | cons q qs ih =>
    have hlength : ((release q).apply live).length ≤ live.length := List.length_erase_le
    rw [List.map_cons, peak, ih]
    exact Nat.max_eq_left hlength

end RegisterEvent

open RegisterEvent (AllFit liveAfter peak)

/-- The qubits that a command measures, once for each target. -/
def Command.measured (c : Command) : List Qubit :=
  match c.gate with
  | .measure => c.targets
  | _ => []

namespace Engine

variable {ω σ ρ : Type} {e : Engine ω σ ρ} {vs : List RegisterEvent} {c : Command}
  {cs : List Command}

theorem Registered.requests_ok_iff (h : Registered e) :
    (forEach Engine.request e vs).error? = none ↔ AllFit e.live vs := by
  induction vs generalizing e with
  | nil => simp [AllFit]
  | cons v vs ih =>
    rw [Outcome.forEach_cons, AllFit]
    by_cases hv : v.Fits e.live
    · have hgranted := h.request v
      rw [h.request_of_fits hv, Outcome.state_done] at hgranted
      rw [h.request_of_fits hv, Outcome.done_andThen, ih hgranted, h.live_granted hv]
      simp [hv]
    · rw [request_of_not_fits hv, Outcome.fail_andThen]
      simp [hv]

section Classify

variable [Oracle ω] [Recorder ρ]

theorem requests_ok_of_classify_ok (h : (e.classify c).error? = none) :
    (forEach request e c.registerEvents).error? = none := by
  cases hrequests : (forEach request e c.registerEvents).error? with
  | none => rfl
  | some err =>
    rw [classify_of_refused hrequests, hrequests] at h
    cases h

theorem classify_ok_iff_of_plain (hc : c.gate.isRotation = false) :
    (e.classify c).error? = none ↔ (forEach request e c.registerEvents).error? = none := by
  refine ⟨requests_ok_of_classify_ok, fun h => ?_⟩
  obtain ⟨gate, targets⟩ := c
  cases gate with
  | allocate =>
    rw [requests_allocate] at h
    rw [classify, Outcome.error?_andThen h]
    rfl
  | deallocate =>
    rw [requests_deallocate] at h
    exact h
  | measure =>
    simp only [classify, measure]
    split <;> rfl
  | rotation axis angle => cases hc
  | _ => rfl

/-- Of a command that is no rotation only the requests matter, and for them only what is claimed. -/
theorem Registered.classify_ok_iff (h : Registered e) (hc : c.gate.isRotation = false) :
    (e.classify c).error? = none ↔ AllFit e.live c.registerEvents :=
  (classify_ok_iff_of_plain hc).trans h.requests_ok_iff

theorem accepted_of_classify_ok (h : (e.classify c).error? = none) :
    e.accepted c = c.registerEvents :=
  Outcome.passed_of_ok (requests_ok_of_classify_ok h)

/-! ### Counters -/

/-- A classified command takes the most handles that are claimed meanwhile into the width, and
counts what it measures. -/
theorem Registered.counters_classify (h : Registered e)
    (hwidth : e.live.length ≤ e.stats.maxWidth) (hok : (e.classify c).error? = none) :
    (e.classify c).state.stats.maxWidth = max e.stats.maxWidth (peak e.live c.registerEvents) ∧
      (e.classify c).state.stats.measurements = e.stats.measurements + c.measured.length := by
  -- the width is at least what is live, so a command that claims nothing keeps it
  have hkeep : e.stats.maxWidth = max e.stats.maxWidth e.live.length :=
    (Nat.max_eq_left hwidth).symm
  have hrequests := requests_ok_of_classify_ok hok
  have hfit := h.requests_ok_iff.1 hrequests
  obtain ⟨gate, targets⟩ := c
  cases gate with
  | allocate =>
    rw [requests_allocate] at hrequests
    rw [Engine.classify, Outcome.state_andThen hrequests, (claimAll_of_ok hrequests).1,
      Command.registerEvents, RegisterEvent.peak_claims hfit, ← h.count]
    exact ⟨rfl, rfl⟩
  | deallocate =>
    rw [requests_deallocate] at hrequests
    rw [Engine.classify, (releaseAll_of_ok h hrequests).1, Command.registerEvents,
      RegisterEvent.peak_releases]
    exact ⟨hkeep, rfl⟩
  | measure =>
    simp only [Engine.classify, measure]
    split <;> exact ⟨hkeep, rfl⟩
  | rotation axis angle =>
    obtain ⟨axis, angle, q, w, hc, -⟩ := exists_of_classify_rotation rfl hok
    rw [hc, classify_rotation, state_synthesize]
    exact ⟨hkeep, rfl⟩
  | _ => exact ⟨hkeep, rfl⟩

/-! ### All commands so far -/

omit [Oracle ω] [Recorder ρ] in
/-- The register, the width and the measurements are those of the commands `cs`: the claimed
handles, the most handles that were claimed at once, and the measured targets. -/
structure Recounted (e : Engine ω σ ρ) (cs : List Command) : Prop extends
    RegisteredBy e (cs.flatMap Command.registerEvents) where
  maxWidth : e.stats.maxWidth = peak [] (cs.flatMap Command.registerEvents)
  measurements : e.stats.measurements = (cs.flatMap Command.measured).length

namespace Recounted

omit [Oracle ω] [Recorder ρ] in
theorem fresh (o : ω) (s : Option σ) (recorder : Option ρ) :
    Recounted ({ oracle := o, sink := s, recorder } : Engine ω σ ρ) [] :=
  ⟨⟨⟨.nil, rfl⟩, rfl⟩, rfl, rfl⟩

omit [Oracle ω] [Recorder ρ] in
theorem of_sameIntake {e' : Engine ω σ ρ} (h : Recounted e cs) (hsame : SameIntake e e') :
    Recounted e' cs :=
  ⟨h.toRegisteredBy.congr hsame.live hsame.activeQubits, hsame.maxWidth.trans h.maxWidth,
    hsame.measurements.trans h.measurements⟩

theorem classify (h : Recounted e cs) (hok : (e.classify c).error? = none) :
    Recounted (e.classify c).state (cs ++ [c]) := by
  have hregister := h.toRegisteredBy.classify c
  rw [accepted_of_classify_ok hok] at hregister
  have hwidth : e.live.length ≤ e.stats.maxWidth := by
    rw [h.live, h.maxWidth]
    exact RegisterEvent.length_liveAfter_le_peak _ _
  obtain ⟨hpeak, hmeasured⟩ := h.counters_classify hwidth hok
  refine ⟨?_, ?_, ?_⟩
  · rwa [List.flatMap_append, List.flatMap_singleton]
  · rw [hpeak, h.maxWidth, h.live, List.flatMap_append, List.flatMap_singleton,
      RegisterEvent.peak_append]
  · rw [hmeasured, h.measurements, List.flatMap_append, List.flatMap_singleton,
      List.length_append]

/-- Classified commands count, and their requests were in order. -/
theorem classifyAll {ds : List Command} (h : Recounted e cs)
    (hok : (forEach Engine.classify e ds).error? = none) :
    Recounted (forEach Engine.classify e ds).state (cs ++ ds) ∧
      AllFit e.live (ds.flatMap Command.registerEvents) := by
  induction ds generalizing e cs with
  | nil =>
    rw [List.append_nil]
    exact ⟨h, trivial⟩
  | cons d ds ih =>
    rw [Outcome.forEach_cons, Outcome.andThen_eq_none_iff] at hok
    have hfirst := h.classify hok.1
    obtain ⟨hrest, hfit⟩ := ih hfirst hok.2
    rw [Outcome.forEach_cons, Outcome.state_andThen hok.1, List.append_cons]
    refine ⟨hrest, ?_⟩
    rw [List.flatMap_cons, RegisterEvent.allFit_append_iff]
    refine ⟨h.requests_ok_iff.1 (requests_ok_of_classify_ok hok.1), ?_⟩
    rw [hfirst.live, List.flatMap_append, RegisterEvent.liveAfter_append, List.flatMap_singleton,
      ← h.live] at hfit
    exact hfit

end Recounted

end Classify

end Engine

/-! ### Forwarded commands -/

namespace Rewrites

variable {cs : List Command} {ws : List Word} {ps : List Part} {α : Type}

/-- What is read off neither rotations nor gates of the alphabet is the same for commands and for
their parts. -/
theorem flatMap_eq {f : Command → List α} (hfixed : ∀ g q, f (.fixed g q) = [])
    (hrotation : ∀ axis angle q, f (.rotation axis angle q) = []) (h : Rewrites cs ws ps) :
    (ps.flatMap Part.commands).flatMap f = cs.flatMap f := by
  induction h with
  | nil => rfl
  | plain hc h ih => exact congrArg (f _ ++ ·) ih
  | rotation axis angle q w h ih =>
    have hword : (w.toCommands q).flatMap f = [] := by
      simp [Word.toCommands, hfixed]
    rw [List.flatMap_cons, List.flatMap_append, ih, List.flatMap_cons, hrotation]
    exact congrArg (· ++ _) hword

/-- The parts put the same requests to the register. -/
theorem registerEvents_eq (h : Rewrites cs ws ps) :
    (ps.flatMap Part.commands).flatMap Command.registerEvents =
      cs.flatMap Command.registerEvents :=
  h.flatMap_eq (fun _ _ => rfl) fun _ _ _ => rfl

/-- The parts measure the same qubits. -/
theorem measured_eq (h : Rewrites cs ws ps) :
    (ps.flatMap Part.commands).flatMap Command.measured = cs.flatMap Command.measured :=
  h.flatMap_eq (fun _ _ => rfl) fun _ _ _ => rfl

end Rewrites

theorem Engine.Recounted.of_rewrites {ω σ ρ : Type} {e : Engine ω σ ρ} {cs ds : List Command}
    {ws : List Word} {ps : List Part} (h : Recounted e (cs ++ ds)) (hps : Rewrites ds ws ps) :
    Recounted e (cs ++ ps.flatMap Part.commands) := by
  obtain ⟨hregister, hwidth, hmeasured⟩ := h
  rw [List.flatMap_append, ← hps.registerEvents_eq, ← List.flatMap_append] at hregister hwidth
  rw [List.flatMap_append, ← hps.measured_eq, ← List.flatMap_append] at hmeasured
  exact ⟨hregister, hwidth, hmeasured⟩

end CliffordT
