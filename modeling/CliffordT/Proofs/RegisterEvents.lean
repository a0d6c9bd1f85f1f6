import CliffordT.Proofs.Register
import Mathlib.Data.List.Induction

/-!
# Requests to the register

Claiming a handle and releasing one are requests to the register of an engine.  A command makes one
for each of its targets, and classification stops at the first one that is not in order.

* `RegisterEvent.Fits`, `RegisterEvent.apply` : when a request is in order, and what it does then;
* `RegisterEvent.mem_liveAfter_iff` : a handle is claimed if the last request on it was a claim;
* `Engine.Registered.request_of_fits`, `Engine.request_of_not_fits` : an engine accepts a request if
  and only if it is in order;
* `Engine.acceptedAll` : the requests of a batch that are accepted, also where the batch stops in
  the middle of a command;
* `Engine.RegisteredBy` : the register is what the accepted requests make of an empty one, which
  classification and whole batches preserve.
-/

namespace CliffordT

open Outcome (forEach)

/-- A request to the register. -/
inductive RegisterEvent where
  /-- To claim a handle. -/
  | claim (q : Qubit)
  /-- To release a handle. -/
  | release (q : Qubit)
deriving DecidableEq

namespace RegisterEvent

/-- The handle that the request is about. -/
def qubit : RegisterEvent → Qubit
  | claim q => q
  | release q => q

/-- The request is in order when the handles `live` are claimed: a handle must be free to be
claimed, and claimed to be released. -/
def Fits (live : List Qubit) : RegisterEvent → Prop
  | claim q => q ∉ live
  | release q => q ∈ live

/-- The fault of a request that is not in order; it names the handle. -/
def fault : RegisterEvent → PipelineError
  | claim q => .doubleAllocation q
  | release q => .counterUnderflow q

/-- The claimed handles after the request. -/
def apply (live : List Qubit) : RegisterEvent → List Qubit
  | claim q => live.insert q
  | release q => live.erase q

/-- The claimed handles after some requests. -/
def liveAfter (live : List Qubit) (vs : List RegisterEvent) : List Qubit := vs.foldl apply live

/-- The last request on a handle. -/
def last? (q : Qubit) (vs : List RegisterEvent) : Option RegisterEvent :=
  (vs.filter fun v => v.qubit = q).getLast?

instance (live : List Qubit) (v : RegisterEvent) : Decidable (v.Fits live) := by
  cases v <;> unfold Fits <;> infer_instance

variable {live : List Qubit} {v : RegisterEvent} {vs ws : List RegisterEvent} {q : Qubit}

@[simp] theorem liveAfter_nil : liveAfter live [] = live := rfl

@[simp] theorem liveAfter_cons : liveAfter live (v :: vs) = liveAfter (v.apply live) vs := rfl

theorem liveAfter_append : liveAfter live (vs ++ ws) = liveAfter (liveAfter live vs) ws :=
  List.foldl_append

theorem nodup_apply (h : live.Nodup) (v : RegisterEvent) : (v.apply live).Nodup := by
  cases v with
  | claim q => exact h.insert
  | release q => exact h.erase q

theorem nodup_liveAfter (h : live.Nodup) (vs : List RegisterEvent) : (liveAfter live vs).Nodup := by
  induction vs generalizing live with
  | nil => exact h
  | cons v vs ih => exact ih (nodup_apply h v)

theorem last?_concat : last? q (vs ++ [v]) = if v.qubit = q then some v else last? q vs := by
  unfold last?
  rw [List.filter_append]
  by_cases h : v.qubit = q <;> simp [h]

/-- Beginning with no handle, a handle is claimed if and only if the last request on it was a
claim. -/
theorem mem_liveAfter_iff : q ∈ liveAfter [] vs ↔ last? q vs = some (claim q) := by
  -- the last event decides, so events are added at the end
  induction vs using List.reverseRecOn with
  | nil => simp [last?]
  | append_singleton vs v ih =>
    rw [liveAfter_append, last?_concat]
    cases v with
    | claim k =>
      by_cases hk : k = q
      · subst hk
        simp [apply, qubit]
      · rw [if_neg (show ¬ (claim k).qubit = q from hk), ← ih]
        simp [apply, Ne.symm hk]
    | release k =>
      rw [liveAfter_cons, liveAfter_nil, apply, (nodup_liveAfter .nil vs).mem_erase_iff, ih]
      by_cases hk : k = q
      · subst hk
        simp [qubit]
      · rw [if_neg (show ¬ (release k).qubit = q from hk)]
        simp [Ne.symm hk]

end RegisterEvent

open RegisterEvent (liveAfter)

/-- The requests of a command, in the order of its targets. -/
def Command.registerEvents (c : Command) : List RegisterEvent :=
  match c.gate with
  | .allocate => c.targets.map .claim
  | .deallocate => c.targets.map .release
  | _ => []

namespace Engine

variable {ω σ ρ : Type} {e : Engine ω σ ρ} {v : RegisterEvent} {vs ws : List RegisterEvent}
  {c : Command} {err : PipelineError}

/-! ### One request -/

/-- Put a request to the register. -/
def request (e : Engine ω σ ρ) : RegisterEvent → Outcome (Engine ω σ ρ)
  | .claim q => e.claim q
  | .release q => e.release q

/-- The engine when a request is granted. -/
def granted (e : Engine ω σ ρ) : RegisterEvent → Engine ω σ ρ
  | .claim q => e.claimed [q]
  | .release q => e.released [q]

theorem Registered.request (h : Registered e) (v : RegisterEvent) :
    Registered (e.request v).state := by
  cases v with
  | claim q => exact h.claim q
  | release q => exact h.release q

/-- A request that is in order is granted. -/
theorem Registered.request_of_fits (h : Registered e) (hv : v.Fits e.live) :
    e.request v = .done (e.granted v) := by
  cases v with
  | claim q => exact claim_of_not_mem hv
  | release q => exact h.release_of_mem hv

/-- A request that is not in order is refused, and changes nothing. -/
theorem request_of_not_fits (hv : ¬ v.Fits e.live) : e.request v = .fail e v.fault := by
  cases v with
  | claim q => exact claim_of_mem (Classical.not_not.1 hv)
  | release q => exact release_of_not_mem hv

theorem Registered.live_granted (h : Registered e) (hv : v.Fits e.live) :
    (e.granted v).live = v.apply e.live := by
  cases v with
  | claim q => exact (List.insert_of_not_mem hv).symm
  | release q => exact h.live_released q

/-! ### Commands -/

section Classify

variable [Oracle ω] [Recorder ρ]

omit [Oracle ω] [Recorder ρ] in
theorem requests_allocate (e : Engine ω σ ρ) (qs : List Qubit) :
    forEach request e (Command.registerEvents ⟨.allocate, qs⟩) = forEach claim e qs := by
  rw [Command.registerEvents, Outcome.forEach_map]
  rfl

omit [Oracle ω] [Recorder ρ] in
theorem requests_deallocate (e : Engine ω σ ρ) (qs : List Qubit) :
    forEach request e (Command.registerEvents ⟨.deallocate, qs⟩) = forEach release e qs := by
  rw [Command.registerEvents, Outcome.forEach_map]
  rfl

theorem classify_of_refused (h : (forEach request e c.registerEvents).error? = some err) :
    e.classify c = forEach request e c.registerEvents := by
  obtain ⟨gate, targets⟩ := c
  cases gate with
  | allocate =>
    rw [requests_allocate] at h ⊢
    rw [classify, Outcome.andThen_of_error h]
  | deallocate =>
    rw [requests_deallocate]
    rfl
  | _ => cases h

theorem register_classify (e : Engine ω σ ρ) (c : Command) :
    (e.classify c).state.live = (forEach request e c.registerEvents).state.live ∧
      (e.classify c).state.stats.activeQubits =
        (forEach request e c.registerEvents).state.stats.activeQubits := by
  -- a refused request stops the command where it stops the requests
  cases h : (forEach request e c.registerEvents).error? with
  | some err =>
    rw [classify_of_refused h]
    exact ⟨rfl, rfl⟩
  | none =>
    obtain ⟨gate, targets⟩ := c
    cases gate with
    | allocate =>
      rw [requests_allocate] at h ⊢
      rw [classify, Outcome.state_andThen h]
      exact ⟨rfl, rfl⟩
    | deallocate =>
      rw [requests_deallocate]
      exact ⟨rfl, rfl⟩
    | measure =>
      simp only [classify, measure]
      split <;> exact ⟨rfl, rfl⟩
    | rotation axis angle =>
      by_cases hlen : targets.length = 1
      · obtain ⟨q, rfl⟩ := List.length_eq_one_iff.1 hlen
        have hstate := state_synthesize e axis angle
        rw [← classify_rotation e axis angle q] at hstate
        change (e.classify (.rotation axis angle q)).state.live = e.live ∧
          (e.classify (.rotation axis angle q)).state.stats.activeQubits = e.stats.activeQubits
        rw [hstate]
        exact ⟨rfl, rfl⟩
      · rw [classify_rotation_of_targets e axis angle hlen]
        exact ⟨rfl, rfl⟩
    | _ => exact ⟨rfl, rfl⟩

/-! ### Accepted requests -/

omit [Oracle ω] [Recorder ρ] in
/-- The requests of a command that are accepted: those before the first one that is refused. -/
def accepted (e : Engine ω σ ρ) (c : Command) : List RegisterEvent :=
  Outcome.passed request e c.registerEvents

/-- The requests of some commands that are accepted, in order, up to the one that classification
stops at. -/
def acceptedAll (e : Engine ω σ ρ) (cs : List Command) : List RegisterEvent :=
  Outcome.collect classify accepted e cs

omit [Oracle ω] [Recorder ρ] in
/-- The register is what the requests `vs` make of an empty one. -/
structure RegisteredBy (e : Engine ω σ ρ) (vs : List RegisterEvent) : Prop extends
    Registered e where
  live : e.live = liveAfter [] vs

omit [Oracle ω] [Recorder ρ] in
theorem RegisteredBy.congr {e' : Engine ω σ ρ} (h : RegisteredBy e vs) (hlive : e'.live = e.live)
    (hcount : e'.stats.activeQubits = e.stats.activeQubits) : RegisteredBy e' vs :=
  ⟨h.toRegistered.congr hlive hcount, hlive.trans h.live⟩

omit [Oracle ω] [Recorder ρ] in
theorem RegisteredBy.request (h : RegisteredBy e vs) (v : RegisterEvent) :
    RegisteredBy (e.request v).state (vs ++ if (e.request v).isOk then [v] else []) := by
  refine ⟨h.toRegistered.request v, ?_⟩
  by_cases hv : v.Fits e.live
  · have hlive := h.live_granted hv
    rw [h.request_of_fits hv, RegisterEvent.liveAfter_append, ← h.live]
    exact hlive
  · rw [request_of_not_fits hv]
    show e.live = liveAfter [] (vs ++ [])
    rw [List.append_nil]
    exact h.live

omit [Oracle ω] [Recorder ρ] in
theorem RegisteredBy.requests (h : RegisteredBy e vs) (ws : List RegisterEvent) :
    RegisteredBy (forEach Engine.request e ws).state (vs ++ Outcome.passed Engine.request e ws) :=
  Outcome.collect_induction (P := RegisteredBy) (fun _ v _ h => h.request v) h ws

theorem RegisteredBy.classify (h : RegisteredBy e vs) (c : Command) :
    RegisteredBy (e.classify c).state (vs ++ e.accepted c) := by
  obtain ⟨hlive, hcount⟩ := register_classify e c
  exact (h.requests c.registerEvents).congr hlive hcount

theorem RegisteredBy.classifyAll (h : RegisteredBy e vs) (cs : List Command) :
    RegisteredBy (forEach Engine.classify e cs).state (vs ++ e.acceptedAll cs) :=
  Outcome.collect_induction (P := RegisteredBy) (fun _ c _ h => h.classify c) h cs

theorem RegisteredBy.process [Sink σ] (h : RegisteredBy e vs) (batch : List Command) :
    RegisteredBy (e.process batch).state (vs ++ e.acceptedAll batch) := by
  have hsame := sameIntake_process e batch
  exact (h.classifyAll batch).congr hsame.live hsame.activeQubits

end Classify

end Engine

end CliffordT
