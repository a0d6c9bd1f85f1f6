import CliffordT.Proofs.Batch
import Mathlib.Data.List.Nodup

/-!
# The register of an engine

* `Engine.Reachable` : the engines that calls lead to, whatever the results of the calls;
* `Engine.Registered` : no handle is claimed twice, and the claimed handles are counted;
  `Engine.Reachable.registered` says that this always holds;
* `Engine.claimAll_of_ok`, `Engine.releaseAll_of_ok` : what claiming and releasing several targets
  does to the register.
-/

namespace CliffordT

namespace Engine

open Outcome (forEach)

variable {ω σ ρ : Type}

/-- The engines that calls lead to from a fresh one.  Calls may fail, and the engine is used again
afterwards. -/
inductive Reachable [Oracle ω] [Sink σ] [Recorder ρ] : Engine ω σ ρ → Prop
  | fresh (o : ω) (r : Option ρ) : Reachable { oracle := o, recorder := r }
  | setSink {e : Engine ω σ ρ} (h : Reachable e) (s : σ) : Reachable (e.setSink s)
  | process {e : Engine ω σ ρ} (h : Reachable e) (batch : List Command) :
      Reachable (e.process batch).state

/-- No handle is claimed twice, and the claimed handles are counted. -/
structure Registered (e : Engine ω σ ρ) : Prop where
  nodup : e.live.Nodup
  count : e.stats.activeQubits = e.live.length

variable {e : Engine ω σ ρ}

/-- The engine when some more qubits are claimed. -/
def claimed (e : Engine ω σ ρ) (qs : List Qubit) : Engine ω σ ρ :=
  { e with
    live := qs.reverse ++ e.live
    stats := { e.stats with activeQubits := e.stats.activeQubits + qs.length } }

/-- The engine when some qubits are released. -/
def released (e : Engine ω σ ρ) (qs : List Qubit) : Engine ω σ ρ :=
  { e with
    live := e.live.filter (· ∉ qs)
    stats := { e.stats with activeQubits := e.stats.activeQubits - qs.length } }

/-! ### One target -/

theorem claim_of_mem {q : Qubit} (h : q ∈ e.live) : e.claim q = .fail e (.doubleAllocation q) :=
  if_pos h

theorem claim_of_not_mem {q : Qubit} (h : q ∉ e.live) : e.claim q = .done (e.claimed [q]) :=
  if_neg h

theorem release_of_not_mem {q : Qubit} (h : q ∉ e.live) :
    e.release q = .fail e (.counterUnderflow q) :=
  if_neg h

theorem Registered.release_of_mem (he : Registered e) {q : Qubit} (h : q ∈ e.live) :
    e.release q = .done (e.released [q]) := by
  have hpos : 0 < e.stats.activeQubits := by
    rw [he.count]
    exact List.length_pos_of_mem h
  obtain ⟨n, hn⟩ := Nat.exists_eq_succ_of_ne_zero (Nat.ne_of_gt hpos)
  unfold release released
  rw [if_pos h, he.nodup.erase_eq_filter]
  simp [hn, bne, Bool.beq_eq_decide_eq]

theorem Registered.claim (h : Registered e) (q : Qubit) : Registered (e.claim q).state := by
  by_cases hq : q ∈ e.live
  · rw [claim_of_mem hq]
    exact h
  · rw [claim_of_not_mem hq]
    exact ⟨List.nodup_cons.2 ⟨hq, h.nodup⟩, congrArg (· + 1) h.count⟩

theorem Registered.live_released (h : Registered e) (q : Qubit) :
    (e.released [q]).live = e.live.erase q := by
  rw [h.nodup.erase_eq_filter]
  simp [released, bne, Bool.beq_eq_decide_eq]

theorem Registered.release (h : Registered e) (q : Qubit) : Registered (e.release q).state := by
  by_cases hq : q ∈ e.live
  · rw [h.release_of_mem hq]
    refine ⟨h.nodup.filter _, ?_⟩
    rw [Outcome.state_done, h.live_released, List.length_erase_of_mem hq, ← h.count]
    rfl
  · rw [release_of_not_mem hq]
    exact h

/-! ### Several targets -/

theorem claimed_claimed (e : Engine ω σ ρ) (q : Qubit) (qs : List Qubit) :
    (e.claimed [q]).claimed qs = e.claimed (q :: qs) := by
  simp [claimed, Nat.add_comm, Nat.add_left_comm]

theorem released_nil (e : Engine ω σ ρ) : e.released [] = e := by
  simp [released]

theorem released_released (e : Engine ω σ ρ) (q : Qubit) (qs : List Qubit) :
    (e.released [q]).released qs = e.released (q :: qs) := by
  have hsub : e.stats.activeQubits - 1 - qs.length = e.stats.activeQubits - (qs.length + 1) := by
    omega
  simp [released, List.filter_filter, Bool.and_comm, hsub]

/-- Targets that are all claimed were all free, and are different. -/
theorem claimAll_of_ok {qs : List Qubit} (h : (forEach claim e qs).error? = none) :
    (forEach claim e qs).state = e.claimed qs ∧ qs.Nodup ∧ ∀ q ∈ qs, q ∉ e.live := by
  -- the engine behind the first claim is where the other ones start
  induction qs generalizing e with
  | nil => exact ⟨rfl, .nil, by simp⟩
  | cons q qs ih =>
    by_cases hq : q ∈ e.live
    · rw [Outcome.forEach_cons, claim_of_mem hq, Outcome.fail_andThen] at h
      cases h
    · rw [Outcome.forEach_cons, claim_of_not_mem hq, Outcome.done_andThen] at h ⊢
      obtain ⟨hstate, hnodup, hfree⟩ := ih h
      have hlive : ∀ x ∈ qs, x ≠ q ∧ x ∉ e.live := by
        intro x hx
        simpa [claimed] using hfree x hx
      refine ⟨hstate.trans (claimed_claimed e q qs), ?_, ?_⟩
      · exact List.nodup_cons.2 ⟨fun hmem => (hlive q hmem).1 rfl, hnodup⟩
      · intro x hx
        rcases List.mem_cons.1 hx with rfl | hx
        · exact hq
        · exact (hlive x hx).2

/-- Targets that are all released were all claimed, and are different. -/
theorem releaseAll_of_ok (he : Registered e) {qs : List Qubit}
    (h : (forEach release e qs).error? = none) :
    (forEach release e qs).state = e.released qs ∧ qs.Nodup ∧ ∀ q ∈ qs, q ∈ e.live := by
  induction qs generalizing e with
  | nil => exact ⟨(released_nil e).symm, .nil, by simp⟩
  | cons q qs ih =>
    by_cases hq : q ∈ e.live
    · have hreleased := he.release q
      rw [he.release_of_mem hq, Outcome.state_done] at hreleased
      rw [Outcome.forEach_cons, he.release_of_mem hq, Outcome.done_andThen] at h ⊢
      obtain ⟨hstate, hnodup, hclaimed⟩ := ih hreleased h
      have hmem : ∀ x ∈ qs, x ∈ e.live ∧ x ≠ q := by
        intro x hx
        simpa [released] using hclaimed x hx
      refine ⟨hstate.trans (released_released e q qs), ?_, ?_⟩
      · exact List.nodup_cons.2 ⟨fun h => (hmem q h).2 rfl, hnodup⟩
      · intro x hx
        rcases List.mem_cons.1 hx with rfl | hx
        · exact hq
        · exact (hmem x hx).1
    · rw [Outcome.forEach_cons, release_of_not_mem hq, Outcome.fail_andThen] at h
      cases h

/-- A claim that fails has claimed the targets before one that is claimed already, before the
command or by the command itself. -/
theorem claimAll_of_error {qs : List Qubit} {err : PipelineError}
    (h : (forEach claim e qs).error? = some err) :
    ∃ before q behind, qs = before ++ q :: behind ∧ before.Nodup ∧ (∀ x ∈ before, x ∉ e.live) ∧
      (q ∈ e.live ∨ q ∈ before) ∧ err = .doubleAllocation q ∧
      (forEach claim e qs).state = e.claimed before := by
  obtain ⟨before, q, behind, rfl, hbefore, hq⟩ := Outcome.exists_stop h
  obtain ⟨hrun, hlast, -⟩ := Outcome.forEach_stop hbefore hq behind
  obtain ⟨hstate, hnodup, hfree⟩ := claimAll_of_ok hbefore
  rw [hrun, hlast, hstate]
  rw [hstate] at hq
  -- the last target is looked for among those that the command has claimed so far, too
  by_cases hmem : q ∈ (e.claimed before).live
  · rw [claim_of_mem hmem] at hq ⊢
    cases hq
    refine ⟨before, q, behind, rfl, hnodup, hfree, ?_, rfl, rfl⟩
    rcases List.mem_append.1 hmem with hmem | hmem
    · exact .inr (List.mem_reverse.1 hmem)
    · exact .inl hmem
  · rw [claim_of_not_mem hmem] at hq
    cases hq

/-- A release that fails has released the targets before one that is not claimed, be it free before
the command or released by the command itself. -/
theorem releaseAll_of_error (he : Registered e) {qs : List Qubit} {err : PipelineError}
    (h : (forEach release e qs).error? = some err) :
    ∃ before q behind, qs = before ++ q :: behind ∧ before.Nodup ∧ (∀ x ∈ before, x ∈ e.live) ∧
      (q ∉ e.live ∨ q ∈ before) ∧ err = .counterUnderflow q ∧
      (forEach release e qs).state = e.released before := by
  obtain ⟨before, q, behind, rfl, hbefore, hq⟩ := Outcome.exists_stop h
  obtain ⟨hrun, hlast, -⟩ := Outcome.forEach_stop hbefore hq behind
  obtain ⟨hstate, hnodup, hclaimed⟩ := releaseAll_of_ok he hbefore
  have hreleased : Registered (forEach release e before).state :=
    Outcome.forEach_induction (fun _ q h => h.release q) he before
  rw [hrun, hlast, hstate]
  rw [hstate] at hq hreleased
  -- a release fails only if the handle is not live by then
  by_cases hmem : q ∈ (e.released before).live
  · rw [hreleased.release_of_mem hmem] at hq
    cases hq
  · rw [release_of_not_mem hmem] at hq ⊢
    cases hq
    refine ⟨before, q, behind, rfl, hnodup, hclaimed, ?_, rfl, rfl⟩
    by_cases hq : q ∈ before
    · exact .inr hq
    · exact .inl fun hlive => hmem (List.mem_filter.2 ⟨hlive, by simpa using hq⟩)

/-! ### The invariant -/

theorem Registered.congr {e' : Engine ω σ ρ} (h : Registered e) (hlive : e'.live = e.live)
    (hcount : e'.stats.activeQubits = e.stats.activeQubits) : Registered e' :=
  ⟨hlive ▸ h.nodup, by rw [hcount, hlive, h.count]⟩

section Reachable

variable [Oracle ω] [Recorder ρ]

theorem Registered.classify (h : Registered e) (c : Command) :
    Registered (e.classify c).state := by
  refine classify_induction (fun e q h => h.claim q) (fun e q h => h.release q) ?_ ?_ ?_ h
  · exact fun e h => h.congr rfl rfl
  · intro e qs h
    unfold measure
    dsimp only
    split <;> exact h.congr rfl rfl
  · intro e axis angle h
    rw [state_synthesize]
    exact h.congr rfl rfl

/-- In every reachable engine no handle is claimed twice, and the claimed handles are counted. -/
theorem Reachable.registered [Sink σ] (h : Reachable e) : Registered e := by
  induction h with
  | fresh o r => exact ⟨.nil, rfl⟩
  | setSink h s ih => exact ih.congr rfl rfl
  | process h batch ih =>
    refine process_induction (fun e c h => h.classify c) ?_ (fun e h => h.congr rfl rfl) ih batch
    intro e c h
    have hc := sameIntake_forward e c
    exact h.congr hc.live hc.activeQubits

end Reachable

end Engine

end CliffordT
