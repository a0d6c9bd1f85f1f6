import CliffordT.Proofs.Recount
import CliffordT.Proofs.Uses

/-!
# The greatest width

An engine compares the number of claimed handles with its greatest width when a command has claimed
all of its targets.  A command that is refused half way keeps the handles that it has claimed, but
the greatest width does not learn of them.

* `RegisterEvent.peak` of the accepted requests is the most handles that were ever claimed at once,
  the moments between two targets of a command included;
* `Visit.settled?`, `Visit.broken?` : how many handles are claimed when a command that claims has
  ended, with all of its targets accepted or with one of them refused;
* `Engine.Widths` : the greatest width is the largest number of the first kind, and the peak is the
  larger one of this and of the numbers of the second kind;
* `Engine.maxWidth_history` : this holds after any uses, so the greatest width is the peak if and
  only if no refused command has gone beyond it.
-/

namespace CliffordT

open Outcome (forEach)
open RegisterEvent (AllFit liveAfter peak)

/-- The largest of some numbers, zero if there is none. -/
def largest (ns : List Nat) : Nat := ns.foldr max 0

theorem largest_le_iff {ns : List Nat} {b : Nat} : largest ns ≤ b ↔ ∀ n ∈ ns, n ≤ b := by
  induction ns with
  | nil => simp [largest]
  | cons n ns ih =>
    rw [List.forall_mem_cons, ← ih]
    exact Nat.max_le

theorem largest_append (ms ns : List Nat) : largest (ms ++ ns) = max (largest ms) (largest ns) := by
  induction ms with
  | nil => exact (Nat.zero_max _).symm
  | cons m ms ih =>
    show max m (largest (ms ++ ns)) = max (max m (largest ms)) (largest ns)
    rw [ih, Nat.max_assoc]

@[simp] theorem largest_nil : largest [] = 0 := rfl

theorem largest_filterMap_concat {α : Type} (f : α → Option Nat) (as : List α) (a : α) :
    largest ((as ++ [a]).filterMap f) =
      max (largest (as.filterMap f)) (largest (f a).toList) := by
  rw [List.filterMap_append, largest_append]
  cases h : f a <;> simp [h]

@[simp] theorem largest_singleton (n : Nat) : largest [n] = n := Nat.max_zero n

theorem Outcome.exists_passed_eq_take {τ α : Type} (f : τ → α → Outcome τ) (s : τ) (as : List α) :
    ∃ n, passed f s as = as.take n := by
  induction as generalizing s with
  | nil => exact ⟨0, rfl⟩
  | cons a as ih =>
    cases h : (f s a).error? with
    | some err =>
      refine ⟨0, ?_⟩
      rw [passed, collect_cons_of_error h]
      simp [isOk, h]
    | none =>
      obtain ⟨n, hn⟩ := ih (f s a).state
      refine ⟨n + 1, ?_⟩
      rw [passed, collect_cons_of_ok h, if_pos (isOk_iff.2 h), List.take_succ_cons, ← hn]
      rfl

theorem RegisterEvent.peak_claims_eq {live qs : List Qubit} (h : AllFit live (qs.map .claim)) :
    peak live (qs.map .claim) = (liveAfter live (qs.map .claim)).length := by
  induction qs generalizing live with
  | nil => rfl
  | cons q qs ih =>
    obtain ⟨hq, hqs⟩ := h
    have hlength : live.length ≤ (RegisterEvent.apply live (.claim q)).length := by
      rw [RegisterEvent.apply, List.length_insert_of_not_mem hq]
      exact Nat.le_succ _
    rw [List.map_cons, peak, Nat.max_eq_right (Nat.le_trans hlength (length_le_peak _ _)), ih hqs]
    rfl

namespace Visit

variable {ω σ ρ : Type} [Oracle ω] [Recorder ρ]

omit [Oracle ω] [Recorder ρ] in
/-- The requests of the command that are accepted. -/
def events (v : Visit ω σ ρ) : List RegisterEvent := v.engine.accepted v.command

/-- For a command that claims, all of whose targets are accepted: how many handles are claimed when
it has ended. -/
def settled? (v : Visit ω σ ρ) : Option Nat :=
  if v.command.gate = .allocate ∧ v.outcome.isOk then some v.outcome.state.live.length else none

/-- For a command that claims, one of whose targets is refused: how many handles are claimed when it
has ended. -/
def broken? (v : Visit ω σ ρ) : Option Nat :=
  if v.command.gate = .allocate ∧ ¬ v.outcome.isOk then some v.outcome.state.live.length else none

end Visit

namespace Engine

variable {ω σ ρ : Type} {e : Engine ω σ ρ}

/-! ### One command -/

theorem Registered.allFit_passed (h : Registered e) (vs : List RegisterEvent) :
    AllFit e.live (Outcome.passed Engine.request e vs) := by
  induction vs generalizing e with
  | nil => trivial
  | cons v vs ih =>
    by_cases hv : v.Fits e.live
    · have hrequest := h.request_of_fits hv
      have hgranted := h.request v
      rw [hrequest, Outcome.state_done] at hgranted
      have hrest := ih hgranted
      rw [h.live_granted hv] at hrest
      rw [Outcome.passed, Outcome.collect_cons_of_ok (by rw [hrequest]; rfl), hrequest]
      exact ⟨hv, hrest⟩
    · have hrequest := request_of_not_fits hv
      rw [Outcome.passed, Outcome.collect_cons_of_error (by rw [hrequest]; rfl), hrequest]
      trivial

/-- While the requests of a command are worked off, the most handles are claimed at the end if it
claims, and at the beginning if it does not. -/
theorem Registered.peak_accepted (h : Registered e) (c : Command) :
    peak e.live (e.accepted c) =
      if c.gate = .allocate then (liveAfter e.live (e.accepted c)).length else e.live.length := by
  -- the requests that are accepted are the first ones of the command
  obtain ⟨n, hn⟩ := Outcome.exists_passed_eq_take Engine.request e c.registerEvents
  have hfit := h.allFit_passed c.registerEvents
  obtain ⟨gate, targets⟩ := c
  cases gate with
  | allocate =>
    have hclaims : e.accepted ⟨.allocate, targets⟩ = (targets.take n).map .claim := by
      rw [accepted, hn, List.map_take]
      rfl
    change AllFit e.live (e.accepted ⟨.allocate, targets⟩) at hfit
    rw [hclaims] at hfit
    rw [if_pos rfl, hclaims]
    exact RegisterEvent.peak_claims_eq hfit
  | deallocate =>
    have hreleases : e.accepted ⟨.deallocate, targets⟩ = (targets.take n).map .release := by
      rw [accepted, hn, List.map_take]
      rfl
    rw [if_neg (by simp), hreleases]
    exact RegisterEvent.peak_releases _ _
  | _ => rfl

variable [Oracle ω] [Recorder ρ]

theorem maxWidth_classify_of_ne {c : Command} (hc : c.gate ≠ .allocate) :
    (e.classify c).state.stats.maxWidth = e.stats.maxWidth := by
  obtain ⟨gate, targets⟩ := c
  cases gate with
  | allocate => exact absurd rfl hc
  | deallocate =>
    have hstep : ∀ (e' : Engine ω σ ρ) q, e'.stats.maxWidth = e.stats.maxWidth →
        (e'.release q).state.stats.maxWidth = e.stats.maxWidth := by
      intro e' q h
      unfold Engine.release
      dsimp only
      repeat' split
      all_goals exact h
    exact Outcome.forEach_induction hstep rfl targets
  | measure =>
    simp only [Engine.classify, measure]
    split <;> rfl
  | rotation axis angle =>
    by_cases hlen : targets.length = 1
    · obtain ⟨q, rfl⟩ := List.length_eq_one_iff.1 hlen
      have hstate := state_synthesize e axis angle
      rw [← classify_rotation e axis angle q, Command.rotation] at hstate
      rw [hstate]
      rfl
    · rw [classify_rotation_of_targets e axis angle hlen]
      rfl
  | _ => rfl

theorem Registered.maxWidth_classify (h : Registered e) (c : Command) :
    (e.classify c).state.stats.maxWidth =
      max e.stats.maxWidth (largest (Visit.settled? ⟨e, c⟩).toList) := by
  by_cases hc : c.gate = .allocate
  · obtain ⟨gate, targets⟩ := c
    obtain rfl : gate = .allocate := hc
    have hafter := h.classify ⟨.allocate, targets⟩
    cases hclaims : (forEach Engine.claim e targets).error? with
    | none =>
      -- all targets are claimed, and the width is taken then
      have hok : (e.classify ⟨.allocate, targets⟩).error? = none := by
        rw [Engine.classify, Outcome.error?_andThen hclaims]
        rfl
      have hstate : (e.classify ⟨.allocate, targets⟩).state = (e.claimed targets).updateWidth := by
        rw [Engine.classify, Outcome.state_andThen hclaims, (claimAll_of_ok hclaims).1]
        rfl
      have hsettled : Visit.settled? ⟨e, ⟨.allocate, targets⟩⟩ =
          some (e.classify ⟨.allocate, targets⟩).state.live.length :=
        if_pos ⟨rfl, Outcome.isOk_iff.2 hok⟩
      rw [hsettled, Option.toList_some, largest_singleton, ← hafter.count, hstate]
      rfl
    | some err =>
      -- the refusal ends the command before the width is taken
      have hstop := Outcome.andThen_of_error hclaims fun e => .done e.updateWidth
      have hsettled : Visit.settled? ⟨e, ⟨.allocate, targets⟩⟩ = none := by
        refine if_neg fun hok => ?_
        have herror := Outcome.isOk_iff.1 hok.2
        rw [Visit.outcome, Engine.classify, hstop, hclaims] at herror
        cases herror
      obtain ⟨before, -, -, -, -, -, -, -, hstate⟩ := claimAll_of_error hclaims
      rw [hsettled, Engine.classify, hstop, hstate]
      exact (Nat.max_zero _).symm
  · have hsettled : Visit.settled? ⟨e, c⟩ = none := if_neg fun hok => hc hok.1
    rw [maxWidth_classify_of_ne hc, hsettled]
    exact (Nat.max_zero _).symm

omit [Oracle ω] [Recorder ρ] in
theorem largest_settled_broken [Oracle ω] [Recorder ρ] (v : Visit ω σ ρ) :
    max (largest v.settled?.toList) (largest v.broken?.toList) =
      if v.command.gate = .allocate then v.outcome.state.live.length else 0 := by
  unfold Visit.settled? Visit.broken?
  by_cases hgate : v.command.gate = .allocate <;> by_cases hok : v.outcome.isOk = true <;>
    simp [hgate, hok]

/-! ### All commands so far -/

/-- What the greatest width is and what it should be, after the visits `vs`. -/
structure Widths (e : Engine ω σ ρ) (vs : List (Visit ω σ ρ)) : Prop extends
    RegisteredBy e (vs.flatMap Visit.events) where
  /-- The greatest width is the largest number of handles that a command has left which claims, and
  all of whose targets were accepted. -/
  maxWidth : e.stats.maxWidth = largest (vs.filterMap Visit.settled?)
  /-- The most handles that were ever claimed at once may be those that a refused command has
  left. -/
  peak : peak [] (vs.flatMap Visit.events) =
    max e.stats.maxWidth (largest (vs.filterMap Visit.broken?))

variable {vs : List (Visit ω σ ρ)}

theorem Widths.classify (h : Widths e vs) (c : Command) :
    Widths (e.classify c).state (vs ++ [⟨e, c⟩]) := by
  have hevents : (vs ++ [(⟨e, c⟩ : Visit ω σ ρ)]).flatMap Visit.events =
      vs.flatMap Visit.events ++ e.accepted c := by
    rw [List.flatMap_append, List.flatMap_singleton]
    rfl
  have hregister := h.toRegisteredBy.classify c
  have hwidth := h.maxWidth_classify c
  have hpeak := h.peak_accepted c
  have hends := largest_settled_broken (⟨e, c⟩ : Visit ω σ ρ)
  -- no more handles are claimed now than at the peak so far
  have hnow : e.live.length ≤ max e.stats.maxWidth (largest (vs.filterMap Visit.broken?)) := by
    rw [← h.peak, h.live]
    exact RegisterEvent.length_liveAfter_le_peak _ _
  have hlive : liveAfter e.live (e.accepted c) = (e.classify c).state.live := by
    rw [hregister.live, RegisterEvent.liveAfter_append, ← h.live]
  rw [hlive] at hpeak
  change _ = if c.gate = .allocate then (e.classify c).state.live.length else 0 at hends
  refine ⟨?_, ?_, ?_⟩
  · rw [hevents]
    exact hregister
  · rw [largest_filterMap_concat, ← h.maxWidth]
    exact hwidth
  · rw [hevents, RegisterEvent.peak_append, h.peak, ← h.live, hpeak, largest_filterMap_concat,
      hwidth]
    by_cases hc : c.gate = .allocate
    · rw [if_pos hc] at hends ⊢
      omega
    · rw [if_neg hc] at hends ⊢
      omega

theorem Widths.congr {e' : Engine ω σ ρ} (h : Widths e vs) (hsame : SameIntake e e') :
    Widths e' vs :=
  ⟨h.toRegisteredBy.congr hsame.live hsame.activeQubits, hsame.maxWidth.trans h.maxWidth, by
    rw [hsame.maxWidth, h.peak]⟩

variable [Sink σ]

theorem widths_afterUses (o : ω) (recorder : Option ρ) (us : List (Use σ)) :
    Widths (afterUses { oracle := o, recorder } us) (visits { oracle := o, recorder } us) := by
  have hfresh : Widths ({ oracle := o, recorder } : Engine ω σ ρ) [] :=
    ⟨⟨⟨.nil, rfl⟩, rfl⟩, rfl, rfl⟩
  exact visits_induction (P := Widths) (fun _ c _ h => h.classify c)
    (fun _ _ _ hsame h => h.congr hsame) hfresh us

/-- **The greatest width does not learn of refused commands.**  After any uses of a fresh engine,
whatever their results, it is the largest number of handles that were claimed when a command had
ended which claims, and all of whose targets were accepted.  The most handles that were ever claimed
at once may also be those that a command has left, one of whose targets was refused.  So the two
agree, and bound the number of claimed handles, as long as no such command has gone beyond the
greatest width. -/
theorem maxWidth_history (o : ω) (recorder : Option ρ) (us : List (Use σ)) :
    let start : Engine ω σ ρ := { oracle := o, recorder }
    let e := start.afterUses us
    let vs := start.visits us
    Widths e vs ∧ e.stats.activeQubits ≤ peak [] (vs.flatMap Visit.events) ∧
      (e.stats.maxWidth = peak [] (vs.flatMap Visit.events) ↔
        ∀ n ∈ vs.filterMap Visit.broken?, n ≤ e.stats.maxWidth) := by
  intro start e vs
  have h : Widths e vs := widths_afterUses o recorder us
  refine ⟨h, ?_, ?_⟩
  · rw [h.count, h.live]
    exact RegisterEvent.length_liveAfter_le_peak _ _
  · rw [h.peak, ← largest_le_iff]
    exact ⟨fun heq => by omega, fun hle => by omega⟩

/-- A command that claims a handle twice keeps it claimed the first time, and leaves the greatest
width at zero. -/
theorem maxWidth_of_repeated_claim :
    let o : FunctionOracle := ⟨fun _ _ => .ok ""⟩
    let start : Engine FunctionOracle CommandLog OutcomeLog := { oracle := o }
    let us : List (Use CommandLog) := [.process [⟨.allocate, [⟨0⟩, ⟨0⟩]⟩]]
    (start.afterUses us).live = [⟨0⟩] ∧ (start.afterUses us).stats.activeQubits = 1 ∧
      (start.afterUses us).stats.maxWidth = 0 ∧
      peak [] ((start.visits us).flatMap Visit.events) = 1 := by
  decide

end Engine

end CliffordT
