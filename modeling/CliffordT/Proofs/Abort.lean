import CliffordT.Proofs.Register

/-!
# Batches that are not classified

A batch stops at the first command whose classification fails.  Nothing of it is sent, and what lies
behind that command is never looked at.

* `Engine.HalfDone` : how far each kind of command gets that classification stops at;
* `Engine.halfDone_of_classify_error` : there are no other ways to stop;
* `Engine.process_of_first_fault` : what such a batch leaves behind.
-/

namespace CliffordT

namespace Engine

open Outcome (forEach)

variable {ω σ ρ : Type} [Oracle ω]

/-- `HalfDone e c err e'` : classification of `c` fails with `err` and turns `e` into `e'`. -/
inductive HalfDone (e : Engine ω σ ρ) : Command → PipelineError → Engine ω σ ρ → Prop
  /-- The targets before one that is claimed are claimed.  It may be claimed before the command or
  by the command itself. -/
  | allocate {qs rest : List Qubit} {q : Qubit} (hnodup : qs.Nodup) (hfree : ∀ x ∈ qs, x ∉ e.live)
      (hq : q ∈ e.live ∨ q ∈ qs) :
      HalfDone e ⟨.allocate, qs ++ q :: rest⟩ (.doubleAllocation q) (e.claimed qs)
  /-- The targets before one that is not claimed are released.  It may be free before the command
  or released by the command itself. -/
  | deallocate {qs rest : List Qubit} {q : Qubit} (hnodup : qs.Nodup)
      (hclaimed : ∀ x ∈ qs, x ∈ e.live) (hcount : qs.length ≤ e.stats.activeQubits)
      (hq : q ∉ e.live ∨ q ∈ qs) :
      HalfDone e ⟨.deallocate, qs ++ q :: rest⟩ (.counterUnderflow q) (e.released qs)
  /-- A rotation without exactly one target changes nothing. -/
  | targets (axis : Axis) (angle : Binary64) {qs : List Qubit} (hlen : qs.length ≠ 1) :
      HalfDone e ⟨.rotation axis angle, qs⟩ (.circuit
        (.targetCountMismatch ("r" ++ axis.name) 1 (min qs.length (UInt32.size - 1)))) e
  /-- A rotation without a text is counted. -/
  | oracle (axis : Axis) (angle : Binary64) (q : Qubit) {err : PipelineError}
      (h : (Oracle.synthesize e.oracle axis angle).result = .error err) :
      HalfDone e (.rotation axis angle q) err (e.asked axis angle)
  /-- A rotation whose text is no word is counted. -/
  | word (axis : Axis) (angle : Binary64) (q : Qubit) {raw : String} {cause : CircuitError}
      (h : (Oracle.synthesize e.oracle axis angle).result = .ok raw)
      (hraw : Word.ofOperatorText raw = .error cause) :
      HalfDone e (.rotation axis angle q) (.malformedDecomposition axis angle cause)
        (e.asked axis angle)

variable [Recorder ρ] {e : Engine ω σ ρ} {c : Command} {err : PipelineError}

/-- A command that classification stops at is half done. -/
theorem halfDone_of_classify_error (he : Registered e) (h : (e.classify c).error? = some err) :
    HalfDone e c err (e.classify c).state := by
  obtain ⟨gate, targets⟩ := c
  cases gate with
  | allocate =>
    cases hall : (forEach claim e targets).error? with
    | none =>
      rw [classify, Outcome.error?_andThen hall] at h
      cases h
    | some err' =>
      rw [classify, Outcome.andThen_of_error hall] at h ⊢
      -- the width is not raised: a claim that fails stops before that
      obtain ⟨qs, q, rest, rfl, hnodup, hfree, hq, rfl, hstate⟩ := claimAll_of_error h
      rw [hstate]
      exact .allocate hnodup hfree hq
  | deallocate =>
    obtain ⟨qs, q, rest, rfl, hnodup, hclaimed, hq, rfl, hstate⟩ :=
      releaseAll_of_error he h
    have hcount : qs.length ≤ e.stats.activeQubits := by
      rw [he.count]
      exact hnodup.length_le_of_subset hclaimed
    rw [classify, hstate]
    exact .deallocate hnodup hclaimed hcount hq
  | measure =>
    -- measuring does not fail
    exfalso
    simp only [classify, measure] at h
    split at h <;> cases h
  | rotation axis angle =>
    by_cases hlen : targets.length = 1
    · obtain ⟨q, rfl⟩ := List.length_eq_one_iff.1 hlen
      change (e.synthesize axis angle).error? = some err at h
      cases hw : Oracle.wordFor e.oracle axis angle with
      | ok w =>
        rw [(synthesize_of_ok hw).1] at h
        cases h
      | error err' =>
        obtain ⟨herror, hstate⟩ := synthesize_of_error hw
        obtain rfl : err' = err := by
          rw [herror] at h
          exact Option.some.inj h
        show HalfDone e (.rotation axis angle q) err' (e.synthesize axis angle).state
        rw [hstate]
        -- either the oracle has failed, or its answer is no word
        rcases Oracle.wordFor_eq_error_iff.1 hw with hresult | ⟨raw, cause, hresult, hraw, rfl⟩
        · exact .oracle axis angle q hresult
        · exact .word axis angle q hresult hraw
    · rw [classify_rotation_of_targets e axis angle hlen] at h ⊢
      cases h
      exact .targets axis angle hlen
  | fixed g => cases h
  | flush => cases h
  | other name => cases h

/-! ### Batches -/

/-- What a batch leaves behind whose first command that is not classified is `c`, behind the
commands `p`. -/
structure Aborted (e : Engine ω σ ρ) (p : List Command) (c : Command) (err : PipelineError)
    (o : Outcome (Engine ω σ ρ)) : Prop where
  /-- The fault is that of the command. -/
  error : o.error? = some err
  /-- The commands before it are taken into account, and it is half done. -/
  halfDone : HalfDone (forEach classify e p).state c err o.state
  /-- The sink is sent nothing, not even the commands before it. -/
  output : SameOutput e o.state
  /-- The oracle is asked for the rotations among the commands before it, and then for it. -/
  oracle : o.state.oracle = Oracle.after e.oracle ((p ++ [c]).filterMap Command.question?)

/-- **A batch stops at the first command that is not classified.**  Nothing of it is sent, the
commands before are taken into account, and the commands behind make no difference at all. -/
theorem process_of_first_fault [Sink σ] (he : Reachable e) {p : List Command}
    (hp : (forEach classify e p).error? = none)
    (hc : ((forEach classify e p).state.classify c).error? = some err) (rest : List Command) :
    Aborted e p c err (e.process (p ++ c :: rest)) ∧
      ∀ rest', e.process (p ++ c :: rest') = e.process (p ++ c :: rest) := by
  -- the call ends at `c` as if nothing stood behind it
  have hprocess : ∀ rest, e.process (p ++ c :: rest) = forEach classify e (p ++ [c]) := by
    intro rest
    obtain ⟨hrun, -, herror⟩ := Outcome.forEach_stop hp hc rest
    rw [← hrun] at herror
    rw [process_of_error herror, hrun]
  obtain ⟨-, hstate, herror⟩ := Outcome.forEach_stop hp hc rest
  refine ⟨?_, fun rest' => by rw [hprocess, hprocess]⟩
  rw [hprocess]
  have hregistered : Registered (forEach classify e p).state :=
    Outcome.forEach_induction (fun _ c h => h.classify c) he.registered p
  constructor
  · exact herror
  · rw [hstate]
    exact halfDone_of_classify_error hregistered hc
  · exact sameOutput_classifyAll e (p ++ [c])
  · rw [hstate, (queue_classify _ c).2, oracle_classifyAll hp, ← Oracle.after_append,
      List.filterMap_append]
    rfl

/-- An engine that has failed before and keeps a stale word stops at a target that is repeated. -/
theorem process_of_first_fault_repeated_target :
    let o : FunctionOracle := ⟨fun _ _ => .ok "TH"⟩
    let fresh : Engine FunctionOracle CommandLog OutcomeLog := { oracle := o }
    let log : CommandLog := ⟨[]⟩
    let failed := (fresh.setSink log).process
      [.allocate ⟨0⟩, .rz ⟨0x3fe0000000000000⟩ ⟨0⟩, .deallocate ⟨7⟩]
    let p : List Command := [.rx ⟨0x3fe0000000000000⟩ ⟨0⟩, .measure ⟨0⟩]
    let c : Command := ⟨.allocate, [⟨1⟩, ⟨2⟩, ⟨1⟩]⟩
    failed.state.pending.length = 1 ∧ Reachable failed.state ∧
      (forEach classify failed.state p).error? = none ∧
      ((forEach classify failed.state p).state.classify c).error? =
        some (.doubleAllocation ⟨1⟩) ∧
      Aborted failed.state p c (.doubleAllocation ⟨1⟩)
        (failed.state.process (p ++ c :: [.flush])) := by
  intro o fresh log failed p c
  have hreachable : Reachable failed.state := .process (.setSink (.fresh o none) log) _
  have hp : (forEach classify failed.state p).error? = none := by decide
  have hc : ((forEach classify failed.state p).state.classify c).error? =
      some (.doubleAllocation ⟨1⟩) := by decide
  exact ⟨by decide, hreachable, hp, hc, (process_of_first_fault hreachable hp hc [.flush]).1⟩

end Engine

end CliffordT
