import CliffordT.Pipeline.Engine
import CliffordT.Proofs.Stream

/-!
# The first pass over a batch

Classification takes the commands of a batch into account before anything is sent.

* `Engine.classify_induction` : what claiming, releasing, measuring and synthesizing preserve,
  classification preserves;
* `Engine.KeepsRegister`, `Engine.classify_map` : classification commutes with a map of engines that
  does not concern the register, if measuring and synthesizing do;
* `Engine.SameOutput` : classification leaves the sink and what was sent alone;
* `Engine.found` : the words that classification puts into the queue, in order
  (`Engine.pending_classifyAll`);
* `Engine.questions`, `Engine.oracle_questions` : the rotations that classification asks the oracle
  for, in order, and nothing else changes the oracle;
* `Engine.questions_of_ok`, `Engine.words_classifyAll` : a classified batch has asked for each of
  its rotations, and has found their words.
-/

namespace CliffordT

namespace Engine

open Outcome (forEach)

variable {ω σ ρ : Type} {e : Engine ω σ ρ} {c : Command} {cs : List Command} {err : PipelineError}

/-! ### Synthesis -/

section Synthesis

variable [Oracle ω] {axis : Axis} {angle : Binary64}

/-- The engine after a question, without the word. -/
def asked (e : Engine ω σ ρ) (axis : Axis) (angle : Binary64) : Engine ω σ ρ :=
  { e with
    oracle := (Oracle.synthesize e.oracle axis angle).oracle
    stats := { e.stats with rotations := e.stats.rotations + 1 } }

theorem synthesize_of_ok {w : Word} (h : Oracle.wordFor e.oracle axis angle = .ok w) :
    (e.synthesize axis angle).error? = none ∧
      (e.synthesize axis angle).state =
        { e.asked axis angle with pending := e.pending ++ [w] } := by
  unfold Oracle.wordFor at h
  unfold synthesize
  split at h
  · cases h
  · rename_i raw hraw
    split at h
    · cases h
    · rename_i word hword
      cases h
      simp only [hraw, hword]
      exact ⟨trivial, rfl⟩

theorem synthesize_of_error (h : Oracle.wordFor e.oracle axis angle = .error err) :
    (e.synthesize axis angle).error? = some err ∧
      (e.synthesize axis angle).state = e.asked axis angle := by
  unfold Oracle.wordFor at h
  unfold synthesize
  split at h
  · rename_i err' herr
    cases h
    simp only [herr]
    exact ⟨trivial, rfl⟩
  · rename_i raw hraw
    split at h
    · rename_i cause hcause
      cases h
      simp only [hraw, hcause]
      exact ⟨trivial, rfl⟩
    · cases h

theorem state_synthesize (e : Engine ω σ ρ) (axis : Axis) (angle : Binary64) :
    (e.synthesize axis angle).state =
      { e.asked axis angle with
        pending := e.pending ++ (Oracle.wordFor e.oracle axis angle).toOption.toList } := by
  cases hw : Oracle.wordFor e.oracle axis angle with
  | ok w => exact (synthesize_of_ok hw).2
  | error err =>
    rw [(synthesize_of_error hw).2]
    simp [Except.toOption, asked]

end Synthesis

/-! ### One command -/

variable [Oracle ω] [Recorder ρ]

theorem classify_rotation (e : Engine ω σ ρ) (axis : Axis) (angle : Binary64) (q : Qubit) :
    e.classify (.rotation axis angle q) = e.synthesize axis angle := rfl

theorem classify_rotation_of_targets (e : Engine ω σ ρ) (axis : Axis) (angle : Binary64)
    {qs : List Qubit} (h : qs.length ≠ 1) :
    e.classify ⟨.rotation axis angle, qs⟩ = .fail e (.circuit
      (.targetCountMismatch ("r" ++ axis.name) 1 (min qs.length (UInt32.size - 1)))) := by
  match qs, h with
  | [], _ => rfl
  | [_], h => exact absurd rfl h
  | _ :: _ :: _, _ => rfl

theorem exists_of_classify_rotation (hc : c.gate.isRotation = true)
    (h : (e.classify c).error? = none) :
    ∃ axis angle q w, c = .rotation axis angle q ∧ Oracle.wordFor e.oracle axis angle = .ok w := by
  obtain ⟨gate, targets⟩ := c
  cases gate with
  | rotation axis angle =>
    by_cases hlen : targets.length = 1
    · obtain ⟨q, rfl⟩ := List.length_eq_one_iff.1 hlen
      cases hw : Oracle.wordFor e.oracle axis angle with
      | ok w => exact ⟨axis, angle, q, w, rfl, hw⟩
      | error err =>
        have := (synthesize_of_error hw).1
        rw [← classify_rotation e axis angle q] at this
        rw [Command.rotation, h] at this
        cases this
    · rw [classify_rotation_of_targets e axis angle hlen] at h
      cases h
  | _ => cases hc

theorem classify_induction_of_no_question {P : Engine ω σ ρ → Prop}
    (hclaim : ∀ e q, P e → P (claim e q).state) (hrelease : ∀ e q, P e → P (release e q).state)
    (hwidth : ∀ e, P e → P e.updateWidth) (hmeasure : ∀ e qs, P e → P (measure e qs).state)
    (hc : c.question? = none) (h : P e) : P (e.classify c).state := by
  obtain ⟨gate, targets⟩ := c
  cases gate with
  | allocate =>
    exact Outcome.andThen_induction (Outcome.forEach_induction hclaim h targets) (hwidth _)
  | deallocate => exact Outcome.forEach_induction hrelease h targets
  | measure => exact hmeasure e targets h
  | rotation axis angle =>
    -- a rotation asks nothing only if it is refused for its targets
    have hlen : targets.length ≠ 1 := by
      intro hlen
      obtain ⟨q, rfl⟩ := List.length_eq_one_iff.1 hlen
      cases hc
    rw [classify_rotation_of_targets e axis angle hlen]
    exact h
  | fixed g => exact h
  | flush => exact h
  | other name => exact h

/-- What claiming, releasing, measuring and synthesizing preserve, classification preserves. -/
theorem classify_induction {P : Engine ω σ ρ → Prop}
    (hclaim : ∀ e q, P e → P (claim e q).state) (hrelease : ∀ e q, P e → P (release e q).state)
    (hwidth : ∀ e, P e → P e.updateWidth) (hmeasure : ∀ e qs, P e → P (measure e qs).state)
    (hsynthesize : ∀ e axis angle, P e → P (synthesize e axis angle).state) (h : P e) :
    P (e.classify c).state := by
  cases hc : c.question? with
  | none => exact classify_induction_of_no_question hclaim hrelease hwidth hmeasure hc h
  | some q =>
    obtain ⟨axis, angle⟩ := q
    obtain ⟨q, rfl⟩ := Command.question?_eq_some_iff.1 hc
    exact hsynthesize e axis angle h

/-! ### Maps of engines -/

omit [Oracle ω] [Recorder ρ] in
/-- The engine with another register. -/
def withRegister (e : Engine ω σ ρ) (live : List Qubit) (count : Nat) : Engine ω σ ρ :=
  { e with live, stats := { e.stats with activeQubits := count } }

section Maps

variable {ω' σ' ρ' : Type} {r : Engine ω σ ρ → Engine ω' σ' ρ'}

omit [Oracle ω] [Recorder ρ] in
/-- A map of engines that does not concern the register. -/
structure KeepsRegister (r : Engine ω σ ρ → Engine ω' σ' ρ') : Prop where
  live : ∀ e, (r e).live = e.live
  activeQubits : ∀ e, (r e).stats.activeQubits = e.stats.activeQubits
  withRegister : ∀ e live count, r (e.withRegister live count) = (r e).withRegister live count

omit [Oracle ω] [Recorder ρ] in
theorem KeepsRegister.claim (h : KeepsRegister r) (e : Engine ω σ ρ) (q : Qubit) :
    (r e).claim q = (e.claim q).map r := by
  unfold Engine.claim
  rw [h.live, h.activeQubits]
  by_cases hq : q ∈ e.live
  · rw [if_pos hq, if_pos hq]
    rfl
  · rw [if_neg hq, if_neg hq]
    exact congrArg Outcome.done (h.withRegister e (q :: e.live) _).symm

omit [Oracle ω] [Recorder ρ] in
theorem KeepsRegister.release (h : KeepsRegister r) (e : Engine ω σ ρ) (q : Qubit) :
    (r e).release q = (e.release q).map r := by
  have herase := fun count => (h.withRegister e (e.live.erase q) count).symm
  -- an underflow writes the live qubits only: it is a new register with the old count
  have hlive : { r e with live := e.live.erase q } = r { e with live := e.live.erase q } :=
    calc { r e with live := e.live.erase q }
        = (r e).withRegister (e.live.erase q) (r e).stats.activeQubits := rfl
      _ = (r e).withRegister (e.live.erase q) e.stats.activeQubits := by rw [h.activeQubits]
      _ = r { e with live := e.live.erase q } := herase e.stats.activeQubits
  unfold Engine.release
  dsimp only
  rw [h.live, h.activeQubits]
  by_cases hq : q ∈ e.live
  · rw [if_pos hq, if_pos hq]
    cases e.stats.activeQubits with
    | zero => exact congrArg (Outcome.fail · (.counterUnderflow q)) hlive
    | succ n => exact congrArg Outcome.done (herase n)
  · rw [if_neg hq, if_neg hq]
    rfl

/-- Classification of a command commutes with a map of engines that does not concern the register,
and that taking the width, synthesizing and, for this command, measuring commute with. -/
theorem classify_map [Oracle ω'] [Recorder ρ'] (hregister : KeepsRegister r)
    (hwidth : ∀ e, (r e).updateWidth = r e.updateWidth)
    (hsynthesize : ∀ e axis angle,
      (r e).synthesize axis angle = (e.synthesize axis angle).map r)
    (hmeasure : c.gate = .measure → (r e).measure c.targets = (e.measure c.targets).map r) :
    (r e).classify c = (e.classify c).map r := by
  obtain ⟨gate, targets⟩ := c
  cases gate with
  | allocate =>
    show ((forEach claim (r e) targets).andThen fun e => .done e.updateWidth) =
      ((forEach claim e targets).andThen fun e => .done e.updateWidth).map r
    rw [Outcome.forEach_map_state hregister.claim]
    exact Outcome.map_andThen (fun e => congrArg Outcome.done (hwidth e)) _
  | deallocate => exact Outcome.forEach_map_state hregister.release e targets
  | measure => exact hmeasure rfl
  | rotation axis angle =>
    by_cases hlen : targets.length = 1
    · obtain ⟨q, rfl⟩ := List.length_eq_one_iff.1 hlen
      exact hsynthesize e axis angle
    · rw [classify_rotation_of_targets _ axis angle hlen, classify_rotation_of_targets _ axis angle
        hlen]
      rfl
  | _ => rfl

end Maps

/-! ### The sink -/

omit [Oracle ω] [Recorder ρ] in
/-- `e'` has the sink of `e` and has sent what `e` has sent. -/
structure SameOutput (e e' : Engine ω σ ρ) : Prop where
  sink : e'.sink = e.sink
  forwarded : e'.stats.forwarded = e.stats.forwarded
  emitted : e'.stats.emitted = e.stats.emitted

theorem sameOutput_classify {e₀ : Engine ω σ ρ} (h : SameOutput e₀ e) (c : Command) :
    SameOutput e₀ (e.classify c).state := by
  refine classify_induction ?_ ?_ ?_ ?_ ?_ h
  · intro e q h
    unfold claim
    split <;> exact ⟨h.sink, h.forwarded, h.emitted⟩
  · intro e q h
    unfold release
    dsimp only
    repeat' split
    all_goals exact ⟨h.sink, h.forwarded, h.emitted⟩
  · intro e h
    exact ⟨h.sink, h.forwarded, h.emitted⟩
  · intro e qs h
    unfold measure
    dsimp only
    split <;> exact ⟨h.sink, h.forwarded, h.emitted⟩
  · intro e axis angle h
    rw [state_synthesize]
    exact ⟨h.sink, h.forwarded, h.emitted⟩

theorem sameOutput_classifyAll (e : Engine ω σ ρ) (cs : List Command) :
    SameOutput e (forEach classify e cs).state :=
  Outcome.forEach_induction (P := SameOutput e) (fun _ c h => sameOutput_classify h c)
    ⟨rfl, rfl, rfl⟩ cs

/-! ### The queue and the oracle -/

omit [Recorder ρ] in
/-- The word that classification puts into the queue for a command. -/
def word? (e : Engine ω σ ρ) (c : Command) : Option Word :=
  c.question?.bind fun q => (Oracle.wordFor e.oracle q.1 q.2).toOption

/-- The words that classification puts into the queue for a batch, in order, up to the command that
it stops at. -/
def found (e : Engine ω σ ρ) (cs : List Command) : List Word :=
  Outcome.collect classify (fun e c => (e.word? c).toList) e cs

omit [Recorder ρ] in
theorem word?_rotation (e : Engine ω σ ρ) (axis : Axis) (angle : Binary64) (q : Qubit) :
    e.word? (.rotation axis angle q) = (Oracle.wordFor e.oracle axis angle).toOption := rfl

omit [Recorder ρ] in
theorem word?_of_no_question (e : Engine ω σ ρ) (hc : c.question? = none) : e.word? c = none := by
  rw [word?, hc, Option.bind_none]

@[simp] theorem found_nil (e : Engine ω σ ρ) : e.found [] = [] := rfl

theorem found_cons_of_ok (h : (e.classify c).error? = none) (cs : List Command) :
    e.found (c :: cs) = (e.word? c).toList ++ (e.classify c).state.found cs :=
  Outcome.collect_cons_of_ok h cs

theorem found_cons_of_error (h : (e.classify c).error? = some err) (cs : List Command) :
    e.found (c :: cs) = (e.word? c).toList :=
  Outcome.collect_cons_of_error h cs

theorem classify_of_no_question (e : Engine ω σ ρ) (hc : c.question? = none) :
    (e.classify c).state.pending = e.pending ∧ (e.classify c).state.oracle = e.oracle ∧
      (e.classify c).state.stats.rotations = e.stats.rotations := by
  refine classify_induction_of_no_question (P := fun e' => e'.pending = e.pending ∧
    e'.oracle = e.oracle ∧ e'.stats.rotations = e.stats.rotations) ?_ ?_ ?_ ?_ hc ⟨rfl, rfl, rfl⟩
  · intro e' q h
    unfold claim
    split <;> exact h
  · intro e' q h
    unfold release
    dsimp only
    repeat' split
    all_goals exact h
  · intro e' h
    exact h
  · intro e' qs h
    unfold measure
    dsimp only
    split <;> exact h

theorem queue_classify (e : Engine ω σ ρ) (c : Command) :
    (e.classify c).state.pending = e.pending ++ (e.word? c).toList ∧
      (e.classify c).state.oracle = Oracle.after e.oracle c.question?.toList := by
  cases hc : c.question? with
  | none =>
    obtain ⟨hpending, horacle, -⟩ := classify_of_no_question e hc
    rw [word?_of_no_question e hc, Option.toList_none, List.append_nil, Option.toList_none,
      Oracle.after_nil]
    exact ⟨hpending, horacle⟩
  | some q =>
    obtain ⟨axis, angle⟩ := q
    obtain ⟨q, rfl⟩ := Command.question?_eq_some_iff.1 hc
    rw [classify_rotation, state_synthesize, word?_rotation]
    exact ⟨rfl, rfl⟩

theorem pending_classifyAll (e : Engine ω σ ρ) (cs : List Command) :
    (forEach classify e cs).state.pending = e.pending ++ e.found cs := by
  induction cs generalizing e with
  | nil => simp
  | cons c cs ih =>
    have hc := (queue_classify e c).1
    rw [Outcome.forEach_cons]
    cases h : (e.classify c).error? with
    | some err => rw [Outcome.andThen_of_error h, hc, found_cons_of_error h]
    | none => rw [Outcome.state_andThen h, ih, hc, List.append_assoc, found_cons_of_ok h]

/-- The rotations that classification of a batch asks the oracle for, in order, up to the command
that it stops at. -/
def questions (e : Engine ω σ ρ) (cs : List Command) : List (Axis × Binary64) :=
  Outcome.collect classify (fun _ c => c.question?.toList) e cs

/-- Classification asks these questions, one after the other, and the oracle is as they leave it. -/
theorem oracle_questions (e : Engine ω σ ρ) (cs : List Command) :
    (forEach classify e cs).state.oracle = Oracle.after e.oracle (e.questions cs) := by
  have hstep : ∀ (e' : Engine ω σ ρ) (c : Command) (qs : List (Axis × Binary64)),
      e'.oracle = Oracle.after e.oracle qs →
        (e'.classify c).state.oracle = Oracle.after e.oracle (qs ++ c.question?.toList) := by
    intro e' c qs h
    rw [(queue_classify e' c).2, h, ← Oracle.after_append]
  exact Outcome.collect_induction hstep (Oracle.after_nil e.oracle).symm cs

/-- A classified batch has asked for all of its rotations. -/
theorem questions_of_ok (h : (forEach classify e cs).error? = none) :
    e.questions cs = cs.filterMap Command.question? := by
  induction cs generalizing e with
  | nil => rfl
  | cons c cs ih =>
    rw [Outcome.forEach_cons, Outcome.andThen_eq_none_iff] at h
    rw [questions, Outcome.collect_cons_of_ok h.1, ← questions, ih h.2]
    cases hc : c.question? with
    | none => rw [List.filterMap_cons_none hc, Option.toList_none, List.nil_append]
    | some q => rw [List.filterMap_cons_some hc, Option.toList_some, List.singleton_append]

theorem oracle_classifyAll (h : (forEach classify e cs).error? = none) :
    (forEach classify e cs).state.oracle =
      Oracle.after e.oracle (cs.filterMap Command.question?) := by
  rw [oracle_questions, questions_of_ok h]

theorem targets_of_classifyAll (h : (forEach classify e cs).error? = none) :
    ∀ c ∈ cs, c.gate.isRotation = true → ∃ axis angle q, c = .rotation axis angle q := by
  induction cs generalizing e with
  | nil => simp
  | cons c cs ih =>
    rw [Outcome.forEach_cons, Outcome.andThen_eq_none_iff] at h
    intro d hd hrot
    rcases List.mem_cons.1 hd with rfl | hd
    · obtain ⟨axis, angle, q, -, rfl, -⟩ := exists_of_classify_rotation hrot h.1
      exact ⟨axis, angle, q, rfl⟩
    · exact ih h.2 d hd hrot

/-- The words found for a classified batch are those that the oracle has for its rotations. -/
theorem words_classifyAll (h : (forEach classify e cs).error? = none) :
    Oracle.words e.oracle (cs.filterMap Command.question?) = .ok (e.found cs) := by
  induction cs generalizing e with
  | nil => rfl
  | cons c cs ih =>
    rw [Outcome.forEach_cons, Outcome.andThen_eq_none_iff] at h
    -- the rest of the batch finds the oracle after the question of the first command
    have hcs := ih h.2
    rw [(queue_classify e c).2] at hcs
    rw [found_cons_of_ok h.1]
    cases hc : c.question? with
    | none =>
      rw [hc] at hcs
      rw [List.filterMap_cons_none hc, word?_of_no_question e hc]
      exact hcs
    | some q =>
      obtain ⟨axis, angle⟩ := q
      obtain ⟨q, rfl⟩ := Command.question?_eq_some_iff.1 hc
      obtain ⟨axis', angle', q', w, heq, hw⟩ := exists_of_classify_rotation rfl h.1
      cases heq
      rw [hc] at hcs
      rw [List.filterMap_cons_some hc, word?_rotation, hw]
      exact Oracle.words_cons_eq_ok_iff.2 ⟨hw, hcs⟩

theorem length_found (h : (forEach classify e cs).error? = none) :
    (e.found cs).length = rotationCount cs := by
  induction cs generalizing e with
  | nil => rfl
  | cons c cs ih =>
    rw [Outcome.forEach_cons, Outcome.andThen_eq_none_iff] at h
    rw [found_cons_of_ok h.1, List.length_append, ih h.2]
    by_cases hrot : c.gate.isRotation = true
    · obtain ⟨axis, angle, q, w, rfl, hw⟩ := exists_of_classify_rotation hrot h.1
      rw [rotationCount_cons_of_rotation hrot, word?_rotation, hw, Nat.add_comm]
      rfl
    · rw [Bool.not_eq_true] at hrot
      rw [rotationCount_cons_of_plain hrot,
        word?_of_no_question e (Command.question?_of_plain hrot), Option.toList_none,
        List.length_nil, Nat.zero_add]

end Engine

end CliffordT
