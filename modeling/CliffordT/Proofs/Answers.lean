import CliffordT.Pipeline.Oracle

/-!
# Words from oracles

An oracle may change with every question, so what it answers to a rotation depends on the rotations
it was asked before.

* `Oracle.after` : an oracle after some questions,
* `Oracle.AnswersBy` : an oracle whose answers depend on the axis and the angle alone,
* `Oracle.wordFor` : the word that an oracle has for a rotation, or the fault,
* `Oracle.words` : the words for several rotations, asked one after the other,
* `Command.question?` : what a command asks.
-/

namespace CliffordT

/-- The rotation that an oracle is asked for a command: commands other than rotations ask nothing,
and a rotation must have one target. -/
def Command.question? (c : Command) : Option (Axis × Binary64) :=
  match c.gate, c.targets with
  | .rotation axis angle, [_] => some (axis, angle)
  | _, _ => none

theorem Command.question?_eq_some_iff {c : Command} {axis : Axis} {angle : Binary64} :
    c.question? = some (axis, angle) ↔ ∃ q, c = .rotation axis angle q := by
  constructor
  · obtain ⟨gate, targets⟩ := c
    intro h
    simp only [question?] at h
    split at h
    · rename_i a θ q
      cases h
      exact ⟨q, rfl⟩
    · cases h
  · rintro ⟨q, rfl⟩
    rfl

theorem Command.question?_of_plain {c : Command} (hc : c.gate.isRotation = false) :
    c.question? = none := by
  cases h : c.question? with
  | none => rfl
  | some q =>
    obtain ⟨q', rfl⟩ := question?_eq_some_iff.1 h
    cases hc

namespace Oracle

variable {ω : Type} [Oracle ω] {o : ω}

/-- An oracle after some questions. -/
def after (o : ω) (qs : List (Axis × Binary64)) : ω :=
  qs.foldl (fun o q => (synthesize o q.1 q.2).oracle) o

/-- The word that an oracle has for a rotation, or the fault. -/
def wordFor (o : ω) (axis : Axis) (angle : Binary64) : Except PipelineError Word :=
  match (synthesize o axis angle).result with
  | .error err => .error err
  | .ok raw =>
    match Word.ofOperatorText raw with
    | .error cause => .error (.malformedDecomposition axis angle cause)
    | .ok word => .ok word

/-- The words for several rotations, asked one after the other. -/
def words (o : ω) : List (Axis × Binary64) → Except PipelineError (List Word)
  | [] => .ok []
  | (axis, angle) :: qs =>
    match wordFor o axis angle, words (synthesize o axis angle).oracle qs with
    | .ok w, .ok ws => .ok (w :: ws)
    | .error err, _ => .error err
    | _, .error err => .error err

theorem wordFor_eq_ok_iff {axis : Axis} {angle : Binary64} {w : Word} :
    wordFor o axis angle = .ok w ↔ ∃ raw, (synthesize o axis angle).result = .ok raw ∧
      Word.ofOperatorText raw = .ok w := by
  unfold wordFor
  cases (synthesize o axis angle).result with
  | error err => simp
  | ok raw => cases h : Word.ofOperatorText raw <;> simp [h]

theorem wordFor_eq_error_iff {axis : Axis} {angle : Binary64} {err : PipelineError} :
    wordFor o axis angle = .error err ↔ (synthesize o axis angle).result = .error err ∨
      ∃ raw cause, (synthesize o axis angle).result = .ok raw ∧
        Word.ofOperatorText raw = .error cause ∧
        .malformedDecomposition axis angle cause = err := by
  unfold wordFor
  cases (synthesize o axis angle).result with
  | error err => simp
  | ok raw => cases h : Word.ofOperatorText raw <;> simp [h]

@[simp] theorem after_nil (o : ω) : after o [] = o := rfl

@[simp] theorem after_cons (o : ω) (q : Axis × Binary64) (qs : List (Axis × Binary64)) :
    after o (q :: qs) = after (synthesize o q.1 q.2).oracle qs := rfl

theorem after_append (o : ω) (qs rs : List (Axis × Binary64)) :
    after o (qs ++ rs) = after (after o qs) rs :=
  List.foldl_append

@[simp] theorem words_nil (o : ω) : words o [] = .ok [] := rfl

theorem words_cons_eq_ok_iff {axis : Axis} {angle : Binary64} {qs : List (Axis × Binary64)}
    {w : Word} {ws : List Word} :
    words o ((axis, angle) :: qs) = .ok (w :: ws) ↔
      wordFor o axis angle = .ok w ∧ words (synthesize o axis angle).oracle qs = .ok ws := by
  rw [words]
  constructor
  · intro h
    split at h
    · rename_i hw hws
      cases h
      exact ⟨hw, hws⟩
    · cases h
    · cases h
  · rintro ⟨hw, hws⟩
    rw [hw, hws]

/-- An oracle whose answers depend on the axis and the angle alone, whatever it was asked before. -/
def AnswersBy (o : ω) (answer : Axis → Binary64 → Except PipelineError String) : Prop :=
  ∀ qs axis angle, (synthesize (after o qs) axis angle).result = answer axis angle

variable {answer : Axis → Binary64 → Except PipelineError String}

theorem AnswersBy.after (h : AnswersBy o answer) (qs : List (Axis × Binary64)) :
    AnswersBy (Oracle.after o qs) answer := by
  intro rs axis angle
  rw [← after_append]
  exact h (qs ++ rs) axis angle

theorem AnswersBy.result (h : AnswersBy o answer) (axis : Axis) (angle : Binary64) :
    (synthesize o axis angle).result = answer axis angle :=
  h [] axis angle

end Oracle

theorem FunctionOracle.after_eq (o : FunctionOracle) (qs : List (Axis × Binary64)) :
    Oracle.after o qs = o := by
  induction qs with
  | nil => rfl
  | cons q qs ih => exact ih

theorem FunctionOracle.answersBy (o : FunctionOracle) : Oracle.AnswersBy o o.answer := by
  intro qs axis angle
  rw [o.after_eq]
  rfl

end CliffordT
