import CliffordT.Pipeline.Error
import CliffordT.Pipeline.Notice

/-!
# Outcomes of steps

A step of a pipeline leaves a state behind even where it fails: what it has done before it failed is
done.  Steps are joined by `Outcome.andThen`, which stops at the first fault and keeps its state.
-/

namespace CliffordT

/-- What a step leaves behind. -/
structure Outcome (τ : Type) where
  state : τ
  /-- The fault that the step stopped at, if any. -/
  error? : Option PipelineError := none
  /-- What the step reported. -/
  notices : List Notice := []

namespace Outcome

variable {τ υ : Type}

/-- A step that succeeds. -/
def done (s : τ) : Outcome τ := ⟨s, none, []⟩

/-- A step that fails. -/
def fail (s : τ) (e : PipelineError) : Outcome τ := ⟨s, some e, []⟩

/-- A step that only reports. -/
def note (s : τ) (n : Notice) : Outcome τ := ⟨s, none, [n]⟩

/-- The step did not fail. -/
def isOk (o : Outcome τ) : Bool := o.error?.isNone

/-- The same step on a part of a larger state. -/
def map (f : τ → υ) (o : Outcome τ) : Outcome υ := ⟨f o.state, o.error?, o.notices⟩

/-- One step after another: the second one runs if the first one succeeds. -/
def andThen (o : Outcome τ) (f : τ → Outcome τ) : Outcome τ :=
  match o.error? with
  | some _ => o
  | none => ⟨(f o.state).state, (f o.state).error?, o.notices ++ (f o.state).notices⟩

/-- A step for each element of a list. -/
def forEach {α : Type} (f : τ → α → Outcome τ) (s : τ) : List α → Outcome τ
  | [] => done s
  | a :: as => (f s a).andThen fun s => forEach f s as

@[simp] theorem done_andThen (s : τ) (f : τ → Outcome τ) : (done s).andThen f = f s := by
  simp [done, andThen]

@[simp] theorem fail_andThen (s : τ) (e : PipelineError) (f : τ → Outcome τ) :
    (fail s e).andThen f = fail s e := rfl

@[simp] theorem andThen_done (o : Outcome τ) : o.andThen done = o := by
  obtain ⟨s, e, ns⟩ := o
  cases e <;> simp [andThen, done]

/-- Steps may be grouped in any way. -/
theorem andThen_assoc (o : Outcome τ) (f g : τ → Outcome τ) :
    (o.andThen f).andThen g = o.andThen fun s => (f s).andThen g := by
  obtain ⟨s, e, ns⟩ := o
  cases e with
  | some e => rfl
  | none =>
    cases h : (f s).error? <;> simp [andThen, h]

/-- A list is worked off in two parts. -/
theorem forEach_append {α : Type} (f : τ → α → Outcome τ) (s : τ) (as bs : List α) :
    forEach f s (as ++ bs) = (forEach f s as).andThen fun s => forEach f s bs := by
  induction as generalizing s with
  | nil => simp [forEach]
  | cons a as ih => simp only [List.cons_append, forEach, andThen_assoc, ih]

end Outcome

end CliffordT
