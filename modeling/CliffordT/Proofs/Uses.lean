import CliffordT.Proofs.Batch

/-!
# Uses of an engine

An engine is used on after faults, and its sink can be replaced between two calls.

* `Use`, `Engine.afterUses` : batches and new sinks, and the engine that they leave, whatever the
  results of the calls;
* `Engine.history` : what can be read off the calls, in order (`Engine.history_induction`);
* `Engine.visits` : the commands that classification has come to, each with the engine at that
  moment;
* `Engine.visits_induction` : what classification of a command preserves, and what does not concern
  the output, holds after any uses.
-/

namespace CliffordT

open Outcome (forEach)

/-- A use of an engine. -/
inductive Use (σ : Type) where
  /-- A batch is processed. -/
  | process (batch : List Command)
  /-- The engine gets another sink. -/
  | setSink (s : σ)

namespace Use

variable {σ σ' : Type}

/-- The batches of some uses, in order. -/
def batches : List (Use σ) → List (List Command)
  | [] => []
  | process batch :: us => batch :: batches us
  | setSink _ :: us => batches us

/-- The same use with what `r` makes of the sink. -/
def map (r : σ → σ') : Use σ → Use σ'
  | process batch => process batch
  | setSink s => setSink (r s)

theorem map_id (us : List (Use σ)) : us.map (map id) = us := by
  have hmap : (map id : Use σ → Use σ) = id := by
    funext u
    cases u <;> rfl
  rw [hmap, List.map_id]

theorem map_map {σ'' : Type} (r : σ → σ') (r' : σ' → σ'') (us : List (Use σ)) :
    (us.map (map r)).map (map r') = us.map (map (r' ∘ r)) := by
  have hmap : (map r' ∘ map r : Use σ → Use σ'') = map (r' ∘ r) := by
    funext u
    cases u <;> rfl
  rw [List.map_map, hmap]

theorem batches_map (r : σ → σ') (us : List (Use σ)) : batches (us.map (map r)) = batches us := by
  induction us with
  | nil => rfl
  | cons u us ih =>
    cases u with
    | process batch => exact congrArg (batch :: ·) ih
    | setSink s => exact ih

end Use

/-- A command that classification comes to. -/
structure Visit (ω σ ρ : Type) where
  /-- The engine when the command is due. -/
  engine : Engine ω σ ρ
  command : Command

/-- What becomes of the command. -/
def Visit.outcome {ω σ ρ : Type} [Oracle ω] [Recorder ρ] (v : Visit ω σ ρ) :
    Outcome (Engine ω σ ρ) :=
  v.engine.classify v.command

namespace Engine

variable {ω σ ρ ε : Type} [Oracle ω] [Sink σ] [Recorder ρ] {e : Engine ω σ ρ}

/-- Use an engine. -/
def use (e : Engine ω σ ρ) : Use σ → Outcome (Engine ω σ ρ)
  | .process batch => e.process batch
  | .setSink s => .done (e.setSink s)

/-- The engine after some uses, whatever their results. -/
def afterUses (e : Engine ω σ ρ) (us : List (Use σ)) : Engine ω σ ρ :=
  us.foldl (fun e u => (e.use u).state) e

/-- What `g` reads off the batches of some uses, each with the engine that gets it. -/
def history (g : Engine ω σ ρ → List Command → List ε) (e : Engine ω σ ρ) : List (Use σ) → List ε
  | [] => []
  | .process batch :: us => g e batch ++ history g (e.process batch).state us
  | .setSink s :: us => history g (e.setSink s) us

variable {g : Engine ω σ ρ → List Command → List ε}

@[simp] theorem afterUses_nil (e : Engine ω σ ρ) : e.afterUses [] = e := rfl

@[simp] theorem afterUses_cons (e : Engine ω σ ρ) (u : Use σ) (us : List (Use σ)) :
    e.afterUses (u :: us) = (e.use u).state.afterUses us := rfl

@[simp] theorem history_nil (e : Engine ω σ ρ) : e.history g [] = [] := rfl

@[simp] theorem history_process (e : Engine ω σ ρ) (batch : List Command) (us : List (Use σ)) :
    e.history g (.process batch :: us) = g e batch ++ (e.process batch).state.history g us := rfl

@[simp] theorem history_setSink (e : Engine ω σ ρ) (s : σ) (us : List (Use σ)) :
    e.history g (.setSink s :: us) = (e.setSink s).history g us := rfl

/-- What every call preserves of the engine and of what is read off so far, and another sink does
not concern, holds after any uses. -/
theorem history_induction {P : Engine ω σ ρ → List ε → Prop}
    (hprocess : ∀ e es batch, P e es → P (e.process batch).state (es ++ g e batch))
    (hsink : ∀ e es s, P e es → P (e.setSink s) es) {es : List ε} (h : P e es)
    (us : List (Use σ)) : P (e.afterUses us) (es ++ e.history g us) := by
  induction us generalizing e es with
  | nil =>
    rw [history_nil, List.append_nil]
    exact h
  | cons u us ih =>
    cases u with
    | process batch =>
      rw [history_process, ← List.append_assoc]
      exact ih (hprocess e es batch h)
    | setSink s => exact ih (hsink e es s h)

theorem exists_of_mem_history {us : List (Use σ)} {x : ε} (h : x ∈ e.history g us) :
    ∃ batch ∈ Use.batches us, ∃ e', x ∈ g e' batch := by
  induction us generalizing e with
  | nil => cases h
  | cons u us ih =>
    cases u with
    | process batch =>
      rw [history_process, List.mem_append] at h
      obtain hfirst | hrest := h
      · exact ⟨batch, List.mem_cons_self, e, hfirst⟩
      · obtain ⟨later, hlater, hx⟩ := ih hrest
        exact ⟨later, List.mem_cons_of_mem batch hlater, hx⟩
    | setSink s => exact ih h

/-! ### Visits -/

omit [Sink σ] in
/-- The commands of a batch that classification comes to: those up to the first one that it stops
at. -/
def visited (e : Engine ω σ ρ) (cs : List Command) : List (Visit ω σ ρ) :=
  Outcome.collect classify (fun e c => [⟨e, c⟩]) e cs

/-- The commands that classification comes to during some uses, in order. -/
def visits (e : Engine ω σ ρ) (us : List (Use σ)) : List (Visit ω σ ρ) := e.history visited us

/-- What classification of a command preserves of the engine and of the visits so far holds after
any uses, if it does not concern the output. -/
theorem visits_induction {P : Engine ω σ ρ → List (Visit ω σ ρ) → Prop}
    (hclassify : ∀ e c vs, P e vs → P (e.classify c).state (vs ++ [⟨e, c⟩]))
    (hsame : ∀ e e' vs, SameIntake e e' → P e vs → P e' vs) {vs : List (Visit ω σ ρ)} (h : P e vs)
    (us : List (Use σ)) : P (e.afterUses us) (vs ++ e.visits us) := by
  refine history_induction (g := visited) (P := P) (fun e vs batch h => ?_)
    (fun e vs s h => ?_) h us
  · refine hsame _ _ _ (sameIntake_process e batch) ?_
    exact Outcome.collect_induction (fun e c vs h => hclassify e c vs h) h batch
  · exact hsame e (e.setSink s) vs ⟨rfl, rfl, rfl, rfl, rfl, rfl, rfl⟩ h

omit [Sink σ] in
theorem visited_of_ok {cs : List Command} (h : (forEach classify e cs).error? = none) :
    (e.visited cs).map Visit.command = cs := by
  induction cs generalizing e with
  | nil => rfl
  | cons c cs ih =>
    rw [Outcome.forEach_cons, Outcome.andThen_eq_none_iff] at h
    rw [visited, Outcome.collect_cons_of_ok h.1, List.map_append]
    exact congrArg (c :: ·) (ih h.2)

omit [Sink σ] in
theorem visited_of_stop {before : List Command} {c : Command} {err : PipelineError}
    (hbefore : (forEach classify e before).error? = none)
    (hc : ((forEach classify e before).state.classify c).error? = some err)
    (behind : List Command) :
    (e.visited (before ++ c :: behind)).map Visit.command = before ++ [c] := by
  rw [visited, Outcome.collect_append hbefore, Outcome.collect_cons_of_error hc, List.map_append]
  exact congrArg (· ++ [c]) (visited_of_ok hbefore)

end Engine

end CliffordT
