import CliffordT.Pipeline.Outcome

/-!
# Runs of steps

A run `Outcome.forEach f s as` takes one step for each element of a list and stops at the first step
that fails.

* `Outcome.forEach_induction` : what every step preserves, a run preserves, also one that stops;
* `Outcome.forEach_stop` : a run that stops leaves the state of the step it stops at, whatever comes
  behind it in the list;
* `Outcome.exists_stop` : a run that fails has such a step;
* `Outcome.collect` : what can be read off the steps of a run, in order;
* `Outcome.passed` : the elements of a run up to the one that it stops at.
-/

namespace CliffordT

namespace Outcome

variable {τ υ α ε : Type} {o : Outcome τ} {f : τ → α → Outcome τ} {s : τ} {err : PipelineError}

@[simp] theorem state_done (s : τ) : (done s).state = s := rfl

@[simp] theorem error?_done (s : τ) : (done s).error? = none := rfl

@[simp] theorem state_fail (s : τ) (e : PipelineError) : (fail s e).state = s := rfl

@[simp] theorem error?_fail (s : τ) (e : PipelineError) : (fail s e).error? = some e := rfl

@[simp] theorem state_note (s : τ) (n : Notice) : (note s n).state = s := rfl

@[simp] theorem error?_note (s : τ) (n : Notice) : (note s n).error? = none := rfl

@[simp] theorem state_map (g : τ → υ) (o : Outcome τ) : (o.map g).state = g o.state := rfl

@[simp] theorem error?_map (g : τ → υ) (o : Outcome τ) : (o.map g).error? = o.error? := rfl

theorem isOk_iff : o.isOk = true ↔ o.error? = none := by
  simp [isOk]

/-! ### Two steps -/

theorem andThen_of_error (h : o.error? = some err) (g : τ → Outcome τ) : o.andThen g = o := by
  simp [andThen, h]

theorem state_andThen (h : o.error? = none) (g : τ → Outcome τ) :
    (o.andThen g).state = (g o.state).state := by
  simp [andThen, h]

theorem error?_andThen (h : o.error? = none) (g : τ → Outcome τ) :
    (o.andThen g).error? = (g o.state).error? := by
  simp [andThen, h]

theorem andThen_eq_none_iff {g : τ → Outcome τ} :
    (o.andThen g).error? = none ↔ o.error? = none ∧ (g o.state).error? = none := by
  cases h : o.error? with
  | some err => rw [andThen_of_error h, h]; simp
  | none => rw [error?_andThen h]; simp

theorem andThen_induction {P : τ → Prop} {g : τ → Outcome τ} (ho : P o.state)
    (hg : P o.state → P (g o.state).state) : P (o.andThen g).state := by
  cases h : o.error? with
  | some err => rw [andThen_of_error h]; exact ho
  | none => rw [state_andThen h]; exact hg ho

/-! ### A step for each element -/

@[simp] theorem forEach_nil : forEach f s [] = done s := rfl

theorem forEach_cons (a : α) (as : List α) :
    forEach f s (a :: as) = (f s a).andThen fun s => forEach f s as := rfl

@[simp] theorem forEach_singleton (a : α) : forEach f s [a] = f s a :=
  andThen_done (f s a)

theorem forEach_map {β : Type} (g : β → α) (bs : List β) :
    forEach f s (bs.map g) = forEach (fun s b => f s (g b)) s bs := by
  induction bs generalizing s with
  | nil => rfl
  | cons b bs ih => simp only [List.map_cons, forEach_cons, ih]

/-- What every step preserves, a run preserves, also one that stops. -/
theorem forEach_induction {P : τ → Prop} (step : ∀ s a, P s → P (f s a).state) {s : τ} (h : P s)
    (as : List α) : P (forEach f s as).state := by
  induction as generalizing s with
  | nil => exact h
  | cons a as ih => exact andThen_induction (step s a h) fun h' => ih h'

theorem forEach_cons_of_error {a : α} (h : (f s a).error? = some err) (as : List α) :
    forEach f s (a :: as) = f s a :=
  andThen_of_error h _

theorem forEach_append_of_error {as : List α} (h : (forEach f s as).error? = some err)
    (bs : List α) : forEach f s (as ++ bs) = forEach f s as := by
  rw [forEach_append, andThen_of_error h]

theorem state_forEach_append {as : List α} (h : (forEach f s as).error? = none) (bs : List α) :
    (forEach f s (as ++ bs)).state = (forEach f (forEach f s as).state bs).state := by
  rw [forEach_append, state_andThen h]

theorem error?_forEach_append {as : List α} (h : (forEach f s as).error? = none) (bs : List α) :
    (forEach f s (as ++ bs)).error? = (forEach f (forEach f s as).state bs).error? := by
  rw [forEach_append, error?_andThen h]

theorem forEach_ok_of_append {as bs : List α} (h : (forEach f s (as ++ bs)).error? = none) :
    (forEach f s as).error? = none := by
  rw [forEach_append, andThen_eq_none_iff] at h
  exact h.1

/-- A run stops at the first step that fails, whatever comes behind it. -/
theorem forEach_stop {as : List α} {a : α} (has : (forEach f s as).error? = none)
    (ha : (f (forEach f s as).state a).error? = some err) (bs : List α) :
    forEach f s (as ++ a :: bs) = forEach f s (as ++ [a]) ∧
      (forEach f s (as ++ [a])).state = (f (forEach f s as).state a).state ∧
      (forEach f s (as ++ [a])).error? = some err := by
  have hstate := state_forEach_append has [a]
  have herror := error?_forEach_append has [a]
  rw [forEach_singleton] at hstate herror
  rw [ha] at herror
  refine ⟨?_, hstate, herror⟩
  rw [List.append_cons]
  exact forEach_append_of_error herror bs

/-- A run that fails stops at one of its steps. -/
theorem exists_stop {as : List α} (h : (forEach f s as).error? = some err) :
    ∃ before a behind, as = before ++ a :: behind ∧ (forEach f s before).error? = none ∧
      (f (forEach f s before).state a).error? = some err := by
  induction as generalizing s with
  | nil => cases h
  | cons a as ih =>
    rw [forEach_cons] at h
    cases ha : (f s a).error? with
    | some err' =>
      -- the run stops at its first step
      rw [andThen_of_error ha, ha] at h
      exact ⟨[], a, as, rfl, rfl, by rw [forEach_nil, state_done, ha, h]⟩
    | none =>
      rw [error?_andThen ha] at h
      obtain ⟨before, b, behind, rfl, hok, hb⟩ := ih h
      refine ⟨a :: before, b, behind, rfl, ?_, ?_⟩
      · rw [forEach_cons, error?_andThen ha]
        exact hok
      · rw [forEach_cons, state_andThen ha]
        exact hb

/-! ### The same step on a part of the state -/

variable {f' : υ → α → Outcome υ} {r : τ → υ}

theorem map_andThen {g : τ → Outcome τ} {g' : υ → Outcome υ} (h : ∀ s, g' (r s) = (g s).map r)
    (o : Outcome τ) : (o.map r).andThen g' = (o.andThen g).map r := by
  obtain ⟨s, e, ns⟩ := o
  cases e with
  | some e => rfl
  | none =>
    show (⟨(g' (r s)).state, (g' (r s)).error?, ns ++ (g' (r s)).notices⟩ : Outcome υ) = _
    rw [h s]
    rfl

theorem forEach_map_state (h : ∀ s a, f' (r s) a = (f s a).map r) (s : τ) (as : List α) :
    forEach f' (r s) as = (forEach f s as).map r := by
  induction as generalizing s with
  | nil => rfl
  | cons a as ih =>
    rw [forEach_cons, forEach_cons, h]
    exact map_andThen ih (f s a)

/-! ### What is seen on the way -/

/-- What `g` reads off the steps of a run, the step that it stops at included. -/
def collect (f : τ → α → Outcome τ) (g : τ → α → List ε) (s : τ) : List α → List ε
  | [] => []
  | a :: as => g s a ++ if (f s a).isOk then collect f g (f s a).state as else []

variable {g : τ → α → List ε}

@[simp] theorem collect_nil : collect f g s [] = [] := rfl

theorem collect_cons_of_ok {a : α} (h : (f s a).error? = none) (as : List α) :
    collect f g s (a :: as) = g s a ++ collect f g (f s a).state as := by
  rw [collect, if_pos (isOk_iff.2 h)]

theorem collect_cons_of_error {a : α} (h : (f s a).error? = some err) (as : List α) :
    collect f g s (a :: as) = g s a := by
  simp [collect, isOk, h]

theorem collect_append {as : List α} (h : (forEach f s as).error? = none) (bs : List α) :
    collect f g s (as ++ bs) = collect f g s as ++ collect f g (forEach f s as).state bs := by
  induction as generalizing s with
  | nil => rfl
  | cons a as ih =>
    rw [forEach_cons, andThen_eq_none_iff] at h
    rw [List.cons_append, collect_cons_of_ok h.1, collect_cons_of_ok h.1, ih h.2, forEach_cons,
      state_andThen h.1, List.append_assoc]

theorem collect_append_of_error {as : List α} (h : (forEach f s as).error? = some err)
    (bs : List α) : collect f g s (as ++ bs) = collect f g s as := by
  induction as generalizing s with
  | nil => cases h
  | cons a as ih =>
    cases ha : (f s a).error? with
    | some err' => rw [List.cons_append, collect_cons_of_error ha, collect_cons_of_error ha]
    | none =>
      rw [forEach_cons, error?_andThen ha] at h
      rw [List.cons_append, collect_cons_of_ok ha, collect_cons_of_ok ha, ih h]

theorem collect_map_state {f' : υ → α → Outcome υ} {g' : υ → α → List ε} {r : τ → υ}
    (h : ∀ s a, f' (r s) a = (f s a).map r) (hg : ∀ s a, g' (r s) a = g s a) (s : τ)
    (as : List α) : collect f' g' (r s) as = collect f g s as := by
  induction as generalizing s with
  | nil => rfl
  | cons a as ih =>
    rw [collect, collect, h, hg]
    exact congrArg (g s a ++ if (f s a).isOk then · else []) (ih (f s a).state)

theorem collect_induction {P : τ → List ε → Prop}
    (step : ∀ s a es, P s es → P (f s a).state (es ++ g s a)) {s : τ} {es : List ε} (h : P s es)
    (as : List α) : P (forEach f s as).state (es ++ collect f g s as) := by
  induction as generalizing s es with
  | nil =>
    rw [forEach_nil, collect_nil, List.append_nil]
    exact h
  | cons a as ih =>
    cases ha : (f s a).error? with
    | some err =>
      rw [forEach_cons_of_error ha, collect_cons_of_error ha]
      exact step s a es h
    | none =>
      rw [forEach_cons, state_andThen ha, collect_cons_of_ok ha, ← List.append_assoc]
      exact ih (step s a es h)

theorem map_collect {δ : Type} (k : ε → δ) (s : τ) (as : List α) :
    (collect f g s as).map k = collect f (fun s a => (g s a).map k) s as := by
  induction as generalizing s with
  | nil => rfl
  | cons a as ih =>
    rw [collect, collect, List.map_append]
    split
    · rw [ih]
    · rfl

theorem exists_of_mem_collect {as : List α} {x : ε} (h : x ∈ collect f g s as) :
    ∃ a ∈ as, ∃ s', x ∈ g s' a := by
  induction as generalizing s with
  | nil => cases h
  | cons a as ih =>
    rw [collect, List.mem_append] at h
    obtain hfirst | hrest := h
    · exact ⟨a, List.mem_cons_self, s, hfirst⟩
    · split at hrest
      · obtain ⟨b, hb, hx⟩ := ih hrest
        exact ⟨b, List.mem_cons_of_mem a hb, hx⟩
      · cases hrest

/-- The elements of a run up to the one that it stops at. -/
def passed (f : τ → α → Outcome τ) (s : τ) (as : List α) : List α :=
  collect f (fun s a => if (f s a).isOk then [a] else []) s as

theorem passed_of_ok {as : List α} (h : (forEach f s as).error? = none) : passed f s as = as := by
  induction as generalizing s with
  | nil => rfl
  | cons a as ih =>
    rw [forEach_cons, andThen_eq_none_iff] at h
    rw [passed, collect_cons_of_ok h.1, if_pos (isOk_iff.2 h.1)]
    exact congrArg (a :: ·) (ih h.2)

end Outcome

end CliffordT
