import CliffordT.Proofs.Intake

/-!
# Batch boundaries

A stream of commands can be cut into batches in many ways.  Joined, all of it is classified before
anything is sent; in pieces, the first piece is sent before the second one is looked at.

* `Engine.run`, `Engine.asks` : calls one after the other, and the questions that they ask;
* `Engine.process_append_of_ok` : if the first of two pieces succeeds, the second one ends as both
  of them joined do, with the same engine if it succeeds;
* `Engine.Cut` : how a stream in pieces compares with the joined one;
* `Engine.process_cut` : it does so for every cut of every stream, in every state.
-/

namespace CliffordT

namespace Engine

open Outcome (forEach)

variable {ω σ ρ : Type} [Oracle ω] [Sink σ] [Recorder ρ] {e : Engine ω σ ρ} {s : σ}
  {a b : List Command} {err : PipelineError}

/-- Calls one after the other, up to the first one that fails. -/
def run (e : Engine ω σ ρ) (batches : List (List Command)) : Outcome (Engine ω σ ρ) :=
  forEach process e batches

/-- The questions that some calls ask the oracle, in order, up to the call that fails. -/
def asks (e : Engine ω σ ρ) (batches : List (List Command)) : List (Axis × Binary64) :=
  Outcome.collect process questions e batches

omit [Sink σ] in
theorem found_append (h : (forEach classify e a).error? = none) (b : List Command) :
    e.found (a ++ b) = e.found a ++ (forEach classify e a).state.found b :=
  Outcome.collect_append h b

omit [Sink σ] in
theorem questions_append (h : (forEach classify e a).error? = none) (b : List Command) :
    e.questions (a ++ b) = e.questions a ++ (forEach classify e a).state.questions b :=
  Outcome.collect_append h b

omit [Sink σ] in
theorem take_found_append (h : (forEach classify e a).error? = none) (b : List Command) :
    (e.pending ++ e.found (a ++ b)).take (rotationCount (a ++ b)) =
      (e.pending ++ e.found a).take (rotationCount a) ++
        ((e.pending ++ e.found a).drop (rotationCount a) ++
          (forEach classify e a).state.found b).take (rotationCount b) := by
  have hlen := length_found h
  rw [found_append h, rotationCount_append, ← List.append_assoc, List.take_add,
    List.take_append_of_le_length (by rw [List.length_append]; omega),
    List.drop_append_of_le_length (by rw [List.length_append]; omega)]

omit [Sink σ] in
theorem drop_found_append (h : (forEach classify e a).error? = none) (b : List Command) :
    (e.pending ++ e.found (a ++ b)).drop (rotationCount (a ++ b)) =
      ((e.pending ++ e.found a).drop (rotationCount a) ++
        (forEach classify e a).state.found b).drop (rotationCount b) := by
  have hlen := length_found h
  rw [found_append h, rotationCount_append, ← List.append_assoc, ← List.drop_drop,
    List.drop_append_of_le_length (by rw [List.length_append]; omega)]

omit [Sink σ] in
theorem exists_rewrites_append (h : (forEach classify e (a ++ b)).error? = none) :
    ∃ ps qs, Rewrites a ((e.pending ++ e.found a).take (rotationCount a)) ps ∧
      Rewrites b (((e.pending ++ e.found a).drop (rotationCount a) ++
        (forEach classify e a).state.found b).take (rotationCount b)) qs ∧
      Rewrites (a ++ b) ((e.pending ++ e.found (a ++ b)).take (rotationCount (a ++ b)))
        (ps ++ qs) := by
  have ha := Outcome.forEach_ok_of_append h
  have hb := (Outcome.error?_forEach_append ha b).symm.trans h
  obtain ⟨ps, hps⟩ := exists_rewrites_of_classifyAll ha
  obtain ⟨qs, hqs⟩ : ∃ qs, Rewrites b (((e.pending ++ e.found a).drop (rotationCount a) ++
      (forEach classify e a).state.found b).take (rotationCount b)) qs := by
    refine exists_rewrites (targets_of_classifyAll hb) ?_
    rw [List.length_take, List.length_append, length_found hb]
    omega
  refine ⟨ps, qs, hps, hqs, ?_⟩
  rw [take_found_append ha]
  exact hps.append hqs

/-! ### Two pieces -/

/-- Classification of the second piece does not notice that the first one was sent in between. -/
theorem classifyAll_process (e : Engine ω σ ρ) (a b : List Command) :
    (forEach classify (e.process a).state b).error? =
        (forEach classify (forEach classify e a).state b).error? ∧
      SameIntake (forEach classify (forEach classify e a).state b).state
        (forEach classify (e.process a).state b).state ∧
      (e.process a).state.found b = (forEach classify e a).state.found b ∧
      (e.process a).state.questions b = (forEach classify e a).state.questions b :=
  (sameIntake_process e a).classifyAll b

/-- What the second piece leaves differs from what classification of both leaves as the output of
the first piece does. -/
theorem state_classifyAll_process (e : Engine ω σ ρ) (a b : List Command) :
    ∃ t : Engine ω σ ρ,
      (forEach classify (e.process a).state b).state = rebase (e.process a).state.output t ∧
      (forEach classify (forEach classify e a).state b).state =
        rebase (forEach classify e a).state.output t := by
  refine ⟨(forEach classify { (forEach classify e a).state with pending := [] } b).state, ?_, ?_⟩
  · have h := classifyAll_rebase (e.process a).state.output
      { (forEach classify e a).state with pending := [] } b
    rw [(sameIntake_process e a).rebase_output] at h
    rw [h]
    rfl
  · have h := classifyAll_rebase (forEach classify e a).state.output
      { (forEach classify e a).state with pending := [] } b
    rw [(SameIntake.refl _).rebase_output] at h
    rw [h]
    rfl

theorem process_ok_of_append (h : (e.process (a ++ b)).error? = none) :
    (e.process a).error? = none := by
  have hab := classify_ok_of_process_ok h
  have ha := Outcome.forEach_ok_of_append hab
  cases hs : e.sink with
  | none => exact (process_of_terminal hs ha).2
  | some s =>
    obtain ⟨ps, qs, hps, -, hpqs⟩ := exists_rewrites_append hab
    have hsend := (process_rewrites hs hab hpqs).1.symm.trans h
    rw [List.flatMap_append] at hsend
    rw [(process_rewrites hs ha hps).1]
    exact Outcome.forEach_ok_of_append hsend

theorem process_append_of_terminal (hs : e.sink = none)
    (hab : (forEach classify e (a ++ b)).error? = none) :
    ((e.process a).state.process b).error? = (e.process (a ++ b)).error? ∧
      ((e.process a).state.process b).state = (e.process (a ++ b)).state := by
  have ha := Outcome.forEach_ok_of_append hab
  have hb := (Outcome.error?_forEach_append ha b).symm.trans hab
  rw [← (classifyAll_process e a b).1] at hb
  obtain ⟨t, ht, ht'⟩ := state_classifyAll_process e a b
  obtain ⟨astate, -⟩ := process_of_terminal hs ha
  have hs' : (e.process a).state.sink = none := by
    rw [astate]
    exact (sameOutput_classifyAll e a).sink.trans hs
  obtain ⟨bstate, berror⟩ := process_of_terminal hs' hb
  obtain ⟨abstate, aberror⟩ := process_of_terminal hs hab
  rw [berror, aberror, bstate, abstate, ht, Outcome.state_forEach_append ha, ht', astate]
  exact ⟨rfl, rfl⟩

theorem process_append_of_sink (hs : e.sink = some s)
    (hab : (forEach classify e (a ++ b)).error? = none) (h : (e.process a).error? = none) :
    ((e.process a).state.process b).error? = (e.process (a ++ b)).error? ∧
      (((e.process a).state.process b).error? = none →
        ((e.process a).state.process b).state = (e.process (a ++ b)).state) := by
  have ha := Outcome.forEach_ok_of_append hab
  have hb := (Outcome.error?_forEach_append ha b).symm.trans hab
  obtain ⟨hresult, -, hfound, -⟩ := classifyAll_process e a b
  rw [← hresult] at hb
  obtain ⟨t, ht, ht'⟩ := state_classifyAll_process e a b
  obtain ⟨ps, qs, hps, hqs, hpqs⟩ := exists_rewrites_append hab
  -- the first piece leaves the sink behind its parts, and the queue behind its words
  have hsend := (process_rewrites hs ha hps).1.symm.trans h
  have hstate := process_of_accepted hs ha hps hsend
  have hs' : (e.process a).state.sink = some (Sink.sendAll s (ps.flatMap Part.commands)).state := by
    rw [hstate]
    rfl
  have hp' : (e.process a).state.pending = (e.pending ++ e.found a).drop (rotationCount a) := by
    rw [hstate]
  rw [← hfound, ← hp'] at hqs
  have berror := (process_rewrites hs' hb hqs).1
  have aberror := (process_rewrites hs hab hpqs).1
  rw [List.flatMap_append] at aberror
  refine ⟨?_, fun hok => ?_⟩
  · rw [berror, aberror, Sink.error?_sendAll_append hsend]
  · have hsend' := berror.symm.trans hok
    have hsendall : (Sink.sendAll s ((ps ++ qs).flatMap Part.commands)).error? = none := by
      rw [List.flatMap_append, Sink.error?_sendAll_append hsend]
      exact hsend'
    rw [process_of_accepted hs' hb hqs hsend', process_of_accepted hs hab hpqs hsendall,
      Outcome.state_forEach_append ha, ht, ht', hfound, hp', drop_found_append ha,
      List.flatMap_append, Sink.state_sendAll_append hsend, hstate]
    simp [sent, rebase, output, Part.stream, Tally.bumpAll_append, Nat.add_assoc]

/-- A second piece that is not classified is not classified in the joined batch either, and leaves
the same intake. -/
theorem process_append_of_error (ha : (forEach classify e a).error? = none)
    (hb : (forEach classify (forEach classify e a).state b).error? = some err) :
    (e.process (a ++ b)).error? = some err ∧ ((e.process a).state.process b).error? = some err ∧
      SameIntake (e.process (a ++ b)).state ((e.process a).state.process b).state := by
  obtain ⟨hresult, hsame, -, -⟩ := classifyAll_process e a b
  have herror := (Outcome.error?_forEach_append ha b).trans hb
  rw [hb] at hresult
  rw [process_of_error herror, process_of_error hresult, Outcome.state_forEach_append ha]
  exact ⟨herror, hresult, hsame⟩

/-- If the first of two pieces succeeds, the second one has the result of both of them joined, and
if that is a success, it leaves the same engine. -/
theorem process_append_of_ok (h : (e.process a).error? = none) (b : List Command) :
    ((e.process a).state.process b).error? = (e.process (a ++ b)).error? ∧
      (((e.process a).state.process b).error? = none →
        ((e.process a).state.process b).state = (e.process (a ++ b)).state) := by
  have ha := classify_ok_of_process_ok h
  cases hb : (forEach classify (forEach classify e a).state b).error? with
  | some err =>
    obtain ⟨aberror, berror, -⟩ := process_append_of_error ha hb
    rw [aberror, berror]
    exact ⟨rfl, fun hok => by cases hok⟩
  | none =>
    have hab := (Outcome.error?_forEach_append ha b).trans hb
    cases hs : e.sink with
    | none =>
      obtain ⟨herror, hstate⟩ := process_append_of_terminal hs hab
      exact ⟨herror, fun _ => hstate⟩
    | some s => exact process_append_of_sink hs hab h

/-! ### Any number of pieces -/

/-- How the pieces of a stream compare with the joined one. -/
structure Cut (e : Engine ω σ ρ) (joined : List Command) (pieces : List (List Command)) :
    Prop where
  /-- The pieces succeed, one after the other, if and only if the joined batch does. -/
  ok_iff : (e.run pieces).error? = none ↔ (e.process joined).error? = none
  /-- Then they leave the same engine: the oracle, the sink and the recorder, the register and the
  queue, and all counters. -/
  state : (e.run pieces).error? = none → (e.run pieces).state = (e.process joined).state
  /-- They have asked the oracle the same questions in the same order. -/
  questions : (e.run pieces).error? = none → e.asks pieces = e.questions joined
  /-- Where the joined batch is not classified, and the sink, if there is one, accepts everything,
  the pieces fail with the same fault.  They leave all but the output the same, and have asked the
  same questions. -/
  fault : (∀ s, e.sink = some s → Sink.AcceptsAll s) →
    ∀ err, (forEach classify e joined).error? = some err →
      (e.run pieces).error? = some err ∧
        SameIntake (e.process joined).state (e.run pieces).state ∧
        e.asks pieces = e.questions joined

theorem cut_singleton (e : Engine ω σ ρ) (a : List Command) : Cut e a [a] := by
  have hrun : e.run [a] = e.process a := Outcome.forEach_singleton a
  have hasks : e.asks [a] = e.questions a := by
    simp [asks, Outcome.collect]
  refine ⟨by rw [hrun], fun _ => by rw [hrun], fun _ => hasks, fun _ err herr => ?_⟩
  rw [hrun, process_of_error herr]
  exact ⟨herr, .refl _, hasks⟩

/-- Before a sink that accepts everything, a classified batch succeeds, and the sink goes on to do
so. -/
theorem process_of_acceptsAll (haccepts : ∀ s, e.sink = some s → Sink.AcceptsAll s)
    (h : (forEach classify e a).error? = none) :
    (e.process a).error? = none ∧ ∀ s, (e.process a).state.sink = some s → Sink.AcceptsAll s := by
  cases hs : e.sink with
  | none =>
    obtain ⟨hstate, herror⟩ := process_of_terminal hs h
    refine ⟨herror, fun s hs' => ?_⟩
    rw [hstate] at hs'
    cases (hs.symm.trans (sameOutput_classifyAll e a).sink.symm).trans hs'
  | some s =>
    obtain ⟨ps, hps⟩ := exists_rewrites_of_classifyAll h
    have hsend := haccepts s hs (ps.flatMap Part.commands)
    refine ⟨(process_rewrites hs h hps).1.trans hsend, fun s' hs' => ?_⟩
    rw [process_of_accepted hs h hps hsend] at hs'
    cases hs'
    exact (haccepts s hs).sendAll _

theorem run_cons (e : Engine ω σ ρ) (a : List Command) (pieces : List (List Command)) :
    e.run (a :: pieces) = (e.process a).andThen fun e => e.run pieces := rfl

theorem run_concat {pieces : List (List Command)} (h : (e.run pieces).error? = none)
    (a : List Command) :
    (e.run (pieces ++ [a])).error? = ((e.run pieces).state.process a).error? ∧
      (e.run (pieces ++ [a])).state = ((e.run pieces).state.process a).state ∧
      e.asks (pieces ++ [a]) = e.asks pieces ++ (e.run pieces).state.questions a := by
  have hasks := Outcome.collect_append (g := questions) h [a]
  refine ⟨?_, ?_, hasks.trans ?_⟩
  · rw [run, Outcome.error?_forEach_append h, Outcome.forEach_singleton]
    rfl
  · rw [run, Outcome.state_forEach_append h, Outcome.forEach_singleton]
    rfl
  · simp [Outcome.collect, asks, run]

theorem Cut.cons_of_error (h : (e.process a).error? = some err) (b : List Command)
    (pieces : List (List Command)) : Cut e (a ++ b) (a :: pieces) := by
  have hrun : e.run (a :: pieces) = e.process a := by
    rw [run_cons, Outcome.andThen_of_error h]
  have hfails : (e.run (a :: pieces)).error? ≠ none := by simp [hrun, h]
  have hjoined : (e.process (a ++ b)).error? ≠ none := by
    intro hok
    rw [process_ok_of_append hok] at h
    cases h
  refine ⟨by simp [hfails, hjoined], fun hok => absurd hok hfails, fun hok => absurd hok hfails,
    fun haccepts err' herr' => ?_⟩
  cases ha : (forEach classify e a).error? with
  | none =>
    -- a sink that accepts everything is not to blame
    rw [(process_of_acceptsAll haccepts ha).1] at h
    cases h
  | some err'' =>
    have hab := Outcome.forEach_append_of_error ha b
    have hasks : e.asks (a :: pieces) = e.questions a := Outcome.collect_cons_of_error h pieces
    rw [hrun, hasks, process_of_error herr', process_of_error ha, ← hab]
    exact ⟨herr', .refl _, (Outcome.collect_append_of_error ha b).symm⟩

theorem Cut.cons_of_ok (h : (e.process a).error? = none) {pieces : List (List Command)}
    (hcut : Cut (e.process a).state b pieces) : Cut e (a ++ b) (a :: pieces) := by
  have ha := classify_ok_of_process_ok h
  obtain ⟨hresult, hstate⟩ := process_append_of_ok h b
  have herror : (e.run (a :: pieces)).error? = ((e.process a).state.run pieces).error? :=
    Outcome.error?_andThen h _
  have hleft : (e.run (a :: pieces)).state = ((e.process a).state.run pieces).state :=
    Outcome.state_andThen h _
  have hasks : e.asks (a :: pieces) = e.questions a ++ (e.process a).state.asks pieces :=
    Outcome.collect_cons_of_ok h pieces
  have hquestions : e.questions (a ++ b) = e.questions a ++ (e.process a).state.questions b := by
    rw [(classifyAll_process e a b).2.2.2]
    exact questions_append ha b
  refine ⟨?_, ?_, ?_, ?_⟩
  · rw [herror, hcut.ok_iff, hresult]
  · intro hok
    rw [herror] at hok
    rw [hleft, hcut.state hok, hstate (hcut.ok_iff.1 hok)]
  · intro hok
    rw [herror] at hok
    rw [hasks, hcut.questions hok, hquestions]
  · intro haccepts err' herr'
    -- the first piece has been classified, so the fault lies in the second one
    have hb := (Outcome.error?_forEach_append ha b).symm.trans herr'
    obtain ⟨-, -, hsame⟩ := process_append_of_error ha hb
    rw [← (classifyAll_process e a b).1] at hb
    obtain ⟨hfault, hsame', hasked⟩ := hcut.fault (process_of_acceptsAll haccepts ha).2 err' hb
    rw [herror, hleft, hasks, hquestions, hasked]
    exact ⟨hfault, hsame.trans hsame', rfl⟩

/-- **Batch boundaries do not matter.**  Whether a stream of commands is worked off as one batch or
cut into two, or into any number of batches, makes no difference to its success and, if it succeeds,
none to what it leaves behind, whatever the engine has been through before.  Where it is not
classified, a cut makes no difference to the fault and to what classification keeps. -/
theorem process_cut (e : Engine ω σ ρ) :
    (∀ a b, Cut e (a ++ b) [a, b]) ∧
      ∀ first rest, Cut e (first ++ rest.flatten) (first :: rest) := by
  -- the engine behind one piece is where the next one starts, so it is general in the induction
  have hcut : ∀ (rest : List (List Command)) (e : Engine ω σ ρ) (first : List Command),
      Cut e (first ++ rest.flatten) (first :: rest) := by
    intro rest
    induction rest with
    | nil =>
      intro e first
      rw [List.flatten_nil, List.append_nil]
      exact cut_singleton e first
    | cons b rest ih =>
      intro e first
      cases h : (e.process first).error? with
      | some err => exact .cons_of_error h _ _
      | none => exact .cons_of_ok h (ih _ b)
  refine ⟨fun a b => ?_, fun first rest => hcut rest e first⟩
  have h := hcut [b] e a
  rwa [List.flatten_singleton] at h

/-- An engine with a stale word: in three pieces, the last one of which is empty, the rotations take
the same words as in one.  A release that is not in order fails in pieces as it does joined, but the
piece before it is sent. -/
theorem process_cut_stale_word :
    let o : FunctionOracle := ⟨fun axis _ => .ok (if axis = .z then "S" else "TH")⟩
    let log : CommandLog := {}
    let fresh : Engine FunctionOracle CommandLog OutcomeLog := { oracle := o, sink := some log }
    let half : Binary64 := ⟨0x3fe0000000000000⟩
    let e := (fresh.process [.rx half ⟨0⟩, .deallocate ⟨7⟩]).state
    let a : List Command := [.rz half ⟨1⟩, .measure ⟨1⟩]
    let b : List Command := [.rx half ⟨2⟩]
    e.pending = [⟨[.h, .t]⟩] ∧ (e.run [a, b, []]).error? = none ∧
      (e.run [a, b, []]).state.sink = some ⟨[.fixed .h ⟨1⟩, .fixed .t ⟨1⟩, .measure ⟨1⟩,
        .fixed .s ⟨2⟩]⟩ ∧
      Cut e (a ++ [b, []].flatten) [a, b, []] ∧
      (forEach classify e (a ++ [.deallocate ⟨8⟩])).error? = some (.counterUnderflow ⟨8⟩) ∧
      (e.run [a, [.deallocate ⟨8⟩]]).state.sink = some ⟨[.fixed .h ⟨1⟩, .fixed .t ⟨1⟩,
        .measure ⟨1⟩]⟩ ∧
      Cut e (a ++ [.deallocate ⟨8⟩]) [a, [.deallocate ⟨8⟩]] := by
  intro o log fresh half e a b
  obtain ⟨htwo, hmany⟩ := process_cut e
  exact ⟨by decide, by decide, by decide, hmany a [b, []], by decide, by decide, htwo a _⟩

end Engine

end CliffordT
