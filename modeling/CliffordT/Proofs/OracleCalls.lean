import CliffordT.Proofs.Parts

/-!
# Questions to the oracle

The oracle is asked while a batch is classified, and the words that it has go into the queue.  Both
last when the batch fails.

* `Exchange`, `Transcript` : an oracle that writes down what it is asked and what it answers, which
  the engine does not notice;
* `Visit.pushed` : the words that classification of a command puts into the queue;
* `Engine.dialogue` : the questions and the answers during some uses of a fresh engine;
* `Engine.Asks` : one question for each rotation with one target that classification comes to, and
  one word for each text that is a word;
* `Engine.EndsAt`, `Engine.RotationFaults` : how a batch ends at a rotation that has no word;
* `Engine.oracle_history` : this is so after any uses of an engine.
-/

namespace CliffordT

open Outcome (forEach)

/-! ### Transcripts -/

/-- A question to an oracle, and what it has answered. -/
structure Exchange where
  question : Axis × Binary64
  answer : Except PipelineError String

/-- The word of an answer, if it is the text of one. -/
def Exchange.word? (x : Exchange) : Option Word :=
  match x.answer with
  | .ok raw => (Word.ofOperatorText raw).toOption
  | .error _ => none

/-- An oracle with the questions that it was asked and its answers, in order. -/
structure Transcript (ω : Type) where
  oracle : ω
  exchanges : List Exchange := []

namespace Transcript

variable {ω σ : Type} [Oracle ω]

instance : Oracle (Transcript ω) where
  name t := Oracle.name t.oracle
  synthesize t axis angle :=
    let answer := Oracle.synthesize t.oracle axis angle
    answer.map fun o => ⟨o, t.exchanges ++ [⟨(axis, angle), answer.result⟩]⟩

theorem sameParts [Sink σ] : SameParts (Transcript.oracle (ω := ω)) (id : σ → σ) :=
  ⟨fun _ => rfl, fun _ _ _ => rfl, fun _ _ => rfl⟩

end Transcript

theorem Exchange.word?_answer {ω : Type} [Oracle ω] (o : ω) (q : Axis × Binary64) :
    word? ⟨q, (Oracle.synthesize o q.1 q.2).result⟩ = (Oracle.wordFor o q.1 q.2).toOption := by
  unfold word? Oracle.wordFor
  dsimp only
  cases (Oracle.synthesize o q.1 q.2).result with
  | error err => rfl
  | ok raw => cases h : Word.ofOperatorText raw <;> simp [h, Except.toOption]

/-- The words that classification of a command puts into the queue, behind those that wait. -/
def Visit.pushed {ω σ ρ : Type} [Oracle ω] [Recorder ρ] (v : Visit ω σ ρ) : List Word :=
  v.outcome.state.pending.drop v.engine.pending.length

namespace Engine

variable {ω σ ρ : Type} [Oracle ω] [Recorder ρ] {e : Engine ω σ ρ}

/-! ### One command -/

theorem pushed_eq (e : Engine ω σ ρ) (c : Command) :
    Visit.pushed ⟨e, c⟩ = (e.word? c).toList := by
  rw [Visit.pushed, Visit.outcome, (queue_classify e c).1, List.drop_left]

theorem rotations_classify (e : Engine ω σ ρ) (c : Command) :
    (e.classify c).state.stats.rotations =
      e.stats.rotations + c.question?.toList.length := by
  cases hc : c.question? with
  | none => exact (classify_of_no_question e hc).2.2
  | some q =>
    obtain ⟨axis, angle⟩ := q
    obtain ⟨q, rfl⟩ := Command.question?_eq_some_iff.1 hc
    rw [classify_rotation, state_synthesize]
    rfl

theorem flatMap_pushed_visited (e : Engine ω σ ρ) (cs : List Command) :
    (e.visited cs).flatMap Visit.pushed = e.found cs := by
  have hstep : ∀ (e' : Engine ω σ ρ) c vs, e'.pending = e.pending ++ vs.flatMap Visit.pushed →
      (e'.classify c).state.pending =
        e.pending ++ (vs ++ [(⟨e', c⟩ : Visit ω σ ρ)]).flatMap Visit.pushed := by
    intro e' c vs h
    rw [(queue_classify e' c).1, h, List.flatMap_append, List.flatMap_singleton, pushed_eq,
      List.append_assoc]
  have hstart : e.pending = e.pending ++ ([] : List (Visit ω σ ρ)).flatMap Visit.pushed :=
    (List.append_nil _).symm
  have hrun := Outcome.collect_induction hstep hstart cs
  rw [pending_classifyAll, List.nil_append] at hrun
  exact (List.append_cancel_left hrun).symm

/-! ### Questions and words -/

omit [Oracle ω] [Recorder ρ] in
/-- The questions and the answers so far, `xs`, are those of the commands that classification
has come to, the visits `vs`. -/
structure Asks [Oracle ω] [Recorder ρ] (e : Engine ω σ ρ) (vs : List (Visit ω σ ρ))
    (xs : List Exchange) : Prop where
  /-- The oracle is asked for each rotation with one target, in order, and for nothing else. -/
  questions : xs.map Exchange.question = vs.filterMap fun v => v.command.question?
  /-- The questions are counted. -/
  rotations : e.stats.rotations = xs.length
  /-- The words that were put into the queue are those of the answers which are one. -/
  pushed : vs.flatMap Visit.pushed = xs.filterMap Exchange.word?

/-- With parts that do the same, the questions and the answers are those of the same commands. -/
theorem Asks.mapParts {ω' σ' : Type} [Oracle ω'] [Sink σ] [Sink σ'] {fo : ω → ω'} {fs : σ → σ'}
    (hparts : SameParts fo fs) {vs : List (Visit ω σ ρ)}
    {xs : List Exchange} (h : Asks e vs xs) :
    Asks (mapParts fo fs e) (vs.map (Visit.mapParts fo fs)) xs := by
  have hpushed : ∀ v : Visit ω σ ρ, (Visit.mapParts fo fs v).pushed = v.pushed := by
    intro v
    show ((Engine.mapParts fo fs v.engine).classify v.command).state.pending.drop _ = _
    rw [classify_mapParts v.engine hparts]
    rfl
  refine ⟨?_, h.rotations, ?_⟩
  · rw [h.questions, List.filterMap_map]
    rfl
  · rw [List.flatMap_map, ← h.pushed]
    exact congrArg (fun f => vs.flatMap f) (funext hpushed)

section Transcripts

variable {e : Engine (Transcript ω) σ ρ} {vs : List (Visit (Transcript ω) σ ρ)}

theorem exchanges_classify (e : Engine (Transcript ω) σ ρ) (c : Command) :
    (e.classify c).state.oracle.exchanges = e.oracle.exchanges ++
      (c.question?.map fun q => ⟨q, (Oracle.synthesize e.oracle q.1 q.2).result⟩).toList := by
  rw [(queue_classify e c).2]
  cases c.question? with
  | none => exact (List.append_nil _).symm
  | some q => rfl

theorem Asks.classify (h : Asks e vs e.oracle.exchanges) (c : Command) :
    Asks (e.classify c).state (vs ++ [⟨e, c⟩]) (e.classify c).state.oracle.exchanges := by
  have hexchanges := exchanges_classify e c
  have hrotations := rotations_classify e c
  constructor
  · rw [hexchanges, List.map_append, h.questions, List.filterMap_append]
    cases hc : c.question? <;> simp [hc]
  · rw [hrotations, hexchanges, h.rotations, List.length_append]
    cases c.question? <;> rfl
  · rw [hexchanges, List.flatMap_append, h.pushed, List.filterMap_append, List.flatMap_singleton,
      pushed_eq, word?]
    cases c.question? with
    | none => rfl
    | some q =>
      have hword := Exchange.word?_answer e.oracle q
      rw [Option.map_some, Option.toList_some, Option.bind_some, ← hword]
      cases hw : Exchange.word? ⟨q, (Oracle.synthesize e.oracle q.1 q.2).result⟩ <;> simp [hw]

theorem Asks.congr {e' : Engine (Transcript ω) σ ρ} (h : Asks e vs e.oracle.exchanges)
    (hsame : SameIntake e e') : Asks e' vs e'.oracle.exchanges := by
  rw [hsame.oracle]
  exact ⟨h.questions, hsame.rotations.trans h.rotations, h.pushed⟩

/-- The questions and the answers during some uses of a fresh engine, as a transcript has them. -/
def dialogue [Sink σ] (o : ω) (recorder : Option ρ) (us : List (Use σ)) :
    List Exchange :=
  let noting : Engine (Transcript ω) σ ρ := { oracle := { oracle := o }, recorder }
  (noting.afterUses us).oracle.exchanges

theorem asks_afterUses [Sink σ] (o : ω) (recorder : Option ρ) (us : List (Use σ)) :
    let start : Engine ω σ ρ := { oracle := o, recorder }
    let noting : Engine (Transcript ω) σ ρ := { oracle := { oracle := o }, recorder }
    start.afterUses us = mapParts Transcript.oracle id (noting.afterUses us) ∧
      Asks (start.afterUses us) (start.visits us) (dialogue o recorder us) := by
  intro start noting
  have hparts := Transcript.sameParts (ω := ω) (σ := σ)
  have hstart : start = mapParts Transcript.oracle id noting := rfl
  have hfresh : Asks noting [] noting.oracle.exchanges := ⟨rfl, rfl, rfl⟩
  -- the engine with the transcript is the one that the induction is about
  have hnoting : Asks (noting.afterUses us) (noting.visits us) (dialogue o recorder us) :=
    visits_induction (P := fun e vs => Asks e vs e.oracle.exchanges) (fun _ c _ h => h.classify c)
      (fun _ _ _ hsame h => h.congr hsame) hfresh us
  have hsame := afterUses_mapParts noting hparts us
  have hvisits := visits_mapParts noting hparts us
  rw [Use.map_id, ← hstart] at hsame hvisits
  rw [hsame, hvisits]
  exact ⟨rfl, hnoting.mapParts hparts⟩

end Transcripts

theorem rotations_afterUses [Sink σ] (e : Engine ω σ ρ) (us : List (Use σ)) :
    (e.afterUses us).stats.rotations =
      e.stats.rotations + ((e.visits us).filterMap fun v => v.command.question?).length := by
  have hstart : e.stats.rotations = e.stats.rotations +
      (([] : List (Visit ω σ ρ)).filterMap fun v => v.command.question?).length := rfl
  refine visits_induction (P := fun e' (vs : List (Visit ω σ ρ)) => e'.stats.rotations =
    e.stats.rotations + (vs.filterMap fun v => v.command.question?).length)
    (fun e' c vs h => ?_) (fun e' e'' vs hsame h => hsame.rotations.trans h) hstart us
  rw [rotations_classify, h, List.filterMap_append, List.length_append, Nat.add_assoc]
  cases hc : c.question? <;> simp [hc]

/-! ### The queue -/

omit [Oracle ω] [Recorder ρ] in
theorem pending_forward_suffix [Sink σ] (e : Engine ω σ ρ) (c : Command) :
    (e.forward c).state.pending <:+ e.pending := by
  -- sending a command does not touch the queue
  have htransmit : ∀ (e : Engine ω σ ρ) t, (e.transmit t).state.pending = e.pending := by
    intro e t
    cases hs : e.sink with
    | none => cases hg : t.gate? <;> simp [transmit, hg, deliver, hs]
    | some s =>
      cases h : (Sink.send s t.command).error? with
      | some err => rw [(transmit_of_error hs h).2, sent]
      | none => rw [(transmit_of_ok hs h).2, sent]
  obtain ⟨ws, hws, ⟨err, hfail⟩ | ⟨x, -, hsend⟩⟩ := forward_cases e c
  · rw [hfail]
    exact hws
  · rw [hsend, Outcome.forEach_induction (P := fun e' => e'.pending = ws)
      (fun e' t h => (htransmit e' t).trans h) rfl]
    exact hws

theorem pending_process_suffix [Sink σ] (e : Engine ω σ ρ) (batch : List Command) :
    (e.process batch).state.pending <:+
      e.pending ++ (e.visited batch).flatMap Visit.pushed := by
  rw [flatMap_pushed_visited, ← pending_classifyAll]
  cases hok : (forEach classify e batch).error? with
  | some err => exact ⟨[], by rw [process_of_error hok, List.nil_append]⟩
  | none =>
    cases hs : e.sink with
    | none =>
      rw [(process_of_terminal hs hok).1]
      exact List.nil_suffix
    | some s =>
      -- forwarding takes words from the front of the queue only
      have hpass : ∀ e' : Engine ω σ ρ, (forEach forward e' batch).state.pending <:+ e'.pending :=
        fun e' => Outcome.forEach_induction (P := fun e'' => e''.pending <:+ e'.pending)
          (fun e'' c h => (pending_forward_suffix e'' c).trans h) (s := e') List.suffix_rfl batch
      rw [(process_of_sink hs hok).1]
      exact hpass _

/-! ### Rotations without a word -/

omit [Oracle ω] [Recorder ρ] in
/-- A batch ends with the fault of the command `c`, behind the commands `before`: what lies behind
it is not classified, and nothing of the batch is sent. -/
structure EndsAt [Oracle ω] [Recorder ρ] [Sink σ] (e : Engine ω σ ρ) (before : List Command)
    (c : Command) (behind : List Command) (err : PipelineError) : Prop where
  error : (e.process (before ++ c :: behind)).error? = some err
  state : (e.process (before ++ c :: behind)).state =
    ((forEach classify e before).state.classify c).state
  visited : (e.visited (before ++ c :: behind)).map Visit.command = before ++ [c]
  output : SameOutput e (e.process (before ++ c :: behind)).state

theorem endsAt_of_error [Sink σ] {before : List Command} {c : Command} {err : PipelineError}
    (hbefore : (forEach classify e before).error? = none)
    (hc : ((forEach classify e before).state.classify c).error? = some err)
    (behind : List Command) : EndsAt e before c behind err := by
  obtain ⟨hrun, hstate, herror⟩ := Outcome.forEach_stop hbefore hc behind
  rw [← hrun] at hstate herror
  have hprocess := process_of_error herror
  refine ⟨?_, ?_, visited_of_stop hbefore hc behind, ?_⟩
  · rw [hprocess, herror]
  · rw [hprocess, hstate]
  · rw [hprocess]
    exact sameOutput_classifyAll e _

omit [Oracle ω] [Recorder ρ] in
/-- How a batch ends at a rotation which has no word, behind the classified commands `before`. -/
structure RotationFaults [Oracle ω] [Recorder ρ] [Sink σ] (e : Engine ω σ ρ)
    (before behind : List Command) (axis : Axis) (angle : Binary64) : Prop where
  /-- A fault of the oracle is passed on. -/
  oracle : ∀ q err,
    (Oracle.synthesize (forEach classify e before).state.oracle axis angle).result = .error err →
      EndsAt e before (.rotation axis angle q) behind err
  /-- A text that is no word is a fault of the rotation. -/
  text : ∀ q raw cause,
    (Oracle.synthesize (forEach classify e before).state.oracle axis angle).result = .ok raw →
      Word.ofOperatorText raw = .error cause →
        EndsAt e before (.rotation axis angle q) behind (.malformedDecomposition axis angle cause)
  /-- Without exactly one target the oracle is not asked, and the rotation does not count. -/
  targets : ∀ qs : List Qubit, qs.length ≠ 1 →
    EndsAt e before ⟨.rotation axis angle, qs⟩ behind (.circuit
      (.targetCountMismatch ("r" ++ axis.name) 1 (min qs.length (UInt32.size - 1)))) ∧
      (e.process (before ++ ⟨.rotation axis angle, qs⟩ :: behind)).state =
        (forEach classify e before).state

theorem endsAt_of_wordFor [Sink σ] {before : List Command} {axis : Axis} {angle : Binary64}
    {err : PipelineError} (hbefore : (forEach classify e before).error? = none)
    (hword : Oracle.wordFor (forEach classify e before).state.oracle axis angle = .error err)
    (q : Qubit) (behind : List Command) :
    EndsAt e before (.rotation axis angle q) behind err := by
  refine endsAt_of_error hbefore ?_ behind
  rw [classify_rotation]
  exact (synthesize_of_error hword).1

theorem rotationFaults [Sink σ] {before : List Command}
    (hbefore : (forEach classify e before).error? = none) (behind : List Command) (axis : Axis)
    (angle : Binary64) : RotationFaults e before behind axis angle := by
  refine ⟨fun q err hresult => ?_, fun q raw cause hresult hraw => ?_, fun qs hqs => ?_⟩
  · exact endsAt_of_wordFor hbefore (Oracle.wordFor_eq_error_iff.2 (.inl hresult)) q behind
  · refine endsAt_of_wordFor hbefore (Oracle.wordFor_eq_error_iff.2 (.inr ?_)) q behind
    exact ⟨raw, cause, hresult, hraw, rfl⟩
  · have hclassify := classify_rotation_of_targets (forEach classify e before).state axis angle hqs
    have hend := endsAt_of_error hbefore (by rw [hclassify]; rfl) behind
    refine ⟨hend, ?_⟩
    rw [hend.state, hclassify]
    rfl

/-! ### Any uses -/

/-- **The oracle is asked once for each rotation that classification comes to**, in order and with
the angle as it is, for nothing else, and whatever becomes of the batches.  The questions are
counted and never forgotten, and a word is pushed for each text that is one.  A rotation without a
word ends its batch: with the oracle's own fault, with that of the text, or, without exactly one
target, before the oracle is asked. -/
theorem oracle_history [Sink σ] (o : ω) (recorder : Option ρ) (us : List (Use σ)) :
    let start : Engine ω σ ρ := { oracle := o, recorder }
    let noting : Engine (Transcript ω) σ ρ := { oracle := { oracle := o }, recorder }
    let e := start.afterUses us
    e = mapParts Transcript.oracle id (noting.afterUses us) ∧
      Asks e (start.visits us) (dialogue o recorder us) ∧
      (∀ more, e.stats.rotations ≤ (e.afterUses more).stats.rotations) ∧
      (∀ batch, (e.process batch).state.pending <:+
        e.pending ++ (e.visited batch).flatMap Visit.pushed) ∧
      ∀ before, (forEach classify e before).error? = none →
        ∀ behind axis angle, RotationFaults e before behind axis angle := by
  intro start noting e
  obtain ⟨hsame, hasks⟩ := asks_afterUses o recorder us
  have hmore : ∀ more, e.stats.rotations ≤ (e.afterUses more).stats.rotations := by
    intro more
    rw [rotations_afterUses e more]
    exact Nat.le_add_right _ _
  exact ⟨hsame, hasks, hmore, pending_process_suffix e,
    fun before hbefore => rotationFaults hbefore⟩

/-- A batch that stops at a rotation without a target, after a word was pushed, and one whose text
is no word: the two questions are counted, and the first word waits. -/
theorem oracle_history_stale_word :
    let o : ScriptedOracle := { replies := [.ok "TH", .ok "TQ"] }
    let start : Engine ScriptedOracle CommandLog OutcomeLog := { oracle := o }
    let half : Binary64 := ⟨0x3fe0000000000000⟩
    let us : List (Use CommandLog) := [.process [.rx half ⟨0⟩, ⟨.rotation .y half, []⟩, .flush],
      .setSink {}, .process [.rz half ⟨1⟩]]
    let e := start.afterUses us
    dialogue o start.recorder us = [⟨(.x, half), .ok "TH"⟩, ⟨(.z, half), .ok "TQ"⟩] ∧
      e.stats.rotations = 2 ∧ e.pending = [⟨[.h, .t]⟩] ∧
      Asks e (start.visits us) (dialogue o start.recorder us) ∧
      (forEach classify e [.rx half ⟨0⟩]).error? = none ∧
      RotationFaults e [.rx half ⟨0⟩] [.flush] .y half := by
  intro o start half us e
  have hbefore : (forEach classify e [.rx half ⟨0⟩]).error? = none := by decide
  obtain ⟨-, hasks, -, -, hfaults⟩ := oracle_history o (none : Option OutcomeLog) us
  exact ⟨rfl, by decide, by decide, hasks, hbefore, hfaults _ hbefore _ _ _⟩

end Engine

end CliffordT
