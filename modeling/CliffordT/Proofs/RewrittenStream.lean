import CliffordT.Proofs.Batch

/-!
# What the logs receive

The sinks of a session are logs, one after the other.  When the oracle answers by the axis and the
angle alone, what the logs receive can be told without an engine and without a queue.

* `Command.expand?`, `expandAll?` : what a command and a batch become, command by command;
* `Session` : an engine with all the logs that it has had as sinks;
* `Call.batches` : the batches of some calls that are processed before a sink;
* `Session.run_receives_expansions` : what the logs receive is what these batches become.
-/

namespace CliffordT

/-! ### Expansion -/

/-- What a command becomes when rotations are answered by a function: a rotation becomes the word of
its answer, another command stays as it is.  For a rotation without exactly one target, or without a
word, there is `none`. -/
def Command.expand? (answer : Axis → Binary64 → Except PipelineError String) (c : Command) :
    Option (List Command) :=
  match c.gate, c.targets with
  | .rotation axis angle, [q] =>
    match answer axis angle with
    | .ok raw => (Word.ofOperatorText raw).toOption.map fun word => word.toCommands q
    | .error _ => none
  | .rotation _ _, _ => none
  | _, _ => some [c]

/-- What a batch becomes, command by command. -/
def expandAll? (answer : Axis → Binary64 → Except PipelineError String) (batch : List Command) :
    Option (List Command) :=
  (batch.mapM (Command.expand? answer)).map List.flatten

section Expansion

variable {answer : Axis → Binary64 → Except PipelineError String}

theorem Command.expand?_of_plain {c : Command} (hc : c.gate.isRotation = false) :
    c.expand? answer = some [c] := by
  obtain ⟨gate, targets⟩ := c
  cases gate with
  | rotation axis angle => cases hc
  | _ => rfl

theorem Command.expand?_rotation {axis : Axis} {angle : Binary64} {raw : String} {w : Word}
    (hanswer : answer axis angle = .ok raw) (hw : Word.ofOperatorText raw = .ok w) (q : Qubit) :
    (Command.rotation axis angle q).expand? answer = some (w.toCommands q) := by
  simp [expand?, rotation, hanswer, hw, Except.toOption]

theorem expandAll?_cons {c : Command} {cs ds es : List Command} (hc : c.expand? answer = some ds)
    (hcs : expandAll? answer cs = some es) : expandAll? answer (c :: cs) = some (ds ++ es) := by
  obtain ⟨ess, hess, rfl⟩ := Option.map_eq_some_iff.1 hcs
  simp [expandAll?, List.mapM_cons, hc, hess]

/-- Parts that take the words of an oracle which answers by a function are what the function makes
of the commands. -/
theorem Rewrites.expandAll?_eq {ω : Type} [Oracle ω] {o : ω} (ho : Oracle.AnswersBy o answer)
    {cs : List Command} {ws : List Word} {ps : List Part} (h : Rewrites cs ws ps)
    (hws : Oracle.words o (cs.filterMap Command.question?) = .ok ws) :
    expandAll? answer cs = some (ps.flatMap Part.commands) := by
  induction h generalizing o with
  | nil => rfl
  | plain hc h ih =>
    rw [List.filterMap_cons_none (Command.question?_of_plain hc)] at hws
    exact expandAll?_cons (Command.expand?_of_plain hc) (ih ho hws)
  | rotation axis angle q w h ih =>
    obtain ⟨hw, hws⟩ := Oracle.words_cons_eq_ok_iff.1 hws
    obtain ⟨raw, hraw, hword⟩ := Oracle.wordFor_eq_ok_iff.1 hw
    rw [ho.result axis angle] at hraw
    exact expandAll?_cons (Command.expand?_rotation hraw hword q)
      (ih (ho.after [(axis, angle)]) hws)

end Expansion

/-! ### Logs -/

/-- The log with some more commands. -/
def CommandLog.extend (l : CommandLog) (cs : List Command) : CommandLog := ⟨l.commands ++ cs⟩

@[simp] theorem CommandLog.extend_nil (l : CommandLog) : l.extend [] = l := by
  simp [extend]

@[simp] theorem CommandLog.extend_extend (l : CommandLog) (cs ds : List Command) :
    (l.extend cs).extend ds = l.extend (cs ++ ds) := by
  simp [extend]

theorem CommandLog.sendAll_eq (l : CommandLog) (cs : List Command) :
    Sink.sendAll l cs = .done (l.extend cs) := by
  induction cs generalizing l with
  | nil => rw [extend_nil, Sink.sendAll_nil]
  | cons c cs ih =>
    rw [Sink.sendAll_cons]
    show (Outcome.done (l.extend [c])).andThen _ = _
    rw [Outcome.done_andThen, ih, extend_extend, List.singleton_append]

/-! ### Batches -/

namespace Engine

open Outcome (forEach)

variable {ω σ ρ : Type} [Oracle ω] [Recorder ρ] {batch : List Command}
  {answer : Axis → Binary64 → Except PipelineError String}

theorem answersBy_process [Sink σ] {e : Engine ω σ ρ} (h : Oracle.AnswersBy e.oracle answer)
    (batch : List Command) : Oracle.AnswersBy (e.process batch).state.oracle answer := by
  refine process_induction (P := fun e => Oracle.AnswersBy e.oracle answer) ?_ ?_ (fun _ h => h) h
    batch
  · intro e c h
    rw [(queue_classify e c).2]
    exact h.after _
  · intro e c h
    rw [(sameIntake_forward e c).oracle]
    exact h

theorem process_of_log {e : Engine ω CommandLog ρ} {l : CommandLog} (hs : e.sink = some l)
    (hp : e.pending = []) (ho : Oracle.AnswersBy e.oracle answer)
    (h : (forEach classify e batch).error? = none) :
    ∃ ds, expandAll? answer batch = some ds ∧
      (e.process batch).state.sink = some (l.extend ds) ∧ (e.process batch).state.pending = [] := by
  obtain ⟨ws, ps, hws, hps, -, hstate⟩ := process_rewrites_of_nil hs hp h
  have hsend := CommandLog.sendAll_eq l (ps.flatMap Part.commands)
  refine ⟨ps.flatMap Part.commands, hps.expandAll?_eq ho hws, ?_, ?_⟩
  · rw [hstate, hsend]
    rfl
  · rw [hstate]
    exact Part.waiting_accepted (by rw [hsend]; rfl)

end Engine

/-! ### Calls -/

/-- A call of an engine whose sinks are logs. -/
inductive Call where
  | process (batch : List Command)
  | setSink (log : CommandLog)

namespace Call

/-- The logs that some calls attach. -/
def attached : List Call → List CommandLog
  | [] => []
  | process _ :: calls => attached calls
  | setSink log :: calls => log :: attached calls

/-- The batches of some calls that are processed before a sink; `sink` says whether there is one
already. -/
def batches (sink : Bool) : List Call → List (List Command)
  | [] => []
  | process batch :: calls => if sink then batch :: batches sink calls else batches sink calls
  | setSink _ :: calls => batches true calls

/-- The logs from the present one on receive `received`, one after the other, and become `logs`.
All together this is what the batches become that are processed before one of them. -/
structure Receives (answer : Axis → Binary64 → Except PipelineError String)
    (sink : Option CommandLog) (calls : List Call) (received : List (List Command))
    (logs : List CommandLog) : Prop where
  length : received.length = (sink.toList ++ attached calls).length
  logs_eq : logs = List.zipWith CommandLog.extend (sink.toList ++ attached calls) received
  stream : ((batches sink.isSome calls).mapM (expandAll? answer)).map List.flatten =
    some received.flatten

namespace Receives

variable {answer : Axis → Binary64 → Except PipelineError String} {sink : Option CommandLog}
  {l : CommandLog} {calls : List Call} {received : List (List Command)} {logs : List CommandLog}

theorem nil (sink : Option CommandLog) :
    Receives answer sink [] (sink.toList.map fun _ => []) sink.toList := by
  cases sink with
  | none => exact ⟨rfl, rfl, rfl⟩
  | some l => exact ⟨rfl, by simp [attached], rfl⟩

theorem process_terminal (h : Receives answer none calls received logs) (batch : List Command) :
    Receives answer none (process batch :: calls) received logs := ⟨h.length, h.logs_eq, h.stream⟩

theorem process_log {batch ds : List Command} (hds : expandAll? answer batch = some ds)
    (h : Receives answer (some (l.extend ds)) calls received logs) :
    ∃ received', Receives answer (some l) (process batch :: calls) received' logs := by
  obtain ⟨hlength, hlogs, hstream⟩ := h
  cases received with
  | nil => simp at hlength
  | cons r rs =>
    refine ⟨(ds ++ r) :: rs, by simpa [attached] using hlength, ?_, ?_⟩
    · rw [hlogs]
      simp [attached]
    · obtain ⟨ess, hess, hflatten⟩ := Option.map_eq_some_iff.1 hstream
      simp only [Option.isSome_some] at hess ⊢
      simp [batches, hds, hess, hflatten]

theorem setSink (sink : Option CommandLog) (h : Receives answer (some l) calls received logs) :
    ∃ received', Receives answer sink (setSink l :: calls) received' (sink.toList ++ logs) := by
  obtain ⟨hlength, hlogs, hstream⟩ := h
  cases sink with
  | none => exact ⟨received, hlength, hlogs, hstream⟩
  | some l' =>
    refine ⟨[] :: received, ?_, ?_, hstream⟩
    · simpa [attached] using hlength
    · rw [hlogs]
      simp [attached]

end Receives

end Call

/-- An engine with the logs that were its sinks before, the first one first. -/
structure Session (ω ρ : Type) where
  engine : Engine ω CommandLog ρ
  replaced : List CommandLog := []

namespace Session

variable {ω ρ : Type}

/-- All the logs of a session, in the order in which they were attached. -/
def logs (s : Session ω ρ) : List CommandLog := s.replaced ++ s.engine.sink.toList

variable [Oracle ω] [Recorder ρ]

/-- Call the engine of a session. -/
def call (s : Session ω ρ) : Call → Outcome (Session ω ρ)
  | .process batch => (s.engine.process batch).map fun e => { s with engine := e }
  | .setSink log => .done ⟨s.engine.setSink log, s.replaced ++ s.engine.sink.toList⟩

/-- Call the engine several times, up to the first call that fails. -/
def run (s : Session ω ρ) (calls : List Call) : Outcome (Session ω ρ) :=
  Outcome.forEach call s calls

variable {s : Session ω ρ} {calls : List Call} {c : Call}
  {answer : Axis → Binary64 → Except PipelineError String}

/-- No word waits, and the oracle answers by the function. -/
structure Settled (answer : Axis → Binary64 → Except PipelineError String) (s : Session ω ρ) :
    Prop where
  pending : s.engine.pending = []
  oracle : Oracle.AnswersBy s.engine.oracle answer

omit [Recorder ρ] in
theorem Settled.setSink (h : Settled answer s) (log : CommandLog) (replaced : List CommandLog) :
    Settled answer ⟨s.engine.setSink log, replaced⟩ := ⟨h.pending, h.oracle⟩

theorem Settled.call (h : Settled answer s) (hc : (s.call c).error? = none) :
    Settled answer (s.call c).state := by
  cases c with
  | process batch =>
    have hok := Engine.classify_ok_of_process_ok hc
    refine ⟨?_, Engine.answersBy_process h.oracle batch⟩
    show (s.engine.process batch).state.pending = []
    cases hs : s.engine.sink with
    | none => rw [(Engine.process_of_terminal hs hok).1]
    | some l =>
      obtain ⟨ds, -, -, hpending⟩ := Engine.process_of_log hs h.pending h.oracle hok
      exact hpending
  | setSink log => exact h.setSink log _

theorem Settled.run (h : Settled answer s) (hok : (s.run calls).error? = none) :
    Settled answer (s.run calls).state := by
  induction calls generalizing s with
  | nil => exact h
  | cons c calls ih =>
    rw [Session.run, Outcome.forEach_cons, Outcome.andThen_eq_none_iff] at hok
    rw [Session.run, Outcome.forEach_cons, Outcome.state_andThen hok.1]
    exact ih (h.call hok.1) hok.2

/-- Every log from the present one on receives what the batches become that are processed before it,
and keeps its place. -/
theorem exists_receives (h : Settled answer s) (hok : (s.run calls).error? = none) :
    ∃ received logs, Call.Receives answer s.engine.sink calls received logs ∧
      (s.run calls).state.logs = s.replaced ++ logs := by
  induction calls generalizing s with
  | nil => exact ⟨_, _, .nil s.engine.sink, rfl⟩
  | cons c calls ih =>
    -- the first call decides which log, and with what in it, the others begin with
    rw [run, Outcome.forEach_cons, Outcome.andThen_eq_none_iff] at hok
    have hrun : (s.run (c :: calls)).state = ((s.call c).state.run calls).state := by
      rw [run, Outcome.forEach_cons, Outcome.state_andThen hok.1]
      rfl
    obtain ⟨received, logs, hreceives, hlogs⟩ := ih (h.call hok.1) hok.2
    rw [← hrun] at hlogs
    cases c with
    | process batch =>
      have hbatch := Engine.classify_ok_of_process_ok hok.1
      change Call.Receives answer (s.engine.process batch).state.sink calls received logs
        at hreceives
      cases hs : s.engine.sink with
      | none =>
        rw [(Engine.process_of_terminal hs hbatch).1] at hreceives
        rw [(Engine.sameOutput_classifyAll s.engine batch).sink, hs] at hreceives
        exact ⟨received, logs, hreceives.process_terminal batch, hlogs⟩
      | some l =>
        obtain ⟨ds, hds, hsink, -⟩ := Engine.process_of_log hs h.pending h.oracle hbatch
        rw [hsink] at hreceives
        obtain ⟨received', hreceives'⟩ := hreceives.process_log hds
        exact ⟨received', logs, hreceives', hlogs⟩
    | setSink log =>
      obtain ⟨received', hreceives'⟩ := Call.Receives.setSink s.engine.sink hreceives
      refine ⟨received', _, hreceives', ?_⟩
      rw [← List.append_assoc]
      exact hlogs

/-- **What the logs receive is what the batches become.**  Calls on a fresh engine that all succeed
leave in the logs, all together and in order, what the batches become that are processed before one
of them; a batch without a sink sends nothing to any log, and no word ever waits between calls. -/
theorem run_receives_expansions {o : ω} (ho : Oracle.AnswersBy o answer) (recorder : Option ρ)
    (calls : List Call) (hok : (run ⟨{ oracle := o, recorder }, []⟩ calls).error? = none) :
    (∃ received : List (List Command), received.length = (Call.attached calls).length ∧
      (run ⟨{ oracle := o, recorder }, []⟩ calls).state.logs =
        List.zipWith CommandLog.extend (Call.attached calls) received ∧
      ((Call.batches false calls).mapM (expandAll? answer)).map List.flatten =
        some received.flatten) ∧
    ∀ k, (run ⟨{ oracle := o, recorder }, []⟩ (calls.take k)).state.engine.pending = [] := by
  have hfresh : Settled answer (⟨{ oracle := o, recorder }, []⟩ : Session ω ρ) := ⟨rfl, ho⟩
  constructor
  · obtain ⟨received, logs, ⟨hlength, hlogs, hstream⟩, hrun⟩ := exists_receives hfresh hok
    exact ⟨received, hlength, hrun.trans hlogs, hstream⟩
  · intro k
    rw [← List.take_append_drop k calls] at hok
    exact (hfresh.run (Outcome.forEach_ok_of_append hok)).pending

/-- Two logs, a batch without a sink before the first of them, and a rotation with an empty word. -/
theorem run_receives_expansions_two_logs :
    let o : FunctionOracle := ⟨fun axis _ => .ok (if axis = .y then "" else "TH\n")⟩
    let start : Session FunctionOracle OutcomeLog := ⟨{ oracle := o, recorder := none }, []⟩
    let half : Binary64 := ⟨0x3fe0000000000000⟩
    let calls : List Call := [.process [.rx half ⟨7⟩], .setSink {},
      .process [.allocate ⟨0⟩, .rz half ⟨0⟩, .ry half ⟨0⟩, .measure ⟨0⟩], .setSink {},
      .process [.flush], .process [.rx half ⟨1⟩]]
    (start.run calls).state.logs =
        [⟨[.allocate ⟨0⟩, .fixed .h ⟨0⟩, .fixed .t ⟨0⟩, .measure ⟨0⟩]⟩,
          ⟨[.flush, .fixed .h ⟨1⟩, .fixed .t ⟨1⟩]⟩] ∧
      Oracle.AnswersBy o o.answer ∧ (start.run calls).error? = none ∧
      (∃ received : List (List Command), received.length = (Call.attached calls).length ∧
        (start.run calls).state.logs =
          List.zipWith CommandLog.extend (Call.attached calls) received ∧
        ((Call.batches false calls).mapM (expandAll? o.answer)).map List.flatten =
          some received.flatten) ∧
      ∀ k, (start.run (calls.take k)).state.engine.pending = [] := by
  intro o start half calls
  have hok : (start.run calls).error? = none := by decide
  exact ⟨by decide, o.answersBy, hok, run_receives_expansions o.answersBy none calls hok⟩

end Session

end CliffordT
