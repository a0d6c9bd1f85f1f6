import CliffordT.Proofs.Batch

/-!
# The history of the queue

Calls may fail, and what they leave in the queue is taken by later calls.  A `Life` is an engine
with all the words that were ever put into its queue and all those that rotations ever took from it.

* `Engine.taken` : what rotations take from the queue when forwarding reaches them;
* `Life.During` : the moments of a call, also within a pass and within a word;
* `Life.InOrder` : the words that were pushed are those that were taken, followed by those that
  wait;
* `Life.InOrder.during` : a call preserves this at each of its moments, whatever its result;
* `Life.queue_history` : what follows for every call on an engine that began before a sink.
-/

namespace CliffordT

open Outcome (forEach)

namespace Engine

variable {ω σ ρ : Type} [Sink σ] {e : Engine ω σ ρ} {c : Command}

omit [Sink σ] in
/-- What a command takes from the queue when forwarding reaches it: a rotation takes the word at the
head, if there is one. -/
def reached (e : Engine ω σ ρ) (c : Command) : List (Option Word) :=
  if c.gate.isRotation then [e.pending.head?] else []

/-- What is taken from the queue by the commands that forwarding reaches, in order. -/
def taken (e : Engine ω σ ρ) (cs : List Command) : List (Option Word) :=
  Outcome.collect forward reached e cs

@[simp] theorem taken_nil (e : Engine ω σ ρ) : e.taken [] = [] := rfl

@[simp] theorem taken_singleton (e : Engine ω σ ρ) (c : Command) : e.taken [c] = e.reached c := by
  simp [taken, Outcome.collect]

theorem taken_cons_of_ok (h : (e.forward c).error? = none) (cs : List Command) :
    e.taken (c :: cs) = e.reached c ++ (e.forward c).state.taken cs :=
  Outcome.collect_cons_of_ok h cs

theorem taken_cons_of_error {err : PipelineError} (h : (e.forward c).error? = some err)
    (cs : List Command) : e.taken (c :: cs) = e.reached c :=
  Outcome.collect_cons_of_error h cs

omit [Sink σ] in
theorem length_reached (e : Engine ω σ ρ) (c : Command) :
    (e.reached c).length = rotationCount [c] := by
  by_cases hc : c.gate.isRotation = true <;> simp [reached, rotationCount, hc]

end Engine

/-! ### Lives -/

/-- An engine with the words that were pushed and taken in all calls so far. -/
structure Life (ω σ ρ : Type) where
  engine : Engine ω σ ρ
  /-- The words that were ever put into the queue, in order. -/
  pushed : List Word := []
  /-- What the rotations that forwarding reached took from the queue, in order. -/
  taken : List (Option Word) := []

namespace Life

variable {ω σ ρ : Type}

/-- A life that begins before a sink. -/
def fresh (o : ω) (s : σ) (recorder : Option ρ) : Life ω σ ρ :=
  { engine := { oracle := o, sink := some s, recorder } }

/-- A life when some gates of the word `w` are emitted that was taken from the head of the queue. -/
def emitted [Sink σ] (l : Life ω σ ρ) (w : Word) (ws : List Word) (q : Qubit)
    (gs : List FixedGate) : Life ω σ ρ :=
  { engine := (forEach (Engine.emit q) { l.engine with pending := ws } gs).state
    pushed := l.pushed
    taken := l.taken ++ [some w] }

/-- A life when some commands are forwarded, up to the first one that fails. -/
def forwarded [Sink σ] (l : Life ω σ ρ) (cs : List Command) : Life ω σ ρ :=
  { engine := (forEach Engine.forward l.engine cs).state
    pushed := l.pushed
    taken := l.taken ++ l.engine.taken cs }

section Classify

variable [Oracle ω] [Recorder ρ]

/-- A life when some commands are classified, up to the first one that fails. -/
def classified (l : Life ω σ ρ) (cs : List Command) : Life ω σ ρ :=
  { engine := (forEach Engine.classify l.engine cs).state
    pushed := l.pushed ++ l.engine.found cs
    taken := l.taken }

variable [Sink σ]

/-- A life after a call, whatever its result. -/
def call (l : Life ω σ ρ) (batch : List Command) : Life ω σ ρ :=
  { engine := (l.engine.process batch).state
    pushed := l.pushed ++ l.engine.found batch
    taken := l.taken ++ if (forEach Engine.classify l.engine batch).isOk then
      (l.classified batch).engine.taken batch else [] }

/-- A life after several calls. -/
def run (l : Life ω σ ρ) (batches : List (List Command)) : Life ω σ ρ := batches.foldl call l

/-- The moments of a call before a sink. -/
inductive During (l : Life ω σ ρ) (batch : List Command) : Life ω σ ρ → Prop
  /-- Some commands are classified, and the last one of them may have failed. -/
  | classifying {before behind : List Command} (h : batch = before ++ behind) :
      During l batch (l.classified before)
  /-- Some commands are forwarded, and the last one of them may have failed. -/
  | forwarding {before behind : List Command}
      (hok : (forEach Engine.classify l.engine batch).error? = none)
      (h : batch = before ++ behind) :
      During l batch ((l.classified batch).forwarded before)
  /-- A rotation has taken its word, some gates of it are emitted, and the last one of them may have
  failed. -/
  | emitting {before behind : List Command} {axis : Axis} {angle : Binary64} {q : Qubit} {w : Word}
      {ws : List Word} {gs : List FixedGate}
      (hok : (forEach Engine.classify l.engine batch).error? = none)
      (h : batch = before ++ .rotation axis angle q :: behind)
      (hreach : (forEach Engine.forward (l.classified batch).engine before).error? = none)
      (hw : ((l.classified batch).forwarded before).engine.pending = w :: ws)
      (hgs : gs <+: w.gates) :
      During l batch (((l.classified batch).forwarded before).emitted w ws q gs)

end Classify

/-! ### Order -/

/-- The engine is before a sink, and the words that were pushed are those that rotations took, none
of which found the queue empty, followed by those that wait. -/
structure InOrder (l : Life ω σ ρ) : Prop where
  sink : l.engine.sink.isSome
  queue : l.pushed.map some = l.taken ++ l.engine.pending.map some

/-- What the next command becomes when forwarding reaches it.  A rotation takes the word whose
number among all those ever pushed is its own number among all rotations ever reached. -/
inductive Next (l : Life ω σ ρ) : Command → Part → Prop
  | plain {c : Command} (hc : c.gate.isRotation = false) : Next l c (.plain c)
  | rotation (axis : Axis) (angle : Binary64) (q : Qubit) {w : Word}
      (hw : l.pushed[l.taken.length]? = some w) :
      Next l (.rotation axis angle q) (.expansion w q)

variable {l : Life ω σ ρ} {c : Command} {cs : List Command}

theorem InOrder.getElem?_pushed (h : InOrder l) {w : Word} {ws : List Word}
    (hp : l.engine.pending = w :: ws) : l.pushed[l.taken.length]? = some w := by
  have hqueue := congrArg (·[l.taken.length]?) h.queue
  rw [hp] at hqueue
  simpa using hqueue

/-- The next command finds the word that it needs and is sent as what it becomes.  If it fails, the
fault is that of the sink. -/
def Sends [Sink σ] (l : Life ω σ ρ) (c : Command) : Prop :=
  ∃ s x, l.engine.sink = some s ∧ Next l c x ∧
    (l.engine.forward c).error? = (Sink.sendAll s x.commands).error? ∧
    (l.engine.forward c).state.sink = some (Sink.sendAll s x.commands).state

/-- Rotations among some commands have one target each, and there are words enough for them. -/
structure Ready (l : Life ω σ ρ) (cs : List Command) : Prop extends InOrder l where
  targets : ∀ c ∈ cs, c.gate.isRotation = true → ∃ axis angle q, c = .rotation axis angle q
  enough : rotationCount cs ≤ l.engine.pending.length

theorem Ready.left {ds : List Command} (h : Ready l (cs ++ ds)) : Ready l cs := by
  refine ⟨h.toInOrder, fun c hc => h.targets c (List.mem_append_left ds hc), ?_⟩
  have henough := h.enough
  rw [rotationCount_append] at henough
  omega

section Forward

variable [Sink σ]

theorem Ready.exists_next (h : Ready l (c :: cs)) :
    ∃ x ws, Next l c x ∧
      l.engine.forward c = forEach Engine.transmit { l.engine with pending := ws } x.sendings ∧
      l.engine.pending.map some = l.engine.reached c ++ ws.map some := by
  -- a rotation takes the head of the queue, which is there since enough words are ready
  by_cases hc : c.gate.isRotation = true
  · obtain ⟨axis, angle, q, rfl⟩ := h.targets c List.mem_cons_self hc
    have hlen := h.enough
    rw [rotationCount_cons_of_rotation hc] at hlen
    cases hp : l.engine.pending with
    | nil => simp [hp] at hlen
    | cons w ws =>
      refine ⟨.expansion w q, ws, .rotation axis angle q (h.getElem?_pushed hp), ?_, ?_⟩
      · exact Engine.forward_rotation axis angle q hp
      · rw [Engine.reached, if_pos hc, hp]
        rfl
  · rw [Bool.not_eq_true] at hc
    refine ⟨.plain c, l.engine.pending, .plain hc, Engine.forward_plain hc, ?_⟩
    rw [Engine.reached, hc]
    rfl

theorem Ready.sends (h : Ready l (c :: cs)) : Sends l c := by
  obtain ⟨s, hs⟩ := Option.isSome_iff_exists.1 h.sink
  obtain ⟨x, ws, hx, hforward, -⟩ := h.exists_next
  obtain ⟨herror, hstate⟩ := Engine.forward_sends hs hforward
  refine ⟨s, x, hs, hx, herror, ?_⟩
  rw [hstate]
  rfl

theorem Ready.forward (h : Ready l (c :: cs)) : Ready (l.forwarded [c]) cs := by
  obtain ⟨s, hs⟩ := Option.isSome_iff_exists.1 h.sink
  obtain ⟨x, ws, -, hx, hqueue⟩ := h.exists_next
  have hstate := (Engine.forward_sends hs hx).2
  have hengine : (l.forwarded [c]).engine = (l.engine.forward c).state := by
    rw [forwarded, Outcome.forEach_singleton]
  have hpending : (l.forwarded [c]).engine.pending = ws := by
    rw [hengine, hstate]
    rfl
  refine ⟨⟨?_, ?_⟩, fun d hd => h.targets d (List.mem_cons_of_mem c hd), ?_⟩
  · rw [hengine, hstate]
    rfl
  · -- what the command has taken goes from the front of the queue to the end of what was taken
    rw [hpending]
    show l.pushed.map some = l.taken ++ l.engine.taken [c] ++ ws.map some
    rw [Engine.taken_singleton, List.append_assoc, ← hqueue]
    exact h.queue
  · have hlen := congrArg List.length hqueue
    rw [List.length_append, List.length_map, List.length_map, Engine.length_reached] at hlen
    have henough := h.enough
    rw [← List.singleton_append, rotationCount_append] at henough
    rw [hpending]
    omega

theorem forwarded_nil (l : Life ω σ ρ) : l.forwarded [] = l := by
  simp [forwarded]

theorem forwarded_cons_of_ok (h : (l.engine.forward c).error? = none) (cs : List Command) :
    l.forwarded (c :: cs) = (l.forwarded [c]).forwarded cs := by
  simp only [forwarded, Outcome.forEach_singleton, Engine.taken_singleton]
  rw [Outcome.forEach_cons, Outcome.state_andThen h, Engine.taken_cons_of_ok h, List.append_assoc]

theorem forwarded_cons_of_error {err : PipelineError} (h : (l.engine.forward c).error? = some err)
    (cs : List Command) : l.forwarded (c :: cs) = l.forwarded [c] := by
  simp only [forwarded, Outcome.forEach_singleton, Engine.taken_singleton]
  rw [Outcome.forEach_cons_of_error h, Engine.taken_cons_of_error h]

theorem Ready.forwarded (h : Ready l cs) : InOrder (l.forwarded cs) := by
  induction cs generalizing l with
  | nil =>
    rw [forwarded_nil]
    exact h.toInOrder
  | cons c cs ih =>
    cases hc : (l.engine.forward c).error? with
    | some err =>
      rw [forwarded_cons_of_error hc]
      exact h.forward.toInOrder
    | none =>
      rw [forwarded_cons_of_ok hc]
      exact ih h.forward

theorem Ready.append {ds : List Command} (h : Ready l (cs ++ ds))
    (hok : (forEach Engine.forward l.engine cs).error? = none) : Ready (l.forwarded cs) ds := by
  induction cs generalizing l with
  | nil =>
    rw [forwarded_nil]
    exact h
  | cons c cs ih =>
    rw [Outcome.forEach_cons, Outcome.andThen_eq_none_iff] at hok
    rw [forwarded_cons_of_ok hok.1]
    refine ih h.forward ?_
    rw [Life.forwarded, Outcome.forEach_singleton]
    exact hok.2

theorem InOrder.emitted (h : InOrder l) {w : Word} {ws : List Word}
    (hp : l.engine.pending = w :: ws) (q : Qubit) (gs : List FixedGate) :
    InOrder (l.emitted w ws q gs) := by
  obtain ⟨s, hs⟩ := Option.isSome_iff_exists.1 h.sink
  have hstate := (Engine.forEach_transmit (e := { l.engine with pending := ws }) hs
    (Part.expansion ⟨gs⟩ q).sendings).2
  rw [← Engine.forEach_emit] at hstate
  constructor
  · rw [Life.emitted, hstate]
    rfl
  · rw [Life.emitted, hstate]
    show l.pushed.map some = l.taken ++ [some w] ++ ws.map some
    rw [List.append_assoc, h.queue, hp]
    rfl

end Forward

section Process

variable [Oracle ω] [Recorder ρ] {batch : List Command}

theorem InOrder.classified (h : InOrder l) (cs : List Command) : InOrder (l.classified cs) := by
  constructor
  · rw [Life.classified, (Engine.sameOutput_classifyAll l.engine cs).sink]
    exact h.sink
  · rw [Life.classified, Engine.pending_classifyAll, List.map_append, List.map_append, h.queue,
      List.append_assoc]

theorem InOrder.ready (h : InOrder l)
    (hok : (forEach Engine.classify l.engine batch).error? = none) :
    Ready (l.classified batch) batch := by
  refine ⟨h.classified batch, Engine.targets_of_classifyAll hok, ?_⟩
  rw [Life.classified, Engine.pending_classifyAll, List.length_append, Engine.length_found hok]
  omega

variable [Sink σ] {m : Life ω σ ρ}

/-- A call keeps the order at each of its moments. -/
theorem InOrder.during (h : InOrder l) (hm : During l batch m) : InOrder m := by
  cases hm with
  | classifying hbatch => exact h.classified _
  | forwarding hok hbatch =>
    have hready := h.ready hok
    rw [hbatch] at hready ⊢
    exact hready.left.forwarded
  | emitting hok hbatch hreach hw hgs =>
    have hready := h.ready hok
    rw [hbatch] at hready hreach hw ⊢
    exact (hready.append hreach).toInOrder.emitted hw _ _

theorem InOrder.during_call (h : InOrder l) (batch : List Command) :
    During l batch (l.call batch) := by
  obtain ⟨s, hs⟩ := Option.isSome_iff_exists.1 h.sink
  cases hok : (forEach Engine.classify l.engine batch).error? with
  | some err =>
    -- nothing is forwarded, so nothing is taken
    have hcall : l.call batch = l.classified batch := by
      simp [Life.call, Life.classified, Engine.process_of_error hok, Outcome.isOk, hok]
    rw [hcall]
    exact .classifying (List.append_nil batch).symm
  | none =>
    have hcall : l.call batch = (l.classified batch).forwarded batch := by
      simp [Life.call, Life.classified, Life.forwarded, (Engine.process_of_sink hs hok).1,
        Outcome.isOk, hok]
    rw [hcall]
    exact .forwarding hok (List.append_nil batch).symm

theorem InOrder.run (h : InOrder l) (batches : List (List Command)) :
    InOrder (l.run batches) := by
  induction batches generalizing l with
  | nil => exact h
  | cons batch batches ih => exact ih (h.during (h.during_call batch))

/-! ### Calls -/

/-- What holds of a call, with its life before. -/
structure QueueLaw (l : Life ω σ ρ) (batch : List Command) : Prop where
  /-- At every moment the words that were pushed are those that were taken, followed by those that
  wait. -/
  inOrder : ∀ m, During l batch m → InOrder m
  /-- The call ends at one of its moments. -/
  ends : During l batch (l.call batch)
  /-- Forwarding can send each command that it reaches. -/
  reached : ∀ before c behind, batch = before ++ c :: behind →
    (forEach Engine.classify l.engine batch).error? = none →
    (forEach Engine.forward (l.classified batch).engine before).error? = none →
    Sends ((l.classified batch).forwarded before) c
  /-- The rotations of a classified batch take the words that waited before, and then their own. -/
  sent : (forEach Engine.classify l.engine batch).error? = none →
    ∃ s ps, l.engine.sink = some s ∧
      Rewrites batch ((l.engine.pending ++ l.engine.found batch).take (rotationCount batch)) ps ∧
      (l.engine.process batch).error? = (Sink.sendAll s (ps.flatMap Part.commands)).error? ∧
      (l.engine.process batch).state.sink =
        some (Sink.sendAll s (ps.flatMap Part.commands)).state
  /-- A call that succeeds leaves as many words as it found. -/
  kept : (l.engine.process batch).error? = none →
    (l.engine.process batch).state.pending.length = l.engine.pending.length

theorem InOrder.queueLaw (h : InOrder l) (batch : List Command) : QueueLaw l batch := by
  obtain ⟨s, hs⟩ := Option.isSome_iff_exists.1 h.sink
  -- at every moment, behind the call, and what forwarding sends and leaves
  refine ⟨fun m hm => h.during hm, h.during_call batch, ?_, ?_, ?_⟩
  · intro before c behind hbatch hok hreach
    have hready := h.ready hok
    rw [hbatch] at hready hreach ⊢
    exact (hready.append hreach).sends
  · intro hok
    obtain ⟨ps, hps⟩ := Engine.exists_rewrites_of_classifyAll hok
    obtain ⟨herror, hstate⟩ := Engine.process_rewrites hs hok hps
    exact ⟨s, ps, hs, hps, herror, by rw [hstate]; rfl⟩
  · intro hprocess
    have hok := Engine.classify_ok_of_process_ok hprocess
    obtain ⟨ps, hps⟩ := Engine.exists_rewrites_of_classifyAll hok
    obtain ⟨herror, hstate⟩ := Engine.process_rewrites hs hok hps
    have hsend := herror.symm.trans hprocess
    have hlen := Engine.length_found hok
    rw [hstate, Part.waiting_accepted hsend]
    show (List.drop _ _).length = _
    rw [List.length_drop, List.length_append]
    omega

/-- **The queue remembers across failures.**  On an engine that began before a sink, after any
calls, succeeded or failed, the rotations that forwarding reaches take the words in the order in
which they were ever pushed, and forwarding adds no fault to those of the sink. -/
theorem queue_history (o : ω) (s : σ) (recorder : Option ρ) (earlier : List (List Command))
    (batch : List Command) : QueueLaw (run (fresh o s recorder) earlier) batch :=
  (InOrder.run ⟨rfl, rfl⟩ earlier).queueLaw batch

/-- A call that failed leaves a word, and the rotation of the next call is sent as this one. -/
theorem queue_history_stale_word :
    let o : FunctionOracle := ⟨fun axis _ => .ok (if axis = .z then "S" else "TH")⟩
    let log : CommandLog := ⟨[]⟩
    let start : Life FunctionOracle CommandLog OutcomeLog := fresh o log none
    let half : Binary64 := ⟨0x3fe0000000000000⟩
    let failed := start.run [[.rx half ⟨0⟩, .deallocate ⟨7⟩]]
    failed.engine.pending = [⟨[.h, .t]⟩] ∧
      (failed.engine.process [.rz half ⟨1⟩]).error? = none ∧
      (failed.engine.process [.rz half ⟨1⟩]).state.sink =
        some ⟨[.fixed .h ⟨1⟩, .fixed .t ⟨1⟩]⟩ ∧
      (failed.engine.process [.rz half ⟨1⟩]).state.pending = [⟨[.s]⟩] ∧
      QueueLaw failed [.rz half ⟨1⟩] := by
  intro o log start half failed
  exact ⟨by decide, by decide, by decide, by decide, queue_history o log none _ _⟩

end Process

end Life

end CliffordT
