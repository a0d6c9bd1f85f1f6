import CliffordT.Pipeline.Oracle
import CliffordT.Pipeline.Recorder
import CliffordT.Pipeline.Sink
import CliffordT.Pipeline.Stats

/-!
# The decomposition engine

A stage of a pipeline that replaces every rotation by a word of the discrete alphabet.  A batch is
worked off in two passes over the same commands.

* `Engine.classify` : counts, records measurements, and asks the oracle for one word a rotation; the
  words wait in a queue.
* `Engine.forward` : sends the commands on, each rotation as the word at the head of the queue.

`Engine.process` forwards a batch only when all of it is classified, so a fault of classification
forwards nothing.  An engine without a sink classifies and drops the words.  An engine is itself a
sink, so engines can be chained.

The counters in `Engine.stats` are natural numbers, and agree with words of sixty-four bits while
every total stays below `2^64`.
-/

namespace CliffordT

/-- A stage that decomposes rotations. -/
structure Engine (ω σ ρ : Type) where
  oracle : ω
  /-- The next stage. -/
  sink : Option σ := none
  recorder : Option ρ := none
  /-- The words that wait to be forwarded, the oldest one first. -/
  pending : List Word := []
  /-- The qubits that are claimed. -/
  live : List Qubit := []
  stats : Stats := {}

namespace Engine

variable {ω σ ρ : Type}

/-! ### Registers -/

/-- Claim a qubit, which must not be claimed. -/
def claim (e : Engine ω σ ρ) (q : Qubit) : Outcome (Engine ω σ ρ) :=
  if q ∈ e.live then .fail e (.doubleAllocation q)
  else
    .done { e with
      live := q :: e.live
      stats := { e.stats with activeQubits := e.stats.activeQubits + 1 } }

/-- Release a qubit, which must be claimed, and must be counted as such. -/
def release (e : Engine ω σ ρ) (q : Qubit) : Outcome (Engine ω σ ρ) :=
  if q ∈ e.live then
    let e := { e with live := e.live.erase q }
    match e.stats.activeQubits with
    | 0 => .fail e (.counterUnderflow q)
    | n + 1 => .done { e with stats := { e.stats with activeQubits := n } }
  else .fail e (.counterUnderflow q)

/-- Take the number of claimed qubits into the greatest width. -/
def updateWidth (e : Engine ω σ ρ) : Engine ω σ ρ :=
  { e with stats := { e.stats with maxWidth := max e.stats.maxWidth e.stats.activeQubits } }

/-! ### Measurements -/

/-- The outcome recorded for every measured qubit.  Nothing is simulated, so it stands for no
physical value. -/
def placeholderOutcome : Bool := false

/-- Count measured qubits, and record an outcome for each of them. -/
def measure [Recorder ρ] (e : Engine ω σ ρ) (qs : List Qubit) : Outcome (Engine ω σ ρ) :=
  let e := { e with stats := { e.stats with measurements := e.stats.measurements + qs.length } }
  match e.recorder with
  | some r =>
    .done { e with
      recorder := some (qs.foldl (fun r q => Recorder.record r q placeholderOutcome) r) }
  | none => .note e (.outcomesDropped qs.length)

/-! ### Rotations -/

/-- Count a rotation, and put the word that the oracle has for it at the end of the queue. -/
def synthesize [Oracle ω] (e : Engine ω σ ρ) (axis : Axis) (angle : Binary64) :
    Outcome (Engine ω σ ρ) :=
  let answer := Oracle.synthesize e.oracle axis angle
  let e := { e with
    oracle := answer.oracle
    stats := { e.stats with rotations := e.stats.rotations + 1 } }
  match answer.result with
  | .error err => ⟨e, some err, answer.notices⟩
  | .ok raw =>
    match Word.ofOperatorText raw with
    | .error cause =>
      ⟨e, some (.malformedDecomposition axis angle cause),
        answer.notices ++ [.malformedWord (Oracle.name e.oracle) axis angle]⟩
    | .ok word =>
      ⟨{ e with pending := e.pending ++ [word] }, none,
        answer.notices ++ [.decomposed axis angle word]⟩

/-! ### Classification -/

/-- Take a command into account. -/
def classify [Oracle ω] [Recorder ρ] (e : Engine ω σ ρ) (c : Command) : Outcome (Engine ω σ ρ) :=
  match c.gate with
  | .allocate => (Outcome.forEach claim e c.targets).andThen fun e => .done e.updateWidth
  | .deallocate => Outcome.forEach release e c.targets
  | .measure => e.measure c.targets
  | .rotation axis angle =>
    match c.qubit with
    | .ok _ => e.synthesize axis angle
    | .error cause => .fail e (.circuit cause)
  | _ => .done e

/-! ### Forwarding -/

/-- Send a command to the next stage and count it.  Without a next stage nothing happens. -/
def deliver [Sink σ] (e : Engine ω σ ρ) (c : Command) : Outcome (Engine ω σ ρ) :=
  match e.sink with
  | none => .done e
  | some s =>
    ((Sink.send s c).map fun s => { e with sink := some s }).andThen fun e =>
      .done { e with stats := { e.stats with forwarded := e.stats.forwarded + 1 } }

/-- Send a gate of a rotation's word, and count it for the alphabet too. -/
def emit [Sink σ] (q : Qubit) (e : Engine ω σ ρ) (g : FixedGate) : Outcome (Engine ω σ ρ) :=
  (e.deliver (.fixed g q)).andThen fun e =>
    .done { e with stats := { e.stats with emitted := e.stats.emitted.bump g } }

/-- Send a command on.  A rotation is sent as the oldest word that waits. -/
def forward [Sink σ] (e : Engine ω σ ρ) (c : Command) : Outcome (Engine ω σ ρ) :=
  if c.gate.isRotation then
    match e.pending with
    | [] => .fail e .queueUnderflow
    | word :: rest =>
      let e := { e with pending := rest }
      match c.qubit with
      | .error cause => .fail e (.circuit cause)
      | .ok q => Outcome.forEach (emit q) e word.gates
  else e.deliver c

/-! ### Batches -/

/-- Drop the words that wait, for want of a next stage. -/
def dropPending (e : Engine ω σ ρ) : Outcome (Engine ω σ ρ) :=
  if e.pending.isEmpty then .done e
  else .note { e with pending := [] } (.wordsDropped e.pending.length)

/-- Send a classified batch on, or drop its words. -/
def forwardAll [Sink σ] (e : Engine ω σ ρ) (batch : List Command) : Outcome (Engine ω σ ρ) :=
  match e.sink with
  | none => e.dropPending
  | some _ =>
    (Outcome.forEach forward e batch).andThen fun e => .note e (.forwarded e.stats.forwarded)

/-- Work off a batch of commands. -/
def process [Oracle ω] [Sink σ] [Recorder ρ] (e : Engine ω σ ρ) (batch : List Command) :
    Outcome (Engine ω σ ρ) :=
  (Outcome.forEach classify e batch).andThen fun e' =>
    (Outcome.note e' (.classified batch.length (e'.stats.rotations - e.stats.rotations))).andThen
      fun e' => e'.forwardAll batch

/-- Whether the pipeline from this engine on can handle a command.  The next stage decides, and one
without an opinion can. -/
def availability [Sink σ] (e : Engine ω σ ρ) (c : Command) : Bool :=
  match e.sink with
  | none => true
  | some s => (Sink.isAvailable s c).getD true

/-- The same engine before another stage. -/
def setSink (e : Engine ω σ ρ) (s : σ) : Engine ω σ ρ := { e with sink := some s }

instance [Oracle ω] [Sink σ] [Recorder ρ] : Sink (Engine ω σ ρ) where
  send e c := e.process [c]
  isAvailable e c := some (e.availability c)

/-! ### Texts -/

/-- The engine as it is printed: the number of its rotations. -/
def text (e : Engine ω σ ρ) : String := toString e.stats.rotations

/-- The engine in detail, for those who look for faults.  The emitted gates are listed in the order
of the alphabet. -/
def detail (e : Engine ω σ ρ) : String :=
  let emitted := e.stats.emitted.entries.map fun (g, n) => g.text ++ ": " ++ toString n
  "DecompositionEngine \x7b has_sink: " ++ toString e.sink.isSome ++
    ", pending: " ++ toString e.pending.length ++
    ", stats: EngineStats \x7b active_qubits: " ++ toString e.stats.activeQubits ++
    ", max_width: " ++ toString e.stats.maxWidth ++
    ", rotations: " ++ toString e.stats.rotations ++
    ", measurements: " ++ toString e.stats.measurements ++
    ", emitted: \x7b" ++ ", ".intercalate emitted ++
    "\x7d, forwarded: " ++ toString e.stats.forwarded ++ " \x7d, .. \x7d"

end Engine

end CliffordT
