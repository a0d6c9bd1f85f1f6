import CliffordT.Pipeline.Engine
import CliffordT.Pipeline.ProcessOracle

/-!
# Chains of engines

Pipelines whose parts are chosen while the program runs.  `Chain n` is a sink behind which at most
`n` engines follow one another up to an `Endpoint`.
-/

namespace CliffordT

/-! ### Parts -/

/-- An oracle of one of several kinds. -/
inductive AnyOracle where
  | table (t : WordTable)
  | scripted (o : ScriptedOracle)
  | process (o : ProcessOracle)

/-- The same answer of an oracle that is part of another type. -/
def Answer.map {α β : Type} (f : α → β) (a : Answer α) : Answer β :=
  ⟨a.result, f a.oracle, a.notices⟩

instance : Oracle AnyOracle where
  name
    | .table t => Oracle.name t
    | .scripted o => Oracle.name o
    | .process o => Oracle.name o
  synthesize o axis angle :=
    match o with
    | .table t => (Oracle.synthesize t axis angle).map .table
    | .scripted o => (Oracle.synthesize o axis angle).map .scripted
    | .process o => (Oracle.synthesize o axis angle).map .process

/-- The end of a pipeline. -/
inductive Endpoint where
  | log (l : CommandLog)
  | printer (p : Printer)
  | scripted (s : ScriptedSink)

instance : Sink Endpoint where
  send e c :=
    match e with
    | .log l => (Sink.send l c).map .log
    | .printer p => (Sink.send p c).map .printer
    | .scripted s => (Sink.send s c).map .scripted
  isAvailable e c :=
    match e with
    | .log l => Sink.isAvailable l c
    | .printer p => Sink.isAvailable p c
    | .scripted s => Sink.isAvailable s c

/-- A sink that is of one of two kinds. -/
instance {α β : Type} [Sink α] [Sink β] : Sink (α ⊕ β) where
  send s c :=
    match s with
    | .inl a => (Sink.send a c).map .inl
    | .inr b => (Sink.send b c).map .inr
  isAvailable s c :=
    match s with
    | .inl a => Sink.isAvailable a c
    | .inr b => Sink.isAvailable b c

/-! ### Chains -/

/-- A sink that is an endpoint, or an engine before a shorter chain. -/
def Chain : Nat → Type
  | 0 => Endpoint
  | n + 1 => Endpoint ⊕ Engine AnyOracle (Chain n) Register

namespace Chain

/-- A chain is a sink. -/
@[reducible]
def sink : (n : Nat) → Sink (Chain n)
  | 0 => inferInstanceAs (Sink Endpoint)
  | n + 1 =>
    letI := sink n
    inferInstanceAs (Sink (Endpoint ⊕ Engine AnyOracle (Chain n) Register))

instance (n : Nat) : Sink (Chain n) := sink n

/-- The chain of an endpoint alone. -/
def ofEndpoint (e : Endpoint) : (n : Nat) → Chain n
  | 0 => e
  | _ + 1 => .inl e

end Chain

/-! ### Plans -/

/-- An engine that is to be built. -/
structure StagePlan where
  oracle : AnyOracle
  /-- Whether a fresh register is attached. -/
  recorded : Bool := false

/-- A pipeline that is to be built: engines one behind the other, and the sink of the last one. -/
structure ChainPlan where
  stages : List StagePlan := []
  endpoint : Option Endpoint := none

namespace StagePlan

/-- The engine of a plan, before a sink. -/
def build {n : Nat} (s : StagePlan) (sink : Option (Chain n)) :
    Engine AnyOracle (Chain n) Register where
  oracle := s.oracle
  sink := sink
  recorder := if s.recorded then some {} else none

end StagePlan

namespace ChainPlan

/-- The sink of a plan with at most `n` stages; nothing for a plan without stages and endpoint. -/
def build (endpoint : Option Endpoint) : (n : Nat) → List StagePlan → Option (Chain n)
  | n, [] => endpoint.map (Chain.ofEndpoint · n)
  | 0, _ :: _ => none
  | n + 1, s :: stages => some (.inr (s.build (build endpoint n stages)))

/-- The chain of a plan. -/
def toChain (p : ChainPlan) (n : Nat) : Option (Chain n) := build p.endpoint n p.stages

end ChainPlan

end CliffordT
