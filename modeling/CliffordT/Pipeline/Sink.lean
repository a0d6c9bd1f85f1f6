import CliffordT.Pipeline.Outcome

/-!
# Sinks

A sink is the next stage of a pipeline: it takes commands one by one, and may refuse one.

* `CommandLog` : keeps every command,
* `Printer` : prints a line for every command, into a buffer that may be limited,
* `ScriptedSink` : keeps commands and refuses those that a plan says.
-/

namespace CliffordT

/-- A stage that takes commands. -/
class Sink (σ : Type) where
  /-- Take one command. -/
  send : σ → Command → Outcome σ
  /-- Whether the stage can handle a command; `none` if it has no opinion. -/
  isAvailable : σ → Command → Option Bool

/-! ### Logs -/

/-- A sink that keeps every command. -/
structure CommandLog where
  /-- The commands in the order of their arrival. -/
  commands : List Command := []
deriving DecidableEq

namespace CommandLog

/-- The gates of the commands. -/
def gates (l : CommandLog) : List Gate := l.commands.map (·.gate)

/-- The number of commands. -/
def length (l : CommandLog) : Nat := l.commands.length

/-- No command has arrived. -/
def isEmpty (l : CommandLog) : Bool := l.commands.isEmpty

/-- The log with one more command. -/
def push (l : CommandLog) (c : Command) : CommandLog := ⟨l.commands ++ [c]⟩

end CommandLog

instance : Sink CommandLog where
  send l c := .done (l.push c)
  isAvailable _ _ := none

/-! ### Printers -/

/-- A sink that prints a line for every command. -/
structure Printer where
  /-- The bytes printed so far. -/
  bytes : List UInt8 := []
  /-- How many bytes there is room for. -/
  limit : Option Nat := none
deriving DecidableEq

namespace Printer

/-- The line of a command. -/
def line (c : Command) : List UInt8 := Utf8.encode (c.text.toList ++ ['\n'])

/-- The refusal of bytes for which there is no room. -/
def full : PipelineError := .sink "device full"

/-- Print bytes.  Without room for all of them, as many as fit are printed. -/
def write (p : Printer) (bytes : List UInt8) : Outcome Printer :=
  match p.limit with
  | none => .done { p with bytes := p.bytes ++ bytes }
  | some n =>
    let room := n - p.bytes.length
    let p := { p with bytes := p.bytes ++ bytes.take room }
    if bytes.length ≤ room then .done p else .fail p full

/-- The printed bytes as a text. -/
def text (p : Printer) : String := String.ofList (Utf8.lossy p.bytes)

end Printer

instance : Sink Printer where
  send p c := p.write (Printer.line c)
  isAvailable _ _ := none

/-! ### Scripted sinks -/

/-- What a scripted sink says about the commands it can handle. -/
inductive Opinion where
  /-- Nothing. -/
  | none
  /-- The same for every command. -/
  | same (b : Bool)
  /-- It handles the commands with certain names. -/
  | named (names : List String)
deriving DecidableEq

/-- The opinion on a command. -/
def Opinion.of (o : Opinion) (c : Command) : Option Bool :=
  match o with
  | none => .none
  | same b => some b
  | named names => some (names.contains c.name)

/-- A sink that refuses commands by plan and keeps the others. -/
structure ScriptedSink where
  opinion : Opinion := .none
  /-- The refusals, by the number of the command, counted from zero. -/
  refusals : List (Nat × PipelineError) := []
  /-- The number of commands so far, refused ones included. -/
  sent : Nat := 0
  /-- The commands that were kept. -/
  kept : List Command := []

instance : Sink ScriptedSink where
  send s c :=
    match s.refusals.lookup s.sent with
    | some e => .fail { s with sent := s.sent + 1 } e
    | none => .done { s with sent := s.sent + 1, kept := s.kept ++ [c] }
  isAvailable s c := s.opinion.of c

end CliffordT
