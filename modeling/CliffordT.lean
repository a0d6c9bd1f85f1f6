import CliffordT.Config.Document
import CliffordT.Host.Sandbox
import CliffordT.Pipeline.Chain
import CliffordT.Proofs.Abort
import CliffordT.Proofs.Chaining
import CliffordT.Proofs.Meaning
import CliffordT.Proofs.PeakWidth
import CliffordT.Proofs.QueueHistory
import CliffordT.Proofs.Refusal
import CliffordT.Proofs.RegisterHistory
import CliffordT.Proofs.Parts
import CliffordT.Proofs.OracleCalls
import CliffordT.Proofs.Deliveries
import CliffordT.Proofs.Emission
import CliffordT.Proofs.Downstream
import CliffordT.Proofs.Measurements
import CliffordT.Proofs.Rounding
import CliffordT.Proofs.Numerals
import CliffordT.Proofs.JsonValues
import CliffordT.Proofs.CommandJson
import CliffordT.Proofs.Utf8
import CliffordT.Proofs.SnapshotJson
import CliffordT.Proofs.WordText
import CliffordT.Proofs.PlainNumerals
import CliffordT.Proofs.AngleArgument
import CliffordT.Proofs.PrintedStream
import CliffordT.Proofs.JsonParsing
import CliffordT.Proofs.JsonLibrary
import CliffordT.Proofs.JsonPieces
import CliffordT.Proofs.StrictReaders
import CliffordT.Proofs.RecordLayout
import CliffordT.Proofs.TextLayout
import CliffordT.Proofs.StructLayout
import CliffordT.Proofs.InvalidUtf8
import CliffordT.Proofs.SynthesisOutcome
import CliffordT.Proofs.ConfigDocument
import CliffordT.Proofs.ConfigHistory
import CliffordT.Proofs.TableHistory
import CliffordT.Proofs.ShellTexts
import CliffordT.Proofs.FileSystem
import CliffordT.Proofs.ShellRuns
import CliffordT.Proofs.ShellBuiltins
import CliffordT.Proofs.ToolFiles
import CliffordT.Proofs.ShellEvaluation
import CliffordT.Proofs.Subshells
import CliffordT.Proofs.GlobPatterns
import CliffordT.Proofs.RegexMatches
import CliffordT.Proofs.ShellArithmetic
import CliffordT.Proofs.ShellReading
import CliffordT.Proofs.Conditions
import CliffordT.Proofs.PathNames
import CliffordT.Proofs.PrintingFormats
import CliffordT.Proofs.ToolTexts
import CliffordT.Proofs.LineEditing
import CliffordT.Proofs.LineSelection
import CliffordT.Proofs.SandboxRuns
