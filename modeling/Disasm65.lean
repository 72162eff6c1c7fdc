import Disasm65.AddressMap
import Disasm65.Cpu.AddressMode
import Disasm65.Cpu.Layer
import Disasm65.Cpu.Mnemonic
import Disasm65.Cpu.Opcode
import Disasm65.Cpu.Processor
import Disasm65.Data.AutoLabels
import Disasm65.Data.Ranges
import Disasm65.Data.Targets
import Disasm65.Data.Workspace
import Disasm65.Fault
import Disasm65.Flow.Analysis
import Disasm65.Flow.Operand
import Disasm65.Flow.Service
import Disasm65.Flow.Setup
import Disasm65.Flow.Visit
import Disasm65.Format.Basic
import Disasm65.Format.Kind
import Disasm65.Image.Attribute
import Disasm65.Image.Bytes
import Disasm65.Json.Basic
import Disasm65.Json.Reader
import Disasm65.Json.Writer
import Disasm65.Parameters
import Disasm65.Persist.BitSet
import Disasm65.Persist.Codec
import Disasm65.Persist.Parameters
import Disasm65.Persist.Records
import Disasm65.Plugin
import Disasm65.Project
import Disasm65.Proofs.AddressMap
import Disasm65.Proofs.AddressMap.Contiguous
import Disasm65.Proofs.AddressMap.Translation
import Disasm65.Proofs.Attributes
import Disasm65.Proofs.Cpu.Combination
import Disasm65.Proofs.Cpu.Execution
import Disasm65.Proofs.Cpu.Immediate
import Disasm65.Proofs.Cpu.Operands
import Disasm65.Proofs.Cpu.Processor
import Disasm65.Proofs.Cpu.Writes
import Disasm65.Proofs.Data.AutoLabels
import Disasm65.Proofs.Data.Breaks
import Disasm65.Proofs.Data.Classing
import Disasm65.Proofs.Data.Cutting
import Disasm65.Proofs.Data.Gathering
import Disasm65.Proofs.Data.Greedy
import Disasm65.Proofs.Data.Labels
import Disasm65.Proofs.Data.Ranges
import Disasm65.Proofs.Data.Renaming
import Disasm65.Proofs.Data.Repetition
import Disasm65.Proofs.Data.Resolution
import Disasm65.Proofs.Data.Settling
import Disasm65.Proofs.Data.Targets
import Disasm65.Proofs.Data.Tiling
import Disasm65.Proofs.Data.Workspace
import Disasm65.Proofs.Flow.Bounds
import Disasm65.Proofs.Flow.Byte
import Disasm65.Proofs.Flow.Checked.Ends
import Disasm65.Proofs.Flow.Checked.Service
import Disasm65.Proofs.Flow.Checked.Visit
import Disasm65.Proofs.Flow.Classes
import Disasm65.Proofs.Flow.Closure
import Disasm65.Proofs.Flow.Consistency
import Disasm65.Proofs.Flow.Cover
import Disasm65.Proofs.Flow.Declarations
import Disasm65.Proofs.Flow.Decode
import Disasm65.Proofs.Flow.Effort
import Disasm65.Proofs.Flow.Ends
import Disasm65.Proofs.Flow.Execute
import Disasm65.Proofs.Flow.FirstVisit
import Disasm65.Proofs.Flow.Footprint
import Disasm65.Proofs.Flow.Handing
import Disasm65.Proofs.Flow.LastDecoding
import Disasm65.Proofs.Flow.Leave
import Disasm65.Proofs.Flow.Lockstep
import Disasm65.Proofs.Flow.Machine
import Disasm65.Proofs.Flow.Moments
import Disasm65.Proofs.Flow.Operand
import Disasm65.Proofs.Flow.OperandAddresses
import Disasm65.Proofs.Flow.Polling
import Disasm65.Proofs.Flow.Pull
import Disasm65.Proofs.Flow.Reach
import Disasm65.Proofs.Flow.Rejection
import Disasm65.Proofs.Flow.Requests
import Disasm65.Proofs.Flow.Silence
import Disasm65.Proofs.Flow.Spans
import Disasm65.Proofs.Flow.Talk
import Disasm65.Proofs.Flow.Unobstructed
import Disasm65.Proofs.Flow.Visit
import Disasm65.Proofs.Image.Bytes
import Disasm65.Proofs.Project.Continuity
import Disasm65.Proofs.Project.Distances
import Disasm65.Proofs.Project.Fates
import Disasm65.Proofs.Project.Labels
import Disasm65.Proofs.Project.Layout
import Disasm65.Proofs.Project.Linking
import Disasm65.Proofs.Project.Overrun
import Disasm65.Proofs.Project.Placement
import Disasm65.Proofs.Project.Resolution
import Disasm65.Proofs.Project.UserFormats
import Disasm65.Proofs.Status
import Disasm65.Proofs.Status.Join
import Disasm65.Proofs.Status.Packing
import Disasm65.Proofs.Status.Values
import Disasm65.Proofs.Symbol.Candidates
import Disasm65.Proofs.Symbol.Edits
import Disasm65.Proofs.Symbol.First
import Disasm65.Proofs.Symbol.Fresh
import Disasm65.Proofs.Symbol.Index
import Disasm65.Proofs.Symbol.Lookup
import Disasm65.Proofs.Symbol.Mirrors
import Disasm65.Proofs.Symbol.Precedence
import Disasm65.Proofs.Symbol.Preference
import Disasm65.Proofs.Text.Charset
import Disasm65.Proofs.Text.Dci
import Disasm65.Proofs.Text.Framing
import Disasm65.Proofs.Text.Splitting
import Disasm65.Report
import Disasm65.Status.Flags
import Disasm65.Status.TriState
import Disasm65.Symbol.Basic
import Disasm65.Symbol.Definition
import Disasm65.Symbol.Table
import Disasm65.Text.Blank
import Disasm65.Text.Charset
import Disasm65.Text.Hex
import Disasm65.Text.Strings
import Disasm65.Word
