/-
The report: what the analysis could not use of what it was told.
-/
import Disasm65.Text.Hex

namespace Disasm65

/-- How much a message matters. -/
inductive Severity where
  | info
  | warning
  | error
deriving DecidableEq

namespace Severity

/-- Every severity, least first. -/
def all : List Severity := [.info, .warning, .error]

def name : Severity → String
  | .info => "Info"
  | .warning => "Warning"
  | .error => "Error"

def rank : Severity → Nat
  | .info => 0
  | .warning => 1
  | .error => 2

end Severity

/-- What a message is about. -/
inductive Topic where
  /-- a label on a byte that starts nothing -/
  | hiddenLabel
  | offsetOrLength
  | format
  /-- a second label for an offset, or a second use of a name -/
  | duplicateLabel
deriving DecidableEq

namespace Topic

/-- Every topic. -/
def all : List Topic := [.hiddenLabel, .offsetOrLength, .format, .duplicateLabel]

def name : Topic → String
  | .hiddenLabel => "HiddenLabel"
  | .offsetOrLength => "InvalidOffsetOrLength"
  | .format => "InvalidDescriptor"
  | .duplicateLabel => "DuplicateLabel"

end Topic

/-- What was done about it. -/
inductive Resolution where
  | nothing
  | labelIgnored
  | formatIgnored
deriving DecidableEq

namespace Resolution

/-- Every resolution. -/
def all : List Resolution := [.nothing, .labelIgnored, .formatIgnored]

def name : Resolution → String
  | .nothing => "None"
  | .labelIgnored => "LabelIgnored"
  | .formatIgnored => "FormatDescriptorIgnored"

end Resolution

/-- One message. -/
structure Message where
  severity : Severity
  offset : Nat
  topic : Topic
  /-- the label, format or numbers the message is about -/
  context : String
  resolution : Resolution
deriving DecidableEq

def Message.text (message : Message) : String :=
  message.severity.name ++ " " ++ offsetText message.offset ++ " " ++ message.topic.name ++ "("
    ++ message.context ++ "): " ++ message.resolution.name

/-- Messages in the order in which they were made. -/
abbrev Report := List Message

namespace Report

/-- A message that need not come after another: it matters more, or as much at an offset that is
not higher. -/
def isBefore (a b : Message) : Bool :=
  b.severity.rank < a.severity.rank
    || (a.severity == b.severity && a.offset ≤ b.offset)

/-- The messages that matter most first, then by offset; messages alike in both keep their order. -/
def sort (report : Report) : Report := report.mergeSort isBefore

/-- The number of messages of a severity. -/
def countOf (report : Report) (severity : Severity) : Nat :=
  report.countP fun message => message.severity == severity

end Report

end Disasm65
