/-
A project: an image and everything its user has said about it, and what the analysis makes of it.

Definitions come from platform files and from the project itself, labels and formats from the user.
User data that does not fit is left out and reported; only the data passes, and arrays of the wrong
size, can end the analysis with a fault.
-/
import Disasm65.Data.AutoLabels
import Disasm65.Data.Ranges
import Disasm65.Data.Targets
import Disasm65.Flow.Analysis
import Disasm65.Report

namespace Disasm65

/-- An image and what is known about it. -/
structure Project where
  setup : Flow.Setup
  /-- the definitions of each platform file, in the order of the files -/
  platforms : List (List Definition)
  definitions : List Definition
  /-- the labels of the user and their offsets -/
  labels : List (Nat × Symbol)
  /-- the formats of the user, by offset -/
  formats : Std.TreeMap Nat Format
  /-- the offsets with a comment -/
  comments : List Nat

/-- What the analysis of a project gives. -/
structure Findings (ν : Type) where
  attributes : Attributes
  symbols : SymbolTable
  report : Report
  /-- what the plugins noted -/
  journal : Array ν

namespace Project

/-! ### Definitions and labels -/

/-- The table of all definitions.  A later one takes the label from an earlier one. -/
def definedSymbols (project : Project) : SymbolTable :=
  (project.platforms.flatten ++ project.definitions).foldl
    (fun symbols definition => symbols.put (.defined definition)) .empty

/-- A label that is left out. -/
def labelMessage (severity : Severity) (topic : Topic) (offset : Nat) (label : String) : Message :=
  ⟨severity, offset, topic, label, .labelIgnored⟩

/-- The labels that have been taken so far, latest first, and what was reported about others. -/
structure Intake where
  accepted : List (Nat × Symbol)
  report : Report

/-- An accepted label has the offset or the name. -/
def Intake.isTaken (intake : Intake) (offset : Nat) (label : String) : Bool :=
  intake.accepted.any fun (o, symbol) => o == offset || symbol.label == label

/-- Take one label: it needs an address, and an offset and a name of its own.  Its value becomes the
address of its offset. -/
def takeLabel (map : AddressMap) (intake : Intake) (entry : Nat × Symbol) : Intake :=
  let (offset, symbol) := entry
  match map.addressOf? offset with
  | none =>
    { intake with
      report := intake.report ++ [labelMessage .error .offsetOrLength offset symbol.label] }
  | some address =>
    if intake.isTaken offset symbol.label then
      { intake with
        report := intake.report ++ [labelMessage .warning .duplicateLabel offset symbol.label] }
    else
      { intake with accepted := (offset, { symbol with value := address }) :: intake.accepted }

/-- The labels that are accepted, in their order, and what is reported about the others. -/
def acceptLabels (project : Project) : List (Nat × Symbol) × Report :=
  let intake := project.labels.foldl (takeLabel project.setup.map) ⟨[], []⟩
  (intake.accepted.reverse, intake.report)

/-- The table with the accepted labels as well. -/
def initialSymbols (project : Project) (accepted : List (Nat × Symbol)) : SymbolTable :=
  accepted.foldl (fun symbols (_, symbol) => symbols.put (.label symbol)) project.definedSymbols

/-- Attach a label to its byte, unless one is there. -/
def attachLabel (state : Attributes × Report) (entry : Nat × Symbol) : Attributes × Report :=
  let (attributes, report) := state
  let (offset, symbol) := entry
  if (attributes.info offset).symbol.isSome then
    (attributes, report ++ [labelMessage .warning .duplicateLabel offset symbol.label])
  else (attributes.update offset fun a => { a with symbol := some symbol }, report)

/-! ### Formats -/

/-- The first code byte from `offset` up to `stop`. -/
def firstCode? (attributes : Attributes) (offset stop : Nat) : Option Nat :=
  ((List.range (stop - offset)).map (offset + ·)).find? fun i => (attributes.info i).isInstruction

/-- What is wrong with the user's format at `offset`, if anything is: how much it matters, and what
it is about.  Its end has been found to be a word. -/
def formatFlaw? (size : Nat) (map : AddressMap) (attributes : Attributes) (offset : Nat)
    (format : Format) : Option (Severity × Topic × String) :=
  let a := attributes.info offset
  let stop := offset + format.length
  let lengthText := Nat.repr format.length
  if size ≤ offset then
    some (.error, .offsetOrLength, "invalid offset (desc=" ++ format.text ++ ")")
  else if size < stop then
    some (.error, .offsetOrLength,
      "invalid offset+len: len=" ++ lengthText ++ " file=" ++ Nat.repr size)
  else if !map.isUnbroken offset format.length then
    some (.warning, .offsetOrLength, "descriptor straddles address change; len=" ++ lengthText)
  else if a.isInstructionStart then
    if format.length ≠ a.length then
      some (.warning, .offsetOrLength,
        "unexpected length on instr format descriptor (" ++ lengthText ++ " vs "
          ++ Nat.repr a.length ++ ")")
    else if format.length = 1 then
      some (.warning, .format, "unexpected format descriptor on single-byte op")
    else if !format.fitsInstruction then
      some (.warning, .format, "descriptor not valid for instruction: " ++ format.text)
    else none
  else if a.isInstruction then
    some (.warning, .format, "unexpected mid-instruction format descriptor")
  else
    match firstCode? attributes offset stop with
    | some i =>
      some (.warning, .format, "data format descriptor overlaps code at " ++ offsetText i)
    | none => none

/-- Attach the user's format to its byte, or report why not. -/
def attachFormat (size : Nat) (map : AddressMap) (state : Attributes × Report)
    (entry : Nat × Format) : Attributes × Report :=
  let (attributes, report) := state
  let (offset, format) := entry
  match formatFlaw? size map attributes offset format with
  | some (severity, topic, context) =>
    (attributes, report ++ [⟨severity, offset, topic, context, .formatIgnored⟩])
  | none => (attributes.update offset fun a => { a with format := some format }, report)

/-- Find the end of the user's format at a byte of the image, and then attach the format or report
why not.  The offset and the length taken together must be a word. -/
def takeFormat (size : Nat) (map : AddressMap) (state : Attributes × Report)
    (entry : Nat × Format) : Except Fault (Attributes × Report) :=
  if size ≤ entry.1 then .ok (attachFormat size map state entry)
  else (addWords entry.1 entry.2.length).map fun _ => attachFormat size map state entry

/-- Attach the labels and then the formats. -/
def attachUserData (project : Project) (accepted : List (Nat × Symbol))
    (state : Attributes × Report) : Except Fault (Attributes × Report) :=
  let state := accepted.foldl attachLabel state
  project.formats.toList.foldlM (takeFormat project.setup.image.size project.setup.map) state

/-! ### The whole analysis -/

/-- What the data passes read. -/
def survey (project : Project) : Data.Survey where
  image := project.setup.image
  processor := project.setup.processor
  map := project.setup.map
  parameters := project.setup.parameters
  comments := project.comments

/-- The data passes, one after the other. -/
def runDataPasses (survey : Data.Survey) (w : Data.Workspace) : Except Fault Data.Workspace :=
  match survey.check w.attributes with
  | .error fault => .error fault
  | .ok () =>
    let outcome :=
      ((Data.resolveTargets survey w).andThen (Data.formatUnclaimed survey)).andThen
        (Data.tagLabels survey)
    match outcome.fault with
    | some fault => .error fault
    | none => .ok outcome.workspace

/-- Take a label out again if no instruction and no item starts at its byte. -/
def dropHidden (state : Data.Workspace × Report) (entry : Nat × Symbol) :
    Data.Workspace × Report :=
  let (w, report) := state
  let (offset, symbol) := entry
  if (w.info offset).isStart then state
  else
    let { attributes, symbols } := w
    let attributes := attributes.update offset fun a =>
      if a.symbol = some symbol then { a with symbol := none } else a
    (⟨attributes, symbols.erase symbol.label⟩,
      report ++ [labelMessage .warning .hiddenLabel offset symbol.label])

/-- Analyse a project with the help of plugins. -/
def analyze {ν σ : Type} (project : Project) (panel : List (Plugin ν σ)) :
    Except Fault (Findings ν) := do
  let setup := project.setup
  if setup.map.totalLength ≠ setup.image.size then
    throw (.mapMissesImage setup.map.totalLength setup.image.size)
  let (accepted, report) := project.acceptLabels
  let symbols := project.initialSymbols accepted
  let flow ← Flow.analyze setup panel (Attributes.blank setup.image.size)
  let (attributes, report) ← project.attachUserData accepted (flow.attributes, report)
  let w ← runDataPasses project.survey ⟨attributes, symbols⟩
  let (w, report) := accepted.foldl dropHidden (w, report)
  return ⟨w.attributes, w.symbols, report, flow.journal⟩

end Project

end Disasm65
