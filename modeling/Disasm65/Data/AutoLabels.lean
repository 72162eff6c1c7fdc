/-
Generated labels that tell how they are used.

A label is tagged with the kinds of reference that reach it: S for a subroutine call, B for a
branch, D for an address in data, W for a write and R for a read, in this order.
-/
import Disasm65.Data.Workspace

namespace Disasm65.Data

/-- The kinds of reference to a label. -/
structure References where
  calls : Bool
  branches : Bool
  addresses : Bool
  writes : Bool
  reads : Bool
deriving DecidableEq

namespace References

def none : References := ⟨false, false, false, false, false⟩

/-- The kinds of either. -/
def union (a b : References) : References :=
  ⟨a.calls || b.calls, a.branches || b.branches, a.addresses || b.addresses,
   a.writes || b.writes, a.reads || b.reads⟩

/-- The tags of the kinds, strongest first. -/
def tags (references : References) : List Char :=
  (if references.calls then ['S'] else []) ++ (if references.branches then ['B'] else [])
    ++ (if references.addresses then ['D'] else []) ++ (if references.writes then ['W'] else [])
    ++ (if references.reads then ['R'] else [])

end References

/-- What the label of a place with these references starts with. -/
def tagStem (references : References) (style : LabelStyle) : String :=
  let tags :=
    match style with
    | .tagged => references.tags.take 1
    | .simple | .fullyTagged => references.tags
  String.ofList (tags ++ ['_'])

/-- The kind of reference that what is at `offset` makes. -/
def referenceAt (survey : Survey) (attributes : Attributes) (offset : Nat) : References :=
  let op := survey.opcodeAt offset
  if !(attributes.info offset).isInstructionStart then { References.none with addresses := true }
  else if op.isCall then { References.none with calls := true }
  else if op.isBranchOrCall then { References.none with branches := true }
  else
    match op.memoryEffect with
    | .read => { References.none with reads := true }
    | .write => { References.none with writes := true }
    | .modify => { References.none with reads := true, writes := true }
    | .untouched => References.none

/-- The label that what is at `offset` refers to. -/
def referredLabel? (attributes : Attributes) (offset : Nat) : Option LabelRef :=
  (attributes.info offset).format.bind (·.label)

/-- All kinds of reference to each label. -/
def gatherReferences (survey : Survey) (attributes : Attributes) :
    Std.TreeMap String References :=
  (List.range attributes.size).foldl
    (fun found offset =>
      match referredLabel? attributes offset with
      | some ref =>
        found.insert ref.label
          ((found.getD ref.label .none).union (referenceAt survey attributes offset))
      | none => found)
    ∅

/-- The new name of each label that has one. -/
abbrev Renaming := Std.TreeMap String String

/-- The generated label at `offset`. -/
def autoLabel? (attributes : Attributes) (offset : Nat) : Option String :=
  match (attributes.info offset).symbol with
  | some symbol => if symbol.origin = .auto then some symbol.label else none
  | none => none

/-- Rename the generated label at each of the offsets after its references; one without any keeps its
name. -/
def renameFrom (survey : Survey) (found : Std.TreeMap String References) :
    List Nat → Renaming → Workspace → Outcome × Renaming
  | [], renamed, w => (w.done, renamed)
  | offset :: others, renamed, w =>
    match autoLabel? w.attributes offset with
    | none => renameFrom survey found others renamed w
    | some old =>
      let references := found.getD old .none
      if references = .none then renameFrom survey found others renamed w
      else
        let stem := tagStem references survey.parameters.labelStyle
        match w.symbols.generate (w.info offset).address stem with
        | .error fault => (w.stop fault, renamed)
        | .ok symbol =>
          let { attributes, symbols } := w
          let symbols := symbols.erase old
          match symbols.add (.label symbol) with
          | .error fault => (Workspace.stop ⟨attributes, symbols⟩ fault, renamed)
          | .ok symbols =>
            let attributes := attributes.update offset fun a => { a with symbol := some symbol }
            renameFrom survey found others (renamed.insert old symbol.label)
              ⟨attributes, symbols⟩

/-- The format with the new name of its label. -/
def renameFormat (renamed : Renaming) (format : Format) : Except Fault Format :=
  match format.label with
  | none => .ok format
  | some ref =>
    match renamed[ref.label]? with
    | none => .ok format
    | some label =>
      Format.reference format.length ⟨label, ref.part⟩ (format.kind == .bigEndian)

/-- Give the references at each of the offsets their new names. -/
def renameReferences (renamed : Renaming) : List Nat → Workspace → Outcome
  | [], w => w.done
  | offset :: others, w =>
    match (w.info offset).format with
    | none => renameReferences renamed others w
    | some format =>
      match renameFormat renamed format with
      | .error fault => w.stop fault
      | .ok format =>
        renameReferences renamed others (w.update offset fun a => { a with format := some format })

/-- Name generated labels after the references that reach them, as the style says. -/
def tagLabels (survey : Survey) (w : Workspace) : Outcome :=
  if survey.parameters.labelStyle = .simple then w.done
  else
    let offsets := List.range w.attributes.size
    let found := gatherReferences survey w.attributes
    let (outcome, renamed) := renameFrom survey found offsets ∅ w
    outcome.andThen (renameReferences renamed offsets)

end Disasm65.Data
