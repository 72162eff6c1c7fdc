/-
Formats for the bytes that nobody has claimed.

What is neither code nor inline data is data.  The data bytes without a format are gathered into
ranges, which end at code, at items that have a format, at labels and comments, and at changes of
addresses.  A range is cut into items from the front: a string if enough characters stand there,
else a fill if the first byte is repeated often enough, else single bytes.
-/
import Disasm65.Data.Workspace
import Disasm65.Text.Strings

namespace Disasm65.Data

/-- The characters at the front of a range, as long as their first run is not too long for text:
how many there are, and what they are called. -/
def frontText (parameters : Parameters) (bytes : List UInt8) : Nat × FormatDetail :=
  let charset := parameters.textScan.charset
  let run := runLength bytes
  match bytes with
  | first :: _ =>
    if (CharClass.extended charset).accepts first && run ≤ parameters.maxStringRun then
      let refined := charset.refine first
      let rest := (bytes.drop run).takeWhile (CharClass.extended refined).accepts
      (run + rest.length, refined.detail)
    else (0, charset.detail)
  | [] => (0, charset.detail)

/-- The items at the front of a range that begin with its first run, and the number of bytes they
take. -/
def frontItems (parameters : Parameters) (bytes : List UInt8) :
    Except Fault (List Format × Nat) :=
  let run := runLength bytes
  let (characters, detail) := frontText parameters bytes
  if parameters.minString ≤ characters then
    match Format.create characters .text detail with
    | .ok format => .ok ([format], characters)
    | .error fault => .error fault
  else if parameters.minRun ≤ run then
    match Format.create run .fill .plain with
    | .ok format => .ok ([format], run)
    | .error fault => .error fault
  else .ok (List.replicate run .oneByte, run)

/-- Cut a range into items.  Every step takes at least one byte, so `fuel` steps suffice for as many
bytes.  A fault ends the list. -/
def cutBytes (parameters : Parameters) :
    (fuel : Nat) → List UInt8 → List Format × Option Fault
  | 0, _ => ([], none)
  | _, [] => ([], none)
  | fuel + 1, bytes@(_ :: _) =>
    match frontItems parameters bytes with
    | .error fault => ([], some fault)
    | .ok (items, taken) =>
      let (others, fault) := cutBytes parameters fuel (bytes.drop taken)
      (items ++ others, fault)

/-- The items of a range. -/
def rangeItems (parameters : Parameters) (bytes : List UInt8) : List Format × Option Fault :=
  if parameters.cutsUnclaimed then cutBytes parameters bytes.length bytes
  else (List.replicate bytes.length .oneByte, none)

/-- Attach formats one after the other, from `offset` on. -/
def placeItems (attributes : Attributes) : (offset : Nat) → List Format → Attributes
  | _, [] => attributes
  | offset, format :: others =>
    placeItems (attributes.update offset fun a => { a with format := some format })
      (offset + format.length) others

/-- Give formats to the bytes from `start` up to `stop`. -/
def formatRange (survey : Survey) (start stop : Nat) (w : Workspace) : Outcome :=
  let bytes := (survey.image.slice? start (stop - start)).getD []
  let (items, fault) := rangeItems survey.parameters bytes
  ⟨{ w with attributes := placeItems w.attributes start items }, fault⟩

/-- Give formats to the range that has been gathered up to `stop`, if there is one. -/
def closeRange (survey : Survey) (start : Option Nat) (stop : Nat) (w : Workspace) : Outcome :=
  match start with
  | some start => formatRange survey start stop w
  | none => w.done

/-- Class the next byte.  `covered` is the end of the last inline item with a format. -/
def classNext (done : Attributes × Nat) (a : Attribute) : Attributes × Nat :=
  let (attributes, covered) := done
  let offset := attributes.size
  if a.isInlineData then
    match a.format with
    | some format => (attributes.push a, offset + format.length)
    | none =>
      (attributes.push (if covered ≤ offset then { a with format := some .oneByte } else a),
        covered)
  else (attributes.push (if a.isInstruction then a else a.mark .data), covered)

/-- Make every byte that is neither code nor inline data a data byte, and give inline bytes that
belong to no item a format of their own. -/
def classBytes (attributes : Attributes) : Attributes := (attributes.foldl classNext (#[], 0)).1

/-- The length of what ends a range at this byte, if anything does. -/
def endsRange? (a : Attribute) : Option Nat :=
  if a.isInstruction then some 1
  else if a.isInlineData || a.isDataStart then some a.length
  else none

/-- Gather ranges from `offset` on and give them formats.  `start` is the first byte of the range
under way. -/
def gatherFrom (survey : Survey) :
    (fuel offset : Nat) → (start : Option Nat) → Workspace → Outcome
  | 0, _, _, w => w.stop .outOfSteps
  | fuel + 1, offset, start, w =>
    let size := w.attributes.size
    if size ≤ offset then closeRange survey start size w
    else
      let a := w.info offset
      match endsRange? a with
      | some length =>
        (closeRange survey start offset w).andThen fun w =>
          w.goOn (stepOver offset length) fun next => gatherFrom survey fuel next none
      | none =>
        if a.symbol.isSome || survey.comments.contains offset then
          (closeRange survey start offset w).andThen
            (gatherFrom survey fuel (offset + 1) (some offset))
        else
          let start := start.getD offset
          if offset + 1 < size && !survey.map.isContiguous offset 2 then
            (formatRange survey start (offset + 1) w).andThen
              (gatherFrom survey fuel (offset + 1) none)
          else gatherFrom survey fuel (offset + 1) (some start) w

/-- The fault at the first inline item that does not end at a word. -/
def inlineFault? (attributes : Attributes) : Option Fault :=
  (List.range attributes.size).findSome? fun offset =>
    let a := attributes.info offset
    match a.format.map fun format => addWords offset format.length with
    | some (.error fault) => if a.isInlineData then some fault else none
    | _ => none

/-- Give formats to the bytes that nobody has claimed. -/
def formatUnclaimed (survey : Survey) (w : Workspace) : Outcome :=
  match inlineFault? w.attributes with
  | some fault => w.stop fault
  | none =>
    let w := { w with attributes := classBytes w.attributes }
    gatherFrom survey (walkFuel w.attributes.size) 0 none w

end Disasm65.Data
