/-
The symbol table.

Labels are unique.  Addresses are not: definitions and labels may claim the same place.  Two
indexes keep, for every address, the preferred claim on reading it and on writing it, so that a
look-up is one probe.  Entries with a mask stand apart and are searched only when the indexes have
nothing.

Removing a plain label touches the indexes at one address only, and rebuilds them when the label
had hidden another claim; every other removal rebuilds them.
-/
import Disasm65.Symbol.Definition
import Std.Data.TreeMap

namespace Disasm65

/-- For every address, the preferred claim on it. -/
abbrev ClaimIndex := Std.TreeMap Nat Entry

/-- Enter a claim on one address, unless one that is as good is there already. -/
def ClaimIndex.claim (index : ClaimIndex) (entry : Entry) (address : Nat) : ClaimIndex :=
  match index[address]? with
  | some holder =>
    if entry.precedence address holder = .lt then index.insert address entry else index
  | none => index.insert address entry

/-- The symbols of a project, by label, by value and by address. -/
structure SymbolTable where
  byLabel : Std.TreeMap String Entry
  /-- the entries of each value, by origin and label -/
  byValue : Std.TreeMap Nat (List Entry)
  readers : ClaimIndex
  writers : ClaimIndex
  /-- the entries that have a mask -/
  masked : List Entry
  /-- goes up with every change -/
  serial : Nat

namespace SymbolTable

def empty : SymbolTable := ⟨∅, ∅, ∅, ∅, [], 0⟩

def size (table : SymbolTable) : Nat := table.byLabel.size

def isEmpty (table : SymbolTable) : Bool := table.byLabel.isEmpty

/-- The entries in the order of their labels. -/
def entries (table : SymbolTable) : List Entry := table.byLabel.toList.map Prod.snd

def get? (table : SymbolTable) (label : String) : Option Entry := table.byLabel[label]?

def contains (table : SymbolTable) (label : String) : Bool := table.byLabel.contains label

/-- The table without its entries. -/
def clear (table : SymbolTable) : SymbolTable := { empty with serial := table.serial + 1 }

/-- The entry `a` comes before `b` among the entries of one value. -/
def valueBefore (a b : Entry) : Bool :=
  (compare a.origin.rank b.origin.rank).then (compare a.name b.name) == .lt

/-- Put an entry in its place among the entries of one value. -/
def insertByValue (entry : Entry) (others : List Entry) : List Entry :=
  others.takeWhile (valueBefore · entry) ++ entry :: others.dropWhile (valueBefore · entry)

/-- Enter the claims of an entry in the indexes. -/
def claimAddresses (table : SymbolTable) (entry : Entry) : SymbolTable :=
  if !entry.isAddressable then table
  else if entry.mask.isSome then { table with masked := table.masked ++ [entry] }
  else
    let { byLabel, byValue, readers, writers, masked, serial } := table
    let claims (index : ClaimIndex) : ClaimIndex :=
      entry.covered.foldl (fun index address => index.claim entry address) index
    { byLabel, byValue, masked, serial
      readers := if entry.access.reads then claims readers else readers
      writers := if entry.access.writes then claims writers else writers }

/-- Enter an entry whose label is free. -/
def insert (table : SymbolTable) (entry : Entry) : SymbolTable :=
  let { byLabel, byValue, readers, writers, masked, serial } := table
  claimAddresses
    { byLabel := byLabel.insert entry.name entry
      byValue := byValue.insert entry.value
        (insertByValue entry (byValue.getD entry.value []))
      readers, writers, masked
      serial := serial + 1 }
    entry

/-- Build the address indexes anew. -/
def rebuild (table : SymbolTable) : SymbolTable :=
  table.entries.foldl claimAddresses { table with readers := ∅, writers := ∅, masked := [] }

/-- An unmasked entry covers the address. -/
def isClaimed (table : SymbolTable) (address : Nat) : Bool :=
  table.entries.any fun entry =>
    entry.isAddressable && entry.mask.isNone && entry.covers address

/-- The index gives the address to the label. -/
def holds (index : ClaimIndex) (address : Nat) (label : String) : Bool :=
  match index[address]? with
  | some holder => holder.name == label
  | none => false

/-- The entry's claims can be withdrawn at one address. -/
def isPoint (entry : Entry) : Bool :=
  entry.symbol.isInternal && entry.mask.isNone && entry.width == 1

/-- Remove the entry with the given label. -/
def erase (table : SymbolTable) (label : String) : SymbolTable :=
  match table.get? label with
  | none => table
  | some entry =>
    let { byLabel, byValue, readers, writers, masked, serial } := table
    let address := entry.value
    let others := (byValue.getD address []).filter (·.name != label)
    let table : SymbolTable :=
      { byLabel := byLabel.erase label
        byValue := if others.isEmpty then byValue.erase address else byValue.insert address others
        readers, writers, masked
        serial := serial + 1 }
    if isPoint entry then
      let hidRead := holds table.readers address label
      let hidWrite := holds table.writers address label
      let table :=
        { table with
          readers := if hidRead then table.readers.erase address else table.readers
          writers := if hidWrite then table.writers.erase address else table.writers }
      if (hidRead || hidWrite) && table.isClaimed address then table.rebuild else table
    else table.rebuild

/-- Add an entry, whose label must be free. -/
def add (table : SymbolTable) (entry : Entry) : Except Fault SymbolTable :=
  if table.contains entry.name then .error (.duplicateLabel entry.name)
  else .ok (table.insert entry)

/-- Add an entry in place of any with the same label. -/
def put (table : SymbolTable) (entry : Entry) : SymbolTable :=
  (table.erase entry.name).insert entry

/-- The most trusted entry with exactly this value that is not a constant. -/
def findByValue? (table : SymbolTable) (value : Nat) : Option Entry :=
  (table.byValue.getD value []).find? fun entry => !entry.symbol.isConstant

/-- Which accesses a look-up is about: reading when asked for reading alone, writing when asked for
writing alone, and both otherwise. -/
def directions (access : Access) : Bool × Bool :=
  if access = .read then (true, false)
  else if access = .write then (false, true)
  else (true, true)

/-- A masked entry answers for an address. -/
def answersMasked (reading writing : Bool) (address : Nat) (entry : Entry) : Bool :=
  match entry.mask with
  | some mask =>
    let place := address &&& mask.addressMask
    let start := entry.value &&& mask.addressMask
    mask.admits address
      && ((reading && entry.access.reads) || (writing && entry.access.writes))
      && start ≤ place && place - start < entry.width
  | none => false

/-- The preferred one of two entries at an address. -/
def prefer (address : Nat) (best : Option Entry) (entry : Entry) : Option Entry :=
  match best with
  | none => some entry
  | some holder => if entry.precedence address holder = .lt then some entry else some holder

/-- The preferred entry at an address that is not a variable. -/
def findByAddress? (table : SymbolTable) (address : Nat) (access : Access) : Option Entry :=
  let (reading, writing) := directions access
  let claimed :=
    (if reading then table.readers[address]? else none).or
      (if writing then table.writers[address]? else none)
  claimed.or <|
    (table.masked.filter (answersMasked reading writing address)).foldl (prefer address) none

/-- The highest number tried at the end of a generated label. -/
def maxSuffix : Nat := 999

/-- A new label for an address: the stem and the address in hexadecimal, with a number after it
when that label is taken. -/
def freshLabel (table : SymbolTable) (address : Nat) (stem : String) : Except Fault String :=
  let base := stem ++ upperHex 4 address
  if !table.contains base then .ok base
  else
    let numbered (i : Nat) : String := base ++ "_" ++ Nat.repr i
    match (List.range (maxSuffix + 1)).find? fun i => !table.contains (numbered i) with
    | some i => .ok (numbered i)
    | none => .error (.labelsExhausted base)

/-- A generated symbol for an address, with a label that is free. -/
def generate (table : SymbolTable) (address : Nat) (stem : String) : Except Fault Symbol :=
  match table.freshLabel address stem with
  | .ok label => Symbol.create label address .auto .localOrGlobal .plain
  | .error fault => .error fault

end SymbolTable

end Disasm65
