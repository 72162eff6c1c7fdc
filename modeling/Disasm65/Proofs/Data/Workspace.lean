/-
What the data passes leave alone.

A pass that ends well ends with a workspace and no fault.  Apart from the marking of data, a pass
changes the symbols and formats of bytes and nothing else (`Retitles`).
-/
import Mathlib
import Disasm65.Data.Workspace
import Disasm65.Proofs.Attributes
import Disasm65.Proofs.Symbol.Fresh

namespace Disasm65

theorem SymbolTable.get?_insert_label (table : SymbolTable) (symbol : Symbol) (label : String) :
    (table.insert (.label symbol)).get? label
      = if symbol.label = label then some (.label symbol) else table.get? label :=
  get?_insert table (.label symbol) label

/-- A reference is a number of one to four bytes that stands for the label it was made for. -/
theorem Format.reference_eq_ok {length : Nat} {ref : LabelRef} {bigEndian : Bool}
    {format : Format} (h : Format.reference length ref bigEndian = .ok format) :
    (0 < length ∧ length ≤ maxNumberLength)
      ∧ format = ⟨length, if bigEndian then .bigEndian else .littleEndian, .symbol, some ref⟩ := by
  unfold reference at h
  split at h
  · cases h
  rename_i hlength
  split at h
  · cases h
  · cases h
    exact ⟨by omega, rfl⟩

/-- A label can be referred to unless the length is not that of a number. -/
theorem Format.reference_eq_error {length : Nat} {ref : LabelRef} {bigEndian : Bool}
    {fault : Fault} (h : Format.reference length ref bigEndian = .error fault) :
    (ref.label = "" ∧ fault = .referenceWithoutLabel)
      ∨ (length = 0 ∨ maxNumberLength < length) ∧ fault = .referenceLength length := by
  unfold reference at h
  split at h
  · cases h
    exact Or.inr ⟨‹_›, rfl⟩
  · split at h
    · cases h
      exact Or.inl ⟨‹_›, rfl⟩
    · cases h

/-- Setting the symbol of a byte changes that symbol and nothing else. -/
theorem Attributes.info_update_symbol {attributes : Attributes} {place : Nat}
    (h : place < attributes.size) (symbol : Option Symbol) (i : Nat) :
    (attributes.update place fun a => { a with symbol := symbol }).info i
      = { attributes.info i with
          symbol := if i = place then symbol else (attributes.info i).symbol } := by
  rw [info_update]
  by_cases hi : i = place
  · subst hi
    rw [if_pos ⟨rfl, h⟩, if_pos rfl]
  · rw [if_neg fun hc => hi hc.1.symm, if_neg hi]

namespace Data

/-! ### Passes that end well -/

theorem done_inj {v w : Workspace} : v.done = w.done ↔ v = w := by
  simp [Workspace.done]

theorem stop_ne_done {v w : Workspace} {fault : Fault} : v.stop fault ≠ w.done := by
  simp [Workspace.done, Workspace.stop]

theorem eq_done_of_fault {outcome : Outcome} (h : outcome.fault = none) :
    outcome = outcome.workspace.done := by
  rw [Workspace.done, ← h]

theorem andThen_eq_done {outcome : Outcome} {next : Workspace → Outcome} {w : Workspace} :
    outcome.andThen next = w.done ↔ ∃ v, outcome = v.done ∧ next v = w.done := by
  obtain ⟨v, fault⟩ := outcome
  cases fault <;> simp [Outcome.andThen, Workspace.done]

theorem done_andThen (w : Workspace) (next : Workspace → Outcome) :
    w.done.andThen next = next w := rfl

theorem andThen_of_fault {outcome : Outcome} {fault : Fault} (h : outcome.fault = some fault)
    (next : Workspace → Outcome) : outcome.andThen next = outcome := by
  rw [Outcome.andThen, h]

theorem stepOver_eq_ok {offset length next : Nat} :
    stepOver offset length = .ok next
      ↔ offset + max length 1 < 0x10000000000000000 ∧ next = offset + max length 1 :=
  addWords_eq_ok

theorem goOn_eq_done {next : Except Fault Nat} {walk : Nat → Workspace → Outcome}
    {v w : Workspace} :
    w.goOn next walk = v.done ↔ ∃ offset, next = .ok offset ∧ walk offset w = v.done := by
  cases next with
  | ok offset => simp [Workspace.goOn]
  | error fault => simp [Workspace.goOn, stop_ne_done]

@[simp]
theorem size_workspace_update (w : Workspace) (offset : Nat) (change : Attribute → Attribute) :
    (w.update offset change).attributes.size = w.attributes.size :=
  Attributes.size_update ..

theorem info_workspace_update (w : Workspace) (i : Nat) (change : Attribute → Attribute)
    (j : Nat) :
    (w.update i change).info j
      = if i = j ∧ j < w.attributes.size then change (w.info j) else w.info j :=
  Attributes.info_update ..

theorem lt_size_of_symbol {attributes : Attributes} {i : Nat} {symbol : Symbol}
    (h : (attributes.info i).symbol = some symbol) : i < attributes.size :=
  Attributes.lt_size_of_info fun hblank => by
    rw [hblank] at h
    cases h

theorem lt_size_of_format {attributes : Attributes} {i : Nat} {format : Format}
    (h : (attributes.info i).format = some format) : i < attributes.size :=
  Attributes.lt_size_of_info fun hblank => by
    rw [hblank] at h
    cases h

/-! ### Symbols and formats -/

/-- The two attributes differ in symbol and format at most. -/
def Retitled (a b : Attribute) : Prop :=
  ∃ symbol format, b = { a with symbol := symbol, format := format }

namespace Retitled

variable {a b c : Attribute}

theorem refl (a : Attribute) : Retitled a a := ⟨_, _, rfl⟩

theorem trans (h : Retitled a b) (h' : Retitled b c) : Retitled a c := by
  obtain ⟨_, _, rfl⟩ := h
  obtain ⟨symbol, format, rfl⟩ := h'
  exact ⟨symbol, format, rfl⟩

theorem symm (h : Retitled a b) : Retitled b a := by
  obtain ⟨_, _, rfl⟩ := h
  exact ⟨a.symbol, a.format, rfl⟩

theorem marks (h : Retitled a b) : b.marks = a.marks := by
  obtain ⟨_, _, rfl⟩ := h
  rfl

theorem address (h : Retitled a b) : b.address = a.address := by
  obtain ⟨_, _, rfl⟩ := h
  rfl

theorem operandOffset (h : Retitled a b) : b.operandOffset = a.operandOffset := by
  obtain ⟨_, _, rfl⟩ := h
  rfl

theorem instructionLength (h : Retitled a b) : b.instructionLength = a.instructionLength := by
  obtain ⟨_, _, rfl⟩ := h
  rfl

end Retitled

/-- From one to the other no byte changes but in symbol and format. -/
structure Retitles (attributes other : Attributes) : Prop where
  size : other.size = attributes.size
  byte : ∀ i, Retitled (attributes.info i) (other.info i)

namespace Retitles

variable {attributes other last : Attributes}

theorem refl (attributes : Attributes) : Retitles attributes attributes :=
  ⟨rfl, fun _ => .refl _⟩

theorem trans (h : Retitles attributes other) (h' : Retitles other last) :
    Retitles attributes last :=
  ⟨h'.size.trans h.size, fun i => (h.byte i).trans (h'.byte i)⟩

theorem symm (h : Retitles attributes other) : Retitles other attributes :=
  ⟨h.size.symm, fun i => (h.byte i).symm⟩

theorem update (attributes : Attributes) (i : Nat) {change : Attribute → Attribute}
    (hchange : ∀ a, Retitled a (change a)) : Retitles attributes (attributes.update i change) := by
  refine ⟨Attributes.size_update .., fun j => ?_⟩
  rw [Attributes.info_update]
  split
  · exact hchange _
  · exact .refl _

/-- Past the end there is nothing to change. -/
theorem info_of_size_le (h : Retitles attributes other) {i : Nat} (hi : attributes.size ≤ i) :
    other.info i = attributes.info i := by
  rw [Attributes.info_of_size_le hi, Attributes.info_of_size_le (h.size.symm ▸ hi)]

theorem marks (h : Retitles attributes other) (i : Nat) :
    (other.info i).marks = (attributes.info i).marks :=
  (h.byte i).marks

end Retitles

end Data

end Disasm65
