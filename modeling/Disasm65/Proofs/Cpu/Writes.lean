/-
Whatever is done to a status, its nine flags are all it has.

What an instruction does to the status is a list of flags and the states they get
(`Opcode.writes`), so it can be done to any words that hold the marks.  A status is read from its
packed form, changed flag by flag, merged, overridden and handed from one instruction to the next
(`History`).  All of that can be done to two words of sixteen marks, and what they hold in the end is
the status and nothing beside it (`History.words_eq_padded`).
-/
import Mathlib
import Disasm65.Proofs.Cpu.Execution
import Disasm65.Proofs.Status.Packing

namespace Disasm65

/-! ### The flags that get a state -/

/-- Each of the flags with this state. -/
def Flag.each (flags : List Flag) (state : BitState) : List (Flag × BitState) :=
  flags.map fun flag => (flag, state)

/-- Give flags their states, one after the other. -/
def StatusFlags.write (status : StatusFlags) (writes : List (Flag × BitState)) : StatusFlags :=
  writes.foldl (fun status entry => status.set entry.1 entry.2) status

/-- Give the bits of flags their states, one after the other. -/
def TriState.write {w : Nat} (words : TriState w) (writes : List (Flag × BitState)) : TriState w :=
  writes.foldl (fun words entry => words.set entry.1.position entry.2) words

namespace StatusFlags

@[simp]
theorem write_nil (status : StatusFlags) : status.write [] = status := rfl

@[simp]
theorem write_cons (status : StatusFlags) (flag : Flag) (state : BitState)
    (writes : List (Flag × BitState)) :
    status.write ((flag, state) :: writes) = (status.set flag state).write writes := rfl

@[simp]
theorem write_append (status : StatusFlags) (writes later : List (Flag × BitState)) :
    status.write (writes ++ later) = (status.write writes).write later :=
  List.foldl_append ..

@[simp]
theorem write_each (status : StatusFlags) (flags : List Flag) (state : BitState) :
    status.write (Flag.each flags state) = status.setAll flags state :=
  List.foldl_map ..

theorem padded_write (status : StatusFlags) (writes : List (Flag × BitState)) :
    (status.write writes).padded = status.padded.write writes := by
  induction writes generalizing status with
  | nil => rfl
  | cons entry writes ih =>
      obtain ⟨flag, state⟩ := entry
      rw [write_cons, ih, padded_set]
      rfl

end StatusFlags

namespace Opcode

/-- The flags that get a state on each of the two ways, in turn. -/
def writes (op : Opcode) (status : StatusFlags) (immediate : Option Immediate) :
    Way → List (Flag × BitState)
  | .taken =>
    match op.rule with
    | .test flag value => [(flag, .ofBool value)]
    | _ => []
  | .next =>
    match op.rule with
    | .keep => []
    | .forget flags => Flag.each flags .indeterminate
    | .loadImmediate =>
      match immediate with
      | some operand =>
        [(.zero, .ofBool (operand.value == 0)), (.negative, .ofBool operand.isNegative)]
      | none => Flag.each [.negative, .zero] .indeterminate
    | .andImmediate =>
      match immediate with
      | some operand =>
        (if operand.value == 0 then [(.zero, .one)] else [])
          ++ if operand.isNegative then [] else [(.negative, .zero)]
      | none => []
    | .orImmediate =>
      match immediate with
      | some operand =>
        (if operand.value == 0 then [] else [(.zero, .zero)])
          ++ if operand.isNegative then [(.negative, .one)] else []
      | none => []
    | .rotateLeft =>
      (.carry, status.get .negative) ::
        if status.get .carry == .one then [(.zero, .zero), (.negative, .indeterminate)]
        else Flag.each [.negative, .zero] .indeterminate
    | .rotateRight =>
      match status.get .carry with
      | .one => [(.zero, .zero), (.negative, .one), (.carry, .indeterminate)]
      | .zero => (.negative, .zero) :: Flag.each [.zero, .carry] .indeterminate
      | .unspecified | .indeterminate => Flag.each [.negative, .zero, .carry] .indeterminate
    | .pull => Flag.each Flag.register .indeterminate
    | .clearSelected => Flag.each (nextStatus.selected immediate) .zero
    | .setSelected => Flag.each (nextStatus.selected immediate) .one
    | .exchangeEmulation =>
      [(.emulation, .ofBool (status.get .carry != .zero)), (.index, .one), (.memory, .one),
        (.carry, status.get .emulation)]
    | .force flag value => [(flag, .ofBool value)]
    | .test flag value => [(flag, .ofBool (!value))]

theorem nextStatus_eq_write (op : Opcode) (status : StatusFlags) (immediate : Option Immediate) :
    op.nextStatus status immediate = status.write (op.writes status immediate .next) := by
  unfold nextStatus writes
  cases op.rule with
  | keep => rfl
  | forget flags => exact (status.write_each ..).symm
  | loadImmediate => cases immediate <;> rfl
  | andImmediate =>
      cases immediate with
      | none => rfl
      | some operand =>
          cases h : operand.value == 0 <;> cases h' : operand.isNegative <;> simp [h, h']
  | orImmediate =>
      cases immediate with
      | none => rfl
      | some operand =>
          cases h : operand.value == 0 <;> cases h' : operand.isNegative <;> simp [h, h']
  | rotateLeft =>
      dsimp only
      rw [StatusFlags.write_cons]
      split <;> rfl
  | rotateRight =>
      dsimp only
      cases status.get .carry <;> rfl
  | pull => rfl
  | clearSelected => exact (status.write_each ..).symm
  | setSelected => exact (status.write_each ..).symm
  | exchangeEmulation => rfl
  | force flag value => rfl
  | test flag value => rfl

theorem takenStatus_eq_write (op : Opcode) (status : StatusFlags)
    (immediate : Option Immediate) :
    op.takenStatus status = status.write (op.writes status immediate .taken) := by
  unfold takenStatus writes
  cases op.rule <;> rfl

/-- **An instruction changes the status flag by flag.** -/
theorem along_transition (op : Opcode) (status : StatusFlags) (image : Image) (offset : Nat)
    (way : Way) :
    (op.transition status image offset).along way
      = status.write (op.writes status (op.immediate? image offset status) way) := by
  cases way with
  | next => exact nextStatus_eq_write op status _
  | taken => exact takenStatus_eq_write op status _

end Opcode

/-! ### All that is done to a status -/

/-- How a status comes about. -/
inductive History where
  /-- read from a number that is accepted -/
  | unpacked (value : Nat) (status : StatusFlags) (accepted : StatusFlags.unpack value = .ok status)
  | set (start : History) (flag : Flag) (state : BitState)
  | merge (start other : History)
  | apply (start overrides : History)
  /-- handed on by the instruction at `offset` -/
  | step (start : History) (op : Opcode) (image : Image) (offset : Nat) (way : Way)

namespace History

/-- The status. -/
def status : History → StatusFlags
  | unpacked _ status _ => status
  | set start flag state => start.status.set flag state
  | merge start other => start.status.merge other.status
  | apply start overrides => start.status.apply overrides.status
  | step start op image offset way => (op.transition start.status image offset).along way

/-- The same done to two words of sixteen marks, which are read and written flag by flag. -/
def words : History → TriState 16
  | unpacked value _ _ => .halves value
  | set start flag state => start.words.set flag.position state
  | merge start other => start.words.merge other.words
  | apply start overrides => start.words.apply overrides.words
  | step start op image offset way =>
      start.words.write
        (op.writes start.words.flags (op.immediate? image offset start.words.flags) way)

/-- **The words hold the status and nothing else.** -/
theorem words_eq_padded (history : History) : history.words = history.status.padded := by
  induction history with
  | unpacked value status accepted =>
      calc TriState.halves value = TriState.halves status.pack := by
            rw [StatusFlags.unpack_eq_ok_iff.mp accepted]
        _ = status.padded := TriState.halves_pack status
  | set start flag state ih => rw [words, ih, status, StatusFlags.padded_set]
  | merge start other ihs iho => rw [words, ihs, iho, status, StatusFlags.padded_merge]
  | apply start overrides ihs iho => rw [words, ihs, iho, status, StatusFlags.padded_apply]
  | step start op image offset way ih =>
      rw [words, ih, TriState.flags_padded, status, Opcode.along_transition,
        StatusFlags.padded_write]

/-- A mark beyond the flags is never set. -/
theorem get_words_of_le (history : History) {i : Nat} (hi : 9 ≤ i) :
    history.words.get i = .unspecified := by
  rw [words_eq_padded, StatusFlags.get_padded, TriState.get, BitVec.getLsbD_of_ge _ _ hi,
    BitVec.getLsbD_of_ge _ _ hi]
  rfl

theorem packed_words (history : History) : history.words.packed = history.status.pack := by
  rw [words_eq_padded, TriState.packed_padded]

end History

/-- **What is known is joined, and what is held can be packed.**  Merging is the join of the states
of each bit, with unspecified below and indeterminate above all others; an override gives the bits
it specifies their states and keeps the others.  Where arrivals are merged in and overridden one
after the other, a bit that the override leaves open only grows, in whatever order they come, and
the others stay as the override has them.  Whatever history a status has, the words that hold it
have no mark beyond the nine flags, and their packed form is read back as the status.  The numbers
whose bits are marks of flags are the packed forms, and every other number is refused. -/
theorem StatusFlags.joins_and_packs (w : Nat) :
    (∀ a b c : TriState w,
        a.merge b = b.merge a ∧ (a.merge b).merge c = a.merge (b.merge c) ∧ a.merge a = a)
      ∧ (∀ (a b : TriState w) (i : Nat), (a.merge b).get i = a.get i ⊔ b.get i)
      ∧ (∀ state other : BitState,
          state ≤ other ↔ state = .unspecified ∨ other = .indeterminate ∨ state = other)
      ∧ (∀ t overrides : TriState w,
          (∀ i, (t.apply overrides).get i
              = if overrides.get i = .unspecified then t.get i else overrides.get i)
            ∧ (t.apply overrides).apply overrides = t.apply overrides)
      ∧ (∀ (overrides t : TriState w) (arrivals : List (TriState w)),
          (∀ later i, overrides.get i = .unspecified →
              (overrides.absorb t arrivals).get i ≤ (overrides.absorb t (arrivals ++ later)).get i)
            ∧ (∀ i, overrides.get i ≠ .unspecified → arrivals ≠ [] →
              (overrides.absorb t arrivals).get i = overrides.get i)
            ∧ ∀ others, arrivals.Perm others →
              overrides.absorb t arrivals = overrides.absorb t others)
      ∧ (∀ history : History,
          (∀ i, 9 ≤ i → history.words.get i = .unspecified)
            ∧ history.words.flags = history.status
            ∧ (∀ i, history.words.packed.testBit i = true → IsMark i)
            ∧ unpack history.words.packed = .ok history.status)
      ∧ (∀ value status, unpack value = .ok status → status.pack = value)
      ∧ ∀ value,
          ((∃ status, unpack value = .ok status) ↔ ∀ i, value.testBit i = true → IsMark i)
            ∧ ((∀ status : StatusFlags, status.pack ≠ value) →
              unpack value = .error (.undefinedStatusBits value)) := by
  refine ⟨fun a b c => ⟨a.merge_comm b, a.merge_assoc b c, a.merge_self⟩, TriState.get_merge,
    fun _ _ => BitState.le_iff, fun t overrides => ⟨t.get_apply overrides, t.apply_apply overrides⟩,
    fun overrides t arrivals => ⟨?_, ?_, ?_⟩, fun history => ?_, fun _ _ => unpack_eq_ok_iff.mp,
    fun value => ⟨?_, fun hnone => unpack_eq_error_iff.mpr ⟨rfl, hnone⟩⟩⟩
  · intro later i hopen
    exact TriState.get_absorb_le_append hopen arrivals later
  · intro i hfixed harrived
    exact TriState.get_absorb_of_specified hfixed harrived
  · intro others hperm
    exact TriState.absorb_congr fun _ => hperm.mem_iff
  · refine ⟨fun i => history.get_words_of_le, ?_, fun i hi => ?_, ?_⟩
    · rw [history.words_eq_padded, TriState.flags_padded]
    · rw [history.packed_words] at hi
      exact isMark_of_testBit_pack hi
    · rw [history.packed_words, unpack_pack]
  · rw [← exists_pack_iff]
    exact exists_congr fun status => unpack_eq_ok_iff

namespace History

/-- Emulation mode with eight-bit registers. -/
def reset : History := .unpacked 0x01300000 ⟨⟨0#9, 0x130#9⟩⟩ rfl

/-- Decimal mode is off, whatever comes. -/
def binary : History := .unpacked 0x8 ⟨⟨0x8#9, 0#9⟩⟩ rfl

/-- The carry is cleared in front of a loop. -/
def entered : History := .step reset (Layer.force 0x18 .clc .carry false) #[0x18] 0 .next

/-- The carry is set at the end of the loop. -/
def repeated : History := .step reset (Layer.force 0x38 .sec .carry true) #[0x38] 0 .next

/-- The start of the loop. -/
def loopStart : History := .apply (.merge entered repeated) binary

end History

open History in
/-- At the start of the loop the carry is open and grows, decimal mode stays off, and the words that
hold both are packed and read back. -/
theorem StatusFlags.joins_and_packs_loopStart :
    (binary.words.get 0 = .unspecified
        ∧ (binary.words.absorb reset.words [entered.words]).get 0 = .zero
        ∧ (binary.words.absorb reset.words [entered.words]).get 0
          ≤ (binary.words.absorb reset.words ([entered.words] ++ [repeated.words])).get 0
        ∧ (binary.words.absorb reset.words ([entered.words] ++ [repeated.words])).get 0
          = .indeterminate)
      ∧ (binary.words.get 3 = .zero
        ∧ (binary.words.absorb reset.words [entered.words, repeated.words]).get 3 = .zero)
      ∧ (loopStart.words.packed = 0x01310009 ∧ loopStart.words.get 9 = .unspecified
        ∧ unpack loopStart.words.packed = .ok loopStart.status)
      ∧ unpack 0x02000000 = .error (.undefinedStatusBits 0x02000000) := by
  obtain ⟨-, -, -, -, habsorb, hhistory, -, hrefused⟩ := joins_and_packs 16
  have hopen : binary.words.get 0 = .unspecified := by decide
  have hoff : binary.words.get 3 = .zero := by decide
  obtain ⟨hgrows, -⟩ := habsorb binary.words reset.words [entered.words]
  obtain ⟨-, hstays, -⟩ := habsorb binary.words reset.words [entered.words, repeated.words]
  obtain ⟨hclear, -, -, hread⟩ := hhistory loopStart
  refine ⟨⟨hopen, by decide, hgrows [repeated.words] 0 hopen, by decide⟩,
    ⟨hoff, (hstays 3 (by rw [hoff]; decide) (List.cons_ne_nil _ _)).trans hoff⟩,
    ⟨by decide, hclear 9 le_rfl, hread⟩, (hrefused _).2 fun status hpack => ?_⟩
  have hbit : status.pack.testBit 25 = true := by rw [hpack]; decide
  have hlt := (isMark_of_testBit_pack hbit).lt
  omega

end Disasm65
