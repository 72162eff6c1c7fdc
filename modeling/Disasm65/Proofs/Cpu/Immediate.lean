/-
Immediate operands as words, and the flags an instruction leaves alone.

The operand of an immediate instruction is a word of eight or sixteen bits, as wide as the length of
the instruction leaves room for (`operandBits`).  What the rules read of it is what the word says:
its value and its top bit (`immediate?_eq_some`).  Of the flags, an instruction changes only what
its rule touches (`get_next_of_not_touched`).
-/
import Mathlib
import Disasm65.Proofs.Cpu.Processor
import Disasm65.Proofs.Image.Bytes
import Disasm65.Proofs.Status.Values

namespace Disasm65

/-- The rule looks at an immediate operand. -/
def FlagRule.readsImmediate : FlagRule → Bool
  | .loadImmediate | .andImmediate | .orImmediate | .clearSelected | .setSelected => true
  | _ => false

theorem AddressMode.length_of_isImmediate {mode : AddressMode} (h : mode.isImmediate = true)
    (status : StatusFlags) : mode.length status = 2 ∨ mode.length status = 3 := by
  cases mode with
  | imm => exact Or.inl rfl
  | immAccumulator => exact (ite_eq_or_eq _ _ _)
  | immIndex => exact (ite_eq_or_eq _ _ _)
  | _ => cases h

namespace Opcode

/-- A rule that looks at an immediate operand finds one. -/
def Supplied (op : Opcode) : Prop :=
  op.rule.readsImmediate = true → op.mode.isImmediate = true

instance (op : Opcode) : Decidable op.Supplied := inferInstanceAs (Decidable (_ → _))

/-- The number of bits that the length of the instruction leaves for its operand. -/
def operandWidth (op : Opcode) (status : StatusFlags) : Nat := 8 * (op.length status - 1)

/-- The bytes behind the opcode as one word, low byte first. -/
def operandBits (op : Opcode) (image : Image) (offset : Nat) (status : StatusFlags) :
    BitVec (op.operandWidth status) :=
  .ofNat _ (Nat.ofDigits 0x100
    ((image.bytesFrom (offset + 1) (op.length status - 1)).map (·.toNat)))

end Opcode

/-- **Every opcode of a processor has the operand that its rule looks at.** -/
theorem Processor.supplied (family : Family) (hasUndocumented : Bool) (code : UInt8) :
    ((ofFamily family hasUndocumented).opcode code).Supplied := by
  refine forall_opcode (P := Opcode.Supplied) (fun _ h => by cases h) ?_ hasUndocumented code
  cases family <;> decide +kernel

namespace Opcode

variable {op : Opcode} {image : Image} {offset : Nat} {status : StatusFlags}

/-- The word loses nothing of the bytes. -/
theorem toNat_operandBits (op : Opcode) (image : Image) (offset : Nat) (status : StatusFlags) :
    (op.operandBits image offset status).toNat
      = Nat.ofDigits 0x100
        ((image.bytesFrom (offset + 1) (op.length status - 1)).map (·.toNat)) := by
  have hlt := ofDigits_toNat_lt (image.bytesFrom (offset + 1) (op.length status - 1))
  rw [Image.length_bytesFrom] at hlt
  rw [operandBits, BitVec.toNat_ofNat, Nat.mod_eq_of_lt]
  rwa [operandWidth, pow_mul]

theorem operandWidth_of_isImmediate (h : op.mode.isImmediate = true) (status : StatusFlags) :
    op.operandWidth status = 8 ∧ (op.length status == 3) = false
      ∨ op.operandWidth status = 16 ∧ (op.length status == 3) = true := by
  unfold operandWidth length
  rcases AddressMode.length_of_isImmediate h status with hlength | hlength
  · rw [hlength]
    exact Or.inl ⟨rfl, rfl⟩
  · rw [hlength]
    exact Or.inr ⟨rfl, rfl⟩

/-- **The immediate operand of an instruction in the image is the word behind its opcode.** -/
theorem immediate?_eq_some (hmode : op.mode.isImmediate = true)
    (hfits : offset + op.length status ≤ image.size) :
    op.immediate? image offset status
      = some ⟨(op.operandBits image offset status).toNat, op.length status == 3⟩ := by
  have hlength : op.length status = 2 ∨ op.length status = 3 :=
    AddressMode.length_of_isImmediate hmode status
  have hwidth : op.operandWidth status ≤ 16 := by
    unfold operandWidth
    omega
  have hlt : (op.operandBits image offset status).toNat < 0x10000 :=
    Nat.lt_of_lt_of_le (BitVec.isLt _) (Nat.pow_le_pow_right (by decide) hwidth)
  rw [immediate?, if_pos hmode, operand?]
  rw [if_neg (by omega), Image.slice?_eq_some hfits, Option.map_some, Option.map_some,
    Image.tail_bytesFrom, littleEndian_eq_ofDigits, ← toNat_operandBits,
    wrap32_of_lt (by omega), Nat.mod_eq_of_lt hlt]

/-- The sign of the immediate operand is the top bit of the word. -/
theorem isNegative_operandBits (hmode : op.mode.isImmediate = true) :
    (Immediate.mk (op.operandBits image offset status).toNat
        (op.length status == 3)).isNegative
      = (op.operandBits image offset status).msb := by
  rw [Immediate.isNegative, BitVec.msb_eq_getLsbD_last, ← BitVec.testBit_toNat]
  rcases operandWidth_of_isImmediate hmode status with ⟨hwidth, hwide⟩ | ⟨hwidth, hwide⟩ <;>
    simp [hwidth, hwide]

/-- The immediate operand is zero when the word is. -/
theorem toNat_operandBits_beq (op : Opcode) (image : Image) (offset : Nat)
    (status : StatusFlags) :
    ((op.operandBits image offset status).toNat == 0)
      = (op.operandBits image offset status == 0#_) := by
  rw [Bool.eq_iff_iff, beq_iff_eq, beq_iff_eq, ← BitVec.toNat_inj]
  rfl

/-! ### The flags that are left alone -/

/-- The flags whose states the rule changes, when the operand is this word. -/
def touched (op : Opcode) {w : Nat} (operand : BitVec w) : List Flag :=
  match op.rule with
  | .keep => []
  | .forget flags => flags
  | .loadImmediate | .andImmediate | .orImmediate => [.negative, .zero]
  | .rotateLeft | .rotateRight => [.negative, .zero, .carry]
  | .pull => Flag.register
  | .clearSelected | .setSelected =>
    Flag.register.filter fun flag => operand.getLsbD flag.position
  | .exchangeEmulation => [.emulation, .index, .memory, .carry]
  | .force flag _ | .test flag _ => [flag]

/-- An instruction that gives the selected flags one value gives it to the flags it touches. -/
theorem next_of_selects (value : Bool)
    (hrule : op.rule = if value then .setSelected else .clearSelected)
    (hmode : op.mode.isImmediate = true) (hfits : offset + op.length status ≤ image.size) :
    (op.transition status image offset).next
      = status.setAll (op.touched (op.operandBits image offset status)) (.ofBool value) := by
  have hselected : nextStatus.selected (op.immediate? image offset status)
      = op.touched (op.operandBits image offset status) := by
    rw [immediate?_eq_some hmode hfits, nextStatus.selected, touched]
    cases value <;> simp [hrule, BitVec.testBit_toNat]
  rw [← hselected]
  unfold transition nextStatus
  cases value <;> simp [hrule, BitState.ofBool]

/-- A flag that the rule does not touch is left alone on the way to the next instruction. -/
theorem get_next_of_not_touched (hop : op.Supplied)
    (hfits : offset + op.length status ≤ image.size) {flag : Flag}
    (h : flag ∉ op.touched (op.operandBits image offset status)) :
    (op.transition status image offset).next.get flag = status.get flag := by
  cases hrule : op.rule with
  | clearSelected =>
      rw [next_of_selects false hrule (hop (by rw [hrule]; rfl)) hfits,
        StatusFlags.get_setAll, if_neg h]
  | setSelected =>
      rw [next_of_selects true hrule (hop (by rw [hrule]; rfl)) hfits,
        StatusFlags.get_setAll, if_neg h]
  | _ =>
      simp only [touched, hrule, List.mem_cons, List.not_mem_nil, or_false, not_or] at h
      simp only [transition, nextStatus, hrule]
      repeat' split
      all_goals simp [h]

/-- A flag that the rule does not touch is left alone on the way to the target. -/
theorem get_taken_of_not_touched {w : Nat} {operand : BitVec w} {flag : Flag}
    (h : flag ∉ op.touched operand) :
    (op.transition status image offset).taken.get flag = status.get flag := by
  rw [transition, takenStatus]
  dsimp only
  split
  · rename_i tested value hrule
    rw [touched, hrule, List.mem_singleton] at h
    rw [StatusFlags.get_set, if_neg h]
  · rfl

end Opcode

end Disasm65
