/-
Instructions whose result is not known: the conjunction and the disjunction with an immediate
operand, and the rotation to the left.

Their rules tell what the operand alone decides, and for the rest hand on what was known: a
conjunction keeps zero unless the operand is zero, a rotation takes negative for the bit that falls
out (`Carries`).  What is handed on describes the result only by chance, so it admits the flag
after the instruction exactly if it happens to agree with it (`Combines.admits_iff`).  Where
negative and zero describe the value that goes in, all of this comes out right but one thing: a
conjunction can be zero though neither side is (`Combines.eq_of_carries`).
-/
import Mathlib
import Disasm65.Proofs.Cpu.Execution

namespace Disasm65

/-- Negative and zero are as this value leaves them. -/
def FlagValues.Reflects {w : Nat} (values : FlagValues) (value : BitVec w) : Prop :=
  values .negative = value.msb ∧ values .zero = (value == 0#w)

instance {w : Nat} (values : FlagValues) (value : BitVec w) : Decidable (values.Reflects value) :=
  inferInstanceAs (Decidable (_ ∧ _))

namespace Opcode

/-- The instruction at `offset`, whose length is the one under `status`, combines the value in the
accumulator or in memory with its operand or the carry and changes the flags from `before` to
these. -/
inductive Combines (op : Opcode) (image : Image) (offset : Nat) (status : StatusFlags)
    (before : FlagValues) : {w : Nat} → BitVec w → FlagValues → Prop where
  | conjunction (hrule : op.rule = .andImmediate) (value : BitVec (op.operandWidth status)) :
      Combines op image offset status before value
        (before.reflect (value &&& op.operandBits image offset status))
  | disjunction (hrule : op.rule = .orImmediate) (value : BitVec (op.operandWidth status)) :
      Combines op image offset status before value
        (before.reflect (value ||| op.operandBits image offset status))
  /-- The carry comes in below, and the top bit falls out into it. -/
  | rotation (hrule : op.rule = .rotateLeft) {w : Nat} (value : BitVec (w + 1)) :
      Combines op image offset status before value
        (Function.update (before.reflect (value.shiftConcat (before .carry))) .carry value.msb)

/-- The state of `source` is handed on as the state of `flag`: the rule does not look at the result
for it. -/
inductive Carries (op : Opcode) {w : Nat} (operand : BitVec w) : (flag source : Flag) → Prop where
  | conjunctionZero (hrule : op.rule = .andImmediate) (hoperand : operand ≠ 0) :
      Carries op operand .zero .zero
  | conjunctionNegative (hrule : op.rule = .andImmediate) (hmsb : operand.msb = true) :
      Carries op operand .negative .negative
  | disjunctionZero (hrule : op.rule = .orImmediate) (hoperand : operand = 0) :
      Carries op operand .zero .zero
  | disjunctionNegative (hrule : op.rule = .orImmediate) (hmsb : operand.msb = false) :
      Carries op operand .negative .negative
  | rotationCarry (hrule : op.rule = .rotateLeft) : Carries op operand .carry .negative

variable {op : Opcode} {image : Image} {offset : Nat} {status : StatusFlags}
  {before after : FlagValues} {w : Nat} {value : BitVec w}

/-! ### The rules -/

theorem next_andImmediate (hrule : op.rule = .andImmediate) (hmode : op.mode.isImmediate = true)
    (hfits : offset + op.length status ≤ image.size) :
    (op.transition status image offset).next
      = let kept := if op.operandBits image offset status = 0 then status.set .zero .one else status
        if (op.operandBits image offset status).msb then kept else kept.set .negative .zero := by
  unfold transition nextStatus
  rw [hrule, immediate?_eq_some hmode hfits]
  dsimp only
  rw [isNegative_operandBits hmode, toNat_operandBits_beq]
  simp only [beq_iff_eq]
  rfl

theorem next_orImmediate (hrule : op.rule = .orImmediate) (hmode : op.mode.isImmediate = true)
    (hfits : offset + op.length status ≤ image.size) :
    (op.transition status image offset).next
      = let kept :=
          if op.operandBits image offset status = 0 then status else status.set .zero .zero
        if (op.operandBits image offset status).msb then kept.set .negative .one else kept := by
  unfold transition nextStatus
  rw [hrule, immediate?_eq_some hmode hfits]
  dsimp only
  rw [isNegative_operandBits hmode, toNat_operandBits_beq]
  simp only [beq_iff_eq]
  rfl

/-- A flag that is carried over has the state of the flag it comes from. -/
theorem get_next_of_carries (hop : op.Supplied) (hfits : offset + op.length status ≤ image.size)
    {flag source : Flag} (h : op.Carries (op.operandBits image offset status) flag source) :
    (op.transition status image offset).next.get flag = status.get source := by
  cases h with
  | conjunctionZero hrule hoperand =>
      rw [next_andImmediate hrule (hop (by rw [hrule]; rfl)) hfits, if_neg hoperand]
      split <;> simp
  | conjunctionNegative hrule hmsb =>
      rw [next_andImmediate hrule (hop (by rw [hrule]; rfl)) hfits]
      simp only [if_pos hmsb]
      split <;> simp
  | disjunctionZero hrule hoperand =>
      rw [next_orImmediate hrule (hop (by rw [hrule]; rfl)) hfits, if_pos hoperand]
      split <;> simp
  | disjunctionNegative hrule hmsb =>
      rw [next_orImmediate hrule (hop (by rw [hrule]; rfl)) hfits, hmsb]
      simp only [Bool.false_eq_true, if_false]
      split <;> simp
  | rotationCarry hrule =>
      unfold transition nextStatus
      rw [hrule]
      dsimp only
      split <;> simp

/-! ### What the rules tell of the result -/

/-- A flag that the instruction does not touch is not changed. -/
theorem Combines.eq_of_not_touched (hrun : op.Combines image offset status before value after)
    {flag : Flag} (h : flag ∉ op.touched (op.operandBits image offset status)) :
    after flag = before flag := by
  cases hrun with
  | conjunction hrule | disjunction hrule =>
      simp only [touched, hrule, List.mem_cons, List.not_mem_nil, or_false, not_or] at h
      exact before.reflect_of_ne _ h.1 h.2
  | rotation hrule =>
      simp only [touched, hrule, List.mem_cons, List.not_mem_nil, or_false, not_or] at h
      rw [Function.update_of_ne h.2.2]
      exact before.reflect_of_ne _ h.1 h.2.1

/-- A word that has taken in a one from below is not zero. -/
theorem shiftConcat_true_ne_zero {n : Nat} (word : BitVec (n + 1)) :
    word.shiftConcat true ≠ 0#(n + 1) := by
  intro h
  have hbit := congrArg (·.getLsbD 0) h
  simp at hbit

/-- What is not carried over is told of the result itself, and truly. -/
theorem Combines.admits_of_not_carries (hrun : op.Combines image offset status before value after)
    (hop : op.Supplied) (hfits : offset + op.length status ≤ image.size)
    (hbefore : status.Admits before) {flag : Flag}
    (h : ∀ source, ¬ op.Carries (op.operandBits image offset status) flag source) :
    ((op.transition status image offset).next.get flag).Admits (after flag) := by
  by_cases htouched : flag ∈ op.touched (op.operandBits image offset status)
  case neg =>
    rw [get_next_of_not_touched hop hfits htouched, hrun.eq_of_not_touched htouched]
    exact hbefore flag
  have hcarry := hbefore .carry
  cases hrun with
  | conjunction hrule value =>
      rw [next_andImmediate hrule (hop (by rw [hrule]; rfl)) hfits]
      simp only [touched, hrule, List.mem_cons, List.not_mem_nil, or_false] at htouched
      rcases htouched with rfl | rfl
      · have hmsb : (op.operandBits image offset status).msb = false :=
          Bool.eq_false_iff.mpr fun hmsb => h _ (.conjunctionNegative hrule hmsb)
        simp [hmsb]
      · have hoperand : op.operandBits image offset status = 0 := by
          by_contra hne
          exact h _ (.conjunctionZero hrule hne)
        simp [hoperand]
  | disjunction hrule value =>
      rw [next_orImmediate hrule (hop (by rw [hrule]; rfl)) hfits]
      simp only [touched, hrule, List.mem_cons, List.not_mem_nil, or_false] at htouched
      rcases htouched with rfl | rfl
      · have hmsb : (op.operandBits image offset status).msb = true := by
          by_contra hmsb
          exact h _ (.disjunctionNegative hrule (Bool.eq_false_iff.mpr hmsb))
        simp [hmsb]
      · have hoperand : op.operandBits image offset status ≠ 0 := fun hzero =>
          h _ (.disjunctionZero hrule hzero)
        have hresult : (value ||| op.operandBits image offset status == 0#_) = false :=
          beq_false_of_ne fun hzero => hoperand (BitVec.or_eq_zero_iff.mp hzero).2
        simp only [if_neg hoperand, FlagValues.reflect_zero, hresult]
        split <;> simp
  | rotation hrule value =>
      simp only [touched, hrule, List.mem_cons, List.not_mem_nil, or_false] at htouched
      unfold transition nextStatus
      rw [hrule]
      dsimp only
      rcases htouched with rfl | rfl | rfl
      · split <;> simp
      · split
        · -- the carry is set, and it stands in the result
          rename_i hone
          rw [beq_iff_eq.mp hone, BitState.admits_one] at hcarry
          simp [hcarry, shiftConcat_true_ne_zero]
        · simp
      · exact absurd (.rotationCarry hrule) (h .negative)

/-- **A flag comes out right exactly if what is carried over to it does.** -/
theorem Combines.admits_iff (hrun : op.Combines image offset status before value after)
    (hop : op.Supplied) (hfits : offset + op.length status ≤ image.size)
    (hbefore : status.Admits before) (flag : Flag) :
    ((op.transition status image offset).next.get flag).Admits (after flag)
      ↔ ∀ source, op.Carries (op.operandBits image offset status) flag source →
        (status.get source).Admits (after flag) := by
  constructor
  · intro hadmits source hcarries
    rwa [get_next_of_carries hop hfits hcarries] at hadmits
  · intro hall
    by_cases hcarried : ∃ source, op.Carries (op.operandBits image offset status) flag source
    · obtain ⟨source, hcarries⟩ := hcarried
      rw [get_next_of_carries hop hfits hcarries]
      exact hall source hcarries
    · exact hrun.admits_of_not_carries hop hfits hbefore fun source hcarries =>
        hcarried ⟨source, hcarries⟩

/-- Where negative and zero describe the value, what is carried over is the flag of the result,
unless a conjunction has become zero. -/
theorem Combines.eq_of_carries (hrun : op.Combines image offset status before value after)
    (hreflects : before.Reflects value) {flag source : Flag}
    (h : op.Carries (op.operandBits image offset status) flag source)
    (hzero : op.rule = .andImmediate → flag = .zero → after .zero = before .zero) :
    after flag = before source := by
  obtain ⟨hnegative, hnull⟩ := hreflects
  cases h with
  | conjunctionZero hrule => exact hzero hrule rfl
  | conjunctionNegative hrule hmsb =>
      cases hrun with
      | conjunction => simp [hmsb, hnegative]
      | disjunction hother | rotation hother => simp [hrule] at hother
  | disjunctionZero hrule hoperand =>
      cases hrun with
      | disjunction => simp [hoperand, hnull]
      | conjunction hother | rotation hother => simp [hrule] at hother
  | disjunctionNegative hrule hmsb =>
      cases hrun with
      | disjunction => simp [hmsb, hnegative]
      | conjunction hother | rotation hother => simp [hrule] at hother
  | rotationCarry hrule =>
      cases hrun with
      | rotation => rw [Function.update_self, hnegative]
      | conjunction hother | disjunction hother => simp [hrule] at hother

/-- How much of what is told about the flags is true after the instruction at `offset` has combined
this value. -/
structure Judged (op : Opcode) (image : Image) (offset : Nat) (status : StatusFlags)
    (before : FlagValues) {w : Nat} (value : BitVec w) (after : FlagValues) : Prop where
  /-- A flag comes out right exactly if what is carried over to it does. -/
  admits_iff : ∀ flag, ((op.transition status image offset).next.get flag).Admits (after flag)
    ↔ ∀ source, op.Carries (op.operandBits image offset status) flag source →
      (status.get source).Admits (after flag)
  /-- Where negative and zero describe the value all flags come out right, but for zero after a
  conjunction that has become zero. -/
  admits_of_reflects : before.Reflects value → ∀ flag,
    (op.rule = .andImmediate → flag = .zero → after .zero = before .zero) →
    ((op.transition status image offset).next.get flag).Admits (after flag)
  untouched : ∀ flag ∉ op.touched (op.operandBits image offset status),
    (op.transition status image offset).next.get flag = status.get flag
  taken : (op.transition status image offset).taken = status

end Opcode

/-- **What is known after a conjunction, a disjunction or a rotation to the left, on every
processor.** -/
theorem Processor.combination_judged (family : Family) (hasUndocumented : Bool) (code : UInt8)
    (image : Image) (offset : Nat) (status : StatusFlags) (before after : FlagValues) {w : Nat}
    (value : BitVec w)
    (hfits : offset + ((ofFamily family hasUndocumented).opcode code).length status
      ≤ image.size)
    (hbefore : status.Admits before)
    (hrun : ((ofFamily family hasUndocumented).opcode code).Combines image offset status before
      value after) :
    ((ofFamily family hasUndocumented).opcode code).Judged image offset status before value
      after := by
  have hop := supplied family hasUndocumented code
  refine ⟨hrun.admits_iff hop hfits hbefore, fun hreflects flag hzero => ?_,
    fun flag hflag => Opcode.get_next_of_not_touched hop hfits hflag,
    Opcode.taken_of_not_test fun flag value hrule => ?_⟩
  · refine (hrun.admits_iff hop hfits hbefore flag).mpr fun source hcarries => ?_
    rw [hrun.eq_of_carries hreflects hcarries hzero]
    exact hbefore source
  · cases hrun with
    | conjunction hother | disjunction hother | rotation hother => simp [hrule] at hother

/-! ### Flags that come out wrong -/

/-- AND #$0f, ORA #$00, ROL A and BEQ. -/
def maskings : Image := #[0x29, 0x0f, 0x09, 0x00, 0x2a, 0xf0, 0x02]

/-- Some register is known to be negative and not zero. -/
def negativeStatus : StatusFlags := (StatusFlags.unspecified.set .zero .zero).set .negative .one

/-- Some register is known to be zero. -/
def zeroStatus : StatusFlags := (StatusFlags.unspecified.set .zero .one).set .negative .zero

/-- The flags that a value leaves when all others are clear. -/
def FlagValues.ofValue {w : Nat} (value : BitVec w) : FlagValues := reflect (fun _ => false) value

theorem opcode_and :
    (Processor.ofFamily .nmos6502 false).opcode 0x29
      = Layer.plain 0x29 .and .imm .andImmediate := by
  rw [Processor.opcode_ofFamily]
  decide +kernel

theorem opcode_ora :
    (Processor.ofFamily .nmos6502 false).opcode 0x09
      = Layer.plain 0x09 .ora .imm .orImmediate := by
  rw [Processor.opcode_ofFamily]
  decide +kernel

theorem opcode_rol :
    (Processor.ofFamily .nmos6502 false).opcode 0x2a
      = Layer.plain 0x2a .rol .accumulator .rotateLeft := by
  rw [Processor.opcode_ofFamily]
  decide +kernel

theorem opcode_beq :
    (Processor.ofFamily .nmos6502 false).opcode 0xf0 = Layer.branch 0xf0 .beq .zero true := by
  rw [Processor.opcode_ofFamily]
  decide +kernel

/-- The conjunction of $f0 and $0f, where negative and zero describe $f0. -/
theorem Processor.combination_judged_and :
    0 + ((ofFamily .nmos6502 false).opcode 0x29).length negativeStatus ≤ maskings.size
      ∧ negativeStatus.Admits (.ofValue 0xf0#8)
      ∧ (FlagValues.ofValue 0xf0#8).Reflects 0xf0#8
      ∧ ∃ after : FlagValues,
        ((ofFamily .nmos6502 false).opcode 0x29).Combines maskings 0 negativeStatus
            (.ofValue 0xf0#8) 0xf0#8 after
          ∧ ((ofFamily .nmos6502 false).opcode 0x29).Judged maskings 0 negativeStatus
            (.ofValue 0xf0#8) 0xf0#8 after := by
  have hfits : 0 + ((ofFamily .nmos6502 false).opcode 0x29).length negativeStatus
      ≤ maskings.size := by
    rw [opcode_and]
    decide
  have hadmits : negativeStatus.Admits (.ofValue 0xf0#8) := by decide
  obtain ⟨after, hrun⟩ : ∃ after,
      ((ofFamily .nmos6502 false).opcode 0x29).Combines maskings 0 negativeStatus
        (.ofValue 0xf0#8) 0xf0#8 after := by
    rw [opcode_and]
    exact ⟨_, .conjunction rfl _⟩
  exact ⟨hfits, hadmits, by decide, after, hrun,
    combination_judged _ _ _ _ _ _ _ _ _ hfits hadmits hrun⟩

/-- The instruction can make, of flags that are admitted, flags that are not. -/
def Opcode.Misjudges (op : Opcode) (image : Image) (offset : Nat) (status : StatusFlags)
    (before : FlagValues) : Prop :=
  offset + op.length status ≤ image.size ∧ status.Admits before
    ∧ ∃ (w : Nat) (value : BitVec w) (after : FlagValues),
      op.Combines image offset status before value after
        ∧ ¬ (op.transition status image offset).next.Admits after

/-- Zero is kept though a conjunction has become zero or an index register was meant, and carry is
taken from the index register.  After the conjunction a branch that is taken is judged never
taken. -/
theorem combinations_misjudged :
    ((Processor.ofFamily .nmos6502 false).opcode 0x29).Misjudges maskings 0 negativeStatus
        (.ofValue 0xf0#8)
      ∧ ((Processor.ofFamily .nmos6502 false).opcode 0x09).Misjudges maskings 2 zeroStatus
        (.ofValue 0x00#8)
      ∧ ((Processor.ofFamily .nmos6502 false).opcode 0x2a).Misjudges maskings 4 zeroStatus
        (.ofValue 0x00#8)
      ∧ ((Processor.ofFamily .nmos6502 false).opcode 0xf0).verdict?
          (((Processor.ofFamily .nmos6502 false).opcode 0x29).transition negativeStatus maskings
            0).next
        = some .never := by
  rw [opcode_and, opcode_ora, opcode_rol, opcode_beq]
  exact ⟨⟨by decide, by decide, _, 0xf0#8, _, .conjunction rfl _, by decide⟩,
    ⟨by decide, by decide, _, 0x01#8, _, .disjunction rfl _, by decide⟩,
    ⟨by decide, by decide, _, 0x80#8, _, .rotation rfl _, by decide⟩, by decide⟩

end Disasm65
