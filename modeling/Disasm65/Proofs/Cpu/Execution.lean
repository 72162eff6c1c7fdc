/-
What is known of the flags stays true when an instruction runs.

`Runs` says what the flags can be after an instruction, and which way it goes, from what they are
before it.  If the status admits the flags before, then the status that is handed on that way admits
them after (`Runs.admits`), so a branch that is judged `always` or `never` goes the other way in no
run.  The rules are those whose outcome the image and the flags decide, and the rotation to the
right, where the bit that falls out can be anything.
-/
import Mathlib
import Disasm65.Proofs.Cpu.Immediate

namespace Disasm65

/-- The flags with negative and zero as a result leaves them. -/
def FlagValues.reflect {w : Nat} (values : FlagValues) (result : BitVec w) : FlagValues :=
  Function.update (Function.update values .zero (result == 0#w)) .negative result.msb

@[simp]
theorem FlagValues.reflect_negative {w : Nat} (values : FlagValues) (result : BitVec w) :
    values.reflect result .negative = result.msb := rfl

@[simp]
theorem FlagValues.reflect_zero {w : Nat} (values : FlagValues) (result : BitVec w) :
    values.reflect result .zero = (result == 0#w) := rfl

theorem FlagValues.reflect_of_ne {w : Nat} (values : FlagValues) (result : BitVec w) {flag : Flag}
    (hnegative : flag ≠ .negative) (hzero : flag ≠ .zero) :
    values.reflect result flag = values flag := by
  rw [reflect, Function.update_of_ne hnegative, Function.update_of_ne hzero]

/-- The ways control can go after an instruction. -/
inductive Way where
  | next
  | taken
deriving DecidableEq

/-- The status that is handed on this way. -/
def Transition.along (transition : Transition) : Way → StatusFlags
  | .next => transition.next
  | .taken => transition.taken

namespace Opcode

/-- The instruction at `offset`, whose length is the one under `status`, can change the flags from
`before` to these and go this way. -/
inductive Runs (op : Opcode) (image : Image) (offset : Nat) (status : StatusFlags)
    (before : FlagValues) : Way → FlagValues → Prop where
  | load (hrule : op.rule = .loadImmediate) :
      Runs op image offset status before .next
        (before.reflect (op.operandBits image offset status))
  /-- The old carry becomes the top bit, so the result is zero only without it. -/
  | rotateRight (hrule : op.rule = .rotateRight) (isZero carry : Bool)
      (hzero : isZero = true → before .carry = false) :
      Runs op image offset status before .next
        (Function.update (Function.update (Function.update before .negative (before .carry))
          .zero isZero) .carry carry)
  | clear (hrule : op.rule = .clearSelected) :
      Runs op image offset status before .next fun flag =>
        if flag ∈ Flag.register ∧ (op.operandBits image offset status).getLsbD flag.position
        then false else before flag
  | set (hrule : op.rule = .setSelected) :
      Runs op image offset status before .next fun flag =>
        if flag ∈ Flag.register ∧ (op.operandBits image offset status).getLsbD flag.position
        then true else before flag
  | force (flag : Flag) (value : Bool) (hrule : op.rule = .force flag value) :
      Runs op image offset status before .next (Function.update before flag value)
  | branch (flag : Flag) (value : Bool) (hrule : op.rule = .test flag value)
      (htest : before flag = value) : Runs op image offset status before .taken before
  | pass (flag : Flag) (value : Bool) (hrule : op.rule = .test flag value)
      (htest : before flag ≠ value) : Runs op image offset status before .next before

/-- The rules that `Runs` covers. -/
def isFollowed (op : Opcode) : Bool :=
  match op.rule with
  | .loadImmediate | .rotateRight | .clearSelected | .setSelected | .force _ _ | .test _ _ => true
  | _ => false

variable {op : Opcode} {image : Image} {offset : Nat} {status : StatusFlags}
  {before after : FlagValues} {way : Way}

/-- From all flags there is a way on. -/
theorem Runs.exists (h : op.isFollowed = true) (image : Image) (offset : Nat)
    (status : StatusFlags) (before : FlagValues) :
    ∃ way after, op.Runs image offset status before way after := by
  cases hrule : op.rule with
  | loadImmediate => exact ⟨_, _, .load hrule⟩
  | rotateRight => exact ⟨_, _, .rotateRight hrule false false (fun h => by cases h)⟩
  | clearSelected => exact ⟨_, _, .clear hrule⟩
  | setSelected => exact ⟨_, _, .set hrule⟩
  | force flag value => exact ⟨_, _, .force flag value hrule⟩
  | test flag value =>
      by_cases htest : before flag = value
      · exact ⟨_, _, .branch flag value hrule htest⟩
      · exact ⟨_, _, .pass flag value hrule htest⟩
  | _ => simp [isFollowed, hrule] at h

/-! ### One rule at a time -/

section Rules

variable (hbefore : status.Admits before)

include hbefore

theorem admits_load (hrule : op.rule = .loadImmediate) (hmode : op.mode.isImmediate = true)
    (hfits : offset + op.length status ≤ image.size) :
    (op.transition status image offset).next.Admits
      (before.reflect (op.operandBits image offset status)) := by
  unfold transition nextStatus
  rw [hrule, immediate?_eq_some hmode hfits]
  dsimp only
  rw [isNegative_operandBits hmode, toNat_operandBits_beq]
  exact (hbefore.set _ (BitState.admits_ofBool.mpr rfl)).set _ (BitState.admits_ofBool.mpr rfl)

theorem admits_rotateRight (hrule : op.rule = .rotateRight) {isZero carry : Bool}
    (hzero : isZero = true → before .carry = false) :
    (op.transition status image offset).next.Admits
      (Function.update (Function.update (Function.update before .negative (before .carry))
        .zero isZero) .carry carry) := by
  have hcarry := hbefore .carry
  unfold transition nextStatus
  rw [hrule]
  dsimp only
  intro flag
  have hflag := hbefore flag
  split <;> rename_i hstate <;> rw [hstate] at hcarry
  · -- the carry is set, so the result is negative and not zero
    have hnot : isZero = false := by
      by_contra h
      rw [hzero (Bool.eq_true_of_not_eq_false h)] at hcarry
      cases hcarry
    cases flag <;> simp_all
  · cases flag <;> simp_all
  · cases flag <;> simp_all
  · cases flag <;> simp_all

theorem admits_selects (value : Bool)
    (hrule : op.rule = if value then .setSelected else .clearSelected)
    (hmode : op.mode.isImmediate = true) (hfits : offset + op.length status ≤ image.size) :
    (op.transition status image offset).next.Admits fun flag =>
      if flag ∈ Flag.register ∧ (op.operandBits image offset status).getLsbD flag.position
      then value else before flag := by
  have htouched : ∀ flag, flag ∈ op.touched (op.operandBits image offset status)
      ↔ flag ∈ Flag.register
        ∧ (op.operandBits image offset status).getLsbD flag.position = true := by
    intro flag
    cases value <;> simp [touched, hrule]
  rw [next_of_selects value hrule hmode hfits]
  refine hbefore.setAll (fun flag hflag => ?_) fun flag hflag => ?_
  · rw [if_pos ((htouched flag).mp hflag)]
    exact BitState.admits_ofBool.mpr rfl
  · rw [if_neg fun h => hflag ((htouched flag).mpr h)]

theorem admits_force {flag : Flag} {value : Bool} (hrule : op.rule = .force flag value) :
    (op.transition status image offset).next.Admits (Function.update before flag value) := by
  unfold transition nextStatus
  rw [hrule]
  exact hbefore.set flag (BitState.admits_ofBool.mpr rfl)

end Rules

/-! ### Branches -/

section Tests

variable {flag : Flag} {value : Bool} (hrule : op.rule = .test flag value)

include hrule

theorem next_test :
    (op.transition status image offset).next = status.set flag (.ofBool (!value)) := by
  unfold transition nextStatus
  rw [hrule]

theorem taken_test :
    (op.transition status image offset).taken = status.set flag (.ofBool value) := by
  unfold transition takenStatus
  rw [hrule]

theorem verdict?_eq_always (h : op.verdict? status = some .always) :
    status.get flag = .ofBool value := by
  unfold verdict? at h
  rw [hrule] at h
  dsimp only at h
  split at h <;> cases value <;> simp_all [BitState.ofBool]

theorem verdict?_eq_never (h : op.verdict? status = some .never) :
    status.get flag = .ofBool (!value) := by
  unfold verdict? at h
  rw [hrule] at h
  dsimp only at h
  split at h <;> cases value <;> simp_all [BitState.ofBool]

end Tests

theorem taken_of_not_test (h : ∀ flag value, op.rule ≠ .test flag value) :
    (op.transition status image offset).taken = status := by
  unfold transition takenStatus
  dsimp only
  split
  · rename_i flag value hrule
    exact absurd hrule (h flag value)
  · rfl

/-! ### All rules -/

/-- **The status that is handed on admits what a run makes of flags that were admitted.** -/
theorem Runs.admits (hrun : op.Runs image offset status before way after) (hop : op.Supplied)
    (hfits : offset + op.length status ≤ image.size) (hbefore : status.Admits before) :
    ((op.transition status image offset).along way).Admits after := by
  cases hrun with
  | load hrule => exact admits_load hbefore hrule (hop (by rw [hrule]; rfl)) hfits
  | rotateRight hrule _ _ hzero => exact admits_rotateRight hbefore hrule hzero
  | clear hrule => exact admits_selects hbefore false hrule (hop (by rw [hrule]; rfl)) hfits
  | set hrule => exact admits_selects hbefore true hrule (hop (by rw [hrule]; rfl)) hfits
  | force _ _ hrule => exact admits_force hbefore hrule
  | branch flag value hrule htest =>
      have hset := hbefore.set flag (BitState.admits_ofBool.mpr htest)
      rw [Function.update_eq_self] at hset
      rw [Transition.along, taken_test hrule]
      exact hset
  | pass flag value hrule htest =>
      have hset := hbefore.set flag (BitState.admits_ofBool.mpr (Bool.eq_not.mpr htest))
      rw [Function.update_eq_self] at hset
      rw [Transition.along, next_test hrule]
      exact hset

/-- Flags that are admitted do not pass a branch that is always taken. -/
theorem Runs.way_of_always (hrun : op.Runs image offset status before way after)
    (hbefore : status.Admits before) (h : op.verdict? status = some .always) :
    way = .taken := by
  cases hrun with
  | branch => rfl
  | pass flag value hrule htest =>
      have hflag := hbefore flag
      rw [verdict?_eq_always hrule h, BitState.admits_ofBool] at hflag
      exact absurd hflag htest
  | _ => simp_all [verdict?]

/-- Flags that are admitted do not take a branch that is never taken. -/
theorem Runs.way_of_never (hrun : op.Runs image offset status before way after)
    (hbefore : status.Admits before) (h : op.verdict? status = some .never) :
    way = .next := by
  cases hrun with
  | branch flag value hrule htest =>
      have hflag := hbefore flag
      rw [verdict?_eq_never hrule h, BitState.admits_ofBool, htest] at hflag
      exact absurd hflag (Bool.self_ne_not value)
  | _ => rfl

/-- What the status tells is true of every run of the instruction at `offset`, and nothing else is
told anew. -/
structure Tracked (op : Opcode) (image : Image) (offset : Nat) (status : StatusFlags) : Prop where
  /-- There is a run from all flags. -/
  runs : ∀ before, ∃ way after, op.Runs image offset status before way after
  admits : ∀ before way after, status.Admits before →
    op.Runs image offset status before way after →
    ((op.transition status image offset).along way).Admits after
  /-- A branch that is judged always taken falls through in no run. -/
  always : ∀ before way after, status.Admits before →
    op.Runs image offset status before way after → op.verdict? status = some .always →
    way = .taken
  /-- A branch that is judged never taken is taken in no run. -/
  never : ∀ before way after, status.Admits before →
    op.Runs image offset status before way after → op.verdict? status = some .never →
    way = .next
  untouched : ∀ flag ∉ op.touched (op.operandBits image offset status),
    (op.transition status image offset).next.get flag = status.get flag
      ∧ (op.transition status image offset).taken.get flag = status.get flag
  /-- Each way of a branch knows how the test ended. -/
  tested : ∀ flag value, op.rule = .test flag value →
    (op.transition status image offset).next.get flag = .ofBool (!value)
      ∧ (op.transition status image offset).taken.get flag = .ofBool value
  notTested : (∀ flag value, op.rule ≠ .test flag value) →
    (op.transition status image offset).taken = status

end Opcode

/-- **Loads, rotations to the right, selections, forced flags and branches are tracked on every
processor.** -/
theorem Processor.opcode_tracked (family : Family) (hasUndocumented : Bool) (code : UInt8)
    (image : Image) (offset : Nat) (status : StatusFlags)
    (hfollowed : ((ofFamily family hasUndocumented).opcode code).isFollowed = true)
    (hfits : offset + ((ofFamily family hasUndocumented).opcode code).length status
      ≤ image.size) :
    ((ofFamily family hasUndocumented).opcode code).Tracked image offset status := by
  have hop := supplied family hasUndocumented code
  refine ⟨Opcode.Runs.exists hfollowed image offset status,
    fun _ _ _ hbefore hrun => hrun.admits hop hfits hbefore,
    fun _ _ _ hbefore hrun => hrun.way_of_always hbefore,
    fun _ _ _ hbefore hrun => hrun.way_of_never hbefore,
    fun flag hflag => ⟨Opcode.get_next_of_not_touched hop hfits hflag,
      Opcode.get_taken_of_not_touched hflag⟩, fun flag value hrule => ?_,
    Opcode.taken_of_not_test⟩
  rw [Opcode.next_test hrule, Opcode.taken_test hrule, StatusFlags.get_set,
    StatusFlags.get_set, if_pos rfl, if_pos rfl]
  exact ⟨rfl, rfl⟩

/-- Native mode with wide registers. -/
def StatusFlags.wide : StatusFlags := unspecified.setAll [.emulation, .memory, .index] .zero

theorem Processor.opcode_wideLoad :
    (ofFamily .wide65816 false).opcode 0xa9
      = Layer.plain 0xa9 .lda .immAccumulator .loadImmediate := by
  rw [opcode_ofFamily]
  decide +kernel

/-- A load of $8000 into the wide accumulator. -/
theorem Processor.opcode_tracked_wideLoad :
    ((ofFamily .wide65816 false).opcode 0xa9).isFollowed = true
      ∧ 0 + ((ofFamily .wide65816 false).opcode 0xa9).length .wide
        ≤ (#[0xa9, 0x00, 0x80] : Image).size
      ∧ ((ofFamily .wide65816 false).opcode 0xa9).Tracked #[0xa9, 0x00, 0x80] 0 .wide := by
  have hfollowed : ((ofFamily .wide65816 false).opcode 0xa9).isFollowed = true := by
    rw [opcode_wideLoad]
    rfl
  have hfits : 0 + ((ofFamily .wide65816 false).opcode 0xa9).length .wide
      ≤ (#[0xa9, 0x00, 0x80] : Image).size := by
    rw [opcode_wideLoad]
    decide
  exact ⟨hfollowed, hfits, opcode_tracked _ _ _ _ _ _ hfollowed hfits⟩

end Disasm65
