/-
Decoding an instruction.

An execution first claims the bytes of the instruction, resolves its operand on the first visit and
notes what it can about the branch.  All of that happens to the instruction's own byte
(`decodeByte`); the other bytes of the instruction are only claimed.
-/
import Mathlib
import Disasm65.Proofs.Flow.Handing

namespace Disasm65.Flow

open StatusFlags

variable {ν σ : Type} {plugins : Prop}

/-- The verdict that an execution records, if it records one. -/
def recordedVerdict? (op : Opcode) (status : StatusFlags) : Option Verdict :=
  if op.effect = .conditionalBranch then op.verdict? status else none

/-- The next instruction follows, as far as no plugin objects. -/
def continues (op : Opcode) (status : StatusFlags) : Bool :=
  op.effect.fallsThrough && recordedVerdict? op status != some .always

/-- Where a branch or call leads, when its operand names a place in the image. -/
def branchTarget? (op : Opcode) (a : Attribute) : Option Nat :=
  if op.isBranchOrCall && a.operandIsDirect then a.operandOffset else none

/-- The bytes of the instruction are claimed. -/
def claimed (offset length : Nat) (s : State ν σ) : State ν σ :=
  (s.update offset fun a =>
    { a.mark .instructionStart with instructionLength := length }).updateRange offset length
      claimByte

/-- On the first visit the operand is resolved. -/
def resolved (setup : Setup) (offset : Nat) (op : Opcode) (length : Nat) (first : Bool)
    (s : State ν σ) : State ν σ :=
  let s := claimed offset length s
  if first then s.update offset (resolveOperand setup offset op) else s

/-- What is noted about a branch. -/
def noteBranch (op : Opcode) (status : StatusFlags) (target : Option Nat) (a : Attribute) :
    Attribute :=
  let a := if op.isBranchOrCall && target.isNone then a.mark .externalBranch else a
  { a with verdict := (recordedVerdict? op status).getD a.verdict }

/-- The instruction is decoded. -/
def decoded (setup : Setup) (offset : Nat) (op : Opcode) (length : Nat) (first : Bool)
    (status : StatusFlags) (s : State ν σ) : State ν σ :=
  let s := resolved setup offset op length first s
  s.update offset (noteBranch op status (branchTarget? op (s.info offset)))

/-! ### What decoding does to the bytes -/

theorem length_pos (op : Opcode) (status : StatusFlags) : 0 < op.length status := by
  unfold Opcode.length AddressMode.length
  split <;> first | decide | (split <;> decide)

/-- The attribute of an instruction that is decoded. -/
def decodeByte (setup : Setup) (offset : Nat) (op : Opcode) (length : Nat) (first : Bool)
    (status : StatusFlags) (a : Attribute) : Attribute :=
  let a := claimByte { a.mark .instructionStart with instructionLength := length }
  let a := if first then resolveOperand setup offset op a else a
  noteBranch op status (branchTarget? op a) a

namespace State

variable {s : State ν σ} {i j : Nat} {change : Attribute → Attribute}

theorem info_update_self (h : i < s.attributes.size) :
    (s.update i change).info i = change (s.info i) :=
  Attributes.info_update_self h change

theorem info_update_ne (h : i ≠ j) : (s.update i change).info j = s.info j :=
  Attributes.info_update_ne _ h change

@[simp]
theorem size_update : (s.update i change).attributes.size = s.attributes.size :=
  Attributes.size_update ..

end State

section Decode

variable {setup : Setup} {offset : Nat} {op : Opcode} {length : Nat} {first : Bool}
variable {status : StatusFlags} {s : State ν σ}

theorem size_claimed : (claimed offset length s).attributes.size = s.attributes.size := by
  simp [claimed, State.updateRange, State.update]

theorem info_claimed_self (hsize : offset < s.attributes.size) (hlength : 0 < length) :
    (claimed offset length s).info offset
      = claimByte { (s.info offset).mark .instructionStart with instructionLength := length } := by
  unfold claimed State.updateRange State.info
  rw [Attributes.info_updateRange, if_pos ⟨by omega, by simpa using hsize⟩]
  exact congrArg claimByte (State.info_update_self hsize)

theorem info_claimed {i : Nat} (h : i ≠ offset) :
    (claimed offset length s).info i
      = if (offset ≤ i ∧ i < offset + length) ∧ i < s.attributes.size then claimByte (s.info i)
        else s.info i := by
  have hi : (s.update offset fun a =>
      { a.mark .instructionStart with instructionLength := length }).attributes.info i
        = s.attributes.info i :=
    State.info_update_ne fun hc => h hc.symm
  unfold claimed State.updateRange State.info
  rw [Attributes.info_updateRange, hi, State.size_update]

theorem info_claimed_ne {i : Nat} (h : i ≠ offset) :
    (claimed offset length s).info i = s.info i
      ∨ (claimed offset length s).info i = claimByte (s.info i) := by
  rw [info_claimed h]
  split
  · exact Or.inr rfl
  · exact Or.inl rfl

/-- Claiming bytes tells them nothing. -/
theorem claimed_status (i : Nat) :
    ((claimed offset length s).info i).status = (s.info i).status := by
  have hstart : ((s.update offset fun a =>
      { a.mark .instructionStart with instructionLength := length }).attributes.info i).status
        = (s.info i).status := by
    rw [State.update, Attributes.info_update]
    split <;> rfl
  unfold claimed State.updateRange
  rw [State.info, Attributes.info_updateRange]
  split
  · rw [claimByte_status, hstart]
  · exact hstart

theorem info_resolved_self (hsize : offset < s.attributes.size) (hlength : 0 < length) :
    (resolved setup offset op length first s).info offset
      = (let a :=
           claimByte { (s.info offset).mark .instructionStart with instructionLength := length }
         if first then resolveOperand setup offset op a else a) := by
  have hclaimed := info_claimed_self hsize hlength
  cases first with
  | true =>
      have h : offset < (claimed offset length s).attributes.size := by
        rw [size_claimed]
        exact hsize
      exact (State.info_update_self h).trans (congrArg _ hclaimed)
  | false => exact hclaimed

theorem size_resolved :
    (resolved setup offset op length first s).attributes.size = s.attributes.size := by
  unfold resolved
  dsimp only
  split
  · rw [State.size_update, size_claimed]
  · exact size_claimed

theorem size_decoded :
    (decoded setup offset op length first status s).attributes.size = s.attributes.size := by
  unfold decoded
  rw [State.size_update, size_resolved]

theorem info_decoded_self (hsize : offset < s.attributes.size) (hlength : 0 < length) :
    (decoded setup offset op length first status s).info offset
      = decodeByte setup offset op length first status (s.info offset) := by
  unfold decoded
  dsimp only
  rw [State.info_update_self (by rw [size_resolved]; exact hsize),
    info_resolved_self hsize hlength]
  rfl

/-- The other bytes of the instruction are only claimed. -/
theorem info_decoded_of_ne {i : Nat} (h : i ≠ offset) :
    (decoded setup offset op length first status s).info i = (claimed offset length s).info i := by
  unfold decoded resolved
  dsimp only
  rw [State.info_update_ne fun hc => h hc.symm]
  split
  · exact State.info_update_ne fun hc => h hc.symm
  · rfl

theorem info_decoded_ne {i : Nat} (h : i ≠ offset) :
    (decoded setup offset op length first status s).info i = s.info i
      ∨ (decoded setup offset op length first status s).info i = claimByte (s.info i) := by
  rw [info_decoded_of_ne h]
  exact info_claimed_ne h

theorem decoded_pending :
    (decoded setup offset op length first status s).pending = s.pending := by
  unfold decoded resolved
  cases first <;> rfl

theorem decoded_panel : (decoded setup offset op length first status s).panel = s.panel := by
  unfold decoded resolved
  cases first <;> rfl

theorem resolveOperand_marks (a : Attribute) :
    (resolveOperand setup offset op a).marks = a.marks := by
  unfold resolveOperand
  split
  · rfl
  · split <;> rfl

theorem resolveOperand_status (a : Attribute) :
    (resolveOperand setup offset op a).status = a.status := by
  unfold resolveOperand
  split
  · rfl
  · split <;> rfl

theorem resolveOperand_kept (a : Attribute) :
    (resolveOperand setup offset op a).address = a.address
      ∧ (resolveOperand setup offset op a).instructionLength = a.instructionLength
      ∧ (resolveOperand setup offset op a).verdict = a.verdict := by
  unfold resolveOperand
  split
  · exact ⟨rfl, rfl, rfl⟩
  · split <;> exact ⟨rfl, rfl, rfl⟩

theorem noteBranch_has (target : Option Nat) (a : Attribute) {m : Mark}
    (hm : m ≠ .externalBranch) : (noteBranch op status target a).marks.has m = a.marks.has m := by
  unfold noteBranch
  dsimp only
  split <;> simp [hm]

theorem decodeByte_has (a : Attribute) {m : Mark} (hm : m ≠ .externalBranch) :
    (decodeByte setup offset op length first status a).marks.has m
      = (decide (m = .instruction) || decide (m = .instructionStart)
          || (!decide (m = .data) && !decide (m = .inlineData) && a.marks.has m)) := by
  unfold decodeByte
  dsimp only
  rw [noteBranch_has _ _ hm]
  cases first <;>
    · simp only [Bool.false_eq_true, if_true, if_false, resolveOperand_marks, claimByte_has,
        Attribute.mark, Marks.has_insert]
      cases m <;> simp

theorem noteBranch_kept (target : Option Nat) (a : Attribute) :
    (noteBranch op status target a).status = a.status
      ∧ (noteBranch op status target a).address = a.address
      ∧ (noteBranch op status target a).instructionLength = a.instructionLength
      ∧ (noteBranch op status target a).operandOffset = a.operandOffset
      ∧ (noteBranch op status target a).operandIsDirect = a.operandIsDirect := by
  unfold noteBranch
  dsimp only
  split <;> exact ⟨rfl, rfl, rfl, rfl, rfl⟩

@[simp]
theorem decodeByte_status (a : Attribute) :
    (decodeByte setup offset op length first status a).status = a.status := by
  unfold decodeByte
  dsimp only
  rw [(noteBranch_kept _ _).1]
  cases first <;> simp [resolveOperand_status]

@[simp]
theorem decodeByte_address (a : Attribute) :
    (decodeByte setup offset op length first status a).address = a.address := by
  unfold decodeByte
  dsimp only
  rw [(noteBranch_kept _ _).2.1]
  cases first
  · exact (sameDecoding_claimByte _).address
  · exact (resolveOperand_kept _).1.trans (sameDecoding_claimByte _).address

@[simp]
theorem decodeByte_length (a : Attribute) :
    (decodeByte setup offset op length first status a).instructionLength = length := by
  unfold decodeByte
  dsimp only
  rw [(noteBranch_kept _ _).2.2.1]
  cases first
  · exact (sameDecoding_claimByte _).length
  · exact (resolveOperand_kept _).2.1.trans (sameDecoding_claimByte _).length

theorem noteBranch_verdict (target : Option Nat) (a : Attribute) :
    (noteBranch op status target a).verdict = (recordedVerdict? op status).getD a.verdict := by
  unfold noteBranch
  dsimp only
  split <;> rfl

@[simp]
theorem decodeByte_verdict (a : Attribute) :
    (decodeByte setup offset op length first status a).verdict
      = (recordedVerdict? op status).getD a.verdict := by
  unfold decodeByte
  dsimp only
  rw [noteBranch_verdict]
  congr 1
  cases first
  · exact (sameDecoding_claimByte _).verdict
  · exact (resolveOperand_kept _).2.2.trans (sameDecoding_claimByte _).verdict

/-- The target that is followed is the one that is noted. -/
theorem branchTarget?_resolved (status : StatusFlags) (hsize : offset < s.attributes.size)
    (hlength : 0 < length) :
    branchTarget? op ((resolved setup offset op length first s).info offset)
      = branchTarget? op (decodeByte setup offset op length first status (s.info offset)) := by
  rw [info_resolved_self hsize hlength]
  unfold decodeByte branchTarget?
  dsimp only
  rw [(noteBranch_kept _ _).2.2.2.1, (noteBranch_kept _ _).2.2.2.2]

end Decode

end Disasm65.Flow
