/-
Where a branch leads can be read off the image.

The operand is resolved on the first visit only, under whatever status the byte has then.  That is
enough: an instruction whose operand is an address has one length whatever the status, so a later
visit would read the same operand.
-/
import Mathlib
import Disasm65.Proofs.Flow.Consistency

namespace Disasm65.Flow

open StatusFlags

variable {ν σ : Type}

/-- A mode whose operand is an address has one length. -/
theorem length_eq_of_targetAddress? {mode : AddressMode} {address operand target : Nat}
    (h : targetAddress? mode address operand = some target) (status other : StatusFlags) :
    mode.length status = mode.length other := by
  cases mode <;> first | rfl | cases h

/-- Whether the operand is an address depends on the mode only. -/
theorem targetAddress?_eq_none {mode : AddressMode} {address operand : Nat}
    (h : targetAddress? mode address operand = none) (address' operand' : Nat) :
    targetAddress? mode address' operand' = none := by
  cases mode <;> first | rfl | cases h

theorem operand?_congr {op : Opcode} {status other : StatusFlags}
    (h : op.length status = op.length other) (image : Image) (offset : Nat) :
    op.operand? image offset status = op.operand? image offset other := by
  unfold Opcode.operand?
  dsimp only
  rw [h]

/-- Where the branch or call at `offset` leads, when its operand names a place in the image: the
operand is read from the image, with no regard to the status. -/
def directTarget? (setup : Setup) (offset : Nat) : Option Nat :=
  let op := setup.opcodeAt offset
  if op.isBranchOrCall && op.mode.isDirect then
    (op.operand? setup.image offset .unspecified).bind fun operand =>
      (targetAddress? op.mode ((setup.map.addressOf? offset).getD 0) operand).bind fun target =>
        setup.map.offsetOf? offset target
  else none

/-- The opcode at `offset` has an operand that is an address. -/
def RefersToAddress (setup : Setup) (offset : Nat) : Prop :=
  ∃ target, targetAddress? (setup.opcodeAt offset).mode 0 0 = some target

theorem directTarget?_of_not_refers {setup : Setup} {offset : Nat}
    (h : ¬ RefersToAddress setup offset) : directTarget? setup offset = none := by
  have hnone : targetAddress? (setup.opcodeAt offset).mode 0 0 = none := by
    cases hc : targetAddress? (setup.opcodeAt offset).mode 0 0 with
    | none => rfl
    | some target => exact absurd ⟨target, hc⟩ h
  unfold directTarget?
  dsimp only
  split
  · cases (setup.opcodeAt offset).operand? setup.image offset .unspecified with
    | none => rfl
    | some operand => simp [targetAddress?_eq_none hnone]
  · rfl

theorem branchTarget?_of_not_direct {op : Opcode} {a : Attribute}
    (h : a.operandIsDirect = false) : branchTarget? op a = none := by
  unfold branchTarget?
  rw [h, Bool.and_false]
  rfl

/-- **Resolving the operand finds where the branch leads**, under any status. -/
theorem branchTarget?_resolveOperand {setup : Setup} {offset : Nat} {a : Attribute}
    (haddress : a.address = (setup.map.addressOf? offset).getD 0)
    (hfresh : a.operandIsDirect = false) :
    branchTarget? (setup.opcodeAt offset)
        (resolveOperand setup offset (setup.opcodeAt offset) a)
      = directTarget? setup offset := by
  by_cases hrefers : RefersToAddress setup offset
  · obtain ⟨target, htarget⟩ := hrefers
    have hoperand := operand?_congr
      (length_eq_of_targetAddress? htarget a.status StatusFlags.unspecified) setup.image offset
    unfold directTarget? resolveOperand
    dsimp only
    rw [hoperand, haddress]
    cases (setup.opcodeAt offset).operand? setup.image offset .unspecified with
    | none => simp [branchTarget?_of_not_direct hfresh]
    | some operand =>
        dsimp only [Option.bind_some]
        cases targetAddress? (setup.opcodeAt offset).mode ((setup.map.addressOf? offset).getD 0)
          operand with
        | none => simp [branchTarget?_of_not_direct hfresh]
        | some target =>
            dsimp only [Option.bind_some]
            unfold branchTarget?
            cases setup.map.offsetOf? offset target <;> simp
  · rw [directTarget?_of_not_refers hrefers]
    refine branchTarget?_of_not_direct ?_
    unfold resolveOperand
    split
    · exact hfresh
    · split
      · exact hfresh
      · rename_i operand _ target htarget
        refine absurd ?_ hrefers
        cases hc : targetAddress? (setup.opcodeAt offset).mode 0 0 with
        | none =>
            rw [targetAddress?_eq_none hc] at htarget
            cases htarget
        | some t => exact ⟨t, hc⟩

section Decoded

variable {setup : Setup} {offset : Nat} {a : Attribute}

/-- The first decoding finds where the branch leads. -/
theorem branchTarget?_decodedByte_first (hfirst : a.isVisited = false)
    (haddress : a.address = (setup.map.addressOf? offset).getD 0)
    (hfresh : a.operandIsDirect = false) :
    branchTarget? (setup.opcodeAt offset) (decodedByte setup offset a)
      = directTarget? setup offset := by
  have hclaimed := sameDecoding_claimByte
    { (visitByte a).mark .instructionStart with
      instructionLength := (setup.opcodeAt offset).length a.status }
  rw [← branchTarget?_resolveOperand (hclaimed.address.trans haddress)
    (hclaimed.operandIsDirect.trans hfresh)]
  unfold decodedByte decodeByte branchTarget?
  dsimp only
  rw [hfirst, (noteBranch_kept _ _).2.2.2.1, (noteBranch_kept _ _).2.2.2.2]
  rfl

/-- A later decoding leaves the operand as it is. -/
theorem branchTarget?_decodedByte_again (hagain : a.isVisited = true) :
    branchTarget? (setup.opcodeAt offset) (decodedByte setup offset a)
      = branchTarget? (setup.opcodeAt offset) a := by
  have hclaimed := sameDecoding_claimByte
    { (visitByte a).mark .instructionStart with
      instructionLength := (setup.opcodeAt offset).length a.status }
  unfold decodedByte decodeByte branchTarget?
  dsimp only
  rw [hagain, (noteBranch_kept _ _).2.2.2.1, (noteBranch_kept _ _).2.2.2.2]
  simp only [Bool.not_true, Bool.false_eq_true, if_false]
  rw [hclaimed.operandOffset, hclaimed.operandIsDirect]
  rfl

end Decoded

/-! ### Along the steps -/

/-- A branch that has been visited leads where the image says, unless it does not fit.  Before that
nothing is noted. -/
structure Resolved (setup : Setup) (i : Nat) (a : Attribute) : Prop where
  fresh : a.isVisited = false → a.operandIsDirect = false
  target : a.isVisited = true →
    branchTarget? (setup.opcodeAt i) a = directTarget? setup i
      ∨ RefersToAddress setup i ∧ ¬ FitsAt setup i ((setup.opcodeAt i).length .unspecified)

namespace Resolved

variable {setup : Setup} {i : Nat} {a b : Attribute}

theorem congr (ha : Resolved setup i a) (hvisited : b.isVisited = a.isVisited)
    (hoffset : b.operandOffset = a.operandOffset)
    (hdirect : b.operandIsDirect = a.operandIsDirect) : Resolved setup i b := by
  refine ⟨fun hv => ?_, fun hv => ?_⟩
  · rw [hdirect]
    exact ha.fresh (hvisited.symm.trans hv)
  · have htarget : branchTarget? (setup.opcodeAt i) b = branchTarget? (setup.opcodeAt i) a := by
      unfold branchTarget?
      rw [hoffset, hdirect]
    rw [htarget]
    exact ha.target (hvisited.symm.trans hv)

theorem evolves {plugins : Prop} (ha : Resolved setup i a) (h : Evolves setup plugins i a b) :
    Resolved setup i b :=
  ha.congr h.visited h.sameDecoding.operandOffset h.sameDecoding.operandIsDirect

/-- A first visit that decodes nothing leaves nothing noted. -/
theorem undecoded (ha : Resolved setup i a) (hoffset : b.operandOffset = a.operandOffset)
    (hdirect : b.operandIsDirect = a.operandIsDirect) (hv : b.isVisited = true)
    (hwhy : a.isVisited = false → ¬ RefersToAddress setup i
      ∨ RefersToAddress setup i ∧ ¬ FitsAt setup i ((setup.opcodeAt i).length .unspecified)) :
    Resolved setup i b := by
  by_cases hva : a.isVisited = true
  · exact ha.congr (hv.trans hva.symm) hoffset hdirect
  · rw [Bool.not_eq_true] at hva
    refine ⟨fun hc => ?_, fun _ => ?_⟩
    · rw [hv] at hc
      cases hc
    · rcases hwhy hva with hn | hn
      · left
        rw [directTarget?_of_not_refers hn]
        exact branchTarget?_of_not_direct (hdirect.trans (ha.fresh hva))
      · exact Or.inr hn

/-- The first execution resolves the operand, and no later one touches it. -/
theorem finishes {plugins : Prop} {stops : Bool} (ha : Resolved setup i a)
    (haddress : a.address = (setup.map.addressOf? i).getD 0)
    (h : Finishes setup plugins i stops (decodedByte setup i a) b) : Resolved setup i b := by
  have hsame := h.sameDecoding
  have hv : b.isVisited = true := by
    refine (h.own rfl (by decide) (by decide)).trans ?_
    simp [decodedByte_has]
  have htarget : branchTarget? (setup.opcodeAt i) b
      = branchTarget? (setup.opcodeAt i) (decodedByte setup i a) := by
    unfold branchTarget?
    rw [hsame.operandOffset, hsame.operandIsDirect]
  refine ⟨fun hc => ?_, fun _ => ?_⟩
  · rw [hv] at hc
    cases hc
  rw [htarget]
  by_cases hva : a.isVisited = true
  · rw [branchTarget?_decodedByte_again hva]
    exact ha.target hva
  · rw [Bool.not_eq_true] at hva
    exact Or.inl (branchTarget?_decodedByte_first hva haddress (ha.fresh hva))

end Resolved

end Disasm65.Flow
