/-
What is noted about operands is what the image says.

An operand is resolved on the first visit of its instruction and never again.  That is enough: the
first visit finds the byte open and decodes it, and an operand that is an address has the same bytes
under every status, so that a later visit would find the same (`Referring`).  Hence the note about
an instruction is a function of the image and the map alone (`referenceAt`), and it can be compared
with what its mode says (`Addressing.target`).
-/
import Mathlib
import Disasm65.Proofs.AddressMap.Translation
import Disasm65.Proofs.Flow.FirstVisit
import Disasm65.Proofs.Flow.Unobstructed
import Disasm65.Proofs.Image.Bytes

namespace Disasm65

/-! ### The modes -/

/-- How the bytes of an operand name an address. -/
inductive Addressing where
  /-- two bytes, in the bank of the instruction -/
  | absolute
  /-- a signed distance from the end of the instruction -/
  | relative (width : Nat)
  /-- the address as it stands -/
  | plain (width : Nat)

namespace Addressing

/-- The number of bytes of the operand. -/
def width : Addressing → Nat
  | absolute => 2
  | relative width => width
  | plain width => width

/-- The number with its sign, when it has `width` bytes. -/
def displacement (width operand : Nat) : Int :=
  if 2 * operand < 0x100 ^ width then operand else (operand : Int) - 0x100 ^ width

/-- The address that an operand names in an instruction of `length` bytes at `address`. -/
def target (addressing : Addressing) (address length operand : Nat) : Nat :=
  match addressing with
  | absolute => address / 0x10000 * 0x10000 + operand
  | relative width =>
      address / 0x10000 * 0x10000
        + (((address : Int) + length + displacement width operand) % 0x10000).toNat
  | plain _ => operand

end Addressing

/-- How the operand of a mode names an address, if it does. -/
def AddressMode.addressing? : AddressMode → Option Addressing
  | .abs | .absIndexX | .absIndexY | .absIndexXInd | .stackAbs => some .absolute
  | .pcRel => some (.relative 1)
  | .pcRelLong | .stackPcRelLong => some (.relative 2)
  | .dp | .dpIndexX | .dpIndexY | .dpIndexXInd | .dpInd | .dpIndLong | .dpIndIndexY
  | .dpIndIndexYLong | .stackDpInd => some (.plain 1)
  | .absInd | .absIndLong => some (.plain 2)
  | .absLong | .absIndexXLong => some (.plain 3)
  | .undefined | .accumulator | .blockMove | .imm | .immAccumulator | .immIndex | .implied
  | .stackInt | .stackPull | .stackPush | .stackRti | .stackRtl | .stackRts | .stackRel
  | .stackRelIndIndexY | .wdm => none

/-- The number in `width` bytes, low byte first. -/
def Image.numberAt (image : Image) (offset width : Nat) : Nat :=
  Nat.ofDigits 0x100 ((image.bytesFrom offset width).map (·.toNat))

namespace Flow

open StatusFlags

variable {ν σ : Type}

theorem signed_eq_displacement {width operand : Nat} (h : operand < 0x100 ^ width) :
    signed (8 * width) operand = Addressing.displacement width operand := by
  have hpow : 0x100 ^ width = 2 ^ (8 * width) := by rw [Nat.pow_mul]
  unfold signed Addressing.displacement
  rw [BitVec.toInt_eq_toNat_cond, BitVec.toNat_ofNat, ← hpow, Nat.mod_eq_of_lt h]
  push_cast
  rfl

theorem bankOf_eq {address : Nat} (h : address < 0x80000000) :
    bankOf address = address / 0x10000 * 0x10000 := by
  unfold bankOf
  rw [Nat.mod_eq_of_lt (by omega)]

theorem relativeTarget_eq {address : Nat} (h : address < 0x80000000) (length : Nat)
    (distance : Int) :
    relativeTarget address length distance
      = address / 0x10000 * 0x10000
        + (((address : Int) + length + distance) % 0x10000).toNat := by
  unfold relativeTarget
  rw [bankOf_eq h]
  congr 2
  push_cast
  omega

section Mode

variable {mode : AddressMode} {addressing : Addressing}

theorem length_of_addressing? (h : mode.addressing? = some addressing) (status : StatusFlags) :
    mode.length status = addressing.width + 1 := by
  cases mode <;> cases h <;> rfl

theorem targetAddress?_of_absolute (h : mode.addressing? = some .absolute)
    (address operand : Nat) :
    targetAddress? mode address operand = some (bankOf address + operand) := by
  cases mode <;> cases h <;> rfl

theorem targetAddress?_of_relative {width : Nat} (h : mode.addressing? = some (.relative width))
    (address operand : Nat) :
    targetAddress? mode address operand
      = some (relativeTarget address (width + 1) (signed (8 * width) operand)) := by
  cases mode <;> cases h <;> rfl

theorem targetAddress?_of_plain {width : Nat} (h : mode.addressing? = some (.plain width))
    (address operand : Nat) : targetAddress? mode address operand = some operand := by
  cases mode <;> cases h <;> rfl

/-- **An operand names the address that its mode says.** -/
theorem targetAddress?_of_addressing? (h : mode.addressing? = some addressing)
    {address operand : Nat} (haddress : address < 0x80000000)
    (hoperand : operand < 0x100 ^ addressing.width) :
    targetAddress? mode address operand
      = some (addressing.target address (addressing.width + 1) operand) := by
  cases addressing with
  | absolute =>
      rw [targetAddress?_of_absolute h, bankOf_eq haddress]
      rfl
  | relative width =>
      have hlt : operand < 0x100 ^ width := hoperand
      rw [targetAddress?_of_relative h, relativeTarget_eq haddress, signed_eq_displacement hlt]
      rfl
  | plain width => exact targetAddress?_of_plain h address operand

theorem targetAddress?_of_addressing?_none (h : mode.addressing? = none) (address operand : Nat) :
    targetAddress? mode address operand = none := by
  cases mode <;> first | rfl | cases h

theorem width_lt_of_addressing? (h : mode.addressing? = some addressing) :
    0 < addressing.width ∧ addressing.width < 4 := by
  cases mode <;> cases h <;> decide

end Mode

theorem numberAt_lt (image : Image) (offset width : Nat) :
    image.numberAt offset width < 0x100 ^ width := by
  have hlt := ofDigits_toNat_lt (image.bytesFrom offset width)
  rwa [Image.length_bytesFrom] at hlt

/-- The operand of an instruction in the image is the number in the bytes behind the opcode. -/
theorem operand?_eq_numberAt {op : Opcode} {image : Image} {offset : Nat} {status : StatusFlags}
    {width : Nat} (hlength : op.length status = width + 1) (hwidth : 0 < width ∧ width < 4)
    (hend : offset + (width + 1) ≤ image.size) :
    op.operand? image offset status = some (image.numberAt (offset + 1) width) := by
  have hlt := numberAt_lt image (offset + 1) width
  have hpow : 0x100 ^ width ≤ 0x100 ^ 3 := Nat.pow_le_pow_right (by decide) (by omega)
  unfold Opcode.operand?
  dsimp only
  rw [hlength, if_neg (by omega), Image.slice?_eq_some hend, Option.map_some,
    Image.tail_bytesFrom, littleEndian_eq_ofDigits, Nat.add_sub_cancel]
  exact congrArg some (Nat.mod_eq_of_lt (hlt.trans_le (hpow.trans (by decide))))

/-! ### What is noted -/

/-- What is noted about the operand of an instruction. -/
structure Reference where
  address : Option Nat
  offset : Option Nat
  direct : Bool

/-- Nothing is noted. -/
def Reference.blank : Reference := ⟨none, none, false⟩

def reference (a : Attribute) : Reference :=
  ⟨a.operandAddress, a.operandOffset, a.operandIsDirect⟩

/-- The operand at `i` refers to an address. -/
def Reference.ofTarget (setup : Setup) (i target : Nat) : Reference :=
  ⟨some target, setup.map.offsetOf? i target,
    (setup.map.offsetOf? i target).isSome && (setup.opcodeAt i).mode.isDirect⟩

/-- What there is to note about the operand of the instruction at `i`, with no regard to the
status. -/
def referenceAt (setup : Setup) (i : Nat) : Reference :=
  let op := setup.opcodeAt i
  ((op.operand? setup.image i .unspecified).bind
    (targetAddress? op.mode ((setup.map.addressOf? i).getD 0))).elim .blank (.ofTarget setup i)

section Reading

variable {setup : Setup} {i : Nat} {a b : Attribute}

theorem bind_targetAddress?_eq_none {mode : AddressMode} (h : targetAddress? mode 0 0 = none)
    (operand? : Option Nat) (address : Nat) :
    operand?.bind (targetAddress? mode address) = none := by
  cases operand? with
  | none => rfl
  | some operand => exact targetAddress?_eq_none h address operand

/-- What an operand names does not depend on the status. -/
theorem bind_targetAddress?_congr (op : Opcode) (image : Image) (address offset : Nat)
    (status other : StatusFlags) :
    (op.operand? image offset status).bind (targetAddress? op.mode address)
      = (op.operand? image offset other).bind (targetAddress? op.mode address) := by
  cases hmode : targetAddress? op.mode 0 0 with
  | none => rw [bind_targetAddress?_eq_none hmode, bind_targetAddress?_eq_none hmode]
  | some target => rw [operand?_congr (length_eq_of_targetAddress? hmode status other)]

theorem reference_resolveOperand (a : Attribute) :
    reference (resolveOperand setup i (setup.opcodeAt i) a)
      = (((setup.opcodeAt i).operand? setup.image i a.status).bind
          (targetAddress? (setup.opcodeAt i).mode a.address)).elim (reference a)
            (.ofTarget setup i) := by
  unfold resolveOperand
  cases (setup.opcodeAt i).operand? setup.image i a.status with
  | none => rfl
  | some operand =>
      dsimp only [Option.bind_some]
      cases targetAddress? (setup.opcodeAt i).mode a.address operand with
      | none => rfl
      | some target => rfl

theorem referenceAt_of_not_refers (h : ¬ RefersToAddress setup i) :
    referenceAt setup i = .blank := by
  have hnone : targetAddress? (setup.opcodeAt i).mode 0 0 = none := by
    by_contra hc
    exact h (Option.ne_none_iff_exists'.mp hc)
  unfold referenceAt
  dsimp only
  rw [bind_targetAddress?_eq_none hnone]
  rfl

theorem reference_eq (h : SameDecoding a b) : reference b = reference a := by
  unfold reference
  rw [h.operandAddress, h.operandOffset, h.operandIsDirect]

theorem reference_noteBranch (op : Opcode) (status : StatusFlags) (target : Option Nat)
    (a : Attribute) : reference (noteBranch op status target a) = reference a := by
  unfold noteBranch
  dsimp only
  split <;> rfl

/-- The first decoding notes what there is to note, unless it is noted already. -/
theorem reference_decodedByte_first (hfirst : a.isVisited = false)
    (haddress : a.address = (setup.map.addressOf? i).getD 0)
    (ha : reference a = .blank ∨ reference a = referenceAt setup i) :
    reference (decodedByte setup i a) = referenceAt setup i := by
  have hclaimed := sameDecoding_claimByte
    { (visitByte a).mark .instructionStart with
      instructionLength := (setup.opcodeAt i).length a.status }
  unfold decodedByte decodeByte
  dsimp only
  rw [hfirst, reference_noteBranch]
  simp only [Bool.not_false, if_true]
  rw [reference_resolveOperand, reference_eq hclaimed, hclaimed.address, claimByte_status]
  show (((setup.opcodeAt i).operand? setup.image i a.status).bind
    (targetAddress? (setup.opcodeAt i).mode a.address)).elim (reference a) (.ofTarget setup i) = _
  rw [haddress, bind_targetAddress?_congr _ _ _ _ a.status .unspecified]
  unfold referenceAt at ha ⊢
  dsimp only at ha ⊢
  cases hnamed : ((setup.opcodeAt i).operand? setup.image i .unspecified).bind
      (targetAddress? (setup.opcodeAt i).mode ((setup.map.addressOf? i).getD 0)) with
  | none =>
      rw [hnamed] at ha
      exact ha.elim id id
  | some target => rfl

/-- A later decoding notes nothing new. -/
theorem reference_decodedByte_again (hagain : a.isVisited = true) :
    reference (decodedByte setup i a) = reference a := by
  have hclaimed := sameDecoding_claimByte
    { (visitByte a).mark .instructionStart with
      instructionLength := (setup.opcodeAt i).length a.status }
  unfold decodedByte decodeByte
  dsimp only
  rw [hagain, reference_noteBranch]
  simp only [Bool.not_true, Bool.false_eq_true, if_false]
  exact (reference_eq hclaimed).trans rfl

end Reading

/-- Nothing is noted of the operand, or what there is to note; the latter once the byte has been
visited, if the instruction fits there. -/
structure Referring (setup : Setup) (i : Nat) (a : Attribute) : Prop where
  correct : reference a = .blank ∨ reference a = referenceAt setup i
  complete : a.isVisited = true → RefersToAddress setup i →
    FitsAt setup i ((setup.opcodeAt i).length .unspecified) → reference a = referenceAt setup i

namespace Referring

variable {setup : Setup} {i : Nat} {a b : Attribute}

theorem congr (ha : Referring setup i a) (hvisited : b.isVisited = a.isVisited)
    (hreference : reference b = reference a) : Referring setup i b := by
  refine ⟨?_, fun hv => ?_⟩ <;> rw [hreference]
  · exact ha.correct
  · exact ha.complete (hvisited.symm.trans hv)

/-- A visit that decodes nothing changes no note; if it is the first, there was nothing to note or
the instruction does not fit. -/
theorem undecoded (ha : Referring setup i a) (hreference : reference b = reference a)
    (hwhy : a.isVisited = false → RefersToAddress setup i →
      ¬ FitsAt setup i ((setup.opcodeAt i).length .unspecified)) : Referring setup i b := by
  refine ⟨?_, fun _ hrefers hfits => ?_⟩ <;> rw [hreference]
  · exact ha.correct
  · by_cases hv : a.isVisited = true
    · exact ha.complete hv hrefers hfits
    · exact absurd hfits (hwhy (by simpa using hv) hrefers)

theorem finishes {stops : Bool} (ha : Referring setup i a)
    (haddress : a.address = (setup.map.addressOf? i).getD 0)
    (h : Finishes setup False i stops (decodedByte setup i a) b) : Referring setup i b := by
  have hreference := reference_eq h.sameDecoding
  by_cases hv : a.isVisited = true
  · rw [reference_decodedByte_again hv] at hreference
    refine ha.undecoded hreference fun hc => ?_
    rw [hv] at hc
    cases hc
  · rw [Bool.not_eq_true] at hv
    rw [reference_decodedByte_first hv haddress ha.correct] at hreference
    exact ⟨Or.inr hreference, fun _ _ _ => hreference⟩

theorem becomes {s : State ν σ} (hi : Referring setup i (s.info i)) (h : Becomes setup False i s b)
    (hopen : i < setup.image.size → (s.info i).isVisited = false → isBlocked (s.info i) = false)
    (hplaced : Placed setup s) : Referring setup i b := by
  cases h with
  | kept _ => exact hi
  | halted hin hstop =>
      refine hi.undecoded rfl fun hv hrefers _ => ?_
      rcases hstop with hblocked | hinvalid
      · rw [hopen hin hv] at hblocked
        cases hblocked
      · exact not_refersToAddress_of_invalid hinvalid hrefers
  | rejected _ hleaves =>
      refine hi.undecoded rfl fun _ hrefers hfits => ?_
      obtain ⟨target, htarget⟩ := hrefers
      have hlength : (setup.opcodeAt i).length .unspecified
          = (setup.opcodeAt i).length (s.info i).status :=
        length_eq_of_targetAddress? htarget _ _
      rw [hlength, ← hplaced.staysInRegion_iff, hleaves] at hfits
      cases hfits
  | executed hin _ _ _ hfinish => exact hi.finishes (hplaced.address i hin) hfinish

end Referring

/-! ### Along the steps -/

/-- Every byte in line for its first visit is open, and what is noted about operands is right. -/
structure AllReferring (setup : Setup) (c : Config ν σ) : Prop where
  consistent : Consistent setup c
  opened : c.Open setup
  bytes : ∀ i, Referring setup i (c.state.info i)

theorem step_allReferring {setup : Setup} {c d : Config ν σ} (hc : AllReferring setup c)
    (h : step setup c = some d) : AllReferring setup d := by
  have hplaced := hc.consistent.placed
  refine ⟨step_consistent hc.consistent h, step_open hc.consistent hc.opened h, fun i => ?_⟩
  rcases step_cases h with ⟨offset, hcurrent, rfl⟩ | ⟨target, rest, _, _, rfl⟩
    | ⟨_, _, _, _, rfl⟩ | ⟨_, _, _, _, rfl⟩
  · have hvisits := hc.consistent.visits offset
    by_cases hio : i = offset
    · subst hio
      exact (hc.bytes i).becomes (hvisits.becomes hplaced.size) (hc.opened i (Or.inr hcurrent))
        hplaced
    · have hevolves := hvisits.others hio
      exact (hc.bytes i).congr hevolves.visited (reference_eq hevolves.sameDecoding)
  · exact hc.bytes i
  · refine (hc.bytes i).congr ?_ ?_ <;>
      · dsimp only
        rw [info_enter]
        split <;> simp [reference]
  · exact hc.bytes i

theorem startConfig_allReferring (setup : Setup) :
    AllReferring setup (startConfig setup ([] : List (Plugin ν σ))) := by
  refine ⟨startConfig_consistent setup, fun i hi => absurd hi (startConfig_awaits setup [] i),
    fun i => ⟨Or.inl ?_, fun hv => ?_⟩⟩
  · rw [startConfig_info, info_prepare]
    split
    · unfold Setup.prepareByte
      dsimp only
      cases setup.hintMark? i <;> cases setup.map.isRegionStart i <;> rfl
    · rfl
  · rw [startConfig_info, Attribute.isVisited, info_prepare_has i (by decide)] at hv
    cases hv

theorem Settled.reference {a b : Attribute} (h : Settled a b) :
    Flow.reference b = Flow.reference a := by
  rcases h with rfl | ⟨_, rfl⟩
  · rfl
  · unfold settleByte
    split
    · split <;> rfl
    · rfl

/-! ### In the result -/

section Result

variable {setup : Setup}

theorem address_lt (hmap : setup.map.Valid) (i : Nat) :
    (setup.map.addressOf? i).getD 0 < 0x80000000 := by
  cases haddress : setup.map.addressOf? i with
  | none => decide
  | some address =>
      obtain ⟨region, hr, hholds, rfl⟩ := hmap.addressOf?_eq_some_iff.mp haddress
      obtain ⟨_, _, _, hlimit⟩ := hmap.follow.mem hr
      obtain ⟨hlow, hhigh⟩ := hholds
      rw [Option.getD_some]
      omega

/-- What there is to note about an operand is what its mode says about its bytes. -/
theorem referenceAt_eq (hmap : setup.map.Valid) {i length : Nat} {addressing : Addressing}
    (hmode : (setup.opcodeAt i).mode.addressing? = some addressing)
    (hlength : length = addressing.width + 1) (hfits : FitsAt setup i length) :
    referenceAt setup i
      = .ofTarget setup i (addressing.target ((setup.map.addressOf? i).getD 0) length
          (setup.image.numberAt (i + 1) addressing.width)) := by
  subst hlength
  have hoperand := operand?_eq_numberAt
    (length_of_addressing? hmode .unspecified) (width_lt_of_addressing? hmode) hfits.1
  unfold referenceAt
  dsimp only
  rw [hoperand, Option.bind_some,
    targetAddress?_of_addressing? hmode (address_lt hmap i) (numberAt_lt _ _ _)]
  rfl

/-- Nothing is noted, or the target that the operand names. -/
theorem Referring.cases {i : Nat} {a : Attribute} (h : Referring setup i a) :
    reference a = .blank ∨ ∃ target, reference a = .ofTarget setup i target := by
  rcases h.correct with hblank | hnoted
  · exact Or.inl hblank
  · rw [hnoted, referenceAt]
    cases ((setup.opcodeAt i).operand? setup.image i .unspecified).bind
        (targetAddress? (setup.opcodeAt i).mode ((setup.map.addressOf? i).getD 0)) with
    | none => exact Or.inl rfl
    | some target => exact Or.inr ⟨target, rfl⟩

/-- What is noted where an instruction starts is what its mode says. -/
theorem Referring.operandAddress {i : Nat} {a : Attribute} (h : Referring setup i a)
    (hmap : setup.map.Valid) (hwell : DecodedWell setup i a) (hunchanged : a.isChanged = false)
    (hstart : a.isInstructionStart = true) :
    a.operandAddress = (setup.opcodeAt i).mode.addressing?.map fun addressing =>
      addressing.target ((setup.map.addressOf? i).getD 0) a.instructionLength
        (setup.image.numberAt (i + 1) addressing.width) := by
  have haddress : (reference a).address = a.operandAddress := rfl
  rw [← haddress]
  cases hmode : (setup.opcodeAt i).mode.addressing? with
  | none =>
      have hnot : ¬ RefersToAddress setup i := by
        rintro ⟨target, htarget⟩
        rw [targetAddress?_of_addressing?_none hmode] at htarget
        cases htarget
      have hblank := h.correct
      rw [referenceAt_of_not_refers hnot, or_self] at hblank
      rw [hblank]
      rfl
  | some addressing =>
      have hlength := length_of_addressing? hmode
      have hown : a.instructionLength = addressing.width + 1 :=
        (hwell.length hstart hunchanged).trans (hlength a.status)
      have hfits := hwell.fits hstart
      have hrefers : RefersToAddress setup i :=
        ⟨_, targetAddress?_of_addressing? hmode (by decide) (Nat.pow_pos (by decide))⟩
      have hnoted := h.complete (hwell.visited hstart) hrefers
        (by rw [Opcode.length, hlength, ← hown]; exact hfits)
      rw [hnoted, referenceAt_eq hmap hmode hown hfits]
      rfl

variable {s : State ν σ} (h : analyze setup [] (Attributes.blank setup.image.size) = .ok s)

include h

theorem analyze_addressOf? (hmap : setup.map.Valid) {i : Nat} (hi : i < setup.image.size) :
    setup.map.addressOf? i = some (s.attributes.info i).address := by
  obtain ⟨hcheck, rfl⟩ := analyze_eq_ok.mp h
  have htotal := (check_eq_ok.mp hcheck).2.1
  obtain ⟨address, haddress⟩ := hmap.exists_addressOf? (by rw [htotal]; exact hi)
  rw [outcome_address setup _ hi, haddress, Option.getD_some]

theorem analyze_reference (i : Nat) :
    reference (s.attributes.info i) = .blank
      ∨ ∃ target, reference (s.attributes.info i) = .ofTarget setup i target := by
  obtain ⟨n, _, t, hsteps, _, houtcome⟩ := outcome_reached setup ([] : List (Plugin ν σ))
  obtain ⟨_, rfl⟩ := analyze_eq_ok.mp h
  have hreferring := hsteps.preserves step_allReferring (startConfig_allReferring setup)
  rw [houtcome, (info_settle t.attributes i).reference]
  exact (hreferring.bytes i).cases

theorem analyze_operandAddress (hmap : setup.map.Valid) {i : Nat}
    (hstart : (s.attributes.info i).isInstructionStart = true) :
    (s.attributes.info i).operandAddress
      = (setup.opcodeAt i).mode.addressing?.map fun addressing =>
          addressing.target ((setup.map.addressOf? i).getD 0)
            (s.attributes.info i).instructionLength
            (setup.image.numberAt (i + 1) addressing.width) := by
  obtain ⟨n, _, t, hsteps, hend, houtcome⟩ := outcome_reached setup ([] : List (Plugin ν σ))
  obtain ⟨_, rfl⟩ := analyze_eq_ok.mp h
  have hreferring := hsteps.preserves step_allReferring (startConfig_allReferring setup)
  rw [houtcome] at hstart ⊢
  have hsame := (info_settle t.attributes i).eq_of_start hstart
  dsimp only at hstart ⊢
  rw [hsame] at hstart ⊢
  refine (hreferring.bytes i).operandAddress hmap (hreferring.consistent.bytes i) ?_ hstart
  -- nothing is in line any more, so nothing has changed since it was decoded
  by_contra hchanged
  exact Config.not_awaits rfl hend i (hreferring.consistent.changed i (by simpa using hchanged))

end Result

/-- **What is noted about operands is what the image says.**  Where an instruction starts, the
address is the one that its mode makes of its own bytes, and there is none if the mode names none.
An offset that is noted lies in the image and has that address; that none is noted means that no
byte has it. -/
theorem analyze_operands (setup : Setup) (hmap : setup.map.Valid) (s : State ν σ)
    (h : analyze setup [] (Attributes.blank setup.image.size) = .ok s) (o : Nat) :
    let a := s.attributes.info o
    (a.isInstructionStart = true →
        a.operandAddress = (setup.opcodeAt o).mode.addressing?.map fun addressing =>
          addressing.target a.address a.instructionLength
            (setup.image.numberAt (o + 1) addressing.width))
      ∧ (∀ t, a.operandOffset = some t →
          t < setup.image.size ∧ a.operandAddress = some (s.attributes.info t).address)
      ∧ (∀ address, a.operandAddress = some address → a.operandOffset = none →
          ∀ i < setup.image.size, (s.attributes.info i).address ≠ address)
      ∧ (a.operandIsDirect = true → a.operandOffset.isSome = true) := by
  have htotal := (check_eq_ok.mp (analyze_eq_ok.mp h).1).2.1
  have hsize : s.attributes.size = setup.image.size := by
    rw [(analyze_eq_ok.mp h).2, size_outcome]
  have hcases := analyze_reference h o
  refine ⟨fun hs => ?_, fun t ht => ?_, fun address ha hnone i hi => ?_, fun hdirect => ?_⟩
  · have hlt : o < setup.image.size := by
      by_contra hc
      rw [Attributes.info_of_size_le (by omega)] at hs
      cases hs
    rw [analyze_operandAddress h hmap hs, analyze_addressOf? h hmap hlt, Option.getD_some]
  · rcases hcases with hblank | ⟨target, hnoted⟩
    · cases ht.symm.trans (congrArg Reference.offset hblank)
    · have hplace : setup.map.offsetOf? o target = some t :=
        (congrArg Reference.offset hnoted).symm.trans ht
      have hlt : t < setup.image.size := htotal ▸ hmap.offsetOf?_lt hplace
      refine ⟨hlt, (congrArg Reference.address hnoted).trans ?_⟩
      rw [← analyze_addressOf? h hmap hlt, hmap.addressOf?_of_offsetOf? hplace]
      rfl
  · rcases hcases with hblank | ⟨target, hnoted⟩
    · cases ha.symm.trans (congrArg Reference.address hblank)
    · cases ha.symm.trans (congrArg Reference.address hnoted)
      have hplace : setup.map.offsetOf? o address = none :=
        (congrArg Reference.offset hnoted).symm.trans hnone
      rintro rfl
      exact hmap.offsetOf?_eq_none.mp hplace i (analyze_addressOf? h hmap hi)
  · rcases hcases with hblank | ⟨target, hnoted⟩
    · cases hdirect.symm.trans (congrArg Reference.direct hblank)
    · have hboth := (congrArg Reference.direct hnoted).symm.trans hdirect
      refine (congrArg Option.isSome (congrArg Reference.offset hnoted)).trans ?_
      exact (Bool.and_eq_true_iff.mp hboth).1

/-- A branch at the end of a bank.  It is counted past the end and so leads to the start of its own
bank, which the second region holds. -/
def bankEnd : Setup where
  image := #[0xd0, 0x02, 0xea, 0x60, 0x60]
  processor := ⟨.wide65816, true, OpcodeTable.blank.overlay
    [Layer.branch 0xd0 .bne .zero false, Layer.plain 0xea .nop .implied .keep,
     Layer.op 0x60 .rts .stackRts .stop .keep]⟩
  map := ⟨[⟨0, 4, 0x1fffc⟩, ⟨4, 1, 0x10000⟩], 5⟩
  parameters := .initial
  hints := #[.code, .unset, .unset, .unset, .unset]
  overrides := #[]
  entryStatus := .indeterminate

theorem analyze_operands_bankEnd :
    ∃ s : State Unit Unit, bankEnd.map.Valid
      ∧ analyze bankEnd [] (Attributes.blank bankEnd.image.size) = .ok s
      ∧ (s.attributes.info 0).isInstructionStart = true
      ∧ (s.attributes.info 0).operandAddress = some 0x10000
      ∧ (s.attributes.info 0).operandOffset = some 4
      ∧ (s.attributes.info 4).address = 0x10000 := by
  have hmap : bankEnd.map.Valid := ⟨by decide, by decide, by decide⟩
  have hanalyze : analyze bankEnd [] (Attributes.blank bankEnd.image.size)
      = .ok (outcome bankEnd ([] : List (Plugin Unit Unit))) :=
    analyze_eq_ok.mpr ⟨check_eq_ok.mpr (by decide), rfl⟩
  have hnoted : ∃ a, (outcome bankEnd ([] : List (Plugin Unit Unit))).attributes.info 0 = a
      ∧ (a.isInstructionStart, a.instructionLength, a.address, a.operandOffset)
        = (true, 2, 0x1fffc, some 4) := ⟨_, rfl, by decide +kernel⟩
  simp only [exists_eq_left', Prod.mk.injEq] at hnoted
  obtain ⟨hstart, hlength, haddress, hoffset⟩ := hnoted
  obtain ⟨htarget, hplace, -, -⟩ := analyze_operands bankEnd hmap _ hanalyze 0
  have hnamed : ((outcome bankEnd ([] : List (Plugin Unit Unit))).attributes.info
      0).operandAddress = some 0x10000 := by
    rw [htarget hstart, hlength, haddress]
    decide +kernel
  refine ⟨_, hmap, hanalyze, hstart, hnamed, hoffset, ?_⟩
  exact (Option.some.inj (hnamed.symm.trans (hplace 4 hoffset).2)).symm

end Flow

end Disasm65
