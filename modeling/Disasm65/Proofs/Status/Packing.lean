/-
The packed form of a status, and the words that hold it.

Packed, a status has a bit for each mark of a flag and no other (`testBit_pack`).  Reading takes
exactly the packed forms back and refuses every other number (`unpack_eq_ok_iff`,
`unpack_eq_error_iff`).  A machine holds the marks in two words of sixteen bits, seven more in each
than there are flags (`padded`); what is done to the flags can be done to those words, and the seven
stay clear.
-/
import Mathlib
import Disasm65.Proofs.Status.Join
import Disasm65.Proofs.Status.Values

namespace Disasm65

namespace StatusFlags

/-! ### The packed form -/

/-- Bit `i` of a packed status is a mark of a flag. -/
def IsMark (i : Nat) : Prop := ∃ flag : Flag, i = flag.position ∨ i = flag.position + 16

theorem IsMark.lt {i : Nat} (h : IsMark i) : i < 9 ∨ 16 ≤ i ∧ i < 25 := by
  obtain ⟨flag, hflag⟩ := h
  have := flag.position_lt
  omega

theorem testBit_pack (status : StatusFlags) (i : Nat) :
    status.pack.testBit i
      = if i < 16 then status.bits.zero.getLsbD i else status.bits.one.getLsbD (i - 16) := by
  have hlow : status.bits.zero.toNat < 2 ^ 16 :=
    Nat.lt_of_lt_of_le status.bits.zero.isLt (by decide)
  rw [pack, Nat.add_comm, Nat.mul_comm, show 0x10000 = 2 ^ 16 from rfl,
    Nat.testBit_two_pow_mul_add _ hlow]
  rfl

/-- Every bit of the packed form is the mark of a flag. -/
theorem isMark_of_testBit_pack {status : StatusFlags} {i : Nat}
    (h : status.pack.testBit i = true) : IsMark i := by
  rw [testBit_pack] at h
  split at h
  · obtain ⟨flag, hflag⟩ := Flag.position_surjective (BitVec.lt_of_getLsbD h)
    exact ⟨flag, Or.inl hflag.symm⟩
  · obtain ⟨flag, hflag⟩ := Flag.position_surjective (BitVec.lt_of_getLsbD h)
    exact ⟨flag, Or.inr (by omega)⟩

theorem pack_mod (status : StatusFlags) : status.pack % 0x10000 = status.bits.zero.toNat := by
  have := status.bits.zero.isLt
  unfold pack
  omega

theorem pack_div (status : StatusFlags) : status.pack / 0x10000 = status.bits.one.toNat := by
  have := status.bits.zero.isLt
  unfold pack
  omega

theorem unpack_pack (status : StatusFlags) : unpack status.pack = .ok status := by
  rw [unpack, pack_mod, pack_div, if_pos ⟨status.bits.zero.isLt, status.bits.one.isLt⟩,
    BitVec.ofNat_toNat, BitVec.ofNat_toNat, BitVec.setWidth_eq, BitVec.setWidth_eq]

/-- **Exactly the packed form of a status is read as that status.** -/
theorem unpack_eq_ok_iff {value : Nat} {status : StatusFlags} :
    unpack value = .ok status ↔ status.pack = value := by
  constructor
  · intro h
    unfold unpack at h
    dsimp only at h
    split at h
    · rename_i hbits
      cases h
      rw [pack, BitVec.toNat_ofNat, BitVec.toNat_ofNat, Nat.mod_eq_of_lt hbits.1,
        Nat.mod_eq_of_lt hbits.2]
      omega
    · cases h
  · rintro rfl
    exact unpack_pack status

theorem fault_of_unpack {value : Nat} {fault : Fault} (h : unpack value = .error fault) :
    fault = .undefinedStatusBits value := by
  unfold unpack at h
  dsimp only at h
  split at h
  · cases h
  · cases h
    rfl

/-- What is not a packed form is refused, with the number itself. -/
theorem unpack_eq_error_iff {value : Nat} {fault : Fault} :
    unpack value = .error fault
      ↔ fault = .undefinedStatusBits value ∧ ∀ status : StatusFlags, status.pack ≠ value := by
  constructor
  · intro h
    refine ⟨fault_of_unpack h, fun status hpack => ?_⟩
    rw [unpack_eq_ok_iff.mpr hpack] at h
    cases h
  · rintro ⟨rfl, hnone⟩
    cases hread : unpack value with
    | ok status => exact absurd (unpack_eq_ok_iff.mp hread) (hnone status)
    | error fault => rw [fault_of_unpack hread]

/-- **The packed forms are the numbers whose bits are marks of flags.** -/
theorem exists_pack_iff {value : Nat} :
    (∃ status : StatusFlags, status.pack = value)
      ↔ ∀ i, value.testBit i = true → IsMark i := by
  constructor
  · rintro ⟨status, rfl⟩ i hi
    exact isMark_of_testBit_pack hi
  · intro hmarks
    have hlow : value % 2 ^ 16 < 2 ^ 9 := by
      refine Nat.lt_pow_two_of_testBit _ fun i hi => ?_
      rw [Nat.testBit_mod_two_pow, Bool.and_eq_false_iff, decide_eq_false_iff_not]
      by_contra! hbit
      have := (hmarks i (Bool.eq_true_of_not_eq_false hbit.2)).lt
      omega
    have hhigh : value / 2 ^ 16 < 2 ^ 9 := by
      refine Nat.lt_pow_two_of_testBit _ fun i hi => ?_
      rw [Nat.testBit_div_two_pow]
      by_contra hbit
      have := (hmarks (i + 16) (Bool.eq_true_of_not_eq_false hbit)).lt
      omega
    exact ⟨_, unpack_eq_ok_iff.mp (if_pos ⟨hlow, hhigh⟩)⟩

/-! ### Words of sixteen marks -/

/-- The marks of the nine flags in two words of sixteen. -/
def padded (status : StatusFlags) : TriState 16 :=
  ⟨status.bits.zero.setWidth 16, status.bits.one.setWidth 16⟩

@[simp]
theorem get_padded (status : StatusFlags) (i : Nat) : status.padded.get i = status.bits.get i := by
  have hwiden : ∀ marks : BitVec 9, (marks.setWidth 16).getLsbD i = marks.getLsbD i := by
    intro marks
    rw [BitVec.getLsbD_setWidth]
    by_cases hi : i < 16
    · rw [decide_eq_true hi, Bool.true_and]
    · rw [decide_eq_false hi, Bool.false_and, BitVec.getLsbD_of_ge _ _ (by omega)]
  rw [TriState.get, TriState.get, padded, hwiden, hwiden]

theorem padded_set (status : StatusFlags) (flag : Flag) (state : BitState) :
    (status.set flag state).padded = status.padded.set flag.position state := by
  have hlt := flag.position_lt
  refine TriState.ext_get fun i _ => ?_
  rw [get_padded, set, TriState.get_set _ hlt, TriState.get_set _ (by omega), get_padded]

theorem padded_merge (status other : StatusFlags) :
    (status.merge other).padded = status.padded.merge other.padded := by
  refine TriState.ext_get fun i _ => ?_
  rw [get_padded, merge, TriState.get_merge, TriState.get_merge, get_padded, get_padded]

theorem padded_apply (status overrides : StatusFlags) :
    (status.apply overrides).padded = status.padded.apply overrides.padded := by
  refine TriState.ext_get fun i _ => ?_
  rw [get_padded, apply, TriState.get_apply, TriState.get_apply, get_padded, get_padded]

end StatusFlags

namespace TriState

/-- The flags among sixteen marks. -/
def flags (words : TriState 16) : StatusFlags :=
  ⟨⟨words.zero.setWidth 9, words.one.setWidth 9⟩⟩

/-- Both words in one number: "could be zero" low, "could be one" high. -/
def packed (words : TriState 16) : Nat := words.zero.toNat + words.one.toNat * 0x10000

/-- The two halves of a number. -/
def halves (value : Nat) : TriState 16 :=
  ⟨BitVec.ofNat 16 (value % 0x10000), BitVec.ofNat 16 (value / 0x10000)⟩

@[simp]
theorem flags_padded (status : StatusFlags) : status.padded.flags = status := by
  rw [flags, StatusFlags.padded, BitVec.setWidth_setWidth_of_le _ (by decide),
    BitVec.setWidth_setWidth_of_le _ (by decide), BitVec.setWidth_eq, BitVec.setWidth_eq]

@[simp]
theorem packed_padded (status : StatusFlags) : status.padded.packed = status.pack := by
  rw [packed, StatusFlags.padded, BitVec.toNat_setWidth_of_le (by decide),
    BitVec.toNat_setWidth_of_le (by decide), StatusFlags.pack]

/-- The halves of a packed status are the words that hold it. -/
theorem halves_pack (status : StatusFlags) : halves status.pack = status.padded := by
  rw [halves, status.pack_mod, status.pack_div, BitVec.ofNat_toNat, BitVec.ofNat_toNat,
    StatusFlags.padded]

end TriState

end Disasm65
