/-
Numbers in the image, read as data and read as operands.

Low byte first, the bytes at an offset are digits in base 256, and the number they spell is taken as
a 32-bit word; high byte first, it is the same of the bytes turned round
(`Image.readWord_lowFirst`, `Image.readWord_highFirst`).  The operand of an instruction is the word
behind its opcode, and an immediate operand is that word at the width it says it has
(`Opcode.operand?_eq`, `Opcode.immediate?_eq_some_iff`).

All this is read at any offset, in the image or not, as long as what is read ends at a word; past
the last word there is a fault (`Image.words_positional`).
-/
import Mathlib
import Disasm65.Cpu.Layer
import Disasm65.Proofs.Cpu.Immediate

namespace Disasm65

namespace Image

variable {image : Image} {offset length : Nat}

/-! ### Words -/

/-- The digit of a byte counts by its position. -/
theorem ofDigits_bytesFrom (image : Image) (offset length : Nat) :
    Nat.ofDigits 0x100 ((image.bytesFrom offset length).map (·.toNat))
      = ∑ i ∈ Finset.range length, (image.byteAt (offset + i)).toNat * 0x100 ^ i := by
  induction length generalizing offset with
  | zero => rfl
  | succ length ih =>
      have hshift : ∀ i, (image.byteAt (offset + (i + 1))).toNat * 0x100 ^ (i + 1)
          = 0x100 * ((image.byteAt (offset + 1 + i)).toNat * 0x100 ^ i) := by
        intro i
        rw [show offset + (i + 1) = offset + 1 + i by omega, pow_succ]
        ring
      rw [bytesFrom_succ, List.map_cons, Nat.ofDigits_cons, ih, Finset.sum_range_succ',
        Finset.sum_congr rfl fun i _ => hshift i, ← Finset.mul_sum, pow_zero,
        Nat.mul_one]
      exact Nat.add_comm _ _

/-- **Low byte first, a byte counts 256 to the power of its position.** -/
theorem readWord_lowFirst (h : offset + length ≤ image.size) :
    image.readWord offset length .lowFirst
      = (∑ i ∈ Finset.range length, (image.byteAt (offset + i)).toNat * 0x100 ^ i) % 2 ^ 32 := by
  rw [readWord, slice?_eq_some h, Option.getD_some, littleEndian_eq_ofDigits, ofDigits_bytesFrom]
  rfl

/-- All bytes are a slice. -/
theorem slice?_size (image : Image) : image.slice? 0 image.size = some image.toList := by
  rw [slice?, if_pos (by omega), Nat.zero_add, Array.extract_size]

/-- **High byte first, the bytes are read as the turned bytes are low byte first.** -/
theorem readWord_highFirst (h : offset + length ≤ image.size) :
    image.readWord offset length .highFirst
      = readWord (image.extract offset (offset + length)).reverse 0 length .lowFirst := by
  have hsize : (image.extract offset (offset + length)).reverse.size = length := by
    rw [Array.size_reverse, Array.size_extract]
    omega
  have hturned := slice?_size (image.extract offset (offset + length)).reverse
  rw [hsize] at hturned
  rw [readWord, readWord, hturned, slice?, if_pos h, Option.getD_some, Option.getD_some,
    Array.toList_reverse]
  exact bigEndian_eq_littleEndian_reverse _

/-- A slice that is not all in the image reads as zero. -/
theorem readWord_of_outside (h : image.size < offset + length) (order : ByteOrder) :
    image.readWord offset length order = 0 := by
  unfold readWord
  rw [slice?, if_neg (by omega)]
  cases order <;> rfl

theorem readWord_lowFirst_lt (h : offset + length ≤ image.size) :
    image.readWord offset length .lowFirst < 0x100 ^ length := by
  have hlt := ofDigits_toNat_lt (image.bytesFrom offset length)
  rw [ofDigits_bytesFrom, length_bytesFrom] at hlt
  rw [readWord_lowFirst h]
  exact (Nat.mod_le _ _).trans_lt hlt

end Image

/-! ### Operands -/

/-- There is something behind the opcode. -/
def AddressMode.hasOperand : AddressMode → Bool
  | .undefined | .accumulator | .implied | .stackPull | .stackPush | .stackRti | .stackRtl
  | .stackRts => false
  | _ => true

theorem AddressMode.two_le_length_iff (mode : AddressMode) (status : StatusFlags) :
    2 ≤ mode.length status ↔ mode.hasOperand = true := by
  cases mode with
  | immAccumulator | immIndex =>
      -- the width of the operand follows the status, that there is one does not
      refine iff_of_true ?_ rfl
      unfold length
      dsimp only
      split <;> decide
  | _ => simp [length, hasOperand]

namespace Opcode

variable {op : Opcode} {image : Image} {offset : Nat} {status : StatusFlags}

/-- **The operand is the word behind the opcode.** -/
theorem operand?_eq (op : Opcode) (image : Image) (offset : Nat) (status : StatusFlags) :
    op.operand? image offset status
      = if op.mode.hasOperand = true ∧ offset + op.length status ≤ image.size then
          some (image.readWord (offset + 1) (op.length status - 1) .lowFirst)
        else none := by
  have hlength : 2 ≤ op.length status ↔ op.mode.hasOperand = true :=
    op.mode.two_le_length_iff status
  unfold operand?
  dsimp only
  by_cases hhas : op.mode.hasOperand = true
  · rw [if_neg (Nat.not_lt.mpr (hlength.mpr hhas))]
    by_cases hfits : offset + op.length status ≤ image.size
    · have hbehind : offset + 1 + (op.length status - 1) ≤ image.size := by
        have := hlength.mpr hhas
        omega
      rw [if_pos ⟨hhas, hfits⟩, Image.slice?_eq_some hfits, Image.readWord,
        Image.slice?_eq_some hbehind, Option.map_some, Image.tail_bytesFrom, Option.getD_some]
    · rw [if_neg fun h => hfits h.2, Image.slice?, if_neg hfits, Option.map_none]
  · rw [if_pos (Nat.lt_of_not_le fun h => hhas (hlength.mp h)), if_neg fun h => hhas h.1]

theorem operand?_eq_some_iff {value : Nat} :
    op.operand? image offset status = some value
      ↔ (op.mode.hasOperand = true ∧ offset + op.length status ≤ image.size)
        ∧ image.readWord (offset + 1) (op.length status - 1) .lowFirst = value := by
  rw [operand?_eq, Option.ite_none_right_eq_some, Option.some.injEq]

theorem operand?_lt {value : Nat} (h : op.operand? image offset status = some value) :
    value < 0x100 ^ (op.length status - 1) := by
  obtain ⟨⟨hhas, hfits⟩, rfl⟩ := operand?_eq_some_iff.mp h
  have hlength : 2 ≤ op.length status := (op.mode.two_le_length_iff status).mpr hhas
  exact Image.readWord_lowFirst_lt (by omega)

/-- **An immediate operand is the operand at the width it says.** -/
theorem immediate?_eq_some_iff {immediate : Immediate} :
    op.immediate? image offset status = some immediate
      ↔ op.mode.isImmediate = true ∧ ∃ value, op.operand? image offset status = some value
        ∧ immediate.wide = (op.length status == 3)
        ∧ immediate.value = value % 2 ^ (if immediate.wide then 16 else 8) := by
  unfold immediate?
  rw [Option.ite_none_right_eq_some, Option.map_eq_some_iff]
  refine and_congr_right fun hmode => exists_congr fun value => and_congr_right fun hvalue => ?_
  have htruncated : value % 0x10000 = value % 2 ^ (if op.length status == 3 then 16 else 8) := by
    have hlt := operand?_lt hvalue
    rcases AddressMode.length_of_isImmediate hmode status with hlength | hlength
    · rw [length, hlength] at hlt ⊢
      exact (Nat.mod_eq_of_lt (by omega)).trans (Nat.mod_eq_of_lt hlt).symm
    · rw [length, hlength]
      rfl
  obtain ⟨number, wide⟩ := immediate
  constructor
  · rintro ⟨⟩
    exact ⟨rfl, htruncated⟩
  · rintro ⟨hwide, hnumber⟩
    dsimp only at hwide hnumber
    subst hwide
    rw [htruncated, hnumber]

end Opcode

/-! ### Data and code read alike -/

section Fetch

variable {image : Image} {offset length : Nat} {order : ByteOrder} {op : Opcode}
  {status : StatusFlags}

theorem Image.fetchWord_of_lt (h : offset + length < 0x10000000000000000) :
    image.fetchWord offset length order = .ok (image.readWord offset length order) := by
  rw [fetchWord, addWords_of_lt h]
  rfl

theorem Image.fetchWord_of_le (h : 0x10000000000000000 ≤ offset + length) :
    image.fetchWord offset length order = .error (.overflow offset length) := by
  rw [fetchWord, addWords_of_le h]
  rfl

theorem Opcode.fetchOperand_of_lt
    (h : op.mode.hasOperand = true → offset + op.length status < 0x10000000000000000) :
    op.fetchOperand image offset status = .ok (op.operand? image offset status) := by
  unfold fetchOperand
  split
  · rename_i hshort
    have hnone : op.mode.hasOperand ≠ true := fun hhas =>
      Nat.not_le_of_lt hshort ((op.mode.two_le_length_iff status).mpr hhas)
    rw [operand?_eq, if_neg fun h => hnone h.1]
  · rename_i hlong
    rw [addWords_of_lt (h ((op.mode.two_le_length_iff status).mp (Nat.le_of_not_lt hlong)))]
    rfl

theorem Opcode.fetchOperand_of_le (hhas : op.mode.hasOperand = true)
    (h : 0x10000000000000000 ≤ offset + op.length status) :
    op.fetchOperand image offset status = .error (.overflow offset (op.length status)) := by
  have hlong : ¬ op.length status < 2 :=
    Nat.not_lt_of_le ((op.mode.two_le_length_iff status).mpr hhas)
  rw [fetchOperand, if_neg hlong, addWords_of_le h]
  rfl

theorem Opcode.fetchImmediate_of_lt
    (h : op.mode.hasOperand = true → offset + op.length status < 0x10000000000000000) :
    op.fetchImmediate image offset status = .ok (op.immediate? image offset status) := by
  unfold fetchImmediate
  split
  · rw [fetchOperand_of_lt h]
    rfl
  · rename_i hmode
    rw [immediate?, if_neg hmode]

end Fetch

/-- What is read as data. -/
structure Image.ReadsWords (image : Image) : Prop where
  /-- Low byte first the bytes are digits in base 256, of which a word holds what it can; high byte
  first they are read as the turned bytes are. -/
  inside : ∀ offset length, offset + length < 0x10000000000000000 →
    offset + length ≤ image.size →
    image.fetchWord offset length .lowFirst
        = .ok ((∑ i ∈ Finset.range length, (image.byteAt (offset + i)).toNat * 256 ^ i) % 2 ^ 32)
      ∧ image.fetchWord offset length .highFirst
        = fetchWord (image.extract offset (offset + length)).reverse 0 length .lowFirst
  /-- Where the bytes are not all in the image there is zero. -/
  outside : ∀ offset length order, offset + length < 0x10000000000000000 →
    image.size < offset + length → image.fetchWord offset length order = .ok 0
  past : ∀ offset length order, 0x10000000000000000 ≤ offset + length →
    image.fetchWord offset length order = .error (.overflow offset length)

/-- What is read as the operand of an instruction. -/
structure Opcode.ReadsOperand (op : Opcode) (image : Image) (offset : Nat) (status : StatusFlags) :
    Prop where
  /-- There is an operand exactly if the mode takes one and the instruction is all in the image.  It
  is the word behind the opcode, and an immediate operand is that word, cut to the width that is
  given with it. -/
  reads : (op.mode.hasOperand = true → offset + op.length status < 0x10000000000000000) →
    ∃ operand immediate?, op.fetchOperand image offset status = .ok operand
      ∧ op.fetchImmediate image offset status = .ok immediate?
      ∧ (operand.isSome = true
          ↔ op.mode.hasOperand = true ∧ offset + op.length status ≤ image.size)
      ∧ (∀ value, operand = some value →
          image.fetchWord (offset + 1) (op.length status - 1) .lowFirst = .ok value)
      ∧ ∀ immediate, immediate? = some immediate
          ↔ op.mode.isImmediate = true ∧ ∃ value, operand = some value
            ∧ immediate.wide = (op.length status == 3)
            ∧ immediate.value = value % 2 ^ (if immediate.wide then 16 else 8)
  past : op.mode.hasOperand = true → 0x10000000000000000 ≤ offset + op.length status →
    op.fetchOperand image offset status = .error (.overflow offset (op.length status))
      ∧ (op.mode.isImmediate = true →
        op.fetchImmediate image offset status = .error (.overflow offset (op.length status)))

theorem Image.readsWords (image : Image) : image.ReadsWords := by
  refine ⟨fun offset length hword hinside => ?_, fun offset length order hword houtside => ?_,
    fun offset length order => fetchWord_of_le⟩
  · have hlength : 0 + length < 0x10000000000000000 := by omega
    rw [fetchWord_of_lt hword, fetchWord_of_lt hword, fetchWord_of_lt hlength,
      readWord_lowFirst hinside, readWord_highFirst hinside]
    exact ⟨rfl, rfl⟩
  · rw [fetchWord_of_lt hword, readWord_of_outside houtside]

theorem Opcode.readsOperand (op : Opcode) (image : Image) (offset : Nat) (status : StatusFlags) :
    op.ReadsOperand image offset status := by
  refine ⟨fun hword => ⟨_, _, fetchOperand_of_lt hword, fetchImmediate_of_lt hword, ?_,
    fun value hvalue => ?_, fun immediate => immediate?_eq_some_iff⟩, fun hhas hover => ?_⟩
  · rw [operand?_eq]
    split
    · rename_i hfits
      exact iff_of_true rfl hfits
    · rename_i hnot
      exact iff_of_false Bool.false_ne_true hnot
  · obtain ⟨⟨hhas, -⟩, rfl⟩ := operand?_eq_some_iff.mp hvalue
    have hlong : 2 ≤ op.length status := (op.mode.two_le_length_iff status).mpr hhas
    have hsum := hword hhas
    exact Image.fetchWord_of_lt (by omega)
  · have hfault : op.fetchOperand image offset status
        = .error (.overflow offset (op.length status)) := fetchOperand_of_le hhas hover
    refine ⟨hfault, fun hmode => ?_⟩
    rw [fetchImmediate, if_pos hmode, hfault]
    rfl

/-- **Data and operands are read alike**, at every offset from which what is read ends at a word.
Past the last word there is a fault, whether data is read or an operand. -/
theorem Image.words_positional (image : Image) :
    image.ReadsWords
      ∧ ∀ (op : Opcode) (offset : Nat) (status : StatusFlags),
          op.ReadsOperand image offset status :=
  ⟨image.readsWords, fun op offset status => op.readsOperand image offset status⟩

/-- A load of $9234 or $34, as wide as the accumulator is, and three more bytes. -/
def Image.load : Image := #[0xa9, 0x34, 0x92, 0x56, 0x78, 0x9a]

def Opcode.loadAccumulator : Opcode := Layer.plain 0xa9 .lda .immAccumulator .loadImmediate

/-- Of the five bytes behind the opcode four are in the word, from either end, and the same load has
a wide and a short operand. -/
theorem Image.words_positional_load :
    (1 + 5 ≤ load.size ∧ load.fetchWord 1 5 .lowFirst = .ok 0x78569234
        ∧ load.fetchWord 1 5 .highFirst = .ok 0x9256789a
        ∧ load.fetchWord 1 5 .highFirst
          = fetchWord #[0x9a, 0x78, 0x56, 0x92, 0x34] 0 5 .lowFirst)
      ∧ load.fetchWord 4 3 .highFirst = .ok 0
      ∧ Opcode.loadAccumulator.fetchImmediate load 0
          (.setAll .unspecified [.emulation, .memory] .zero) = .ok (some ⟨0x9234, true⟩)
      ∧ Opcode.loadAccumulator.fetchImmediate load 0 .unspecified
          = .ok (some ⟨0x34, false⟩) := by
  obtain ⟨hwords, hoperand⟩ := load.words_positional
  have hfits : 1 + 5 ≤ load.size := by decide
  have hturned : (Array.extract load 1 (1 + 5)).reverse = #[0x9a, 0x78, 0x56, 0x92, 0x34] := by
    simp [load]
  obtain ⟨hlow, hhigh⟩ := hwords.inside 1 5 (by decide) hfits
  rw [hturned] at hhigh
  obtain ⟨operand, immediate, hread, hwide, -, -, hexact⟩ := (hoperand Opcode.loadAccumulator 0
    (.setAll .unspecified [.emulation, .memory] .zero)).reads (by decide)
  obtain ⟨operand', immediate', hread', hshort, -, -, hexact'⟩ :=
    (hoperand Opcode.loadAccumulator 0 .unspecified).reads (by decide)
  refine ⟨⟨hfits, hlow.trans (by decide), hhigh.trans (by decide), hhigh⟩,
    hwords.outside 4 3 .highFirst (by decide) (by decide), ?_, ?_⟩
  · cases hread
    rw [hwide, (hexact ⟨0x9234, true⟩).mpr ⟨rfl, 0x9234, by decide⟩]
  · cases hread'
    rw [hshort, (hexact' ⟨0x34, false⟩).mpr ⟨rfl, 0x34, by decide⟩]

/-- **Not everything outside the image is read as nothing.**  A byte behind the last offset is not
read as zero, and a load there is not said to have no operand. -/
theorem Image.fetch_overflows :
    fetchWord #[0x01, 0x02] 0xffffffffffffffff 1 .lowFirst
        = .error (.overflow 0xffffffffffffffff 1)
      ∧ Opcode.loadAccumulator.fetchOperand #[0xa9, 0x34] 0xffffffffffffffff .unspecified
        = .error (.overflow 0xffffffffffffffff 2) := by
  decide

end Disasm65
