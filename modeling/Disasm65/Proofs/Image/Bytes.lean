/-
Slices of an image, and the numbers they spell.

A slice that lies in the image holds its bytes in order (`Image.slice?_eq_some`).  Low byte first,
bytes are the digits of a number in base 256, of which the four lowest count
(`littleEndian_eq_ofDigits`).
-/
import Mathlib
import Disasm65.Image.Bytes

namespace Disasm65

/-- The bytes of a slice, one by one. -/
def Image.bytesFrom (image : Image) (offset length : Nat) : List UInt8 :=
  (List.range length).map fun i => image.byteAt (offset + i)

namespace Image

variable {image : Image} {offset length : Nat}

@[simp]
theorem length_bytesFrom (image : Image) (offset length : Nat) :
    (image.bytesFrom offset length).length = length := by
  simp [bytesFrom]

@[simp]
theorem getElem_bytesFrom {i : Nat} (hi : i < (image.bytesFrom offset length).length) :
    (image.bytesFrom offset length)[i] = image.byteAt (offset + i) := by
  simp [bytesFrom]

theorem byteAt_eq_getElem {i : Nat} (hi : i < image.size) : image.byteAt i = image[i] := by
  simp [byteAt, hi]

theorem slice?_eq_some (h : offset + length ≤ image.size) :
    image.slice? offset length = some (image.bytesFrom offset length) := by
  rw [slice?, if_pos h]
  refine congrArg some (List.ext_getElem ?_ fun i hi hi' => ?_)
  · rw [Array.length_toList, Array.size_extract, length_bytesFrom]
    omega
  · rw [length_bytesFrom] at hi'
    rw [Array.getElem_toList, Array.getElem_extract, ← byteAt_eq_getElem (by omega),
      getElem_bytesFrom]

theorem drop_bytesFrom (image : Image) (offset length n : Nat) :
    (image.bytesFrom offset length).drop n = image.bytesFrom (offset + n) (length - n) := by
  refine List.ext_getElem (by simp) fun i hi hi' => ?_
  simp [Nat.add_assoc]

theorem tail_bytesFrom (image : Image) (offset length : Nat) :
    (image.bytesFrom offset length).tail = image.bytesFrom (offset + 1) (length - 1) := by
  rw [← List.drop_one, drop_bytesFrom]

theorem bytesFrom_succ (image : Image) (offset length : Nat) :
    image.bytesFrom offset (length + 1)
      = image.byteAt offset :: image.bytesFrom (offset + 1) length := by
  simp [bytesFrom, List.range_succ_eq_map, Nat.add_comm, Nat.add_left_comm]

end Image

/-- **Low byte first, the bytes are digits in base 256.** -/
theorem littleEndian_eq_ofDigits (bytes : List UInt8) :
    littleEndian bytes = wrap32 (Nat.ofDigits 0x100 (bytes.map (·.toNat))) := by
  induction bytes with
  | nil => rfl
  | cons byte rest ih =>
      have hcons : littleEndian (byte :: rest)
          = wrap32 (littleEndian rest * 0x100 + byte.toNat) := rfl
      rw [hcons, ih, List.map_cons, Nat.ofDigits_cons]
      unfold wrap32
      omega

/-- Each byte is one digit, so their number bounds the value. -/
theorem ofDigits_toNat_lt (bytes : List UInt8) :
    Nat.ofDigits 0x100 (bytes.map (·.toNat)) < 0x100 ^ bytes.length := by
  have hdigits : ∀ digit ∈ bytes.map (·.toNat), digit < 0x100 := by
    intro digit hdigit
    obtain ⟨byte, -, rfl⟩ := List.mem_map.mp hdigit
    exact byte.toNat_lt
  have hlt := Nat.ofDigits_lt_base_pow_length (by decide) hdigits
  rwa [List.length_map] at hlt

/-- High byte first, they are the same digits from the last to the first. -/
theorem bigEndian_eq_littleEndian_reverse (bytes : List UInt8) :
    bigEndian bytes = littleEndian bytes.reverse := by
  rw [littleEndian, List.foldr_reverse]
  rfl

end Disasm65
