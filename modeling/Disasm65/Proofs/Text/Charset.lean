/-
The character sets that a string can be in.

A scan for ASCII with either high bit finds strings with one high bit each, so its strings are in
one of two sets; every other scan has one set for all (`TextScan.encodings`).  No byte is in both
halves of ASCII.  So the first byte of a string tells its set, and that is the one that the scan
narrows to (`TextScan.eq_refine`).
-/
import Mathlib
import Disasm65.Parameters

namespace Disasm65

/-- The byte is a glyph of the set or ends a line of text in it. -/
abbrev Charset.isText (charset : Charset) (b : UInt8) : Bool :=
  (CharClass.extended charset).accepts b

namespace Charset

/-- No byte is in both halves of ASCII. -/
theorem not_isText_lowAscii {b : UInt8} (h : highAscii.isText b = true) :
    lowAscii.isText b = false := by
  simp only [isText, CharClass.accepts, CharClass.extended, isGlyph, isLineEnd, isLowGlyph,
    isHighGlyph, isLowLineEnd, isHighLineEnd, Bool.true_and, Bool.or_eq_true, Bool.and_eq_true,
    decide_eq_true_eq, beq_iff_eq, Bool.or_eq_false_iff, Bool.and_eq_false_iff,
    decide_eq_false_iff_not, beq_eq_false_iff_ne, ← UInt8.toNat_inj, UInt8.le_iff_toNat_le,
    UInt8.lt_iff_toNat_lt, UInt8.reduceToNat, ne_eq] at h ⊢
  omega

theorem isText_eitherAscii {b : UInt8} :
    eitherAscii.isText b = (lowAscii.isText b || highAscii.isText b) := by
  simp only [isText, CharClass.accepts, CharClass.extended, isGlyph, isLineEnd, Bool.true_and]
  ac_rfl

theorem refine_eitherAscii (b : UInt8) :
    eitherAscii.refine b = if lowAscii.isText b then lowAscii else highAscii := rfl

end Charset

namespace TextScan

/-- The character sets of the strings that a scan finds. -/
def encodings : TextScan → List Charset
  | .eitherAscii => [.lowAscii, .highAscii]
  | .lowAscii => [.lowAscii]
  | .petscii => [.petscii]
  | .screenCode => [.screenCode]

theorem refine_mem_encodings (scan : TextScan) (b : UInt8) :
    scan.charset.refine b ∈ scan.encodings := by
  cases scan with
  | eitherAscii =>
      rw [charset, Charset.refine_eitherAscii, encodings]
      split <;> simp
  | lowAscii | petscii | screenCode => simp [charset, Charset.refine, encodings]

/-- A byte that a scan takes for text is text in the set that the scan narrows to. -/
theorem isText_refine {scan : TextScan} {b : UInt8} (h : scan.charset.isText b = true) :
    (scan.charset.refine b).isText b = true := by
  cases scan with
  | eitherAscii =>
      rw [charset] at h ⊢
      rw [Charset.isText_eitherAscii, Bool.or_eq_true] at h
      rw [Charset.refine_eitherAscii]
      split
      · assumption
      · exact h.resolve_left ‹_›
  | lowAscii | petscii | screenCode => exact h

/-- **The set of a string is told by any byte of it.** -/
theorem eq_refine {scan : TextScan} {encoding : Charset} (hmem : encoding ∈ scan.encodings)
    {b : UInt8} (h : encoding.isText b = true) :
    scan.charset.isText b = true ∧ encoding = scan.charset.refine b := by
  cases scan with
  | eitherAscii =>
      rw [charset, Charset.isText_eitherAscii, Charset.refine_eitherAscii]
      rcases List.mem_pair.mp hmem with rfl | rfl
      · rw [h, if_pos rfl]
        exact ⟨rfl, rfl⟩
      · rw [h, Charset.not_isText_lowAscii h]
        exact ⟨rfl, rfl⟩
  | lowAscii | petscii | screenCode =>
      obtain rfl := List.mem_singleton.mp hmem
      exact ⟨h, rfl⟩

/-- The encoding of a string is known. -/
theorem detail_of_mem_encodings {scan : TextScan} {encoding : Charset}
    (h : encoding ∈ scan.encodings) :
    encoding.detail.isCharacter = true ∧ encoding.detail ≠ .anyAscii := by
  have hall : ∀ encoding ∈ scan.encodings,
      encoding.detail.isCharacter = true ∧ encoding.detail ≠ .anyAscii := by
    cases scan <;> decide
  exact hall encoding h

end TextScan

end Disasm65
