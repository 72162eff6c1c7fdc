/-
Addresses that go up by one.

A stretch of bytes is contiguous when every byte lies one address above the byte before it
(`Ascends`).  `AddressMap.isContiguous` looks at the starts of regions only, and only at those that
the stretch reaches.  In a valid map that comes to the same (`Valid.isContiguous_iff`), so a stretch
is contiguous when each two neighbours in it are (`Valid.isContiguous_of_pairs`).
-/
import Mathlib
import Disasm65.Proofs.AddressMap

namespace Disasm65

namespace AddressMap

/-- From byte to byte of the `length` bytes at `offset`, the address goes up by one. -/
def Ascends (map : AddressMap) (offset length : Nat) : Prop :=
  ∀ i address, offset ≤ i → i + 1 < offset + length → map.addressOf? i = some address →
    map.addressOf? (i + 1) = some (address + 1)

/-- The addresses of a stretch that ascends are counted from its first byte. -/
theorem Ascends.addressOf? {map : AddressMap} {offset length base : Nat}
    (h : map.Ascends offset length) (hbase : map.addressOf? offset = some base) (k : Nat)
    (hk : offset + k < offset + length) : map.addressOf? (offset + k) = some (base + k) := by
  induction k with
  | zero => exact hbase
  | succ k ih => exact h (offset + k) (base + k) (by omega) (by omega) (ih (by omega))

/-! ### The regions that a stretch reaches -/

/-- The regions that the bytes from `offset` up to `stop` reach, in order. -/
def reached (map : AddressMap) (offset stop : Nat) : List Region :=
  (map.regions.dropWhile fun region => region.stop ≤ offset).takeWhile
    fun region => region.offset < stop

theorem isContiguous_eq (map : AddressMap) {offset length base : Nat}
    (hbase : map.addressOf? offset = some base) :
    map.isContiguous offset length
      = (length != 0 && offset + length ≤ map.totalLength
          && (map.reached offset (offset + length)).all fun region =>
            region.offset ≤ offset
              || region.address == wrap32 (base + (region.offset - offset))) := by
  unfold isContiguous
  rw [hbase]
  rfl

/-- Leaving out regions at the front, what is left still follows each other. -/
theorem Follow.dropWhile {first last : Nat} {regions : List Region} (h : Follow first last regions)
    (p : Region → Bool) : ∃ next, Follow next last (regions.dropWhile p) := by
  induction regions generalizing first with
  | nil => exact ⟨first, h⟩
  | cons head rest ih =>
      rw [List.dropWhile_cons]
      split
      · exact ih h.2.2.2
      · exact ⟨first, h⟩

/-- A region that does not end before an offset is not among those left out. -/
theorem Follow.mem_dropWhile {first last : Nat} {regions : List Region}
    (h : Follow first last regions) {offset : Nat} {region : Region} (hr : region ∈ regions)
    (hstop : offset < region.offset + region.length) :
    region ∈ regions.dropWhile fun region => region.stop ≤ offset := by
  induction regions generalizing first with
  | nil => cases hr
  | cons head rest ih =>
      rw [List.dropWhile_cons]
      split
      · rename_i hdrop
        rw [decide_eq_true_eq, Region.stop] at hdrop
        rcases List.mem_cons.mp hr with rfl | hr
        · omega
        · exact ih h.2.2.2 hr
      · exact hr

theorem Follow.mem_takeWhile {first last : Nat} {regions : List Region}
    (h : Follow first last regions) {stop : Nat} {region : Region} (hr : region ∈ regions)
    (hstop : region.offset < stop) :
    region ∈ regions.takeWhile fun region => region.offset < stop := by
  induction regions generalizing first with
  | nil => cases hr
  | cons head rest ih =>
      obtain ⟨hoffset, -, -, hrest⟩ := h
      rcases List.mem_cons.mp hr with rfl | hr
      · rw [List.takeWhile_cons, if_pos (decide_eq_true hstop)]
        exact List.mem_cons_self
      · have hlater := (hrest.mem hr).1
        rw [List.takeWhile_cons, if_pos (decide_eq_true (by omega))]
        exact List.mem_cons_of_mem _ (ih hrest hr)

theorem of_mem_reached {map : AddressMap} {offset stop : Nat} {region : Region}
    (hr : region ∈ map.reached offset stop) : region ∈ map.regions ∧ region.offset < stop := by
  refine ⟨(List.dropWhile_suffix _).mem ((List.takeWhile_prefix _).mem hr), ?_⟩
  simpa using List.mem_takeWhile_imp hr

namespace Valid

variable {map : AddressMap} (h : map.Valid)

include h

/-- A stretch reaches the regions of its bytes. -/
theorem mem_reached {offset stop : Nat} {region : Region} (hr : region ∈ map.regions)
    (hlow : offset < region.offset + region.length) (hhigh : region.offset < stop) :
    region ∈ map.reached offset stop := by
  obtain ⟨next, hnext⟩ := h.follow.dropWhile fun region => region.stop ≤ offset
  exact hnext.mem_takeWhile (h.follow.mem_dropWhile hr hlow) hhigh

/-- The address of a byte, counted from the start of its region. -/
theorem addressOf?_region {region : Region} (hr : region ∈ map.regions) {i : Nat}
    (hlow : region.offset ≤ i) (hhigh : i < region.offset + region.length) :
    map.addressOf? i = some (region.address + (i - region.offset)) := by
  have haddress := (h.follow.mem hr).2.2.2
  rw [h.addressOf?_eq_some hr hlow hhigh, Region.addressOf, wrap32_of_lt (by omega)]

theorem addressOf?_lt {i address : Nat} (hi : map.addressOf? i = some address) :
    address < 0x1000000 := by
  obtain ⟨region, hr, hlow, hhigh⟩ := h.follow.exists_mem (Nat.zero_le i) (lt_of_addressOf? hi)
  have haddress := (h.follow.mem hr).2.2.2
  rw [h.addressOf?_region hr hlow hhigh, Option.some.injEq] at hi
  omega

/-! ### What contiguity means -/

/-- The addresses of a contiguous stretch are counted from its first byte. -/
theorem addressOf?_of_isContiguous {offset length base : Nat}
    (hbase : map.addressOf? offset = some base) (hc : map.isContiguous offset length = true)
    {i : Nat} (hlow : offset ≤ i) (hhigh : i < offset + length) :
    map.addressOf? i = some (wrap32 (base + (i - offset))) := by
  rw [isContiguous_eq map hbase, Bool.and_eq_true, Bool.and_eq_true, decide_eq_true_eq] at hc
  obtain ⟨⟨-, hend⟩, hall⟩ := hc
  have hbound := h.addressOf?_lt hbase
  obtain ⟨region, hr, hrlow, hrhigh⟩ := h.follow.exists_mem (Nat.zero_le i) (by omega)
  have haddress := (h.follow.mem hr).2.2.2
  have hstart := List.all_eq_true.mp hall region (h.mem_reached hr (by omega) (by omega))
  rw [Bool.or_eq_true, decide_eq_true_eq, beq_iff_eq] at hstart
  rw [h.addressOf?_region hr hrlow hrhigh, Option.some.injEq]
  by_cases hsame : region.offset ≤ offset
  · -- the region of the byte is that of the first one
    rw [h.addressOf?_region hr hsame (by omega), Option.some.injEq] at hbase
    rw [wrap32_of_lt (by omega)]
    omega
  · have hother := hstart.resolve_left hsame
    unfold wrap32 at hother ⊢
    omega

/-- **A stretch is contiguous when its addresses go up by one from byte to byte.** -/
theorem isContiguous_iff {offset length : Nat} :
    map.isContiguous offset length = true
      ↔ 0 < length ∧ offset + length ≤ map.totalLength ∧ map.Ascends offset length := by
  constructor
  · intro hc
    obtain ⟨base, hbase⟩ : ∃ base, map.addressOf? offset = some base := by
      unfold isContiguous at hc
      cases hbase : map.addressOf? offset with
      | none => simp [hbase] at hc
      | some base => exact ⟨base, rfl⟩
    have haddress : ∀ {i}, offset ≤ i → i < offset + length →
        map.addressOf? i = some (wrap32 (base + (i - offset))) :=
      h.addressOf?_of_isContiguous hbase hc
    rw [isContiguous_eq map hbase, Bool.and_eq_true, Bool.and_eq_true, decide_eq_true_eq,
      bne_iff_ne] at hc
    refine ⟨by omega, hc.1.2, fun i address hlow hhigh hi => ?_⟩
    have hbound := h.addressOf?_lt hi
    rw [haddress hlow (by omega), Option.some.injEq] at hi
    rw [haddress (by omega) hhigh, Option.some.injEq]
    unfold wrap32 at hi ⊢
    omega
  · rintro ⟨hpos, hend, ha⟩
    obtain ⟨base, hbase⟩ := h.exists_addressOf? (i := offset) (by omega)
    rw [isContiguous_eq map hbase, Bool.and_eq_true, Bool.and_eq_true, decide_eq_true_eq,
      bne_iff_ne, List.all_eq_true]
    refine ⟨⟨by omega, hend⟩, fun region hr => ?_⟩
    obtain ⟨hmem, hstop⟩ := of_mem_reached hr
    have hlength := (h.follow.mem hmem).2.2
    rw [Bool.or_eq_true, decide_eq_true_eq, beq_iff_eq, or_iff_not_imp_left]
    intro hlater
    obtain ⟨k, hk⟩ := Nat.exists_eq_add_of_le (Nat.le_of_not_le hlater)
    have hstart := ha.addressOf? hbase k (by omega)
    rw [← hk, h.addressOf?_region hmem (Nat.le_refl _) (by omega), Option.some.injEq] at hstart
    rw [wrap32_of_lt (by omega)]
    omega

/-- A stretch of the image in which each two neighbours are contiguous is contiguous. -/
theorem isContiguous_of_pairs {offset length : Nat} (hpos : 0 < length)
    (hend : offset + length ≤ map.totalLength)
    (hpairs : ∀ i, offset ≤ i → i + 1 < offset + length → map.isContiguous i 2 = true) :
    map.isContiguous offset length = true := by
  rw [h.isContiguous_iff]
  refine ⟨hpos, hend, fun i address hlow hhigh hi => ?_⟩
  obtain ⟨-, -, hpair⟩ := h.isContiguous_iff.mp (hpairs i hlow hhigh)
  exact hpair i address (Nat.le_refl _) (by omega) hi

end Valid

end AddressMap

end Disasm65
