/-
Maps whose regions follow each other.

A map is valid when its regions cover the image from its first byte to its last, one after the
other, and stay inside the 24-bit address space; that is what `AddressMap.create` accepts
(`create_eq_ok`).  In a valid map every byte lies in one region
(`regionAt?_eq_some`) and every address that is found belongs to a byte of the image
(`offsetOf?_lt`).
-/
import Mathlib
import Disasm65.AddressMap

namespace Disasm65

namespace AddressMap

/-- The regions follow each other from `first` to `last`; none is empty, and all are inside the
24-bit address space. -/
def Follow : (first last : Nat) → List Region → Prop
  | first, last, [] => first = last
  | first, last, region :: rest =>
    region.offset = first ∧ 0 < region.length ∧ region.address + region.length ≤ 0x1000000
      ∧ Follow (first + region.length) last rest

instance decidableFollow : (first last : Nat) → (regions : List Region) →
    Decidable (Follow first last regions)
  | first, last, [] => inferInstanceAs (Decidable (first = last))
  | first, last, region :: rest =>
    have := decidableFollow (first + region.length) last rest
    inferInstanceAs (Decidable (_ ∧ _))

/-- The regions cover an image of `totalLength` bytes, and offsets are words. -/
structure Valid (map : AddressMap) : Prop where
  nonempty : map.regions ≠ []
  follow : Follow 0 map.totalLength map.regions
  word : map.totalLength < 0x10000000000000000

namespace Follow

variable {first last : Nat} {regions : List Region}

theorem sum_length (h : Follow first last regions) :
    last = first + (regions.map (·.length)).sum := by
  induction regions generalizing first with
  | nil => exact (show first = last from h).symm
  | cons head rest ih =>
      have := ih h.2.2.2
      rw [List.map_cons, List.sum_cons]
      omega

/-- Every region lies between the ends. -/
theorem mem (h : Follow first last regions) {region : Region} (hr : region ∈ regions) :
    first ≤ region.offset ∧ region.offset + region.length ≤ last ∧ 0 < region.length
      ∧ region.address + region.length ≤ 0x1000000 := by
  induction regions generalizing first with
  | nil => cases hr
  | cons head rest ih =>
      obtain ⟨hoffset, hlength, haddress, hrest⟩ := h
      rcases List.mem_cons.mp hr with rfl | hr
      · have := hrest.sum_length
        omega
      · have := ih hrest hr
        omega

/-- Between the ends every offset lies in a region. -/
theorem exists_mem (h : Follow first last regions) {i : Nat} (hlow : first ≤ i) (hhigh : i < last) :
    ∃ region ∈ regions, region.offset ≤ i ∧ i < region.offset + region.length := by
  induction regions generalizing first with
  | nil =>
      have : first = last := h
      omega
  | cons head rest ih =>
      obtain ⟨hoffset, _, _, hrest⟩ := h
      by_cases hi : i < first + head.length
      · exact ⟨head, List.mem_cons_self, by omega, by omega⟩
      · obtain ⟨region, hr, hin⟩ := ih hrest (by omega)
        exact ⟨region, List.mem_cons_of_mem _ hr, hin⟩

/-- The first region that ends after an offset is the one the offset lies in. -/
theorem find? (h : Follow first last regions) {region : Region} (hr : region ∈ regions) {i : Nat}
    (hlow : region.offset ≤ i) (hhigh : i < region.offset + region.length) :
    (regions.find? fun region => i < region.stop) = some region := by
  induction regions generalizing first with
  | nil => cases hr
  | cons head rest ih =>
      have hstop : head.stop = head.offset + head.length := rfl
      obtain ⟨hoffset, hlength, haddress, hrest⟩ := h
      rw [List.find?_cons]
      rcases List.mem_cons.mp hr with rfl | hr
      · rw [hstop, decide_eq_true hhigh]
      · have hlater := (hrest.mem hr).1
        rw [hstop, decide_eq_false (by omega)]
        exact ih hrest hr

end Follow

theorem lt_of_addressOf? {map : AddressMap} {i address : Nat}
    (h : map.addressOf? i = some address) : i < map.totalLength := by
  unfold addressOf? regionAt? at h
  split at h
  · assumption
  · cases h

namespace Valid

variable {map : AddressMap} (h : map.Valid)

include h

theorem regionAt?_eq_some {region : Region} (hr : region ∈ map.regions) {i : Nat}
    (hlow : region.offset ≤ i) (hhigh : i < region.offset + region.length) :
    map.regionAt? i = some region := by
  have hend := (h.follow.mem hr).2.1
  rw [regionAt?, if_pos (by omega)]
  exact h.follow.find? hr hlow hhigh

theorem addressOf?_eq_some {region : Region} (hr : region ∈ map.regions) {i : Nat}
    (hlow : region.offset ≤ i) (hhigh : i < region.offset + region.length) :
    map.addressOf? i = some (region.addressOf i) := by
  rw [addressOf?, h.regionAt?_eq_some hr hlow hhigh]
  rfl

/-- Only the region an offset lies in can start there. -/
theorem isRegionStart_eq {region : Region} (hr : region ∈ map.regions) {i : Nat}
    (hlow : region.offset ≤ i) (hhigh : i < region.offset + region.length) :
    map.isRegionStart i = (region.offset == i) := by
  rw [Bool.eq_iff_iff, isRegionStart, List.any_eq_true]
  constructor
  · intro hany
    obtain ⟨other, hother, hstart⟩ := hany
    have hlength := (h.follow.mem hother).2.2.1
    rw [beq_iff_eq] at hstart
    -- a region that starts at the offset holds it, so it is the one that is found
    have hsame := h.regionAt?_eq_some hother (Nat.le_of_eq hstart) (by omega)
    rw [h.regionAt?_eq_some hr hlow hhigh] at hsame
    rw [Option.some.inj hsame, beq_iff_eq]
    exact hstart
  · exact fun hstart => ⟨region, hr, hstart⟩

/-- Every byte has an address. -/
theorem exists_addressOf? {i : Nat} (hi : i < map.totalLength) :
    ∃ address, map.addressOf? i = some address := by
  obtain ⟨region, hr, hlow, hhigh⟩ := h.follow.exists_mem (Nat.zero_le i) hi
  exact ⟨_, h.addressOf?_eq_some hr hlow hhigh⟩

/-- Only what lies behind the last byte has none. -/
theorem addressOf?_eq_none_iff {i : Nat} : map.addressOf? i = none ↔ map.totalLength ≤ i := by
  constructor
  · intro hnone
    by_contra hlt
    obtain ⟨address, haddress⟩ := h.exists_addressOf? (Nat.lt_of_not_le hlt)
    rw [haddress] at hnone
    cases hnone
  · intro hle
    rw [Option.eq_none_iff_forall_ne_some]
    exact fun address haddress => absurd (lt_of_addressOf? haddress) (Nat.not_lt.mpr hle)

/-- An address that is found belongs to a byte of the image. -/
theorem offsetOf?_lt {source address target : Nat}
    (htarget : map.offsetOf? source address = some target) : target < map.totalLength := by
  have hoffset : ∀ region ∈ map.regions, region.containsAddress address = true →
      region.offsetOf address < map.totalLength := by
    intro region hr haddress
    have hend := (h.follow.mem hr).2.1
    simp only [Region.containsAddress, Bool.and_eq_true, decide_eq_true_eq] at haddress
    rw [Region.offsetOf]
    omega
  obtain ⟨region, hfound, rfl⟩ := Option.map_eq_some_iff.mp htarget
  rcases Option.or_eq_some_iff.mp hfound with hnear | ⟨_, hfirst⟩
  · obtain ⟨hregion, haddress⟩ := Option.filter_eq_some_iff.mp hnear
    rw [regionAt?] at hregion
    split at hregion
    · exact hoffset region (List.mem_of_find?_eq_some hregion) haddress
    · cases hregion
  · refine hoffset region (List.mem_of_find?_eq_some hfirst) ?_
    simpa using List.find?_some hfirst

/-- A range is unbroken if one region holds all of it. -/
theorem isUnbroken_iff {offset length : Nat} :
    map.isUnbroken offset length = true ↔ 0 < length ∧ ∃ region ∈ map.regions,
      region.offset ≤ offset ∧ offset + length ≤ region.offset + region.length := by
  unfold isUnbroken
  rw [Bool.and_eq_true, bne_iff_ne, Nat.pos_iff_ne_zero]
  refine and_congr_right fun hlength => ?_
  constructor
  · intro hfound
    split at hfound
    · rename_i region hregion
      have hin : offset < map.totalLength := by
        by_contra hout
        rw [regionAt?, if_neg hout] at hregion
        cases hregion
      -- the region that is found is the one that holds the offset
      obtain ⟨holder, hr, hlow, hhigh⟩ := h.follow.exists_mem (Nat.zero_le offset) hin
      rw [h.regionAt?_eq_some hr hlow hhigh, Option.some.injEq] at hregion
      subst hregion
      rw [Region.containsOffset, Region.stop, Bool.and_eq_true, decide_eq_true_eq,
        decide_eq_true_eq] at hfound
      exact ⟨holder, hr, hlow, by omega⟩
    · cases hfound
  · rintro ⟨region, hr, hlow, hhigh⟩
    rw [h.regionAt?_eq_some hr hlow (by omega)]
    dsimp only
    rw [Region.containsOffset, Region.stop, Bool.and_eq_true, decide_eq_true_eq,
      decide_eq_true_eq]
    omega

end Valid

/-! ### The maps that are accepted -/

/-- The check passes regions that follow each other up to a word, and only those. -/
theorem checkRegions_eq_ok {expected covered : Nat} {regions : List Region}
    (hword : expected < 0x10000000000000000) :
    checkRegions expected regions = .ok covered
      ↔ Follow expected covered regions ∧ covered < 0x10000000000000000 := by
  induction regions generalizing expected with
  | nil =>
      rw [checkRegions, Except.ok.injEq, Follow]
      exact ⟨fun heq => ⟨heq, heq ▸ hword⟩, And.left⟩
  | cons region rest ih =>
      rw [checkRegions, Follow]
      split
      · simp only [reduceCtorEq, false_iff]
        omega
      split
      · simp only [reduceCtorEq, false_iff]
        tauto
      -- neither sum passes the top of the word where the regions follow each other
      by_cases htop : region.address + region.length < 0x10000000000000000
      · rw [addWords_of_lt htop]
        by_cases hhigh : 0x1000000 < region.address + region.length
        · simp only [bind, Except.bind, if_pos hhigh, throw, throwThe, MonadExceptOf.throw,
            reduceCtorEq, false_iff]
          omega
        · by_cases hnext : expected + region.length < 0x10000000000000000
          · simp only [bind, Except.bind, if_neg hhigh, addWords_of_lt hnext, ih hnext]
            refine ⟨fun hok => ⟨⟨by omega, by omega, by omega, hok.1⟩, hok.2⟩,
              fun hok => ⟨hok.1.2.2.2, hok.2⟩⟩
          · simp only [bind, Except.bind, if_neg hhigh, addWords_of_le (Nat.le_of_not_lt hnext),
              reduceCtorEq, false_iff]
            rintro ⟨⟨_, _, _, hfollow⟩, hlast⟩
            have := hfollow.sum_length
            omega
      · rw [addWords_of_le (Nat.le_of_not_lt htop)]
        simp only [bind, Except.bind, reduceCtorEq, false_iff]
        omega

/-- **The maps that are accepted are the valid ones.** -/
theorem create_eq_ok {totalLength : Nat} {regions : List Region} {map : AddressMap} :
    create totalLength regions = .ok map ↔ map = ⟨regions, totalLength⟩ ∧ map.Valid := by
  constructor
  · intro hok
    unfold create at hok
    split at hok
    · cases hok
    · rename_i hnonempty
      split at hok
      · cases hok
      · rename_i covered hcovered
        split at hok
        · rename_i htotal
          cases hok
          obtain ⟨hfollow, hword⟩ := (checkRegions_eq_ok (by decide)).mp hcovered
          subst htotal
          exact ⟨rfl, by simpa using hnonempty, hfollow, hword⟩
        · cases hok
  · intro hvalid
    obtain ⟨rfl, hvalid⟩ := hvalid
    have hnonempty : regions.isEmpty = false := by simpa using hvalid.nonempty
    rw [create, hnonempty, (checkRegions_eq_ok (by decide)).mpr ⟨hvalid.follow, hvalid.word⟩]
    simp

end AddressMap

end Disasm65
