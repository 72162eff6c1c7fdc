/-
From offsets to addresses and back.

In a valid map no two regions share an offset (`Follow.apart`), so an offset has one address,
counted from the start of its region (`Valid.addressOf?_eq_some_iff`).  Within a region an address
belongs to one offset (`Valid.offsetOf_spec`), but several regions can have it.  Seen from a byte,
the region of that byte comes first; otherwise the first region that has the address is taken
(`offsetOf?_eq_some`), and since the regions are in order the offset found there is the least
(`Follow.find?_first`).
-/
import Mathlib
import Disasm65.Proofs.AddressMap.Contiguous

namespace Disasm65

namespace Region

/-- The offset lies in the region. -/
def Holds (region : Region) (i : Nat) : Prop :=
  region.offset ≤ i ∧ i < region.offset + region.length

theorem containsAddress_iff {region : Region} {address : Nat} :
    region.containsAddress address = true
      ↔ ∃ i, region.Holds i ∧ address = region.address + (i - region.offset) := by
  unfold containsAddress Holds
  rw [Bool.and_eq_true, decide_eq_true_eq, decide_eq_true_eq]
  constructor
  · intro h
    exact ⟨region.offset + (address - region.address), by omega, by omega⟩
  · rintro ⟨i, hi, rfl⟩
    omega

end Region

namespace AddressMap

/-! ### Regions lie apart -/

namespace Follow

variable {first last : Nat} {regions : List Region}

/-- A region ends before the ones after it start. -/
theorem apart (h : Follow first last regions) :
    regions.Pairwise fun region later => region.offset + region.length ≤ later.offset := by
  induction regions generalizing first with
  | nil => exact .nil
  | cons head rest ih =>
      obtain ⟨rfl, _, _, hrest⟩ := h
      exact .cons (fun later hlater => (hrest.mem hlater).1) (ih hrest)

/-- **Between the ends every offset lies in one region.** -/
theorem existsUnique (h : Follow first last regions) {i : Nat} (hlow : first ≤ i)
    (hhigh : i < last) :
    ∃! k : Nat, ∃ region : Region, regions[k]? = some region ∧ region.Holds i := by
  have hapart := List.pairwise_iff_getElem.mp h.apart
  obtain ⟨region, hr, hin⟩ := h.exists_mem hlow hhigh
  obtain ⟨k, hk⟩ := List.mem_iff_getElem?.mp hr
  refine ⟨k, ⟨region, hk, hin⟩, ?_⟩
  rintro n ⟨other, hn, hother⟩
  obtain ⟨hkl, rfl⟩ := List.getElem?_eq_some_iff.mp hk
  obtain ⟨hnl, rfl⟩ := List.getElem?_eq_some_iff.mp hn
  unfold Region.Holds at hother
  -- of two regions that hold the offset, the earlier one would end before the later one starts
  rcases Nat.lt_trichotomy n k with hlt | heq | hgt
  · have := hapart n k hnl hkl hlt
    omega
  · exact heq
  · have := hapart k n hkl hnl hgt
    omega

/-- The first region with some property ends before the others that have it start. -/
theorem find?_first (h : Follow first last regions) {p : Region → Bool} {region other : Region}
    (hfound : regions.find? p = some region) (hother : other ∈ regions) (hp : p other = true) :
    other = region ∨ region.offset + region.length ≤ other.offset := by
  obtain ⟨_, before, after, rfl, hbefore⟩ := List.find?_eq_some_iff_append.mp hfound
  have hapart := (List.pairwise_append.mp h.apart).2.1
  rcases List.mem_append.mp hother with hmem | hmem
  · have hnot := hbefore other hmem
    simp [hp] at hnot
  · rcases List.mem_cons.mp hmem with heq | hmem
    · exact Or.inl heq
    · exact Or.inr ((List.pairwise_cons.mp hapart).1 other hmem)

end Follow

/-! ### The search for an address -/

theorem mem_of_regionAt? {map : AddressMap} {i : Nat} {region : Region}
    (h : map.regionAt? i = some region) : region ∈ map.regions := by
  unfold regionAt? at h
  split at h
  · exact List.mem_of_find?_eq_some h
  · cases h

/-- An address is found in the region of the source, or else in the first region that has it. -/
theorem offsetOf?_eq_some {map : AddressMap} {source address i : Nat}
    (h : map.offsetOf? source address = some i) :
    ∃ region ∈ map.regions, region.containsAddress address = true
      ∧ i = region.offsetOf address
      ∧ (map.regionAt? source = some region
        ∨ (∀ near, map.regionAt? source = some near → near.containsAddress address = false)
          ∧ map.regions.find? (fun region => region.containsAddress address) = some region) := by
  obtain ⟨region, hfound, rfl⟩ := Option.map_eq_some_iff.mp h
  rcases Option.or_eq_some_iff.mp hfound with hnear | ⟨hnone, hfirst⟩
  · obtain ⟨hregion, haddress⟩ := Option.filter_eq_some_iff.mp hnear
    exact ⟨region, mem_of_regionAt? hregion, haddress, rfl, Or.inl hregion⟩
  · have haddress : region.containsAddress address = true := by
      simpa using List.find?_some hfirst
    refine ⟨region, List.mem_of_find?_eq_some hfirst, haddress, rfl,
      Or.inr ⟨fun near hregion => ?_, hfirst⟩⟩
    simpa using Option.filter_eq_none_iff.mp hnone near hregion

/-- An address is found if any region has it. -/
theorem offsetOf?_eq_none_iff {map : AddressMap} {source address : Nat} :
    map.offsetOf? source address = none
      ↔ ∀ region ∈ map.regions, region.containsAddress address = false := by
  unfold offsetOf?
  rw [Option.map_eq_none_iff, Option.or_eq_none_iff, List.find?_eq_none]
  constructor
  · intro h region hr
    simpa using h.2 region hr
  · intro h
    refine ⟨Option.filter_eq_none_iff.mpr fun region hregion => ?_, fun region hr => ?_⟩
    · simp [h region (mem_of_regionAt? hregion)]
    · simp [h region hr]

namespace Valid

variable {map : AddressMap} (h : map.Valid)

include h

/-- **The address of a byte is counted from the start of its region.** -/
theorem addressOf?_eq_some_iff {i address : Nat} :
    map.addressOf? i = some address
      ↔ ∃ region ∈ map.regions, region.Holds i
        ∧ address = region.address + (i - region.offset) := by
  constructor
  · intro hi
    obtain ⟨region, hr, hlow, hhigh⟩ :=
      h.follow.exists_mem (Nat.zero_le i) (lt_of_addressOf? hi)
    rw [h.addressOf?_region hr hlow hhigh, Option.some.injEq] at hi
    exact ⟨region, hr, ⟨hlow, hhigh⟩, hi.symm⟩
  · rintro ⟨region, hr, ⟨hlow, hhigh⟩, rfl⟩
    exact h.addressOf?_region hr hlow hhigh

/-- A region has an address if one of its bytes does. -/
theorem containsAddress_iff {region : Region} (hr : region ∈ map.regions) {address : Nat} :
    region.containsAddress address = true
      ↔ ∃ i, region.Holds i ∧ map.addressOf? i = some address := by
  rw [Region.containsAddress_iff]
  refine exists_congr fun i => and_congr_right fun hi => ?_
  rw [h.addressOf?_region hr hi.1 hi.2, Option.some.injEq, eq_comm]

/-- The offset of an address lies in the region and has that address; no other does both. -/
theorem offsetOf_spec {region : Region} (hr : region ∈ map.regions) {address : Nat}
    (haddress : region.containsAddress address = true) :
    region.Holds (region.offsetOf address)
      ∧ map.addressOf? (region.offsetOf address) = some address
      ∧ ∀ i, region.Holds i → map.addressOf? i = some address → i = region.offsetOf address := by
  obtain ⟨i, hi, hplace⟩ := Region.containsAddress_iff.mp haddress
  have hoffset : region.offsetOf address = i := by
    unfold Region.Holds at hi
    rw [Region.offsetOf]
    omega
  rw [hoffset]
  refine ⟨hi, h.addressOf?_eq_some_iff.mpr ⟨region, hr, hi, hplace⟩, fun j hj hsame => ?_⟩
  rw [h.addressOf?_region hr hj.1 hj.2, Option.some.injEq] at hsame
  unfold Region.Holds at hi hj
  omega

theorem addressOf?_of_offsetOf? {source address i : Nat}
    (hi : map.offsetOf? source address = some i) : map.addressOf? i = some address := by
  obtain ⟨region, hr, haddress, rfl, _⟩ := offsetOf?_eq_some hi
  exact (h.offsetOf_spec hr haddress).2.1

/-- **An address is found unless no byte has it.** -/
theorem offsetOf?_eq_none {source address : Nat} :
    map.offsetOf? source address = none ↔ ∀ i, map.addressOf? i ≠ some address := by
  rw [offsetOf?_eq_none_iff]
  constructor
  · intro hnone i hi
    obtain ⟨region, hr, hin, _⟩ := h.addressOf?_eq_some_iff.mp hi
    have hsome := (h.containsAddress_iff hr).mpr ⟨i, hin, hi⟩
    rw [hnone region hr] at hsome
    cases hsome
  · intro hnone region hr
    rw [Bool.eq_false_iff]
    intro haddress
    exact hnone _ (h.offsetOf_spec hr haddress).2.1

/-- **The region of the source is preferred.** -/
theorem holds_of_offsetOf? {source address i : Nat} {region : Region} (hr : region ∈ map.regions)
    (hsource : region.Holds source) (hnear : ∃ j, region.Holds j ∧ map.addressOf? j = some address)
    (hi : map.offsetOf? source address = some i) : region.Holds i := by
  have hregion := h.regionAt?_eq_some hr hsource.1 hsource.2
  have haddress := (h.containsAddress_iff hr).mpr hnear
  obtain ⟨found, _, _, rfl, hfound | ⟨hnone, _⟩⟩ := offsetOf?_eq_some hi
  · rw [hregion, Option.some.injEq] at hfound
    subst hfound
    exact (h.offsetOf_spec hr haddress).1
  · rw [hnone region hregion] at haddress
    cases haddress

/-- **If the region of the source does not have the address, the first byte that does is found.** -/
theorem offsetOf?_least {source address i : Nat}
    (hfar : ∀ region ∈ map.regions, region.Holds source → ∀ j, region.Holds j →
      map.addressOf? j ≠ some address)
    (hi : map.offsetOf? source address = some i) {j : Nat}
    (hj : map.addressOf? j = some address) : i ≤ j := by
  obtain ⟨region, hr, haddress, rfl, hregion | ⟨_, hfirst⟩⟩ := offsetOf?_eq_some hi
  · -- the source lies in a region that has the address
    exfalso
    have hsource : source < map.totalLength := by
      by_contra hout
      rw [regionAt?, if_neg hout] at hregion
      cases hregion
    obtain ⟨own, hown, hlow, hhigh⟩ := h.follow.exists_mem (Nat.zero_le source) hsource
    rw [h.regionAt?_eq_some hown hlow hhigh, Option.some.injEq] at hregion
    subst hregion
    obtain ⟨hin, hat, _⟩ := h.offsetOf_spec hown haddress
    exact hfar own hown ⟨hlow, hhigh⟩ _ hin hat
  · obtain ⟨hin, _, honly⟩ := h.offsetOf_spec hr haddress
    obtain ⟨other, hother, hheld, _⟩ := h.addressOf?_eq_some_iff.mp hj
    have hcontains := (h.containsAddress_iff hother).mpr ⟨j, hheld, hj⟩
    rcases h.follow.find?_first hfirst hother hcontains with rfl | hlater
    · exact Nat.le_of_eq (honly j hheld hj).symm
    · unfold Region.Holds at hin hheld
      omega

end Valid

/-! ### In the maps that are accepted -/

/-- The map gives the bytes of an image of `totalLength` bytes the addresses that the regions say,
and finds the byte of an address again. -/
structure Translates (map : AddressMap) (totalLength : Nat) (regions : List Region) : Prop where
  /-- The bytes of the image have addresses, and nothing else has. -/
  addressed : ∀ i, (map.addressOf? i).isSome = true ↔ i < totalLength
  /-- Every byte lies in one region. -/
  region : ∀ i < totalLength,
    ∃! k : Nat, ∃ region : Region, regions[k]? = some region ∧ region.Holds i
  /-- Its address is counted from the start of that region. -/
  address : ∀ region ∈ regions, ∀ i, region.Holds i →
    map.addressOf? i = some (region.address + (i - region.offset))
      ∧ region.address + (i - region.offset) < 0x1000000
  /-- What is found for an address has that address. -/
  inverse : ∀ source address i, map.offsetOf? source address = some i →
    map.addressOf? i = some address
  /-- Nothing is found only for an address that no byte has. -/
  missing : ∀ source address,
    map.offsetOf? source address = none ↔ ∀ i, map.addressOf? i ≠ some address
  /-- The region of the source comes first, if it has the address. -/
  near : ∀ source address i, ∀ region ∈ regions, region.Holds source →
    (∃ j, region.Holds j ∧ map.addressOf? j = some address) →
    map.offsetOf? source address = some i → region.Holds i
  /-- Otherwise it is the first byte that has it. -/
  far : ∀ source address i,
    (∀ region ∈ regions, region.Holds source → ∀ j, region.Holds j →
      map.addressOf? j ≠ some address) →
    map.offsetOf? source address = some i → ∀ j, map.addressOf? j = some address → i ≤ j

/-- **Addresses are translated faithfully in both directions**, by every map that is accepted. -/
theorem create_translates {totalLength : Nat} {regions : List Region} {map : AddressMap}
    (hcreate : create totalLength regions = .ok map) : map.Translates totalLength regions := by
  obtain ⟨rfl, hvalid⟩ := create_eq_ok.mp hcreate
  refine ⟨fun i => ?_, fun i hi => hvalid.follow.existsUnique (Nat.zero_le i) hi,
    fun region hr i hi => ?_, fun _ _ _ => hvalid.addressOf?_of_offsetOf?,
    fun _ _ => hvalid.offsetOf?_eq_none, fun _ _ _ region hr => hvalid.holds_of_offsetOf? hr,
    fun _ _ _ hfar hi _ => hvalid.offsetOf?_least hfar hi⟩
  · rw [← not_iff_not, Bool.not_eq_true, Option.isSome_eq_false_iff, Option.isNone_iff_eq_none,
      hvalid.addressOf?_eq_none_iff, Nat.not_lt]
  · have hat := hvalid.addressOf?_region hr hi.1 hi.2
    exact ⟨hat, hvalid.addressOf?_lt hat⟩

/-- Two banks that are loaded at the same place, before what they share. -/
theorem create_translates_banks :
    ∃ map, create 12 [⟨0, 4, 0x8000⟩, ⟨4, 4, 0x8000⟩, ⟨8, 4, 0xc000⟩] = .ok map
      ∧ map.Translates 12 [⟨0, 4, 0x8000⟩, ⟨4, 4, 0x8000⟩, ⟨8, 4, 0xc000⟩]
      ∧ map.offsetOf? 5 0x8002 = some 6 ∧ map.offsetOf? 9 0x8002 = some 2
      ∧ map.offsetOf? 0 0x9000 = none :=
  ⟨_, rfl, create_translates rfl, by decide⟩

end AddressMap

end Disasm65
