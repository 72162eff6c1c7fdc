/-
Ranges and bytes in their regions.

Two questions are asked about a range, and both are answered from the starts of the regions.  An
unbroken range is one in which no region starts after the first byte
(`Valid.isUnbroken_iff_starts`).  A contiguous one has the addresses that follow from its first byte
(`Valid.isContiguous_iff_counts`), and may go over from one region to the next.  The questions are
answered about every range that ends at a word (`Measures`).

The bytes get their addresses in another way: region by region, by counting up.  What is stamped on
a byte is nevertheless the address that the map gives it (`Valid.placeRegion_stamps`), and neither
following control nor any later stage of an analysis changes it (`Stages.stamps`).
-/
import Mathlib
import Disasm65.Proofs.AddressMap.Translation
import Disasm65.Proofs.Flow.Checked.Ends
import Disasm65.Proofs.Project.Layout

namespace Disasm65

/-- What a region makes of a blank byte: it has the address of its place, and the mark if it is the
first. -/
theorem Flow.Checked.placeByte_blank (region : Region) (i : Nat) :
    (placeByte region i .blank).address = region.addressOf i
      ∧ (placeByte region i .blank).isRegionStart = (region.offset == i) := by
  have hblank : Attribute.blank.marks = .empty := rfl
  unfold placeByte
  cases region.offset == i <;> simp [hblank]

namespace AddressMap

/-! ### What is said about ranges -/

/-- The question is answered, and the answer is whether `p` is true. -/
def Answers (question : Except Fault Bool) (p : Prop) : Prop :=
  ∃ answer, question = .ok answer ∧ (answer = true ↔ p)

/-- What the map says about a range is true of the bytes in it. -/
structure Measures (map : AddressMap) (totalLength : Nat) (regions : List Region) : Prop where
  /-- An unbroken range is not empty, it lies in the image, and no region starts inside it. -/
  unbroken : ∀ offset length, offset + length < 0x10000000000000000 →
    Answers (map.unbroken offset length) (0 < length ∧ offset + length ≤ totalLength
      ∧ ∀ region ∈ regions, ¬ (offset < region.offset ∧ region.offset < offset + length))
  /-- A contiguous range is not empty, it lies in the image, and its addresses are counted from that
  of the first byte. -/
  contiguous : ∀ offset length, offset + length < 0x10000000000000000 →
    Answers (map.contiguous offset length) (0 < length ∧ offset + length ≤ totalLength
      ∧ ∀ k < length, map.addressOf? (offset + k) = (map.addressOf? offset).map (· + k))
  /-- What is unbroken is contiguous. -/
  contiguous_of_unbroken : ∀ offset length,
    map.unbroken offset length = .ok true → map.contiguous offset length = .ok true

/-- Each byte has the address that the map gives it, and is marked if a region starts with it. -/
structure Stamps (map : AddressMap) (attributes : Attributes) : Prop where
  size : attributes.size = map.totalLength
  address : ∀ i < map.totalLength, map.addressOf? i = some (attributes.info i).address
  start : ∀ i < map.totalLength, (attributes.info i).isRegionStart = map.isRegionStart i

section Words

variable (map : AddressMap) {offset length : Nat}

theorem unbroken_of_lt (hword : offset + length < 0x10000000000000000) :
    map.unbroken offset length = .ok (map.isUnbroken offset length) := by
  unfold unbroken
  split
  · rename_i hnothing
    rcases hnothing with rfl | hnone
    · rfl
    · rw [isUnbroken, hnone, Bool.and_false]
  · rw [addWords_of_lt hword]
    rfl

theorem contiguous_of_lt (hword : offset + length < 0x10000000000000000) :
    map.contiguous offset length = .ok (map.isContiguous offset length) := by
  unfold contiguous
  split
  · rename_i hnothing
    subst hnothing
    rfl
  · rw [addWords_of_lt hword]
    rfl

/-- A range that is said to be unbroken ends at a word. -/
theorem lt_of_unbroken {map : AddressMap} (h : map.unbroken offset length = .ok true) :
    offset + length < 0x10000000000000000 := by
  unfold unbroken at h
  split at h
  · cases h
  · obtain ⟨_, hsum, -⟩ := map_eq_ok.mp h
    exact (addWords_eq_ok.mp hsum).1

end Words

namespace Valid

variable {map : AddressMap} (h : map.Valid)

include h

/-- A region in which another one starts is that one. -/
theorem offset_eq_of_holds {region other : Region} (hr : region ∈ map.regions)
    (hother : other ∈ map.regions) (hholds : region.Holds other.offset) :
    region.offset = other.offset := by
  have hstart : map.isRegionStart other.offset = true :=
    List.any_eq_true.mpr ⟨other, hother, beq_self_eq_true _⟩
  rw [h.isRegionStart_eq hr hholds.1 hholds.2] at hstart
  exact beq_iff_eq.mp hstart

/-- Behind a region that ends inside the image another one starts. -/
theorem exists_next {region : Region} (hr : region ∈ map.regions)
    (hend : region.offset + region.length < map.totalLength) :
    ∃ next ∈ map.regions, next.offset = region.offset + region.length := by
  obtain ⟨next, hnext, hlow, hhigh⟩ := h.follow.exists_mem (Nat.zero_le _) hend
  refine ⟨next, hnext, ?_⟩
  by_contra hne
  -- otherwise the two have the last byte of the first in common, and then they are one
  have hlength := (h.follow.mem hr).2.2.1
  have hsame := h.regionAt?_eq_some hnext (i := region.offset + region.length - 1) (by omega)
    (by omega)
  rw [h.regionAt?_eq_some hr (by omega) (by omega), Option.some.injEq] at hsame
  subst hsame
  omega

/-- **A range is unbroken if no region starts inside it.** -/
theorem isUnbroken_iff_starts {offset length : Nat} :
    map.isUnbroken offset length = true ↔ 0 < length ∧ offset + length ≤ map.totalLength
      ∧ ∀ region ∈ map.regions, ¬ (offset < region.offset ∧ region.offset < offset + length) := by
  rw [h.isUnbroken_iff]
  refine and_congr_right fun hpos => ?_
  constructor
  · rintro ⟨region, hr, hlow, hhigh⟩
    have hend := (h.follow.mem hr).2.1
    refine ⟨by omega, fun other hother hinside => ?_⟩
    have hsame := h.offset_eq_of_holds hr hother ⟨by omega, by omega⟩
    omega
  · rintro ⟨hend, hclear⟩
    obtain ⟨region, hr, hlow, hhigh⟩ := h.follow.exists_mem (Nat.zero_le offset) (by omega)
    refine ⟨region, hr, hlow, ?_⟩
    by_contra hshort
    obtain ⟨next, hnext, hstart⟩ := h.exists_next hr (by omega)
    exact hclear next hnext (by omega)

/-- **A range is contiguous if its addresses are counted from that of its first byte.** -/
theorem isContiguous_iff_counts {offset length : Nat} :
    map.isContiguous offset length = true ↔ 0 < length ∧ offset + length ≤ map.totalLength
      ∧ ∀ k < length, map.addressOf? (offset + k) = (map.addressOf? offset).map (· + k) := by
  rw [h.isContiguous_iff]
  refine and_congr_right fun hpos => and_congr_right fun hend => ?_
  obtain ⟨base, hbase⟩ := h.exists_addressOf? (i := offset) (by omega)
  rw [hbase]
  constructor
  · intro hascends k hk
    exact hascends.addressOf? hbase k (by omega)
  · intro hcounts i address hlow hhigh hi
    obtain ⟨k, rfl⟩ := Nat.exists_eq_add_of_le hlow
    rw [hcounts k (by omega), Option.map_some, Option.some.injEq] at hi
    subst hi
    exact hcounts (k + 1) (by omega)

theorem isContiguous_of_isUnbroken {offset length : Nat}
    (hu : map.isUnbroken offset length = true) : map.isContiguous offset length = true := by
  obtain ⟨hpos, region, hr, hlow, hhigh⟩ := h.isUnbroken_iff.mp hu
  have hend := (h.follow.mem hr).2.1
  refine h.isContiguous_iff_counts.mpr ⟨hpos, by omega, fun k hk => ?_⟩
  rw [h.addressOf?_region hr (by omega) (by omega), h.addressOf?_region hr hlow (by omega),
    Option.map_some, Option.some.injEq]
  omega

theorem measures : map.Measures map.totalLength map.regions := by
  refine ⟨fun offset length hword => ?_, fun offset length hword => ?_, fun offset length hu => ?_⟩
  · exact ⟨_, map.unbroken_of_lt hword, h.isUnbroken_iff_starts⟩
  · exact ⟨_, map.contiguous_of_lt hword, h.isContiguous_iff_counts⟩
  · have hword := lt_of_unbroken hu
    rw [map.unbroken_of_lt hword, Except.ok.injEq] at hu
    rw [map.contiguous_of_lt hword, h.isContiguous_of_isUnbroken hu]

/-! ### What is stamped on the bytes -/

/-- Bytes that have the addresses of the map and its marks are stamped. -/
theorem stamps_of_getD {attributes : Attributes} (hsize : attributes.size = map.totalLength)
    (haddress : ∀ i < map.totalLength,
      (attributes.info i).address = (map.addressOf? i).getD 0)
    (hstart : ∀ i < map.totalLength, (attributes.info i).isRegionStart = map.isRegionStart i) :
    map.Stamps attributes := by
  refine ⟨hsize, fun i hi => ?_, hstart⟩
  obtain ⟨address, hat⟩ := h.exists_addressOf? hi
  rw [haddress i hi, hat, Option.getD_some]

/-- **Counting up region by region stamps the bytes.** -/
theorem placeRegion_stamps :
    ∃ attributes, map.regions.foldlM Flow.Checked.placeRegion (Attributes.blank map.totalLength)
        = .ok attributes ∧ map.Stamps attributes := by
  have hblank : map.totalLength ≤ (Attributes.blank map.totalLength).size :=
    (Attributes.size_blank _).ge
  have hbyte : ∀ i < map.totalLength, ∃ region ∈ map.regions, region.Holds i
      ∧ (map.regions.foldl Flow.Checked.placedRegion (Attributes.blank map.totalLength)).info i
        = Flow.Checked.placeByte region i .blank := by
    intro i hi
    obtain ⟨region, hr, hlow, hhigh⟩ := h.follow.exists_mem (Nat.zero_le i) hi
    refine ⟨region, hr, ⟨hlow, hhigh⟩, ?_⟩
    rw [Flow.Checked.info_foldl_placedRegion h.follow hblank hr hlow hhigh, Attributes.info_blank]
  refine ⟨_, Flow.Checked.foldlM_placeRegion h.follow hblank, ?_, fun i hi => ?_, fun i hi => ?_⟩
  · rw [Flow.Checked.size_foldl_placedRegion, Attributes.size_blank]
  · obtain ⟨region, hr, hin, hinfo⟩ := hbyte i hi
    rw [hinfo, h.addressOf?_eq_some hr hin.1 hin.2, (Flow.Checked.placeByte_blank region i).1]
  · obtain ⟨region, hr, hin, hinfo⟩ := hbyte i hi
    rw [hinfo, h.isRegionStart_eq hr hin.1 hin.2, (Flow.Checked.placeByte_blank region i).2]

end Valid

end AddressMap

/-! ### Through the stages of an analysis -/

theorem Data.Classed.isRegionStart {a b : Attribute} (h : Data.Classed a b) :
    b.isRegionStart = a.isRegionStart := by
  cases h <;> simp

/-- Following control leaves the bytes stamped, whatever the plugins do. -/
theorem Flow.analyze_stamps {ν σ : Type} {setup : Setup} (hmap : setup.map.Valid)
    {panel : List (Plugin ν σ)} {s : State ν σ}
    (h : analyze setup panel (Attributes.blank setup.image.size) = .ok s) :
    setup.map.Stamps s.attributes := by
  obtain ⟨hcheck, rfl⟩ := analyze_eq_ok.mp h
  have htotal := (check_eq_ok.mp hcheck).2.1
  have hplaced := outcome_placed setup panel
  refine hmap.stamps_of_getD (hplaced.size.trans htotal.symm) ?_ ?_
  · rw [htotal]
    exact hplaced.address
  · rw [htotal]
    exact hplaced.region

namespace Project.Stages

variable {ν σ : Type} {project : Project} {panel : List (Plugin ν σ)}
  {resolved laid tagged : Data.Workspace} {findings : Findings ν}
  (h : Stages project (Flow.outcome project.setup panel).attributes resolved laid tagged findings)

include h

theorem isRegionStart {i : Nat} (hi : i < project.setup.image.size) :
    (findings.attributes.info i).isRegionStart = project.setup.map.isRegionStart i := by
  have hclassed := (Data.info_classBytes (h.size.1.symm ▸ hi)).isRegionStart
  calc (findings.attributes.info i).isRegionStart
      = ((Data.classBytes resolved.attributes).info i).isRegionStart := by
        rw [Attribute.isRegionStart, h.marks, Attribute.isRegionStart]
    _ = (resolved.attributes.info i).isRegionStart := hclassed
    _ = ((Flow.outcome project.setup panel).attributes.info i).isRegionStart := by
        rw [Attribute.isRegionStart, h.resolved_retitles.marks, Attribute.isRegionStart]
    _ = project.setup.map.isRegionStart i := (Flow.outcome_placed project.setup panel).region i hi

/-- All stages of an analysis leave the bytes stamped. -/
theorem stamps (hmap : project.setup.map.Valid) :
    project.setup.map.Stamps findings.attributes := by
  have htotal := h.total
  refine hmap.stamps_of_getD (h.size.2.2.trans htotal.symm) ?_ ?_
  · rw [htotal]
    exact fun i hi => h.address hi
  · rw [htotal]
    exact fun i hi => h.isRegionStart hi

end Project.Stages

namespace AddressMap

/-- **Ranges and bytes are where the map says.**  In every map that is accepted, what is said about
ranges is true of their bytes, and the bytes are stamped with their addresses: by counting up region
by region, and in all that an analysis of an image or of a project with that map returns. -/
theorem create_places {ν σ : Type} {totalLength : Nat} {regions : List Region} {map : AddressMap}
    (hcreate : create totalLength regions = .ok map) :
    map.Measures totalLength regions
      ∧ (∃ attributes, map.regions.foldlM Flow.Checked.placeRegion (Attributes.blank totalLength)
          = .ok attributes ∧ map.Stamps attributes)
      ∧ (∀ (setup : Flow.Setup) (panel : List (Plugin ν σ)) (s : Flow.State ν σ), setup.map = map →
          Flow.analyze setup panel (Attributes.blank setup.image.size) = .ok s →
          map.Stamps s.attributes)
      ∧ ∀ (project : Project) (panel : List (Plugin ν σ)) (findings : Findings ν),
          project.setup.map = map → project.analyze panel = .ok findings →
          map.Stamps findings.attributes := by
  obtain ⟨rfl, hvalid⟩ := create_eq_ok.mp hcreate
  refine ⟨hvalid.measures, hvalid.placeRegion_stamps, ?_, ?_⟩
  · intro setup panel s hmap h
    rw [← hmap] at hvalid ⊢
    exact Flow.analyze_stamps hvalid h
  · intro project panel findings hmap h
    obtain ⟨resolved, laid, tagged, hstages⟩ := project.analyze_stages h
    rw [← hmap] at hvalid ⊢
    exact hstages.stamps hvalid

/-- Zeros in three regions: the second goes on where the first ends, and the third lies over the
second. -/
def overlaid : Project where
  setup :=
    { image := Array.replicate 12 0
      processor := ⟨.nmos6502, true, OpcodeTable.blank⟩
      map := ⟨[⟨0, 4, 0x1000⟩, ⟨4, 4, 0x1004⟩, ⟨8, 4, 0x1004⟩], 12⟩
      parameters := Parameters.initial
      hints := #[]
      overrides := #[]
      entryStatus := .indeterminate }
  platforms := []
  definitions := []
  labels := []
  formats := ∅
  comments := []

/-- From the first region to the second, addresses go on although the range is broken. -/
theorem create_places_overlaid :
    ∃ (s : Flow.State Unit Unit) (findings : Findings Unit),
      create 12 [⟨0, 4, 0x1000⟩, ⟨4, 4, 0x1004⟩, ⟨8, 4, 0x1004⟩] = .ok overlaid.setup.map
        ∧ overlaid.setup.map.Measures 12 [⟨0, 4, 0x1000⟩, ⟨4, 4, 0x1004⟩, ⟨8, 4, 0x1004⟩]
        ∧ (overlaid.setup.map.unbroken 2 4 = .ok false
          ∧ overlaid.setup.map.contiguous 2 4 = .ok true
          ∧ overlaid.setup.map.contiguous 6 4 = .ok false)
        ∧ Flow.analyze overlaid.setup [] (Attributes.blank 12) = .ok s
        ∧ overlaid.setup.map.Stamps s.attributes
        ∧ overlaid.analyze ([] : List (Plugin Unit Unit)) = .ok findings
        ∧ overlaid.setup.map.Stamps findings.attributes := by
  have hcreate : create 12 [⟨0, 4, 0x1000⟩, ⟨4, 4, 0x1004⟩, ⟨8, 4, 0x1004⟩]
      = .ok overlaid.setup.map := rfl
  obtain ⟨hmeasures, -, hflow, hproject⟩ :=
    create_places (ν := Unit) (σ := Unit) hcreate
  have hs : Flow.analyze overlaid.setup ([] : List (Plugin Unit Unit)) (Attributes.blank 12)
      = .ok (Flow.outcome overlaid.setup []) := Flow.analyze_eq_ok.mpr ⟨by decide, rfl⟩
  obtain ⟨findings, hfindings, -⟩ := Project.exists_ok (p := fun _ => true)
    (show (Except.map _ (overlaid.analyze ([] : List (Plugin Unit Unit)))).toOption = some true by
      decide +kernel)
  exact ⟨_, findings, hcreate, hmeasures, by decide, hs, hflow _ _ _ rfl hs, hfindings,
    hproject _ _ _ rfl hfindings⟩

end AddressMap

end Disasm65
