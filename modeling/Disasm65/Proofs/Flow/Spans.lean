/-
Instructions and formats stay in their regions.

An instruction is decoded only where it does not leave its region, an operand gets a format of the
instruction's length, and a claim of inline data is refused unless its bytes lie in one region.  So
whatever the plugins do, every instruction and every item of the result is in one region from its
first byte to its last (`outcome_laid`).
-/
import Mathlib
import Disasm65.Proofs.AddressMap.Contiguous
import Disasm65.Proofs.Flow.Bounds
import Disasm65.Proofs.Flow.Moments

namespace Disasm65

namespace AddressMap

/-- The bytes at two offsets lie in one region. -/
def SameRegion (map : AddressMap) (i j : Nat) : Prop :=
  ∃ region ∈ map.regions, (region.offset ≤ i ∧ i < region.offset + region.length)
    ∧ region.offset ≤ j ∧ j < region.offset + region.length

/-- The bytes of the item of `length` bytes at `offset` lie in the region of the first of them. -/
def Whole (map : AddressMap) (offset length : Nat) : Prop :=
  ∀ i, offset ≤ i → i < offset + length → map.SameRegion offset i

theorem SameRegion.symm {map : AddressMap} {i j : Nat} (h : map.SameRegion i j) :
    map.SameRegion j i := by
  obtain ⟨region, hr, hi, hj⟩ := h
  exact ⟨region, hr, hj, hi⟩

namespace Valid

variable {map : AddressMap} (h : map.Valid)

include h

theorem sameRegion_refl {i : Nat} (hi : i < map.totalLength) : map.SameRegion i i := by
  obtain ⟨region, hr, hlow, hhigh⟩ := h.follow.exists_mem (Nat.zero_le i) hi
  exact ⟨region, hr, ⟨hlow, hhigh⟩, hlow, hhigh⟩

theorem lt_of_sameRegion {i j : Nat} (hij : map.SameRegion i j) :
    i < map.totalLength ∧ j < map.totalLength := by
  obtain ⟨region, hr, hi, hj⟩ := hij
  have hend := (h.follow.mem hr).2.1
  omega

/-- In one region addresses differ as offsets do. -/
theorem distance_of_sameRegion {i j : Nat} (hij : map.SameRegion i j) :
    (((map.addressOf? i).getD 0 : Nat) : Int) - ((map.addressOf? j).getD 0 : Nat)
      = (i : Int) - j := by
  obtain ⟨region, hr, hi, hj⟩ := hij
  rw [h.addressOf?_region hr hi.1 hi.2, h.addressOf?_region hr hj.1 hj.2, Option.getD_some,
    Option.getD_some]
  omega

theorem whole_of_isUnbroken {offset length : Nat}
    (hunbroken : map.isUnbroken offset length = true) : map.Whole offset length := by
  intro i hlow hhigh
  obtain ⟨hlength, region, hr, hstart, hstop⟩ := h.isUnbroken_iff.mp hunbroken
  exact ⟨region, hr, ⟨hstart, by omega⟩, by omega, by omega⟩

end Valid

end AddressMap

namespace Flow

variable {ν σ : Type} {setup : Setup}

section Fits

variable (hmap : setup.map.Valid) (htotal : setup.map.totalLength = setup.image.size)

include hmap htotal

/-- Where no region starts after the first byte, the others are in its region. -/
theorem FitsAt.sameRegion {offset length : Nat} (h : FitsAt setup offset length) {i : Nat}
    (hlow : offset ≤ i) (hhigh : i < offset + length) : setup.map.SameRegion offset i := by
  obtain ⟨hend, hinside⟩ := h
  obtain ⟨region, hr, hstart, hstop⟩ :=
    hmap.follow.exists_mem (Nat.zero_le offset) (show offset < setup.map.totalLength by omega)
  refine ⟨region, hr, ⟨hstart, hstop⟩, by omega, ?_⟩
  by_contra hout
  -- the region after it starts where it stops, which is after `offset` and no later than `i`
  obtain ⟨next, hnext, hnextStart, hnextStop⟩ := hmap.follow.exists_mem
    (Nat.zero_le (region.offset + region.length))
    (show region.offset + region.length < setup.map.totalLength by omega)
  have hfirst := hinside (region.offset + region.length) (by omega) (by omega)
  rw [hmap.isRegionStart_eq hnext hnextStart hnextStop, beq_eq_false_iff_ne] at hfirst
  have hboth := hmap.regionAt?_eq_some hnext (i := region.offset + region.length - 1)
    (by omega) (by omega)
  rw [hmap.regionAt?_eq_some hr (by omega) (by omega), Option.some.injEq] at hboth
  subst hboth
  omega

theorem FitsAt.whole {offset length : Nat} (h : FitsAt setup offset length) :
    setup.map.Whole offset length := by
  intro i hlow hhigh
  exact h.sameRegion hmap htotal hlow hhigh

end Fits

/-- Every instruction and every item stays in its region. -/
structure Laid (setup : Setup) (attributes : Attributes) : Prop where
  starts : ∀ i, (attributes.info i).isInstructionStart = true →
    FitsAt setup i (attributes.info i).instructionLength
  formats : ∀ i format, (attributes.info i).format = some format →
    setup.map.Whole i format.length

namespace Laid

variable {x y : Attributes}

theorem touched (hx : Laid setup x) (h : TouchedAll setup x y) : Laid setup y := by
  refine ⟨fun i hi => ?_, fun i format hi => ?_⟩
  · rcases (h.bytes i).start hi with hfits | ⟨hstart, hlength⟩
    · exact hfits
    · rw [hlength]
      exact hx.starts i hstart
  · rcases (h.bytes i).format with hsame | hnone
    · exact hx.formats i format (hsame.symm.trans hi)
    · rw [hnone] at hi
      cases hi

/-- A byte whose format is chosen gets one that stays in its region. -/
theorem update_format (hx : Laid setup x) {offset : Nat} {format : Format}
    (hformat : setup.map.Whole offset format.length) :
    Laid setup (x.update offset fun a => { a with format := some format }) := by
  refine ⟨fun i hi => ?_, fun i other hi => ?_⟩
  · rw [Attributes.info_update] at hi ⊢
    split at hi
    · rename_i hcond
      rw [if_pos hcond]
      exact hx.starts i hi
    · rename_i hcond
      rw [if_neg hcond]
      exact hx.starts i hi
  · rw [Attributes.info_update] at hi
    split at hi
    · rename_i hcond
      obtain ⟨rfl, _⟩ := hcond
      cases hi
      exact hformat
    · exact hx.formats i other hi

theorem updateRange_inline (hx : Laid setup x) (offset length : Nat) :
    Laid setup (x.updateRange offset length fun a => a.mark .inlineData) := by
  have hsame : ∀ i, let b := (x.updateRange offset length fun a => a.mark .inlineData).info i
      b.isInstructionStart = (x.info i).isInstructionStart
        ∧ b.instructionLength = (x.info i).instructionLength ∧ b.format = (x.info i).format := by
    intro i
    dsimp only
    rw [Attributes.info_updateRange]
    split
    · exact ⟨by simp, rfl, rfl⟩
    · exact ⟨rfl, rfl, rfl⟩
  refine ⟨fun i hi => ?_, fun i format hi => ?_⟩
  · rw [(hsame i).2.1]
    exact hx.starts i ((hsame i).1.symm.trans hi)
  · exact hx.formats i format ((hsame i).2.2.symm.trans hi)

section Regions

variable (hmap : setup.map.Valid) (htotal : setup.map.totalLength = setup.image.size)

include hmap htotal

theorem grants {claim? : Option Declaration} (hx : Laid setup x)
    (h : Grants setup x claim? y) : Laid setup y := by
  cases h with
  | nothing => exact hx
  | operand hdecide =>
      obtain ⟨_, _, hstart, hlength⟩ := decideOperand_eq_ok hdecide
      refine hx.update_format ?_
      rw [hlength]
      exact (hx.starts _ hstart).whole hmap htotal
  | inline hdecide =>
      obtain ⟨_, hunbroken, _, _, hlength⟩ := decideInline_eq_ok hdecide
      refine (hx.update_format ?_).updateRange_inline _ _
      rw [hlength]
      exact hmap.whole_of_isUnbroken hunbroken

theorem settled (hx : Laid setup x) (hsize : x.size = setup.image.size) :
    Laid setup (settle x) := by
  refine ⟨fun i hi => ?_, fun i format hi => ?_⟩
  · have hsame := (info_settle x i).eq_of_start hi
    rw [hsame] at hi ⊢
    exact hx.starts i hi
  · rcases info_settle x i with hsame | ⟨_, hsettled⟩
    · rw [hsame] at hi
      exact hx.formats i format hi
    · rw [hsettled, settleByte] at hi
      split at hi
      · rename_i hcode
        split at hi
        · exact hx.formats i format hi
        · -- one byte is in one region
          cases hi
          have hin := Attributes.lt_size_of_has hcode
          intro j hlow hhigh
          dsimp only [Format.oneByteNumber] at hhigh
          obtain rfl : i = j := by omega
          exact hmap.sameRegion_refl (by omega)
      · exact hx.formats i format hi

end Regions

end Laid

section Outcome

variable (hmap : setup.map.Valid) (htotal : setup.map.totalLength = setup.image.size)
variable (panel : List (Plugin ν σ))

theorem startConfig_laid : Laid setup (startConfig setup panel).state.attributes := by
  have hbyte := Untitled.prepare setup
  refine ⟨fun i hi => ?_, fun i format hi => ?_⟩
  · change ((setup.prepare (Attributes.blank setup.image.size)).info i).marks.has
      .instructionStart = true at hi
    rw [info_prepare_has i (by decide)] at hi
    cases hi
  · rw [show (startConfig setup panel).state.attributes.info i
      = (setup.prepare (Attributes.blank setup.image.size)).info i from rfl, (hbyte i).format] at hi
    cases hi

include hmap htotal

theorem Moment.Reached.laid {m : Moment ν σ} (hm : m.Reached setup panel) :
    Laid setup m.attributes := by
  have hboth : Laid setup m.attributes ∧ m.Sound setup := by
    refine hm.preserves (P := fun m => Laid setup m.attributes ∧ m.Sound setup)
      ⟨startConfig_laid panel, ⟨startConfig_placed setup panel, by simp⟩⟩ fun h hnext => ?_
    refine ⟨?_, Moment.next_sound h.2 hnext⟩
    rcases Moment.next_changes h.2 hnext with hgrants | ⟨_, htouched⟩
    · exact h.1.grants hmap htotal hgrants
    · exact h.1.touched htouched
  exact hboth.1

/-- **Whatever the plugins do, instructions and items stay in their regions.** -/
theorem outcome_laid : Laid setup (outcome setup panel).attributes := by
  obtain ⟨n, _, t, hsteps, _, houtcome⟩ := outcome_reached setup panel
  obtain ⟨m, hm, hconfig, htalk⟩ := hsteps.exists_reached
  have hattributes : m.attributes = t.attributes := by
    rw [Moment.attributes, htalk, hconfig]
  have hlaid := hm.laid hmap htotal panel
  have hplaced := hm.sound.placed
  rw [hconfig] at hplaced
  rw [hattributes] at hlaid
  rw [houtcome]
  exact hlaid.settled hmap htotal hplaced.size

end Outcome

end Flow

end Disasm65
