/-
What stands in the way of control.

Data does.  Where hints only ever name code, the one way for a byte to become data is an
instruction that does not fit there (`Unobstructed`), so a byte where the instruction fits under
every status is always open.  Nothing stands in the way of the first visit of any byte, and so every
branch is resolved when it is first followed.
-/
import Mathlib
import Disasm65.Proofs.Flow.Operand

namespace Disasm65.Flow

variable {ν σ : Type}

/-- Whatever the status, the instruction at `offset` stays in the image and in one region. -/
def AlwaysFits (setup : Setup) (offset : Nat) : Prop :=
  ∀ status, FitsAt setup offset ((setup.opcodeAt offset).length status)

theorem AlwaysFits.lt {setup : Setup} {offset : Nat} (h : AlwaysFits setup offset) :
    offset < setup.image.size := by
  have hpos := length_pos (setup.opcodeAt offset) .unspecified
  have hend := (h .unspecified).1
  omega

/-! ### What stands in the way -/

/-- Only an instruction that may not fit turns a byte into data, and only on a visit. -/
structure Unobstructed (setup : Setup) (i : Nat) (a : Attribute) : Prop where
  inline : a.isInlineData = false
  data : a.isData = true → a.isVisited = true ∧ ¬ AlwaysFits setup i
  start : a.isVisited = true → AlwaysFits setup i → (setup.opcodeAt i).isValid = true →
    a.isInstructionStart = true
  free : a.marks.has .noContinuePlugin = false

namespace Unobstructed

variable {setup : Setup} {i : Nat} {a b : Attribute}

theorem isBlocked_of_not_visited (ha : Unobstructed setup i a) (hv : a.isVisited = false) :
    isBlocked a = false := by
  refine Bool.or_eq_false_iff.mpr ⟨?_, ha.inline⟩
  by_contra hd
  rw [(ha.data (by simpa using hd)).1] at hv
  cases hv

theorem isBlocked_of_alwaysFits (ha : Unobstructed setup i a) (hfits : AlwaysFits setup i) :
    isBlocked a = false := by
  refine Bool.or_eq_false_iff.mpr ⟨?_, ha.inline⟩
  by_contra hd
  exact (ha.data (by simpa using hd)).2 hfits

theorem evolves (ha : Unobstructed setup i a) (h : Evolves setup False i a b) :
    Unobstructed setup i b := by
  refine ⟨?_, fun hd => ?_, fun hv hfits hvalid => ?_, (h.own rfl).trans ha.free⟩
  · by_contra hc
    rcases h.inlineData (by simpa using hc) with hi | ⟨hp, _⟩
    · rw [ha.inline] at hi
      cases hi
    · exact hp
  · obtain ⟨hv, hfits⟩ := ha.data (h.data hd)
    exact ⟨h.visited.trans hv, hfits⟩
  · rw [h.visited] at hv
    exact (h.own rfl).trans (ha.start hv hfits hvalid)

/-- An instruction that has been decoded is no data. -/
theorem finishes {stops : Bool} (ha : Unobstructed setup i a)
    (h : Finishes setup False i stops (decodedByte setup i a) b) : Unobstructed setup i b := by
  obtain ⟨_, hdata, hinline⟩ := h.isCode (by simp [decodedByte_has])
  refine ⟨hinline, fun hd => ?_, fun _ _ _ => ?_, ?_⟩
  · rw [hdata] at hd
    cases hd
  · refine (h.own rfl (by decide) (by decide)).trans ?_
    simp [decodedByte_has]
  · rw [h.noContinuePlugin id, decodedByte_has _ _ (by decide)]
    simpa using ha.free

theorem becomes {s : State ν σ} (hi : Unobstructed setup i (s.info i))
    (h : Becomes setup False i s b) (hplaced : Placed setup s) : Unobstructed setup i b := by
  cases h with
  | kept _ => exact hi
  | halted _ hstop =>
      refine ⟨by simpa [visitByte] using hi.inline, fun hd => ?_, fun _ hfits hvalid => ?_,
        by simpa [visitByte] using hi.free⟩
      · obtain ⟨_, hfits⟩ := hi.data (by simpa [visitByte] using hd)
        exact ⟨by simp [visitByte], hfits⟩
      · rcases hstop with hblocked | hinvalid
        · rw [hi.isBlocked_of_alwaysFits hfits] at hblocked
          cases hblocked
        · rw [hvalid] at hinvalid
          cases hinvalid
  | rejected _ hleaves =>
      have hnot : ¬ AlwaysFits setup i := by
        intro hfits
        rw [(hplaced.staysInRegion_iff _ _).mpr (hfits _)] at hleaves
        cases hleaves
      refine ⟨by simpa [visitByte, rejectByte] using hi.inline, fun _ => ⟨?_, hnot⟩,
        fun _ hfits => absurd hfits hnot, by simpa [visitByte, rejectByte] using hi.free⟩
      simp [visitByte, rejectByte]
  | executed _ _ _ _ hfinish => exact hi.finishes hfinish

/-- Entering at a byte puts nothing in the way. -/
theorem enter (setup : Setup) {s : State ν σ} (offset : Nat)
    (hi : Unobstructed setup i (s.info i)) :
    Unobstructed setup i ((Flow.enter setup offset s).info i) := by
  rw [info_enter]
  split
  · exact ⟨by simpa using hi.inline, fun hd => by simpa using hi.data (by simpa using hd),
      fun hv hfits hvalid => by simpa using hi.start (by simpa using hv) hfits hvalid,
      by simpa using hi.free⟩
  · exact hi

end Unobstructed

/-- A mode that is not defined has no operand. -/
theorem not_refersToAddress_of_invalid {setup : Setup} {i : Nat}
    (h : (setup.opcodeAt i).isValid = false) : ¬ RefersToAddress setup i := by
  intro hrefers
  obtain ⟨target, htarget⟩ := hrefers
  have hmode : (setup.opcodeAt i).mode = .undefined := by simpa [Opcode.isValid] using h
  rw [hmode] at htarget
  cases htarget

/-- A visit leaves its branch resolved, as nothing stands in the way of the first one. -/
theorem Resolved.becomes {setup : Setup} {i : Nat} {s : State ν σ} {b : Attribute}
    (hi : Resolved setup i (s.info i)) (h : Becomes setup False i s b)
    (hopen : Unobstructed setup i (s.info i)) (hplaced : Placed setup s) : Resolved setup i b := by
  cases h with
  | kept _ => exact hi
  | halted _ hstop =>
      refine hi.undecoded rfl rfl (by simp [visitByte]) fun hv => Or.inl ?_
      rcases hstop with hblocked | hinvalid
      · rw [hopen.isBlocked_of_not_visited hv] at hblocked
        cases hblocked
      · exact not_refersToAddress_of_invalid hinvalid
  | rejected _ hleaves =>
      refine hi.undecoded rfl rfl (by simp [visitByte, rejectByte]) fun _ => ?_
      by_cases hrefers : RefersToAddress setup i
      · refine Or.inr ⟨hrefers, fun hfits => ?_⟩
        obtain ⟨target, htarget⟩ := hrefers
        have hlength : (setup.opcodeAt i).length .unspecified
            = (setup.opcodeAt i).length (s.info i).status :=
          length_eq_of_targetAddress? htarget _ _
        rw [hlength, ← hplaced.staysInRegion_iff, hleaves] at hfits
        cases hfits
      · exact Or.inl hrefers
  | executed hin _ _ _ hfinish => exact hi.finishes (hplaced.address i hin) hfinish

end Disasm65.Flow
