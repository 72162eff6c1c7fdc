/-
What is known about the status only grows.

Two paths that meet pool what they know, and an override has the last word on the flags it
specifies.  So off the override a status only gains possibilities (`WithinOff`), and on it nothing
ever moves (`Obeys`).  Each of the nine flags has two marks to gain; `room` counts the marks that
are missing, and a status that obeys its override and changes has less room than before.
-/
import Mathlib
import Disasm65.Status.Flags

namespace Disasm65

namespace BitState

@[simp]
theorem couldBeZero_ofMarks (zero one : Bool) : (ofMarks zero one).couldBeZero = zero := by
  cases zero <;> cases one <;> rfl

@[simp]
theorem couldBeOne_ofMarks (zero one : Bool) : (ofMarks zero one).couldBeOne = one := by
  cases zero <;> cases one <;> rfl

theorem ofMarks_eq_unspecified {zero one : Bool} :
    ofMarks zero one = .unspecified ↔ zero = false ∧ one = false := by
  cases zero <;> cases one <;> simp [ofMarks]

/-- Two states with the same marks are the same. -/
theorem eq_of_marks {state other : BitState} (hzero : state.couldBeZero = other.couldBeZero)
    (hone : state.couldBeOne = other.couldBeOne) : state = other := by
  revert hzero hone
  cases state <;> cases other <;> simp [couldBeZero, couldBeOne]

/-- Every possibility of `state` is one of `other`. -/
def Within (state other : BitState) : Prop :=
  (state.couldBeZero → other.couldBeZero) ∧ (state.couldBeOne → other.couldBeOne)

instance (state other : BitState) : Decidable (Within state other) :=
  inferInstanceAs (Decidable (_ ∧ _))

theorem Within.refl (state : BitState) : Within state state := ⟨id, id⟩

theorem Within.trans {a b c : BitState} (hab : Within a b) (hbc : Within b c) : Within a c :=
  ⟨fun h => hbc.1 (hab.1 h), fun h => hbc.2 (hab.2 h)⟩

/-- The marks that a state lacks. -/
def room : BitState → Nat
  | .unspecified => 2
  | .indeterminate => 0
  | .zero | .one => 1

theorem room_le (state : BitState) : state.room ≤ 2 := by
  cases state <;> decide

theorem room_le_of_within {state other : BitState} (h : Within state other) :
    other.room ≤ state.room := by
  revert h
  cases state <;> cases other <;> decide

theorem room_lt_of_within {state other : BitState} (h : Within state other)
    (hne : state ≠ other) : other.room < state.room := by
  revert h hne
  cases state <;> cases other <;> decide

end BitState

namespace TriState

variable {w : Nat}

@[simp]
theorem couldBeZero_get (t : TriState w) (i : Nat) :
    (t.get i).couldBeZero = t.zero.getLsbD i :=
  BitState.couldBeZero_ofMarks _ _

@[simp]
theorem couldBeOne_get (t : TriState w) (i : Nat) : (t.get i).couldBeOne = t.one.getLsbD i :=
  BitState.couldBeOne_ofMarks _ _

/-- A word is what it says about each of its bits. -/
theorem ext_get {t other : TriState w} (h : ∀ i < w, t.get i = other.get i) : t = other := by
  obtain ⟨zero, one⟩ := t
  obtain ⟨zero', one'⟩ := other
  have hzero : zero = zero' := by
    refine BitVec.eq_of_getLsbD_eq fun i hi => ?_
    have := congrArg BitState.couldBeZero (h i hi)
    simpa using this
  have hone : one = one' := by
    refine BitVec.eq_of_getLsbD_eq fun i hi => ?_
    have := congrArg BitState.couldBeOne (h i hi)
    simpa using this
  rw [hzero, hone]

theorem get_apply (t overrides : TriState w) (i : Nat) :
    (t.apply overrides).get i
      = if overrides.get i = .unspecified then t.get i else overrides.get i := by
  have hkeep : ∀ word : BitVec w, (word.getLsbD i && decide (i < w)) = word.getLsbD i := by
    intro word
    by_cases hi : i < w
    · simp [hi]
    · simp [BitVec.getLsbD_of_ge word i (Nat.le_of_not_lt hi)]
  by_cases hu : overrides.get i = .unspecified
  · obtain ⟨hz, ho⟩ := BitState.ofMarks_eq_unspecified.mp hu
    rw [if_pos hu]
    apply BitState.eq_of_marks <;>
      simp only [apply, couldBeZero_get, couldBeOne_get, BitVec.getLsbD_or, BitVec.getLsbD_and,
        BitVec.getLsbD_not, hz, ho, Bool.or_false, Bool.not_false, Bool.and_true, hkeep]
  · have hmark : (overrides.zero.getLsbD i || overrides.one.getLsbD i) = true := by
      rw [TriState.get, BitState.ofMarks_eq_unspecified] at hu
      by_contra hnone
      exact hu (by simpa using hnone)
    rw [if_neg hu]
    apply BitState.eq_of_marks <;>
      simp only [apply, couldBeZero_get, couldBeOne_get, BitVec.getLsbD_or, BitVec.getLsbD_and,
        BitVec.getLsbD_not, hmark, Bool.not_true, Bool.and_false, Bool.false_or]

end TriState

instance : Fintype Flag where
  elems := Flag.all.toFinset
  complete flag := by cases flag <;> decide

namespace Flag

theorem position_surjective {i : Nat} (h : i < 9) : ∃ flag : Flag, flag.position = i := by
  have hall : ∀ j : Fin 9, ∃ flag : Flag, flag.position = j.val := by decide
  exact hall ⟨i, h⟩

end Flag

namespace StatusFlags

/-- A status is what it says about each flag. -/
theorem ext_get {status other : StatusFlags} (h : ∀ flag, status.get flag = other.get flag) :
    status = other := by
  have hbits : status.bits = other.bits := by
    refine TriState.ext_get fun i hi => ?_
    obtain ⟨flag, hflag⟩ := Flag.position_surjective hi
    have := h flag
    rwa [get, get, hflag] at this
  exact congrArg StatusFlags.mk hbits

theorem get_apply (status overrides : StatusFlags) (flag : Flag) :
    (status.apply overrides).get flag
      = if overrides.get flag = .unspecified then status.get flag else overrides.get flag :=
  TriState.get_apply _ _ _

theorem within_merge_left (status other : StatusFlags) (flag : Flag) :
    (status.get flag).Within ((status.merge other).get flag) := by
  constructor <;> · intro h; simp_all [get, merge, TriState.merge]

theorem within_merge_right (status other : StatusFlags) (flag : Flag) :
    (other.get flag).Within ((status.merge other).get flag) := by
  constructor <;> · intro h; simp_all [get, merge, TriState.merge]

/-! ### Obeying an override, and growing off it -/

/-- The status agrees with the override on every flag that the override specifies. -/
def Obeys (status overrides : StatusFlags) : Prop :=
  ∀ flag, overrides.get flag ≠ .unspecified → status.get flag = overrides.get flag

/-- Every possibility of `status` is one of `other`, on the flags that the override leaves
open. -/
def WithinOff (overrides status other : StatusFlags) : Prop :=
  ∀ flag, overrides.get flag = .unspecified → (status.get flag).Within (other.get flag)

instance (status overrides : StatusFlags) : Decidable (Obeys status overrides) :=
  inferInstanceAs (Decidable (∀ _, _))

instance (overrides status other : StatusFlags) : Decidable (WithinOff overrides status other) :=
  inferInstanceAs (Decidable (∀ _, _))

theorem obeys_apply (status overrides : StatusFlags) :
    Obeys (status.apply overrides) overrides := by
  intro flag hflag
  rw [get_apply, if_neg hflag]

theorem WithinOff.refl (overrides status : StatusFlags) : WithinOff overrides status status :=
  fun _ _ => .refl _

theorem WithinOff.trans {overrides a b c : StatusFlags} (hab : WithinOff overrides a b)
    (hbc : WithinOff overrides b c) : WithinOff overrides a c :=
  fun flag hflag => (hab flag hflag).trans (hbc flag hflag)

theorem withinOff_apply (overrides status : StatusFlags) :
    WithinOff overrides status (status.apply overrides) := by
  intro flag hflag
  rw [get_apply, if_pos hflag]
  exact .refl _

/-! ### The room that is left -/

/-- The marks that a status lacks, over all flags. -/
def room (status : StatusFlags) : Nat := ∑ flag, (status.get flag).room

theorem room_le (status : StatusFlags) : status.room ≤ 18 :=
  calc status.room ≤ ∑ _flag : Flag, 2 := Finset.sum_le_sum fun _ _ => BitState.room_le _
    _ = 18 := by decide

/-- **A status that obeys its override and grows has less room.** -/
theorem room_lt_of_withinOff {overrides status other : StatusFlags}
    (hs : Obeys status overrides) (ho : Obeys other overrides)
    (hgrow : WithinOff overrides status other) (hne : other ≠ status) :
    other.room < status.room := by
  have hwithin : ∀ flag, (status.get flag).Within (other.get flag) := by
    intro flag
    by_cases hflag : overrides.get flag = .unspecified
    · exact hgrow flag hflag
    · rw [hs flag hflag, ho flag hflag]
      exact .refl _
  obtain ⟨flag, hflag⟩ : ∃ flag, status.get flag ≠ other.get flag := by
    by_contra hall
    push Not at hall
    exact hne (ext_get hall).symm
  exact Finset.sum_lt_sum (fun i _ => BitState.room_le_of_within (hwithin i))
    ⟨flag, Finset.mem_univ flag, BitState.room_lt_of_within (hwithin flag) hflag⟩

end StatusFlags

end Disasm65
