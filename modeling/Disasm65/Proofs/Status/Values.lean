/-
The values of the flags that a status stands for.

While a program runs every flag has a value.  A status admits the values that agree with it on the
flags it knows, and says nothing about the others (`Admits`).  Giving a flag a state leaves the
other flags alone (`get_set`), so what is admitted after it can be told flag by flag.
-/
import Mathlib
import Disasm65.Proofs.Status

namespace Disasm65

/-- The values of the nine flags at one moment of a run. -/
abbrev FlagValues := Flag → Bool

namespace BitState

/-- A flag in this state can have the value. -/
def Admits : (state : BitState) → (value : Bool) → Prop
  | .zero, value => value = false
  | .one, value => value = true
  | .unspecified, _ | .indeterminate, _ => True

instance (state : BitState) (value : Bool) : Decidable (state.Admits value) := by
  unfold Admits
  split <;> infer_instance

@[simp]
theorem admits_zero {value : Bool} : BitState.zero.Admits value ↔ value = false := Iff.rfl

@[simp]
theorem admits_one {value : Bool} : BitState.one.Admits value ↔ value = true := Iff.rfl

@[simp]
theorem admits_indeterminate (value : Bool) : BitState.indeterminate.Admits value := trivial

@[simp]
theorem admits_ofBool {value other : Bool} : (ofBool value).Admits other ↔ other = value := by
  cases value <;> rfl

end BitState

namespace TriState

variable {w : Nat}

theorem getLsbD_putMark (word : BitVec w) {i : Nat} (hi : i < w) (on : Bool) (j : Nat) :
    (putMark word i on).getLsbD j = if j = i then on else word.getLsbD j := by
  unfold putMark
  by_cases hj : j = i
  · subst hj
    cases on <;> simp [hi]
  · rw [if_neg hj]
    by_cases hw : j < w
    · cases on <;> simp [hj, hw]
    · rw [BitVec.getLsbD_of_ge _ _ (Nat.le_of_not_lt hw),
        BitVec.getLsbD_of_ge _ _ (Nat.le_of_not_lt hw)]

theorem get_set (t : TriState w) {i : Nat} (hi : i < w) (state : BitState) (j : Nat) :
    (t.set i state).get j = if j = i then state else t.get j := by
  apply BitState.eq_of_marks
  · rw [couldBeZero_get, set, getLsbD_putMark _ hi]
    split
    · rfl
    · exact (couldBeZero_get t j).symm
  · rw [couldBeOne_get, set, getLsbD_putMark _ hi]
    split
    · rfl
    · exact (couldBeOne_get t j).symm

end TriState

namespace Flag

theorem position_lt (flag : Flag) : flag.position < 9 := by
  cases flag <;> decide

theorem position_injective : Function.Injective position := by
  intro flag other
  cases flag <;> cases other <;> decide

end Flag

namespace StatusFlags

@[simp]
theorem get_set (status : StatusFlags) (flag : Flag) (state : BitState) (other : Flag) :
    (status.set flag state).get other = if other = flag then state else status.get other := by
  rw [get, set, TriState.get_set _ flag.position_lt]
  exact if_congr Flag.position_injective.eq_iff rfl rfl

@[simp]
theorem get_setAll (flags : List Flag) (state : BitState) (status : StatusFlags) (other : Flag) :
    (status.setAll flags state).get other
      = if other ∈ flags then state else status.get other := by
  unfold setAll
  induction flags generalizing status with
  | nil => rfl
  | cons flag flags ih =>
      rw [List.foldl_cons, ih, get_set]
      by_cases hrest : other ∈ flags
      · rw [if_pos hrest, if_pos (List.mem_cons_of_mem _ hrest)]
      · rw [if_neg hrest]
        exact if_congr ((List.mem_cons.trans (or_iff_left hrest)).symm) rfl rfl

/-- The flags can have these values as far as the status tells. -/
def Admits (status : StatusFlags) (values : FlagValues) : Prop :=
  ∀ flag, (status.get flag).Admits (values flag)

instance (status : StatusFlags) (values : FlagValues) : Decidable (status.Admits values) :=
  inferInstanceAs (Decidable (∀ _, _))

theorem Admits.set {status : StatusFlags} {values : FlagValues} (h : status.Admits values)
    (flag : Flag) {state : BitState} {value : Bool} (hvalue : state.Admits value) :
    (status.set flag state).Admits (Function.update values flag value) := by
  intro other
  rw [get_set, Function.update_apply]
  split
  · exact hvalue
  · exact h other

theorem Admits.setAll {status : StatusFlags} {values after : FlagValues}
    (h : status.Admits values) {flags : List Flag} {state : BitState}
    (hin : ∀ flag ∈ flags, state.Admits (after flag))
    (hout : ∀ flag ∉ flags, after flag = values flag) :
    (status.setAll flags state).Admits after := by
  intro flag
  rw [get_setAll]
  split
  · exact hin flag ‹_›
  · rw [hout flag ‹_›]
    exact h flag

end StatusFlags

end Disasm65
