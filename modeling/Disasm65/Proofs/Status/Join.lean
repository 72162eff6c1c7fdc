/-
What is known when paths meet is the join of what each of them knows.

A state of a bit is above another when it leaves more possible: nothing is below an unspecified bit
and nothing above an indeterminate one, and zero and one are apart (`BitState.le_iff`).  Merging two
words takes the join of the states of each bit (`TriState.get_merge`), and that is all there is to
its laws.  A place that is reached again and again merges each arrival in and lets its override have
the last word (`TriState.absorb`): a bit that the override leaves open is the join of all that has
arrived, whatever the order, and the others stay where the override puts them.
-/
import Mathlib
import Disasm65.Proofs.Status

namespace Disasm65

namespace BitState

/-- The state with the possibilities of both. -/
def join (state other : BitState) : BitState :=
  ofMarks (state.couldBeZero || other.couldBeZero) (state.couldBeOne || other.couldBeOne)

/-- States are ordered by what they leave possible. -/
instance : SemilatticeSup BitState where
  le := Within
  le_refl := .refl
  le_trans _ _ _ := .trans
  le_antisymm _ _ hle hge :=
    eq_of_marks (Bool.eq_iff_iff.mpr ⟨hle.1, hge.1⟩) (Bool.eq_iff_iff.mpr ⟨hle.2, hge.2⟩)
  sup := join
  le_sup_left state other := by cases state <;> cases other <;> decide
  le_sup_right state other := by cases state <;> cases other <;> decide
  sup_le state other bound := by cases state <;> cases other <;> cases bound <;> decide

instance : DecidableLE BitState := fun state other =>
  inferInstanceAs (Decidable (Within state other))

instance : BoundedOrder BitState where
  bot := .unspecified
  bot_le state := by cases state <;> decide
  top := .indeterminate
  le_top state := by cases state <;> decide

/-- Only the least and the greatest state are comparable with another one. -/
theorem le_iff {state other : BitState} :
    state ≤ other ↔ state = .unspecified ∨ other = .indeterminate ∨ state = other := by
  cases state <;> cases other <;> decide

end BitState

namespace TriState

variable {w : Nat}

/-- **Merging takes the join of the states of each bit.** -/
@[simp]
theorem get_merge (t other : TriState w) (i : Nat) :
    (t.merge other).get i = t.get i ⊔ other.get i := by
  apply BitState.eq_of_marks
  · rw [couldBeZero_get, merge, BitVec.getLsbD_or, ← couldBeZero_get, ← couldBeZero_get]
    exact (BitState.couldBeZero_ofMarks _ _).symm
  · rw [couldBeOne_get, merge, BitVec.getLsbD_or, ← couldBeOne_get, ← couldBeOne_get]
    exact (BitState.couldBeOne_ofMarks _ _).symm

theorem merge_comm (t other : TriState w) : t.merge other = other.merge t :=
  ext_get fun i _ => by rw [get_merge, get_merge, sup_comm]

theorem merge_assoc (t other third : TriState w) :
    (t.merge other).merge third = t.merge (other.merge third) :=
  ext_get fun i _ => by simp only [get_merge, sup_assoc]

theorem merge_self (t : TriState w) : t.merge t = t :=
  ext_get fun i _ => by rw [get_merge, sup_idem]

/-- A second override with the same states changes nothing. -/
theorem apply_apply (t overrides : TriState w) :
    (t.apply overrides).apply overrides = t.apply overrides := by
  refine ext_get fun i _ => ?_
  rw [get_apply (t.apply overrides)]
  split
  · rfl
  · rename_i hfixed
    rw [get_apply, if_neg hfixed]

/-! ### One arrival after the other -/

/-- What is known after arrivals one by one: each is merged in, and the override has the last
word. -/
def absorb (overrides t : TriState w) (arrivals : List (TriState w)) : TriState w :=
  arrivals.foldl (fun t arrival => (t.merge arrival).apply overrides) t

variable {overrides t : TriState w} {i : Nat}

theorem absorb_append (overrides t : TriState w) (arrivals later : List (TriState w)) :
    absorb overrides t (arrivals ++ later)
      = absorb overrides (absorb overrides t arrivals) later :=
  List.foldl_append ..

/-- **A bit that the override leaves open is the join of what has arrived.** -/
theorem get_absorb_le_iff (hopen : overrides.get i = .unspecified)
    (arrivals : List (TriState w)) {bound : BitState} :
    (absorb overrides t arrivals).get i ≤ bound
      ↔ t.get i ≤ bound ∧ ∀ arrival ∈ arrivals, arrival.get i ≤ bound := by
  induction arrivals generalizing t with
  | nil => simp [absorb]
  | cons arrival arrivals ih =>
      have hstep : ((t.merge arrival).apply overrides).get i = t.get i ⊔ arrival.get i := by
        rw [get_apply, if_pos hopen, get_merge]
      have hrun : absorb overrides t (arrival :: arrivals)
          = absorb overrides ((t.merge arrival).apply overrides) arrivals := rfl
      rw [hrun, ih, hstep, sup_le_iff, and_assoc, List.forall_mem_cons]

/-- What is known of an open bit only grows. -/
theorem get_absorb_le_append (hopen : overrides.get i = .unspecified)
    (arrivals later : List (TriState w)) :
    (absorb overrides t arrivals).get i ≤ (absorb overrides t (arrivals ++ later)).get i := by
  rw [absorb_append]
  exact ((get_absorb_le_iff hopen later).mp le_rfl).1

/-- A bit that the override specifies is where the override puts it. -/
theorem get_absorb_of_specified (hfixed : overrides.get i ≠ .unspecified)
    {arrivals : List (TriState w)} (harrived : arrivals ≠ []) :
    (absorb overrides t arrivals).get i = overrides.get i := by
  obtain ⟨earlier, last, rfl⟩ := (List.eq_nil_or_concat' arrivals).resolve_left harrived
  rw [absorb_append]
  exact (get_apply _ _ _).trans (if_neg hfixed)

/-- The order of the arrivals, and how often each comes, leaves no trace. -/
theorem absorb_congr {arrivals others : List (TriState w)}
    (hsame : ∀ arrival, arrival ∈ arrivals ↔ arrival ∈ others) :
    absorb overrides t arrivals = absorb overrides t others := by
  rcases eq_or_ne arrivals [] with rfl | harrived
  · have hnone : others = [] :=
      List.eq_nil_iff_forall_not_mem.mpr fun arrival h =>
        List.not_mem_nil ((hsame arrival).mpr h)
    rw [hnone]
  have hother : others ≠ [] := by
    obtain ⟨arrival, harrival⟩ := List.exists_mem_of_ne_nil _ harrived
    exact List.ne_nil_of_mem ((hsame arrival).mp harrival)
  refine ext_get fun i _ => ?_
  by_cases hopen : overrides.get i = .unspecified
  · refine eq_of_forall_ge_iff fun bound => ?_
    simp only [get_absorb_le_iff hopen, hsame]
  · rw [get_absorb_of_specified hopen harrived, get_absorb_of_specified hopen hother]

end TriState

end Disasm65
