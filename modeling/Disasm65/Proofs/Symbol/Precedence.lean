/-
The orders in which entries are preferred.

At an address `precedence` compares the origins first, then, among platform files, the places in
the order of loading, then the distances to the values, then the labels.  The second comparison
counts for one origin only, so it is not plainly lexicographic; `precedence_eq_compareLex` gives
every entry a number that stands for its file and makes it so.  What an index needs is then at
hand: the order is transitive, and two entries with different labels are never equal in it.

The entries of one value are ordered by origin and label, and the same two facts hold.
-/
import Mathlib
import Disasm65.Symbol.Table

namespace Disasm65

theorem Origin.rank_injective {a b : Origin} (h : a.rank = b.rank) : a = b := by
  cases a <;> cases b <;> first | rfl | simp [Origin.rank] at h

/-! ### Lexicographic comparison

The two equations hold by definition.  They are stated apart, for any keys, because unfolding the
comparisons with the keys of an entry in place would compute with their large constants.
-/

theorem compareLex_apply {α : Type} (first second : α → α → Ordering) (a b : α) :
    compareLex first second a b = (first a b).then (second a b) := rfl

theorem compareOn_apply {α β : Type} [Ord β] (key : α → β) (a b : α) :
    compareOn key a b = compare (key a) (key b) := rfl

/-- A second comparison matters only where the first one finds no difference. -/
theorem then_congr {first second other : Ordering} (h : first = .eq → second = other) :
    first.then second = first.then other := by
  cases first with
  | lt => rfl
  | eq => exact h rfl
  | gt => rfl

namespace Entry

/-- The place of an entry's file: the later platform file comes first, and the files of other
origins are all alike. -/
def fileRank (entry : Entry) : Int :=
  if entry.origin = .platform then -entry.loadOrdinal else 0

theorem compare_neg (a b : Int) : compare (-a) (-b) = compare b a := by
  rw [Int.compare_eq_ite_lt, Int.compare_eq_ite_lt]
  split_ifs <;> first | rfl | omega

/-- Among entries of one origin the files are compared by `fileRank`. -/
theorem compare_fileRank {a b : Entry} (h : a.origin = b.origin) :
    compare a.fileRank b.fileRank
      = if a.origin = .platform then compare b.loadOrdinal a.loadOrdinal else .eq := by
  unfold fileRank
  rw [← h]
  by_cases hp : a.origin = .platform
  · rw [if_pos hp, if_pos hp, if_pos hp, compare_neg]
  · rw [if_neg hp, if_neg hp, if_neg hp]
    exact Std.ReflCmp.compare_self

/-- **Precedence is a lexicographic comparison.** -/
theorem precedence_eq_compareLex (address : Nat) :
    precedence address
      = compareLex (compareOn fun entry => entry.origin.rank)
          (compareLex (compareOn fileRank)
            (compareLex (compareOn fun entry => entry.distance address) (compareOn name))) := by
  funext a b
  unfold precedence
  rw [compareLex_apply, compareLex_apply, compareLex_apply, compareOn_apply, compareOn_apply,
    compareOn_apply, compareOn_apply]
  refine then_congr fun hr => ?_
  have ho : a.origin = b.origin := Origin.rank_injective (Std.LawfulEqCmp.eq_of_compare hr)
  rw [compare_fileRank ho]

instance (address : Nat) : Std.TransCmp (precedence address) := by
  rw [precedence_eq_compareLex]
  infer_instance

/-- `a` is preferred to `b` at `address`. -/
def Precedes (address : Nat) (a b : Entry) : Prop := precedence address a b = .lt

theorem precedes_trans {address : Nat} {a b c : Entry} (hab : Precedes address a b)
    (hbc : Precedes address b c) : Precedes address a c :=
  @Std.TransCmp.lt_trans _ (precedence address) _ _ _ _ hab hbc

theorem not_precedes_self (address : Nat) (a : Entry) : ¬ Precedes address a a := by
  intro h
  have hself : precedence address a a = .eq :=
    @Std.ReflCmp.compare_self _ (precedence address) _ a
  rw [Precedes, hself] at h
  exact Ordering.noConfusion h

/-- Equal entries in the order have the same label. -/
theorem name_eq_of_precedence_eq {address : Nat} {a b : Entry}
    (h : precedence address a b = .eq) : a.name = b.name := by
  unfold precedence at h
  have hn := (Ordering.then_eq_eq.mp (Ordering.then_eq_eq.mp (Ordering.then_eq_eq.mp h).2).2).2
  exact Std.LawfulEqCmp.eq_of_compare hn

/-- Of two entries with different labels one is preferred. -/
theorem precedes_of_not_precedes {address : Nat} {a b : Entry} (hne : a.name ≠ b.name)
    (h : ¬ Precedes address a b) : Precedes address b a := by
  cases hc : precedence address a b with
  | lt => exact absurd hc h
  | eq => exact absurd (name_eq_of_precedence_eq hc) hne
  | gt => exact (@Std.OrientedCmp.gt_iff_lt _ (precedence address) _ a b).mp hc

end Entry

namespace SymbolTable

/-- The order of the entries of one value. -/
def valueOrder : Entry → Entry → Ordering :=
  compareLex (compareOn fun entry => entry.origin.rank) (compareOn Entry.name)

instance : Std.TransCmp valueOrder :=
  inferInstanceAs (Std.TransCmp (compareLex _ _))

theorem valueBefore_iff {a b : Entry} : valueBefore a b = true ↔ valueOrder a b = .lt := by
  rw [valueBefore, valueOrder, compareLex_apply, compareOn_apply, compareOn_apply]
  exact beq_iff_eq

theorem valueBefore_trans {a b c : Entry} (hab : valueBefore a b = true)
    (hbc : valueBefore b c = true) : valueBefore a c = true :=
  valueBefore_iff.mpr
    (@Std.TransCmp.lt_trans _ valueOrder _ _ _ _ (valueBefore_iff.mp hab) (valueBefore_iff.mp hbc))

theorem valueBefore_of_not_valueBefore {a b : Entry} (hne : a.name ≠ b.name)
    (h : valueBefore a b = false) : valueBefore b a = true := by
  cases hc : valueOrder a b with
  | lt => rw [valueBefore_iff.mpr hc] at h; exact Bool.noConfusion h
  | eq =>
      have hn : compare a.name b.name = .eq := (Ordering.then_eq_eq.mp hc).2
      exact absurd (Std.LawfulEqCmp.eq_of_compare hn) hne
  | gt => exact valueBefore_iff.mpr ((@Std.OrientedCmp.gt_iff_lt _ valueOrder _ a b).mp hc)

end SymbolTable

end Disasm65
