/-
Reading attributes back.

Every change of the attributes goes through `update`, which changes the byte it names and no
other, and every change of a mark leaves the other marks alone.  A question about a mark comes
down to `Marks.has`, so that `simp` answers it after any number of changes.
-/
import Mathlib
import Disasm65.Image.Attribute

namespace Disasm65

namespace Mark

theorem position_lt (m : Mark) : m.position < 16 := by
  cases m <;> decide

theorem position_injective : Function.Injective position := by
  intro m n h
  revert h
  cases m <;> cases n <;> decide

end Mark

namespace Marks

@[simp]
theorem has_empty (m : Mark) : empty.has m = false := by
  simp [has, empty]

@[simp]
theorem has_insert (marks : Marks) (m n : Mark) :
    (marks.insert m).has n = (decide (n = m) || marks.has n) := by
  simp [has, insert, Mark.position_lt, Mark.position_injective.eq_iff,
    Bool.or_comm]

@[simp]
theorem has_erase (marks : Marks) (m n : Mark) :
    (marks.erase m).has n = (!decide (n = m) && marks.has n) := by
  simp [has, erase, Mark.position_lt, Mark.position_injective.eq_iff,
    Bool.and_comm]

@[simp]
theorem has_put (marks : Marks) (m n : Mark) (on : Bool) :
    (marks.put m on).has n = if n = m then on else marks.has n := by
  cases on <;> by_cases h : n = m <;> simp [put, h]

end Marks

namespace Attribute

attribute [simp] isInstructionStart isInstruction isInlineData isData isEntryPoint isBranchTarget
  isVisited isChanged isHinted isRegionStart doesNotContinue mark unmark putMark

end Attribute

namespace Attributes

@[simp]
theorem size_update (attributes : Attributes) (offset : Nat) (change : Attribute → Attribute) :
    (attributes.update offset change).size = attributes.size :=
  Array.size_modify ..

theorem info_of_size_le {attributes : Attributes} {offset : Nat} (h : attributes.size ≤ offset) :
    attributes.info offset = .blank := by
  simp [info, Array.getD_eq_getD_getElem?, Array.getElem?_eq_none h]

/-- A byte about which something is known is in the image. -/
theorem lt_size_of_info {attributes : Attributes} {i : Nat}
    (h : attributes.info i ≠ .blank) : i < attributes.size := by
  by_contra hge
  exact h (info_of_size_le (Nat.le_of_not_lt hge))

theorem lt_size_of_has {attributes : Attributes} {i : Nat} {m : Mark}
    (h : (attributes.info i).marks.has m = true) : i < attributes.size :=
  lt_size_of_info fun hblank => by
    rw [hblank, Attribute.blank, Marks.has_empty] at h
    cases h

theorem info_update (attributes : Attributes) (i : Nat) (change : Attribute → Attribute)
    (j : Nat) :
    (attributes.update i change).info j
      = if i = j ∧ j < attributes.size then change (attributes.info j)
        else attributes.info j := by
  by_cases hj : j < attributes.size
  · simp only [info, update, Array.getD_eq_getD_getElem?, Array.getElem?_modify,
      Array.getElem?_eq_getElem hj, hj, and_true]
    by_cases hij : i = j <;> simp [hij]
  · rw [if_neg fun h => hj h.2, info_of_size_le (by simpa using hj), info_of_size_le (by omega)]

theorem info_update_ne (attributes : Attributes) {i j : Nat} (h : i ≠ j)
    (change : Attribute → Attribute) :
    (attributes.update i change).info j = attributes.info j := by
  rw [info_update, if_neg fun hc => h hc.1]

theorem info_update_self {attributes : Attributes} {i : Nat} (h : i < attributes.size)
    (change : Attribute → Attribute) :
    (attributes.update i change).info i = change (attributes.info i) := by
  rw [info_update, if_pos ⟨rfl, h⟩]

/-- What a run of updates does to a byte: those at the byte itself, and no others. -/
theorem info_foldl_update (change : Nat → Attribute → Attribute) (j : Nat) :
    ∀ (l : List Nat) (attributes : Attributes), l.Nodup →
      (l.foldl (fun attributes i => attributes.update i (change i)) attributes).info j
        = if j ∈ l ∧ j < attributes.size then change j (attributes.info j)
          else attributes.info j := by
  intro l
  induction l with
  | nil => intro attributes _; simp
  | cons i l ih =>
      intro attributes hnodup
      obtain ⟨hi, hl⟩ := List.nodup_cons.mp hnodup
      rw [List.foldl_cons, ih _ hl, size_update]
      by_cases hij : i = j
      · rw [← hij, if_neg fun hc => hi hc.1, info_update]
        simp
      · have hji : ¬ j = i := fun h => hij h.symm
        rw [info_update_ne _ hij]
        simp [hji]

@[simp]
theorem size_foldl_update (change : Nat → Attribute → Attribute) :
    ∀ (l : List Nat) (attributes : Attributes),
      (l.foldl (fun attributes i => attributes.update i (change i)) attributes).size
        = attributes.size := by
  intro l
  induction l with
  | nil => intro attributes; rfl
  | cons i l ih => intro attributes; rw [List.foldl_cons, ih, size_update]

@[simp]
theorem size_updateRange (attributes : Attributes) (offset length : Nat)
    (change : Attribute → Attribute) :
    (attributes.updateRange offset length change).size = attributes.size :=
  size_foldl_update (fun _ => change) _ attributes

theorem info_updateRange (attributes : Attributes) (offset length : Nat)
    (change : Attribute → Attribute) (j : Nat) :
    (attributes.updateRange offset length change).info j
      = if (offset ≤ j ∧ j < offset + length) ∧ j < attributes.size then
          change (attributes.info j)
        else attributes.info j := by
  rw [updateRange, info_foldl_update (fun _ => change) j _ _ List.nodup_range']
  simp [List.mem_range'_1]

/-- Attributes are known by the attribute of every byte. -/
theorem ext_info {attributes other : Attributes} (hsize : attributes.size = other.size)
    (hinfo : ∀ i < attributes.size, attributes.info i = other.info i) : attributes = other := by
  refine Array.ext hsize fun i hi hi' => ?_
  have h := hinfo i hi
  simpa [info, Array.getD_eq_getD_getElem?, hi, hi'] using h

@[simp]
theorem size_blank (size : Nat) : (blank size).size = size := Array.size_replicate

@[simp]
theorem info_blank (size offset : Nat) : (blank size).info offset = .blank := by
  by_cases h : offset < size <;>
    simp [info, blank, Array.getD_eq_getD_getElem?, h]

end Attributes

end Disasm65
