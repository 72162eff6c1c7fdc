/-
Classing, byte by byte, and twice.

What classing makes of a byte depends on the byte and on where the last inline item before it ends
(`cover`).  Classing gives formats to inline bytes that no item covers, and each of them covers
itself and nothing more.  So to classed bytes the last item before an inline byte without a format
ends where it ended before, or the byte has got a format (`cover_classBytes`), and classing again
does nothing (`classBytes_of_classed`).
-/
import Mathlib
import Disasm65.Proofs.Data.Ranges
import Disasm65.Proofs.Flow.Byte

namespace Disasm65.Data

variable {attributes other : Attributes} {k : Nat}

/-! ### Where inline items end -/

/-- The end of the last inline item with a format, `covered` being that before byte `k`. -/
def coverNext (attributes : Attributes) (covered k : Nat) : Nat :=
  if (attributes.info k).isInlineData then
    ((attributes.info k).format.map fun format => k + format.length).getD covered
  else covered

/-- The end of the last inline item with a format among the first `k` bytes. -/
def cover (attributes : Attributes) (k : Nat) : Nat :=
  (List.range k).foldl (coverNext attributes) 0

theorem cover_succ (attributes : Attributes) (k : Nat) :
    cover attributes (k + 1) = coverNext attributes (cover attributes k) k := by
  rw [cover, List.range_succ, List.foldl_append]
  rfl

/-- Only the formats of inline bytes count. -/
theorem cover_congr (h : ∀ i < k, (other.info i).isInlineData = (attributes.info i).isInlineData
      ∧ ((attributes.info i).isInlineData = true →
        (other.info i).format = (attributes.info i).format)) :
    cover other k = cover attributes k := by
  induction k with
  | zero => rfl
  | succ k ih =>
      obtain ⟨hinline, hformat⟩ := h k (Nat.lt_succ_self k)
      rw [cover_succ, cover_succ, ih fun i hi => h i (Nat.lt_succ_of_lt hi), coverNext, coverNext,
        hinline]
      split
      · rename_i hkind
        rw [hformat hkind]
      · rfl

/-! ### What classing makes of a byte -/

/-- What classing makes of byte `k`, where the last inline item before it ends at `covered`. -/
def classedByte (covered k : Nat) (a : Attribute) : Attribute :=
  if a.isInlineData then
    if a.format.isNone = true ∧ covered ≤ k then { a with format := some .oneByte } else a
  else if a.isInstruction then a
  else a.mark .data

theorem classNext_eq {prior : Attributes} (covered : Nat) (hsize : prior.size = k) :
    classNext (prior, covered) (attributes.info k)
      = (prior.push (classedByte covered k (attributes.info k)),
          coverNext attributes covered k) := by
  subst hsize
  unfold classNext classedByte coverNext
  dsimp only
  split
  · cases hformat : (attributes.info prior.size).format with
    | none => simp only [Option.isNone_none, true_and, Option.map_none, Option.getD_none]
    | some format => rfl
  · rfl

/-- **Classing, byte by byte.** -/
theorem info_classBytes_eq {i : Nat} (hi : i < attributes.size) :
    (classBytes attributes).info i = classedByte (cover attributes i) i (attributes.info i) := by
  have hall : (attributes.foldl classNext (#[], 0)).1.size = attributes.size
      ∧ (attributes.foldl classNext (#[], 0)).2 = cover attributes attributes.size
      ∧ ∀ i < attributes.size, (attributes.foldl classNext (#[], 0)).1.info i
          = classedByte (cover attributes i) i (attributes.info i) := by
    refine Array.foldl_induction
      (fun k (done : Attributes × Nat) => done.1.size = k ∧ done.2 = cover attributes k
        ∧ ∀ i < k, done.1.info i = classedByte (cover attributes i) i (attributes.info i))
      ⟨rfl, rfl, fun i hi => absurd hi (Nat.not_lt_zero i)⟩ fun k done hdone => ?_
    have hinfo : attributes.info k = attributes[k] := by
      simp [Attributes.info, Array.getD_eq_getD_getElem?]
    obtain ⟨prior, covered⟩ := done
    obtain ⟨hsize, rfl, hprior⟩ := hdone
    dsimp only at hsize
    rw [← hinfo, classNext_eq _ hsize, ← cover_succ]
    refine ⟨by simp [hsize], rfl, fun i hi => ?_⟩
    rw [Attributes.info_push, hsize]
    split
    · rename_i heq
      rw [heq]
    · rename_i hne
      exact hprior i (by omega)
  exact hall.2.2 i hi

theorem classedByte_isInlineData (covered k : Nat) (a : Attribute) :
    (classedByte covered k a).isInlineData = a.isInlineData := by
  unfold classedByte
  split
  · split <;> rfl
  · split
    · rfl
    · simp

/-! ### Classing again -/

/-- Classing leaves the end of the last item where it was, or has given formats to the bytes from
there on. -/
theorem cover_classBytes (hk : k ≤ attributes.size) :
    cover (classBytes attributes) k = cover attributes k
      ∨ cover (classBytes attributes) k ≤ k ∧ cover attributes k ≤ k := by
  induction k with
  | zero => exact Or.inl rfl
  | succ k ih =>
      have hinfo := info_classBytes_eq (show k < attributes.size from hk)
      have hinline := classedByte_isInlineData (cover attributes k) k (attributes.info k)
      rw [cover_succ, cover_succ, coverNext, coverNext, hinfo, hinline]
      have hbefore := ih (Nat.le_of_succ_le hk)
      cases hkind : (attributes.info k).isInlineData with
      | false =>
          rw [if_neg Bool.false_ne_true, if_neg Bool.false_ne_true]
          exact hbefore.imp_right fun h => ⟨Nat.le_succ_of_le h.1, Nat.le_succ_of_le h.2⟩
      | true =>
          rw [if_pos rfl, if_pos rfl, classedByte, if_pos hkind]
          cases hformat : (attributes.info k).format with
          | some format =>
              rw [if_neg (fun h => by cases h.1), hformat]
              exact Or.inl rfl
          | none =>
              by_cases hcovered : cover attributes k ≤ k
              · -- the byte gets a format of its own, which ends right behind it
                rw [if_pos ⟨rfl, hcovered⟩]
                exact Or.inr ⟨Nat.le_refl _, Nat.le_succ_of_le hcovered⟩
              · rw [if_neg fun h => hcovered h.2, hformat]
                rcases hbefore with hsame | ⟨_, hle⟩
                · exact Or.inl hsame
                · exact absurd hle hcovered

/-- Classed bytes stay as they are when they are classed again, also if some bytes that are not
inline data have got formats since. -/
theorem classBytes_of_classed (hsize : other.size = attributes.size)
    (hmarks : ∀ i, (other.info i).marks = ((classBytes attributes).info i).marks)
    (hinline : ∀ i, ((classBytes attributes).info i).isInlineData = true →
      other.info i = (classBytes attributes).info i) : classBytes other = other := by
  refine Attributes.ext_info (size_classBytes other) fun i hi => ?_
  rw [size_classBytes] at hi
  have hi' : i < attributes.size := hsize ▸ hi
  have hclassed := info_classBytes_eq hi'
  have hkind : ∀ j, (other.info j).isInlineData
      = ((classBytes attributes).info j).isInlineData := fun j => by
    rw [Attribute.isInlineData, hmarks j]
    rfl
  have hkind' : (other.info i).isInlineData = (attributes.info i).isInlineData := by
    rw [hkind, hclassed, classedByte_isInlineData]
  rw [info_classBytes_eq hi, classedByte]
  split
  · rename_i hcase
    refine if_neg fun ⟨hnone, hcover⟩ => ?_
    -- an inline byte that has no format by now is covered by an item
    rw [cover_congr fun j _ => ⟨hkind j, fun h => congrArg _ (hinline j h)⟩] at hcover
    have hle : cover attributes i ≤ i := by
      rcases cover_classBytes (Nat.le_of_lt hi') with heq | ⟨_, hle⟩
      · exact heq ▸ hcover
      · exact hle
    rw [hinline i ((hkind i).symm.trans hcase), hclassed, classedByte,
      if_pos (hkind'.symm.trans hcase)] at hnone
    split at hnone
    · cases hnone
    · rename_i hkept
      exact hkept ⟨hnone, hle⟩
  · rename_i hcase
    split
    · rfl
    · -- what is neither inline data nor code has been made data
      rename_i hcode
      rw [hkind'] at hcase
      have hmark : (other.info i).isData = true := by
        rw [Attribute.isInstruction, hmarks, hclassed, classedByte, if_neg hcase] at hcode
        rw [Attribute.isData, hmarks, hclassed, classedByte, if_neg hcase]
        split at hcode
        · rename_i hin
          exact absurd hin hcode
        · rename_i hin
          rw [if_neg hin]
          simp
      rw [Attribute.mark, Marks.insert_of_has hmark]

end Disasm65.Data
