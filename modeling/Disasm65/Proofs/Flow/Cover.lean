/-
What settling leaves of the code.

Where two ways of decoding overlap, bytes are left over that belonged to an instruction which is no
longer there, or were hinted as code and never reached.  Settling walks over the bytes and keeps
count of how far the last instruction reaches, so that code is left only where an instruction starts
or the nearest instruction before reaches (`settle_covered`).
-/
import Mathlib
import Disasm65.Proofs.Flow.Ends

namespace Disasm65.Flow

/-- The nearest instruction before byte `i` starts at `start` and reaches over the byte. -/
structure Covers (attributes : Attributes) (start i : Nat) : Prop where
  lt : start < i
  starts : (attributes.info start).isInstructionStart = true
  reach : i < start + (attributes.info start).instructionLength
  nearest : ∀ j, start < j → j < i → (attributes.info j).isInstructionStart = false

/-- How many bytes from byte `k` of the list on belong to the nearest instruction before it; the
instruction before the list covers its first `cover` bytes. -/
def coverAt : (cover : Nat) → List Attribute → (k : Nat) → Nat
  | cover, _, 0 => cover
  | _, [], _ + 1 => 0
  | cover, a :: rest, k + 1 =>
    coverAt (if a.isInstructionStart then a.instructionLength - 1 else cover - 1) rest k

/-- Settling leaves a byte alone if an instruction starts there or the nearest one covers it. -/
theorem getD_settleList (l : List Attribute) :
    ∀ cover k, (settleList cover l).getD k .blank
      = if (l.getD k .blank).isInstructionStart = true ∨ 0 < coverAt cover l k
        then l.getD k .blank else settleByte (l.getD k .blank) := by
  induction l with
  | nil =>
      intro cover k
      have hblank : settleByte .blank = .blank := rfl
      simp [settleList, hblank]
  | cons a l ih =>
      intro cover k
      rw [settleList]
      cases k with
      | zero => split <;> simp_all [coverAt, apply_ite]
      | succ k =>
          rw [List.getD_cons_succ, coverAt]
          by_cases ha : a.isInstructionStart = true
          · rw [if_pos ha, if_pos ha, List.getD_cons_succ, ih]
          · rw [if_neg ha, if_neg ha]
            by_cases hcover : 0 < cover
            · rw [if_pos hcover, List.getD_cons_succ, ih]
            · obtain rfl : cover = 0 := by omega
              rw [if_neg hcover, List.getD_cons_succ, ih]

/-- What covers a byte is the nearest instruction before it in the list or, if there is none, the
one before the list. -/
theorem covers_of_coverAt (l : List Attribute) :
    ∀ cover k, 0 < coverAt cover l k →
      (k < cover ∧ ∀ j < k, (l.getD j .blank).isInstructionStart = false)
        ∨ ∃ p < k, (l.getD p .blank).isInstructionStart = true
          ∧ k < p + (l.getD p .blank).instructionLength
          ∧ ∀ j, p < j → j < k → (l.getD j .blank).isInstructionStart = false := by
  induction l with
  | nil =>
      intro cover k h
      cases k with
      | zero => exact Or.inl ⟨h, fun j hj => absurd hj (Nat.not_lt_zero j)⟩
      | succ k => exact absurd h (Nat.lt_irrefl 0)
  | cons a l ih =>
      intro cover k h
      cases k with
      | zero => exact Or.inl ⟨h, fun j hj => absurd hj (Nat.not_lt_zero j)⟩
      | succ k =>
          rw [coverAt] at h
          rcases ih _ k h with ⟨hlt, hnone⟩ | ⟨p, hp, hs, hreach, hnearest⟩
          · by_cases ha : a.isInstructionStart = true
            · rw [if_pos ha] at hlt
              refine Or.inr ⟨0, by omega, ha, ?_, fun j hlow hhigh => ?_⟩
              · rw [List.getD_cons_zero]
                omega
              · obtain ⟨j, rfl⟩ : ∃ j', j = j' + 1 := ⟨j - 1, by omega⟩
                exact hnone j (by omega)
            · rw [if_neg ha] at hlt
              refine Or.inl ⟨by omega, fun j hj => ?_⟩
              cases j with
              | zero => simpa using ha
              | succ j => exact hnone j (by omega)
          · refine Or.inr ⟨p + 1, by omega, hs, ?_, fun j hlow hhigh => ?_⟩
            · rw [List.getD_cons_succ]
              omega
            · obtain ⟨j, rfl⟩ : ∃ j', j = j' + 1 := ⟨j - 1, by omega⟩
              exact hnearest j (by omega) (by omega)

theorem settleByte_isInstruction (a : Attribute) : (settleByte a).isInstruction = false := by
  unfold settleByte
  split
  · split <;> simp
  · rename_i h
    simpa using h

theorem info_eq_getD (attributes : Attributes) (i : Nat) :
    attributes.info i = attributes.toList.getD i .blank := by
  simp [Attributes.info, Array.getD_eq_getD_getElem?]

theorem Settled.operandOffset {a b : Attribute} (h : Settled a b) :
    b.operandOffset = a.operandOffset := by
  rcases h with rfl | ⟨_, rfl⟩
  · rfl
  · unfold settleByte
    repeat' split
    all_goals rfl

/-- **Code is left only where the nearest instruction reaches.** -/
theorem settle_covered (attributes : Attributes) {i : Nat}
    (hcode : ((settle attributes).info i).isInstruction = true)
    (hstart : ((settle attributes).info i).isInstructionStart = false) :
    ∃ p, Covers (settle attributes) p i := by
  have hsame : ∀ j, ((settle attributes).info j).isInstructionStart
      = (attributes.info j).isInstructionStart :=
    fun j => (info_settle attributes j).has (by decide)
  have hcover : 0 < coverAt 0 attributes.toList i := by
    rw [hsame] at hstart
    rw [info_eq_getD, settle_eq, getD_settleList, ← info_eq_getD] at hcode
    by_contra hnone
    rw [if_neg (by rw [hstart]; simpa using hnone), settleByte_isInstruction] at hcode
    cases hcode
  rcases covers_of_coverAt attributes.toList 0 i hcover with ⟨hlt, _⟩
    | ⟨p, hp, hs, hreach, hnearest⟩
  · exact absurd hlt (Nat.not_lt_zero i)
  · simp only [← info_eq_getD] at hs hreach hnearest
    have hsp := (hsame p).trans hs
    refine ⟨p, hp, hsp, ?_, fun j hlow hhigh => (hsame j).trans (hnearest j hlow hhigh)⟩
    rw [(info_settle attributes p).eq_of_start hsp]
    exact hreach

/-- In the result code belongs to the nearest instruction. -/
theorem outcome_covered {ν σ : Type} (setup : Setup) (panel : List (Plugin ν σ)) {i : Nat}
    (hcode : ((outcome setup panel).attributes.info i).isInstruction = true)
    (hstart : ((outcome setup panel).attributes.info i).isInstructionStart = false) :
    ∃ p, Covers (outcome setup panel).attributes p i := by
  obtain ⟨n, _, t, _, _, houtcome⟩ := outcome_reached setup panel
  rw [houtcome] at hcode hstart ⊢
  exact settle_covered _ hcode hstart

end Disasm65.Flow
