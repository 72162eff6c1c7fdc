/-
What a byte goes through while control is followed elsewhere.

Between two visits of its own a byte meets with few things: another instruction reaches over it,
a status is handed to it, a branch names it as its target, a plugin gives it a format or claims it
as inline data.  `Evolves` is that list.  Everything that holds of a byte from one visit to the
next is proved from it, one case per entry of the list.
-/
import Mathlib
import Disasm65.Flow.Visit
import Disasm65.Proofs.Attributes
import Disasm65.Proofs.Status

namespace Disasm65

/-- Switching on a mark that is on changes nothing. -/
theorem Marks.insert_of_has {marks : Marks} {m : Mark} (h : marks.has m = true) :
    marks.insert m = marks := by
  have hbits : (marks.insert m).bits = marks.bits := by
    refine BitVec.eq_of_getLsbD_eq fun i hi => ?_
    by_cases him : i = m.position
    · subst him
      have hset : marks.bits.getLsbD m.position = true := h
      simp only [insert, BitVec.getLsbD_or, hset, Bool.true_or]
    · have hne : m.position ≠ i := fun hc => him hc.symm
      simp [insert, hne]
  exact congrArg Marks.mk hbits

namespace Flow

open StatusFlags

/-! ### A status that arrives -/

namespace Setup

variable (setup : Setup) (offset : Nat) (known incoming : StatusFlags)

/-- The override at the byte has the last word. -/
theorem arrive_obeys : Obeys (setup.arrive offset known incoming) (setup.overrideAt offset) :=
  obeys_apply _ _

theorem known_withinOff_arrive :
    WithinOff (setup.overrideAt offset) known (setup.arrive offset known incoming) := by
  intro flag hflag
  exact (within_merge_left known incoming flag).trans (withinOff_apply _ _ flag hflag)

theorem incoming_withinOff_arrive :
    WithinOff (setup.overrideAt offset) incoming (setup.arrive offset known incoming) := by
  intro flag hflag
  exact (within_merge_right known incoming flag).trans (withinOff_apply _ _ flag hflag)

end Setup

/-- A byte to which a status is handed.  If it has been visited it has to be visited again, unless
the status tells it nothing. -/
def handByte (setup : Setup) (offset : Nat) (incoming : StatusFlags) (a : Attribute) : Attribute :=
  let status := setup.arrive offset a.status incoming
  let b := { a with status := status }
  if a.isVisited && status != a.status then b.mark .changed else b

section

variable (setup : Setup) (offset : Nat) (incoming : StatusFlags) (a : Attribute) (m : Mark)

@[simp]
theorem handByte_status :
    (handByte setup offset incoming a).status = setup.arrive offset a.status incoming := by
  unfold handByte
  dsimp only
  split <;> rfl

@[simp]
theorem handByte_has :
    (handByte setup offset incoming a).marks.has m
      = (a.marks.has m || (decide (m = .changed) && a.isVisited
          && setup.arrive offset a.status incoming != a.status)) := by
  unfold handByte
  dsimp only
  split
  · rename_i h
    by_cases hm : m = .changed <;> simp_all
  · rename_i h
    have hnot : (a.isVisited && setup.arrive offset a.status incoming != a.status) = false := by
      simpa using h
    rw [Bool.and_assoc, hnot, Bool.and_false, Bool.or_false]

@[simp]
theorem claimByte_status : (claimByte a).status = a.status := by
  unfold claimByte
  dsimp only
  split <;> rfl

@[simp]
theorem claimByte_has :
    (claimByte a).marks.has m
      = (decide (m = .instruction)
          || (!decide (m = .data) && !decide (m = .inlineData) && a.marks.has m)) := by
  unfold claimByte
  dsimp only
  split
  · simp
    grind
  · rename_i h
    simp only [Attribute.isData, Attribute.isInlineData, Bool.or_eq_true, not_or,
      Bool.not_eq_true] at h
    by_cases hd : m = .data
    · simp [hd, h.1]
    · by_cases hi : m = .inlineData <;> simp [hd, hi, h.2]

end

/-! ### What happens to a byte between its visits -/

/-- The fields that only a visit of the byte itself changes. -/
structure SameDecoding (a b : Attribute) : Prop where
  address : b.address = a.address
  length : b.instructionLength = a.instructionLength
  verdict : b.verdict = a.verdict
  operandAddress : b.operandAddress = a.operandAddress
  operandOffset : b.operandOffset = a.operandOffset
  operandIsDirect : b.operandIsDirect = a.operandIsDirect

theorem SameDecoding.refl (a : Attribute) : SameDecoding a a := ⟨rfl, rfl, rfl, rfl, rfl, rfl⟩

theorem SameDecoding.trans {a b c : Attribute} (hab : SameDecoding a b) (hbc : SameDecoding b c) :
    SameDecoding a c :=
  ⟨hbc.address.trans hab.address, hbc.length.trans hab.length, hbc.verdict.trans hab.verdict,
    hbc.operandAddress.trans hab.operandAddress, hbc.operandOffset.trans hab.operandOffset,
    hbc.operandIsDirect.trans hab.operandIsDirect⟩

theorem sameDecoding_claimByte (a : Attribute) : SameDecoding a (claimByte a) := by
  unfold claimByte
  dsimp only
  split <;> exact ⟨rfl, rfl, rfl, rfl, rfl, rfl⟩

theorem sameDecoding_handByte (setup : Setup) (offset : Nat) (incoming : StatusFlags)
    (a : Attribute) : SameDecoding a (handByte setup offset incoming a) := by
  unfold handByte
  dsimp only
  split <;> exact ⟨rfl, rfl, rfl, rfl, rfl, rfl⟩

/-- `b` is what plugins make of `a`. -/
inductive Served (a : Attribute) : Attribute → Prop where
  | refl : Served a a
  /-- a plugin chooses a format -/
  | format {b : Attribute} (format : Format) (h : Served a b) :
      Served a { b with format := some format }
  /-- a plugin claims the byte as inline data -/
  | inline {b : Attribute} (hb : b.isInstruction = false) (h : Served a b) :
      Served a (b.mark .inlineData)

namespace Served

variable {a b c : Attribute}

theorem trans (hab : Served a b) (hbc : Served b c) : Served a c := by
  induction hbc with
  | refl => exact hab
  | format f _ ih => exact .format f ih
  | inline hb _ ih => exact .inline hb ih

theorem sameDecoding (h : Served a b) : SameDecoding a b := by
  induction h with
  | refl => exact .refl _
  | format _ _ ih | inline _ _ ih => exact ih.trans ⟨rfl, rfl, rfl, rfl, rfl, rfl⟩

theorem status (h : Served a b) : b.status = a.status := by
  induction h with
  | refl => rfl
  | format _ _ ih | inline _ _ ih => exact ih

theorem has (h : Served a b) {m : Mark} (hm : m ≠ .inlineData) :
    b.marks.has m = a.marks.has m := by
  induction h with
  | refl => rfl
  | format _ _ ih => exact ih
  | inline _ _ ih => rw [← ih]; simp [hm]

theorem inlineData (h : Served a b) (hb : b.isInlineData = true) :
    a.isInlineData = true ∨ a.isInstruction = false := by
  induction h with
  | refl => exact Or.inl hb
  | format _ _ ih => exact ih hb
  | inline hi hprev _ => exact Or.inr ((hprev.has (by decide)).symm.trans hi)

end Served

/-- `b` is what becomes of `a`, the attribute of the byte at `offset`, while control is followed
elsewhere.  `plugins` says that there are plugins that may be asked. -/
inductive Evolves (setup : Setup) (plugins : Prop) (offset : Nat) (a : Attribute) :
    Attribute → Prop where
  | refl : Evolves setup plugins offset a a
  /-- an instruction reaches over the byte -/
  | claim {b : Attribute} (h : Evolves setup plugins offset a b) :
      Evolves setup plugins offset a (claimByte b)
  /-- the byte is handed a status -/
  | hand {b : Attribute} (incoming : StatusFlags) (h : Evolves setup plugins offset a b) :
      Evolves setup plugins offset a (handByte setup offset incoming b)
  /-- a branch names the byte -/
  | target {b : Attribute} (h : Evolves setup plugins offset a b) :
      Evolves setup plugins offset a (b.mark .branchTarget)
  /-- plugins are asked -/
  | serve {b c : Attribute} (hp : plugins) (hs : Served b c)
      (h : Evolves setup plugins offset a b) : Evolves setup plugins offset a c

/-- The marks that only a visit of the byte itself, or its being an entry point, changes. -/
def isOwnMark : Mark → Bool
  | .instruction | .inlineData | .data | .branchTarget | .changed => false
  | .instructionStart | .entryPoint | .externalBranch | .visited | .hinted | .noContinue
  | .noContinuePlugin | .regionStart => true

namespace Evolves

variable {setup : Setup} {plugins : Prop} {offset : Nat} {a b c : Attribute}

theorem trans (hab : Evolves setup plugins offset a b) (hbc : Evolves setup plugins offset b c) :
    Evolves setup plugins offset a c := by
  induction hbc with
  | refl => exact hab
  | claim _ ih => exact .claim ih
  | hand incoming _ ih => exact .hand incoming ih
  | target _ ih => exact .target ih
  | serve hp hs _ ih => exact .serve hp hs ih

theorem sameDecoding (h : Evolves setup plugins offset a b) : SameDecoding a b := by
  induction h with
  | refl => exact .refl _
  | claim _ ih => exact ih.trans (sameDecoding_claimByte _)
  | hand incoming _ ih => exact ih.trans (sameDecoding_handByte _ _ _ _)
  | target _ ih => exact ih.trans ⟨rfl, rfl, rfl, rfl, rfl, rfl⟩
  | serve _ hs _ ih => exact ih.trans hs.sameDecoding

theorem own (h : Evolves setup plugins offset a b) {m : Mark} (hm : isOwnMark m = true) :
    b.marks.has m = a.marks.has m := by
  induction h with
  | refl => rfl
  | claim _ ih | hand _ _ ih | target _ ih =>
      rw [← ih]
      cases m <;> simp_all [isOwnMark]
  | serve _ hs _ ih =>
      refine (hs.has ?_).trans ih
      intro hc
      rw [hc] at hm
      cases hm

/-- A byte that is part of an instruction stays so. -/
theorem instruction (h : Evolves setup plugins offset a b) (ha : a.isInstruction = true) :
    b.isInstruction = true := by
  induction h with
  | refl => exact ha
  | claim _ ih | hand _ _ ih | target _ ih => simp_all
  | serve _ hs _ ih => exact (hs.has (by decide)).trans ih

/-- A byte does not become data. -/
theorem data (h : Evolves setup plugins offset a b) (hb : b.isData = true) : a.isData = true := by
  induction h with
  | refl => exact hb
  | claim _ _ => simp at hb
  | hand _ _ ih | target _ ih => exact ih (by simpa using hb)
  | serve _ hs _ ih => exact ih ((hs.has (by decide)).symm.trans hb)

/-- Only a plugin makes a byte inline data, and never one that is part of an instruction. -/
theorem inlineData (h : Evolves setup plugins offset a b) (hb : b.isInlineData = true) :
    a.isInlineData = true ∨ plugins ∧ a.isInstruction = false := by
  induction h with
  | refl => exact Or.inl hb
  | claim _ _ => simp at hb
  | hand _ _ ih | target _ ih => exact ih (by simpa using hb)
  | serve hp hs hprev ih =>
      rcases hs.inlineData hb with hi | hi
      · exact ih hi
      · refine Or.inr ⟨hp, ?_⟩
        by_contra hc
        rw [hprev.instruction (by simpa using hc)] at hi
        cases hi

/-- Without plugins, what can be decoded and branched to stays so. -/
theorem unblocked (h : Evolves setup plugins offset a b) (hp : ¬ plugins)
    (ha : isBlocked a = false) : isBlocked b = false := by
  obtain ⟨hdata, hinline⟩ := Bool.or_eq_false_iff.mp ha
  refine Bool.or_eq_false_iff.mpr ⟨?_, ?_⟩
  · by_contra hc
    rw [h.data (by simpa using hc)] at hdata
    cases hdata
  · by_contra hc
    rcases h.inlineData (by simpa using hc) with hi | ⟨hplugins, _⟩
    · rw [hi] at hinline
      cases hinline
    · exact hp hplugins

theorem branchTarget (h : Evolves setup plugins offset a b) (ha : a.isBranchTarget = true) :
    b.isBranchTarget = true := by
  induction h with
  | refl => exact ha
  | claim _ ih | hand _ _ ih | target _ ih => simp_all
  | serve _ hs _ ih => exact (hs.has (by decide)).trans ih

theorem changed (h : Evolves setup plugins offset a b) (ha : a.isChanged = true) :
    b.isChanged = true := by
  induction h with
  | refl => exact ha
  | claim _ ih | hand _ _ ih | target _ ih => simp_all
  | serve _ hs _ ih => exact (hs.has (by decide)).trans ih

theorem visited (h : Evolves setup plugins offset a b) : b.isVisited = a.isVisited :=
  h.own rfl

/-- A byte that has been visited does not change its status unnoticed. -/
theorem noticed (h : Evolves setup plugins offset a b) (ha : a.isVisited = true)
    (hb : b.isChanged = false) : b.status = a.status := by
  induction h with
  | refl => rfl
  | claim _ ih | target _ ih => simpa using ih (by simpa using hb)
  | serve _ hs _ ih => exact hs.status.trans (ih ((hs.has (by decide)).symm.trans hb))
  | hand incoming hprev ih =>
      have hv := hprev.visited
      simp_all

/-- Off its override, a byte only learns. -/
theorem withinOff (h : Evolves setup plugins offset a b) :
    WithinOff (setup.overrideAt offset) a.status b.status := by
  induction h with
  | refl => exact .refl _ _
  | claim _ ih => rw [claimByte_status]; exact ih
  | hand incoming _ ih =>
      rw [handByte_status]
      exact ih.trans (setup.known_withinOff_arrive _ _ _)
  | target _ ih => exact ih
  | serve _ hs _ ih => rw [hs.status]; exact ih

/-- A status that obeys the override goes on doing so. -/
theorem obeys (h : Evolves setup plugins offset a b)
    (ha : Obeys a.status (setup.overrideAt offset)) :
    Obeys b.status (setup.overrideAt offset) := by
  induction h with
  | refl => exact ha
  | claim _ ih => rw [claimByte_status]; exact ih
  | hand incoming _ _ => rw [handByte_status]; exact setup.arrive_obeys _ _ _
  | target _ ih => exact ih
  | serve _ hs _ ih => rw [hs.status]; exact ih

end Evolves

end Flow

end Disasm65
