/-
Before the first step and after the last.

The attributes are prepared from the map and the hints, the steps are taken, and what is left of
unfinished instructions is settled.  Where a byte lies is known from the start and never changes
(`Placed`); settling touches only bytes at which no instruction starts (`Settled`).
-/
import Mathlib
import Disasm65.Proofs.Flow.Effort

namespace Disasm65.Flow

open StatusFlags

variable {ν σ : Type}

/-! ### Preparing -/

theorem info_prepare (setup : Setup) (i : Nat) :
    (setup.prepare (Attributes.blank setup.image.size)).info i
      = if i < setup.image.size then setup.prepareByte i .blank else .blank := by
  by_cases hi : i < setup.image.size <;>
    simp [Attributes.info, Setup.prepare, Attributes.blank, hi]

theorem size_prepare (setup : Setup) :
    (setup.prepare (Attributes.blank setup.image.size)).size = setup.image.size := by
  simp [Setup.prepare]

/-- The marks a byte starts with come from its region and its hint. -/
theorem prepareByte_has (setup : Setup) (i : Nat) (m : Mark) :
    (setup.prepareByte i .blank).marks.has m
      = ((setup.map.isRegionStart i && decide (m = .regionStart))
          || ((setup.hintMark? i).isSome && decide (m = .hinted))
          || decide (setup.hintMark? i = some m)) := by
  have hblank : Attribute.blank.marks = .empty := rfl
  unfold Setup.prepareByte
  dsimp only
  cases setup.hintMark? i with
  | none => by_cases hr : setup.map.isRegionStart i = true <;> simp [hr, hblank]
  | some n =>
      by_cases hr : setup.map.isRegionStart i = true <;>
        · simp only [hr, hblank, if_true, Attribute.mark, Marks.has_insert, Marks.has_empty]
          cases m <;> cases n <;> simp

/-- Nothing else is known of a byte at the start. -/
theorem prepareByte_kept (setup : Setup) (i : Nat) :
    (setup.prepareByte i .blank).address = (setup.map.addressOf? i).getD 0
      ∧ (setup.prepareByte i .blank).verdict = .indeterminate
      ∧ (setup.prepareByte i .blank).operandOffset = none
      ∧ (setup.prepareByte i .blank).operandIsDirect = false := by
  unfold Setup.prepareByte
  dsimp only
  cases setup.hintMark? i <;> cases setup.map.isRegionStart i <;> exact ⟨rfl, rfl, rfl, rfl⟩

/-- A hint makes a byte data, inline data or part of an instruction, and nothing else. -/
theorem hintMark?_cases (setup : Setup) (i : Nat) :
    setup.hintMark? i = none
      ∨ setup.hintMark? i = some .instruction ∧ setup.hintAt i = .code
      ∨ setup.hintMark? i = some .data ∧ setup.hintAt i = .data
      ∨ setup.hintMark? i = some .inlineData ∧ setup.hintAt i = .inlineData := by
  unfold Setup.hintMark?
  cases setup.hintAt i with
  | unset => exact Or.inl rfl
  | code =>
      by_cases hv : (setup.opcodeAt i).isValid = true <;> simp [hv]
  | data => exact Or.inr (Or.inr (Or.inl ⟨rfl, rfl⟩))
  | inlineData => exact Or.inr (Or.inr (Or.inr ⟨rfl, rfl⟩))

/-- A mark that no hint gives and no region start has is off at the start. -/
theorem info_prepare_has {setup : Setup} (i : Nat) {m : Mark}
    (hm : m ≠ .regionStart ∧ m ≠ .hinted ∧ m ≠ .instruction ∧ m ≠ .data ∧ m ≠ .inlineData) :
    ((setup.prepare (Attributes.blank setup.image.size)).info i).marks.has m = false := by
  obtain ⟨h1, h2, h3, h4, h5⟩ := hm
  rw [info_prepare]
  split
  · rw [prepareByte_has]
    rcases hintMark?_cases setup i with h | ⟨h, _⟩ | ⟨h, _⟩ | ⟨h, _⟩ <;> rw [h] <;>
      simp [h1, h2, h3.symm, h4.symm, h5.symm]
  · exact Marks.has_empty m

/-! ### Where the bytes lie -/

/-- The addresses and the region starts are those of the map. -/
structure Placed (setup : Setup) (s : State ν σ) : Prop where
  size : s.attributes.size = setup.image.size
  address : ∀ i < setup.image.size, (s.info i).address = (setup.map.addressOf? i).getD 0
  region : ∀ i < setup.image.size, (s.info i).isRegionStart = setup.map.isRegionStart i

theorem Placed.of_fixed {setup : Setup} {s s' : State ν σ} (h : Placed setup s)
    (hsize : s'.attributes.size = s.attributes.size)
    (hfixed : ∀ i, (s'.info i).address = (s.info i).address
      ∧ (s'.info i).isRegionStart = (s.info i).isRegionStart) : Placed setup s' :=
  ⟨hsize.trans h.size, fun i hi => (hfixed i).1.trans (h.address i hi),
    fun i hi => (hfixed i).2.trans (h.region i hi)⟩

theorem step_placed {setup : Setup} {c d : Config ν σ} (hc : Placed setup c.state)
    (h : step setup c = some d) : Placed setup d.state := by
  rcases step_cases h with ⟨offset, _, rfl⟩ | ⟨target, rest, _, _, rfl⟩ | ⟨_, _, _, _, rfl⟩
    | ⟨_, _, _, _, rfl⟩
  · have hvisits : Visits setup True offset c.state _ := visit_visits (fun _ => trivial) hc.size
    exact hc.of_fixed hvisits.size fun i => ⟨(hvisits.fixed i).1, (hvisits.fixed i).2.1⟩
  · exact hc.of_fixed rfl fun _ => ⟨rfl, rfl⟩
  · refine hc.of_fixed State.size_update fun i => ?_
    dsimp only
    rw [info_enter]
    split
    · exact ⟨rfl, by simp⟩
    · exact ⟨rfl, rfl⟩
  · exact hc

/-- The `length` bytes at `offset` are in the image, and no region starts after the first of
them. -/
def FitsAt (setup : Setup) (offset length : Nat) : Prop :=
  offset + length ≤ setup.image.size
    ∧ ∀ i, offset < i → i < offset + length → setup.map.isRegionStart i = false

/-- An instruction stays in its region if its bytes do according to the map. -/
theorem Placed.staysInRegion_iff {setup : Setup} {s : State ν σ} (h : Placed setup s)
    (offset length : Nat) :
    staysInRegion setup s.attributes offset length = true ↔ FitsAt setup offset length := by
  unfold staysInRegion FitsAt
  rw [Bool.and_eq_true, decide_eq_true_eq]
  refine and_congr_right fun hend => ?_
  have hmark : ∀ i, offset < i → i < offset + length →
      (s.attributes.info i).isRegionStart = setup.map.isRegionStart i :=
    fun i _ hi => h.region i (by omega)
  rw [Bool.not_eq_true', List.any_eq_false]
  constructor
  · intro hall i hlow hhigh
    rw [← hmark i hlow hhigh]
    simpa using hall i (List.mem_range'_1.mpr (by omega))
  · intro hall i hi
    obtain ⟨hlow, hhigh⟩ := List.mem_range'_1.mp hi
    rw [hmark i (by omega) (by omega), hall i (by omega) (by omega)]
    decide

/-! ### The first configuration -/

/-- The analysis before its first step. -/
def startConfig (setup : Setup) (panel : List (Plugin ν σ)) : Config ν σ :=
  ⟨0, none, ⟨setup.prepare (Attributes.blank setup.image.size), [], panel, #[]⟩⟩

section Start

variable (setup : Setup) (panel : List (Plugin ν σ))

theorem startConfig_info (i : Nat) :
    (startConfig setup panel).state.info i
      = (setup.prepare (Attributes.blank setup.image.size)).info i := rfl

theorem startConfig_awaits (i : Nat) : ¬ (startConfig setup panel).Awaits i :=
  Config.not_awaits rfl rfl i

theorem startConfig_obeying : Obeying setup (startConfig setup panel) := by
  refine ⟨size_prepare setup, fun i hi => ?_,
    fun i hi => absurd hi (startConfig_awaits setup panel i)⟩
  rw [startConfig_info, Attribute.isVisited, info_prepare_has i (by decide)] at hi
  cases hi

theorem startConfig_placed : Placed setup (startConfig setup panel).state := by
  refine ⟨size_prepare setup, fun i hi => ?_, fun i hi => ?_⟩
  · rw [startConfig_info, info_prepare, if_pos hi]
    exact (prepareByte_kept setup i).1
  · rw [startConfig_info, info_prepare, if_pos hi, Attribute.isRegionStart, prepareByte_has]
    rcases hintMark?_cases setup i with h | ⟨h, _⟩ | ⟨h, _⟩ | ⟨h, _⟩ <;> rw [h] <;> simp

end Start

/-! ### Settling -/

/-- `b` is what settling makes of `a`. -/
def Settled (a b : Attribute) : Prop :=
  b = a ∨ a.isInstructionStart = false ∧ b = settleByte a

/-- The bytes of a list, settled.  `cover` of them belong to the nearest instruction before. -/
def settleList : (cover : Nat) → List Attribute → List Attribute
  | _, [] => []
  | cover, a :: rest =>
    if a.isInstructionStart then a :: settleList (a.instructionLength - 1) rest
    else if 0 < cover then a :: settleList (cover - 1) rest
    else settleByte a :: settleList 0 rest

theorem foldl_settleNext (l : List Attribute) :
    ∀ done : Attributes × Nat,
      (l.foldl settleNext done).1 = done.1 ++ (settleList done.2 l).toArray := by
  induction l with
  | nil => intro done; simp [settleList]
  | cons a l ih =>
      intro done
      rw [List.foldl_cons, ih, settleNext, settleList]
      split
      · simp
      · split <;> simp

theorem settle_eq (attributes : Attributes) :
    settle attributes = (settleList 0 attributes.toList).toArray := by
  rw [settle, ← Array.foldl_toList, foldl_settleNext]
  simp

theorem settleList_settled (l : List Attribute) :
    ∀ cover, List.Forall₂ Settled l (settleList cover l) := by
  induction l with
  | nil => intro cover; exact .nil
  | cons a l ih =>
      intro cover
      rw [settleList]
      split
      · exact .cons (Or.inl rfl) (ih _)
      · rename_i hstart
        split
        · exact .cons (Or.inl rfl) (ih _)
        · exact .cons (Or.inr ⟨by simpa using hstart, rfl⟩) (ih _)

theorem size_settle (attributes : Attributes) : (settle attributes).size = attributes.size := by
  rw [settle_eq]
  simpa using (settleList_settled attributes.toList 0).length_eq.symm

/-- Settling leaves a byte as it is, unless no instruction starts there. -/
theorem info_settle (attributes : Attributes) (i : Nat) :
    Settled (attributes.info i) ((settle attributes).info i) := by
  by_cases hi : i < attributes.size
  · have hi' : i < (settle attributes).size := by rw [size_settle]; exact hi
    have hlist := settleList_settled attributes.toList 0
    have hget := hlist.get (by simpa using hi) (by rw [settle_eq] at hi'; simpa using hi')
    rw [Attributes.info, Attributes.info, Array.getD_eq_getD_getElem?,
      Array.getD_eq_getD_getElem?, Array.getElem?_eq_getElem hi, Array.getElem?_eq_getElem hi']
    simpa [settle_eq] using hget
  · refine Or.inl ?_
    rw [Attributes.info_of_size_le (Nat.le_of_not_lt hi),
      Attributes.info_of_size_le (by rw [size_settle]; exact Nat.le_of_not_lt hi)]

section

variable {a b : Attribute} (h : Settled a b)

include h

theorem Settled.has {m : Mark} (hm : m ≠ .instruction ∧ m ≠ .inlineData) :
    b.marks.has m = a.marks.has m := by
  rcases h with rfl | ⟨_, rfl⟩
  · rfl
  · unfold settleByte
    split
    · split <;> simp [hm.1, hm.2]
    · rfl

theorem Settled.status : b.status = a.status := by
  rcases h with rfl | ⟨_, rfl⟩
  · rfl
  · unfold settleByte
    split
    · split <;> rfl
    · rfl

/-- Where an instruction starts, nothing is settled. -/
theorem Settled.eq_of_start (hb : b.isInstructionStart = true) : b = a := by
  have hhas := h.has (m := .instructionStart) (by decide)
  rcases h with rfl | ⟨hstart, _⟩
  · rfl
  · rw [Attribute.isInstructionStart, hhas] at hb
    rw [Attribute.isInstructionStart, hb] at hstart
    cases hstart

theorem Settled.address : b.address = a.address := by
  rcases h with rfl | ⟨_, rfl⟩
  · rfl
  · unfold settleByte
    split
    · split <;> rfl
    · rfl

end

/-! ### The result -/

theorem checkSize_eq_ok {setup : Setup} {what : String} {entries : Nat} {optional : Bool} :
    setup.checkSize what entries optional = .ok ()
      ↔ entries = setup.image.size ∨ optional = true ∧ entries = 0 := by
  unfold Setup.checkSize
  split
  · rename_i h
    exact ⟨fun _ => h, fun _ => rfl⟩
  · rename_i h
    constructor
    · intro hc
      cases hc
    · intro hc
      exact absurd hc h

theorem bind_eq_ok {first rest : Except Fault Unit} :
    (first >>= fun _ => rest) = .ok () ↔ first = .ok () ∧ rest = .ok () := by
  cases first with
  | error fault =>
      constructor
      · intro h
        cases h
      · intro h
        cases h.1
  | ok _ => exact ⟨fun h => ⟨rfl, h⟩, fun h => h.2⟩

/-- The checks are about sizes only. -/
theorem check_eq_ok {setup : Setup} {attributes : Attributes} :
    setup.check attributes = .ok ()
      ↔ attributes.size = setup.image.size ∧ setup.map.totalLength = setup.image.size
        ∧ (setup.hints.size = setup.image.size ∨ setup.hints.size = 0)
        ∧ (setup.overrides.size = setup.image.size ∨ setup.overrides.size = 0) := by
  unfold Setup.check
  rw [bind_eq_ok, bind_eq_ok, bind_eq_ok, checkSize_eq_ok, checkSize_eq_ok, checkSize_eq_ok,
    checkSize_eq_ok]
  simp

/-- What the analysis comes to when the checks are passed. -/
def outcome (setup : Setup) (panel : List (Plugin ν σ)) : State ν σ :=
  let s := followAll setup (startConfig setup panel).state
  { s with attributes := settle s.attributes }

theorem analyze_eq_ok {setup : Setup} {panel : List (Plugin ν σ)} {s : State ν σ} :
    analyze setup panel (Attributes.blank setup.image.size) = .ok s
      ↔ setup.check (Attributes.blank setup.image.size) = .ok () ∧ s = outcome setup panel := by
  unfold analyze
  split
  · rename_i fault hcheck
    rw [hcheck]
    constructor
    · intro h
      cases h
    · intro h
      cases h.1
  · rename_i hcheck
    rw [hcheck]
    exact ⟨fun h => ⟨rfl, (Except.ok.inj h).symm⟩, fun h => congrArg _ h.2.symm⟩

/-- **The result of the analysis is the settled end of its steps.** -/
theorem outcome_reached (setup : Setup) (panel : List (Plugin ν σ)) :
    ∃ n ≤ 59 * setup.image.size, ∃ t : State ν σ,
      Steps setup n (startConfig setup panel) ⟨setup.image.size, none, t⟩
        ∧ t.pending = [] ∧ outcome setup panel = { t with attributes := settle t.attributes } := by
  obtain ⟨n, hn, hsteps, hend⟩ :=
    followAll_steps (startConfig_obeying setup panel) rfl
  exact ⟨n, hn, _, hsteps, hend, rfl⟩

/-- The result lies where the map says, whatever the plugins do. -/
theorem outcome_placed (setup : Setup) (panel : List (Plugin ν σ)) :
    Placed setup (outcome setup panel) := by
  obtain ⟨n, _, t, hsteps, _, houtcome⟩ := outcome_reached setup panel
  have hplaced := hsteps.preserves (P := fun c => Placed setup c.state) step_placed
    (startConfig_placed setup panel)
  rw [houtcome]
  exact hplaced.of_fixed (size_settle _) fun i =>
    ⟨(info_settle t.attributes i).address, (info_settle t.attributes i).has (by decide)⟩

theorem size_outcome (setup : Setup) (panel : List (Plugin ν σ)) :
    (outcome setup panel).attributes.size = setup.image.size :=
  (outcome_placed setup panel).size

theorem outcome_address (setup : Setup) (panel : List (Plugin ν σ)) {i : Nat}
    (hi : i < setup.image.size) :
    ((outcome setup panel).attributes.info i).address = (setup.map.addressOf? i).getD 0 :=
  (outcome_placed setup panel).address i hi

end Disasm65.Flow
