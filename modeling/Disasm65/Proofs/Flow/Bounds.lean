/-
The analysis stays inside its arrays and comes to an end.

Three things keep the accesses in range.  The regions of a valid map end where the image ends, so
placing them writes no further and every branch target that the map finds is a byte of the image.
An instruction is only decoded where it fits, so settling does not read past its bytes.  And all
arrays keep their size.  With the bound on the number of steps, the analysis that checks all it
does returns what the analysis returns (`analyze_total`).
-/
import Mathlib
import Disasm65.Proofs.Flow.Checked.Ends
import Disasm65.Proofs.Flow.Checked.Visit

namespace Disasm65.Flow

variable {ν σ : Type}

namespace Checked

/-! ### The steps -/

def isEntry (setup : Setup) (s : State ν σ) (offset : Nat) : Except Trap Bool := do
  let a ← info s offset
  return setup.hintAt offset = .code && a.isHinted && !a.isVisited && !isBlocked a

def enter (setup : Setup) (offset : Nat) (s : State ν σ) : Except Trap (State ν σ) :=
  update s offset fun a =>
    { a.mark .entryPoint with status := setup.entryStatus.apply (setup.overrideAt offset) }

def step (setup : Setup) (c : Config ν σ) : Except Trap (Option (Config ν σ)) :=
  match c.current with
  | some offset => do
    let out ← visit setup offset c.state
    return some ⟨c.search, out.2, out.1⟩
  | none =>
    match c.state.pending with
    | target :: rest => return some ⟨c.search, some target, { c.state with pending := rest }⟩
    | [] =>
      if c.search < setup.image.size then do
        let entry ← isEntry setup c.state c.search
        if entry then
          let s ← enter setup c.search c.state
          return some ⟨c.search + 1, some c.search, s⟩
        else return some ⟨c.search + 1, none, c.state⟩
      else return none

/-- Take steps until the analysis is finished, but not more than `limit`. -/
def run (setup : Setup) : (limit : Nat) → Config ν σ → Except Trap (State ν σ)
  | 0, c => do
    let taken ← step setup c
    match taken with
    | none => return c.state
    | some _ => .error .outOfSteps
  | limit + 1, c => do
    let taken ← step setup c
    match taken with
    | none => return c.state
    | some d => run setup limit d

/-- The analysis with every access checked and at most `limit` steps. -/
def analyze (setup : Setup) (limit : Nat) (panel : List (Plugin ν σ)) :
    Except Trap (State ν σ) := do
  let attributes ← prepare setup (Attributes.blank setup.image.size)
  let s ← run setup limit ⟨0, none, ⟨attributes, [], panel, #[]⟩⟩
  let attributes ← settle s.attributes
  return { s with attributes }

end Checked

/-! ### What keeps the accesses in range -/

/-- The instruction at `i` ends in the image, and what its operand refers to is in the image. -/
structure Inside (setup : Setup) (i : Nat) (a : Attribute) : Prop where
  ends : a.isInstructionStart = true → i + a.instructionLength ≤ setup.image.size
  target : ∀ t, a.operandOffset = some t → t < setup.image.size

namespace Inside

variable {setup : Setup} {i : Nat} {a b : Attribute}

theorem congr (ha : Inside setup i a) (hstart : b.isInstructionStart = a.isInstructionStart)
    (hlength : b.instructionLength = a.instructionLength)
    (hoffset : b.operandOffset = a.operandOffset) : Inside setup i b := by
  refine ⟨fun hs => ?_, fun t ht => ?_⟩
  · rw [hlength]
    exact ha.ends (hstart.symm.trans hs)
  · exact ha.target t (hoffset.symm.trans ht)

end Inside

/-- All attributes are there, and everything is inside. -/
structure InRange (setup : Setup) (c : Config ν σ) : Prop where
  size : c.state.attributes.size = setup.image.size
  bytes : ∀ i, Inside setup i (c.state.info i)

section Range

variable {setup : Setup} (hmap : setup.map.Valid)
variable (htotal : setup.map.totalLength = setup.image.size)

include hmap htotal

/-- Resolving an operand finds no place outside the image. -/
theorem resolveOperand_target {offset : Nat} (op : Opcode) {a : Attribute}
    (ha : ∀ t, a.operandOffset = some t → t < setup.image.size) (t : Nat)
    (ht : (resolveOperand setup offset op a).operandOffset = some t) : t < setup.image.size := by
  unfold resolveOperand at ht
  split at ht
  · exact ha t ht
  · split at ht
    · exact ha t ht
    · rw [← htotal]
      exact hmap.offsetOf?_lt ht

theorem decodedByte_target {i : Nat} {a : Attribute} (ha : Inside setup i a) (t : Nat)
    (ht : (decodedByte setup i a).operandOffset = some t) : t < setup.image.size := by
  have hclaimed := sameDecoding_claimByte
    { (visitByte a).mark .instructionStart with
      instructionLength := (setup.opcodeAt i).length a.status }
  unfold decodedByte decodeByte at ht
  dsimp only at ht
  rw [(noteBranch_kept _ _).2.2.2.1] at ht
  have hold : ∀ t, (claimByte { (visitByte a).mark .instructionStart with
      instructionLength := (setup.opcodeAt i).length a.status }).operandOffset = some t →
        t < setup.image.size :=
    fun t ht => ha.target t (hclaimed.operandOffset.symm.trans ht)
  split at ht
  · exact resolveOperand_target hmap htotal _ hold t ht
  · exact hold t ht

theorem Inside.decodedByte {i : Nat} {a : Attribute} (ha : Inside setup i a)
    (hend : i + (setup.opcodeAt i).length a.status ≤ setup.image.size) :
    Inside setup i (decodedByte setup i a) := by
  refine ⟨fun _ => ?_, decodedByte_target hmap htotal ha⟩
  simpa [Flow.decodedByte] using hend

theorem Inside.becomes {i : Nat} {s : State ν σ} {b : Attribute} (hi : Inside setup i (s.info i))
    (h : Becomes setup True i s b) : Inside setup i b := by
  cases h with
  | kept _ => exact hi
  | halted _ _ => exact hi.congr (by simp [visitByte]) rfl rfl
  | rejected _ _ =>
      refine ⟨fun hs => ?_, hi.target⟩
      simp [rejectByte] at hs
  | executed _ hstays _ _ hfinish =>
      have hdecoded := hi.decodedByte hmap htotal (Checked.le_of_staysInRegion hstays)
      exact hdecoded.congr (hfinish.own rfl (by decide) (by decide))
        hfinish.sameDecoding.length hfinish.sameDecoding.operandOffset

theorem step_inRange {c d : Config ν σ} (hc : InRange setup c) (h : step setup c = some d) :
    InRange setup d := by
  rcases step_cases h with ⟨offset, _, rfl⟩ | ⟨target, rest, _, _, rfl⟩ | ⟨_, _, _, _, rfl⟩
    | ⟨_, _, _, _, rfl⟩
  · have hvisits : Visits setup True offset c.state (visit setup offset c.state) :=
      visit_visits (fun _ => trivial) hc.size
    refine ⟨hvisits.size.trans hc.size, fun i => ?_⟩
    rcases hvisits.byte hc.size i with h | h
    · exact (hc.bytes i).becomes hmap htotal h
    · exact (hc.bytes i).congr (h.own rfl) h.sameDecoding.length h.sameDecoding.operandOffset
  · exact ⟨hc.size, hc.bytes⟩
  · refine ⟨State.size_update.trans hc.size, fun i => ?_⟩
    dsimp only
    rw [info_enter]
    split
    · exact (hc.bytes i).congr (by simp) rfl rfl
    · exact hc.bytes i
  · exact ⟨hc.size, hc.bytes⟩

/-- **A step passes its checks.** -/
theorem Checked.step_eq {c : Config ν σ} (hc : InRange setup c) :
    step setup c = .ok (Flow.step setup c) := by
  unfold step Flow.step
  cases c.current with
  | some offset =>
      have htarget : ∀ t, branchTarget? (setup.opcodeAt offset)
          (decodedByte setup offset (c.state.info offset)) = some t → t < setup.image.size := by
        intro t ht
        unfold branchTarget? at ht
        split at ht
        · exact decodedByte_target hmap htotal (hc.bytes offset) t ht
        · cases ht
      dsimp only
      rw [visit_eq hc.size htarget]
      rfl
  | none =>
      cases c.state.pending with
      | cons target rest => rfl
      | nil =>
          dsimp only
          split
          · rename_i hsearch
            have hin : c.search < c.state.attributes.size := by rw [hc.size]; exact hsearch
            have hentry : isEntry setup c.state c.search
                = .ok (Flow.isEntry setup c.state c.search) := by
              rw [isEntry, info_eq hin]
              rfl
            rw [hentry, ok_bind]
            split
            · rw [enter, update_eq hin]
              rfl
            · rfl
          · rfl

theorem Checked.run_eq {n limit : Nat} {c d : Config ν σ} (h : Steps setup n c d)
    (hlimit : n ≤ limit) (hc : InRange setup c) (hd : Flow.step setup d = none) :
    run setup limit c = .ok d.state := by
  induction h generalizing limit with
  | refl c => cases limit <;> rw [run, step_eq hmap htotal hc, hd] <;> rfl
  | head hstep _ ih =>
      obtain ⟨limit, rfl⟩ : ∃ m, limit = m + 1 := ⟨limit - 1, by omega⟩
      rw [run, step_eq hmap htotal hc, hstep]
      exact ih (by omega) (step_inRange hmap htotal hc hstep) hd

end Range

theorem startConfig_inRange (setup : Setup) (panel : List (Plugin ν σ)) :
    InRange setup (startConfig setup panel) := by
  refine ⟨size_prepare setup, fun i => ⟨fun hs => ?_, fun t ht => ?_⟩⟩
  · rw [startConfig_info, Attribute.isInstructionStart, info_prepare_has i (by decide)] at hs
    cases hs
  · rw [startConfig_info, info_prepare] at ht
    split at ht
    · rw [(prepareByte_kept setup i).2.2.1] at ht
      cases ht
    · cases ht

/-! ### In the result -/

/-- **The analysis is total.**  With a valid map that covers the image, and hints and overrides for
every byte or for none, the analysis returns a result, whatever the plugins do.  Checking every
access, refusing instructions without bytes and taking no more than 59 steps for every byte of the
image makes no difference. -/
theorem analyze_total (setup : Setup) (hmap : setup.map.Valid)
    (htotal : setup.map.totalLength = setup.image.size)
    (hhints : setup.hints.size = setup.image.size ∨ setup.hints.size = 0)
    (hoverrides : setup.overrides.size = setup.image.size ∨ setup.overrides.size = 0)
    (panel : List (Plugin ν σ)) :
    ∃ s, analyze setup panel (Attributes.blank setup.image.size) = .ok s
      ∧ Checked.analyze setup (59 * setup.image.size) panel = .ok s := by
  obtain ⟨n, hn, t, hsteps, hend, houtcome⟩ := outcome_reached setup panel
  have hstart := startConfig_inRange setup panel
  have hfinal := hsteps.preserves (step_inRange hmap htotal) hstart
  refine ⟨outcome setup panel, analyze_eq_ok.mpr ⟨check_eq_ok.mpr ?_, rfl⟩, ?_⟩
  · exact ⟨Attributes.size_blank _, htotal, hhints, hoverrides⟩
  · have hlast : step setup (⟨setup.image.size, none, t⟩ : Config ν σ) = none := by
      simp [step, hend]
    have hrun := Checked.run_eq hmap htotal hsteps hn hstart hlast
    have hsettle : Checked.settle t.attributes = .ok (settle t.attributes) := by
      refine Checked.settle_eq fun i hs => ?_
      rw [hfinal.size]
      exact (hfinal.bytes i).ends hs
    rw [Checked.analyze, Checked.prepare_eq hmap htotal, Checked.ok_bind, ← startConfig, hrun,
      Checked.ok_bind, hsettle, houtcome]
    rfl

/-- A break and a branch back to it.  The second time control comes to the break, with the carry
set, it learns something. -/
def breakLoop : Setup where
  image := #[0x00, 0x00, 0x38, 0xd0, 0xfb]
  processor := ⟨.nmos6502, true, OpcodeTable.blank.overlay
    [Layer.op 0x00 .brk .stackInt .stop .keep, Layer.force 0x38 .sec .carry true,
     Layer.branch 0xd0 .bne .zero false]⟩
  map := ⟨[⟨0, 5, 0x8000⟩], 5⟩
  parameters := .initial
  hints := #[.code, .unset, .unset, .unset, .unset]
  overrides := #[]
  entryStatus := .unspecified

/-- A plugin that counts its consultations and changes its vote from one to the next. -/
def wavering : Plugin Unit Nat where
  capabilities := ⟨true, true, true⟩
  consult count _ := .vote (count % 2 == 1) (count + 1)
  state := 0

/-- The plugin is asked twice, lets the break go on and then stops it. -/
theorem analyze_total_wavering :
    breakLoop.map.Valid ∧ (outcome breakLoop [wavering]).panel.map (·.state) = [2]
      ∧ ∃ s, analyze breakLoop [wavering] (Attributes.blank breakLoop.image.size) = .ok s
        ∧ Checked.analyze breakLoop (59 * breakLoop.image.size) [wavering] = .ok s := by
  have hcreate : AddressMap.create 5 [⟨0, 5, 0x8000⟩] = .ok breakLoop.map := rfl
  have hmap := (AddressMap.create_eq_ok.mp hcreate).2
  exact ⟨hmap, by decide +kernel,
    analyze_total breakLoop hmap rfl (Or.inl rfl) (Or.inr rfl) [wavering]⟩

end Disasm65.Flow
