/-
What the analysis says about an instruction fits the status it says the instruction has.

The status of an instruction may grow after it has been decoded, and with it change its length,
the verdict on its branch and whether the next instruction follows.  The mark of a change keeps
book of that: an instruction that does not carry it was decoded under the status it has
(`DecodedWell`), and one that does is in line for a visit (`Consistent.changed`).  When nothing is
in line any more, every instruction fits its status.
-/
import Mathlib
import Disasm65.Proofs.Flow.Ends

namespace Disasm65.Flow

open StatusFlags

variable {ν σ : Type}

/-- The verdict on the branch of an instruction under a status. -/
def verdictUnder (op : Opcode) (status : StatusFlags) : Verdict :=
  if op.effect = .conditionalBranch then (op.verdict? status).getD .indeterminate
  else .indeterminate

theorem getD_recordedVerdict? (op : Opcode) (status : StatusFlags) :
    (recordedVerdict? op status).getD .indeterminate = verdictUnder op status := by
  unfold recordedVerdict? verdictUnder
  split <;> rfl

/-- Whether a verdict is recorded does not depend on the status. -/
theorem recordedVerdict?_eq_none {op : Opcode} {status : StatusFlags}
    (h : recordedVerdict? op status = none) (other : StatusFlags) :
    recordedVerdict? op other = none := by
  unfold recordedVerdict? at h ⊢
  split
  · rename_i heffect
    rw [if_pos heffect] at h
    unfold Opcode.verdict? at h ⊢
    split at h
    · split at h <;> cases h
    · rfl
  · rfl

theorem continues_iff (op : Opcode) (status : StatusFlags) :
    continues op status = false
      ↔ op.effect = .stop ∨ op.effect = .branch ∨ verdictUnder op status = .always := by
  have hverdict : recordedVerdict? op status = some .always ↔ verdictUnder op status = .always := by
    rw [← getD_recordedVerdict?]
    cases recordedVerdict? op status with
    | none => simp
    | some v => simp
  have hfalls : op.effect.fallsThrough = false ↔ op.effect = .stop ∨ op.effect = .branch := by
    cases op.effect <;> simp [FlowEffect.fallsThrough]
  unfold continues
  rw [Bool.and_eq_false_iff, hfalls, ← hverdict, or_assoc]
  simp

/-- What is noted about a byte fits its status, unless that has changed since. -/
structure DecodedWell (setup : Setup) (i : Nat) (a : Attribute) : Prop where
  visited : a.isInstructionStart = true → a.isVisited = true
  code : a.isInstructionStart = true →
    a.isInstruction = true ∧ a.isData = false ∧ a.isInlineData = false
  valid : a.isInstructionStart = true → (setup.opcodeAt i).isValid = true
  fits : a.isInstructionStart = true → FitsAt setup i a.instructionLength
  length : a.isInstructionStart = true → a.isChanged = false →
    a.instructionLength = (setup.opcodeAt i).length a.status
  verdict : a.isInstructionStart = true → a.isChanged = false →
    a.verdict = verdictUnder (setup.opcodeAt i) a.status
  noContinue : a.isInstructionStart = true → a.isChanged = false →
    a.marks.has .noContinue = !continues (setup.opcodeAt i) a.status
  /-- where no verdict is ever recorded, there is none -/
  unrecorded : recordedVerdict? (setup.opcodeAt i) a.status = none → a.verdict = .indeterminate

namespace DecodedWell

variable {setup : Setup} {i : Nat} {a b : Attribute}

/-- A byte where no instruction starts has only its verdict to account for. -/
theorem of_not_start (hstart : a.isInstructionStart = false)
    (hverdict : recordedVerdict? (setup.opcodeAt i) a.status = none → a.verdict = .indeterminate) :
    DecodedWell setup i a := by
  refine ⟨?_, ?_, ?_, ?_, ?_, ?_, ?_, hverdict⟩ <;>
    · intro h
      rw [hstart] at h
      cases h

/-- An instruction neither is blocked nor has an opcode that is not defined. -/
theorem not_start (ha : DecodedWell setup i a)
    (h : isBlocked a = true ∨ (setup.opcodeAt i).isValid = false) :
    a.isInstructionStart = false := by
  by_contra hc
  rw [Bool.not_eq_false] at hc
  rcases h with hblocked | hinvalid
  · obtain ⟨_, hd, hl⟩ := ha.code hc
    rw [isBlocked, hd, hl] at hblocked
    cases hblocked
  · rw [ha.valid hc] at hinvalid
    cases hinvalid

/-- What fits goes on fitting between visits. -/
theorem evolves (ha : DecodedWell setup i a) (h : Evolves setup False i a b) :
    DecodedWell setup i b := by
  have hstart : b.isInstructionStart = a.isInstructionStart := h.own rfl
  have hsame := h.sameDecoding
  -- while no change is noticed the status is the one the instruction was decoded under
  have hquiet : b.isInstructionStart = true → b.isChanged = false →
      a.isInstructionStart = true ∧ a.isChanged = false ∧ b.status = a.status := by
    intro hs hc
    rw [hstart] at hs
    refine ⟨hs, ?_, h.noticed (ha.visited hs) hc⟩
    by_contra hchanged
    rw [h.changed (by simpa using hchanged)] at hc
    cases hc
  refine ⟨?_, ?_, ?_, ?_, ?_, ?_, ?_, ?_⟩
  · intro hs
    rw [h.visited]
    exact ha.visited (hstart.symm.trans hs)
  · intro hs
    obtain ⟨hi, hd, hl⟩ := ha.code (hstart.symm.trans hs)
    have hblocked := h.unblocked id (Bool.or_eq_false_iff.mpr ⟨hd, hl⟩)
    obtain ⟨hd', hl'⟩ := Bool.or_eq_false_iff.mp hblocked
    exact ⟨h.instruction hi, hd', hl'⟩
  · exact fun hs => ha.valid (hstart.symm.trans hs)
  · intro hs
    rw [hsame.length]
    exact ha.fits (hstart.symm.trans hs)
  · intro hs hc
    obtain ⟨hs', hc', hstatus⟩ := hquiet hs hc
    rw [hsame.length, hstatus]
    exact ha.length hs' hc'
  · intro hs hc
    obtain ⟨hs', hc', hstatus⟩ := hquiet hs hc
    rw [hsame.verdict, hstatus]
    exact ha.verdict hs' hc'
  · intro hs hc
    obtain ⟨hs', hc', hstatus⟩ := hquiet hs hc
    rw [h.own rfl, hstatus]
    exact ha.noContinue hs' hc'
  · intro hn
    rw [hsame.verdict]
    exact ha.unrecorded (recordedVerdict?_eq_none hn _)

/-- An instruction that has just been decoded fits its status. -/
theorem finishes (ha : DecodedWell setup i a) (hvalid : (setup.opcodeAt i).isValid = true)
    (hfits : FitsAt setup i ((setup.opcodeAt i).length a.status))
    (h : Finishes setup False i (!continues (setup.opcodeAt i) a.status)
      (decodedByte setup i a) b) :
    DecodedWell setup i b := by
  have hsame := h.sameDecoding
  have hvisited : (decodedByte setup i a).isVisited = true := by simp [decodedByte_has]
  have hlength : b.instructionLength = (setup.opcodeAt i).length a.status := by
    rw [hsame.length]
    simp [decodedByte]
  have hverdict : b.verdict = (recordedVerdict? (setup.opcodeAt i) a.status).getD a.verdict := by
    rw [hsame.verdict]
    simp [decodedByte, visitByte]
  have hstatus : b.isChanged = false → b.status = a.status :=
    fun hc => (h.noticed hvisited hc).trans (decodedByte_status setup a)
  refine ⟨?_, ?_, ?_, ?_, ?_, ?_, ?_, ?_⟩
  · exact fun _ => (h.own rfl (by decide) (by decide)).trans hvisited
  · exact fun _ => h.isCode (by simp [decodedByte_has])
  · exact fun _ => hvalid
  · intro _
    rw [hlength]
    exact hfits
  · intro _ hc
    rw [hlength, hstatus hc]
  · intro _ hc
    rw [hverdict, hstatus hc, ← getD_recordedVerdict?]
    cases hrecorded : recordedVerdict? (setup.opcodeAt i) a.status with
    | none => exact ha.unrecorded hrecorded
    | some v => rfl
  · intro _ hc
    rw [h.noContinue, hstatus hc]
  · intro hn
    have hna := recordedVerdict?_eq_none hn a.status
    rw [hverdict, hna]
    exact ha.unrecorded hna

end DecodedWell

/-! ### Along the steps -/

/-- Without plugins: every byte is decoded well, and one whose status has changed since is in line
for a visit. -/
structure Consistent (setup : Setup) (c : Config ν σ) : Prop where
  panel : c.state.panel = []
  placed : Placed setup c.state
  bytes : ∀ i, DecodedWell setup i (c.state.info i)
  changed : ∀ i, (c.state.info i).isChanged = true → c.Awaits i

theorem Consistent.visits {setup : Setup} {c : Config ν σ} (hc : Consistent setup c)
    (offset : Nat) : Visits setup False offset c.state (visit setup offset c.state) :=
  visit_visits (fun hne => hne hc.panel) hc.placed.size

theorem DecodedWell.becomes {setup : Setup} {i : Nat} {s : State ν σ} {b : Attribute}
    (hi : DecodedWell setup i (s.info i)) (h : Becomes setup False i s b) (hpanel : s.panel = [])
    (hplaced : Placed setup s) : DecodedWell setup i b := by
  cases h with
  | kept _ => exact hi
  | halted _ hstop =>
      exact .of_not_start (by simpa [visitByte] using hi.not_start hstop) hi.unrecorded
  | rejected _ _ => exact .of_not_start (by simp [rejectByte]) hi.unrecorded
  | executed _ hstays hvalid hstops hfinish =>
      rw [hstops hpanel] at hfinish
      exact hi.finishes hvalid ((hplaced.staysInRegion_iff _ _).mp hstays) hfinish

theorem step_consistent {setup : Setup} {c d : Config ν σ} (hc : Consistent setup c)
    (h : step setup c = some d) : Consistent setup d := by
  have hplaced := step_placed hc.placed h
  rcases step_cases h with ⟨offset, hcurrent, rfl⟩ | ⟨target, rest, hcurrent, hp, rfl⟩
    | ⟨hcurrent, hp, hsearch, hentry, rfl⟩ | ⟨hcurrent, hp, _, _, rfl⟩
  · have hvisits := hc.visits offset
    refine ⟨hvisits.panel hc.panel, hplaced, fun i => ?_, fun i hi => ?_⟩
    · rcases hvisits.byte hc.placed.size i with h | h
      · exact (hc.bytes i).becomes h hc.panel hc.placed
      · exact (hc.bytes i).evolves h
    · rcases hvisits.changed hc.placed.size hi with ⟨hio, hchanged⟩ | hlisted | hnext
      · refine Or.inl (hvisits.mem_pending ?_)
        rcases hc.changed i hchanged with hlisted | hcur
        · exact hlisted
        · rw [hcurrent] at hcur
          exact absurd (Option.some.inj hcur).symm hio
      · exact Or.inl hlisted
      · exact Or.inr hnext
  · exact ⟨hc.panel, hplaced, hc.bytes,
      fun i hi => (Config.awaits_pop hcurrent hp i).mpr (hc.changed i hi)⟩
  · have hinfo := info_enter setup c.search c.state
    refine ⟨hc.panel, hplaced, fun i => ?_, fun i hi => ?_⟩
    · dsimp only
      rw [hinfo]
      split
      · -- no instruction has been decoded at an entry point before its first visit
        rename_i hcond
        obtain ⟨rfl, -⟩ := hcond
        have hbyte := hc.bytes c.search
        refine .of_not_start ?_ fun hn => hbyte.unrecorded (recordedVerdict?_eq_none hn _)
        by_contra hstart
        have hv := hbyte.visited (by simpa using hstart)
        rw [(isEntry_iff.mp hentry).1.2] at hv
        cases hv
      · exact hc.bytes i
    · refine absurd (hc.changed i ?_) (Config.not_awaits hcurrent hp i)
      dsimp only at hi
      rw [hinfo] at hi
      split at hi
      · simpa using hi
      · exact hi
  · exact ⟨hc.panel, hplaced, hc.bytes,
      fun i hi => absurd (hc.changed i hi) (Config.not_awaits hcurrent hp i)⟩

theorem startConfig_consistent (setup : Setup) :
    Consistent setup (startConfig setup ([] : List (Plugin ν σ))) := by
  refine ⟨rfl, startConfig_placed setup [], fun i => .of_not_start ?_ fun _ => ?_, fun i hi => ?_⟩
  · exact info_prepare_has i (by decide)
  · rw [startConfig_info, info_prepare]
    split
    · exact (prepareByte_kept setup i).2.1
    · rfl
  · rw [startConfig_info, Attribute.isChanged, info_prepare_has i (by decide)] at hi
    cases hi

/-! ### In the result -/

/-- **What the analysis returns is consistent.**  No byte carries the mark of a change; the status
of a byte that has been visited agrees with the override there; and what is noted where an
instruction starts is what its opcode says under the status that is noted. -/
theorem analyze_consistent (setup : Setup) (s : State ν σ)
    (h : analyze setup [] (Attributes.blank setup.image.size) = .ok s) (i : Nat) :
    let a := s.attributes.info i
    let op := setup.opcodeAt i
    a.isChanged = false
      ∧ (a.isVisited = true → ∀ flag, (setup.overrideAt i).get flag ≠ .unspecified →
          a.status.get flag = (setup.overrideAt i).get flag)
      ∧ (a.isInstructionStart = true →
          a.isVisited = true ∧ a.isInstruction = true ∧ a.isData = false ∧ a.isInlineData = false
            ∧ op.isValid = true
            ∧ a.instructionLength = op.length a.status
            ∧ i + a.instructionLength ≤ setup.image.size
            ∧ (∀ j, i < j → j < i + a.instructionLength →
                setup.map.isRegionStart j = false ∧ (s.attributes.info j).isRegionStart = false)
            ∧ a.verdict = (if op.effect = .conditionalBranch then
                (op.verdict? a.status).getD .indeterminate else .indeterminate)
            ∧ (a.marks.has .noContinue = true
                ↔ op.effect = .stop ∨ op.effect = .branch ∨ a.verdict = .always)) := by
  obtain ⟨n, _, t, hsteps, hend, houtcome⟩ := outcome_reached setup ([] : List (Plugin ν σ))
  obtain ⟨_, rfl⟩ := analyze_eq_ok.mp h
  rw [houtcome]
  have hconsistent := hsteps.preserves step_consistent (startConfig_consistent setup)
  have hobeying := hsteps.preserves step_obeying (startConfig_obeying setup [])
  have hsettled := info_settle t.attributes i
  have hunchanged : (t.info i).isChanged = false := by
    by_contra hc
    exact Config.not_awaits rfl hend i (hconsistent.changed i (by simpa using hc))
  refine ⟨(hsettled.has (by decide)).trans hunchanged, fun hv => ?_, fun hs => ?_⟩
  · rw [hsettled.status]
    exact hobeying.visited i ((hsettled.has (by decide)).symm.trans hv)
  · -- where an instruction starts, nothing has been settled
    have heq := hsettled.eq_of_start hs
    have hbyte := hconsistent.bytes i
    dsimp only at hs ⊢
    rw [heq] at hs ⊢
    obtain ⟨hinstruction, hdata, hinline⟩ := hbyte.code hs
    obtain ⟨hend, hregion⟩ := hbyte.fits hs
    refine ⟨hbyte.visited hs, hinstruction, hdata, hinline, hbyte.valid hs,
      hbyte.length hs hunchanged, hend, fun j hlow hhigh => ?_, hbyte.verdict hs hunchanged, ?_⟩
    · have hj := hregion j hlow hhigh
      refine ⟨hj, ((info_settle t.attributes j).has (by decide)).trans ?_⟩
      exact (hconsistent.placed.region j (Nat.lt_of_lt_of_le hhigh hend)).trans hj
    · have hmark := hbyte.noContinue hs hunchanged
      have hverdict := hbyte.verdict hs hunchanged
      rw [State.info] at hmark hverdict
      rw [hmark, hverdict, Bool.not_eq_true', continues_iff]

/-- A loop that narrows the accumulator.  The load at 2 has three bytes when control first comes to
it, and the branch at 7 is always taken then; when control comes back, the load has two bytes and
the branch is open. -/
def narrowingLoop : Setup where
  image := #[0xc2, 0x20, 0xa9, 0x00, 0xea, 0xe2, 0x20, 0xd0, 0xf9, 0x60]
  processor := ⟨.wide65816, true, OpcodeTable.blank.overlay
    [Layer.plain 0xc2 .rep .imm .clearSelected, Layer.plain 0xe2 .sep .imm .setSelected,
     Layer.plain 0xa9 .lda .immAccumulator .loadImmediate, Layer.branch 0xd0 .bne .zero false,
     Layer.plain 0xea .nop .implied .keep, Layer.op 0x60 .rts .stackRts .stop .keep]⟩
  map := ⟨[⟨0, 10, 0x8000⟩], 10⟩
  parameters := .initial
  hints := #[.code, .unset, .unset, .unset, .unset, .unset, .unset, .unset, .unset, .unset]
  overrides := #[]
  entryStatus := .indeterminate

theorem analyze_narrowingLoop :
    analyze narrowingLoop [] (Attributes.blank narrowingLoop.image.size)
      = .ok (outcome narrowingLoop ([] : List (Plugin Unit Unit))) :=
  analyze_eq_ok.mpr ⟨check_eq_ok.mpr (by decide), rfl⟩

theorem analyze_consistent_narrowingLoop :
    ∃ s : State Unit Unit,
      analyze narrowingLoop [] (Attributes.blank narrowingLoop.image.size) = .ok s
        ∧ (s.attributes.info 2).isInstructionStart = true
        ∧ (s.attributes.info 2).instructionLength = 2
        ∧ (narrowingLoop.opcodeAt 2).length (s.attributes.info 2).status = 2 := by
  have hstart : ((outcome narrowingLoop ([] : List (Plugin Unit Unit))).attributes.info
      2).isInstructionStart = true := by decide +kernel
  have hlength : ((outcome narrowingLoop ([] : List (Plugin Unit Unit))).attributes.info
      2).instructionLength = 2 := by decide +kernel
  refine ⟨_, analyze_narrowingLoop, hstart, hlength, ?_⟩
  rw [← ((analyze_consistent narrowingLoop _ analyze_narrowingLoop 2).2.2 hstart).2.2.2.2.2.1]
  exact hlength

end Disasm65.Flow
