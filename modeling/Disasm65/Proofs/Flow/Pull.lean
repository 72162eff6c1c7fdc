/-
What a PLP hands on.

A PLP takes its status from a PHP that it finds among the bytes before it.  It looks when it is
decoded, and nothing makes it look again: what is learnt at the PHP later reaches the PLP only if
control brings it there.  So what the instruction behind a PLP has been handed is the status that
was pulled when the PLP was last decoded (`analyze_pulled`).
-/
import Mathlib
import Disasm65.Proofs.Cpu.Processor
import Disasm65.Proofs.Flow.Closure
import Disasm65.Proofs.Flow.LastDecoding

namespace Disasm65.Flow

open StatusFlags

variable {ν σ : Type}

/-! ### Handing on what was pulled -/

section Pull

variable {setup : Setup} {o : Nat} {b d : Config ν σ}

/-- A PLP that is decoded hands what it pulls to the next byte, unless that is data. -/
theorem Closing.pulls (hb : Closing setup b) {out : State ν σ × Option Nat}
    (h : Executes setup False o b.state out) (hplp : (setup.opcodeAt o).isPlp = true)
    (hgoes : (setup.opcodeAt o).effect = .next) (hin : o + 1 < setup.image.size)
    (haddress : (setup.map.addressOf? (o + 1)).getD 0
      = wrap32 ((setup.map.addressOf? o).getD 0 + 1))
    (hdata : (b.state.info (o + 1)).isData = false) :
    Received setup ⟨b.search, out.2, out.1⟩ false (o + 1)
      (pulledStatus setup b.state.attributes o) := by
  have hplaced := hb.consistent.placed
  have hlength : (setup.opcodeAt o).length (b.state.info o).status = 1 := by
    have hmode : (setup.opcodeAt o).mode = .stackPull := by
      rw [Opcode.isPlp, Bool.and_eq_true, beq_iff_eq, beq_iff_eq] at hplp
      exact hplp.2
    rw [Opcode.length, hmode]
    rfl
  have hopen : isBlocked (b.state.info (o + 1)) = false :=
    Bool.or_eq_false_iff.mpr ⟨hdata, (hb.bytes (o + 1)).inline⟩
  rw [← hplaced.address (o + 1) hin, ← hplaced.address o (by omega)] at haddress
  obtain ⟨hreach, hgone⟩ := h.fall (o + 1) (by rw [hlength]) hb.consistent.panel
    (continues_of_effect (Or.inl hgoes)) (hb.bytes o).free hin hopen
    (by rw [Nat.add_sub_cancel_left]; exact haddress)
  rw [afterVisit_of_plp setup o b.state hplp] at hreach
  exact ⟨hgone.imp_right Or.inr, hreach.learnt, fun hc => by cases hc⟩

/-- What has arrived is there in the end. -/
theorem Steps.received {n : Nat} (h : Steps setup n b d) (hb : Consistent setup b) {named : Bool}
    {i : Nat} {incoming : StatusFlags} (hi : i < setup.image.size)
    (hr : Received setup b named i incoming) : Received setup d named i incoming :=
  (h.preserves (P := fun c => Consistent setup c ∧ Received setup c named i incoming)
    (fun hc hstep => ⟨step_consistent hc.1 hstep, step_received hc.1.placed.size hstep hi hc.2⟩)
    ⟨hb, hr⟩).2

end Pull

/-- The status that the PLP at `offset` finds at its PHP. -/
def pushedStatus? (setup : Setup) (attributes : Attributes) (offset : Nat) : Option StatusFlags :=
  (matchingPhp? setup attributes offset).map fun i => (attributes.info i).status

/-- **What a PLP hands on.**  Without plugins and with hints of code only, take a PLP whose next
byte follows in the image and in memory, and the last step that decodes it.  The PLP had the status
then that it has in the end.  Unless the next byte was data at that time, its status has every
possibility of what was pulled then, on the flags that its override leaves open.  So it has those of
what would be pulled in the end, if what is known at the PHP is the same. -/
theorem analyze_pulled (setup : Setup) (family : Family) (hasUndocumented : Bool)
    (hprocessor : setup.processor = .ofFamily family hasUndocumented)
    (hhints : ∀ i, setup.hintAt i = .unset ∨ setup.hintAt i = .code) (s : State ν σ)
    (h : analyze setup [] (Attributes.blank setup.image.size) = .ok s) (o : Nat)
    (hstart : (s.attributes.info o).isInstructionStart = true)
    (hplp : (setup.opcodeAt o).isPlp = true) (hin : o + 1 < setup.image.size)
    (haddress : (s.attributes.info (o + 1)).address = (s.attributes.info o).address + 1) :
    ∃ n b d, Steps setup n (startConfig setup ([] : List (Plugin ν σ))) b ∧ b.Decodes o
      ∧ step setup b = some d ∧ Done setup o d
      ∧ (b.state.info o).status = (s.attributes.info o).status
      ∧ ((b.state.info (o + 1)).isData = false →
        WithinOff (setup.overrideAt (o + 1)) (pulledStatus setup b.state.attributes o)
            (s.attributes.info (o + 1)).status
          ∧ (pushedStatus? setup s.attributes o = pushedStatus? setup b.state.attributes o →
            WithinOff (setup.overrideAt (o + 1)) (pulledStatus setup s.attributes o)
              (s.attributes.info (o + 1)).status)) := by
  obtain ⟨n, _, t, hsteps, hend, houtcome⟩ := outcome_reached setup ([] : List (Plugin ν σ))
  obtain ⟨_, rfl⟩ := analyze_eq_ok.mp h
  have hstartConfig := startConfig_closing (ν := ν) (σ := σ) hhints
  have hfinal := hsteps.preserves step_closing hstartConfig
  have hsettled := info_settle t.attributes
  rw [houtcome] at hstart haddress ⊢
  have hsame := (hsettled o).eq_of_start hstart
  have hgoes : (setup.opcodeAt o).effect = .next := by
    unfold Setup.opcodeAt at hplp ⊢
    rw [hprocessor] at hplp ⊢
    exact Processor.effect_of_isPlp hplp
  obtain ⟨m, b, out, hbefore, hlast⟩ :=
    hsteps.last_execution hend (by rw [State.info, ← hsame]; exact hstart)
  obtain ⟨k, hafter⟩ := hlast.rest
  have hb := hbefore.preserves step_closing hstartConfig
  have hstatus : (b.state.info o).status = (t.info o).status :=
    hlast.status (hfinal.unchanged hend o)
  have hkept : ((settle t.attributes).info o).status = (b.state.info o).status :=
    (hsettled o).status.trans hstatus.symm
  have hplaced : Placed setup t := hfinal.consistent.placed
  have hfollows : (setup.map.addressOf? (o + 1)).getD 0
      = wrap32 ((setup.map.addressOf? o).getD 0 + 1) := by
    rw [(hsettled (o + 1)).address, (hsettled o).address] at haddress
    rw [← wrap32_addressOf?, ← hplaced.address (o + 1) hin, ← hplaced.address o (by omega)]
    exact congrArg wrap32 haddress
  refine ⟨m, b, _, hbefore, hlast.decodes, hlast.step, hlast.done, hkept.symm, fun hdata => ?_⟩
  have hreceived := hafter.received (step_consistent hb.consistent hlast.step) hin
    (hb.pulls hlast.executes hplp hgoes hin hfollows hdata)
  have hlearnt := hreceived.learnt
  rw [State.info, ← (hsettled (o + 1)).status] at hlearnt
  refine ⟨hlearnt, fun hpushed => ?_⟩
  rw [pulledStatus_congr rfl rfl hkept hpushed]
  exact hlearnt

/-- A PHP at 0, and the PLP at 3 that pulls what is known there.  A jump at 7 brings another width
of the accumulator to the PHP, when the PLP has been decoded; a SEP in between keeps it from the
PLP. -/
def stalePull : Setup where
  image := #[0x08, 0xe2, 0x20, 0x28, 0x60, 0xc2, 0x20, 0x4c, 0x00, 0x10]
  processor := .ofFamily .wide65816 false
  map := ⟨[⟨0, 10, 0x1000⟩], 10⟩
  parameters := .initial
  hints := #[.code, .unset, .unset, .unset, .unset, .code, .unset, .unset, .unset, .unset]
  overrides := #[]
  entryStatus := .atEntry

/-- A PLP at 17, decoded while the byte behind it is data: with a wide accumulator the load there
leaves the image.  Then the jump at 16 claims that byte, and the load is decoded with the narrow
accumulator that comes from 13. -/
def reclaimed : Setup where
  image := #[0xc2, 0x20, 0x4c, 0x12, 0x10, 0x4c, 0x11, 0x10, 0x4c, 0x10, 0x10, 0xe2, 0x20, 0x4c,
    0x12, 0x10, 0x4c, 0x28, 0xa9, 0x00]
  processor := .ofFamily .wide65816 false
  map := ⟨[⟨0, 20, 0x1000⟩], 20⟩
  parameters := .initial
  hints := #[.code, .unset, .unset, .unset, .unset, .code, .unset, .unset, .code, .unset, .unset,
    .code, .unset, .unset, .unset, .unset, .unset, .unset, .unset, .unset]
  overrides := #[]
  entryStatus := (StatusFlags.unspecified.setAll [.memory, .index] .one).set .emulation .zero

/-- The PLP at `o` is an instruction, and another one follows it in the image and in memory, which
does not have every possibility of what would be pulled in the end. -/
def Misses (setup : Setup) (attributes : Attributes) (o : Nat) : Prop :=
  ((attributes.info o).isInstructionStart = true ∧ (setup.opcodeAt o).isPlp = true)
    ∧ (o + 1 < setup.image.size
      ∧ (attributes.info (o + 1)).address = (attributes.info o).address + 1)
    ∧ (attributes.info (o + 1)).isInstructionStart = true
    ∧ ¬ WithinOff (setup.overrideAt (o + 1)) (pulledStatus setup attributes o)
      (attributes.info (o + 1)).status

instance (setup : Setup) (attributes : Attributes) (o : Nat) :
    Decidable (Misses setup attributes o) :=
  inferInstanceAs (Decidable (_ ∧ _))

theorem stalePull_hints (i : Nat) : stalePull.hintAt i = .unset ∨ stalePull.hintAt i = .code :=
  hintAt_open (by decide) i

theorem analyze_stalePull :
    analyze stalePull [] (Attributes.blank stalePull.image.size)
      = .ok (outcome stalePull ([] : List (Plugin Unit Unit))) :=
  analyze_eq_ok.mpr ⟨check_eq_ok.mpr (by decide), rfl⟩

theorem misses_stalePull :
    Misses stalePull (outcome stalePull ([] : List (Plugin Unit Unit))).attributes 3 := by
  decide +kernel

theorem analyze_pulled_stalePull :
    ∃ s : State Unit Unit,
      stalePull.processor = .ofFamily .wide65816 false
        ∧ (∀ i, stalePull.hintAt i = .unset ∨ stalePull.hintAt i = .code)
        ∧ analyze stalePull [] (Attributes.blank stalePull.image.size) = .ok s
        ∧ (s.attributes.info 3).isInstructionStart = true
        ∧ (stalePull.opcodeAt 3).isPlp = true
        ∧ 3 + 1 < stalePull.image.size
        ∧ (s.attributes.info (3 + 1)).address = (s.attributes.info 3).address + 1
        ∧ ∃ n b d, Steps stalePull n (startConfig stalePull ([] : List (Plugin Unit Unit))) b
          ∧ b.Decodes 3 ∧ step stalePull b = some d ∧ Done stalePull 3 d
          ∧ (b.state.info 3).status = (s.attributes.info 3).status
          ∧ ((b.state.info (3 + 1)).isData = false →
            WithinOff (stalePull.overrideAt (3 + 1)) (pulledStatus stalePull b.state.attributes 3)
                (s.attributes.info (3 + 1)).status
              ∧ (pushedStatus? stalePull s.attributes 3
                  = pushedStatus? stalePull b.state.attributes 3 →
                WithinOff (stalePull.overrideAt (3 + 1)) (pulledStatus stalePull s.attributes 3)
                  (s.attributes.info (3 + 1)).status)) := by
  obtain ⟨⟨hstart, hplp⟩, ⟨hin, haddress⟩, -⟩ := misses_stalePull
  exact ⟨_, rfl, stalePull_hints, analyze_stalePull, hstart, hplp, hin, haddress,
    analyze_pulled stalePull .wide65816 false rfl stalePull_hints _ analyze_stalePull 3 hstart hplp
      hin haddress⟩

theorem reclaimed_hints (i : Nat) : reclaimed.hintAt i = .unset ∨ reclaimed.hintAt i = .code :=
  hintAt_open (by decide) i

/-- So what is handed on need not be what would be pulled in the end: the PHP may have learnt
something, and the byte behind the PLP may have been data. -/
theorem plp_misses :
    (∃ s : State Unit Unit, (∀ i, stalePull.hintAt i = .unset ∨ stalePull.hintAt i = .code)
      ∧ stalePull.parameters.matchesPlp = true
      ∧ analyze stalePull [] (Attributes.blank stalePull.image.size) = .ok s
      ∧ Misses stalePull s.attributes 3)
    ∧ ∃ s : State Unit Unit, (∀ i, reclaimed.hintAt i = .unset ∨ reclaimed.hintAt i = .code)
      ∧ reclaimed.parameters.matchesPlp = true
      ∧ analyze reclaimed [] (Attributes.blank reclaimed.image.size) = .ok s
      ∧ Misses reclaimed s.attributes 17 := by
  refine ⟨⟨_, stalePull_hints, rfl, analyze_stalePull, misses_stalePull⟩, _, reclaimed_hints, rfl,
    analyze_eq_ok.mpr ⟨check_eq_ok.mpr (by decide), rfl⟩, ?_⟩
  decide +kernel

end Disasm65.Flow
