/-
Data that control has run into.

An instruction that leaves the image or its region is rejected, and its first byte becomes data.
Nothing else makes data where hints only ever name code, and nothing touches a byte while it is
data.  So a byte that ends up as data is one at which an instruction was expected, and which does
not fit there (`Rejected`).

The byte may lie inside another instruction, to which rejecting it does nothing.  That happens only
if the rejected instruction overlaps the other one and reaches past its end, and is rejected when
the other one has been decoded for the last time (`analyze_rejected`).
-/
import Mathlib
import Disasm65.Proofs.Flow.Classes
import Disasm65.Proofs.Flow.Closure
import Disasm65.Proofs.Flow.LastDecoding

namespace Disasm65.Flow

variable {ν σ : Type}

/-- If the byte at `i` is data, an instruction was expected there that does not fit. -/
def Rejected (setup : Setup) (i : Nat) (a : Attribute) : Prop :=
  a.isData = true → a.isVisited = true ∧ a.isInstructionStart = false
    ∧ ¬ FitsAt setup i ((setup.opcodeAt i).length a.status)

namespace Rejected

variable {setup : Setup} {i : Nat} {a b : Attribute}

theorem congr (ha : Rejected setup i a) (hdata : b.isData = a.isData)
    (hvisited : a.isVisited = true → b.isVisited = true)
    (hstart : b.isInstructionStart = a.isInstructionStart) (hstatus : b.status = a.status) :
    Rejected setup i b := by
  intro hb
  obtain ⟨hv, hs, hfits⟩ := ha (hdata.symm.trans hb)
  rw [hstatus, hstart]
  exact ⟨hvisited hv, hs, hfits⟩

/-- A visit of the byte itself. -/
theorem becomes {s : State ν σ} (hi : Rejected setup i (s.info i))
    (h : Becomes setup False i s b) (hplaced : Placed setup s) : Rejected setup i b := by
  cases h with
  | kept _ => exact hi
  | halted _ _ =>
      exact hi.congr (by simp [visitByte]) (fun _ => by simp [visitByte]) (by simp [visitByte]) rfl
  | rejected _ hleaves =>
      refine fun _ => ⟨by simp [visitByte, rejectByte], by simp [rejectByte], fun hfits => ?_⟩
      have hstays := (hplaced.staysInRegion_iff _ _).mpr hfits
      exact Bool.false_ne_true (hleaves.symm.trans hstays)
  | executed _ _ _ _ hfinish =>
      intro hdata
      rw [(hfinish.isCode (by simp [decodedByte_has])).2.1] at hdata
      cases hdata

/-- A visit of any byte. -/
theorem visits {offset : Nat} {s : State ν σ} {out : State ν σ × Option Nat}
    (hi : Rejected setup i (s.info i)) (h : Visits setup False offset s out)
    (hpanel : s.panel = []) (hplaced : Placed setup s) : Rejected setup i (out.1.info i) := by
  by_cases hio : i = offset
  · subst hio
    exact hi.becomes (h.becomes hplaced.size) hplaced
  · intro hdata
    have hsame := h.data hpanel hio hdata
    rw [hsame] at hdata ⊢
    exact hi hdata

end Rejected

theorem step_rejected {setup : Setup} {c d : Config ν σ} (hc : Consistent setup c)
    (hbytes : ∀ i, Rejected setup i (c.state.info i)) (h : step setup c = some d) (i : Nat) :
    Rejected setup i (d.state.info i) := by
  rcases step_cases h with ⟨offset, _, rfl⟩ | ⟨target, rest, _, _, rfl⟩
    | ⟨_, _, _, hentry, rfl⟩ | ⟨_, _, _, _, rfl⟩
  · exact (hbytes i).visits (hc.visits offset) hc.panel hc.placed
  · exact hbytes i
  · -- control does not enter at data
    intro hdata
    dsimp only at hdata ⊢
    rw [info_enter] at hdata ⊢
    split at hdata
    · rename_i hcond
      obtain ⟨rfl, -⟩ := hcond
      have hblocked := (isEntry_iff.mp hentry).2
      rw [isBlocked, show (c.state.info c.search).isData = true by simpa using hdata] at hblocked
      cases hblocked
    · rename_i hcond
      rw [if_neg hcond]
      exact hbytes i hdata
  · exact hbytes i

/-- **Every byte that ends up as data has been rejected.** -/
theorem outcome_rejected {setup : Setup}
    (hhints : ∀ i, setup.hintAt i = .unset ∨ setup.hintAt i = .code) (i : Nat) :
    Rejected setup i ((outcome setup ([] : List (Plugin ν σ))).attributes.info i) := by
  obtain ⟨n, c, hsteps, _, houtcome⟩ := outcome_consistent (ν := ν) (σ := σ) setup
  have hall := hsteps.preserves
    (P := fun c => Consistent setup c ∧ ∀ i, Rejected setup i (c.state.info i))
    (fun hc h => ⟨step_consistent hc.1 h, step_rejected hc.1 hc.2 h⟩)
    ⟨startConfig_consistent setup, fun i hdata => by
      rw [startConfig_info, Attribute.isData, info_prepare_open hhints i (Or.inl rfl)] at hdata
      cases hdata⟩
  rw [houtcome]
  have hsettled := info_settle c.state.attributes i
  exact (hall.2 i).congr (hsettled.has (by decide))
    (fun hv => (hsettled.has (by decide)).trans hv) (hsettled.has (by decide)) hsettled.status

/-- What does not fit inside something that fits reaches past its end. -/
theorem FitsAt.lt_of_not {setup : Setup} {o length i other : Nat} (h : FitsAt setup o length)
    (hlow : o ≤ i) (hnot : ¬ FitsAt setup i other) : o + length < i + other := by
  by_contra hle
  exact hnot ⟨by have := h.1; omega, fun j hj hj' => h.2 j (by omega) (by omega)⟩

/-! ### When a byte is rejected -/

/-- Data comes about when the byte is decoded. -/
theorem Consistent.decodes_of_data {setup : Setup} {c d : Config ν σ} {i : Nat}
    (hc : Consistent setup c) (h : step setup c = some d)
    (hbefore : ¬ (c.state.info i).isData = true) (hafter : (d.state.info i).isData = true) :
    c.Decodes i := by
  rcases step_cases h with ⟨offset, hcurrent, rfl⟩ | ⟨target, rest, _, _, rfl⟩
    | ⟨_, _, _, _, rfl⟩ | ⟨_, _, _, _, rfl⟩
  · have hvisits := hc.visits offset
    by_cases hi : i = offset
    · subst hi
      generalize visit setup i c.state = out at hvisits hafter
      cases hvisits with
      | skip _ => exact absurd hafter hbefore
      | halt _ hneed _ | reject _ hneed _ _ | execute _ hneed _ _ _ _ => exact ⟨hcurrent, hneed⟩
    · exact absurd ((hvisits.others hi).data hafter) hbefore
  · exact absurd hafter hbefore
  · refine absurd ?_ hbefore
    dsimp only at hafter
    rw [info_enter] at hafter
    split at hafter
    · simpa using hafter
    · exact hafter
  · exact absurd hafter hbefore

/-- **Data inside an instruction has been rejected after the instruction was last decoded**, as that
made code of all its bytes. -/
theorem Steps.rejects {setup : Setup} {n o i : Nat} {t : State ν σ}
    (h : Steps setup n (startConfig setup []) ⟨setup.image.size, none, t⟩) (hend : t.pending = [])
    (hstart : (t.info o).isInstructionStart = true) (hlow : o ≤ i)
    (hhigh : i < o + (t.info o).instructionLength) (hdata : (t.info i).isData = true) :
    ∃ m b d, Steps setup m (startConfig setup ([] : List (Plugin ν σ))) b ∧ Done setup o b
      ∧ b.Decodes i ∧ (b.state.info i).isData = false ∧ step setup b = some d
      ∧ (d.state.info i).isData = true := by
  obtain ⟨m, a, out, hbefore, hlast⟩ := h.last_execution hend hstart
  obtain ⟨k, hafter⟩ := hlast.rest
  have ha := hbefore.preserves step_consistent (startConfig_consistent setup)
  have hcode := (hlast.executes.code i ha.panel hlast.fits.1 hlow (hlast.length ▸ hhigh)).2
  obtain ⟨l, b, d, hsteps, hb, hturn, hd⟩ := hafter.exists_turn
    (P := fun c => (c.state.info i).isData = true)
    (by rw [(Bool.or_eq_false_iff.mp hcode).1]; decide) hdata
  have hreaches := hbefore.trans (.trans (.head hlast.step (.refl _)) hsteps)
  have hconsistent := hreaches.preserves step_consistent (startConfig_consistent setup)
  exact ⟨_, b, d, hreaches, hlast.done.steps hsteps, hconsistent.decodes_of_data hturn hb hd,
    by simpa using hb, hturn, hd⟩

/-! ### In the result -/

/-- **Data inside an instruction.**  Without plugins and with hints of code only, a data byte inside
an instruction is not its first one.  Control has come to it, and the instruction that was expected
there leaves the image or its region and reaches past the end of the one around it.  It was rejected
at a step after which the one around it was not decoded any more. -/
theorem analyze_rejected (setup : Setup)
    (hhints : ∀ i, setup.hintAt i = .unset ∨ setup.hintAt i = .code) (s : State ν σ)
    (h : analyze setup [] (Attributes.blank setup.image.size) = .ok s) (o i : Nat)
    (hstart : (s.attributes.info o).isInstructionStart = true) (hlow : o ≤ i)
    (hhigh : i < o + (s.attributes.info o).instructionLength)
    (hdata : (s.attributes.info i).isData = true) :
    o < i ∧ (s.attributes.info i).isVisited = true
      ∧ (s.attributes.info i).isInstructionStart = false
      ∧ ¬ FitsAt setup i ((setup.opcodeAt i).length (s.attributes.info i).status)
      ∧ o + (s.attributes.info o).instructionLength
        < i + (setup.opcodeAt i).length (s.attributes.info i).status
      ∧ ∃ n b d, Steps setup n (startConfig setup ([] : List (Plugin ν σ))) b ∧ Done setup o b
        ∧ b.Decodes i ∧ (b.state.info i).isData = false ∧ step setup b = some d
        ∧ (d.state.info i).isData = true := by
  obtain ⟨_, rfl⟩ := analyze_eq_ok.mp h
  obtain ⟨hvisited, hnot, hfits⟩ := outcome_rejected hhints i hdata
  have hlt : o < i := by
    rcases Nat.lt_or_eq_of_le hlow with hlt | rfl
    · exact hlt
    · rw [hstart] at hnot
      cases hnot
  obtain ⟨n, _, t, hsteps, hend, houtcome⟩ := outcome_reached setup ([] : List (Plugin ν σ))
  have hconsistent := hsteps.preserves step_consistent (startConfig_consistent setup)
  rw [houtcome] at hstart hhigh hdata hvisited hnot hfits ⊢
  have hsame := (info_settle t.attributes o).eq_of_start hstart
  refine ⟨hlt, hvisited, hnot, hfits, ?_, ?_⟩
  · rw [hsame] at hstart ⊢
    exact ((hconsistent.bytes o).fits hstart).lt_of_not hlow hfits
  · rw [hsame] at hstart hhigh
    exact hsteps.rejects hend hstart hlow hhigh
      (((info_settle t.attributes i).has (by decide)).symm.trans hdata)

/-- A jump into its own last byte.  That byte is the opcode of a branch, which leaves the image. -/
def jumpInside : Setup where
  image := #[0x4c, 0x02, 0x10]
  processor := ⟨.nmos6502, true, OpcodeTable.blank.overlay
    [Layer.op 0x4c .jmp .abs .branch .keep, Layer.branch 0x10 .bpl .negative false]⟩
  map := ⟨[⟨0, 3, 0x1000⟩], 3⟩
  parameters := .initial
  hints := #[.code, .unset, .unset]
  overrides := #[]
  entryStatus := .indeterminate

theorem jumpInside_hints (i : Nat) :
    jumpInside.hintAt i = .unset ∨ jumpInside.hintAt i = .code :=
  hintAt_open (by decide) i

theorem analyze_jumpInside :
    analyze jumpInside [] (Attributes.blank jumpInside.image.size)
      = .ok (outcome jumpInside ([] : List (Plugin Unit Unit))) :=
  analyze_eq_ok.mpr ⟨check_eq_ok.mpr (by decide), rfl⟩

theorem outcome_jumpInside :
    ((outcome jumpInside ([] : List (Plugin Unit Unit))).attributes.info 0).isInstructionStart
        = true
      ∧ ((outcome jumpInside ([] : List (Plugin Unit Unit))).attributes.info 0).instructionLength
        = 3
      ∧ ((outcome jumpInside ([] : List (Plugin Unit Unit))).attributes.info 2).isData = true := by
  decide +kernel

theorem analyze_rejected_jumpInside :
    ∃ s : State Unit Unit, (∀ i, jumpInside.hintAt i = .unset ∨ jumpInside.hintAt i = .code)
      ∧ analyze jumpInside [] (Attributes.blank jumpInside.image.size) = .ok s
      ∧ (s.attributes.info 0).isInstructionStart = true
      ∧ 2 < 0 + (s.attributes.info 0).instructionLength
      ∧ (s.attributes.info 2).isData = true
      ∧ (s.attributes.info 2).isVisited = true
      ∧ (s.attributes.info 2).isInstructionStart = false
      ∧ ¬ FitsAt jumpInside 2 ((jumpInside.opcodeAt 2).length (s.attributes.info 2).status)
      ∧ 0 + (s.attributes.info 0).instructionLength
        < 2 + (jumpInside.opcodeAt 2).length (s.attributes.info 2).status
      ∧ ∃ n b d, Steps jumpInside n (startConfig jumpInside ([] : List (Plugin Unit Unit))) b
        ∧ Done jumpInside 0 b ∧ b.Decodes 2 ∧ (b.state.info 2).isData = false
        ∧ step jumpInside b = some d ∧ (d.state.info 2).isData = true := by
  obtain ⟨hstart, hlength, hdata⟩ := outcome_jumpInside
  have hhigh : 2 < 0 + ((outcome jumpInside ([] : List (Plugin Unit Unit))).attributes.info
      0).instructionLength := by omega
  exact ⟨_, jumpInside_hints, analyze_jumpInside, hstart, hhigh, hdata,
    (analyze_rejected jumpInside jumpInside_hints _ analyze_jumpInside 0 2 hstart (Nat.zero_le 2)
      hhigh hdata).2⟩

/-- So an instruction may reach over data. -/
theorem jumpInside_reaches_data :
    ∃ (s : State Unit Unit) (o i : Nat),
      (∀ i, jumpInside.hintAt i = .unset ∨ jumpInside.hintAt i = .code)
        ∧ analyze jumpInside [] (Attributes.blank jumpInside.image.size) = .ok s
        ∧ (s.attributes.info o).isInstructionStart = true
        ∧ o ≤ i ∧ i < o + (s.attributes.info o).instructionLength
        ∧ (s.attributes.info i).isData = true := by
  obtain ⟨hstart, hlength, hdata⟩ := outcome_jumpInside
  exact ⟨_, 0, 2, jumpInside_hints, analyze_jumpInside, hstart, Nat.zero_le 2, by omega, hdata⟩

end Disasm65.Flow
