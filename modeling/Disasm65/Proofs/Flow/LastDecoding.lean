/-
The last time that an instruction is decoded.

A run that comes to an end decodes a byte for a last time, if it ever does.  From then on the byte
only evolves (`Done.evolves`).  So where an instruction is found in the end, that decoding executed
it, and left it with the length and the status that it has (`LastExecution`).
-/
import Mathlib
import Disasm65.Proofs.Flow.Consistency

namespace Disasm65.Flow

variable {ν σ : Type}

/-- The next step visits the byte at `o`, and does not pass it over. -/
def Config.Decodes (c : Config ν σ) (o : Nat) : Prop :=
  c.current = some o ∧ ((c.state.info o).isVisited = false ∨ (c.state.info o).isChanged = true)

/-- No step from here on decodes the byte at `o`. -/
def Done (setup : Setup) (o : Nat) (c : Config ν σ) : Prop :=
  ∀ n d, Steps setup n c d → ¬ d.Decodes o

section Last

variable {setup : Setup} {o : Nat} {c d : Config ν σ}

theorem Done.not_decodes (h : Done setup o c) : ¬ c.Decodes o := h 0 c (.refl c)

theorem Done.steps {n : Nat} (h : Done setup o c) (hsteps : Steps setup n c d) : Done setup o d :=
  fun m e hrest => h (n + m) e (hsteps.trans hrest)

theorem done_of_step (hc : ¬ c.Decodes o) (hstep : step setup c = some d) (hd : Done setup o d) :
    Done setup o c := by
  intro n e hsteps
  cases hsteps with
  | refl _ => exact hc
  | head h rest =>
      rw [hstep, Option.some.injEq] at h
      subst h
      exact hd _ _ rest

/-- In a run that comes to an end a byte is never decoded, or there is a last time. -/
theorem Steps.done_or_last {n : Nat} {e : Config ν σ} (h : Steps setup n c e)
    (hend : step setup e = none) (he : ¬ e.Decodes o) :
    Done setup o c ∨ ∃ m k b d, Steps setup m c b ∧ b.Decodes o ∧ step setup b = some d
      ∧ Done setup o d ∧ Steps setup k d e := by
  induction h with
  | refl c =>
      refine Or.inl fun n d hsteps => ?_
      cases hsteps with
      | refl _ => exact he
      | head hstep _ => rw [hend] at hstep; cases hstep
  | @head n c d e hstep hrest ih =>
      rcases ih hend he with hdone | ⟨m, k, b, d', hsteps, hb, hstep', hdone, hlast⟩
      · by_cases hc : c.Decodes o
        · exact Or.inr ⟨0, n, c, d, .refl c, hc, hstep, hdone, hrest⟩
        · exact Or.inl (done_of_step hc hstep hdone)
      · exact Or.inr ⟨m + 1, k, b, d', .head hstep hsteps, hb, hstep', hdone, hlast⟩

/-- From one decoding to the next a byte only evolves. -/
theorem Done.step_evolves (hdone : Done setup o c) (hc : Consistent setup c)
    (h : Flow.step setup c = some d) :
    Evolves setup False o (c.state.info o) (d.state.info o) := by
  have hd := (hdone.steps (.head h (.refl d))).not_decodes
  rcases step_cases h with ⟨offset, hcurrent, rfl⟩ | ⟨target, rest, _, _, rfl⟩
    | ⟨_, _, _, hentry, rfl⟩ | ⟨_, _, _, _, rfl⟩
  · have hvisits := hc.visits offset
    by_cases ho : o = offset
    · -- the byte is passed over
      subst ho
      have hpassed := hdone.not_decodes
      generalize visit setup o c.state = out at hvisits ⊢
      cases hvisits with
      | skip _ => exact .refl
      | halt _ hneed _ | reject _ hneed _ _ | execute _ hneed _ _ _ _ =>
          exact absurd ⟨hcurrent, hneed⟩ hpassed
    · exact hvisits.others ho
  · exact .refl
  · dsimp only
    rw [info_enter]
    split
    · -- a byte at which control enters is decoded right after
      rename_i hcond
      obtain ⟨rfl, -⟩ := hcond
      refine absurd ⟨rfl, Or.inl ?_⟩ hd
      dsimp only
      rw [info_enter]
      have hfresh := (isEntry_iff.mp hentry).1.2
      split
      · simpa using hfresh
      · exact hfresh
    · exact .refl
  · exact .refl

theorem Done.evolves {n : Nat} (h : Steps setup n c d) (hdone : Done setup o c)
    (hc : Consistent setup c) : Evolves setup False o (c.state.info o) (d.state.info o) := by
  induction h with
  | refl c => exact .refl
  | head hstep _ ih =>
      exact (hdone.step_evolves hc hstep).trans
        (ih (hdone.steps (.head hstep (.refl _))) (step_consistent hc hstep))

end Last

/-- Every instruction has been decoded, and there was a last time. -/
theorem Steps.last_decoding {setup : Setup} {o n : Nat} {t : State ν σ}
    (h : Steps setup n (startConfig setup []) ⟨setup.image.size, none, t⟩) (hend : t.pending = [])
    (hstart : (t.info o).isInstructionStart = true) :
    ∃ m k b d, Steps setup m (startConfig setup []) b ∧ b.Decodes o ∧ step setup b = some d
      ∧ Done setup o d ∧ Steps setup k d ⟨setup.image.size, none, t⟩ := by
  rcases h.done_or_last (o := o) (step_eq_none hend) (fun hd => by cases hd.1) with hdone | hlast
  · -- before the first step nothing has been decoded
    have hsame := (hdone.evolves h (startConfig_consistent setup)).own
      (m := .instructionStart) rfl
    rw [startConfig_info, info_prepare_has o (by decide)] at hsame
    exact absurd (hstart.symm.trans hsame) (by decide)
  · exact hlast

/-! ### What it leaves -/

section Decoding

variable {setup : Setup} {o : Nat} {b d : Config ν σ}

/-- A decoding that leaves an instruction was an execution. -/
theorem Consistent.executes (hb : Consistent setup b) (hdecodes : b.Decodes o)
    (hin : o < setup.image.size) (h : step setup b = some d)
    (hstart : (d.state.info o).isInstructionStart = true) :
    ∃ out, Executes setup False o b.state out ∧ d = ⟨b.search, out.2, out.1⟩
      ∧ FitsAt setup o ((setup.opcodeAt o).length (b.state.info o).status) := by
  obtain ⟨hcurrent, hneed⟩ := hdecodes
  have hlt : o < b.state.attributes.size := by rw [hb.placed.size]; exact hin
  have hvisits := hb.visits o
  have hd : d = ⟨b.search, (visit setup o b.state).2, (visit setup o b.state).1⟩ := by
    unfold step at h
    rw [hcurrent] at h
    exact (Option.some.inj h).symm
  rw [hd] at hstart ⊢
  generalize visit setup o b.state = out at hvisits hstart ⊢
  cases hvisits with
  | skip hskip =>
      rcases hskip with hout | ⟨hv, hc⟩
      · omega
      · rcases hneed with hn | hn
        · rw [hv] at hn; cases hn
        · rw [hc] at hn; cases hn
  | halt _ _ hstop =>
      dsimp only at hstart
      rw [State.info_update_self hlt] at hstart
      have hnot := (hb.bytes o).not_start hstop
      simp_all [visitByte]
  | reject _ _ _ _ =>
      dsimp only at hstart
      rw [State.info_update_self (by rw [State.size_update]; exact hlt),
        State.info_update_self hlt] at hstart
      simp [rejectByte] at hstart
  | execute _ _ _ hstays _ hexec =>
      exact ⟨out, hexec, rfl, (hb.placed.staysInRegion_iff _ _).mp hstays⟩

end Decoding

/-- The step from `b` executes the instruction at `o` and leads to `out`, and no step from there to
`e` or after it decodes that byte. -/
structure LastExecution (setup : Setup) (o : Nat) (b : Config ν σ) (out : State ν σ × Option Nat)
    (e : Config ν σ) : Prop where
  decodes : b.Decodes o
  step : step setup b = some ⟨b.search, out.2, out.1⟩
  executes : Executes setup False o b.state out
  fits : FitsAt setup o ((setup.opcodeAt o).length (b.state.info o).status)
  done : Done setup o ⟨b.search, out.2, out.1⟩
  rest : ∃ k, Steps setup k ⟨b.search, out.2, out.1⟩ e
  evolves : Evolves setup False o (out.1.info o) (e.state.info o)

namespace LastExecution

variable {setup : Setup} {o : Nat} {b e : Config ν σ} {out : State ν σ × Option Nat}

theorem length (h : LastExecution setup o b out e) :
    (e.state.info o).instructionLength = (setup.opcodeAt o).length (b.state.info o).status := by
  obtain ⟨_, _, hfinish⟩ := h.executes.own
  calc (e.state.info o).instructionLength
      = (out.1.info o).instructionLength := h.evolves.sameDecoding.length
    _ = _ := hfinish.sameDecoding.length
    _ = _ := by simp [decodedByte]

theorem status (h : LastExecution setup o b out e) (hquiet : (e.state.info o).isChanged = false) :
    (b.state.info o).status = (e.state.info o).status := by
  obtain ⟨_, _, hfinish⟩ := h.executes.own
  have hvisited : (out.1.info o).isVisited = true :=
    (hfinish.own rfl (by decide) (by decide)).trans (by simp [decodedByte_has])
  have hunchanged : (out.1.info o).isChanged = false := by
    by_contra hc
    rw [h.evolves.changed (by simpa using hc)] at hquiet
    cases hquiet
  rw [h.evolves.noticed hvisited hquiet, hfinish.noticed (by simp [decodedByte_has]) hunchanged,
    decodedByte_status]

end LastExecution

/-- **Every instruction has been executed for a last time.** -/
theorem Steps.last_execution {setup : Setup} {o n : Nat} {t : State ν σ}
    (h : Steps setup n (startConfig setup []) ⟨setup.image.size, none, t⟩) (hend : t.pending = [])
    (hstart : (t.info o).isInstructionStart = true) :
    ∃ m b out, Steps setup m (startConfig setup []) b
      ∧ LastExecution setup o b out ⟨setup.image.size, none, t⟩ := by
  have hstarts := startConfig_consistent (ν := ν) (σ := σ) setup
  have hin : o < setup.image.size :=
    (h.preserves step_consistent hstarts).placed.size ▸ Attributes.lt_size_of_has hstart
  obtain ⟨m, k, b, d, hbefore, hdecodes, hstep, hdone, hafter⟩ := h.last_decoding hend hstart
  have hb := hbefore.preserves step_consistent hstarts
  have hevolves := hdone.evolves hafter (step_consistent hb hstep)
  obtain ⟨out, hexec, rfl, hfits⟩ :=
    hb.executes hdecodes hin hstep ((hevolves.own rfl).symm.trans hstart)
  exact ⟨m, b, out, hbefore, hdecodes, hstep, hexec, hfits, hdone, ⟨k, hafter⟩, hevolves⟩

end Disasm65.Flow
