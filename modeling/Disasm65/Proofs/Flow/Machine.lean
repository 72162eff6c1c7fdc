/-
The analysis, one step at a time.

Three loops are nested in the analysis: the search for the next entry point, the list of branch
targets, and the walk from instruction to instruction.  `step` takes one step of whichever is
under way, without any fuel; `Steps` counts them.  What every step keeps holds at the end of the
analysis, so an invariant is proved for a visit, for taking a target off the list and for entering
at an entry point (`Steps.preserves`).

The first such invariant is that the status of a byte obeys the override there, from the moment
that control comes to the byte (`Obeying`).
-/
import Mathlib
import Disasm65.Flow.Analysis
import Disasm65.Proofs.Flow.Visit

namespace Disasm65.Flow

open StatusFlags

variable {ν σ : Type}

/-- Where the analysis stands. -/
structure Config (ν σ : Type) where
  /-- the bytes below have had their turn as entry points -/
  search : Nat
  /-- the offset to be visited next, while control is being followed -/
  current : Option Nat
  state : State ν σ

/-- One step of the analysis; `none` when it is finished. -/
def step (setup : Setup) (c : Config ν σ) : Option (Config ν σ) :=
  match c.current with
  | some offset =>
    some ⟨c.search, (visit setup offset c.state).2, (visit setup offset c.state).1⟩
  | none =>
    match c.state.pending with
    | target :: rest => some ⟨c.search, some target, { c.state with pending := rest }⟩
    | [] =>
      if c.search < setup.image.size then
        if isEntry setup c.state c.search then
          some ⟨c.search + 1, some c.search, enter setup c.search c.state⟩
        else some ⟨c.search + 1, none, c.state⟩
      else none

/-- `n` steps lead from one configuration to another. -/
inductive Steps (setup : Setup) : Nat → Config ν σ → Config ν σ → Prop where
  | refl (c : Config ν σ) : Steps setup 0 c c
  | head {n : Nat} {c d e : Config ν σ} (h : step setup c = some d) (rest : Steps setup n d e) :
      Steps setup (n + 1) c e

namespace Steps

variable {setup : Setup} {m n : Nat} {c d e : Config ν σ}

theorem trans (hcd : Steps setup m c d) (hde : Steps setup n d e) : Steps setup (m + n) c e := by
  induction hcd with
  | refl c => rwa [Nat.zero_add]
  | head h _ ih =>
      rw [Nat.add_right_comm]
      exact .head h (ih hde)

/-- What every step keeps, any number of steps keeps. -/
theorem preserves {P : Config ν σ → Prop} (hstep : ∀ {c d}, P c → step setup c = some d → P d)
    (h : Steps setup n c d) (hc : P c) : P d := by
  induction h with
  | refl c => exact hc
  | head h _ ih => exact ih (hstep hc h)

/-- What does not hold at first and holds in the end comes about in one of the steps. -/
theorem exists_turn {P : Config ν σ → Prop} (h : Steps setup n c d) (hc : ¬ P c) (hd : P d) :
    ∃ m a b, Steps setup m c a ∧ ¬ P a ∧ step setup a = some b ∧ P b := by
  induction h with
  | refl c => exact absurd hd hc
  | @head n c e d hstep _ ih =>
      by_cases he : P e
      · exact ⟨0, c, e, .refl c, hc, hstep, he⟩
      · obtain ⟨m, a, b, hsteps, ha, hturn, hb⟩ := ih he hd
        exact ⟨m + 1, a, b, .head hstep hsteps, ha, hturn, hb⟩

end Steps

/-- The cases of a step. -/
theorem step_cases {setup : Setup} {c d : Config ν σ} (h : step setup c = some d) :
    (∃ offset, c.current = some offset
        ∧ d = ⟨c.search, (visit setup offset c.state).2, (visit setup offset c.state).1⟩)
      ∨ (∃ target rest, c.current = none ∧ c.state.pending = target :: rest
          ∧ d = ⟨c.search, some target, { c.state with pending := rest }⟩)
      ∨ (c.current = none ∧ c.state.pending = [] ∧ c.search < setup.image.size
          ∧ isEntry setup c.state c.search = true
          ∧ d = ⟨c.search + 1, some c.search, enter setup c.search c.state⟩)
      ∨ (c.current = none ∧ c.state.pending = [] ∧ c.search < setup.image.size
          ∧ isEntry setup c.state c.search = false ∧ d = ⟨c.search + 1, none, c.state⟩) := by
  unfold step at h
  split at h
  · rename_i offset hc
    cases h
    exact Or.inl ⟨offset, hc, rfl⟩
  · rename_i hc
    split at h
    · rename_i target rest hp
      cases h
      exact Or.inr (Or.inl ⟨target, rest, hc, hp, rfl⟩)
    · rename_i hp
      split at h
      · rename_i hsearch
        split at h
        · rename_i hentry
          cases h
          exact Or.inr (Or.inr (Or.inl ⟨hc, hp, hsearch, hentry, rfl⟩))
        · rename_i hentry
          cases h
          exact Or.inr (Or.inr (Or.inr ⟨hc, hp, hsearch, by simpa using hentry, rfl⟩))
      · cases h

/-- When nothing is in line and every byte has had its turn, there is no further step. -/
theorem step_eq_none {setup : Setup} {s : State ν σ} (h : s.pending = []) :
    step setup ⟨setup.image.size, none, s⟩ = none := by
  simp [step, h]

theorem isEntry_iff {setup : Setup} {s : State ν σ} {i : Nat} :
    isEntry setup s i = true
      ↔ ((setup.hintAt i = .code ∧ (s.info i).isHinted = true) ∧ (s.info i).isVisited = false)
        ∧ isBlocked (s.info i) = false := by
  unfold isEntry
  simp

/-! ### Every status obeys its override -/

/-- The byte is in line for a visit. -/
def Config.Awaits (c : Config ν σ) (i : Nat) : Prop :=
  i ∈ c.state.pending ∨ c.current = some i

theorem Config.not_awaits {c : Config ν σ} (hcurrent : c.current = none)
    (hp : c.state.pending = []) (i : Nat) : ¬ c.Awaits i := by
  intro h
  rcases h with h | h
  · rw [hp] at h
    cases h
  · rw [hcurrent] at h
    cases h

/-- Taking a target off the list changes nothing about who is in line. -/
theorem Config.awaits_pop {c : Config ν σ} {target : Nat} {rest : List Nat}
    (hcurrent : c.current = none) (hp : c.state.pending = target :: rest) (i : Nat) :
    Config.Awaits ⟨c.search, some target, { c.state with pending := rest }⟩ i ↔ c.Awaits i := by
  unfold Config.Awaits
  rw [hp, hcurrent, List.mem_cons]
  constructor
  · intro h
    rcases h with hrest | htarget
    · exact Or.inl (Or.inr hrest)
    · exact Or.inl (Or.inl (Option.some.inj htarget).symm)
  · intro h
    rcases h with (rfl | hrest) | hnone
    · exact Or.inr rfl
    · exact Or.inl hrest
    · cases hnone

/-- The status of a byte that has been visited, or is in line for a visit, obeys the override. -/
structure Obeying (setup : Setup) (c : Config ν σ) : Prop where
  size : c.state.attributes.size = setup.image.size
  visited : ∀ i, (c.state.info i).isVisited = true →
    Obeys (c.state.info i).status (setup.overrideAt i)
  awaited : ∀ i, c.Awaits i → i < setup.image.size →
    Obeys (c.state.info i).status (setup.overrideAt i)

theorem info_enter (setup : Setup) (offset : Nat) (s : State ν σ) (i : Nat) :
    (enter setup offset s).info i
      = if offset = i ∧ i < s.attributes.size then
          { (s.info i).mark .entryPoint with
            status := setup.entryStatus.apply (setup.overrideAt i) }
        else s.info i := by
  unfold enter
  rw [State.info, State.update, Attributes.info_update]
  split
  · rename_i h
    rw [h.1]
    rfl
  · rfl

theorem Visits.obeying {setup : Setup} {offset : Nat} {c d : Config ν σ}
    {out : State ν σ × Option Nat} (h : Visits setup True offset c.state out)
    (hc : Obeying setup c) (hcurrent : c.current = some offset) (hd : d.state = out.1)
    (hnext : d.current = out.2) : Obeying setup d := by
  refine ⟨?_, fun i hi => ?_, fun i hi hlt => ?_⟩
  · rw [hd, h.size]
    exact hc.size
  · rw [hd] at hi ⊢
    by_cases hio : i = offset
    · subst hio
      by_cases hlt : i < setup.image.size
      · exact h.obeys (hc.awaited i (Or.inr hcurrent) hlt)
      · have hblank : out.1.info i = .blank :=
          Attributes.info_of_size_le (by rw [h.size, hc.size]; omega)
        rw [hblank] at hi
        exact absurd hi (by decide)
    · exact h.obeys (hc.visited i ((h.others hio).visited.symm.trans hi))
  · rw [hd]
    rcases hi with hi | hi
    · rw [hd] at hi
      rcases h.pending with hp | ⟨t, hp, ht⟩ <;> rw [hp] at hi
      · exact h.obeys (hc.awaited i (Or.inl hi) hlt)
      · rcases List.mem_cons.mp hi with rfl | hi
        · exact ht (by rw [hc.size]; exact hlt)
        · exact h.obeys (hc.awaited i (Or.inl hi) hlt)
    · exact (h.next (hnext.symm.trans hi)).2

theorem step_obeying {setup : Setup} {c d : Config ν σ} (hc : Obeying setup c)
    (h : step setup c = some d) : Obeying setup d := by
  rcases step_cases h with ⟨offset, hcurrent, rfl⟩ | ⟨target, rest, hcurrent, hp, rfl⟩
    | ⟨hcurrent, hp, hsearch, hentry, rfl⟩ | ⟨hcurrent, hp, _, _, rfl⟩
  · exact (visit_visits (fun _ => trivial) hc.size).obeying hc hcurrent rfl rfl
  · exact ⟨hc.size, hc.visited,
      fun i hi hlt => hc.awaited i ((Config.awaits_pop hcurrent hp i).mp hi) hlt⟩
  · have hinfo := info_enter setup c.search c.state
    refine ⟨?_, fun i hi => ?_, fun i hi hlt => ?_⟩
    · exact State.size_update.trans hc.size
    · dsimp only at hi ⊢
      rw [hinfo] at hi ⊢
      split at hi
      · rename_i hcond
        rw [if_pos hcond]
        exact obeys_apply _ _
      · rename_i hcond
        rw [if_neg hcond]
        exact hc.visited i hi
    · rcases hi with hi | hi
      · dsimp only [enter, State.update] at hi
        rw [hp] at hi
        cases hi
      · cases hi
        dsimp only
        rw [hinfo, if_pos ⟨rfl, by rw [hc.size]; exact hlt⟩]
        exact obeys_apply _ _
  · refine ⟨hc.size, hc.visited, fun i hi hlt => hc.awaited i ?_ hlt⟩
    rcases hi with hi | hi
    · exact Or.inl hi
    · cases hi

end Disasm65.Flow
