/-
Nothing stands in the way of a first visit.

Control is led to a byte by a branch, from the instruction before or by a hint, and each looks first
whether the byte is data (`visit_leadsOn`).  Between that look and the visit no byte becomes data
without being visited, as long as there are no plugins; so a byte that is in line for its first
visit is open (`step_open`), and the first visit decodes it.
-/
import Mathlib
import Disasm65.Proofs.Flow.Consistency

namespace Disasm65.Flow

open StatusFlags

variable {ν σ : Type}

/-- Skipping inline data ends at a byte that is none, unless it ends for want of bytes. -/
theorem isInlineData_skipInline (attributes : Attributes) :
    ∀ count offset : Nat, skipInline attributes count offset < offset + count →
      (attributes.info (skipInline attributes count offset)).isInlineData = false := by
  intro count
  induction count with
  | zero => exact fun offset h => absurd h (Nat.lt_irrefl _)
  | succ count ih =>
      intro offset h
      unfold skipInline at h ⊢
      split at h
      · rename_i hinline
        rw [if_pos hinline]
        exact ih (offset + 1) (by omega)
      · rename_i hinline
        rw [if_neg hinline]
        simpa using hinline

section Opening

variable (setup : Setup) (offset : Nat) (s : State ν σ)

/-- Control goes on at an open byte. -/
theorem CanGoOn.unblocked {length : Nat} (h : CanGoOn setup offset length s) :
    isBlocked (s.info (onward setup offset length s)) = false := by
  refine Bool.or_eq_false_iff.mpr ⟨h.2.1, isInlineData_skipInline _ _ _ ?_⟩
  have hlow := le_skipInline s.attributes (setup.image.size - (offset + length)) (offset + length)
  have hhigh := h.1
  unfold onward at hhigh
  omega

theorem leave_unblocked {op : Opcode} {length : Nat} {first : Bool} {status next : StatusFlags}
    {n : Nat} (h : (leave setup offset op length first status next s).2 = some n) :
    isBlocked ((leave setup offset op length first status next s).1.info n) = false := by
  rcases leave_cases setup offset op length first status next s with hl | ⟨_, hl⟩ | hl <;>
    rw [hl] at h ⊢
  · cases h
  · cases h
  · obtain ⟨hgo, rfl⟩ := fallThrough_next setup offset length next _ h
    have hdevelops : Develops setup False _ _ := fallThrough_develops setup offset length next
      (bothAsked setup offset op first status s).2
    exact (hdevelops.bytes _).unblocked id hgo.unblocked

/-- Control and the list are led to open bytes only, or back to the byte itself. -/
structure LeadsOn (offset : Nat) (s : State ν σ) (out : State ν σ × Option Nat) : Prop where
  pending : out.1.pending = s.pending
    ∨ ∃ t, out.1.pending = t :: s.pending ∧ (t ≠ offset → isBlocked (out.1.info t) = false)
  next : ∀ n, out.2 = some n → isBlocked (out.1.info n) = false

theorem LeadsOn.stop {offset : Nat} {s t : State ν σ} (h : t.pending = s.pending) :
    LeadsOn offset s (t, none) :=
  ⟨Or.inl h, fun n hn => by cases hn⟩

theorem executedAt_leadsOn (hpanel : s.panel = []) :
    LeadsOn offset s (executedAt setup offset s) := by
  refine ⟨?_, fun n hn => leave_unblocked setup offset _ hn⟩
  have hleave : (executedAt setup offset s).1.pending = (beforeLeave setup offset s).pending :=
    leave_pending setup offset _ _ _ _ _ _
  have hdecoded : (decodedAt setup offset s).pending = s.pending := decoded_pending
  rw [hleave]
  rcases branched_cases setup (setup.opcodeAt offset) (s.info offset).status
    (branchTarget? (setup.opcodeAt offset) (decodedByte setup offset (s.info offset)))
    (afterVisit setup offset s).taken (decodedAt setup offset s) with hb | ⟨t, _, hb⟩
  · exact Or.inl ((congrArg State.pending hb).trans hdecoded)
  · rcases followBranch_pending setup t (afterVisit setup offset s).taken
      (decodedAt setup offset s) with hp | ⟨hopen, hp⟩
    · exact Or.inl ((congrArg State.pending hb).trans (hp.trans hdecoded))
    · refine Or.inr ⟨t, (congrArg State.pending hb).trans (hp.trans (congrArg _ hdecoded)),
        fun hto => ?_⟩
      have hbranched : Evolves setup False t _ ((beforeLeave setup offset s).info t) :=
        (branched_develops setup _ _ _ _ _).bytes t
      exact (executedAt_leaves setup (fun hne => hne hpanel) hto).unblocked id
        (hbranched.unblocked id hopen)

theorem visit_leadsOn (hpanel : s.panel = []) (hsize : s.attributes.size = setup.image.size) :
    LeadsOn offset s (visit setup offset s) := by
  rw [visit_eq_executedAt hsize]
  dsimp only
  split
  · exact .stop rfl
  split
  · exact .stop rfl
  split
  · exact .stop rfl
  split
  · exact .stop rfl
  · exact executedAt_leadsOn setup offset s hpanel

end Opening

/-- A byte that is in line for its first visit is open. -/
def Config.Open (setup : Setup) (c : Config ν σ) : Prop :=
  ∀ i, c.Awaits i → i < setup.image.size → (c.state.info i).isVisited = false →
    isBlocked (c.state.info i) = false

theorem step_open {setup : Setup} {c d : Config ν σ} (hc : Consistent setup c)
    (hopen : c.Open setup) (h : step setup c = some d) : d.Open setup := by
  rcases step_cases h with ⟨offset, hcurrent, rfl⟩ | ⟨target, rest, hcurrent, hp, rfl⟩
    | ⟨hcurrent, hp, hsearch, hentry, rfl⟩ | ⟨hcurrent, hp, _, _, rfl⟩
  · intro i hi hlt hv
    have hvisits := hc.visits offset
    have hleads := visit_leadsOn setup offset c.state hc.panel hc.placed.size
    have hio : i ≠ offset := by
      rintro rfl
      rw [hvisits.visited hc.placed.size hlt] at hv
      cases hv
    have hstays : i ∈ c.state.pending → isBlocked ((visit setup offset c.state).1.info i) = false :=
      fun hlisted => (hvisits.others hio).unblocked id
        (hopen i (Or.inl hlisted) hlt ((hvisits.others hio).visited.symm.trans hv))
    rcases hi with hi | hi
    · rcases hleads.pending with hsame | ⟨t, hmore, ht⟩
      · exact hstays (hsame ▸ hi)
      · dsimp only at hi
        rw [hmore] at hi
        rcases List.mem_cons.mp hi with rfl | hi
        · exact ht hio
        · exact hstays hi
    · exact hleads.next i hi
  · exact fun i hi => hopen i ((Config.awaits_pop hcurrent hp i).mp hi)
  · intro i hi hlt hv
    have hi' : c.search = i := by
      rcases hi with hi | hi
      · dsimp only [enter, State.update] at hi
        rw [hp] at hi
        cases hi
      · exact Option.some.inj hi
    subst hi'
    dsimp only
    rw [info_enter, if_pos ⟨rfl, by rw [hc.placed.size]; exact hlt⟩]
    simpa [isBlocked] using (isEntry_iff.mp hentry).2
  · exact fun i hi => absurd hi (Config.not_awaits (c := ⟨c.search + 1, none, c.state⟩) rfl hp i)

end Disasm65.Flow
