/-
What a visit does.

A visit of an offset does nothing, or marks the byte as visited and stops there, or executes the
instruction (`Visits`).  To every other byte it does only what `Evolves` lists (`Visits.others`).
The analysis is never opened again after this file, but for checking its bounds.
-/
import Mathlib
import Disasm65.Proofs.Flow.Execute

namespace Disasm65.Flow

open StatusFlags

variable {ν σ : Type} {plugins : Prop}

/-- How a visit of the byte at `offset` can end. -/
inductive Visits (setup : Setup) (plugins : Prop) (offset : Nat) (s : State ν σ) :
    State ν σ × Option Nat → Prop where
  /-- the offset is outside the image, or its byte has been visited and has not changed -/
  | skip (h : setup.image.size ≤ offset
      ∨ (s.info offset).isVisited = true ∧ (s.info offset).isChanged = false) :
      Visits setup plugins offset s (s, none)
  /-- the byte is data, or no opcode -/
  | halt (hin : offset < setup.image.size)
      (hneed : (s.info offset).isVisited = false ∨ (s.info offset).isChanged = true)
      (h : isBlocked (s.info offset) = true ∨ (setup.opcodeAt offset).isValid = false) :
      Visits setup plugins offset s (s.update offset visitByte, none)
  /-- the instruction leaves the image or its region -/
  | reject (hin : offset < setup.image.size)
      (hneed : (s.info offset).isVisited = false ∨ (s.info offset).isChanged = true)
      (hblocked : isBlocked (s.info offset) = false)
      (h : staysInRegion setup s.attributes offset
        ((setup.opcodeAt offset).length (s.info offset).status) = false) :
      Visits setup plugins offset s
        ((s.update offset visitByte).update offset rejectByte, none)
  | execute {out : State ν σ × Option Nat} (hin : offset < setup.image.size)
      (hneed : (s.info offset).isVisited = false ∨ (s.info offset).isChanged = true)
      (hblocked : isBlocked (s.info offset) = false)
      (hstays : staysInRegion setup s.attributes offset
        ((setup.opcodeAt offset).length (s.info offset).status) = true)
      (hvalid : (setup.opcodeAt offset).isValid = true)
      (h : Executes setup plugins offset s out) : Visits setup plugins offset s out

/-- Whether an instruction stays in its region depends on the marks of region starts only. -/
theorem staysInRegion_congr {setup : Setup} {attributes attributes' : Attributes}
    (h : ∀ i, (attributes'.info i).isRegionStart = (attributes.info i).isRegionStart)
    (offset length : Nat) :
    staysInRegion setup attributes' offset length
      = staysInRegion setup attributes offset length := by
  unfold staysInRegion
  simp only [h]

theorem visit_eq (setup : Setup) (offset : Nat) (s : State ν σ) :
    visit setup offset s
      = (let before := s.info offset
         let op := setup.opcodeAt offset
         let length := op.length before.status
         let visited := s.update offset visitByte
         if setup.image.size ≤ offset || (before.isVisited && !before.isChanged) then (s, none)
         else if isBlocked before then (visited, none)
         else if !staysInRegion setup visited.attributes offset length then
           (visited.update offset rejectByte, none)
         else if !op.isValid then (visited, none)
         else execute setup offset op length (!before.isVisited) before.status visited) :=
  rfl

theorem staysInRegion_visited (setup : Setup) (offset : Nat) (s : State ν σ) (length : Nat) :
    staysInRegion setup (s.update offset visitByte).attributes offset length
      = staysInRegion setup s.attributes offset length := by
  refine staysInRegion_congr (fun i => ?_) offset length
  rw [State.update, Attributes.info_update]
  split
  · simp [visitByte]
  · rfl

theorem visit_eq_executedAt {setup : Setup} {offset : Nat} {s : State ν σ}
    (hsize : s.attributes.size = setup.image.size) :
    visit setup offset s
      = (let before := s.info offset
         let op := setup.opcodeAt offset
         let visited := s.update offset visitByte
         if setup.image.size ≤ offset || (before.isVisited && !before.isChanged) then (s, none)
         else if isBlocked before then (visited, none)
         else if !staysInRegion setup s.attributes offset (op.length before.status) then
           (visited.update offset rejectByte, none)
         else if !op.isValid then (visited, none)
         else executedAt setup offset s) := by
  rw [visit_eq]
  dsimp only
  rw [staysInRegion_visited]
  by_cases hin : offset < setup.image.size
  · rw [execute_eq_executedAt setup (by rw [hsize]; exact hin)]
  · rw [decide_eq_true (Nat.le_of_not_lt hin), Bool.true_or, if_pos rfl, if_pos rfl]

/-- **What a visit does.** -/
theorem visit_visits {setup : Setup} {offset : Nat} {s : State ν σ} (hp : s.panel ≠ [] → plugins)
    (hsize : s.attributes.size = setup.image.size) :
    Visits setup plugins offset s (visit setup offset s) := by
  rw [visit_eq_executedAt hsize]
  dsimp only
  split
  · rename_i h
    refine .skip ?_
    simpa using h
  · rename_i h
    obtain ⟨hin, hneed⟩ : offset < setup.image.size
        ∧ ((s.info offset).isVisited = false ∨ (s.info offset).isChanged = true) := by
      simp only [Bool.or_eq_true, decide_eq_true_eq, Bool.and_eq_true, not_or, not_le] at h
      refine ⟨h.1, ?_⟩
      by_cases hv : (s.info offset).isVisited = true
      · right
        by_contra hc
        exact h.2 ⟨hv, by simpa using hc⟩
      · left
        simpa using hv
    split
    · rename_i hblocked
      exact .halt hin hneed (Or.inl hblocked)
    · rename_i hblocked
      rw [Bool.not_eq_true] at hblocked
      split
      · rename_i hleaves
        exact .reject hin hneed hblocked (by simpa using hleaves)
      · rename_i hinside
        split
        · rename_i hinvalid
          exact .halt hin hneed (Or.inr (by simpa using hinvalid))
        · rename_i hvalid
          exact .execute hin hneed hblocked (by simpa using hinside) (by simpa using hvalid)
            (execute_executes setup hp hsize hin)

/-- What a visit of the byte at `offset` can make of the byte itself. -/
inductive Becomes (setup : Setup) (plugins : Prop) (offset : Nat) (s : State ν σ) :
    Attribute → Prop where
  | kept (h : setup.image.size ≤ offset
      ∨ (s.info offset).isVisited = true ∧ (s.info offset).isChanged = false) :
      Becomes setup plugins offset s (s.info offset)
  | halted (hin : offset < setup.image.size)
      (h : isBlocked (s.info offset) = true ∨ (setup.opcodeAt offset).isValid = false) :
      Becomes setup plugins offset s (visitByte (s.info offset))
  | rejected (hin : offset < setup.image.size)
      (h : staysInRegion setup s.attributes offset
        ((setup.opcodeAt offset).length (s.info offset).status) = false) :
      Becomes setup plugins offset s (rejectByte (visitByte (s.info offset)))
  /-- the byte is decoded and left; `stops` says that the next instruction does not follow -/
  | executed {b : Attribute} {stops : Bool} (hin : offset < setup.image.size)
      (hstays : staysInRegion setup s.attributes offset
        ((setup.opcodeAt offset).length (s.info offset).status) = true)
      (hvalid : (setup.opcodeAt offset).isValid = true)
      (hstops : s.panel = [] → stops = !continues (setup.opcodeAt offset) (s.info offset).status)
      (h : Finishes setup plugins offset stops (decodedByte setup offset (s.info offset)) b) :
      Becomes setup plugins offset s b

namespace Visits

variable {setup : Setup} {offset : Nat} {s : State ν σ} {out : State ν σ × Option Nat}

theorem size (h : Visits setup plugins offset s out) :
    out.1.attributes.size = s.attributes.size := by
  cases h with
  | skip _ => rfl
  | halt _ _ _ => exact State.size_update
  | reject _ _ _ _ => exact State.size_update.trans State.size_update
  | execute _ _ _ _ _ h => exact h.size

theorem panel (h : Visits setup plugins offset s out) (hpanel : s.panel = []) :
    out.1.panel = [] := by
  cases h with
  | skip _ | halt _ _ _ | reject _ _ _ _ => exact hpanel
  | execute _ _ _ _ _ h => exact h.panel hpanel

/-- To every byte but its own a visit does only what `Evolves` lists. -/
theorem others (h : Visits setup plugins offset s out) {i : Nat} (hi : i ≠ offset) :
    Evolves setup plugins i (s.info i) (out.1.info i) := by
  cases h with
  | skip _ => exact .refl
  | halt _ _ _ =>
      rw [State.info_update_ne fun hc => hi hc.symm]
      exact .refl
  | reject _ _ _ _ =>
      rw [State.info_update_ne fun hc => hi hc.symm, State.info_update_ne fun hc => hi hc.symm]
      exact .refl
  | execute _ _ _ _ _ h => exact h.others i hi

/-- Without plugins, a visit does not touch what is data after it. -/
theorem data (h : Visits setup plugins offset s out) (hpanel : s.panel = []) {i : Nat}
    (hi : i ≠ offset) (hdata : (out.1.info i).isData = true) : out.1.info i = s.info i := by
  cases h with
  | skip _ => rfl
  | halt _ _ _ => exact State.info_update_ne fun hc => hi hc.symm
  | reject _ _ _ _ =>
      rw [State.info_update_ne fun hc => hi hc.symm, State.info_update_ne fun hc => hi hc.symm]
  | execute _ _ _ _ _ h => exact h.data i hpanel hi hdata

theorem becomes (h : Visits setup plugins offset s out)
    (hsize : s.attributes.size = setup.image.size) :
    Becomes setup plugins offset s (out.1.info offset) := by
  cases h with
  | skip h => exact .kept h
  | halt hin _ hstop =>
      rw [State.info_update_self (by omega)]
      exact .halted hin hstop
  | reject hin _ _ hleaves =>
      rw [State.info_update_self (by rw [State.size_update]; omega),
        State.info_update_self (by omega)]
      exact .rejected hin hleaves
  | execute hin _ _ hstays hvalid hexec =>
      obtain ⟨stops, hstops, hfinish⟩ := hexec.own
      exact .executed hin hstays hvalid hstops hfinish

/-- A visit does to a byte what `Becomes` lists, or what `Evolves` lists. -/
theorem byte (h : Visits setup plugins offset s out)
    (hsize : s.attributes.size = setup.image.size) (i : Nat) :
    Becomes setup plugins i s (out.1.info i)
      ∨ Evolves setup plugins i (s.info i) (out.1.info i) := by
  by_cases hi : i = offset
  · subst hi
    exact Or.inl (h.becomes hsize)
  · exact Or.inr (h.others hi)

/-- What survives between visits, and a visit of the byte itself, survives any visit. -/
theorem preserves (h : Visits setup plugins offset s out) {i : Nat} {P : Attribute → Prop}
    (hi : P (s.info i)) (hevolves : ∀ {x y}, Evolves setup plugins i x y → P x → P y)
    (hvisit : ∀ {x}, P x → P (visitByte x))
    (hreject : ∀ {x}, isBlocked x = false → P x → P (rejectByte x))
    (hdecode : ∀ {x}, P x → P (decodedByte setup i x))
    (hmark : ∀ {x m} (on : Bool), m = .noContinue ∨ m = .noContinuePlugin → P x →
      P (x.putMark m on)) : P (out.1.info i) := by
  have hupdate : ∀ {Q : Attribute → Prop} {t : State ν σ} {change : Attribute → Attribute},
      Q (t.info i) → (∀ {x}, Q x → Q (change x)) → Q ((t.update offset change).info i) := by
    intro Q t change ht hchange
    rw [State.info, State.update, Attributes.info_update]
    split
    · exact hchange ht
    · exact ht
  by_cases hio : i = offset
  · subst hio
    cases h with
    | skip _ => exact hi
    | halt _ _ _ => exact hupdate hi hvisit
    | reject hin _ hblocked _ =>
        -- what is rejected is not blocked, and a visit does not block it
        have hvisited : P ((s.update i visitByte).info i)
            ∧ isBlocked ((s.update i visitByte).info i) = false :=
          hupdate (Q := fun x => P x ∧ isBlocked x = false) ⟨hi, hblocked⟩
            fun hx => ⟨hvisit hx.1, by simpa [visitByte, isBlocked] using hx.2⟩
        rw [State.info, State.update, Attributes.info_update]
        split
        · exact hreject hvisited.2 hvisited.1
        · exact hvisited.1
    | execute _ _ _ _ _ h =>
        obtain ⟨_, _, hfinish⟩ := h.own
        exact hfinish.preserves (hdecode hi) hevolves hmark
  · exact hevolves (h.others hio) hi

/-- Where a byte lies and whether it was hinted never changes. -/
theorem fixed (h : Visits setup plugins offset s out) (i : Nat) :
    (out.1.info i).address = (s.info i).address
      ∧ (out.1.info i).isRegionStart = (s.info i).isRegionStart
      ∧ (out.1.info i).isHinted = (s.info i).isHinted := by
  refine h.preserves (P := fun x => x.address = (s.info i).address
      ∧ x.isRegionStart = (s.info i).isRegionStart ∧ x.isHinted = (s.info i).isHinted)
    ⟨rfl, rfl, rfl⟩ ?_ ?_ ?_ ?_ ?_
  · intro x y hxy hx
    exact ⟨hxy.sameDecoding.address.trans hx.1, (hxy.own rfl).trans hx.2.1,
      (hxy.own rfl).trans hx.2.2⟩
  · intro x hx
    simpa [visitByte] using hx
  · intro x _ hx
    simpa [rejectByte] using hx
  · intro x hx
    refine ⟨?_, ?_⟩
    · rw [decodedByte_address]
      exact hx.1
    · simpa [decodedByte_has] using hx.2
  · intro x m on hm hx
    rcases hm with rfl | rfl <;> simpa using hx

/-- A status that obeys the override goes on doing so. -/
theorem obeys (h : Visits setup plugins offset s out) {i : Nat}
    (hi : Obeys (s.info i).status (setup.overrideAt i)) :
    Obeys (out.1.info i).status (setup.overrideAt i) := by
  refine h.preserves (P := fun x => Obeys x.status (setup.overrideAt i)) hi
    (fun hxy hx => hxy.obeys hx) (fun hx => hx) (fun _ hx => hx) ?_ fun _ _ hx => hx
  intro x hx
  rw [decodedByte_status]
  exact hx

/-- Off its override, a byte only learns. -/
theorem withinOff (h : Visits setup plugins offset s out) (i : Nat) :
    WithinOff (setup.overrideAt i) (s.info i).status (out.1.info i).status := by
  refine h.preserves
    (P := fun x => WithinOff (setup.overrideAt i) (s.info i).status x.status)
    (.refl _ _) (fun hxy hx => hx.trans hxy.withinOff) (fun hx => hx) (fun _ hx => hx) ?_
    fun _ _ hx => hx
  intro x hx
  rw [decodedByte_status]
  exact hx

/-- A byte that has been visited, and one that a branch has named, stays so. -/
theorem keeps (h : Visits setup plugins offset s out) {i : Nat} {m : Mark}
    (hm : m = .visited ∨ m = .branchTarget) (hi : (s.info i).marks.has m = true) :
    (out.1.info i).marks.has m = true := by
  refine h.preserves (P := fun x => x.marks.has m = true) hi ?_ ?_ ?_ ?_ ?_
  · intro x y hxy hx
    rcases hm with rfl | rfl
    · exact hxy.visited.trans hx
    · exact hxy.branchTarget hx
  · intro x hx
    rcases hm with rfl | rfl
    · simp [visitByte]
    · simpa [visitByte] using hx
  · intro x _ hx
    rcases hm with rfl | rfl <;> simpa [rejectByte] using hx
  · intro x hx
    rcases hm with rfl | rfl
    · simp [decodedByte_has]
    · simpa [decodedByte_has] using hx
  · intro x n on hn hx
    rcases hm with rfl | rfl <;> rcases hn with rfl | rfl <;> simpa using hx

/-- After a visit its byte has been visited. -/
theorem visited (h : Visits setup plugins offset s out)
    (hsize : s.attributes.size = setup.image.size) (hin : offset < setup.image.size) :
    (out.1.info offset).isVisited = true := by
  have hbecomes := h.becomes hsize
  generalize out.1.info offset = b at hbecomes ⊢
  cases hbecomes with
  | kept hkept =>
      rcases hkept with hout | ⟨hv, _⟩
      · omega
      · exact hv
  | halted _ _ => simp [visitByte]
  | rejected _ _ => simp [visitByte, rejectByte]
  | executed _ _ _ _ hfinish =>
      refine (hfinish.own rfl (by decide) (by decide)).trans ?_
      simp [decodedByte_has]

theorem pending (h : Visits setup plugins offset s out) :
    out.1.pending = s.pending ∨ ∃ t, out.1.pending = t :: s.pending
      ∧ (t < s.attributes.size → Obeys (out.1.info t).status (setup.overrideAt t)) := by
  cases h with
  | skip _ | halt _ _ _ | reject _ _ _ _ => exact Or.inl rfl
  | execute _ _ _ _ _ h =>
      rcases h.pending with hp | ⟨t, _, hp, ht⟩
      · exact Or.inl hp
      · exact Or.inr ⟨t, hp, ht⟩

/-- A byte that carries the mark of a change carried it before and is not the visited one, or it is
on the list or where to go on. -/
theorem changed (h : Visits setup plugins offset s out)
    (hsize : s.attributes.size = setup.image.size) {i : Nat}
    (hi : (out.1.info i).isChanged = true) :
    (i ≠ offset ∧ (s.info i).isChanged = true) ∨ i ∈ out.1.pending ∨ out.2 = some i := by
  cases h with
  | skip hskip =>
      refine Or.inl ⟨?_, hi⟩
      intro hio
      subst hio
      rcases hskip with hout | ⟨_, hc⟩
      · rw [State.info, Attributes.info_of_size_le (by rw [hsize]; exact hout)] at hi
        exact absurd hi (by decide)
      · rw [hc] at hi
        cases hi
  | halt hin _ _ =>
      by_cases hio : i = offset
      · subst hio
        rw [State.info_update_self (by rw [hsize]; exact hin)] at hi
        simp [visitByte] at hi
      · rw [State.info_update_ne fun hc => hio hc.symm] at hi
        exact Or.inl ⟨hio, hi⟩
  | reject hin _ _ _ =>
      by_cases hio : i = offset
      · subst hio
        have hlt : i < s.attributes.size := by rw [hsize]; exact hin
        rw [State.info_update_self (by rw [State.size_update]; exact hlt),
          State.info_update_self hlt] at hi
        simp [visitByte, rejectByte] at hi
      · rw [State.info_update_ne fun hc => hio hc.symm,
          State.info_update_ne fun hc => hio hc.symm] at hi
        exact Or.inl ⟨hio, hi⟩
  | execute _ _ _ _ _ h => exact h.changed i hi

theorem mem_pending (h : Visits setup plugins offset s out) {i : Nat} (hi : i ∈ s.pending) :
    i ∈ out.1.pending := by
  rcases h.pending with hp | ⟨t, hp, _⟩ <;> rw [hp]
  · exact hi
  · exact List.mem_cons_of_mem t hi

theorem next (h : Visits setup plugins offset s out) {n : Nat} (hn : out.2 = some n) :
    n < setup.image.size ∧ Obeys (out.1.info n).status (setup.overrideAt n) := by
  cases h with
  | skip _ | halt _ _ _ | reject _ _ _ _ => cases hn
  | execute _ _ _ _ _ h => exact h.next n hn

end Visits

end Disasm65.Flow
