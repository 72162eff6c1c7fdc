/-
The analysis comes to an end.

A byte that has not been visited is worth 57 units.  Its first visit costs three of them at least:
what is left is three for every mark that its status lacks, 54 at most.  Whoever tells the byte
something new takes three units for the marks it gains and pays three for the visit that is then
due.  So no byte is ever worth more than before, and a visit costs its byte three units; one that
puts a target on the list has two of them to pay for taking it off again.  All in all no more than
59 steps are taken for every byte of the image, whatever the plugins say.

The fuel of the analysis is more than that, so it never runs out: `followAll` ends where the steps
end.
-/
import Mathlib
import Disasm65.Proofs.Flow.Machine

namespace Disasm65.Flow

open StatusFlags

variable {ν σ : Type}

/-- What a byte can still cost. -/
def effort (a : Attribute) : Nat :=
  if a.isVisited then 3 * a.status.room + (if a.isChanged then 3 else 0) else 57

theorem effort_le (a : Attribute) : effort a ≤ 57 := by
  have hroom := a.status.room_le
  unfold effort
  split
  · split <;> omega
  · exact Nat.le_refl _

theorem effort_congr {a b : Attribute} (hvisited : b.isVisited = a.isVisited)
    (hchanged : b.isChanged = a.isChanged) (hstatus : b.status = a.status) :
    effort b = effort a := by
  unfold effort
  rw [hvisited, hchanged, hstatus]

/-- Handing a status to a byte never makes it cost more. -/
theorem effort_handByte {setup : Setup} {offset : Nat} {a : Attribute} (incoming : StatusFlags)
    (ha : a.isVisited = true → Obeys a.status (setup.overrideAt offset)) :
    effort (handByte setup offset incoming a) ≤ effort a := by
  by_cases hv : a.isVisited = true
  · by_cases hlearn : setup.arrive offset a.status incoming = a.status
    · refine Nat.le_of_eq (effort_congr ?_ ?_ ?_) <;> simp [hlearn]
    · -- the marks that the status gains pay for the visit that is due
      have hroom : (setup.arrive offset a.status incoming).room < a.status.room :=
        room_lt_of_withinOff (ha hv) (setup.arrive_obeys _ _ _) (setup.known_withinOff_arrive _ _ _)
          hlearn
      have hv' : (handByte setup offset incoming a).isVisited = true := by simpa using hv
      unfold effort
      rw [if_pos hv, if_pos hv', handByte_status]
      split <;> split <;> omega
  · have hv' : ¬ (handByte setup offset incoming a).isVisited = true := by simpa using hv
    unfold effort
    rw [if_neg hv, if_neg hv']

/-- Between its visits a byte never comes to cost more. -/
theorem Evolves.effort_le {setup : Setup} {plugins : Prop} {offset : Nat} {a b : Attribute}
    (h : Evolves setup plugins offset a b)
    (ha : a.isVisited = true → Obeys a.status (setup.overrideAt offset)) :
    effort b ≤ effort a := by
  induction h with
  | refl => exact Nat.le_refl _
  | claim _ ih =>
      refine Nat.le_trans (Nat.le_of_eq (effort_congr ?_ ?_ ?_)) ih <;> simp
  | target _ ih =>
      refine Nat.le_trans (Nat.le_of_eq (effort_congr ?_ ?_ ?_)) ih <;> simp
  | serve _ hs _ ih =>
      exact Nat.le_trans
        (Nat.le_of_eq (effort_congr (hs.has (by decide)) (hs.has (by decide)) hs.status)) ih
  | hand incoming hprev ih =>
      refine Nat.le_trans (effort_handByte incoming fun hv => ?_) ih
      exact hprev.obeys (ha (hprev.visited.symm.trans hv))

theorem Finishes.effort_le {setup : Setup} {plugins : Prop} {offset : Nat} {stops : Bool}
    {a c : Attribute} (h : Finishes setup plugins offset stops a c)
    (ha : Obeys a.status (setup.overrideAt offset)) : effort c ≤ effort a := by
  refine (h.preserves
    (P := fun x => effort x ≤ effort a ∧ Obeys x.status (setup.overrideAt offset))
    ⟨Nat.le_refl _, ha⟩ ?_ ?_).1
  · intro x y hxy hx
    exact ⟨Nat.le_trans (hxy.effort_le fun _ => hx.2) hx.1, hxy.obeys hx.2⟩
  · intro x m on hm hx
    have heffort : effort (x.putMark m on) = effort x := by
      refine effort_congr ?_ ?_ rfl <;> · rcases hm with rfl | rfl <;> simp
    exact ⟨heffort.trans_le hx.1, hx.2⟩

/-- A visit costs its byte three units. -/
theorem effort_visited {a b : Attribute} (hneed : a.isVisited = false ∨ a.isChanged = true)
    (hvisited : b.isVisited = true) (hchanged : b.isChanged = false)
    (hstatus : b.status = a.status) : effort b + 3 ≤ effort a := by
  have hroom := a.status.room_le
  have hb : effort b = 3 * a.status.room := by
    unfold effort
    rw [if_pos hvisited, hchanged, hstatus]
    rfl
  rw [hb]
  unfold effort
  by_cases hv : a.isVisited = true
  · rcases hneed with h | h
    · rw [h] at hv
      cases hv
    · rw [if_pos hv, if_pos h]
  · rw [if_neg hv]
    omega

/-! ### The whole image -/

/-- What all bytes together can still cost. -/
def totalEffort (setup : Setup) (s : State ν σ) : Nat :=
  ∑ i ∈ Finset.range setup.image.size, effort (s.info i)

theorem totalEffort_le (setup : Setup) (s : State ν σ) :
    totalEffort setup s ≤ 57 * setup.image.size :=
  calc totalEffort setup s ≤ ∑ _i ∈ Finset.range setup.image.size, 57 :=
        Finset.sum_le_sum fun i _ => effort_le (s.info i)
    _ = 57 * setup.image.size := by
        rw [Finset.sum_const, Finset.card_range, smul_eq_mul, Nat.mul_comm]

/-- If no byte comes to cost more and one costs three units less, so do all together. -/
theorem totalEffort_add_three_le {setup : Setup} {s s' : State ν σ} {offset : Nat}
    (hin : offset < setup.image.size)
    (hothers : ∀ i, i ≠ offset → effort (s'.info i) ≤ effort (s.info i))
    (hown : effort (s'.info offset) + 3 ≤ effort (s.info offset)) :
    totalEffort setup s' + 3 ≤ totalEffort setup s := by
  have hmem : offset ∈ Finset.range setup.image.size := Finset.mem_range.mpr hin
  have hrest : ∑ i ∈ (Finset.range setup.image.size).erase offset, effort (s'.info i)
      ≤ ∑ i ∈ (Finset.range setup.image.size).erase offset, effort (s.info i) :=
    Finset.sum_le_sum fun i hi => hothers i (Finset.mem_erase.mp hi).1
  unfold totalEffort
  rw [← Finset.add_sum_erase _ (fun i => effort (s'.info i)) hmem,
    ← Finset.add_sum_erase _ (fun i => effort (s.info i)) hmem]
  omega

/-- **A visit does nothing, or costs three units.** -/
theorem Visits.totalEffort {setup : Setup} {offset : Nat} {c : Config ν σ}
    {out : State ν σ × Option Nat} (h : Visits setup True offset c.state out)
    (hc : Obeying setup c) (hcurrent : c.current = some offset) :
    out = (c.state, none) ∨ totalEffort setup out.1 + 3 ≤ totalEffort setup c.state := by
  have hothers : ∀ i, i ≠ offset → effort (out.1.info i) ≤ effort (c.state.info i) :=
    fun i hi => (h.others hi).effort_le (hc.visited i)
  cases h with
  | skip _ => exact Or.inl rfl
  | halt hin hneed _ =>
      refine Or.inr (totalEffort_add_three_le hin hothers ?_)
      rw [State.info_update_self (by rw [hc.size]; exact hin)]
      exact effort_visited hneed (by simp [visitByte]) (by simp [visitByte]) rfl
  | reject hin hneed _ _ =>
      refine Or.inr (totalEffort_add_three_le hin hothers ?_)
      have hsize : offset < c.state.attributes.size := by rw [hc.size]; exact hin
      rw [State.info_update_self (by rw [State.size_update]; exact hsize),
        State.info_update_self hsize]
      exact effort_visited hneed (by simp [visitByte, rejectByte]) (by simp [visitByte, rejectByte])
        rfl
  | execute hin hneed _ _ _ hexec =>
      refine Or.inr (totalEffort_add_three_le hin hothers ?_)
      obtain ⟨_, _, hfinish⟩ := hexec.own
      have hstatus : (decodedByte setup offset (c.state.info offset)).status
          = (c.state.info offset).status := decodedByte_status setup _
      have hobeys := hc.awaited offset (Or.inr hcurrent) hin
      have hle := hfinish.effort_le (by rw [hstatus]; exact hobeys)
      have hdecoded := effort_visited (b := decodedByte setup offset (c.state.info offset)) hneed
        (by simp [decodedByte_has]) (by simp [decodedByte_has]) hstatus
      omega

/-! ### Counting the steps -/

/-- The steps that following control can still take. -/
def walkMeasure (setup : Setup) (c : Config ν σ) : Nat :=
  totalEffort setup c.state + 2 * c.state.pending.length + c.current.toList.length

/-- The steps that the analysis can still take. -/
def stepMeasure (setup : Setup) (c : Config ν σ) : Nat :=
  walkMeasure setup c + 2 * (setup.image.size - c.search)

/-- Visiting an offset uses up a step. -/
theorem walkMeasure_visit {setup : Setup} {c : Config ν σ} (hc : Obeying setup c) {offset : Nat}
    (hcurrent : c.current = some offset) (search : Nat) :
    walkMeasure setup ⟨search, (visit setup offset c.state).2, (visit setup offset c.state).1⟩
      < walkMeasure setup c := by
  have hvisits : Visits setup True offset c.state (visit setup offset c.state) :=
    visit_visits (fun _ => trivial) hc.size
  have hlist : ∀ o : Option Nat, o.toList.length ≤ 1 := by
    intro o
    cases o <;> simp
  unfold walkMeasure
  dsimp only
  rw [hcurrent]
  rcases hvisits.totalEffort hc hcurrent with hskip | hcost
  · rw [hskip]
    simp
  · have hnext := hlist (visit setup offset c.state).2
    have hcur : (some offset).toList.length = 1 := rfl
    rcases hvisits.pending with hp | ⟨t, hp, _⟩ <;> rw [hp]
    · omega
    · rw [List.length_cons]
      omega

theorem totalEffort_enter {setup : Setup} {s : State ν σ} {offset : Nat}
    (h : isEntry setup s offset = true) :
    totalEffort setup (enter setup offset s) = totalEffort setup s := by
  refine Finset.sum_congr rfl fun i _ => ?_
  rw [info_enter]
  split
  · rename_i hi
    obtain ⟨rfl, -⟩ := hi
    have hv := (isEntry_iff.mp h).1.2
    unfold effort
    rw [if_neg (by simpa using hv), if_neg (by simpa using hv)]
  · rfl

/-- **Every step uses up a step.** -/
theorem stepMeasure_lt {setup : Setup} {c d : Config ν σ} (hc : Obeying setup c)
    (h : step setup c = some d) : stepMeasure setup d < stepMeasure setup c := by
  rcases step_cases h with ⟨offset, hcurrent, rfl⟩
    | ⟨target, rest, hcurrent, hp, rfl⟩ | ⟨hcurrent, hp, hsearch, hentry, rfl⟩
    | ⟨hcurrent, hp, hsearch, _, rfl⟩
  · have hlt := walkMeasure_visit hc hcurrent c.search
    unfold stepMeasure
    dsimp only
    omega
  · unfold stepMeasure walkMeasure
    dsimp only
    rw [hcurrent, hp, List.length_cons]
    show totalEffort setup c.state + 2 * rest.length + 1 + _ < _
    omega
  · have heffort := totalEffort_enter hentry
    unfold stepMeasure walkMeasure
    dsimp only
    rw [heffort, hcurrent]
    show _ + 2 * c.state.pending.length + 1 + _ < _ + 0 + _
    omega
  · unfold stepMeasure walkMeasure
    dsimp only
    rw [hcurrent]
    omega

/-- A run is no longer than the measure at its start. -/
theorem Steps.le_stepMeasure {setup : Setup} {n : Nat} {c d : Config ν σ}
    (h : Steps setup n c d) (hc : Obeying setup c) :
    n + stepMeasure setup d ≤ stepMeasure setup c := by
  induction h with
  | refl c => omega
  | head h _ ih =>
      have hrest := ih (step_obeying hc h)
      have hlt := stepMeasure_lt hc h
      omega

/-! ### The fuel suffices -/

/-- **With enough fuel, following control takes the steps of the analysis and empties the list.** -/
theorem drain_steps (setup : Setup) (search : Nat) :
    ∀ (fuel : Nat) (current : Option Nat) (s : State ν σ),
      Obeying setup ⟨search, current, s⟩ → walkMeasure setup ⟨search, current, s⟩ ≤ fuel →
      (∃ n, Steps setup n ⟨search, current, s⟩ ⟨search, none, drain setup fuel current s⟩)
        ∧ (drain setup fuel current s).pending = [] := by
  intro fuel
  induction fuel with
  | zero =>
      intro current s _ hfuel
      unfold walkMeasure at hfuel
      dsimp only at hfuel
      have hp : s.pending = [] := List.length_eq_zero_iff.mp (by omega)
      cases current with
      | none => exact ⟨⟨0, .refl _⟩, hp⟩
      | some offset => simp at hfuel
  | succ fuel ih =>
      intro current s hc hfuel
      cases current with
      | some offset =>
          have hlt : walkMeasure setup ⟨search, (visit setup offset s).2, (visit setup offset s).1⟩
              < walkMeasure setup ⟨search, some offset, s⟩ := walkMeasure_visit hc rfl search
          have hstep : step setup (⟨search, some offset, s⟩ : Config ν σ)
              = some ⟨search, (visit setup offset s).2, (visit setup offset s).1⟩ := rfl
          obtain ⟨⟨n, hsteps⟩, hp⟩ := ih _ _ (step_obeying hc hstep) (by omega)
          exact ⟨⟨n + 1, .head hstep hsteps⟩, hp⟩
      | none =>
          cases hpending : s.pending with
          | nil =>
              have hdrain : drain setup (fuel + 1) none s = s := by
                simp [drain, hpending]
              rw [hdrain]
              exact ⟨⟨0, .refl _⟩, hpending⟩
          | cons target rest =>
              have hdrain : drain setup (fuel + 1) none s
                  = drain setup fuel (some target) { s with pending := rest } := by
                simp [drain, hpending]
              have hstep : step setup (⟨search, none, s⟩ : Config ν σ)
                  = some ⟨search, some target, { s with pending := rest }⟩ := by
                simp [step, hpending]
              have hlt : walkMeasure setup ⟨search, some target, { s with pending := rest }⟩
                  < walkMeasure setup ⟨search, none, s⟩ := by
                unfold walkMeasure
                dsimp only
                rw [hpending, List.length_cons]
                show totalEffort setup s + 2 * rest.length + 1 < _
                omega
              rw [hdrain]
              obtain ⟨⟨n, hsteps⟩, hp⟩ := ih _ _ (step_obeying hc hstep) (by omega)
              exact ⟨⟨n + 1, .head hstep hsteps⟩, hp⟩

theorem tryEntry_steps {setup : Setup} {s : State ν σ} {offset : Nat}
    (hc : Obeying setup ⟨offset, none, s⟩) (hp : s.pending = []) (hin : offset < setup.image.size) :
    (∃ n, Steps setup n ⟨offset, none, s⟩ ⟨offset + 1, none, tryEntry setup s offset⟩)
      ∧ (tryEntry setup s offset).pending = [] := by
  unfold tryEntry
  by_cases hentry : isEntry setup s offset = true
  · have hstep : step setup (⟨offset, none, s⟩ : Config ν σ)
        = some ⟨offset + 1, some offset, enter setup offset s⟩ := by
      simp [step, hp, hin, hentry]
    have hfuel : walkMeasure setup ⟨offset + 1, some offset, enter setup offset s⟩
        ≤ fuel setup.image.size := by
      have htotal := totalEffort_le setup (enter setup offset s)
      have hpending : (enter setup offset s).pending = [] := hp
      unfold walkMeasure fuel
      dsimp only
      rw [hpending]
      show _ + 2 * 0 + 1 ≤ _
      omega
    rw [if_pos hentry]
    obtain ⟨⟨n, hsteps⟩, hend⟩ := drain_steps setup (offset + 1) _ _ _ (step_obeying hc hstep) hfuel
    exact ⟨⟨n + 1, .head hstep hsteps⟩, hend⟩
  · have hstep : step setup (⟨offset, none, s⟩ : Config ν σ) = some ⟨offset + 1, none, s⟩ := by
      simp [step, hp, hin, hentry]
    rw [if_neg hentry]
    exact ⟨⟨1, .head hstep (.refl _)⟩, hp⟩

/-- **The analysis ends where its steps end**, with nothing left to do, after no more than 59 steps
for every byte. -/
theorem followAll_steps {setup : Setup} {s : State ν σ} (hc : Obeying setup ⟨0, none, s⟩)
    (hp : s.pending = []) :
    ∃ n ≤ 59 * setup.image.size,
      Steps setup n ⟨0, none, s⟩ ⟨setup.image.size, none, followAll setup s⟩
        ∧ (followAll setup s).pending = [] := by
  have hfold : ∀ k ≤ setup.image.size,
      (∃ n, Steps setup n ⟨0, none, s⟩ ⟨k, none, (List.range k).foldl (tryEntry setup) s⟩)
        ∧ ((List.range k).foldl (tryEntry setup) s).pending = [] := by
    intro k
    induction k with
    | zero => exact fun _ => ⟨⟨0, .refl _⟩, hp⟩
    | succ k ih =>
        intro hk
        obtain ⟨⟨n, hsteps⟩, hpending⟩ := ih (by omega)
        rw [List.range_succ, List.foldl_append, List.foldl_cons, List.foldl_nil]
        obtain ⟨⟨m, hmore⟩, hend⟩ :=
          tryEntry_steps (hsteps.preserves step_obeying hc) hpending (by omega)
        exact ⟨⟨n + m, hsteps.trans hmore⟩, hend⟩
  obtain ⟨⟨n, hsteps⟩, hend⟩ := hfold setup.image.size (Nat.le_refl _)
  refine ⟨n, ?_, hsteps, hend⟩
  have hbound := hsteps.le_stepMeasure hc
  have htotal := totalEffort_le setup s
  have hstart : stepMeasure setup ⟨0, none, s⟩ = totalEffort setup s + 2 * setup.image.size := by
    unfold stepMeasure walkMeasure
    dsimp only
    rw [hp]
    simp
  omega

end Disasm65.Flow
