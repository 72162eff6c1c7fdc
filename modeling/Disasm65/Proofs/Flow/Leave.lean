/-
Leaving an instruction.

Plugins may let a break go on and may stop a call; then control goes on to the next instruction,
if that follows.  The instruction's own byte gets its last marks here (`Finishes`).
-/
import Mathlib
import Disasm65.Proofs.Flow.Decode

namespace Disasm65.Flow

open StatusFlags

variable {ν σ : Type} {plugins : Prop}

/-- Plugins may let a break go on. -/
def breakAsked (setup : Setup) (offset : Nat) (op : Opcode) (status : StatusFlags)
    (s : State ν σ) : Bool × State ν σ :=
  if op.isBrk then
    let (stops, s) := askPlugins setup op offset (!continues op status) s
    (continues op status || !stops, s)
  else (continues op status, s)

/-- Plugins may stop a call. -/
def callAsked (setup : Setup) (offset : Nat) (op : Opcode) (first : Bool) (s : State ν σ) :
    Bool × State ν σ :=
  if first && (op.isJsr || op.isJsl) then askPlugins setup op offset false s else (false, s)

/-- Control leaves the instruction. -/
def leave (setup : Setup) (offset : Nat) (op : Opcode) (length : Nat) (first : Bool)
    (status next : StatusFlags) (s : State ν σ) : State ν σ × Option Nat :=
  let (goesOn, s) := breakAsked setup offset op status s
  let s := s.update offset fun a => a.putMark .noContinue (!goesOn)
  if (s.info offset).doesNotContinue || setup.image.size ≤ offset + length then (s, none)
  else
    let (stops, s) := callAsked setup offset op first s
    if stops then (s.update offset fun a => a.mark .noContinuePlugin, none)
    else fallThrough setup offset length next s

/-! ### Asking plugins on the way out -/

section Leave

variable {setup : Setup} {offset : Nat} {op : Opcode} {length : Nat} {first : Bool}
variable {status next : StatusFlags} {s : State ν σ}

theorem breakAsked_of_empty (h : s.panel = []) :
    breakAsked setup offset op status s = (continues op status, s) := by
  unfold breakAsked
  split
  · rw [askPlugins_of_empty op offset _ h]
    simp
  · rfl

theorem callAsked_of_empty (h : s.panel = []) :
    callAsked setup offset op first s = (false, s) := by
  unfold callAsked
  split
  · exact askPlugins_of_empty op offset _ h
  · rfl

theorem breakAsked_serves :
    ServedAll s.attributes (breakAsked setup offset op status s).2.attributes := by
  unfold breakAsked
  split
  · exact askPlugins_serves op offset _
  · exact .refl _

theorem callAsked_serves :
    ServedAll s.attributes (callAsked setup offset op first s).2.attributes := by
  unfold callAsked
  split
  · exact askPlugins_serves op offset _
  · exact .refl _

theorem breakAsked_pending : (breakAsked setup offset op status s).2.pending = s.pending := by
  unfold breakAsked
  split
  · exact askPlugins_pending op offset _
  · rfl

theorem callAsked_pending : (callAsked setup offset op first s).2.pending = s.pending := by
  unfold callAsked
  split
  · exact askPlugins_pending op offset _
  · rfl

/-- The plugins have been asked about a break, and the byte is marked accordingly. -/
def stopMarked (setup : Setup) (offset : Nat) (op : Opcode) (status : StatusFlags)
    (s : State ν σ) : State ν σ :=
  (breakAsked setup offset op status s).2.update offset fun a =>
    a.putMark .noContinue (!(breakAsked setup offset op status s).1)

/-- The plugins have been asked about a call as well. -/
def bothAsked (setup : Setup) (offset : Nat) (op : Opcode) (first : Bool) (status : StatusFlags)
    (s : State ν σ) : Bool × State ν σ :=
  callAsked setup offset op first (stopMarked setup offset op status s)

theorem stopMarked_of_empty (h : s.panel = []) :
    stopMarked setup offset op status s
      = s.update offset fun a => a.putMark .noContinue (!continues op status) := by
  unfold stopMarked
  rw [breakAsked_of_empty h]

theorem bothAsked_of_empty (h : s.panel = []) :
    bothAsked setup offset op first status s
      = (false, s.update offset fun a => a.putMark .noContinue (!continues op status)) := by
  unfold bothAsked
  rw [stopMarked_of_empty h]
  exact callAsked_of_empty h

end Leave

/-- `c` is what becomes of the attribute `a` of an instruction as control leaves it; `stops` says
that the next instruction does not follow. -/
def Finishes (setup : Setup) (plugins : Prop) (offset : Nat) (stops : Bool) (a c : Attribute) :
    Prop :=
  ∃ b d, Evolves setup plugins offset a b
    ∧ Evolves setup plugins offset (b.putMark .noContinue stops) d
    ∧ (c = d ∨ plugins ∧ c = d.mark .noContinuePlugin)

namespace Finishes

variable {setup : Setup} {offset : Nat} {stops : Bool} {a c : Attribute}

/-- What survives between visits and does not depend on the two marks survives here. -/
theorem preserves (h : Finishes setup plugins offset stops a c) {P : Attribute → Prop} (ha : P a)
    (hevolves : ∀ {x y}, Evolves setup plugins offset x y → P x → P y)
    (hmark : ∀ {x m} (on : Bool), m = .noContinue ∨ m = .noContinuePlugin → P x →
      P (x.putMark m on)) : P c := by
  obtain ⟨b, d, hab, hbd, hd⟩ := h
  have hPd : P d := hevolves hbd (hmark stops (Or.inl rfl) (hevolves hab ha))
  rcases hd with rfl | ⟨_, rfl⟩
  · exact hPd
  · exact hmark true (Or.inr rfl) hPd

theorem of_evolves {b : Attribute} (hab : Evolves setup plugins offset a b)
    (h : Finishes setup plugins offset stops b c) : Finishes setup plugins offset stops a c := by
  obtain ⟨d, e, hbd, hde, he⟩ := h
  exact ⟨d, e, hab.trans hbd, hde, he⟩

theorem sameDecoding (h : Finishes setup plugins offset stops a c) : SameDecoding a c :=
  h.preserves (.refl a) (fun hxy hx => hx.trans hxy.sameDecoding)
    fun _ _ hx => hx.trans ⟨rfl, rfl, rfl, rfl, rfl, rfl⟩

theorem withinOff (h : Finishes setup plugins offset stops a c) :
    WithinOff (setup.overrideAt offset) a.status c.status :=
  h.preserves (P := fun x => WithinOff (setup.overrideAt offset) a.status x.status)
    (.refl _ _) (fun hxy hx => hx.trans hxy.withinOff) fun _ _ hx => hx

theorem obeys (h : Finishes setup plugins offset stops a c)
    (ha : Obeys a.status (setup.overrideAt offset)) :
    Obeys c.status (setup.overrideAt offset) :=
  h.preserves (P := fun x => Obeys x.status (setup.overrideAt offset)) ha
    (fun hxy hx => hxy.obeys hx) fun _ _ hx => hx

theorem own (h : Finishes setup plugins offset stops a c) {m : Mark} (hm : isOwnMark m = true)
    (h1 : m ≠ .noContinue) (h2 : m ≠ .noContinuePlugin) : c.marks.has m = a.marks.has m := by
  refine h.preserves (P := fun x => x.marks.has m = a.marks.has m) rfl
    (fun hxy hx => (hxy.own hm).trans hx) ?_
  rintro x n on (rfl | rfl) hx
  · simpa [h1] using hx
  · simpa [h2] using hx

theorem branchTarget (h : Finishes setup plugins offset stops a c)
    (ha : a.isBranchTarget = true) : c.isBranchTarget = true := by
  refine h.preserves (P := fun x => x.isBranchTarget = true) ha
    (fun hxy hx => hxy.branchTarget hx) ?_
  rintro x n on (rfl | rfl) hx <;> simpa using hx

/-- An instruction stays one, free of data. -/
theorem isCode (h : Finishes setup plugins offset stops a c)
    (ha : a.isInstruction = true ∧ a.isData = false ∧ a.isInlineData = false) :
    c.isInstruction = true ∧ c.isData = false ∧ c.isInlineData = false := by
  refine h.preserves
    (P := fun x => x.isInstruction = true ∧ x.isData = false ∧ x.isInlineData = false) ha ?_ ?_
  · intro x y hxy hx
    refine ⟨hxy.instruction hx.1, ?_, ?_⟩
    · by_contra hc
      rw [hxy.data (by simpa using hc)] at hx
      cases hx.2.1
    · by_contra hc
      rcases hxy.inlineData (by simpa using hc) with hi | ⟨_, hi⟩
      · rw [hi] at hx
        cases hx.2.2
      · rw [hi] at hx
        cases hx.1
  · rintro x n on (rfl | rfl) hx <;> simpa using hx

/-- The status does not change unnoticed. -/
theorem noticed (h : Finishes setup plugins offset stops a c) (ha : a.isVisited = true)
    (hc : c.isChanged = false) : c.status = a.status := by
  refine (h.preserves
    (P := fun x => x.isVisited = true ∧ (x.isChanged = false → x.status = a.status))
    ⟨ha, fun _ => rfl⟩ ?_ ?_).2 hc
  · intro x y hxy hx
    refine ⟨hxy.visited.trans hx.1, fun hy => ?_⟩
    have hunchanged : x.isChanged = false := by
      by_contra hc
      rw [hxy.changed (by simpa using hc)] at hy
      cases hy
    exact (hxy.noticed hx.1 hy).trans (hx.2 hunchanged)
  · rintro x n on (rfl | rfl) hx <;> simpa using hx

/-- The mark says whether the next instruction follows. -/
theorem noContinue (h : Finishes setup plugins offset stops a c) :
    c.marks.has .noContinue = stops := by
  obtain ⟨b, d, _, hbd, hd⟩ := h
  have hmark : d.marks.has .noContinue = stops := by
    rw [hbd.own rfl]
    simp
  rcases hd with rfl | ⟨_, rfl⟩
  · exact hmark
  · simpa using hmark

/-- Only a plugin says that a call does not return. -/
theorem noContinuePlugin (h : Finishes setup plugins offset stops a c) (hp : ¬ plugins) :
    c.marks.has .noContinuePlugin = a.marks.has .noContinuePlugin := by
  obtain ⟨b, d, hab, hbd, hd⟩ := h
  have hmark : d.marks.has .noContinuePlugin = a.marks.has .noContinuePlugin := by
    rw [hbd.own rfl, ← hab.own rfl]
    simp
  rcases hd with rfl | ⟨hplugins, _⟩
  · exact hmark
  · exact absurd hplugins hp

end Finishes

section Leave

variable (setup : Setup) (offset : Nat) (op : Opcode) (length : Nat) (first : Bool)
variable (status next : StatusFlags) (s : State ν σ)

theorem leave_eq :
    leave setup offset op length first status next s
      = (let marked := stopMarked setup offset op status s
         let asked := bothAsked setup offset op first status s
         if (marked.info offset).doesNotContinue || setup.image.size ≤ offset + length then
           (marked, none)
         else if asked.1 then (asked.2.update offset fun a => a.mark .noContinuePlugin, none)
         else fallThrough setup offset length next asked.2) :=
  rfl

/-- Leaving an instruction ends in one of three ways: the next instruction does not follow, a
plugin stops the call, or control goes on. -/
theorem leave_cases :
    let asked := bothAsked setup offset op first status s
    let out := leave setup offset op length first status next s
    out = (stopMarked setup offset op status s, none)
      ∨ asked.1 = true ∧ out = (asked.2.update offset fun a => a.mark .noContinuePlugin, none)
      ∨ out = fallThrough setup offset length next asked.2 := by
  rw [leave_eq]
  dsimp only
  split
  · exact Or.inl rfl
  · split
    · rename_i h
      exact Or.inr (Or.inl ⟨h, rfl⟩)
    · exact Or.inr (Or.inr rfl)

theorem size_stopMarked :
    (stopMarked setup offset op status s).attributes.size = s.attributes.size :=
  State.size_update.trans breakAsked_serves.size

theorem size_bothAsked :
    (bothAsked setup offset op first status s).2.attributes.size = s.attributes.size :=
  callAsked_serves.size.trans (size_stopMarked setup offset op status s)

theorem size_leave :
    (leave setup offset op length first status next s).1.attributes.size = s.attributes.size := by
  have hgone : Develops setup True _ (fallThrough setup offset length next
      (bothAsked setup offset op first status s).2).1.attributes :=
    fallThrough_develops setup offset length next _
  have hasked := size_bothAsked setup offset op first status s
  rcases leave_cases setup offset op length first status next s with h | ⟨_, h⟩ | h <;> rw [h]
  · exact size_stopMarked setup offset op status s
  · exact State.size_update.trans hasked
  · exact hgone.size.trans hasked

theorem leave_pending :
    (leave setup offset op length first status next s).1.pending = s.pending := by
  have hmarked : (stopMarked setup offset op status s).pending = s.pending :=
    breakAsked_pending
  have hasked : (bothAsked setup offset op first status s).2.pending = s.pending :=
    callAsked_pending.trans hmarked
  rcases leave_cases setup offset op length first status next s with h | ⟨_, h⟩ | h <;> rw [h]
  · exact hmarked
  · exact hasked
  · exact (fallThrough_pending setup offset length next _).trans hasked

variable {s}

theorem leave_panel (hpanel : s.panel = []) :
    (leave setup offset op length first status next s).1.panel = [] := by
  rcases leave_cases setup offset op length first status next s with h | ⟨_, h⟩ | h <;> rw [h]
  · rw [stopMarked_of_empty hpanel]
    exact hpanel
  · rw [bothAsked_of_empty hpanel]
    exact hpanel
  · rw [fallThrough_panel, bothAsked_of_empty hpanel]
    exact hpanel

theorem breakAsked_develops (hp : s.panel ≠ [] → plugins) :
    Develops setup plugins s.attributes (breakAsked setup offset op status s).2.attributes := by
  by_cases hpanel : s.panel = []
  · rw [breakAsked_of_empty hpanel]
    exact .refl _
  · exact breakAsked_serves.develops (hp hpanel)

theorem bothAsked_develops (hp : s.panel ≠ [] → plugins) :
    Develops setup plugins (stopMarked setup offset op status s).attributes
      (bothAsked setup offset op first status s).2.attributes := by
  by_cases hpanel : s.panel = []
  · rw [bothAsked_of_empty hpanel, stopMarked_of_empty hpanel]
    exact .refl _
  · exact callAsked_serves.develops (hp hpanel)

theorem leave_others (hp : s.panel ≠ [] → plugins) {i : Nat} (hi : i ≠ offset) :
    Evolves setup plugins i (s.info i)
      ((leave setup offset op length first status next s).1.info i) := by
  have hmarked : Evolves setup plugins i (s.info i)
      ((stopMarked setup offset op status s).info i) := by
    unfold stopMarked
    rw [State.info_update_ne fun hc => hi hc.symm]
    exact (breakAsked_develops setup offset op status hp).bytes i
  have hasked := hmarked.trans ((bothAsked_develops setup offset op first status hp).bytes i)
  rcases leave_cases setup offset op length first status next s with h | ⟨_, h⟩ | h <;> rw [h]
  · exact hmarked
  · rw [State.info_update_ne fun hc => hi hc.symm]
    exact hasked
  · exact hasked.trans ((fallThrough_develops setup offset length next _).bytes i)

/-- Without plugins, what is data afterwards has not been touched. -/
theorem leave_of_data (hpanel : s.panel = []) {i : Nat} (hi : i ≠ offset)
    (h : ((leave setup offset op length first status next s).1.info i).isData = true) :
    (leave setup offset op length first status next s).1.info i = s.info i := by
  have hmarked : ((s.update offset fun a => a.putMark .noContinue (!continues op status)).info i)
      = s.info i := State.info_update_ne fun hc => hi hc.symm
  rcases leave_cases setup offset op length first status next s with hl | ⟨_, hl⟩ | hl <;>
    rw [hl] at h ⊢
  · rw [stopMarked_of_empty hpanel]
    exact hmarked
  · rw [State.info_update_ne fun hc => hi hc.symm, bothAsked_of_empty hpanel]
    exact hmarked
  · rw [fallThrough_of_data setup offset length next _ h, bothAsked_of_empty hpanel]
    exact hmarked

/-- What leaving an instruction does to its own byte. -/
theorem leave_own (hp : s.panel ≠ [] → plugins) (hsize : offset < s.attributes.size) :
    ∃ stops, (s.panel = [] → stops = !continues op status)
      ∧ Finishes setup plugins offset stops (s.info offset)
          ((leave setup offset op length first status next s).1.info offset) := by
  have hbreak := (breakAsked_develops setup offset op status hp).bytes offset
  have hmarked : (stopMarked setup offset op status s).info offset
      = ((breakAsked setup offset op status s).2.info offset).putMark .noContinue
          (!(breakAsked setup offset op status s).1) :=
    State.info_update_self (by rw [breakAsked_serves.size]; exact hsize)
  have hasked := (bothAsked_develops setup offset op first status hp).bytes offset
  rw [← State.info, hmarked] at hasked
  refine ⟨!(breakAsked setup offset op status s).1, ?_, ?_⟩
  · intro hpanel
    rw [breakAsked_of_empty hpanel]
  rcases leave_cases setup offset op length first status next s with h | ⟨hstops, h⟩ | h <;> rw [h]
  · exact ⟨_, _, hbreak, .refl, Or.inl hmarked⟩
  · have hplugins : plugins := by
      refine hp fun hpanel => ?_
      rw [bothAsked_of_empty hpanel] at hstops
      cases hstops
    refine ⟨_, _, hbreak, hasked, Or.inr ⟨hplugins, ?_⟩⟩
    exact State.info_update_self (by rw [size_bothAsked]; exact hsize)
  · exact ⟨_, _, hbreak,
      hasked.trans ((fallThrough_develops setup offset length next _).bytes offset), Or.inl rfl⟩

/-- Where control goes on, if it does, is past the instruction and has been handed the status. -/
theorem leave_next (hsize : s.attributes.size = setup.image.size) {n : Nat}
    (h : (leave setup offset op length first status next s).2 = some n) :
    offset + length ≤ n ∧ n < setup.image.size
      ∧ Reaches setup next n ((leave setup offset op length first status next s).1.info n) := by
  have hsize' := (size_bothAsked setup offset op first status s).trans hsize
  rcases leave_cases setup offset op length first status next s with hl | ⟨_, hl⟩ | hl <;>
    rw [hl] at h ⊢
  · cases h
  · cases h
  · obtain ⟨hgo, rfl⟩ := fallThrough_next setup offset length next _ h
    exact ⟨le_skipInline _ _ _, hgo.1,
      (fallThrough_reaches setup offset length next _ hgo hsize').1⟩

/-- Without plugins, control goes on only from an instruction that continues, and it passes over
inline data only. -/
theorem leave_onward (hpanel : s.panel = []) (hsize : offset < s.attributes.size) {n : Nat}
    (h : (leave setup offset op length first status next s).2 = some n) :
    continues op status = true ∧ offset + length ≤ n
      ∧ ∀ i, i ≠ offset → offset + length ≤ i → i < n → (s.info i).isInlineData = true := by
  rw [leave_eq, bothAsked_of_empty hpanel, stopMarked_of_empty hpanel] at h
  dsimp only at h
  rw [State.info_update_self hsize] at h
  split at h
  · cases h
  · rename_i hgo
    obtain ⟨_, rfl⟩ := fallThrough_next setup offset length next _ h
    refine ⟨?_, le_skipInline _ _ _, fun i hi hlow hhigh => ?_⟩
    · by_contra hc
      rw [Bool.not_eq_true] at hc
      simp [hc] at hgo
    · have hinline := inlineData_of_lt_skipInline _ _ _ i hlow hhigh
      rwa [← State.info, State.info_update_ne fun hc => hi hc.symm] at hinline

/-- A byte that is marked as changed on leaving is where control goes on. -/
theorem leave_changed {i : Nat}
    (h : ((leave setup offset op length first status next s).1.info i).isChanged = true) :
    (s.info i).isChanged = true
      ∨ (leave setup offset op length first status next s).2 = some i := by
  have hput : ∀ (t : State ν σ) (m : Mark) (on : Bool), m ≠ .changed →
      ((t.update offset fun a => a.putMark m on).info i).isChanged = (t.info i).isChanged := by
    intro t m on hm
    rw [State.info, State.update, Attributes.info_update]
    split
    · simp [hm.symm, State.info]
    · rfl
  have hmarked : ((stopMarked setup offset op status s).info i).isChanged
      = (s.info i).isChanged :=
    (hput _ _ _ (by decide)).trans ((breakAsked_serves.bytes i).has (by decide))
  have hasked : ((bothAsked setup offset op first status s).2.info i).isChanged
      = (s.info i).isChanged :=
    Eq.trans ((callAsked_serves.bytes i).has (by decide)) hmarked
  rcases leave_cases setup offset op length first status next s with hl | ⟨_, hl⟩ | hl <;>
    rw [hl] at h ⊢
  · exact Or.inl (hmarked.symm.trans h)
  · exact Or.inl (hasked.symm.trans ((hput _ .noContinuePlugin true (by decide)).symm.trans h))
  · rcases fallThrough_changed setup offset length next _ h with hc | hc
    · exact Or.inl (hasked.symm.trans hc)
    · exact Or.inr hc

/-- **Without plugins, an instruction that continues reaches the next one**, unless that is data or
its address does not follow. -/
theorem leave_reaches (hpanel : s.panel = []) (hsize : s.attributes.size = setup.image.size)
    (hlength : 0 < length) (hgo : continues op status = true)
    (hfree : (s.info offset).marks.has .noContinuePlugin = false)
    (hend : offset + length < setup.image.size)
    (hblocked : isBlocked (s.info (offset + length)) = false)
    (haddress : (s.info (offset + length)).address = wrap32 ((s.info offset).address + length)) :
    let out := leave setup offset op length first status next s
    Reaches setup next (offset + length) (out.1.info (offset + length))
      ∧ ((out.1.info (offset + length)).isVisited = true ∨ out.2 = some (offset + length)) := by
  have hin : offset < s.attributes.size := by omega
  -- the mark goes off and nobody is asked, so control goes on from `marked`
  obtain ⟨marked, hmarked⟩ : ∃ marked : State ν σ,
      marked = s.update offset fun a => a.putMark .noContinue (!continues op status) := ⟨_, rfl⟩
  have hself : marked.info offset = (s.info offset).putMark .noContinue (!continues op status) := by
    rw [hmarked]
    exact State.info_update_self hin
  have hnext : marked.info (offset + length) = s.info (offset + length) := by
    rw [hmarked]
    exact State.info_update_ne (by omega)
  have hleave : leave setup offset op length first status next s
      = fallThrough setup offset length next marked := by
    have hfollows : ((marked.info offset).doesNotContinue
        || decide (setup.image.size ≤ offset + length)) = false := by
      rw [hself]
      simp [hgo, hfree, hend]
    rw [leave_eq, bothAsked_of_empty hpanel, stopMarked_of_empty hpanel, ← hmarked]
    dsimp only
    rw [hfollows]
    rfl
  have honward : onward setup offset length marked = offset + length := by
    refine skipInline_of_not ?_ _
    rw [← State.info, hnext]
    exact (Bool.or_eq_false_iff.mp hblocked).2
  have hcan : CanGoOn setup offset length marked := by
    refine ⟨?_, ?_, ?_⟩ <;> rw [honward]
    · exact hend
    · rw [hnext]
      exact (Bool.or_eq_false_iff.mp hblocked).1
    · rw [hnext, haddress, hself, Nat.add_sub_cancel_left]
      rfl
  have hreach := fallThrough_reaches setup offset length next marked hcan
    (by rw [hmarked, State.size_update]; exact hsize)
  rw [honward] at hreach
  rw [hleave]
  exact hreach

end Leave

end Disasm65.Flow
