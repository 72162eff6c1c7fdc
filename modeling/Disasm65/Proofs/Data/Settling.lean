/-
Nothing is left to be done where the walk over the targets has been.

At a byte that refers to the image the walk puts a reference to a label, which no longer refers to
the image and is as long as what was there (`RefersTo.settled`).  So another walk goes the same way
and comes to no reference (`resolveFrom_settles`), and such a walk changes nothing
(`resolveFrom_idle`).
-/
import Mathlib
import Disasm65.Proofs.Data.Greedy
import Disasm65.Proofs.Data.Resolution

namespace Disasm65.Data

variable {survey : Survey} {w u v : Workspace}

/-- The byte does not refer to the image. -/
def Idle (survey : Survey) (w : Workspace) (i : Nat) : Prop :=
  ∀ length target, ¬ RefersTo survey w i length target

/-- The walk comes from one byte to the other. -/
def Follows (attributes : Attributes) (offset i : Nat) : Prop :=
  ∃ n, (follow attributes)^[n] offset = i

theorem Follows.cases {attributes : Attributes} {offset i : Nat} (h : Follows attributes offset i) :
    i = offset ∨ Follows attributes (follow attributes offset) i := by
  obtain ⟨n, rfl⟩ := h
  cases n with
  | zero => exact Or.inl rfl
  | succ n => exact Or.inr ⟨n, rfl⟩

theorem Follows.le {attributes : Attributes} {offset i : Nat} (h : Follows attributes offset i) :
    offset ≤ i := by
  obtain ⟨n, rfl⟩ := h
  induction n generalizing offset with
  | zero => exact Nat.le_refl _
  | succ n ih => exact (Nat.le_of_lt (lt_follow attributes offset)).trans ih

theorem stride_le {a : Attribute} {i : Nat}
    (h : ∀ format, a.format = some format → i + format.length < 0x10000000000000000)
    (hi : i < 0x8000000000000000) : i + max (stride a) 1 < 0x10000000000000000 := by
  unfold stride
  split
  · omega
  · cases hformat : a.format with
    | none =>
        rw [Option.map_none, Option.getD_none]
        omega
    | some format =>
        have hlength := h format hformat
        rw [Option.map_some, Option.getD_some]
        omega

theorem stepOver_stride (hroomy : Roomy w.attributes) {i : Nat} (hi : i < 0x8000000000000000) :
    stepOver i (stride (w.info i)) = .ok (follow w.attributes i) :=
  addWords_of_lt (stride_le (hroomy i) hi)

/-- A walk that comes to no reference changes nothing.  There are steps for all the bytes that are
left and one more to see the end; an item may reach beyond it. -/
theorem resolveFrom_idle (hroomy : Roomy w.attributes)
    (hsize : w.attributes.size < 0x8000000000000000)
    (hidle : ∀ i, Reached w.attributes i → i < w.attributes.size → Idle survey w i) (fuel : Nat)
    {offset : Nat} (h : Reached w.attributes offset)
    (hfuel : w.attributes.size ≤ offset + fuel) :
    resolveFrom survey (fuel + 1) offset w = w.done := by
  induction fuel generalizing offset with
  | zero => exact resolveFrom_of_end (by omega) 0
  | succ fuel ih =>
      by_cases hlt : offset < w.attributes.size
      · have hnext := lt_follow w.attributes offset
        rcases resolveAt_eq survey hlt with ⟨length, target, hrefers, _⟩ | ⟨_, heq⟩
        · exact absurd hrefers (hidle offset h hlt length target)
        · rw [resolveFrom_of_done hlt heq (stepOver_stride hroomy (hlt.trans hsize))]
          exact ih h.next (by omega)
      · exact resolveFrom_of_end hlt _

theorem resolveTargets_of_idle (hroomy : Roomy w.attributes)
    (hsize : w.attributes.size < 0x8000000000000000)
    (hidle : ∀ i, Reached w.attributes i → i < w.attributes.size → Idle survey w i) :
    resolveTargets survey w = w.done :=
  resolveFrom_idle hroomy hsize hidle _ (reached_zero w.attributes) (by omega)

/-- A reference is a symbol of its own length. -/
theorem referTo_symbol {i length target : Nat} (hi : i < w.attributes.size)
    (h : referTo survey i length target w = v.done) :
    ∃ format : Format, (v.info i).format = some format ∧ format.detail = .symbol
      ∧ format.length = length ∧ length ≤ Format.maxNumberLength := by
  obtain ⟨label, u, format, hensure, hreference, rfl⟩ := referTo_eq_done h
  obtain ⟨⟨_, hlength⟩, heq⟩ := Format.reference_eq_ok hreference
  have hlt : i < u.attributes.size := (ensureLabel_retitles hensure).size.symm ▸ hi
  refine ⟨format, ?_, by rw [heq], by rw [heq], hlength⟩
  rw [info_workspace_update, if_pos ⟨rfl, hlt⟩]

/-- A reference that has been made is made no more, and the walk goes on from it as before. -/
theorem RefersTo.settled {i length target : Nat} (h : RefersTo survey w i length target)
    (hdone : referTo survey i length target w = v.done) :
    Idle survey v i ∧ stride (v.info i) = stride (w.info i)
      ∧ ∀ format, (v.info i).format = some format → format.length ≤ Format.maxNumberLength := by
  obtain ⟨format, hformat, hdetail, rfl, hlength⟩ := referTo_symbol h.lt_size hdone
  have hstart : (v.info i).isInstructionStart = (w.info i).isInstructionStart :=
    congrArg (·.has .instructionStart) ((referTo_retitles hdone).marks i)
  refine ⟨fun other place hrefers => ?_, ?_, fun other hother => ?_⟩
  · cases hrefers with
    | operand _ _ hnone _ => cases hformat.symm.trans hnone
    | item _ _ hsome htarget =>
        obtain rfl := Option.some.inj (hformat.symm.trans hsome)
        rw [itemTarget?, hdetail] at htarget
        simp at htarget
  · unfold stride
    rw [hstart, hformat]
    generalize hl : format.length = length at h
    cases h with
    | operand _ hs _ _ => rw [if_pos hs, if_pos hs]
    | item _ hs hsome _ => rw [hsome, Option.map_some, Option.map_some, hl]
  · obtain rfl := Option.some.inj (hformat.symm.trans hother)
    exact hlength

/-- Whether a byte refers to the image depends on its own format only. -/
theorem Idle.congr {i : Nat} (h : Idle survey w i) (hretitles : Retitles w.attributes u.attributes)
    (hformat : (u.info i).format = (w.info i).format) : Idle survey u i :=
  fun length target hrefers => h length target (hrefers.congr hretitles.symm hformat.symm)

theorem stride_congr {i : Nat} (hretitles : Retitles w.attributes u.attributes)
    (hformat : (u.info i).format = (w.info i).format) : stride (u.info i) = stride (w.info i) := by
  have hstart : (u.info i).isInstructionStart = (w.info i).isInstructionStart :=
    congrArg (·.has .instructionStart) (hretitles.marks i)
  unfold stride
  rw [hstart, hformat]

/-- What has become of `w` when the walk from `offset` has ended: the bytes that it came to refer to
the image no more, those before are as they were, and another walk would go the same way. -/
structure Settles (survey : Survey) (offset : Nat) (w v : Workspace) : Prop where
  retitles : Retitles w.attributes v.attributes
  behind : ∀ i < offset, (v.info i).format = (w.info i).format
  stride : ∀ i, stride (v.info i) = stride (w.info i)
  short : ∀ i format, (v.info i).format = some format →
    (w.info i).format = some format ∨ format.length ≤ Format.maxNumberLength
  idle : ∀ i, Follows v.attributes offset i → i < v.attributes.size → Idle survey v i

/-- Where the walk has come to the end, nothing is left to be done. -/
theorem Settles.of_le {offset : Nat} (h : w.attributes.size ≤ offset) :
    Settles survey offset w w := by
  refine ⟨.refl _, fun _ _ => rfl, fun _ => rfl, fun _ _ => Or.inl, fun i hfollows hi => ?_⟩
  have := hfollows.le
  omega

/-- References are short, so the items have room after as before. -/
theorem Roomy.of_short (h : Roomy w.attributes)
    (hsize : w.attributes.size < 0x8000000000000000)
    (hretitles : Retitles w.attributes u.attributes)
    (hshort : ∀ i format, (u.info i).format = some format →
      (w.info i).format = some format ∨ format.length ≤ Format.maxNumberLength) :
    Roomy u.attributes := by
  intro i format hformat
  rcases hshort i format hformat with hold | hnew
  · exact h i format hold
  · have hi : i < w.attributes.size := hretitles.size ▸ lt_size_of_format hformat
    have : Format.maxNumberLength = 4 := rfl
    omega

/-- What the walk does at one byte. -/
theorem resolveAt_settles {offset : Nat} (hlt : offset < w.attributes.size)
    (h : (resolveAt survey offset w).1 = u.done) :
    Idle survey u offset ∧ stride (u.info offset) = stride (w.info offset)
      ∧ Retitles w.attributes u.attributes
      ∧ (∀ i, i ≠ offset → (u.info i).format = (w.info i).format)
      ∧ ∀ i format, (u.info i).format = some format →
          (w.info i).format = some format ∨ format.length ≤ Format.maxNumberLength := by
  rcases resolveAt_eq survey hlt with ⟨length, target, hrefers, heq⟩ | ⟨hidle, heq⟩
  · rw [heq] at h
    obtain ⟨hidle, hstride, hshort⟩ := hrefers.settled h
    have hothers : ∀ i, i ≠ offset → (u.info i).format = (w.info i).format :=
      fun i hi => referTo_format_of_ne h hi
    refine ⟨hidle, hstride, referTo_retitles h, hothers, fun i format hformat => ?_⟩
    by_cases hi : i = offset
    · subst hi
      exact Or.inr (hshort format hformat)
    · exact Or.inl ((hothers i hi).symm.trans hformat)
  · rw [heq] at h
    obtain rfl := done_inj.mp h
    exact ⟨hidle, rfl, .refl _, fun _ _ => rfl, fun _ _ => Or.inl⟩

theorem resolveFrom_succ (hroomy : Roomy w.attributes) {fuel offset : Nat}
    (hlt : offset < w.attributes.size) (hword : offset < 0x8000000000000000)
    (h : resolveFrom survey (fuel + 1) offset w = v.done) :
    ∃ u, (resolveAt survey offset w).1 = u.done
      ∧ resolveFrom survey fuel (follow w.attributes offset) u = v.done := by
  have hlength : (resolveAt survey offset w).2 = stride (w.info offset) := by
    rcases resolveAt_eq survey hlt with ⟨_, _, _, heq⟩ | ⟨_, heq⟩ <;> rw [heq]
  rw [resolveFrom, if_pos hlt] at h
  dsimp only at h
  obtain ⟨u, hat, hon⟩ := andThen_eq_done.mp h
  obtain ⟨next, hnext, hrest⟩ := goOn_eq_done.mp hon
  rw [hlength, stepOver_stride hroomy hword] at hnext
  cases hnext
  exact ⟨u, hat, hrest⟩

/-- **The walk leaves nothing to be done on its way.** -/
theorem resolveFrom_settles (fuel : Nat) {offset : Nat} {w : Workspace}
    (hroomy : Roomy w.attributes) (hsize : w.attributes.size < 0x8000000000000000)
    (h : resolveFrom survey fuel offset w = v.done) : Settles survey offset w v := by
  induction fuel generalizing offset w with
  | zero => exact absurd h stop_ne_done
  | succ fuel ih =>
      by_cases hlt : offset < w.attributes.size
      · obtain ⟨u, hat, hrest⟩ := resolveFrom_succ hroomy hlt (hlt.trans hsize) h
        obtain ⟨hidle, hstride, hretitles, hothers, hshort⟩ := resolveAt_settles hlt hat
        have hnext := lt_follow w.attributes offset
        have hsettles := ih (hroomy.of_short hsize hretitles hshort) (hretitles.size.symm ▸ hsize)
          hrest
        have hown : (v.info offset).format = (u.info offset).format :=
          hsettles.behind offset hnext
        have hstrides : ∀ i, Data.stride (v.info i) = Data.stride (w.info i) := by
          intro i
          rw [hsettles.stride i]
          by_cases hi : i = offset
          · rw [hi, hstride]
          · exact stride_congr hretitles (hothers i hi)
        refine ⟨hretitles.trans hsettles.retitles, fun i hi => ?_, hstrides,
          fun i format hformat => ?_, fun i hfollows hi => ?_⟩
        · rw [hsettles.behind i (by omega), hothers i (by omega)]
        · rcases hsettles.short i format hformat with hold | hnew
          · exact hshort i format hold
          · exact Or.inr hnew
        · rcases hfollows.cases with rfl | hfollows
          · exact hidle.congr hsettles.retitles hown
          · refine hsettles.idle i ?_ hi
            have hsame : follow v.attributes offset = follow w.attributes offset :=
              congrArg (fun n => offset + max n 1) (hstrides offset)
            exact hsame ▸ hfollows
      · rw [resolveFrom_of_end hlt] at h
        obtain rfl := done_inj.mp h
        exact .of_le (Nat.le_of_not_lt hlt)

end Disasm65.Data
