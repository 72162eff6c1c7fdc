/-
What the parts of a visit do: asking plugins, following a branch, going on.

None of them touches a byte in any way but those of `Evolves`; for a whole array that is
`Develops`.  Beyond that, a branch and the way on each reach one byte: it gets the status, and it
is put on the list, is where to go on, or has been visited and learns nothing.
-/
import Mathlib
import Disasm65.Proofs.Flow.Byte

namespace Disasm65.Flow

open StatusFlags

variable {ν σ : Type} {setup : Setup} {plugins : Prop}

/-- Every byte has evolved. -/
structure Develops (setup : Setup) (plugins : Prop) (attributes attributes' : Attributes) :
    Prop where
  size : attributes'.size = attributes.size
  bytes : ∀ i, Evolves setup plugins i (attributes.info i) (attributes'.info i)

namespace Develops

theorem refl (attributes : Attributes) : Develops setup plugins attributes attributes :=
  ⟨rfl, fun _ => .refl⟩

end Develops

/-! ### Plugins -/

/-- Plugins have been asked about some bytes. -/
structure ServedAll (attributes attributes' : Attributes) : Prop where
  size : attributes'.size = attributes.size
  bytes : ∀ i, Served (attributes.info i) (attributes'.info i)

namespace ServedAll

theorem refl (attributes : Attributes) : ServedAll attributes attributes :=
  ⟨rfl, fun _ => .refl⟩

theorem trans {a b c : Attributes} (hab : ServedAll a b) (hbc : ServedAll b c) : ServedAll a c :=
  ⟨hbc.size.trans hab.size, fun i => (hab.bytes i).trans (hbc.bytes i)⟩

theorem develops {a b : Attributes} (h : ServedAll a b) (hp : plugins) :
    Develops setup plugins a b :=
  ⟨h.size, fun i => .serve hp (h.bytes i) .refl⟩

theorem format (attributes : Attributes) (offset : Nat) (format : Format) :
    ServedAll attributes (attributes.update offset fun a => { a with format := some format }) := by
  refine ⟨Attributes.size_update .., fun i => ?_⟩
  rw [Attributes.info_update]
  split
  · exact .format format .refl
  · exact .refl

theorem inline {attributes : Attributes} {offset length : Nat}
    (h : ∀ i, offset ≤ i → i < offset + length → (attributes.info i).isInstruction = false) :
    ServedAll attributes
      (attributes.updateRange offset length fun a => a.mark .inlineData) := by
  refine ⟨Attributes.size_updateRange .., fun i => ?_⟩
  rw [Attributes.info_updateRange]
  split
  · rename_i hi
    exact .inline (h i hi.1.1 hi.1.2) .refl
  · exact .refl

end ServedAll

theorem serveOperand_serves (attributes : Attributes) (offset : Nat) (detail : FormatDetail)
    (label : String) :
    ServedAll attributes (serveOperand setup attributes offset detail label).2 := by
  unfold serveOperand
  split
  · exact .refl _
  · exact .refl _
  · exact .format attributes offset _

/-- A claim of inline data is carried out only if no byte of it is part of an instruction. -/
theorem isInstruction_of_decideInline {attributes : Attributes} {offset length : Nat}
    {kind : FormatKind} {detail : FormatDetail} {label : String} {format : Format}
    (h : decideInline setup attributes offset length kind detail label = .ok (some format))
    {i : Nat} (hlow : offset ≤ i) (hhigh : i < offset + length) :
    (attributes.info i).isInstruction = false := by
  have hall : (List.range' offset length).all (isClaimable setup attributes) = true := by
    by_contra hc
    rw [Bool.not_eq_true] at hc
    unfold decideInline at h
    split at h
    · cases h
    · rw [hc, Bool.not_false, Bool.or_true, if_pos rfl] at h
      cases h
  have hi := List.all_eq_true.mp hall i (List.mem_range'_1.mpr ⟨hlow, hhigh⟩)
  unfold isClaimable at hi
  simpa using (Bool.and_eq_true_iff.mp hi).2

theorem serveInline_serves (attributes : Attributes) (offset length : Nat)
    (kind : FormatKind) (detail : FormatDetail) (label : String) :
    ServedAll attributes (serveInline setup attributes offset length kind detail label).2 := by
  unfold serveInline
  split
  · exact .refl _
  · exact .refl _
  · rename_i format hdecide
    have hformat := ServedAll.format attributes offset format
    refine hformat.trans (.inline fun i hlow hhigh => ?_)
    exact ((hformat.bytes i).has (by decide)).trans
      (isInstruction_of_decideInline hdecide hlow hhigh)

theorem consult_serves (consultation : Consultation ν σ) :
    ∀ (attributes : Attributes) (journal : Array ν),
      ServedAll attributes (consult setup attributes journal consultation).attributes := by
  induction consultation with
  | vote _ _ | fail _ => intro attributes journal; exact .refl _
  | note _ _ ih => intro attributes journal; exact ih attributes _
  | peek _ _ ih => intro attributes journal; exact ih _ _ attributes journal
  | formatOperand offset detail label _ ih =>
      intro attributes journal
      exact (serveOperand_serves attributes offset detail label).trans (ih _ _ journal)
  | claimInline offset length kind detail label _ ih =>
      intro attributes journal
      exact (serveInline_serves attributes offset length kind detail label).trans (ih _ _ journal)

theorem poll_serves (site : CallSite) (panel : List (Plugin ν σ)) :
    ∀ (stops : Bool) (attributes : Attributes) (journal : Array ν),
      ServedAll attributes (poll setup site stops attributes journal panel).attributes := by
  induction panel with
  | nil => intro stops attributes journal; exact .refl _
  | cons plugin others ih =>
      intro stops attributes journal
      unfold poll
      split
      · exact (consult_serves _ attributes journal).trans (ih _ _ _)
      · exact ih _ _ _

section Asking

variable (op : Opcode) (offset : Nat) (stops : Bool) {s : State ν σ}

/-- With no plugin to ask, asking changes nothing. -/
theorem askPlugins_of_empty (h : s.panel = []) :
    askPlugins setup op offset stops s = (stops, s) := by
  obtain ⟨attributes, pending, panel, journal⟩ := s
  cases h
  unfold askPlugins
  split <;> rfl

theorem askPlugins_pending : (askPlugins setup op offset stops s).2.pending = s.pending := by
  unfold askPlugins
  split <;> rfl

theorem askPlugins_serves :
    ServedAll s.attributes (askPlugins setup op offset stops s).2.attributes := by
  unfold askPlugins
  split
  · exact poll_serves _ _ _ _ _
  · exact .refl _

end Asking

/-! ### Branches -/

section Branch

variable (setup) (target : Nat) (incoming : StatusFlags) (s : State ν σ)

theorem followBranch_of_blocked (h : isBlocked (s.info target) = true) :
    followBranch setup target incoming s = s := by
  simp [followBranch, h]

/-- The change that a branch makes to its target, `before` being the target as it was. -/
def branchChange (before : Attribute) (a : Attribute) : Attribute :=
  let status := setup.arrive target before.status incoming
  let a := { a.mark .branchTarget with status := status }
  if before.isVisited && status != before.status then a.mark .changed else a

theorem branchChange_self (a : Attribute) :
    branchChange setup target incoming a a
      = handByte setup target incoming (a.mark .branchTarget) := by
  simp [branchChange, handByte]

/-- The target has to be visited, because nobody has or because it learns something. -/
def needsVisit (a : Attribute) : Bool :=
  !a.isVisited || setup.arrive target a.status incoming != a.status

theorem followBranch_of_unblocked (h : isBlocked (s.info target) = false) :
    followBranch setup target incoming s
      = if needsVisit setup target incoming (s.info target) && !s.pending.contains target then
          { s.update target (branchChange setup target incoming (s.info target)) with
            pending := target :: s.pending }
        else s.update target (branchChange setup target incoming (s.info target)) := by
  unfold followBranch
  rw [if_neg (by simp [h])]
  rfl

/-- A branch hands its status to the target, if that can be branched to, and to no other byte. -/
theorem info_followBranch (h : isBlocked (s.info target) = false) (i : Nat) :
    (followBranch setup target incoming s).info i
      = if target = i ∧ i < s.attributes.size then
          handByte setup i incoming ((s.info i).mark .branchTarget)
        else s.info i := by
  have hattributes : (followBranch setup target incoming s).attributes
      = s.attributes.update target (branchChange setup target incoming (s.info target)) := by
    rw [followBranch_of_unblocked setup target incoming s h]
    split <;> rfl
  rw [State.info, hattributes, Attributes.info_update]
  split
  · rename_i hi
    obtain ⟨rfl, -⟩ := hi
    exact branchChange_self setup target incoming _
  · rfl

theorem followBranch_develops :
    Develops setup plugins s.attributes (followBranch setup target incoming s).attributes := by
  by_cases hb : isBlocked (s.info target) = true
  · rw [followBranch_of_blocked setup target incoming s hb]
    exact .refl _
  · rw [Bool.not_eq_true] at hb
    refine ⟨?_, fun i => ?_⟩
    · rw [followBranch_of_unblocked setup target incoming s hb]
      split <;> exact Attributes.size_update ..
    · have hi := info_followBranch setup target incoming s hb i
      rw [State.info, State.info] at hi
      rw [hi]
      split
      · exact .hand _ (.target .refl)
      · exact .refl

theorem followBranch_panel : (followBranch setup target incoming s).panel = s.panel := by
  by_cases hb : isBlocked (s.info target) = true
  · rw [followBranch_of_blocked setup target incoming s hb]
  · rw [Bool.not_eq_true] at hb
    rw [followBranch_of_unblocked setup target incoming s hb]
    split <;> rfl

/-- A branch puts its target on the list, if that can be branched to, or leaves the list alone. -/
theorem followBranch_pending :
    (followBranch setup target incoming s).pending = s.pending
      ∨ isBlocked (s.info target) = false
        ∧ (followBranch setup target incoming s).pending = target :: s.pending := by
  by_cases hb : isBlocked (s.info target) = true
  · rw [followBranch_of_blocked setup target incoming s hb]
    exact Or.inl rfl
  · rw [Bool.not_eq_true] at hb
    rw [followBranch_of_unblocked setup target incoming s hb]
    split
    · exact Or.inr ⟨hb, rfl⟩
    · exact Or.inl rfl

/-- A target that has to be visited is on the list. -/
theorem followBranch_listed (h : isBlocked (s.info target) = false)
    (hneed : needsVisit setup target incoming (s.info target) = true) :
    target ∈ (followBranch setup target incoming s).pending := by
  rw [followBranch_of_unblocked setup target incoming s h, hneed, Bool.true_and]
  split
  · exact List.mem_cons_self
  · rename_i hc
    have hmem : target ∈ s.pending := by simpa using hc
    exact hmem

/-- A branch leaves every byte that it marks as changed on the list. -/
theorem followBranch_changed {i : Nat}
    (h : ((followBranch setup target incoming s).info i).isChanged = true) :
    (s.info i).isChanged = true ∨ i ∈ (followBranch setup target incoming s).pending := by
  by_cases hb : isBlocked (s.info target) = true
  · rw [followBranch_of_blocked setup target incoming s hb] at h
    exact Or.inl h
  rw [Bool.not_eq_true] at hb
  rw [info_followBranch setup target incoming s hb] at h
  split at h
  · rename_i hi
    obtain ⟨rfl, -⟩ := hi
    by_cases hneed : needsVisit setup target incoming (s.info target) = true
    · exact Or.inr (followBranch_listed setup target incoming s hb hneed)
    · refine Or.inl ?_
      simp_all [needsVisit]
  · exact Or.inl h

/-- What is data after a branch has not been touched by it. -/
theorem followBranch_of_data {i : Nat}
    (h : ((followBranch setup target incoming s).info i).isData = true) :
    (followBranch setup target incoming s).info i = s.info i := by
  by_cases hb : isBlocked (s.info target) = true
  · rw [followBranch_of_blocked setup target incoming s hb]
  rw [Bool.not_eq_true] at hb
  rw [info_followBranch setup target incoming s hb] at h ⊢
  split at h
  · rename_i hi
    obtain ⟨rfl, -⟩ := hi
    rw [isBlocked, show (s.info target).isData = true by simpa using h] at hb
    cases hb
  · rename_i hi
    rw [if_neg hi]

/-- What a branch leaves at its target. -/
structure Reaches (setup : Setup) (incoming : StatusFlags) (i : Nat) (a : Attribute) : Prop where
  obeys : Obeys a.status (setup.overrideAt i)
  learnt : WithinOff (setup.overrideAt i) incoming a.status

theorem Reaches.evolves {setup : Setup} {incoming : StatusFlags} {i : Nat} {a b : Attribute}
    (h : Reaches setup incoming i a)
    (hab : Evolves setup plugins i a b) : Reaches setup incoming i b :=
  ⟨hab.obeys h.obeys, h.learnt.trans hab.withinOff⟩

theorem reaches_handByte (i : Nat) (a : Attribute) :
    Reaches setup incoming i (handByte setup i incoming a) := by
  refine ⟨?_, ?_⟩ <;> rw [handByte_status]
  · exact setup.arrive_obeys _ _ _
  · exact setup.incoming_withinOff_arrive _ _ _

/-- **A target that is not blocked is reached.** -/
theorem followBranch_reaches (h : isBlocked (s.info target) = false)
    (hsize : target < s.attributes.size) :
    let s' := followBranch setup target incoming s
    Reaches setup incoming target (s'.info target) ∧ (s'.info target).isBranchTarget = true
      ∧ ((s'.info target).isVisited = true ∨ target ∈ s'.pending) := by
  have hinfo : (followBranch setup target incoming s).info target
      = handByte setup target incoming ((s.info target).mark .branchTarget) := by
    rw [info_followBranch setup target incoming s h, if_pos ⟨rfl, hsize⟩]
  refine ⟨?_, ?_, ?_⟩
  · rw [hinfo]
    exact reaches_handByte setup incoming target _
  · rw [hinfo]
    simp
  · by_cases hv : (s.info target).isVisited = true
    · left
      rw [hinfo]
      simpa using hv
    · right
      refine followBranch_listed setup target incoming s h ?_
      simp_all [needsVisit]

end Branch

/-! ### Going on -/

theorem le_skipInline (attributes : Attributes) :
    ∀ count offset : Nat, offset ≤ skipInline attributes count offset := by
  intro count
  induction count with
  | zero => intro offset; exact Nat.le_refl _
  | succ count ih =>
      intro offset
      unfold skipInline
      split
      · exact Nat.le_trans (Nat.le_succ offset) (ih (offset + 1))
      · exact Nat.le_refl _

theorem skipInline_of_not {attributes : Attributes} {offset : Nat}
    (h : (attributes.info offset).isInlineData = false) (count : Nat) :
    skipInline attributes count offset = offset := by
  cases count with
  | zero => rfl
  | succ count =>
      unfold skipInline
      rw [if_neg (by rw [h]; decide)]

/-- What is skipped is inline data. -/
theorem inlineData_of_lt_skipInline (attributes : Attributes) :
    ∀ count offset i : Nat, offset ≤ i → i < skipInline attributes count offset →
      (attributes.info i).isInlineData = true := by
  intro count
  induction count with
  | zero =>
      intro offset i hlow hhigh
      exact absurd hhigh (Nat.not_lt.mpr hlow)
  | succ count ih =>
      intro offset i hlow hhigh
      unfold skipInline at hhigh
      split at hhigh
      · rename_i hinline
        rcases Nat.eq_or_lt_of_le hlow with rfl | hlow
        · exact hinline
        · exact ih (offset + 1) i hlow hhigh
      · exact absurd hhigh (Nat.not_lt.mpr hlow)

section Onward

variable (setup) (offset length : Nat) (incoming : StatusFlags) (s : State ν σ)

/-- Where the instruction after the one at `offset` is expected. -/
def onward : Nat :=
  skipInline s.attributes (setup.image.size - (offset + length)) (offset + length)

/-- There is a byte there, it is not data, and its address follows. -/
def CanGoOn : Prop :=
  onward setup offset length s < setup.image.size
    ∧ (s.info (onward setup offset length s)).isData = false
    ∧ (s.info (onward setup offset length s)).address
        = wrap32 ((s.info offset).address + (onward setup offset length s - offset))

/-- The change that going on makes to the next byte, `before` being that byte as it was. -/
def onwardChange (next : Nat) (before : Attribute) (a : Attribute) : Attribute :=
  let status := setup.arrive next before.status incoming
  let a := { a with status := status }
  if before.isVisited && !before.isChanged && status != before.status then a.mark .changed else a

theorem onwardChange_self (next : Nat) (a : Attribute) :
    onwardChange setup incoming next a a = handByte setup next incoming a := by
  unfold onwardChange handByte
  dsimp only
  by_cases hc : a.isChanged = true
  · -- the mark is on already
    have hmarks : a.marks.insert .changed = a.marks := Marks.insert_of_has hc
    rw [hc, Bool.not_true, Bool.and_false, Bool.false_and, if_neg (by decide)]
    split
    · simp [hmarks]
    · rfl
  · rw [Bool.not_eq_true] at hc
    rw [hc, Bool.not_false, Bool.and_true]

theorem fallThrough_of_not (h : ¬ CanGoOn setup offset length s) :
    fallThrough setup offset length incoming s = (s, none) := by
  unfold fallThrough
  refine if_pos ?_
  by_contra hc
  refine h ?_
  simpa [CanGoOn, onward, and_assoc] using hc

theorem fallThrough_of_canGoOn (h : CanGoOn setup offset length s) :
    let next := onward setup offset length s
    fallThrough setup offset length incoming s
      = (s.update next (onwardChange setup incoming next (s.info next)),
          if (s.info next).isVisited && !(s.info next).isChanged
              && !(setup.arrive next (s.info next).status incoming != (s.info next).status)
            then none else some next) := by
  unfold fallThrough
  refine if_neg ?_
  obtain ⟨hsize, hdata, haddress⟩ := h
  simp only [onward] at hsize hdata haddress
  simpa [hsize, haddress] using hdata

/-- Going on hands the status to the next byte and to no other. -/
theorem info_fallThrough (h : CanGoOn setup offset length s) (i : Nat) :
    (fallThrough setup offset length incoming s).1.info i
      = if onward setup offset length s = i ∧ i < s.attributes.size then
          handByte setup i incoming (s.info i)
        else s.info i := by
  have hattributes : (fallThrough setup offset length incoming s).1.attributes
      = s.attributes.update (onward setup offset length s)
          (onwardChange setup incoming (onward setup offset length s)
            (s.info (onward setup offset length s))) := by
    rw [fallThrough_of_canGoOn setup offset length incoming s h]
    rfl
  rw [State.info, hattributes, Attributes.info_update]
  split
  · rename_i hi
    obtain ⟨rfl, -⟩ := hi
    exact onwardChange_self setup incoming _ _
  · rfl

theorem fallThrough_develops :
    Develops setup plugins s.attributes
      (fallThrough setup offset length incoming s).1.attributes := by
  by_cases h : CanGoOn setup offset length s
  · refine ⟨?_, fun i => ?_⟩
    · rw [fallThrough_of_canGoOn setup offset length incoming s h]
      exact Attributes.size_update ..
    · have hi := info_fallThrough setup offset length incoming s h i
      rw [State.info, State.info] at hi
      rw [hi]
      split
      · exact .hand _ .refl
      · exact .refl
  · rw [fallThrough_of_not setup offset length incoming s h]
    exact .refl _

theorem fallThrough_pending :
    (fallThrough setup offset length incoming s).1.pending = s.pending := by
  by_cases h : CanGoOn setup offset length s
  · rw [fallThrough_of_canGoOn setup offset length incoming s h]
    rfl
  · rw [fallThrough_of_not setup offset length incoming s h]

theorem fallThrough_panel : (fallThrough setup offset length incoming s).1.panel = s.panel := by
  by_cases h : CanGoOn setup offset length s
  · rw [fallThrough_of_canGoOn setup offset length incoming s h]
    rfl
  · rw [fallThrough_of_not setup offset length incoming s h]

/-- What is data after going on has not been touched by it. -/
theorem fallThrough_of_data {i : Nat}
    (h : ((fallThrough setup offset length incoming s).1.info i).isData = true) :
    (fallThrough setup offset length incoming s).1.info i = s.info i := by
  by_cases hc : CanGoOn setup offset length s
  · rw [info_fallThrough setup offset length incoming s hc] at h ⊢
    split at h
    · rename_i hi
      obtain ⟨rfl, -⟩ := hi
      have hdata := hc.2.1
      rw [show (s.info (onward setup offset length s)).isData = true by simpa using h] at hdata
      cases hdata
    · rename_i hi
      rw [if_neg hi]
  · rw [fallThrough_of_not setup offset length incoming s hc]

/-- **Where control can go on, the next byte is reached.** -/
theorem fallThrough_reaches (h : CanGoOn setup offset length s)
    (hsize : s.attributes.size = setup.image.size) :
    let next := onward setup offset length s
    let out := fallThrough setup offset length incoming s
    Reaches setup incoming next (out.1.info next)
      ∧ ((out.1.info next).isVisited = true ∨ out.2 = some next) := by
  have hinfo := info_fallThrough setup offset length incoming s h (onward setup offset length s)
  rw [if_pos ⟨rfl, by rw [hsize]; exact h.1⟩] at hinfo
  refine ⟨?_, ?_⟩
  · rw [hinfo]
    exact reaches_handByte setup incoming _ _
  · by_cases hv : (s.info (onward setup offset length s)).isVisited = true
    · left
      rw [hinfo]
      simpa using hv
    · right
      rw [Bool.not_eq_true] at hv
      rw [fallThrough_of_canGoOn setup offset length incoming s h, hv]
      rfl

/-- Control goes on nowhere else. -/
theorem fallThrough_next {next : Nat}
    (h : (fallThrough setup offset length incoming s).2 = some next) :
    CanGoOn setup offset length s ∧ next = onward setup offset length s := by
  by_cases hc : CanGoOn setup offset length s
  · refine ⟨hc, ?_⟩
    rw [fallThrough_of_canGoOn setup offset length incoming s hc] at h
    dsimp only at h
    split at h
    · cases h
    · exact (Option.some.inj h).symm
  · rw [fallThrough_of_not setup offset length incoming s hc] at h
    cases h

/-- A byte that going on marks as changed is where it goes on. -/
theorem fallThrough_changed {i : Nat}
    (h : ((fallThrough setup offset length incoming s).1.info i).isChanged = true) :
    (s.info i).isChanged = true ∨ (fallThrough setup offset length incoming s).2 = some i := by
  by_cases hc : CanGoOn setup offset length s
  · rw [info_fallThrough setup offset length incoming s hc] at h
    split at h
    · rename_i hi
      obtain ⟨rfl, -⟩ := hi
      by_cases hchanged : (s.info (onward setup offset length s)).isChanged = true
      · exact Or.inl hchanged
      · refine Or.inr ?_
        rw [fallThrough_of_canGoOn setup offset length incoming s hc]
        refine if_neg ?_
        simp_all
    · exact Or.inl h
  · rw [fallThrough_of_not setup offset length incoming s hc] at h
    exact Or.inl h

end Onward

end Disasm65.Flow
