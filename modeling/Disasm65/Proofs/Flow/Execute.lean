/-
What an execution does.

An execution decodes the instruction, follows its branch and leaves it.  What that does to the
instruction's own byte, to the branch target and to the next instruction is `Executes`; to every
other byte it does only what `Evolves` lists.
-/
import Mathlib
import Disasm65.Proofs.Flow.Leave

namespace Disasm65.Flow

open StatusFlags

variable {ν σ : Type} {plugins : Prop}

/-- A byte at the start of a visit. -/
def visitByte (a : Attribute) : Attribute := (a.mark .visited).unmark .changed

/-- The branch is followed, unless it is never taken. -/
def branched (setup : Setup) (op : Opcode) (status : StatusFlags) (target : Option Nat)
    (taken : StatusFlags) (s : State ν σ) : State ν σ :=
  match if recordedVerdict? op status = some .never then none else target with
  | some target => followBranch setup target taken s
  | none => s

theorem execute_eq (setup : Setup) (offset : Nat) (op : Opcode) (length : Nat) (first : Bool)
    (status : StatusFlags) (s : State ν σ) :
    execute setup offset op length first status s
      = (let after := statusAfter setup (claimed offset length s).attributes offset op status
         let target := branchTarget? op ((resolved setup offset op length first s).info offset)
         leave setup offset op length first status after.next
           (branched setup op status target after.taken
             (decoded setup offset op length first status s))) := by
  rfl

/-! ### The branch -/

section Branch

variable (setup : Setup) (op : Opcode) (status : StatusFlags) (target : Option Nat)
variable (taken : StatusFlags) (s : State ν σ)

/-- A branch is followed or it is not. -/
theorem branched_cases :
    branched setup op status target taken s = s
      ∨ ∃ t, target = some t
        ∧ branched setup op status target taken s = followBranch setup t taken s := by
  unfold branched
  split
  · rename_i t ht
    split at ht
    · cases ht
    · exact Or.inr ⟨t, ht, rfl⟩
  · exact Or.inl rfl

theorem branched_of_some {t : Nat} (hverdict : recordedVerdict? op status ≠ some .never) :
    branched setup op status (some t) taken s = followBranch setup t taken s := by
  unfold branched
  rw [if_neg hverdict]

theorem branched_develops :
    Develops setup plugins s.attributes (branched setup op status target taken s).attributes := by
  rcases branched_cases setup op status target taken s with h | ⟨t, _, h⟩ <;> rw [h]
  · exact .refl _
  · exact followBranch_develops setup t taken s

theorem size_branched :
    (branched setup op status target taken s).attributes.size = s.attributes.size := by
  have hb : Develops setup True s.attributes (branched setup op status target taken s).attributes :=
    branched_develops setup op status target taken s
  exact hb.size

theorem branched_panel : (branched setup op status target taken s).panel = s.panel := by
  rcases branched_cases setup op status target taken s with h | ⟨t, _, h⟩ <;> rw [h]
  exact followBranch_panel setup t taken s

theorem branched_changed {i : Nat}
    (h : ((branched setup op status target taken s).info i).isChanged = true) :
    (s.info i).isChanged = true ∨ i ∈ (branched setup op status target taken s).pending := by
  rcases branched_cases setup op status target taken s with hb | ⟨t, _, hb⟩ <;> rw [hb] at h ⊢
  · exact Or.inl h
  · exact followBranch_changed setup t taken s h

theorem branched_of_data {i : Nat}
    (h : ((branched setup op status target taken s).info i).isData = true) :
    (branched setup op status target taken s).info i = s.info i := by
  rcases branched_cases setup op status target taken s with hb | ⟨t, _, hb⟩ <;> rw [hb] at h ⊢
  exact followBranch_of_data setup t taken s h

/-- A target that is put on the list has been handed a status. -/
theorem branched_pending :
    (branched setup op status target taken s).pending = s.pending
      ∨ ∃ t, target = some t ∧ (branched setup op status target taken s).pending = t :: s.pending
        ∧ (t < s.attributes.size →
          Reaches setup taken t ((branched setup op status target taken s).info t)) := by
  rcases branched_cases setup op status target taken s with hb | ⟨t, ht, hb⟩ <;> rw [hb]
  · exact Or.inl rfl
  · rcases followBranch_pending setup t taken s with hp | ⟨hblocked, hp⟩
    · exact Or.inl hp
    · exact Or.inr ⟨t, ht, hp, fun hsize =>
        (followBranch_reaches setup t taken s hblocked hsize).1⟩

end Branch

/-! ### The status after a visit -/

/-- The byte is a PHP that has been visited. -/
def isPushAt (setup : Setup) (attributes : Attributes) (i : Nat) : Bool :=
  (attributes.info i).isInstructionStart && (attributes.info i).isVisited
    && (setup.opcodeAt i).isPhp

section Pull

variable {setup setup' : Setup} {attributes attributes' : Attributes} {offset : Nat}
  (hparameters : setup'.parameters = setup.parameters)

include hparameters

/-- The match of a PLP depends on which bytes before it are visited PHPs. -/
theorem matchingPhp?_congr
    (h : ∀ i < offset, isPushAt setup' attributes' i = isPushAt setup attributes i) :
    matchingPhp? setup' attributes' offset = matchingPhp? setup attributes offset := by
  have hsearch : ∀ count limit, limit ≤ offset → count ≤ limit →
      matchingPhp?.search setup' attributes' count limit
        = matchingPhp?.search setup attributes count limit := by
    intro count
    induction count with
    | zero => intro limit _ _; rfl
    | succ count ih =>
        intro limit hlimit hcount
        have hpush := h (limit - 1) (by omega)
        unfold isPushAt at hpush
        unfold matchingPhp?.search
        dsimp only
        rw [hpush, ih (limit - 1) (by omega) (by omega)]
  unfold matchingPhp?
  rw [hparameters]
  exact hsearch _ offset (Nat.le_refl _) (Nat.min_le_left _ _)

theorem pulledStatus_congr (hprocessor : setup'.processor = setup.processor)
    (hcurrent : (attributes'.info offset).status = (attributes.info offset).status)
    (hpushed : (matchingPhp? setup' attributes' offset).map (fun i => (attributes'.info i).status)
      = (matchingPhp? setup attributes offset).map fun i => (attributes.info i).status) :
    pulledStatus setup' attributes' offset = pulledStatus setup attributes offset := by
  unfold pulledStatus
  rw [hparameters, hprocessor, hcurrent]
  cases hother : matchingPhp? setup' attributes' offset <;>
    cases hmatch : matchingPhp? setup attributes offset <;>
    simp_all

end Pull

theorem statusAfter_of_not_plp {setup : Setup} {op : Opcode} (h : op.isPlp = false)
    (attributes : Attributes) (offset : Nat) (status : StatusFlags) :
    statusAfter setup attributes offset op status = op.transition status setup.image offset := by
  unfold statusAfter
  rw [if_neg (by rw [h]; decide)]

section After

variable (setup : Setup) (offset : Nat) (s : State ν σ)

/-- The transition of the status that a visit works out. -/
def afterVisit : Transition :=
  let op := setup.opcodeAt offset
  let status := (s.info offset).status
  statusAfter setup (claimed offset (op.length status) (s.update offset visitByte)).attributes
    offset op status

theorem afterVisit_of_not_plp (h : (setup.opcodeAt offset).isPlp = false) :
    afterVisit setup offset s
      = (setup.opcodeAt offset).transition (s.info offset).status setup.image offset :=
  statusAfter_of_not_plp h _ _ _

/-- That the PLP is being decoded makes no difference to what it pulls. -/
theorem afterVisit_of_plp (h : (setup.opcodeAt offset).isPlp = true) :
    afterVisit setup offset s
      = ⟨pulledStatus setup s.attributes offset, pulledStatus setup s.attributes offset⟩ := by
  let t := claimed offset ((setup.opcodeAt offset).length (s.info offset).status)
    (s.update offset visitByte)
  have hbefore : ∀ i < offset, t.info i = s.info i := by
    intro i hi
    refine (info_claimed (by omega)).trans ?_
    rw [if_neg (by omega), State.info_update_ne (by omega)]
  have hstatus : ∀ i, (t.attributes.info i).status = (s.attributes.info i).status := by
    intro i
    refine (claimed_status i).trans ?_
    rw [State.info, State.update, Attributes.info_update]
    split <;> rfl
  have hmatch : matchingPhp? setup t.attributes offset = matchingPhp? setup s.attributes offset :=
    matchingPhp?_congr rfl fun i hi => by
      unfold isPushAt
      rw [← State.info, hbefore i hi, State.info]
  have hpulled : pulledStatus setup t.attributes offset = pulledStatus setup s.attributes offset :=
    pulledStatus_congr rfl rfl (hstatus offset) (by rw [hmatch]; simp only [hstatus])
  unfold afterVisit statusAfter
  dsimp only
  rw [if_pos h, hpulled]

end After

/-! ### An execution -/

/-- The attribute of the instruction at `offset` once a visit has decoded it, `a` being the
attribute before the visit. -/
def decodedByte (setup : Setup) (offset : Nat) (a : Attribute) : Attribute :=
  let op := setup.opcodeAt offset
  decodeByte setup offset op (op.length a.status) (!a.isVisited) a.status (visitByte a)

/-- What the execution of the instruction at `offset` does. -/
structure Executes (setup : Setup) (plugins : Prop) (offset : Nat) (s : State ν σ)
    (out : State ν σ × Option Nat) : Prop where
  size : out.1.attributes.size = s.attributes.size
  panel : s.panel = [] → out.1.panel = []
  others : ∀ i, i ≠ offset → Evolves setup plugins i (s.info i) (out.1.info i)
  /-- what is data afterwards has not been touched -/
  data : ∀ i, s.panel = [] → i ≠ offset → (out.1.info i).isData = true → out.1.info i = s.info i
  own : ∃ stops,
    (s.panel = [] → stops = !continues (setup.opcodeAt offset) (s.info offset).status)
      ∧ Finishes setup plugins offset stops (decodedByte setup offset (s.info offset))
          (out.1.info offset)
  /-- the bytes of the instruction are code -/
  code : ∀ i, s.panel = [] →
    offset + (setup.opcodeAt offset).length (s.info offset).status ≤ setup.image.size →
    offset ≤ i → i < offset + (setup.opcodeAt offset).length (s.info offset).status →
    (out.1.info i).isInstruction = true ∧ isBlocked (out.1.info i) = false
  /-- at most the branch target is put on the list -/
  pending : out.1.pending = s.pending
    ∨ ∃ t, branchTarget? (setup.opcodeAt offset) (decodedByte setup offset (s.info offset)) = some t
      ∧ out.1.pending = t :: s.pending
      ∧ (t < s.attributes.size → Obeys (out.1.info t).status (setup.overrideAt t))
  next : ∀ n, out.2 = some n →
    n < setup.image.size ∧ Obeys (out.1.info n).status (setup.overrideAt n)
  /-- control passes over nothing but inline data -/
  onward : ∀ n, s.panel = [] → out.2 = some n →
    continues (setup.opcodeAt offset) (s.info offset).status = true
      ∧ offset + (setup.opcodeAt offset).length (s.info offset).status ≤ n
      ∧ ∀ i, offset + (setup.opcodeAt offset).length (s.info offset).status ≤ i → i < n →
          (s.info i).isInlineData = true
  changed : ∀ i, (out.1.info i).isChanged = true →
    (i ≠ offset ∧ (s.info i).isChanged = true) ∨ i ∈ out.1.pending ∨ out.2 = some i
  /-- a branch that can be taken reaches its target -/
  branch : ∀ t, recordedVerdict? (setup.opcodeAt offset) (s.info offset).status ≠ some .never →
    branchTarget? (setup.opcodeAt offset) (decodedByte setup offset (s.info offset)) = some t →
    t < s.attributes.size → isBlocked (s.info t) = false →
    Reaches setup (afterVisit setup offset s).taken t (out.1.info t)
      ∧ (out.1.info t).isBranchTarget = true
      ∧ ((out.1.info t).isVisited = true ∨ t ∈ out.1.pending)
  /-- an instruction that continues reaches the next one -/
  fall : ∀ n, n = offset + (setup.opcodeAt offset).length (s.info offset).status →
    s.panel = [] → continues (setup.opcodeAt offset) (s.info offset).status = true →
    (s.info offset).marks.has .noContinuePlugin = false →
    n < setup.image.size → isBlocked (s.info n) = false →
    (s.info n).address = wrap32 ((s.info offset).address + (n - offset)) →
    Reaches setup (afterVisit setup offset s).next n (out.1.info n)
      ∧ ((out.1.info n).isVisited = true ∨ out.2 = some n)

section Execution

variable (setup : Setup) (offset : Nat) (s : State ν σ)

/-- The instruction is decoded. -/
def decodedAt : State ν σ :=
  let op := setup.opcodeAt offset
  let a := s.info offset
  decoded setup offset op (op.length a.status) (!a.isVisited) a.status (s.update offset visitByte)

/-- The instruction is decoded and its branch is followed. -/
def beforeLeave : State ν σ :=
  let op := setup.opcodeAt offset
  let a := s.info offset
  branched setup op a.status (branchTarget? op (decodedByte setup offset a))
    (afterVisit setup offset s).taken (decodedAt setup offset s)

theorem size_decodedAt : (decodedAt setup offset s).attributes.size = s.attributes.size :=
  size_decoded.trans State.size_update

theorem size_beforeLeave : (beforeLeave setup offset s).attributes.size = s.attributes.size :=
  (size_branched setup _ _ _ _ _).trans (size_decodedAt setup offset s)

theorem beforeLeave_panel : (beforeLeave setup offset s).panel = s.panel :=
  (branched_panel setup _ _ _ _ _).trans decoded_panel

variable {s offset}

theorem decodedAt_ne {i : Nat} (hi : i ≠ offset) :
    (decodedAt setup offset s).info i = s.info i
      ∨ (decodedAt setup offset s).info i = claimByte (s.info i) := by
  have hvisit : (s.update offset visitByte).info i = s.info i :=
    State.info_update_ne fun hc => hi hc.symm
  rw [← hvisit]
  exact info_decoded_ne hi

theorem decodedAt_others {i : Nat} (hi : i ≠ offset) :
    Evolves setup plugins i (s.info i) ((decodedAt setup offset s).info i) := by
  rcases decodedAt_ne setup hi with h | h <;> rw [h]
  · exact .refl
  · exact .claim .refl

theorem decodedAt_own (h : offset < s.attributes.size) :
    (decodedAt setup offset s).info offset = decodedByte setup offset (s.info offset) := by
  have hvisit : (s.update offset visitByte).info offset = visitByte (s.info offset) :=
    State.info_update_self h
  refine (info_decoded_self ?_ (length_pos _ _)).trans ?_
  · rw [State.size_update]
    exact h
  · rw [hvisit]
    rfl

theorem decodedByte_has (a : Attribute) {m : Mark} (hm : m ≠ .externalBranch) :
    (decodedByte setup offset a).marks.has m
      = (decide (m = .instruction) || decide (m = .instructionStart)
          || (!decide (m = .data) && !decide (m = .inlineData)
            && !decide (m = .changed) && (decide (m = .visited) || a.marks.has m))) := by
  unfold decodedByte
  dsimp only
  rw [decodeByte_has _ hm]
  cases m <;> simp [visitByte]

@[simp]
theorem decodedByte_status (a : Attribute) : (decodedByte setup offset a).status = a.status := by
  unfold decodedByte
  dsimp only
  rw [decodeByte_status]
  rfl

@[simp]
theorem decodedByte_address (a : Attribute) :
    (decodedByte setup offset a).address = a.address := by
  unfold decodedByte
  dsimp only
  rw [decodeByte_address]
  rfl

/-- Decoding an instruction blocks nothing. -/
theorem isBlocked_decodedAt {i : Nat} (h : isBlocked (s.info i) = false) :
    isBlocked ((decodedAt setup offset s).info i) = false := by
  by_cases hsize : s.attributes.size ≤ i
  · have hi : (decodedAt setup offset s).info i = .blank :=
      Attributes.info_of_size_le (by rw [size_decodedAt]; exact hsize)
    rw [hi]
    decide
  by_cases hi : i = offset
  · subst hi
    rw [decodedAt_own setup (Nat.lt_of_not_le hsize)]
    simp [isBlocked, decodedByte_has]
  · have hevolves : Evolves setup False i (s.info i) ((decodedAt setup offset s).info i) :=
      decodedAt_others setup hi
    exact hevolves.unblocked id h

theorem beforeLeave_others {i : Nat} (hi : i ≠ offset) :
    Evolves setup plugins i (s.info i) ((beforeLeave setup offset s).info i) :=
  (decodedAt_others setup hi).trans ((branched_develops setup _ _ _ _ _).bytes i)

theorem beforeLeave_own (h : offset < s.attributes.size) :
    Evolves setup plugins offset (decodedByte setup offset (s.info offset))
      ((beforeLeave setup offset s).info offset) := by
  rw [← decodedAt_own setup h]
  exact (branched_develops setup _ _ _ _ _).bytes offset

/-- The outcome of the execution of the instruction at `offset`. -/
def executedAt (setup : Setup) (offset : Nat) (s : State ν σ) : State ν σ × Option Nat :=
  let op := setup.opcodeAt offset
  let a := s.info offset
  leave setup offset op (op.length a.status) (!a.isVisited) a.status
    (afterVisit setup offset s).next (beforeLeave setup offset s)

/-- The target that an execution follows is the one it notes. -/
theorem branchTarget?_resolvedAt (h : offset < s.attributes.size) :
    branchTarget? (setup.opcodeAt offset) ((resolved setup offset (setup.opcodeAt offset)
        ((setup.opcodeAt offset).length (s.info offset).status) (!(s.info offset).isVisited)
        (s.update offset visitByte)).info offset)
      = branchTarget? (setup.opcodeAt offset) (decodedByte setup offset (s.info offset)) := by
  refine (branchTarget?_resolved (s.info offset).status ?_ (length_pos _ _)).trans ?_
  · rw [State.size_update]
    exact h
  · rw [State.info_update_self h]
    rfl

theorem execute_eq_executedAt (h : offset < s.attributes.size) :
    execute setup offset (setup.opcodeAt offset)
        ((setup.opcodeAt offset).length (s.info offset).status) (!(s.info offset).isVisited)
        (s.info offset).status (s.update offset visitByte)
      = executedAt setup offset s := by
  rw [execute_eq]
  dsimp only
  rw [branchTarget?_resolvedAt setup h]
  rfl

theorem size_executedAt : (executedAt setup offset s).1.attributes.size = s.attributes.size :=
  (size_leave setup offset _ _ _ _ _ _).trans (size_beforeLeave setup offset s)

theorem executedAt_leaves (hp : s.panel ≠ [] → plugins) {i : Nat} (hi : i ≠ offset) :
    Evolves setup plugins i ((beforeLeave setup offset s).info i)
      ((executedAt setup offset s).1.info i) := by
  refine leave_others setup offset _ _ _ _ _ ?_ hi
  rw [beforeLeave_panel]
  exact hp

theorem executedAt_finishes (hp : s.panel ≠ [] → plugins) (h : offset < s.attributes.size) :
    ∃ stops, (s.panel = [] → stops = !continues (setup.opcodeAt offset) (s.info offset).status)
      ∧ Finishes setup plugins offset stops ((beforeLeave setup offset s).info offset)
          ((executedAt setup offset s).1.info offset) := by
  rw [← beforeLeave_panel setup offset s] at hp ⊢
  refine leave_own setup offset _ _ _ _ _ hp ?_
  rw [size_beforeLeave]
  exact h

/-- What a branch has reached stays reached while control leaves the instruction. -/
theorem executedAt_reaches (hp : s.panel ≠ [] → plugins) (h : offset < s.attributes.size)
    {t : Nat} {incoming : StatusFlags}
    (ht : Reaches setup incoming t ((beforeLeave setup offset s).info t)) :
    Reaches setup incoming t ((executedAt setup offset s).1.info t) := by
  by_cases hto : t = offset
  · subst hto
    obtain ⟨_, _, hfinish⟩ := executedAt_finishes setup hp h
    exact ⟨hfinish.obeys ht.obeys, ht.learnt.trans hfinish.withinOff⟩
  · exact ht.evolves (executedAt_leaves setup hp hto)

theorem executedAt_pending (hp : s.panel ≠ [] → plugins) (h : offset < s.attributes.size) :
    (executedAt setup offset s).1.pending = s.pending
      ∨ ∃ t,
        branchTarget? (setup.opcodeAt offset) (decodedByte setup offset (s.info offset)) = some t
        ∧ (executedAt setup offset s).1.pending = t :: s.pending
        ∧ (t < s.attributes.size →
          Obeys ((executedAt setup offset s).1.info t).status (setup.overrideAt t)) := by
  have hleave : (executedAt setup offset s).1.pending = (beforeLeave setup offset s).pending :=
    leave_pending setup offset _ _ _ _ _ _
  have hdecoded : (decodedAt setup offset s).pending = s.pending := decoded_pending
  rw [hleave]
  rcases branched_pending setup (setup.opcodeAt offset) (s.info offset).status
    (branchTarget? (setup.opcodeAt offset) (decodedByte setup offset (s.info offset)))
    (afterVisit setup offset s).taken (decodedAt setup offset s) with hb | ⟨t, ht, hb, hr⟩
  · exact Or.inl (hb.trans hdecoded)
  · refine Or.inr ⟨t, ht, hb.trans (congrArg _ hdecoded), fun hlt => ?_⟩
    have hreach := hr (by rw [size_decodedAt]; exact hlt)
    exact (executedAt_reaches setup hp h hreach).obeys

theorem executedAt_changed (h : offset < s.attributes.size) {i : Nat}
    (hi : ((executedAt setup offset s).1.info i).isChanged = true) :
    (i ≠ offset ∧ (s.info i).isChanged = true) ∨ i ∈ (executedAt setup offset s).1.pending
      ∨ (executedAt setup offset s).2 = some i := by
  rcases leave_changed setup offset _ _ _ _ _ hi with hb | hnext
  · rcases branched_changed setup _ _ _ _ _ hb with hd | hlisted
    · left
      by_cases hio : i = offset
      · subst hio
        rw [decodedAt_own setup h] at hd
        simp [decodedByte_has] at hd
      · refine ⟨hio, ?_⟩
        rcases decodedAt_ne setup hio with hs | hs <;> rw [hs] at hd
        · exact hd
        · simpa using hd
    · right; left
      rw [executedAt, leave_pending]
      exact hlisted
  · exact Or.inr (Or.inr hnext)

theorem executedAt_branch (hp : s.panel ≠ [] → plugins) (h : offset < s.attributes.size) {t : Nat}
    (hverdict : recordedVerdict? (setup.opcodeAt offset) (s.info offset).status ≠ some .never)
    (htarget : branchTarget? (setup.opcodeAt offset) (decodedByte setup offset (s.info offset))
      = some t)
    (ht : t < s.attributes.size) (hblocked : isBlocked (s.info t) = false) :
    Reaches setup (afterVisit setup offset s).taken t ((executedAt setup offset s).1.info t)
      ∧ ((executedAt setup offset s).1.info t).isBranchTarget = true
      ∧ (((executedAt setup offset s).1.info t).isVisited = true
        ∨ t ∈ (executedAt setup offset s).1.pending) := by
  have hbranched : beforeLeave setup offset s
      = followBranch setup t (afterVisit setup offset s).taken (decodedAt setup offset s) := by
    unfold beforeLeave
    dsimp only
    rw [htarget]
    exact branched_of_some setup _ _ _ _ hverdict
  have hreached := followBranch_reaches setup t (afterVisit setup offset s).taken
    (decodedAt setup offset s) (isBlocked_decodedAt setup hblocked)
    (by rw [size_decodedAt]; exact ht)
  dsimp only at hreached
  rw [← hbranched] at hreached
  obtain ⟨hreach, hmark, hlisted⟩ := hreached
  have hpending : (executedAt setup offset s).1.pending = (beforeLeave setup offset s).pending :=
    leave_pending setup offset _ _ _ _ _ _
  refine ⟨executedAt_reaches setup hp h hreach, ?_⟩
  rw [hpending]
  by_cases hto : t = offset
  · subst hto
    obtain ⟨_, _, hfinish⟩ := executedAt_finishes setup hp h
    refine ⟨hfinish.branchTarget hmark, hlisted.imp_left fun hv => ?_⟩
    exact (hfinish.own rfl (by decide) (by decide)).trans hv
  · have hleave := executedAt_leaves setup hp hto
    exact ⟨hleave.branchTarget hmark, hlisted.imp_left fun hv => hleave.visited.trans hv⟩

theorem executedAt_fall (hpanel : s.panel = []) (hsize : s.attributes.size = setup.image.size)
    {n : Nat} (hn : n = offset + (setup.opcodeAt offset).length (s.info offset).status)
    (hgo : continues (setup.opcodeAt offset) (s.info offset).status = true)
    (hfree : (s.info offset).marks.has .noContinuePlugin = false)
    (hend : n < setup.image.size) (hblocked : isBlocked (s.info n) = false)
    (haddress : (s.info n).address = wrap32 ((s.info offset).address + (n - offset))) :
    Reaches setup (afterVisit setup offset s).next n ((executedAt setup offset s).1.info n)
      ∧ (((executedAt setup offset s).1.info n).isVisited = true
        ∨ (executedAt setup offset s).2 = some n) := by
  have hpos := length_pos (setup.opcodeAt offset) (s.info offset).status
  have hin : offset < s.attributes.size := by omega
  have hown : Evolves setup False offset _ _ := beforeLeave_own setup hin
  have hne : n ≠ offset := by omega
  have hnext : Evolves setup False n (s.info n) _ := beforeLeave_others setup hne
  subst hn
  refine leave_reaches setup offset _ _ _ _ _ ?_ ?_ hpos hgo ?_ hend ?_ ?_
  · rw [beforeLeave_panel, hpanel]
  · rw [size_beforeLeave, hsize]
  · rw [hown.own rfl, decodedByte_has _ _ (by decide)]
    simpa using hfree
  · exact hnext.unblocked id hblocked
  · rw [hnext.sameDecoding.address, hown.sameDecoding.address, haddress, Nat.add_sub_cancel_left]
    simp [decodedByte, visitByte]

theorem executedAt_onward (hpanel : s.panel = []) (h : offset < s.attributes.size) {n : Nat}
    (hn : (executedAt setup offset s).2 = some n) :
    continues (setup.opcodeAt offset) (s.info offset).status = true
      ∧ offset + (setup.opcodeAt offset).length (s.info offset).status ≤ n
      ∧ ∀ i, offset + (setup.opcodeAt offset).length (s.info offset).status ≤ i → i < n →
          (s.info i).isInlineData = true := by
  obtain ⟨hgo, hlow, hpassed⟩ := leave_onward setup offset _ _ _ _ _
    ((beforeLeave_panel setup offset s).trans hpanel)
    (by rw [size_beforeLeave]; exact h) hn
  refine ⟨hgo, hlow, fun i hi hlt => ?_⟩
  have hpos := length_pos (setup.opcodeAt offset) (s.info offset).status
  have hne : i ≠ offset := by omega
  have hevolves : Evolves setup False i (s.info i) _ := beforeLeave_others setup hne
  rcases hevolves.inlineData (hpassed i hne hi hlt) with hinline | ⟨hplugins, _⟩
  · exact hinline
  · exact absurd hplugins id

theorem executedAt_of_data (hpanel : s.panel = []) {i : Nat} (hi : i ≠ offset)
    (h : ((executedAt setup offset s).1.info i).isData = true) :
    (executedAt setup offset s).1.info i = s.info i := by
  have hleave := leave_of_data setup offset _ _ _ _ _
    ((beforeLeave_panel setup offset s).trans hpanel) hi h
  have hbranched : ((beforeLeave setup offset s).info i).isData = true := by
    rw [← hleave]
    exact h
  have hdecoded := branched_of_data setup _ _ _ _ _ hbranched
  have hdata : ((decodedAt setup offset s).info i).isData = true := by
    rw [← hdecoded]
    exact hbranched
  rcases decodedAt_ne setup hi with hsame | hclaimed
  · exact hleave.trans (hdecoded.trans hsame)
  · rw [hclaimed] at hdata
    simp at hdata

theorem executedAt_code (hpanel : s.panel = []) (hsize : s.attributes.size = setup.image.size)
    (hend : offset + (setup.opcodeAt offset).length (s.info offset).status ≤ setup.image.size)
    {i : Nat} (hlow : offset ≤ i)
    (hhigh : i < offset + (setup.opcodeAt offset).length (s.info offset).status) :
    ((executedAt setup offset s).1.info i).isInstruction = true
      ∧ isBlocked ((executedAt setup offset s).1.info i) = false := by
  have hp : s.panel ≠ [] → False := fun hne => hne hpanel
  rcases Nat.eq_or_lt_of_le hlow with rfl | hlt
  · have hin : offset < s.attributes.size := by omega
    obtain ⟨_, _, hfinish⟩ := executedAt_finishes setup hp hin
    have hcode := (hfinish.of_evolves (beforeLeave_own setup hin)).isCode
      (by simp [decodedByte_has])
    exact ⟨hcode.1, Bool.or_eq_false_iff.mpr hcode.2⟩
  · have hne : i ≠ offset := by omega
    have hclaimed : (decodedAt setup offset s).info i = claimByte (s.info i) := by
      have hsame : (s.update offset visitByte).info i = s.info i :=
        State.info_update_ne fun hc => hne hc.symm
      unfold decodedAt
      dsimp only
      rw [info_decoded_of_ne hne, info_claimed hne, hsame,
        if_pos ⟨⟨hlow, hhigh⟩, by rw [State.size_update]; omega⟩]
    have hevolves : Evolves setup False i _ ((executedAt setup offset s).1.info i) :=
      ((branched_develops setup _ _ _ _ _).bytes i).trans (executedAt_leaves setup hp hne)
    rw [← State.info, hclaimed] at hevolves
    exact ⟨hevolves.instruction (by simp), hevolves.unblocked id (by simp [isBlocked])⟩

/-- **What an execution does.** -/
theorem execute_executes (hp : s.panel ≠ [] → plugins)
    (hsize : s.attributes.size = setup.image.size) (h : offset < setup.image.size) :
    Executes setup plugins offset s (executedAt setup offset s) := by
  have hin : offset < s.attributes.size := by rw [hsize]; exact h
  have hown := executedAt_finishes setup hp hin
  refine ⟨size_executedAt setup, ?_, ?_,
    fun i hpanel hi hdata => executedAt_of_data setup hpanel hi hdata, ?_,
    fun i hpanel hend hlow hhigh => executedAt_code setup hpanel hsize hend hlow hhigh,
    executedAt_pending setup hp hin, ?_,
    fun n hpanel hn => executedAt_onward setup hpanel hin hn, ?_, ?_, ?_⟩
  · intro hpanel
    exact leave_panel setup offset _ _ _ _ _ ((beforeLeave_panel setup offset s).trans hpanel)
  · exact fun i hi => (beforeLeave_others setup hi).trans (executedAt_leaves setup hp hi)
  · obtain ⟨stops, hstops, hfinish⟩ := hown
    exact ⟨stops, hstops, hfinish.of_evolves (beforeLeave_own setup hin)⟩
  · intro n hn
    obtain ⟨_, hlt, hreach⟩ := leave_next setup offset _ _ _ _ _
      ((size_beforeLeave setup offset s).trans hsize) hn
    exact ⟨hlt, hreach.obeys⟩
  · exact fun i hi => executedAt_changed setup hin hi
  · exact fun t hverdict htarget ht hblocked =>
      executedAt_branch setup hp hin hverdict htarget ht hblocked
  · exact fun n hn hpanel hgo hfree hend hblocked haddress =>
      executedAt_fall setup hpanel hsize hn hgo hfree hend hblocked haddress

end Execution

end Disasm65.Flow
