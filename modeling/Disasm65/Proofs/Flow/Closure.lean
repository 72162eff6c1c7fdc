/-
Control is followed everywhere it goes.

An instruction passes its status on when it is visited.  If the status changes later, the
instruction is in line for another visit, and passes the new one on then.  So what an instruction
without the mark of a change passes on has arrived (`Received`): the byte it goes to has been
visited or is in line for a visit, and its status holds what was passed.  When nothing is in line
any more the analysis is closed.
-/
import Mathlib
import Disasm65.Proofs.Flow.Unobstructed

namespace Disasm65.Flow

open StatusFlags

variable {ν σ : Type}

/-! ### Where control goes -/

/-- Control goes from the instruction at `o`, whose attribute is `a`, to the byte at `i`, and brings
the status `incoming` there.  `named` says that a branch names the byte. -/
inductive Flows (setup : Setup) (o : Nat) (a : Attribute) :
    (named : Bool) → (i : Nat) → (incoming : StatusFlags) → Prop where
  | next {n : Nat} (hn : n = o + (setup.opcodeAt o).length a.status)
      (hgo : continues (setup.opcodeAt o) a.status = true)
      (haddress : (setup.map.addressOf? n).getD 0
        = wrap32 ((setup.map.addressOf? o).getD 0 + (n - o))) :
      Flows setup o a false n ((setup.opcodeAt o).transition a.status setup.image o).next
  | taken {t : Nat} (hverdict : recordedVerdict? (setup.opcodeAt o) a.status ≠ some .never)
      (ht : branchTarget? (setup.opcodeAt o) a = some t) :
      Flows setup o a true t ((setup.opcodeAt o).transition a.status setup.image o).taken

/-- Where control goes depends on the status and on the operand. -/
theorem Flows.congr {setup : Setup} {o : Nat} {a b : Attribute} {named : Bool} {i : Nat}
    {incoming : StatusFlags} (h : Flows setup o b named i incoming) (hstatus : b.status = a.status)
    (hoffset : b.operandOffset = a.operandOffset)
    (hdirect : b.operandIsDirect = a.operandIsDirect) : Flows setup o a named i incoming := by
  cases h with
  | next hn hgo haddress =>
      rw [hstatus] at hn hgo ⊢
      exact .next hn hgo haddress
  | taken hverdict ht =>
      unfold branchTarget? at ht
      rw [hoffset, hdirect] at ht
      rw [hstatus] at hverdict ⊢
      exact .taken hverdict ht

/-- The byte has been visited or is in line for a visit. -/
def Reached (c : Config ν σ) (i : Nat) : Prop :=
  (c.state.info i).isVisited = true ∨ c.Awaits i

/-- What `Flows` brings has arrived. -/
structure Received (setup : Setup) (c : Config ν σ) (named : Bool) (i : Nat)
    (incoming : StatusFlags) : Prop where
  reached : Reached c i
  learnt : WithinOff (setup.overrideAt i) incoming (c.state.info i).status
  named : named = true → (c.state.info i).isBranchTarget = true

section Step

variable {setup : Setup} {c d : Config ν σ}

/-- A byte that is in line stays in line until it is visited. -/
theorem step_reached (hsize : c.state.attributes.size = setup.image.size)
    (h : step setup c = some d) {i : Nat} (hi : i < setup.image.size) (hc : Reached c i) :
    Reached d i := by
  rcases step_cases h with ⟨offset, hcurrent, rfl⟩ | ⟨target, rest, hcurrent, hp, rfl⟩
    | ⟨hcurrent, hp, _, _, rfl⟩ | ⟨hcurrent, hp, _, _, rfl⟩
  · have hvisits : Visits setup True offset c.state _ := visit_visits (fun _ => trivial) hsize
    rcases hc with hv | hlisted | hcur
    · exact Or.inl (hvisits.keeps (Or.inl rfl) hv)
    · exact Or.inr (Or.inl (hvisits.mem_pending hlisted))
    · rw [hcurrent] at hcur
      cases hcur
      exact Or.inl (hvisits.visited hsize hi)
  · exact hc.imp_right (Config.awaits_pop hcurrent hp i).mpr
  · rcases hc with hv | hawaits
    · left
      dsimp only
      rw [info_enter]
      split
      · simpa using hv
      · exact hv
    · exact absurd hawaits (Config.not_awaits hcurrent hp i)
  · rcases hc with hv | hawaits
    · exact Or.inl hv
    · exact absurd hawaits (Config.not_awaits hcurrent hp i)

/-- What has arrived stays: no entry point takes it back, since an entry point is a byte that
nothing has reached. -/
theorem step_received (hsize : c.state.attributes.size = setup.image.size)
    (h : step setup c = some d) {named : Bool} {i : Nat} {incoming : StatusFlags}
    (hi : i < setup.image.size) (hc : Received setup c named i incoming) :
    Received setup d named i incoming := by
  have hreached := step_reached hsize h hi hc.reached
  rcases step_cases h with ⟨offset, _, rfl⟩ | ⟨target, rest, _, _, rfl⟩
    | ⟨hcurrent, hp, _, hentry, rfl⟩ | ⟨_, _, _, _, rfl⟩
  · have hvisits : Visits setup True offset c.state _ := visit_visits (fun _ => trivial) hsize
    exact ⟨hreached, hc.learnt.trans (hvisits.withinOff i),
      fun hn => hvisits.keeps (Or.inr rfl) (hc.named hn)⟩
  · exact ⟨hreached, hc.learnt, hc.named⟩
  · have hother : c.search ≠ i := by
      intro hi
      subst hi
      rcases hc.reached with hv | hawaits
      · rw [(isEntry_iff.mp hentry).1.2] at hv
        cases hv
      · exact Config.not_awaits hcurrent hp _ hawaits
    have hsame : (enter setup c.search c.state).info i = c.state.info i :=
      State.info_update_ne hother
    refine ⟨hreached, ?_, ?_⟩ <;> dsimp only <;> rw [hsame]
    · exact hc.learnt
    · exact hc.named
  · exact ⟨hreached, hc.learnt, hc.named⟩

end Step

/-! ### Along the steps -/

/-- Without plugins and with hints of code only: everything that instructions without the mark of a
change pass on has arrived, and the bytes hinted as code that have had their turn are reached. -/
structure Closing (setup : Setup) (c : Config ν σ) : Prop where
  consistent : Consistent setup c
  bytes : ∀ i, Unobstructed setup i (c.state.info i)
  branches : ∀ i, Resolved setup i (c.state.info i)
  flows : ∀ o, (c.state.info o).isInstructionStart = true → (c.state.info o).isChanged = false →
    (setup.opcodeAt o).isPlp = false →
    ∀ {named i incoming}, Flows setup o (c.state.info o) named i incoming → AlwaysFits setup i →
      Received setup c named i incoming
  hinted : ∀ i < setup.image.size, setup.hintAt i = .code → (setup.opcodeAt i).isValid = true →
    (c.state.info i).isHinted = true
  entries : ∀ i < c.search, i < setup.image.size → setup.hintAt i = .code →
    (setup.opcodeAt i).isValid = true → Reached c i

section Closing

variable {setup : Setup} {c d : Config ν σ}

/-- An execution passes on what its instruction passes on. -/
theorem Executes.received {offset : Nat} {s : State ν σ} {out : State ν σ × Option Nat}
    (h : Executes setup False offset s out) (search : Nat) (hpanel : s.panel = [])
    (hplaced : Placed setup s) (hin : offset < setup.image.size)
    (hbytes : ∀ i, Unobstructed setup i (s.info i))
    (hchanged : (out.1.info offset).isChanged = false)
    (hplp : (setup.opcodeAt offset).isPlp = false) {named : Bool} {i : Nat}
    {incoming : StatusFlags} (hflows : Flows setup offset (out.1.info offset) named i incoming)
    (hfits : AlwaysFits setup i) : Received setup ⟨search, out.2, out.1⟩ named i incoming := by
  obtain ⟨stops, _, hfinish⟩ := h.own
  have hsame := hfinish.sameDecoding
  have hstatus : (out.1.info offset).status = (s.info offset).status :=
    (hfinish.noticed (by simp [decodedByte_has]) hchanged).trans (decodedByte_status setup _)
  have hdecoded : Flows setup offset (decodedByte setup offset (s.info offset)) named i incoming :=
    hflows.congr (hstatus.trans (decodedByte_status setup _).symm) hsame.operandOffset
      hsame.operandIsDirect
  have hopen := (hbytes i).isBlocked_of_alwaysFits hfits
  have hi := hfits.lt
  have hafter := afterVisit_of_not_plp setup offset s hplp
  cases hdecoded with
  | next hn hgo haddress =>
      rw [decodedByte_status] at hn hgo ⊢
      rw [← hafter]
      rw [← hplaced.address i hi, ← hplaced.address offset hin] at haddress
      obtain ⟨hreach, hgoes⟩ :=
        h.fall i hn hpanel hgo (hbytes offset).free hi hopen haddress
      refine ⟨hgoes.imp_right Or.inr, hreach.learnt, fun hc => ?_⟩
      cases hc
  | taken hverdict ht =>
      rw [decodedByte_status] at hverdict ⊢
      rw [← hafter]
      obtain ⟨hreach, hmark, hlisted⟩ :=
        h.branch i hverdict ht (by rw [hplaced.size]; exact hi) hopen
      exact ⟨hlisted.imp_right Or.inl, hreach.learnt, fun _ => hmark⟩

/-- A step leaves an instruction other than the one it visits as it was, or marks it as changed. -/
theorem flows_of_quiet {o : Nat} {a b : Attribute} (h : Evolves setup False o a b)
    (hv : a.isVisited = true) (hchanged : b.isChanged = false) {named : Bool} {i : Nat}
    {incoming : StatusFlags} (hflows : Flows setup o b named i incoming) :
    a.isChanged = false ∧ Flows setup o a named i incoming := by
  refine ⟨?_, hflows.congr (h.noticed hv hchanged) h.sameDecoding.operandOffset
    h.sameDecoding.operandIsDirect⟩
  by_contra hc
  rw [h.changed (by simpa using hc)] at hchanged
  cases hchanged

/-- What a visit leaves to be passed on has arrived. -/
theorem Closing.visit {offset : Nat} {out : State ν σ × Option Nat} (hc : Closing setup c)
    (h : Visits setup False offset c.state out)
    (hstep : step setup c = some ⟨c.search, out.2, out.1⟩) {o : Nat}
    (hstart : (out.1.info o).isInstructionStart = true)
    (hchanged : (out.1.info o).isChanged = false) (hplp : (setup.opcodeAt o).isPlp = false)
    {named : Bool} {i : Nat} {incoming : StatusFlags}
    (hflows : Flows setup o (out.1.info o) named i incoming) (hfits : AlwaysFits setup i) :
    Received setup ⟨c.search, out.2, out.1⟩ named i incoming := by
  have hplaced := hc.consistent.placed
  -- what had to be passed on before has arrived before
  have hold : (c.state.info o).isInstructionStart = true → (c.state.info o).isChanged = false →
      Flows setup o (c.state.info o) named i incoming →
        Received setup ⟨c.search, out.2, out.1⟩ named i incoming :=
    fun hs hq hf => step_received hplaced.size hstep hfits.lt (hc.flows o hs hq hplp hf hfits)
  by_cases hoo : o = offset
  · subst hoo
    cases h with
    | skip _ => exact hold hstart hchanged hflows
    | halt hin _ hstop =>
        rw [State.info_update_self (by rw [hplaced.size]; exact hin)] at hstart
        have hnot := (hc.consistent.bytes o).not_start hstop
        simp_all [visitByte]
    | reject hin _ _ _ =>
        have hsize : o < c.state.attributes.size := by rw [hplaced.size]; exact hin
        rw [State.info_update_self (by rw [State.size_update]; exact hsize),
          State.info_update_self hsize] at hstart
        simp [rejectByte] at hstart
    | execute hin _ _ _ _ hexec =>
        exact hexec.received c.search hc.consistent.panel hplaced hin hc.bytes hchanged hplp hflows
          hfits
  · have hevolves := h.others hoo
    have hs : (c.state.info o).isInstructionStart = true := (hevolves.own rfl).symm.trans hstart
    obtain ⟨hq, hf⟩ :=
      flows_of_quiet hevolves ((hc.consistent.bytes o).visited hs) hchanged hflows
    exact hold hs hq hf

/-- Entering changes no instruction. -/
theorem info_enter_of_start (hc : Consistent setup c)
    (hentry : isEntry setup c.state c.search = true) {o : Nat}
    (hstart : ((enter setup c.search c.state).info o).isInstructionStart = true) :
    (enter setup c.search c.state).info o = c.state.info o := by
  rw [info_enter] at hstart ⊢
  split at hstart
  · rename_i hcond
    obtain ⟨rfl, -⟩ := hcond
    have hv := (hc.bytes c.search).visited (by simpa using hstart)
    rw [(isEntry_iff.mp hentry).1.2] at hv
    cases hv
  · rename_i hcond
    rw [if_neg hcond]

/-- A byte hinted as code that is no entry point when its turn comes has been visited. -/
theorem Closing.visited_of_not_entry (hc : Closing setup c) {i : Nat} (hi : i < setup.image.size)
    (hentry : isEntry setup c.state i = false) (hhint : setup.hintAt i = .code)
    (hvalid : (setup.opcodeAt i).isValid = true) : (c.state.info i).isVisited = true := by
  by_contra hv
  rw [Bool.not_eq_true] at hv
  have hopen := (hc.bytes i).isBlocked_of_not_visited hv
  rw [isEntry_iff.mpr ⟨⟨⟨hhint, hc.hinted i hi hhint hvalid⟩, hv⟩, hopen⟩] at hentry
  cases hentry

theorem step_closing (hc : Closing setup c) (h : step setup c = some d) : Closing setup d := by
  have hd := step_consistent hc.consistent h
  have hplaced := hc.consistent.placed
  have hreached : ∀ i < c.search, i < setup.image.size → setup.hintAt i = .code →
      (setup.opcodeAt i).isValid = true → Reached d i :=
    fun i hlow hi hhint hvalid =>
      step_reached hplaced.size h hi (hc.entries i hlow hi hhint hvalid)
  rcases step_cases h with ⟨offset, _, rfl⟩ | ⟨target, rest, _, _, rfl⟩
    | ⟨_, _, hsearch, hentry, rfl⟩ | ⟨_, _, hsearch, hentry, rfl⟩
  · have hvisits := hc.consistent.visits offset
    refine ⟨hd, fun i => ?_, fun i => ?_,
      fun o hs hq hplp _ _ _ hf hfits => hc.visit hvisits h hs hq hplp hf hfits,
      fun i hi hhint hvalid => (hvisits.fixed i).2.2.trans (hc.hinted i hi hhint hvalid), hreached⟩
    · rcases hvisits.byte hplaced.size i with h | h
      · exact (hc.bytes i).becomes h hplaced
      · exact (hc.bytes i).evolves h
    · rcases hvisits.byte hplaced.size i with h | h
      · exact (hc.branches i).becomes h (hc.bytes i) hplaced
      · exact (hc.branches i).evolves h
  · exact ⟨hd, hc.bytes, hc.branches,
      fun o hs hq hplp _ _ _ hf hfits =>
        step_received hplaced.size h hfits.lt (hc.flows o hs hq hplp hf hfits),
      hc.hinted, hreached⟩
  · refine ⟨hd, fun i => .enter setup c.search (hc.bytes i), fun i => ?_,
      fun o hs hq hplp _ _ _ hf hfits => ?_, fun i hi hhint hvalid => ?_,
      fun i hlow hi hhint hvalid => ?_⟩
    · dsimp only
      rw [info_enter]
      split
      · exact (hc.branches i).congr (by simp) rfl rfl
      · exact hc.branches i
    · have hsame := info_enter_of_start hc.consistent hentry hs
      dsimp only at hs hq hf
      rw [hsame] at hs hq hf
      exact step_received hplaced.size h hfits.lt (hc.flows o hs hq hplp hf hfits)
    · dsimp only
      rw [info_enter]
      split
      · simpa using hc.hinted i hi hhint hvalid
      · exact hc.hinted i hi hhint hvalid
    · rcases Nat.lt_succ_iff_lt_or_eq.mp hlow with hlow | rfl
      · exact hreached i hlow hi hhint hvalid
      · exact Or.inr (Or.inr rfl)
  · refine ⟨hd, hc.bytes, hc.branches, fun o hs hq hplp _ _ _ hf hfits => ?_, hc.hinted,
      fun i hlow hi hhint hvalid => ?_⟩
    · exact step_received hplaced.size h hfits.lt (hc.flows o hs hq hplp hf hfits)
    · rcases Nat.lt_succ_iff_lt_or_eq.mp hlow with hlow | rfl
      · exact hreached i hlow hi hhint hvalid
      · exact Or.inl (hc.visited_of_not_entry hi hentry hhint hvalid)

end Closing

/-- No byte is hinted as data if none of the hints that are given says so. -/
theorem hintAt_open {setup : Setup} (h : ∀ hint ∈ setup.hints, hint = .unset ∨ hint = .code)
    (i : Nat) : setup.hintAt i = .unset ∨ setup.hintAt i = .code := by
  unfold Setup.hintAt
  rw [Array.getD_eq_getD_getElem?]
  by_cases hi : i < setup.hints.size
  · rw [Array.getElem?_eq_getElem hi]
    exact h _ (Array.getElem_mem hi)
  · rw [Array.getElem?_eq_none (Nat.le_of_not_lt hi)]
    exact Or.inl rfl

/-- Without hints of data nothing is data at the start. -/
theorem info_prepare_open {setup : Setup}
    (hhints : ∀ i, setup.hintAt i = .unset ∨ setup.hintAt i = .code) (i : Nat) {m : Mark}
    (hm : m = .data ∨ m = .inlineData) :
    ((setup.prepare (Attributes.blank setup.image.size)).info i).marks.has m = false := by
  rw [info_prepare]
  split
  · rw [prepareByte_has]
    rcases hintMark?_cases setup i with h | ⟨h, _⟩ | ⟨_, hdata⟩ | ⟨_, hinline⟩
    · rcases hm with rfl | rfl <;> simp [h]
    · rcases hm with rfl | rfl <;> simp [h]
    · rcases hhints i with hc | hc <;> rw [hc] at hdata <;> cases hdata
    · rcases hhints i with hc | hc <;> rw [hc] at hinline <;> cases hinline
  · exact Marks.has_empty m

theorem startConfig_closing {setup : Setup}
    (hhints : ∀ i, setup.hintAt i = .unset ∨ setup.hintAt i = .code) :
    Closing setup (startConfig setup ([] : List (Plugin ν σ))) := by
  have hoff : ∀ i {m : Mark}, (m ≠ .regionStart ∧ m ≠ .hinted ∧ m ≠ .instruction ∧ m ≠ .data
      ∧ m ≠ .inlineData) →
        ((startConfig setup ([] : List (Plugin ν σ))).state.info i).marks.has m = false :=
    fun i _ hm => info_prepare_has i hm
  refine ⟨startConfig_consistent setup, fun i => ⟨?_, fun hd => ?_, fun hv => ?_, ?_⟩,
    fun i => ⟨fun _ => ?_, fun hv => ?_⟩, fun o hs => ?_, fun i hi hhint hvalid => ?_,
    fun i hi => ?_⟩
  · exact info_prepare_open hhints i (Or.inr rfl)
  · rw [startConfig_info, Attribute.isData, info_prepare_open hhints i (Or.inl rfl)] at hd
    cases hd
  · rw [Attribute.isVisited, hoff i (by decide)] at hv
    cases hv
  · exact hoff i (by decide)
  · rw [startConfig_info, info_prepare]
    split
    · exact (prepareByte_kept setup i).2.2.2
    · rfl
  · rw [Attribute.isVisited, hoff i (by decide)] at hv
    cases hv
  · rw [Attribute.isInstructionStart, hoff o (by decide)] at hs
    cases hs
  · rw [startConfig_info, info_prepare, if_pos hi, Attribute.isHinted, prepareByte_has]
    simp [Setup.hintMark?, hhint, hvalid]
  · exact absurd hi (Nat.not_lt_zero i)

/-! ### In the result -/

/-- Control has come to the byte at `i` with the status `incoming`: the byte has been visited, an
instruction starts there if the opcode is defined, and the status has every possibility of
`incoming` on the flags that the override leaves open. -/
structure ArrivedAt (setup : Setup) (attributes : Attributes) (i : Nat) (incoming : StatusFlags) :
    Prop where
  visited : (attributes.info i).isVisited = true
  start : (setup.opcodeAt i).isValid = true → (attributes.info i).isInstructionStart = true
  learnt : WithinOff (setup.overrideAt i) incoming (attributes.info i).status

/-- An address is a word. -/
theorem wrap32_addressOf? (map : AddressMap) (i : Nat) :
    wrap32 ((map.addressOf? i).getD 0) = (map.addressOf? i).getD 0 := by
  unfold AddressMap.addressOf?
  cases map.regionAt? i with
  | none => rfl
  | some region => exact wrap32_of_lt (wrap32_lt _)

theorem continues_of_effect {op : Opcode} {status : StatusFlags}
    (h : op.effect = .next ∨ op.effect = .call
      ∨ op.effect = .conditionalBranch ∧ verdictUnder op status ≠ .always) :
    continues op status = true := by
  by_contra hc
  rw [Bool.not_eq_true, continues_iff] at hc
  unfold verdictUnder at h hc
  rcases h with h | h | ⟨h, hv⟩ <;> simp_all

theorem recordedVerdict?_ne_never {op : Opcode} {status : StatusFlags}
    (h : verdictUnder op status ≠ .never) : recordedVerdict? op status ≠ some .never := by
  intro hc
  rw [← getD_recordedVerdict?, hc] at h
  exact h rfl

theorem visited_of_reached {n : Nat} {t : State ν σ} (hend : t.pending = []) {i : Nat}
    (h : Reached ⟨n, none, t⟩ i) : (t.info i).isVisited = true := by
  rcases h with hv | hawaits
  · exact hv
  · exact absurd hawaits (Config.not_awaits rfl hend i)

section End

variable {setup : Setup} {t : State ν σ} (hc : Closing setup ⟨setup.image.size, none, t⟩)
variable (hend : t.pending = [])

include hc hend

theorem Closing.arrivedAt {named : Bool} {i : Nat} {incoming : StatusFlags}
    (h : Received setup ⟨setup.image.size, none, t⟩ named i incoming)
    (hfits : AlwaysFits setup i) :
    ArrivedAt setup (settle t.attributes) i incoming
      ∧ (named = true → ((settle t.attributes).info i).isBranchTarget = true) := by
  have hsettled := info_settle t.attributes i
  have hv := visited_of_reached hend h.reached
  refine ⟨⟨?_, fun hvalid => ?_, ?_⟩, fun hn => ?_⟩
  · exact (hsettled.has (by decide)).trans hv
  · exact (hsettled.has (by decide)).trans ((hc.bytes i).start hv hfits hvalid)
  · rw [hsettled.status]
    exact h.learnt
  · exact (hsettled.has (by decide)).trans (h.named hn)

theorem Closing.unchanged (i : Nat) : (t.info i).isChanged = false := by
  by_contra hchanged
  exact Config.not_awaits rfl hend i (hc.consistent.changed i (by simpa using hchanged))

section Instruction

variable {o : Nat} (hs : (t.info o).isInstructionStart = true)

include hs

/-- The branch of an instruction leads where the image says. -/
theorem Closing.branchTarget?_eq :
    branchTarget? (setup.opcodeAt o) (t.info o) = directTarget? setup o := by
  have hbyte : DecodedWell setup o (t.info o) := hc.consistent.bytes o
  rcases (hc.branches o).target (hbyte.visited hs) with heq | ⟨⟨target, htarget⟩, hnot⟩
  · exact heq
  · refine absurd ?_ hnot
    have hlength : (setup.opcodeAt o).length .unspecified = (t.info o).instructionLength := by
      rw [hbyte.length hs (hc.unchanged hend o)]
      exact length_eq_of_targetAddress? htarget _ _
    rw [hlength]
    exact hbyte.fits hs

variable (hplp : (setup.opcodeAt o).isPlp = false)

include hplp

/-- An instruction that goes on has handed its status to the next one. -/
theorem Closing.arrivedAt_next {n : Nat} (hn : n = o + (t.info o).instructionLength)
    (heffect : (setup.opcodeAt o).effect = .next ∨ (setup.opcodeAt o).effect = .call
      ∨ (setup.opcodeAt o).effect = .conditionalBranch ∧ (t.info o).verdict ≠ .always)
    (haddress : (t.info n).address = (t.info o).address + (t.info o).instructionLength)
    (hfits : AlwaysFits setup n) :
    ArrivedAt setup (settle t.attributes) n
      ((setup.opcodeAt o).transition (t.info o).status setup.image o).next := by
  have hbyte : DecodedWell setup o (t.info o) := hc.consistent.bytes o
  have hplaced : Placed setup t := hc.consistent.placed
  have hquiet := hc.unchanged hend o
  rw [hbyte.verdict hs hquiet] at heffect
  have hin : o < setup.image.size := by
    have := hfits.lt
    omega
  have hsucc : (setup.map.addressOf? n).getD 0
      = wrap32 ((setup.map.addressOf? o).getD 0 + (n - o)) := by
    rw [← wrap32_addressOf?, ← hplaced.address n hfits.lt, ← hplaced.address o hin, haddress, hn,
      Nat.add_sub_cancel_left]
  have hflows : Flows setup o (t.info o) false n _ :=
    .next (by rw [hn, hbyte.length hs hquiet]) (continues_of_effect heffect) hsucc
  exact (hc.arrivedAt hend (hc.flows o hs hquiet hplp hflows hfits) hfits).1

/-- An instruction that may branch has handed its status to the target. -/
theorem Closing.arrivedAt_taken {target : Nat} (htarget : directTarget? setup o = some target)
    (hnever : (t.info o).verdict ≠ .never) (hfits : AlwaysFits setup target) :
    ArrivedAt setup (settle t.attributes) target
        ((setup.opcodeAt o).transition (t.info o).status setup.image o).taken
      ∧ ((settle t.attributes).info target).isBranchTarget = true := by
  have hbyte : DecodedWell setup o (t.info o) := hc.consistent.bytes o
  have hquiet := hc.unchanged hend o
  rw [hbyte.verdict hs hquiet] at hnever
  have hflows : Flows setup o (t.info o) true target _ :=
    .taken (recordedVerdict?_ne_never hnever) ((hc.branchTarget?_eq hend hs).trans htarget)
  obtain ⟨harrived, hmark⟩ := hc.arrivedAt hend (hc.flows o hs hquiet hplp hflows hfits) hfits
  exact ⟨harrived, hmark rfl⟩

end Instruction

end End

/-- **Control is followed everywhere it goes.**  Every byte hinted as code has been visited, if its
opcode is defined, and is an instruction if that always fits.  An instruction that is no PLP and
goes on to the next one has handed it its status, and one that may branch has handed it to the
target, if the instruction there fits under every status. -/
theorem analyze_closed (setup : Setup)
    (hhints : ∀ i, setup.hintAt i = .unset ∨ setup.hintAt i = .code) (s : State ν σ)
    (h : analyze setup [] (Attributes.blank setup.image.size) = .ok s) :
    (∀ i < setup.image.size, setup.hintAt i = .code → (setup.opcodeAt i).isValid = true →
        (s.attributes.info i).isVisited = true
          ∧ (AlwaysFits setup i → (s.attributes.info i).isInstructionStart = true))
      ∧ ∀ o, (s.attributes.info o).isInstructionStart = true →
          (setup.opcodeAt o).isPlp = false →
          let a := s.attributes.info o
          let op := setup.opcodeAt o
          let after := op.transition a.status setup.image o
          (∀ n, n = o + a.instructionLength →
              (op.effect = .next ∨ op.effect = .call
                ∨ op.effect = .conditionalBranch ∧ a.verdict ≠ .always) →
              (s.attributes.info n).address = a.address + a.instructionLength →
              AlwaysFits setup n → ArrivedAt setup s.attributes n after.next)
            ∧ branchTarget? op a = directTarget? setup o
            ∧ (∀ t, directTarget? setup o = some t → a.verdict ≠ .never → AlwaysFits setup t →
                ArrivedAt setup s.attributes t after.taken
                  ∧ (s.attributes.info t).isBranchTarget = true) := by
  obtain ⟨n, _, t, hsteps, hend, houtcome⟩ := outcome_reached setup ([] : List (Plugin ν σ))
  obtain ⟨_, rfl⟩ := analyze_eq_ok.mp h
  rw [houtcome]
  have hc := hsteps.preserves step_closing (startConfig_closing hhints)
  refine ⟨fun i hi hhint hvalid => ?_, fun o hs hplp => ?_⟩
  · have hsettled := info_settle t.attributes i
    have hv := visited_of_reached hend (hc.entries i hi hi hhint hvalid)
    exact ⟨(hsettled.has (by decide)).trans hv,
      fun hfits => (hsettled.has (by decide)).trans ((hc.bytes i).start hv hfits hvalid)⟩
  · have heq := (info_settle t.attributes o).eq_of_start hs
    dsimp only at hs ⊢
    rw [heq] at hs ⊢
    refine ⟨fun n hn heffect haddress hfits => ?_, hc.branchTarget?_eq hend hs,
      fun target htarget hnever hfits => hc.arrivedAt_taken hend hs hplp htarget hnever hfits⟩
    rw [(info_settle t.attributes n).address] at haddress
    exact hc.arrivedAt_next hend hs hplp hn heffect haddress hfits

theorem narrowingLoop_hints (i : Nat) :
    narrowingLoop.hintAt i = .unset ∨ narrowingLoop.hintAt i = .code :=
  hintAt_open (by decide) i

theorem narrowingLoop_alwaysFits : AlwaysFits narrowingLoop 2 := by
  intro status
  have hlength : (narrowingLoop.opcodeAt 2).length status ≤ 3 := by
    have hmode : (narrowingLoop.opcodeAt 2).mode = .immAccumulator := by
      decide +kernel
    rw [Opcode.length, hmode, AddressMode.length]
    split <;> decide
  refine ⟨Nat.le_trans (Nat.add_le_add_left hlength 2) (by decide), fun i hlow _ => ?_⟩
  simp only [narrowingLoop, AddressMap.isRegionStart, List.any_cons, List.any_nil, Bool.or_false,
    beq_eq_false_iff_ne]
  omega

/-- The load at 2 has learnt what the branch at 7 brings back. -/
theorem analyze_closed_narrowingLoop :
    ∃ s : State Unit Unit,
      analyze narrowingLoop [] (Attributes.blank narrowingLoop.image.size) = .ok s
        ∧ (s.attributes.info 7).isInstructionStart = true
        ∧ (s.attributes.info 7).verdict ≠ .never
        ∧ ArrivedAt narrowingLoop s.attributes 2
            ((narrowingLoop.opcodeAt 7).transition (s.attributes.info 7).status
              narrowingLoop.image 7).taken
        ∧ (s.attributes.info 2).isBranchTarget = true := by
  have hstart : ((outcome narrowingLoop ([] : List (Plugin Unit Unit))).attributes.info
      7).isInstructionStart = true := by decide +kernel
  have hverdict : ((outcome narrowingLoop ([] : List (Plugin Unit Unit))).attributes.info
      7).verdict ≠ .never := by decide +kernel
  obtain ⟨_, _, htaken⟩ :=
    (analyze_closed narrowingLoop narrowingLoop_hints _ analyze_narrowingLoop).2 7 hstart
      (by decide +kernel)
  exact ⟨_, analyze_narrowingLoop, hstart, hverdict,
    htaken 2 (by decide +kernel) hverdict narrowingLoop_alwaysFits⟩

end Disasm65.Flow
