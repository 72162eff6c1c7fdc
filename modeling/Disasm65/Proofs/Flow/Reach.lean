/-
Control is followed nowhere it cannot go.

The image has a graph of its own, which knows of no status and of no order of visits: an instruction
that falls through leads past its bytes, as many as it has under some status, and past inline data
after them; a branch or call leads to the place that its operand names (`Leads`).  Every byte that
has been visited or is in line for a visit can be reached in that graph from a byte hinted as code
(`Rooted`).
-/
import Mathlib
import Disasm65.Proofs.Flow.Classes
import Disasm65.Proofs.Flow.Cover
import Disasm65.Proofs.Flow.Operand

namespace Disasm65.Flow

variable {ν σ : Type}

/-- The instruction at an offset leads to another. -/
inductive Leads (setup : Setup) (offset : Nat) : Nat → Prop where
  /-- the next instruction, past `gap` bytes hinted as inline data -/
  | next (status : StatusFlags) (gap : Nat) (hvalid : (setup.opcodeAt offset).isValid = true)
      (heffect : (setup.opcodeAt offset).effect = .next ∨ (setup.opcodeAt offset).effect = .call
        ∨ (setup.opcodeAt offset).effect = .conditionalBranch)
      (hgap : ∀ k < gap,
        setup.hintAt (offset + (setup.opcodeAt offset).length status + k) = .inlineData) :
      Leads setup offset (offset + (setup.opcodeAt offset).length status + gap)
  /-- the place that the operand of a branch or call names -/
  | taken {target : Nat} (hvalid : (setup.opcodeAt offset).isValid = true)
      (htarget : directTarget? setup offset = some target) : Leads setup offset target

/-- A byte of the image that is hinted as code and is an opcode leads to the byte. -/
def Reachable (setup : Setup) (i : Nat) : Prop :=
  ∃ entry < setup.image.size, setup.hintAt entry = .code
    ∧ (setup.opcodeAt entry).isValid = true ∧ Relation.ReflTransGen (Leads setup) entry i

theorem Reachable.leads {setup : Setup} {i j : Nat} (hi : Reachable setup i)
    (h : Leads setup i j) : Reachable setup j := by
  obtain ⟨entry, hin, hhint, hvalid, hpath⟩ := hi
  exact ⟨entry, hin, hhint, hvalid, hpath.tail h⟩

/-! ### What is noted about a byte -/

/-- The byte at an offset lies where the map says, is marked as hinted only by a hint, and names no
branch target but the one its operand names. -/
structure Noted (setup : Setup) (i : Nat) (a : Attribute) : Prop where
  address : i < setup.image.size → a.address = (setup.map.addressOf? i).getD 0
  hinted : a.isHinted = true → (setup.hintMark? i).isSome = true
  fresh : a.isVisited = false → a.operandIsDirect = false
  target : i < setup.image.size → ∀ t, branchTarget? (setup.opcodeAt i) a = some t →
    directTarget? setup i = some t

namespace Noted

variable {setup : Setup} {i : Nat} {a b : Attribute}

theorem congr (ha : Noted setup i a) (haddress : b.address = a.address)
    (hhinted : b.isHinted = a.isHinted) (hvisited : b.isVisited = false → a.isVisited = false)
    (hoffset : b.operandOffset = a.operandOffset)
    (hdirect : b.operandIsDirect = a.operandIsDirect) : Noted setup i b := by
  refine ⟨fun hi => haddress.trans (ha.address hi), fun hb => ha.hinted (hhinted.symm.trans hb),
    fun hb => hdirect.trans (ha.fresh (hvisited hb)), fun hi t ht => ha.target hi t ?_⟩
  unfold branchTarget? at ht ⊢
  rwa [hoffset, hdirect] at ht

theorem keeps (setup : Setup) : Keeps setup False (Noted setup) where
  evolves h ha :=
    ha.congr h.sameDecoding.address (h.own rfl) (fun hb => h.visited.symm.trans hb)
      h.sameDecoding.operandOffset h.sameDecoding.operandIsDirect
  visit ha := ha.congr rfl (by simp [visitByte]) (by simp [visitByte]) rfl rfl
  reject _ ha := ha.congr rfl (by simp [rejectByte]) (by simp [rejectByte]) rfl rfl
  decode {i a} ha := by
    refine ⟨fun hi => ?_, fun hb => ha.hinted ?_, by simp [decodedByte_has], fun hi t ht => ?_⟩
    · rw [decodedByte_address]
      exact ha.address hi
    · simpa [decodedByte_has] using hb
    · by_cases hv : a.isVisited = true
      · rw [branchTarget?_decodedByte_again hv] at ht
        exact ha.target hi t ht
      · rw [Bool.not_eq_true] at hv
        rwa [branchTarget?_decodedByte_first hv (ha.address hi) (ha.fresh hv)] at ht
  stop on hm ha := by
    rcases hm with rfl | rfl <;> exact ha.congr rfl (by simp) (by simp) rfl rfl
  enter status ha := ha.congr rfl (by simp) (by simp) rfl rfl

theorem prepare (setup : Setup) (i : Nat) :
    Noted setup i ((setup.prepare (Attributes.blank setup.image.size)).info i) := by
  rw [info_prepare]
  split
  · obtain ⟨haddress, _, _, hdirect⟩ := prepareByte_kept setup i
    refine ⟨fun _ => haddress, fun hb => ?_, fun _ => hdirect, fun _ t ht => ?_⟩
    · rw [Attribute.isHinted, prepareByte_has] at hb
      rcases hintMark?_cases setup i with h | ⟨h, _⟩ | ⟨h, _⟩ | ⟨h, _⟩ <;> simp_all
    · rw [branchTarget?_of_not_direct hdirect] at ht
      cases ht
  · rename_i hout
    exact ⟨fun hi => absurd hi hout, fun hb => absurd hb (by decide), fun _ => rfl,
      fun hi => absurd hi hout⟩

end Noted

/-! ### Along the steps -/

/-- Without plugins: what has been visited or is in line for a visit can be reached. -/
structure Rooted (setup : Setup) (c : Config ν σ) : Prop where
  consistent : Consistent setup c
  noted : ∀ i, Noted setup i (c.state.info i)
  untitled : ∀ i, Untitled setup i (c.state.info i)
  visited : ∀ i, (c.state.info i).isVisited = true → Reachable setup i
  awaited : ∀ i, c.Awaits i → Reachable setup i

section Visit

variable {setup : Setup} {offset : Nat} {s : State ν σ} {out : State ν σ × Option Nat}

/-- A target that a visit puts on the list is one that the visited instruction leads to. -/
theorem Visits.leads_pending (h : Visits setup False offset s out)
    (hnoted : Noted setup offset (s.info offset)) {t : Nat} (ht : t ∈ out.1.pending) :
    t ∈ s.pending ∨ Leads setup offset t := by
  cases h with
  | skip _ | halt _ _ _ | reject _ _ _ _ => exact Or.inl ht
  | execute hin _ _ _ hvalid h =>
      rcases h.pending with hp | ⟨target, htarget, hp, _⟩ <;> rw [hp] at ht
      · exact Or.inl ht
      · rcases List.mem_cons.mp ht with rfl | ht
        · exact Or.inr (.taken hvalid (((Noted.keeps setup).decode hnoted).target hin t htarget))
        · exact Or.inl ht

/-- Where control goes on is where the visited instruction leads. -/
theorem Visits.leads_next (h : Visits setup False offset s out) (hpanel : s.panel = [])
    (huntitled : ∀ i, Untitled setup i (s.info i)) {n : Nat} (hn : out.2 = some n) :
    Leads setup offset n := by
  cases h with
  | skip _ | halt _ _ _ | reject _ _ _ _ => cases hn
  | execute _ _ _ _ hvalid h =>
      obtain ⟨hgo, hlow, hpassed⟩ := h.onward n hpanel hn
      obtain ⟨gap, rfl⟩ := Nat.exists_eq_add_of_le hlow
      refine .next (s.info offset).status gap hvalid ?_ fun k hk => ?_
      · have hfalls := (Bool.and_eq_true_iff.mp hgo).1
        revert hfalls
        cases (setup.opcodeAt offset).effect <;> simp [FlowEffect.fallsThrough]
      · exact (huntitled _).inline (hpassed _ (by omega) (by omega))

end Visit

theorem step_rooted {setup : Setup} {c d : Config ν σ} (hc : Rooted setup c)
    (h : step setup c = some d) : Rooted setup d := by
  have hpanel := hc.consistent.panel
  have hsize := hc.consistent.placed.size
  have hconsistent := step_consistent hc.consistent h
  have hnoted := (Noted.keeps setup).step (fun hne => hne hpanel) hsize hc.noted h
  have huntitled := (Untitled.keeps setup).step (fun hne => hne hpanel) hsize hc.untitled h
  refine ⟨hconsistent, hnoted, huntitled, ?_, ?_⟩ <;>
    rcases step_cases h with ⟨offset, hcurrent, rfl⟩ | ⟨target, rest, hcurrent, hp, rfl⟩
      | ⟨hcurrent, hp, hsearch, hentry, rfl⟩ | ⟨hcurrent, hp, _, _, rfl⟩
  · intro i hi
    have hvisits : Visits setup False offset c.state (visit setup offset c.state) :=
      visit_visits (fun hne => hne hpanel) hsize
    by_cases hio : i = offset
    · subst hio
      exact hc.awaited i (Or.inr hcurrent)
    · exact hc.visited i ((hvisits.others hio).visited.symm.trans hi)
  · exact hc.visited
  · intro i hi
    refine hc.visited i ?_
    dsimp only at hi
    rw [info_enter] at hi
    split at hi
    · simpa using hi
    · exact hi
  · exact hc.visited
  · intro i hi
    have hvisits : Visits setup False offset c.state (visit setup offset c.state) :=
      visit_visits (fun hne => hne hpanel) hsize
    have hoffset := hc.awaited offset (Or.inr hcurrent)
    rcases hi with hi | hi
    · rcases hvisits.leads_pending (hc.noted offset) hi with hold | hleads
      · exact hc.awaited i (Or.inl hold)
      · exact hoffset.leads hleads
    · exact hoffset.leads (hvisits.leads_next hpanel hc.untitled hi)
  · exact fun i hi => hc.awaited i ((Config.awaits_pop hcurrent hp i).mp hi)
  · intro i hi
    rcases hi with hi | hi
    · exact hc.awaited i (Or.inl hi)
    · -- an entry point is hinted as code, and only an opcode keeps that hint
      cases hi
      obtain ⟨⟨⟨hhint, hhinted⟩, _⟩, _⟩ := isEntry_iff.mp hentry
      have hmark := (hc.noted c.search).hinted hhinted
      refine ⟨c.search, hsearch, hhint, ?_, .refl⟩
      by_contra hinvalid
      simp [Setup.hintMark?, hhint, hinvalid] at hmark
  · intro i hi
    rcases hi with hi | hi
    · exact hc.awaited i (Or.inl hi)
    · cases hi

theorem startConfig_rooted (setup : Setup) :
    Rooted setup (startConfig setup ([] : List (Plugin ν σ))) := by
  refine ⟨startConfig_consistent setup, Noted.prepare setup, Untitled.prepare setup,
    fun i hi => ?_, fun i hi => absurd hi (startConfig_awaits setup [] i)⟩
  rw [startConfig_info, Attribute.isVisited, info_prepare_has i (by decide)] at hi
  cases hi

/-! ### In the result -/

/-- **No code is made up.**  Every byte that has been visited can be reached, instruction by
instruction, from a byte that is hinted as code and is an opcode; and a byte of code at which no
instruction starts lies inside the nearest instruction before it. -/
theorem analyze_reachable (setup : Setup) (s : State ν σ)
    (h : analyze setup [] (Attributes.blank setup.image.size) = .ok s) :
    (∀ i, (s.attributes.info i).isVisited = true → Reachable setup i)
      ∧ ∀ i, (s.attributes.info i).isInstruction = true →
          (s.attributes.info i).isInstructionStart = false →
          ∃ p < i, (s.attributes.info p).isInstructionStart = true
            ∧ (∀ j, p < j → j < i → (s.attributes.info j).isInstructionStart = false)
            ∧ i < p + (s.attributes.info p).instructionLength := by
  obtain ⟨n, _, t, hsteps, _, houtcome⟩ := outcome_reached setup ([] : List (Plugin ν σ))
  obtain ⟨_, rfl⟩ := analyze_eq_ok.mp h
  rw [houtcome]
  have hrooted := hsteps.preserves step_rooted (startConfig_rooted setup)
  refine ⟨fun i hi => ?_, fun i hcode hstart => ?_⟩
  · exact hrooted.visited i (((info_settle t.attributes i).has (by decide)).symm.trans hi)
  · obtain ⟨p, hcover⟩ := settle_covered t.attributes hcode hstart
    exact ⟨p, hcover.lt, hcover.starts, hcover.nearest, hcover.reach⟩

/-- A call with a byte of inline data after it.  The subroutine starts with a test whose operand is
an instruction as well, to which the branch after it leads. -/
def inlineCall : Setup where
  image := #[0x20, 0x05, 0x80, 0xff, 0x60, 0x2c, 0xa9, 0x00, 0xd0, 0xfc, 0x60]
  processor := ⟨.nmos6502, true, OpcodeTable.blank.overlay
    [Layer.op 0x20 .jsr .abs .call .keep, Layer.op 0x60 .rts .stackRts .stop .keep,
     Layer.plain 0x2c .bit .abs .keep, Layer.plain 0xa9 .lda .imm .loadImmediate,
     Layer.branch 0xd0 .bne .zero false]⟩
  map := ⟨[⟨0, 11, 0x8000⟩], 11⟩
  parameters := .initial
  hints := #[.code, .unset, .unset, .inlineData, .unset, .unset, .unset, .unset, .unset, .unset,
    .unset]
  overrides := #[]
  entryStatus := .indeterminate

theorem analyze_inlineCall :
    analyze inlineCall [] (Attributes.blank inlineCall.image.size)
      = .ok (outcome inlineCall ([] : List (Plugin Unit Unit))) :=
  analyze_eq_ok.mpr ⟨check_eq_ok.mpr (by decide), rfl⟩

/-- The return at 4 is reached past the inline byte, and the byte at 7 belongs to the instruction at
6, not to the one at 5. -/
theorem analyze_reachable_inlineCall :
    ∃ s : State Unit Unit,
      analyze inlineCall [] (Attributes.blank inlineCall.image.size) = .ok s
        ∧ (s.attributes.info 4).isVisited = true ∧ Reachable inlineCall 4
        ∧ (s.attributes.info 7).isInstruction = true
        ∧ (s.attributes.info 7).isInstructionStart = false
        ∧ ∃ p < 7, (s.attributes.info p).isInstructionStart = true
          ∧ (∀ j, p < j → j < 7 → (s.attributes.info j).isInstructionStart = false)
          ∧ 7 < p + (s.attributes.info p).instructionLength := by
  have hvisited : ((outcome inlineCall ([] : List (Plugin Unit Unit))).attributes.info
      4).isVisited = true := by decide +kernel
  have hcode : ((outcome inlineCall ([] : List (Plugin Unit Unit))).attributes.info
      7).isInstruction = true := by decide +kernel
  have hstart : ((outcome inlineCall ([] : List (Plugin Unit Unit))).attributes.info
      7).isInstructionStart = false := by decide +kernel
  obtain ⟨hreach, hinside⟩ := analyze_reachable inlineCall _ analyze_inlineCall
  exact ⟨_, analyze_inlineCall, hvisited, hreach 4 hvisited, hcode, hstart,
    hinside 7 hcode hstart⟩

end Disasm65.Flow
