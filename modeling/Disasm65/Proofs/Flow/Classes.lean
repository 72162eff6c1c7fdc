/-
What a byte is: code, data or inline data.

Hints, decoding, rejection and settling all switch the three marks that say so on and off, each with
no regard to the others.  No byte ever has two of them (`Unmixed`): an instruction takes the other
two marks from the bytes it reaches over, and only a byte that has neither is rejected.  No byte
gets a symbol while control is followed, and without plugins only settling gives a format.  A plugin
can make data inline data too, but code it cannot (`Coded`).

An invariant of this kind is about one byte at a time.  `Keeps` lists what has to be checked, and
`Keeps.steps` follows it to the end of the analysis.
-/
import Mathlib
import Disasm65.Proofs.Flow.Consistency
import Disasm65.Proofs.Flow.Cover

namespace Disasm65

namespace Attribute

/-- The marks that say what a byte is. -/
def isClassMark : Mark → Bool
  | .instructionStart | .instruction | .inlineData | .data => true
  | .entryPoint | .branchTarget | .externalBranch | .visited | .changed | .hinted | .noContinue
  | .noContinuePlugin | .regionStart => false

/-- Code is neither data nor inline data, and an instruction starts only in code. -/
structure Coded (a : Attribute) : Prop where
  code : a.isInstruction = true → a.isData = false ∧ a.isInlineData = false
  start : a.isInstructionStart = true → a.isInstruction = true

theorem Coded.start_eq_false {a : Attribute} (ha : a.Coded) (hcode : a.isInstruction = false) :
    a.isInstructionStart = false :=
  Bool.eq_false_iff.mpr fun hstart => by
    rw [ha.start hstart] at hcode
    cases hcode

theorem Coded.congr {a b : Attribute} (ha : a.Coded)
    (h : ∀ m, isClassMark m = true → b.marks.has m = a.marks.has m) : b.Coded := by
  obtain ⟨hcode, hstart⟩ := ha
  unfold isInstruction isData isInlineData at hcode
  unfold isInstructionStart isInstruction at hstart
  refine ⟨?_, ?_⟩
  · rw [isInstruction, isData, isInlineData, h _ rfl, h _ rfl, h _ rfl]
    exact hcode
  · rw [isInstructionStart, isInstruction, h _ rfl, h _ rfl]
    exact hstart

/-- The byte has one class at most, and an instruction starts only in code. -/
structure Unmixed (a : Attribute) : Prop where
  code : a.isInstruction = true → a.isData = false ∧ a.isInlineData = false
  data : a.isData = true → a.isInlineData = false
  start : a.isInstructionStart = true → a.isInstruction = true

theorem Unmixed.coded {a : Attribute} (ha : a.Unmixed) : a.Coded := ⟨ha.code, ha.start⟩

theorem Unmixed.congr {a b : Attribute} (ha : a.Unmixed)
    (h : ∀ m, isClassMark m = true → b.marks.has m = a.marks.has m) : b.Unmixed := by
  have hcoded := ha.coded.congr h
  have hdata := ha.data
  refine ⟨hcoded.code, ?_, hcoded.start⟩
  unfold isData isInlineData at hdata ⊢
  rw [h _ rfl, h _ rfl]
  exact hdata

end Attribute

namespace Flow

variable {ν σ : Type}

/-! ### What holds of a byte whatever happens to it -/

/-- Nothing that happens to the byte at an offset makes an end of `P`.  `plugins` says that there
are plugins that may be asked. -/
structure Keeps (setup : Setup) (plugins : Prop) (P : Nat → Attribute → Prop) : Prop where
  evolves : ∀ {i a b}, Evolves setup plugins i a b → P i a → P i b
  visit : ∀ {i a}, P i a → P i (visitByte a)
  reject : ∀ {i a}, isBlocked a = false → P i a → P i (rejectByte a)
  decode : ∀ {i a}, P i a → P i (decodedByte setup i a)
  stop : ∀ {i a m} (on : Bool), m = .noContinue ∨ m = .noContinuePlugin → P i a →
    P i (a.putMark m on)
  enter : ∀ {i a} (status : StatusFlags), P i a →
    P i { a.mark .entryPoint with status := status }

namespace Keeps

variable {setup : Setup} {plugins : Prop} {P : Nat → Attribute → Prop}

theorem step (hP : Keeps setup plugins P) {c d : Config ν σ}
    (hpanel : c.state.panel ≠ [] → plugins)
    (hsize : c.state.attributes.size = setup.image.size) (hc : ∀ i, P i (c.state.info i))
    (h : Flow.step setup c = some d) (i : Nat) : P i (d.state.info i) := by
  rcases step_cases h with ⟨offset, _, rfl⟩ | ⟨target, rest, _, _, rfl⟩ | ⟨_, _, _, _, rfl⟩
    | ⟨_, _, _, _, rfl⟩
  · have hvisits : Visits setup plugins offset c.state (Flow.visit setup offset c.state) :=
      visit_visits hpanel hsize
    exact hvisits.preserves (hc i) hP.evolves hP.visit hP.reject hP.decode hP.stop
  · exact hc i
  · dsimp only
    rw [info_enter]
    split
    · exact hP.enter _ (hc i)
    · exact hc i
  · exact hc i

/-- **What nothing makes an end of holds from the first step to the last.** -/
theorem steps (hP : Keeps setup False P) {n : Nat} {d : Config ν σ}
    (hstart : ∀ i, P i ((setup.prepare (Attributes.blank setup.image.size)).info i))
    (h : Steps setup n (startConfig setup []) d) (i : Nat) : P i (d.state.info i) := by
  have hall := h.preserves (P := fun c => Consistent setup c ∧ ∀ i, P i (c.state.info i))
    (fun hc hstep => ⟨step_consistent hc.1 hstep,
      hP.step (fun hne => hne hc.1.panel) hc.1.placed.size hc.2 hstep⟩)
    ⟨startConfig_consistent setup, hstart⟩
  exact hall.2 i

/-- The same whatever the plugins do. -/
theorem steps_asked (hP : Keeps setup True P) {panel : List (Plugin ν σ)} {n : Nat}
    {d : Config ν σ}
    (hstart : ∀ i, P i ((setup.prepare (Attributes.blank setup.image.size)).info i))
    (h : Steps setup n (startConfig setup panel) d) (i : Nat) : P i (d.state.info i) := by
  have hall := h.preserves (P := fun c => Placed setup c.state ∧ ∀ i, P i (c.state.info i))
    (fun hc hstep => ⟨step_placed hc.1 hstep,
      hP.step (fun _ => trivial) hc.1.size hc.2 hstep⟩)
    ⟨startConfig_placed setup panel, hstart⟩
  exact hall.2 i

end Keeps

/-! ### While control is followed -/

section Fields

variable {setup : Setup} {offset : Nat} {a : Attribute}

theorem claimByte_symbol : (claimByte a).symbol = a.symbol := by
  unfold claimByte
  dsimp only
  split <;> rfl

theorem claimByte_format :
    (claimByte a).format = a.format ∨ (claimByte a).format = none := by
  unfold claimByte
  dsimp only
  split
  · exact Or.inr rfl
  · exact Or.inl rfl

theorem handByte_symbol_format (incoming : StatusFlags) :
    (handByte setup offset incoming a).symbol = a.symbol
      ∧ (handByte setup offset incoming a).format = a.format := by
  unfold handByte
  dsimp only
  split <;> exact ⟨rfl, rfl⟩

theorem resolveOperand_symbol_format (op : Opcode) :
    (resolveOperand setup offset op a).symbol = a.symbol
      ∧ (resolveOperand setup offset op a).format = a.format := by
  unfold resolveOperand
  split
  · exact ⟨rfl, rfl⟩
  · split <;> exact ⟨rfl, rfl⟩

theorem noteBranch_symbol_format (op : Opcode) (status : StatusFlags) (target : Option Nat) :
    (noteBranch op status target a).symbol = a.symbol
      ∧ (noteBranch op status target a).format = a.format := by
  unfold noteBranch
  dsimp only
  split <;> exact ⟨rfl, rfl⟩

theorem decodedByte_symbol : (decodedByte setup offset a).symbol = a.symbol := by
  unfold decodedByte decodeByte
  dsimp only
  rw [(noteBranch_symbol_format _ _ _).1]
  split
  · rw [(resolveOperand_symbol_format _).1, claimByte_symbol]
    rfl
  · rw [claimByte_symbol]
    rfl

theorem decodedByte_format :
    (decodedByte setup offset a).format = a.format
      ∨ (decodedByte setup offset a).format = none := by
  unfold decodedByte decodeByte
  dsimp only
  rw [(noteBranch_symbol_format _ _ _).2]
  split
  · rw [(resolveOperand_symbol_format _).2]
    exact claimByte_format
  · exact claimByte_format

end Fields

/-- The byte at an offset while control is followed without plugins. -/
structure Untitled (setup : Setup) (i : Nat) (a : Attribute) : Prop where
  unmixed : a.Unmixed
  inline : a.isInlineData = true → setup.hintAt i = .inlineData
  symbol : a.symbol = none
  format : a.format = none

namespace Untitled

variable {setup : Setup} {i : Nat} {a b : Attribute}

theorem congr (ha : Untitled setup i a)
    (h : ∀ m, Attribute.isClassMark m = true → b.marks.has m = a.marks.has m)
    (hsymbol : b.symbol = a.symbol) (hformat : b.format = a.format) : Untitled setup i b := by
  refine ⟨ha.unmixed.congr h, fun hb => ha.inline ?_, hsymbol.trans ha.symbol,
    hformat.trans ha.format⟩
  rw [Attribute.isInlineData, ← h _ rfl]
  exact hb

theorem evolves (ha : Untitled setup i a) (h : Evolves setup False i a b) :
    Untitled setup i b := by
  induction h with
  | refl => exact ha
  | claim _ ih =>
      exact ⟨⟨by simp, by simp, by simp⟩, by simp, claimByte_symbol.trans ih.symbol,
        claimByte_format.elim (fun hsame => hsame.trans ih.format) id⟩
  | hand incoming _ ih =>
      refine ih.congr (fun m hm => ?_) (handByte_symbol_format incoming).1
        (handByte_symbol_format incoming).2
      cases m <;> simp_all [Attribute.isClassMark]
  | target _ ih =>
      refine ih.congr (fun m hm => ?_) rfl rfl
      cases m <;> simp_all [Attribute.isClassMark]
  | serve hp _ _ _ => exact absurd hp id

theorem keeps (setup : Setup) : Keeps setup False (Untitled setup) where
  evolves h ha := ha.evolves h
  visit ha := by
    refine ha.congr (fun m hm => ?_) rfl rfl
    cases m <;> simp_all [Attribute.isClassMark, visitByte]
  reject hblocked ha := by
    obtain ⟨_, hinline⟩ := Bool.or_eq_false_iff.mp hblocked
    exact ⟨⟨by simp [rejectByte], fun _ => by simpa [rejectByte] using hinline,
      by simp [rejectByte]⟩, fun hb => ha.inline (by simpa [rejectByte] using hb), ha.symbol,
      ha.format⟩
  decode ha :=
    ⟨⟨by simp [decodedByte_has], by simp [decodedByte_has], by simp [decodedByte_has]⟩,
      by simp [decodedByte_has], decodedByte_symbol.trans ha.symbol,
      decodedByte_format.elim (fun hsame => hsame.trans ha.format) id⟩
  stop on hm ha := by
    refine ha.congr (fun n hn => ?_) rfl rfl
    rcases hm with rfl | rfl <;> cases n <;> simp_all [Attribute.isClassMark]
  enter status ha := by
    refine ha.congr (fun m hm => ?_) rfl rfl
    cases m <;> simp_all [Attribute.isClassMark]

/-- Before the first step a byte has the class of its hint. -/
theorem prepare (setup : Setup) (i : Nat) :
    Untitled setup i ((setup.prepare (Attributes.blank setup.image.size)).info i) := by
  rw [info_prepare]
  split
  · have hkept : (setup.prepareByte i .blank).symbol = none
        ∧ (setup.prepareByte i .blank).format = none := by
      unfold Setup.prepareByte
      dsimp only
      cases setup.hintMark? i <;> cases setup.map.isRegionStart i <;> exact ⟨rfl, rfl⟩
    rcases hintMark?_cases setup i with h | ⟨h, _⟩ | ⟨h, _⟩ | ⟨h, hhint⟩ <;>
      exact ⟨⟨by simp [prepareByte_has, h], by simp [prepareByte_has, h],
        by simp [prepareByte_has, h]⟩, by simp_all [prepareByte_has], hkept.1, hkept.2⟩
  · exact ⟨⟨by decide, by decide, by decide⟩, fun h => absurd h (by decide), rfl, rfl⟩

end Untitled

/-! ### In the result -/

/-- A byte as the analysis leaves it without plugins. -/
structure Finished (a : Attribute) : Prop where
  unmixed : a.Unmixed
  symbol : a.symbol = none
  format : a.format = none ∨ a.isInlineData = true ∧ a.format = some .oneByteNumber

theorem Untitled.settled {setup : Setup} {i : Nat} {a b : Attribute} (ha : Untitled setup i a)
    (h : Settled a b) : Finished b := by
  rcases h with rfl | ⟨hstart, rfl⟩
  · exact ⟨ha.unmixed, ha.symbol, Or.inl ha.format⟩
  · unfold settleByte
    split
    · rename_i hcode
      obtain ⟨hdata, hinline⟩ := ha.unmixed.code hcode
      rw [if_neg (by rw [isBlocked, hdata, hinline]; decide)]
      exact ⟨⟨by simp, by simpa using hdata, by simpa using hstart⟩, ha.symbol,
        Or.inr ⟨by simp, rfl⟩⟩
    · exact ⟨ha.unmixed, ha.symbol, Or.inl ha.format⟩

/-- Where the analysis ends without plugins. -/
theorem outcome_consistent (setup : Setup) :
    ∃ n c, Steps setup n (startConfig setup ([] : List (Plugin ν σ))) c ∧ Consistent setup c
      ∧ (outcome setup ([] : List (Plugin ν σ))).attributes = settle c.state.attributes := by
  obtain ⟨n, _, t, hsteps, _, houtcome⟩ := outcome_reached setup ([] : List (Plugin ν σ))
  exact ⟨n, _, hsteps, hsteps.preserves step_consistent (startConfig_consistent setup),
    by rw [houtcome]⟩

/-- An instruction has the length that its opcode has under its status. -/
theorem outcome_length (setup : Setup) {i : Nat}
    (hs : ((outcome setup ([] : List (Plugin ν σ))).attributes.info i).isInstructionStart = true) :
    ((outcome setup ([] : List (Plugin ν σ))).attributes.info i).instructionLength
      = (setup.opcodeAt i).length
        ((outcome setup ([] : List (Plugin ν σ))).attributes.info i).status := by
  obtain ⟨n, _, t, hsteps, hend, houtcome⟩ := outcome_reached setup ([] : List (Plugin ν σ))
  have hconsistent := hsteps.preserves step_consistent (startConfig_consistent setup)
  have hunchanged : (t.info i).isChanged = false := by
    by_contra hc
    exact Config.not_awaits rfl hend i (hconsistent.changed i (by simpa using hc))
  rw [houtcome] at hs ⊢
  have heq := (info_settle t.attributes i).eq_of_start hs
  dsimp only at hs ⊢
  rw [heq] at hs ⊢
  exact (hconsistent.bytes i).length hs hunchanged

/-- **What the analysis leaves has one class at most.** -/
theorem outcome_finished (setup : Setup) (i : Nat) :
    Finished ((outcome setup ([] : List (Plugin ν σ))).attributes.info i) := by
  obtain ⟨n, c, hsteps, _, houtcome⟩ := outcome_consistent (ν := ν) (σ := σ) setup
  rw [houtcome]
  exact ((Untitled.keeps setup).steps (Untitled.prepare setup) hsteps i).settled
    (info_settle c.state.attributes i)

/-! ### Symbols, whatever the plugins do -/

theorem Served.symbol {a b : Attribute} (h : Served a b) : b.symbol = a.symbol := by
  induction h with
  | refl => rfl
  | format _ _ ih => exact ih
  | inline _ _ ih => exact ih

theorem Evolves.symbol {setup : Setup} {plugins : Prop} {offset : Nat} {a b : Attribute}
    (h : Evolves setup plugins offset a b) : b.symbol = a.symbol := by
  induction h with
  | refl => rfl
  | claim _ ih => exact claimByte_symbol.trans ih
  | hand incoming _ ih => exact (handByte_symbol_format incoming).1.trans ih
  | target _ ih => exact ih
  | serve _ hs _ ih => exact hs.symbol.trans ih

theorem symbolless_keeps (setup : Setup) : Keeps setup True fun _ a => a.symbol = none where
  evolves h ha := h.symbol.trans ha
  visit ha := ha
  reject _ ha := ha
  decode ha := decodedByte_symbol.trans ha
  stop _ _ ha := ha
  enter _ ha := ha

/-- Following control gives no byte a symbol. -/
theorem outcome_symbol (setup : Setup) (panel : List (Plugin ν σ)) (i : Nat) :
    ((outcome setup panel).attributes.info i).symbol = none := by
  obtain ⟨n, _, t, hsteps, _, houtcome⟩ := outcome_reached setup panel
  have hnone := (symbolless_keeps setup).steps_asked
    (fun i => (Untitled.prepare setup i).symbol) hsteps i
  rw [houtcome]
  rcases info_settle t.attributes i with hsame | ⟨_, hsettled⟩
  · rw [hsame]
    exact hnone
  · rw [hsettled, settleByte]
    repeat' split
    all_goals exact hnone

/-! ### Code, whatever the plugins do -/

/-- Plugins can claim what is not code, and nothing else. -/
theorem Served.coded {a b : Attribute} (h : Served a b) (ha : a.Coded) : b.Coded := by
  refine ⟨fun hb => ?_, fun hb => ?_⟩
  · rw [Attribute.isInstruction, h.has (by decide)] at hb
    obtain ⟨hdata, hinline⟩ := ha.code hb
    refine ⟨(h.has (by decide)).trans hdata, Bool.eq_false_iff.mpr fun hclaimed => ?_⟩
    rcases h.inlineData hclaimed with hbefore | hfree
    · rw [hinline] at hbefore
      cases hbefore
    · rw [Attribute.isInstruction, hb] at hfree
      cases hfree
  · rw [Attribute.isInstructionStart, h.has (by decide)] at hb
    rw [Attribute.isInstruction, h.has (by decide)]
    exact ha.start hb

theorem Evolves.coded {setup : Setup} {plugins : Prop} {offset : Nat} {a b : Attribute}
    (h : Evolves setup plugins offset a b) (ha : a.Coded) : b.Coded := by
  induction h with
  | refl => exact ha
  | claim _ ih => exact ⟨by simp, by simp⟩
  | hand incoming _ ih =>
      refine ih.congr fun m hm => ?_
      cases m <;> simp_all [Attribute.isClassMark]
  | target _ ih =>
      refine ih.congr fun m hm => ?_
      cases m <;> simp_all [Attribute.isClassMark]
  | serve _ hs _ ih => exact hs.coded ih

theorem coded_keeps (setup : Setup) : Keeps setup True fun _ a => a.Coded where
  evolves h ha := h.coded ha
  visit ha := by
    refine ha.congr fun m hm => ?_
    cases m <;> simp_all [Attribute.isClassMark, visitByte]
  reject _ _ := ⟨by simp [rejectByte], by simp [rejectByte]⟩
  decode _ := ⟨by simp [decodedByte_has], by simp [decodedByte_has]⟩
  stop on hm ha := by
    refine ha.congr fun n hn => ?_
    rcases hm with rfl | rfl <;> cases n <;> simp_all [Attribute.isClassMark]
  enter status ha := by
    refine ha.congr fun m hm => ?_
    cases m <;> simp_all [Attribute.isClassMark]

/-- **Whatever the plugins do, code is nothing else.** -/
theorem outcome_coded (setup : Setup) (panel : List (Plugin ν σ)) (i : Nat) :
    ((outcome setup panel).attributes.info i).Coded := by
  obtain ⟨n, _, t, hsteps, _, houtcome⟩ := outcome_reached setup panel
  have hcoded := (coded_keeps setup).steps_asked
    (fun i => (Untitled.prepare setup i).unmixed.coded) hsteps i
  rw [houtcome]
  rcases info_settle t.attributes i with hsame | ⟨hstart, hsettled⟩
  · rw [hsame]
    exact hcoded
  · have hsame := (info_settle t.attributes i).has (m := .instructionStart) (by decide)
    refine ⟨fun hcode => ?_, fun hbegins => ?_⟩
    · rw [hsettled, settleByte_isInstruction] at hcode
      cases hcode
    · rw [Attribute.isInstructionStart, hsame] at hbegins
      rw [Attribute.isInstructionStart, hbegins] at hstart
      cases hstart

end Flow

end Disasm65
