/-
What the analysis reads of the image.

A visit reads the opcode of its byte and, once the instruction turns out to fit, the bytes of the
instruction.  Looking for the PHP of a PLP it reads opcodes of instructions that have been visited.
Every byte that is read this way is seen: it has been visited or is part of an instruction.  A byte
that is seen stays so (`step_seen`), up to the result, where it may have become inline data.

So with another image that agrees on the bytes that are seen in the end, and on those hinted as
code, every step is the same (`steps_withImage`), and so is the result (`analyze_withImage`).
-/
import Mathlib
import Disasm65.Proofs.Flow.Classes
import Disasm65.Proofs.Image.Bytes

namespace Disasm65.Flow

variable {ν σ : Type}

/-- The setup with another image. -/
def Setup.withImage (setup : Setup) (image : Image) : Setup := { setup with image := image }

/-- The byte has been read, or is inline data. -/
def isSeen (a : Attribute) : Bool := a.isVisited || a.isInstruction || a.isInlineData

/-- The images have the same size and agree on the bytes that are seen. -/
structure Agrees (setup : Setup) (image : Image) (attributes : Attributes) : Prop where
  size : image.size = setup.image.size
  seen : ∀ i < setup.image.size, isSeen (attributes.info i) = true →
    image.byteAt i = setup.image.byteAt i

/-! ### Reading -/

section Reading

variable {setup : Setup} {image : Image} (hsize : image.size = setup.image.size)

include hsize

theorem slice?_of_agree {offset length : Nat}
    (h : ∀ i, offset ≤ i → i < offset + length → image.byteAt i = setup.image.byteAt i) :
    image.slice? offset length = setup.image.slice? offset length := by
  by_cases hend : offset + length ≤ setup.image.size
  · rw [Image.slice?_eq_some (hsize ▸ hend), Image.slice?_eq_some hend]
    refine congrArg some (List.map_congr_left fun i hi => ?_)
    have hlt := List.mem_range.mp hi
    exact h (offset + i) (by omega) (by omega)
  · rw [Image.slice?, Image.slice?, hsize, if_neg hend, if_neg hend]

variable {offset : Nat} {op : Opcode} {status : StatusFlags}

/-- An operand is read from the bytes of the instruction. -/
theorem operand?_of_agree
    (h : ∀ i, offset ≤ i → i < offset + op.length status →
      image.byteAt i = setup.image.byteAt i) :
    op.operand? image offset status = op.operand? setup.image offset status := by
  unfold Opcode.operand?
  dsimp only
  rw [slice?_of_agree hsize h]

theorem transition_of_agree
    (h : ∀ i, offset ≤ i → i < offset + op.length status →
      image.byteAt i = setup.image.byteAt i) :
    op.transition status image offset = op.transition status setup.image offset := by
  unfold Opcode.transition Opcode.immediate?
  rw [operand?_of_agree hsize h]

omit hsize in
theorem opcodeAt_withImage (h : image.byteAt offset = setup.image.byteAt offset) :
    (setup.withImage image).opcodeAt offset = setup.opcodeAt offset :=
  congrArg setup.processor.opcode h

end Reading

/-- A change of one byte depends on what it makes of that byte only. -/
theorem State.update_congr {s : State ν σ} {offset : Nat} {change change' : Attribute → Attribute}
    (h : change (s.info offset) = change' (s.info offset)) :
    s.update offset change = s.update offset change' := by
  have hattributes : s.attributes.update offset change = s.attributes.update offset change' := by
    refine Attributes.ext_info (by simp) fun i _ => ?_
    rw [Attributes.info_update, Attributes.info_update]
    split
    · rename_i hi
      rw [← hi.1]
      exact h
    · rfl
  unfold State.update
  rw [hattributes]

section Visit

variable {setup : Setup} {image : Image}

/-- To find the status that a PLP pulls, no opcodes are read but those of visited bytes. -/
theorem pulledStatus_withImage {attributes : Attributes} {offset : Nat}
    (h : ∀ i, (attributes.info i).isVisited = true → i < offset →
      image.byteAt i = setup.image.byteAt i) :
    pulledStatus (setup.withImage image) attributes offset
      = pulledStatus setup attributes offset := by
  have hmatch : matchingPhp? (setup.withImage image) attributes offset
      = matchingPhp? setup attributes offset := by
    refine matchingPhp?_congr rfl fun i hi => ?_
    unfold isPushAt
    by_cases hv : (attributes.info i).isVisited = true
    · rw [opcodeAt_withImage (h i hv hi)]
    · rw [Bool.not_eq_true] at hv
      rw [hv, Bool.and_false, Bool.false_and, Bool.false_and]
  exact pulledStatus_congr rfl rfl rfl (by rw [hmatch])

theorem resolveOperand_withImage {offset : Nat} {op : Opcode} {a : Attribute}
    (h : op.operand? image offset a.status = op.operand? setup.image offset a.status) :
    resolveOperand (setup.withImage image) offset op a = resolveOperand setup offset op a := by
  unfold resolveOperand
  rw [show (setup.withImage image).image = image from rfl, h]
  rfl

theorem fallThrough_withImage (hsize : image.size = setup.image.size) (offset length : Nat)
    (incoming : StatusFlags) (s : State ν σ) :
    fallThrough (setup.withImage image) offset length incoming s
      = fallThrough setup offset length incoming s := by
  unfold fallThrough
  dsimp only
  rw [show (setup.withImage image).image = image from rfl, hsize]
  rfl

/-- Without plugins, leaving an instruction reads nothing of the image. -/
theorem leave_withImage (hsize : image.size = setup.image.size) (offset : Nat) (op : Opcode)
    (length : Nat) (first : Bool) (status next : StatusFlags) {s : State ν σ}
    (hpanel : s.panel = []) :
    leave (setup.withImage image) offset op length first status next s
      = leave setup offset op length first status next s := by
  rw [leave_eq, leave_eq, bothAsked_of_empty hpanel, bothAsked_of_empty hpanel,
    stopMarked_of_empty hpanel, stopMarked_of_empty hpanel]
  dsimp only
  rw [fallThrough_withImage hsize, show (setup.withImage image).image = image from rfl, hsize]

/-- What an execution reads is the same in the other image. -/
structure ReadsSame (setup : Setup) (image : Image) (offset : Nat) (s : State ν σ) : Prop where
  size : image.size = setup.image.size
  instruction : ∀ i, offset ≤ i →
    i < offset + (setup.opcodeAt offset).length (s.info offset).status →
    image.byteAt i = setup.image.byteAt i
  visited : ∀ i, (s.info i).isVisited = true → i < offset →
    image.byteAt i = setup.image.byteAt i

namespace ReadsSame

variable {offset : Nat} {s : State ν σ} (h : ReadsSame setup image offset s)
  (hin : offset < s.attributes.size)

include h

theorem opcodeAt : (setup.withImage image).opcodeAt offset = setup.opcodeAt offset := by
  have hpos := length_pos (setup.opcodeAt offset) (s.info offset).status
  exact opcodeAt_withImage (h.instruction offset (Nat.le_refl _) (by omega))

theorem operand? :
    (setup.opcodeAt offset).operand? image offset (s.info offset).status
      = (setup.opcodeAt offset).operand? setup.image offset (s.info offset).status :=
  operand?_of_agree h.size h.instruction

theorem decodedByte :
    Flow.decodedByte (setup.withImage image) offset (s.info offset)
      = Flow.decodedByte setup offset (s.info offset) := by
  unfold Flow.decodedByte decodeByte
  dsimp only
  rw [h.opcodeAt, resolveOperand_withImage]
  rw [claimByte_status]
  exact h.operand?

theorem afterVisit :
    Flow.afterVisit (setup.withImage image) offset s = Flow.afterVisit setup offset s := by
  unfold Flow.afterVisit statusAfter
  dsimp only
  rw [h.opcodeAt, pulledStatus_withImage fun i hv hi => h.visited i ?_ hi,
    show (setup.withImage image).image = image from rfl, transition_of_agree h.size h.instruction]
  -- the bytes before the instruction have been visited if they had been before
  have hne : i ≠ offset := Nat.ne_of_lt hi
  have hsame : (s.update offset visitByte).info i = s.info i :=
    State.info_update_ne fun hc => hne hc.symm
  rcases info_claimed_ne (s := s.update offset visitByte) hne with heq | heq <;>
    rw [← State.info, heq, hsame] at hv
  · exact hv
  · simpa using hv

include hin

theorem decodedAt :
    Flow.decodedAt (setup.withImage image) offset s = Flow.decodedAt setup offset s := by
  have hresolved : resolved (setup.withImage image) offset (setup.opcodeAt offset)
      ((setup.opcodeAt offset).length (s.info offset).status) (!(s.info offset).isVisited)
      (s.update offset visitByte)
        = resolved setup offset (setup.opcodeAt offset)
          ((setup.opcodeAt offset).length (s.info offset).status) (!(s.info offset).isVisited)
          (s.update offset visitByte) := by
    unfold resolved
    dsimp only
    split
    · refine State.update_congr (resolveOperand_withImage ?_)
      rw [info_claimed_self (by rw [State.size_update]; exact hin) (length_pos _ _),
        claimByte_status, State.info_update_self hin]
      exact h.operand?
    · rfl
  unfold Flow.decodedAt decoded
  dsimp only
  rw [h.opcodeAt, hresolved]

theorem executedAt (hpanel : s.panel = []) :
    Flow.executedAt (setup.withImage image) offset s = Flow.executedAt setup offset s := by
  have hbefore : beforeLeave (setup.withImage image) offset s = beforeLeave setup offset s := by
    unfold beforeLeave
    dsimp only
    rw [h.opcodeAt, h.decodedByte, h.afterVisit, h.decodedAt hin]
    rfl
  unfold Flow.executedAt
  dsimp only
  rw [h.opcodeAt, h.afterVisit, hbefore,
    leave_withImage h.size _ _ _ _ _ _ ((beforeLeave_panel setup offset s).trans hpanel)]

end ReadsSame

end Visit

/-! ### What is seen -/

theorem Evolves.seen {setup : Setup} {i : Nat} {a b : Attribute} (h : Evolves setup False i a b)
    (ha : isSeen a = true) : isSeen b = true := by
  induction h with
  | refl => exact ha
  | claim _ _ => simp [isSeen]
  | hand _ _ ih | target _ ih => simpa [isSeen] using ih
  | serve hp _ _ _ => exact absurd hp id

section Seen

variable {setup : Setup} {offset : Nat} {s : State ν σ}

theorem Visits.seen {out : State ν σ × Option Nat} (h : Visits setup False offset s out)
    (hsize : s.attributes.size = setup.image.size) {i : Nat} (hi : i < setup.image.size)
    (hseen : isSeen (s.info i) = true) : isSeen (out.1.info i) = true := by
  by_cases hio : i = offset
  · subst hio
    rw [isSeen, h.visited hsize hi, Bool.true_or, Bool.true_or]
  · exact (h.others hio).seen hseen

theorem staysInRegion_withImage {image : Image} (hsize : image.size = setup.image.size)
    (attributes : Attributes) (offset length : Nat) :
    staysInRegion (setup.withImage image) attributes offset length
      = staysInRegion setup attributes offset length := by
  unfold staysInRegion
  rw [show (setup.withImage image).image = image from rfl, hsize]

/-- An execution reads nothing that is not seen after it. -/
theorem executedAt_withImage {image : Image} (hpanel : s.panel = [])
    (hsize : s.attributes.size = setup.image.size) (hin : offset < setup.image.size)
    (hstays : staysInRegion setup s.attributes offset
      ((setup.opcodeAt offset).length (s.info offset).status) = true)
    (h : Agrees setup image (executedAt setup offset s).1.attributes) :
    executedAt (setup.withImage image) offset s = executedAt setup offset s := by
  have hend : offset + (setup.opcodeAt offset).length (s.info offset).status
      ≤ setup.image.size := by
    unfold staysInRegion at hstays
    simp only [Bool.and_eq_true, decide_eq_true_eq] at hstays
    exact hstays.1
  have hexecutes : Executes setup False offset s (executedAt setup offset s) :=
    execute_executes setup (fun hne => hne hpanel) hsize hin
  refine ReadsSame.executedAt ⟨h.size, fun i hlow hhigh => ?_, fun i hv hi => ?_⟩
    (by rw [hsize]; exact hin) hpanel
  · refine h.seen i (by omega) ?_
    rw [isSeen, ← State.info, (hexecutes.code i hpanel hend hlow hhigh).1, Bool.or_true,
      Bool.true_or]
  · refine h.seen i (by omega) ((hexecutes.others i (by omega)).seen ?_)
    rw [isSeen, hv, Bool.true_or, Bool.true_or]

/-- **A visit reads nothing that is not seen after it.** -/
theorem visit_withImage {image : Image} (hpanel : s.panel = [])
    (hsize : s.attributes.size = setup.image.size)
    (h : Agrees setup image (visit setup offset s).1.attributes) :
    visit (setup.withImage image) offset s = visit setup offset s := by
  have hvisits : Visits setup False offset s (visit setup offset s) :=
    visit_visits (fun hne => hne hpanel) hsize
  have hother : visit (setup.withImage image) offset s = _ :=
    visit_eq_executedAt (hsize.trans h.size.symm)
  rw [show (setup.withImage image).image = image from rfl, h.size] at hother
  dsimp only at hother
  have hopcode : offset < setup.image.size →
      (setup.withImage image).opcodeAt offset = setup.opcodeAt offset := fun hin => by
    refine opcodeAt_withImage (h.seen offset hin ?_)
    rw [isSeen, ← State.info, hvisits.visited hsize hin, Bool.true_or, Bool.true_or]
  rw [hother]
  rw [visit_eq_executedAt hsize] at h ⊢
  dsimp only at h ⊢
  by_cases hskip : (decide (setup.image.size ≤ offset)
      || (s.info offset).isVisited && !(s.info offset).isChanged) = true
  · rw [if_pos hskip, if_pos hskip]
  have hin : offset < setup.image.size := by
    by_contra hout
    rw [decide_eq_true (Nat.le_of_not_lt hout), Bool.true_or] at hskip
    exact hskip rfl
  rw [if_neg hskip] at h
  rw [if_neg hskip, if_neg hskip, hopcode hin, staysInRegion_withImage h.size]
  -- the two differ at most in what they execute
  by_cases hblocked : isBlocked (s.info offset) = true
  · rw [if_pos hblocked, if_pos hblocked]
  rw [if_neg hblocked] at h
  rw [if_neg hblocked, if_neg hblocked]
  by_cases hstays : staysInRegion setup s.attributes offset
      ((setup.opcodeAt offset).length (s.info offset).status) = true
  · by_cases hvalid : (setup.opcodeAt offset).isValid = true
    · simp only [hstays, hvalid, Bool.not_true, Bool.false_eq_true, if_false] at h ⊢
      exact executedAt_withImage hpanel hsize hin hstays h
    · simp only [hvalid, Bool.not_false, if_true]
  · simp only [hstays, Bool.not_false, if_true]

end Seen

/-! ### Step by step -/

section Steps

variable {setup : Setup} {image : Image} {c d : Config ν σ}

/-- What is seen stays seen. -/
theorem step_seen (hc : Consistent setup c) (h : step setup c = some d) {i : Nat}
    (hi : i < setup.image.size) (hseen : isSeen (c.state.info i) = true) :
    isSeen (d.state.info i) = true := by
  rcases step_cases h with ⟨offset, _, rfl⟩ | ⟨target, rest, _, _, rfl⟩ | ⟨_, _, _, _, rfl⟩
    | ⟨_, _, _, _, rfl⟩
  · exact (hc.visits offset).seen hc.placed.size hi hseen
  · exact hseen
  · dsimp only
    rw [info_enter]
    split
    · simpa [isSeen] using hseen
    · exact hseen
  · exact hseen

theorem step_withImage (hc : Consistent setup c) (h : step setup c = some d)
    (hagrees : Agrees setup image d.state.attributes) :
    step (setup.withImage image) c = some d := by
  unfold step at h ⊢
  split at h
  · cases h
    rw [visit_withImage hc.panel hc.placed.size hagrees]
  · rw [show (setup.withImage image).image = image from rfl, hagrees.size]
    exact h

/-- **With another image that agrees on what is seen in the end, every step is the same.** -/
theorem steps_withImage {n : Nat} (h : Steps setup n c d) (hc : Consistent setup c)
    (hagrees : Agrees setup image d.state.attributes) :
    Steps (setup.withImage image) n c d ∧ Agrees setup image c.state.attributes := by
  induction h with
  | refl c => exact ⟨.refl c, hagrees⟩
  | head hstep _ ih =>
      obtain ⟨hrest, hnext⟩ := ih (step_consistent hc hstep) hagrees
      exact ⟨.head (step_withImage hc hstep hnext) hrest, hnext.size,
        fun i hi hseen => hnext.seen i hi (step_seen hc hstep hi hseen)⟩

/-- Steps that go as far as they can end in one place. -/
theorem Steps.unique {m n : Nat} {e : Config ν σ} (hcd : Steps setup m c d)
    (hce : Steps setup n c e) (hd : step setup d = none) (he : step setup e = none) : d = e := by
  induction hcd generalizing n with
  | refl c =>
      cases hce with
      | refl _ => rfl
      | head h _ => rw [hd] at h; cases h
  | head h _ ih =>
      cases hce with
      | refl _ => rw [he] at h; cases h
      | head h' rest =>
          rw [h, Option.some.injEq] at h'
          subst h'
          exact ih rest hd

end Steps

/-! ### In the result -/

theorem prepareByte_withImage {setup : Setup} {image : Image} {i : Nat}
    (h : setup.hintAt i = .code → image.byteAt i = setup.image.byteAt i) (a : Attribute) :
    (setup.withImage image).prepareByte i a = setup.prepareByte i a := by
  have hmark : (setup.withImage image).hintMark? i = setup.hintMark? i := by
    unfold Setup.hintMark?
    rw [show (setup.withImage image).hintAt i = setup.hintAt i from rfl]
    cases hhint : setup.hintAt i with
    | unset | data | inlineData => rfl
    | code =>
        dsimp only
        rw [opcodeAt_withImage (h hhint)]
  unfold Setup.prepareByte
  rw [hmark]
  rfl

/-- Only bytes hinted as code are read before the first step. -/
theorem startConfig_withImage {setup : Setup} {image : Image}
    (hsize : image.size = setup.image.size)
    (h : ∀ i < setup.image.size, setup.hintAt i = .code →
      image.byteAt i = setup.image.byteAt i) :
    startConfig (setup.withImage image) ([] : List (Plugin ν σ)) = startConfig setup [] := by
  have hprepare : (setup.withImage image).prepare (Attributes.blank image.size)
      = setup.prepare (Attributes.blank setup.image.size) := by
    have hother := size_prepare (setup.withImage image)
    refine Attributes.ext_info (hother.trans (hsize.trans (size_prepare setup).symm)) fun i hi => ?_
    have hlt : i < image.size := hother ▸ hi
    rw [info_prepare setup, if_pos (hsize ▸ hlt), ← prepareByte_withImage (h i (hsize ▸ hlt))]
    exact (info_prepare (setup.withImage image) i).trans (if_pos hlt)
  unfold startConfig
  rw [show (setup.withImage image).image = image from rfl, hprepare]

theorem Settled.seen {a b : Attribute} (h : Settled a b) (hunmixed : a.Unmixed)
    (ha : isSeen a = true) : isSeen b = true := by
  rcases h with rfl | ⟨_, rfl⟩
  · exact ha
  · unfold settleByte
    split
    · rename_i hcode
      obtain ⟨hdata, hinline⟩ := hunmixed.code hcode
      rw [if_neg (by rw [isBlocked, hdata, hinline]; decide)]
      simp [isSeen]
    · exact ha

/-- **The analysis depends on nothing but code.**  Without plugins, another image of the same size
that agrees on the bytes hinted as code, and on those that end up as visited, as part of an
instruction or as inline data, gives the same result. -/
theorem analyze_withImage (setup : Setup) (image : Image) (s : State ν σ)
    (hsize : image.size = setup.image.size)
    (h : analyze setup [] (Attributes.blank setup.image.size) = .ok s)
    (hagree : ∀ i < setup.image.size,
      setup.hintAt i = .code ∨ (s.attributes.info i).isVisited = true
          ∨ (s.attributes.info i).isInstruction = true
          ∨ (s.attributes.info i).isInlineData = true →
        image.byteAt i = setup.image.byteAt i) :
    analyze (setup.withImage image) [] (Attributes.blank image.size) = .ok s := by
  obtain ⟨hcheck, rfl⟩ := analyze_eq_ok.mp h
  obtain ⟨n, _, t, hsteps, hend, houtcome⟩ := outcome_reached setup ([] : List (Plugin ν σ))
  obtain ⟨m, _, t', hsteps', hend', houtcome'⟩ :=
    outcome_reached (setup.withImage image) ([] : List (Plugin ν σ))
  have hagrees : Agrees setup image t.attributes := by
    refine ⟨hsize, fun i hi hseen => hagree i hi (Or.inr ?_)⟩
    have hbyte := (Untitled.keeps setup).steps (Untitled.prepare setup) hsteps i
    have hsettled := (info_settle t.attributes i).seen hbyte.unmixed hseen
    rw [houtcome]
    simpa [isSeen, or_assoc] using hsettled
  have hsame := (steps_withImage hsteps (startConfig_consistent setup) hagrees).1
  rw [← startConfig_withImage hsize fun i hi hhint => hagree i hi (Or.inl hhint), ← hsize]
    at hsame
  have hunique := hsame.unique hsteps' (step_eq_none hend) (step_eq_none hend')
  obtain rfl : t = t' := congrArg (·.state) hunique
  refine analyze_eq_ok.mpr ⟨?_, houtcome.trans houtcome'.symm⟩
  rw [check_eq_ok, Attributes.size_blank] at hcheck ⊢
  rw [show (setup.withImage image).image = image from rfl, hsize]
  exact hcheck

/-- A jump over three bytes to a return. -/
def hopOver : Setup where
  image := #[0x4c, 0x06, 0x10, 0x41, 0x42, 0x43, 0x60]
  processor := ⟨.nmos6502, true, OpcodeTable.blank.overlay
    [Layer.op 0x4c .jmp .abs .branch .keep, Layer.op 0x60 .rts .stackRts .stop .keep]⟩
  map := ⟨[⟨0, 7, 0x1000⟩], 7⟩
  parameters := .initial
  hints := #[.code, .unset, .unset, .unset, .unset, .unset, .unset]
  overrides := #[]
  entryStatus := .indeterminate

/-- What is jumped over may as well be a jump back. -/
theorem analyze_withImage_hopOver :
    ∃ s : State Unit Unit,
      analyze hopOver [] (Attributes.blank 7) = .ok s
        ∧ (s.attributes.info 6).isInstructionStart = true
        ∧ (s.attributes.info 3).isVisited = false
        ∧ analyze (hopOver.withImage #[0x4c, 0x06, 0x10, 0x4c, 0x00, 0x10, 0x60]) []
            (Attributes.blank 7) = .ok s := by
  have hanalyze : analyze hopOver [] (Attributes.blank hopOver.image.size)
      = .ok (outcome hopOver ([] : List (Plugin Unit Unit))) :=
    analyze_eq_ok.mpr ⟨check_eq_ok.mpr (by decide), rfl⟩
  refine ⟨_, hanalyze, by decide +kernel, by decide +kernel, ?_⟩
  exact analyze_withImage hopOver #[0x4c, 0x06, 0x10, 0x4c, 0x00, 0x10, 0x60] _ (by decide)
    hanalyze (by decide +kernel)

end Disasm65.Flow
