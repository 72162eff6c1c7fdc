/-
A visit, cut at the requests of plugins.

A visit asks the plugins at most once, at the state that `asked?` gives.  Up to there and after that
it only touches bytes: what is code or data stays one of the two, and a format is kept or dropped,
never chosen (`Touched`).  In between the plugins have the word.  `Talk` is that part, one request
at a time: a request changes the attributes only if it is carried out (`Grants`), and when every
plugin has been heard, the attributes are those that the poll comes to (`Talk.outcome_next`).
-/
import Mathlib
import Disasm65.Proofs.Flow.Classes
import Disasm65.Proofs.Flow.Polling

namespace Disasm65.Flow

variable {ν σ : Type} {setup : Setup} {offset : Nat}

/-! ### What happens while no plugin is asked -/

/-- The byte is known to be code or data. -/
def isTyped (a : Attribute) : Bool := a.isInstruction || isBlocked a

/-- `b` is what can become of `a`, the attribute of the byte at `offset`, while no plugin is
asked. -/
structure Touched (setup : Setup) (offset : Nat) (a b : Attribute) : Prop where
  typed : isTyped a = true → isTyped b = true
  format : b.format = a.format ∨ b.format = none
  data : b.isData = true → a.isData = true ∨ b.isVisited = true
  visited : a.isVisited = true → b.isVisited = true
  start : b.isInstructionStart = true → FitsAt setup offset b.instructionLength
    ∨ a.isInstructionStart = true ∧ b.instructionLength = a.instructionLength

theorem Evolves.typed {plugins : Prop} {a b : Attribute} (h : Evolves setup plugins offset a b)
    (ha : isTyped a = true) : isTyped b = true := by
  induction h with
  | refl => exact ha
  | claim _ _ => simp [isTyped]
  | hand _ _ ih | target _ ih => simpa [isTyped, isBlocked] using ih
  | @serve b c _ hs _ ih =>
      -- plugins take no mark away
      have hinline : b.isInlineData = true → c.isInlineData = true := by
        intro hb
        induction hs with
        | refl => exact hb
        | format _ _ ih => exact ih
        | inline _ _ ih => simp
      unfold isTyped isBlocked at ih ⊢
      simp only [Bool.or_eq_true] at ih ⊢
      rcases ih with hcode | hdata | hb
      · exact Or.inl ((hs.has (by decide)).trans hcode)
      · exact Or.inr (Or.inl ((hs.has (by decide)).trans hdata))
      · exact Or.inr (Or.inr (hinline hb))

/-- Only plugins choose formats. -/
theorem Evolves.format {a b : Attribute} (h : Evolves setup False offset a b) :
    b.format = a.format ∨ b.format = none := by
  induction h with
  | refl => exact Or.inl rfl
  | claim _ ih =>
      rcases claimByte_format with h | h
      · rw [h]
        exact ih
      · exact Or.inr h
  | hand incoming _ ih => rwa [(handByte_symbol_format incoming).2]
  | target _ ih => exact ih
  | serve hp _ _ _ => exact absurd hp id

namespace Touched

variable {a b c : Attribute}

theorem refl (a : Attribute) : Touched setup offset a a :=
  ⟨id, Or.inl rfl, Or.inl, id, fun h => Or.inr ⟨h, rfl⟩⟩

theorem trans (hab : Touched setup offset a b) (hbc : Touched setup offset b c) :
    Touched setup offset a c := by
  refine ⟨fun h => hbc.typed (hab.typed h), ?_, fun h => ?_, fun h => hbc.visited (hab.visited h),
    fun h => ?_⟩
  · rcases hbc.format with h | h
    · rw [h]
      exact hab.format
    · exact Or.inr h
  · rcases hbc.data h with hb | hc
    · exact (hab.data hb).imp_right hbc.visited
    · exact Or.inr hc
  · rcases hbc.start h with hfits | ⟨hb, hlength⟩
    · exact Or.inl hfits
    · rw [hlength]
      exact hab.start hb

theorem of_evolves (h : Evolves setup False offset a b) : Touched setup offset a b :=
  ⟨h.typed, h.format, fun hb => Or.inl (h.data hb), fun ha => h.visited.trans ha,
    fun hb => Or.inr ⟨(h.own rfl).symm.trans hb, h.sameDecoding.length⟩⟩

/-- What keeps its class has only been touched. -/
theorem of_marks (h : ∀ m, Attribute.isClassMark m = true → b.marks.has m = a.marks.has m)
    (hvisited : a.isVisited = true → b.isVisited = true) (hformat : b.format = a.format)
    (hlength : b.instructionLength = a.instructionLength) : Touched setup offset a b := by
  refine ⟨fun ha => ?_, Or.inl hformat, fun hb => Or.inl ?_, hvisited,
    fun hb => Or.inr ⟨?_, hlength⟩⟩
  · unfold isTyped isBlocked Attribute.isInstruction Attribute.isData Attribute.isInlineData at ha ⊢
    rwa [h _ rfl, h _ rfl, h _ rfl]
  · exact (h .data rfl).symm.trans hb
  · exact (h .instructionStart rfl).symm.trans hb

theorem visitByte (a : Attribute) : Touched setup offset a (Flow.visitByte a) := by
  refine .of_marks (fun m hm => ?_) (by simp [Flow.visitByte]) rfl rfl
  cases m <;> simp_all [Attribute.isClassMark, Flow.visitByte]

theorem rejectByte (a : Attribute) (ha : a.isVisited = true) :
    Touched setup offset a (Flow.rejectByte a) := by
  refine ⟨?_, Or.inl rfl, ?_, ?_, ?_⟩ <;> simp_all [isTyped, isBlocked, Flow.rejectByte]

theorem putMark (a : Attribute) {m : Mark} (on : Bool)
    (hm : m = .noContinue ∨ m = .noContinuePlugin) :
    Touched setup offset a (a.putMark m on) := by
  refine .of_marks (fun n hn => ?_) ?_ rfl rfl
  · rcases hm with rfl | rfl <;> cases n <;> simp_all [Attribute.isClassMark]
  · rcases hm with rfl | rfl <;> simp

theorem enter (a : Attribute) (status : StatusFlags) :
    Touched setup offset a { a.mark .entryPoint with status := status } := by
  refine .of_marks (fun m hm => ?_) (by simp) rfl rfl
  cases m <;> simp_all [Attribute.isClassMark]

theorem decodedByte (a : Attribute)
    (h : FitsAt setup offset ((setup.opcodeAt offset).length a.status)) :
    Touched setup offset a (Flow.decodedByte setup offset a) := by
  refine ⟨?_, decodedByte_format, ?_, ?_, fun _ => Or.inl ?_⟩
  · simp [isTyped, decodedByte_has]
  · simp [decodedByte_has]
  · simp [decodedByte_has]
  · rw [Flow.decodedByte, decodeByte_length]
    exact h

end Touched

/-- Every byte has only been touched. -/
structure TouchedAll (setup : Setup) (attributes attributes' : Attributes) : Prop where
  size : attributes'.size = attributes.size
  bytes : ∀ i, Touched setup i (attributes.info i) (attributes'.info i)

namespace TouchedAll

variable {x y z : Attributes}

theorem refl (x : Attributes) : TouchedAll setup x x := ⟨rfl, fun _ => .refl _⟩

theorem trans (hxy : TouchedAll setup x y) (hyz : TouchedAll setup y z) : TouchedAll setup x z :=
  ⟨hyz.size.trans hxy.size, fun i => (hxy.bytes i).trans (hyz.bytes i)⟩

theorem of_develops (h : Develops setup False x y) : TouchedAll setup x y :=
  ⟨h.size, fun i => .of_evolves (h.bytes i)⟩

theorem update {change : Attribute → Attribute}
    (h : Touched setup offset (x.info offset) (change (x.info offset))) :
    TouchedAll setup x (x.update offset change) := by
  refine ⟨Attributes.size_update .., fun i => ?_⟩
  rw [Attributes.info_update]
  split
  · rename_i hi
    obtain ⟨rfl, _⟩ := hi
    exact h
  · exact .refl _

end TouchedAll

/-! ### Where a visit asks -/

/-- The visit executes the instruction. -/
def executes (setup : Setup) (offset : Nat) (s : State ν σ) : Bool :=
  let a := s.info offset
  let op := setup.opcodeAt offset
  decide (offset < setup.image.size) && (!a.isVisited || a.isChanged) && !isBlocked a
    && staysInRegion setup s.attributes offset (op.length a.status) && op.isValid

/-- The call site that the visit of the byte at `offset` asks the plugins about, if it asks at all,
and the state in which it does.  They are asked about a break right after it has been decoded, and
about a call once it is clear that the next instruction follows. -/
def asked? (setup : Setup) (offset : Nat) (s : State ν σ) : Option (CallSite × State ν σ) :=
  let a := s.info offset
  let op := setup.opcodeAt offset
  let decoded := beforeLeave setup offset s
  let marked := decoded.update offset fun b => b.putMark .noContinue (!continues op a.status)
  let t := if op.isBrk then decoded else marked
  if executes setup offset s && (op.isBrk || !a.isVisited && (op.isJsr || op.isJsl)
      && !((marked.info offset).doesNotContinue
        || decide (setup.image.size ≤ offset + op.length a.status))) then
    (callSite? setup op offset (t.info offset).status).map (·, t)
  else none

theorem executes_iff {s : State ν σ} :
    executes setup offset s = true
      ↔ offset < setup.image.size
        ∧ ((s.info offset).isVisited = false ∨ (s.info offset).isChanged = true)
        ∧ isBlocked (s.info offset) = false
        ∧ staysInRegion setup s.attributes offset
            ((setup.opcodeAt offset).length (s.info offset).status) = true
        ∧ (setup.opcodeAt offset).isValid = true := by
  simp [executes, and_assoc]

theorem visit_of_executes {s : State ν σ} (hsize : s.attributes.size = setup.image.size)
    (h : executes setup offset s = true) :
    visit setup offset s = executedAt setup offset s := by
  obtain ⟨hin, hneed, hblocked, hstays, hvalid⟩ := executes_iff.mp h
  rw [visit_eq_executedAt hsize]
  dsimp only
  rw [if_neg, if_neg, if_neg, if_neg]
  · simp [hvalid]
  · simp [hstays]
  · simp [hblocked]
  · intro hskip
    rcases Bool.or_eq_true_iff.mp hskip with hout | hdone
    · exact absurd hin (by simpa using hout)
    · obtain ⟨hv, hc⟩ := Bool.and_eq_true_iff.mp hdone
      rcases hneed with hnew | hchanged
      · rw [hnew] at hv
        cases hv
      · rw [hchanged] at hc
        cases hc

/-- A visit that does not execute anything only touches its byte. -/
theorem visit_touches {s : State ν σ} (hsize : s.attributes.size = setup.image.size)
    (h : executes setup offset s = false) :
    TouchedAll setup s.attributes (visit setup offset s).1.attributes := by
  have hvisit : TouchedAll setup s.attributes (s.update offset visitByte).attributes :=
    .update (.visitByte _)
  have hvisits : Visits setup True offset s (visit setup offset s) :=
    visit_visits (fun _ => trivial) hsize
  generalize visit setup offset s = out at hvisits ⊢
  cases hvisits with
  | skip _ => exact .refl _
  | halt _ _ _ => exact hvisit
  | reject hin _ _ _ =>
      refine hvisit.trans (.update (.rejectByte _ ?_))
      rw [← State.info, State.info_update_self (by omega)]
      simp [visitByte]
  | execute hin hneed hblocked hstays hvalid _ =>
      rw [executes_iff.mpr ⟨hin, hneed, hblocked, hstays, hvalid⟩] at h
      cases h

theorem beforeLeave_touches {s : State ν σ} (hplaced : Placed setup s)
    (h : executes setup offset s = true) :
    TouchedAll setup s.attributes (beforeLeave setup offset s).attributes := by
  obtain ⟨hin, _, _, hstays, _⟩ := executes_iff.mp h
  refine ⟨size_beforeLeave setup offset s, fun i => ?_⟩
  by_cases hi : i = offset
  · subst hi
    have hfits := (hplaced.staysInRegion_iff _ _).mp hstays
    exact (Touched.decodedByte _ hfits).trans
      (.of_evolves (beforeLeave_own setup (by rw [hplaced.size]; exact hin)))
  · exact .of_evolves (beforeLeave_others setup hi)

/-! ### After the plugins have been asked -/

section Leave

variable (setup offset)
variable (op : Opcode) (length : Nat) (first : Bool) (status next : StatusFlags) (s : State ν σ)

/-- Marking where control stops only touches the byte. -/
theorem update_putMark_touches {m : Mark} (on : Bool)
    (hm : m = .noContinue ∨ m = .noContinuePlugin) :
    TouchedAll setup s.attributes (s.update offset fun a => a.putMark m on).attributes := by
  show TouchedAll setup s.attributes (s.attributes.update offset fun a => a.putMark m on)
  exact .update (.putMark _ on hm)

/-- After both questions, control is stopped or goes on. -/
theorem leave_after_touches :
    (leave setup offset op length first status next s).1 = stopMarked setup offset op status s
      ∨ TouchedAll setup (bothAsked setup offset op first status s).2.attributes
          (leave setup offset op length first status next s).1.attributes := by
  rcases leave_cases setup offset op length first status next s with h | ⟨_, h⟩ | h <;> rw [h]
  · exact Or.inl rfl
  · exact Or.inr (update_putMark_touches setup offset _ true (Or.inr rfl))
  · exact Or.inr (.of_develops (fallThrough_develops setup offset length next _))

/-- A call that the plugins are not asked about is left as it is. -/
theorem callAsked_of_not (h : ¬ (first && (op.isJsr || op.isJsl)) = true) :
    callAsked setup offset op first s = (false, s) := by
  unfold callAsked
  rw [if_neg h]

theorem stopMarked_of_not_brk (h : op.isBrk = false) :
    stopMarked setup offset op status s
      = s.update offset fun a => a.putMark .noContinue (!continues op status) := by
  simp [stopMarked, breakAsked, h]

/-- What is a break is no call. -/
theorem not_call_of_brk (h : op.isBrk = true) : (op.isJsr || op.isJsl) = false := by
  have hcode : op.code = 0x00 := by simpa using (Bool.and_eq_true_iff.mp h).1
  simp [Opcode.isJsr, Opcode.isJsl, hcode]

theorem leave_of_brk_touches (h : op.isBrk = true) :
    TouchedAll setup (askPlugins setup op offset (!continues op status) s).2.attributes
      (leave setup offset op length first status next s).1.attributes := by
  have hbreak : (breakAsked setup offset op status s).2
      = (askPlugins setup op offset (!continues op status) s).2 := by
    simp [breakAsked, h]
  have hmarked : TouchedAll setup (askPlugins setup op offset (!continues op status) s).2.attributes
      (stopMarked setup offset op status s).attributes := by
    rw [← hbreak]
    exact update_putMark_touches setup offset _ _ (Or.inl rfl)
  rcases leave_after_touches setup offset op length first status next s with hl | hl
  · rw [hl]
    exact hmarked
  · rw [bothAsked, callAsked_of_not setup offset op first _
      (by rw [not_call_of_brk op h, Bool.and_false]; decide)] at hl
    exact hmarked.trans hl

theorem leave_of_quiet_touches (hbrk : op.isBrk = false)
    (h : (first && (op.isJsr || op.isJsl)
      && !(((s.update offset fun a => a.putMark .noContinue (!continues op status)).info
          offset).doesNotContinue || decide (setup.image.size ≤ offset + length))) = false) :
    TouchedAll setup s.attributes
      (leave setup offset op length first status next s).1.attributes := by
  have hmarked : TouchedAll setup s.attributes
      (stopMarked setup offset op status s).attributes := by
    rw [stopMarked_of_not_brk setup offset op status s hbrk]
    exact update_putMark_touches setup offset s _ (Or.inl rfl)
  by_cases hcall : (first && (op.isJsr || op.isJsl)) = true
  · -- a call that stops: the plugins are not asked
    rw [hcall, Bool.true_and, Bool.not_eq_false',
      ← stopMarked_of_not_brk setup offset op status s hbrk] at h
    rw [leave_eq]
    dsimp only
    rw [if_pos h]
    exact hmarked
  · rcases leave_after_touches setup offset op length first status next s with hl | hl
    · rw [hl]
      exact hmarked
    · rw [bothAsked, callAsked_of_not setup offset op first _ hcall] at hl
      exact hmarked.trans hl

theorem leave_of_call_touches (hbrk : op.isBrk = false)
    (hcall : (first && (op.isJsr || op.isJsl)) = true)
    (hgo : (((s.update offset fun a => a.putMark .noContinue (!continues op status)).info
          offset).doesNotContinue || decide (setup.image.size ≤ offset + length)) = false) :
    TouchedAll setup
      (askPlugins setup op offset false
        (s.update offset fun a => a.putMark .noContinue (!continues op status))).2.attributes
      (leave setup offset op length first status next s).1.attributes := by
  have hasked : (bothAsked setup offset op first status s).2
      = (askPlugins setup op offset false
          (s.update offset fun a => a.putMark .noContinue (!continues op status))).2 := by
    rw [bothAsked, stopMarked_of_not_brk setup offset op status s hbrk, callAsked, if_pos hcall]
  have hleave : leave setup offset op length first status next s
      = (let asked := bothAsked setup offset op first status s
         if asked.1 then (asked.2.update offset fun a => a.mark .noContinuePlugin, none)
         else fallThrough setup offset length next asked.2) := by
    rw [leave_eq]
    dsimp only
    rw [stopMarked_of_not_brk setup offset op status s hbrk, hgo, if_neg (by decide)]
  rw [← hasked, hleave]
  dsimp only
  split
  · exact update_putMark_touches setup offset _ true (Or.inr rfl)
  · exact .of_develops (fallThrough_develops setup offset length next _)

end Leave

/-- Where plugins are asked there is a call site. -/
theorem exists_callSite? (setup : Setup) (offset : Nat) {op : Opcode}
    (h : op.isBrk = true ∨ (op.isJsr || op.isJsl) = true)
    (status : StatusFlags) : ∃ site, callSite? setup op offset status = some site := by
  unfold callSite?
  dsimp only
  split
  · exact ⟨_, rfl⟩
  · split
    · exact ⟨_, rfl⟩
    · rw [if_pos (by simp_all)]
      exact ⟨_, rfl⟩

/-- **A visit that asks nobody only touches bytes.** -/
theorem visit_of_quiet {s : State ν σ} (hplaced : Placed setup s)
    (h : asked? setup offset s = none) :
    TouchedAll setup s.attributes (visit setup offset s).1.attributes := by
  by_cases hexec : executes setup offset s = true
  · rw [visit_of_executes hplaced.size hexec]
    refine (beforeLeave_touches hplaced hexec).trans ?_
    unfold asked? at h
    dsimp only at h
    rw [hexec, Bool.true_and] at h
    split at h
    · -- whoever is asked about has a call site
      rename_i hask
      simp only [Bool.or_eq_true, Bool.and_eq_true] at hask
      obtain ⟨site, hsite⟩ := exists_callSite? setup offset
        (hask.imp_right fun hc => by simpa using hc.1.2) _
      rw [hsite] at h
      cases h
    · rename_i hask
      rw [Bool.not_eq_true, Bool.or_eq_false_iff] at hask
      exact leave_of_quiet_touches setup offset _ _ _ _ _ _ hask.1 hask.2
  · exact visit_touches hplaced.size (by simpa using hexec)

/-- **A visit that asks touches bytes before and after**, and goes on from the attributes that the
plugins leave. -/
theorem visit_of_asked {s t : State ν σ} {site : CallSite} (hplaced : Placed setup s)
    (h : asked? setup offset s = some (site, t)) :
    TouchedAll setup s.attributes t.attributes
      ∧ TouchedAll setup (poll setup site false t.attributes #[] t.panel).attributes
          (visit setup offset s).1.attributes := by
  unfold asked? at h
  dsimp only at h
  split at h
  case isFalse => cases h
  rename_i hask
  obtain ⟨hexec, hask⟩ := Bool.and_eq_true_iff.mp hask
  rw [Option.map_eq_some_iff] at h
  obtain ⟨_, hsite, heq⟩ := h
  obtain ⟨rfl, rfl⟩ := Prod.mk.inj heq
  have hbefore := beforeLeave_touches hplaced hexec
  rw [visit_of_executes hplaced.size hexec]
  by_cases hbrk : (setup.opcodeAt offset).isBrk = true
  · rw [if_pos hbrk] at hsite ⊢
    refine ⟨hbefore, ?_⟩
    have hleave := leave_of_brk_touches setup offset (setup.opcodeAt offset)
      ((setup.opcodeAt offset).length (s.info offset).status) (!(s.info offset).isVisited)
      (s.info offset).status (afterVisit setup offset s).next (beforeLeave setup offset s) hbrk
    rw [askPlugins_of_site hsite] at hleave
    rwa [poll_attributes _ _ (!continues (setup.opcodeAt offset) (s.info offset).status) _ _
      (beforeLeave setup offset s).journal]
  · rw [if_neg hbrk] at hsite ⊢
    rw [Bool.not_eq_true] at hbrk
    rw [hbrk, Bool.false_or, Bool.and_eq_true, Bool.not_eq_true'] at hask
    refine ⟨hbefore.trans (update_putMark_touches setup offset _ _ (Or.inl rfl)), ?_⟩
    have hleave := leave_of_call_touches setup offset (setup.opcodeAt offset)
      ((setup.opcodeAt offset).length (s.info offset).status) (!(s.info offset).isVisited)
      (s.info offset).status (afterVisit setup offset s).next (beforeLeave setup offset s) hbrk
      hask.1 hask.2
    rw [askPlugins_of_site hsite] at hleave
    rwa [poll_attributes _ _ false _ _ _]

/-! ### One request after the other -/

/-- A claim of inline data that has been carried out. -/
structure Declaration where
  offset : Nat
  length : Nat
  format : Format
  /-- the attributes when it was made -/
  before : Attributes

/-- The byte is one of those that are claimed. -/
def Declaration.Covers (d : Declaration) (i : Nat) : Prop :=
  d.offset ≤ i ∧ i < d.offset + d.length

/-- What a request of a plugin does: nothing, or it chooses the format of an operand, or it claims
inline data. -/
inductive Grants (setup : Setup) (attributes : Attributes) :
    Option Declaration → Attributes → Prop where
  | nothing : Grants setup attributes none attributes
  | operand {offset : Nat} {detail : FormatDetail} {label : String} {format : Format}
      (h : decideOperand setup attributes offset detail label = .ok (some format)) :
      Grants setup attributes none
        (attributes.update offset fun a => { a with format := some format })
  | inline {offset length : Nat} {kind : FormatKind} {detail : FormatDetail} {label : String}
      {format : Format}
      (h : decideInline setup attributes offset length kind detail label = .ok (some format)) :
      Grants setup attributes (some ⟨offset, length, format, attributes⟩)
        ((attributes.update offset fun a => { a with format := some format }).updateRange offset
          length fun a => a.mark .inlineData)

/-- The plugins are being asked about a call site. -/
structure Talk (ν σ : Type) where
  site : CallSite
  attributes : Attributes
  /-- what the plugin that has the word is still going to do -/
  speaking : Option (Consultation ν σ)
  /-- the plugins that have not been asked -/
  waiting : List (Plugin ν σ)

namespace Talk

/-- The talk after one more request; `none` when every plugin has been heard. -/
def next (setup : Setup) (t : Talk ν σ) : Option (Talk ν σ) :=
  match t.speaking with
  | none =>
    match t.waiting with
    | [] => none
    | plugin :: others =>
      some { t with
        speaking :=
          if plugin.capabilities.cover t.site then some (plugin.consult plugin.state t.site)
          else none
        waiting := others }
  | some (.vote _ _) | some (.fail _) => some { t with speaking := none }
  | some (.note _ rest) => some { t with speaking := some rest }
  | some (.peek offset rest) =>
    some { t with
      speaking := some (rest setup.image[offset]? (setup.map.addressOf? offset)) }
  | some (.formatOperand offset detail label rest) =>
    let served := serveOperand setup t.attributes offset detail label
    some { t with attributes := served.2, speaking := some (rest served.1) }
  | some (.claimInline offset length kind detail label rest) =>
    let served := serveInline setup t.attributes offset length kind detail label
    some { t with attributes := served.2, speaking := some (rest served.1) }

/-- The claim of inline data that is about to be carried out. -/
def claim? (setup : Setup) (t : Talk ν σ) : Option Declaration :=
  match t.speaking with
  | some (.claimInline offset length kind detail label _) =>
    match decideInline setup t.attributes offset length kind detail label with
    | .ok (some format) => some ⟨offset, length, format, t.attributes⟩
    | _ => none
  | _ => none

/-- The attributes when every plugin will have been heard. -/
def outcome (setup : Setup) (t : Talk ν σ) : Attributes :=
  let attributes :=
    match t.speaking with
    | some consultation => (consult setup t.attributes #[] consultation).attributes
    | none => t.attributes
  (poll setup t.site false attributes #[] t.waiting).attributes

variable {t t' : Talk ν σ}

/-- What one request does. -/
theorem next_grants (h : t.next setup = some t') :
    Grants setup t.attributes (t.claim? setup) t'.attributes := by
  obtain ⟨site, attributes, speaking, waiting⟩ := t
  match speaking with
  | none =>
      match waiting with
      | [] => cases h
      | plugin :: others => cases h; exact .nothing
  | some (.vote _ _) | some (.fail _) | some (.note _ _) | some (.peek _ _) =>
      cases h
      exact .nothing
  | some (.formatOperand offset detail label rest) =>
      cases h
      unfold claim? serveOperand
      dsimp only
      split
      · exact .nothing
      · exact .nothing
      · rename_i hdecide
        exact .operand hdecide
  | some (.claimInline offset length kind detail label rest) =>
      cases h
      unfold claim? serveInline
      dsimp only
      rcases hdecide : decideInline setup attributes offset length kind detail label with
        refusal | _ | format
      · exact .nothing
      · exact .nothing
      · exact .inline hdecide

/-- **Every request brings the talk nearer to what the poll comes to.** -/
theorem outcome_next (h : t.next setup = some t') : t'.outcome setup = t.outcome setup := by
  obtain ⟨site, attributes, speaking, waiting⟩ := t
  match speaking with
  | none =>
      match waiting with
      | [] => cases h
      | plugin :: others =>
          cases h
          unfold outcome
          dsimp only
          by_cases hcover : plugin.capabilities.cover site = true
          · rw [if_pos hcover, poll_cons_of_cover hcover]
            exact poll_attributes site others _ _ _ _ _
          · rw [if_neg hcover, poll_cons_of_not hcover]
  | some (.vote _ _) | some (.fail _) => cases h; rfl
  | some (.note entry rest) =>
      cases h
      unfold outcome
      dsimp only
      rw [consult, (consult_journal setup rest attributes #[] (#[].push entry)).2.2]
  | some (.peek _ _) => cases h; rfl
  | some (.formatOperand _ _ _ _) => cases h; rfl
  | some (.claimInline _ _ _ _ _ _) => cases h; rfl

theorem outcome_of_over (h : t.next setup = none) : t.outcome setup = t.attributes := by
  obtain ⟨site, attributes, speaking, waiting⟩ := t
  match speaking with
  | none =>
      match waiting with
      | [] => rfl
      | _ :: _ => cases h
  | some (.vote _ _) | some (.fail _) | some (.note _ _) | some (.peek _ _)
  | some (.formatOperand _ _ _ _) | some (.claimInline _ _ _ _ _ _) => cases h

/-- One request leads from one talk to the other. -/
def Goes (setup : Setup) (t t' : Talk ν σ) : Prop := t.next setup = some t'

/-- A plugin that has the word gives it up. -/
theorem yields (setup : Setup) (consultation : Consultation ν σ) :
    ∀ (site : CallSite) (attributes : Attributes) (waiting : List (Plugin ν σ)),
      ∃ attributes', Relation.ReflTransGen (Goes setup)
        ⟨site, attributes, some consultation, waiting⟩ ⟨site, attributes', none, waiting⟩ := by
  induction consultation with
  | vote _ _ | fail _ =>
      intro site attributes waiting
      exact ⟨attributes, .single rfl⟩
  | note _ rest ih =>
      intro site attributes waiting
      obtain ⟨attributes', hgoes⟩ := ih site attributes waiting
      exact ⟨attributes', .head rfl hgoes⟩
  | peek offset rest ih =>
      intro site attributes waiting
      obtain ⟨attributes', hgoes⟩ := ih setup.image[offset]? (setup.map.addressOf? offset) site
        attributes waiting
      exact ⟨attributes', .head rfl hgoes⟩
  | formatOperand offset detail label rest ih =>
      intro site attributes waiting
      obtain ⟨attributes', hgoes⟩ := ih (serveOperand setup attributes offset detail label).1 site
        (serveOperand setup attributes offset detail label).2 waiting
      exact ⟨attributes', .head rfl hgoes⟩
  | claimInline offset length kind detail label rest ih =>
      intro site attributes waiting
      obtain ⟨attributes', hgoes⟩ :=
        ih (serveInline setup attributes offset length kind detail label).1 site
          (serveInline setup attributes offset length kind detail label).2 waiting
      exact ⟨attributes', .head rfl hgoes⟩

/-- **Every talk comes to an end.** -/
theorem ends (setup : Setup) (site : CallSite) (waiting : List (Plugin ν σ)) :
    ∀ attributes : Attributes,
      ∃ t, Relation.ReflTransGen (Goes setup) ⟨site, attributes, none, waiting⟩ t
        ∧ t.next setup = none := by
  induction waiting with
  | nil => intro attributes; exact ⟨_, .refl, rfl⟩
  | cons plugin others ih =>
      intro attributes
      by_cases hcover : plugin.capabilities.cover site = true
      · obtain ⟨attributes', hgoes⟩ :=
          yields setup (plugin.consult plugin.state site) site attributes others
        obtain ⟨t, ht, hend⟩ := ih attributes'
        refine ⟨t, .head ?_ (hgoes.trans ht), hend⟩
        simp [Goes, next, hcover]
      · obtain ⟨t, ht, hend⟩ := ih attributes
        refine ⟨t, .head ?_ ht, hend⟩
        simp [Goes, next, hcover]

end Talk

end Disasm65.Flow
