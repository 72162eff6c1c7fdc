/-
Asking the plugins about one call site.

The plugins are asked in order, each finding the attributes as the one before has left them.  What
they note in the journal plays no part in it, and what they have voted makes no difference to the
attributes (`poll_attributes`).  A panel can be cut in two anywhere (`poll_append`).

A plugin that fails has no vote, but it is not as if it had not been asked: what it has asked for
before stands, and the plugins after it find it there.  Its having been asked makes no difference
if it was idle, that is, if nothing that it asked for was carried out.
-/
import Mathlib
import Disasm65.Proofs.Data.Ranges
import Disasm65.Proofs.Flow.Ends

namespace Disasm65

variable {ν σ : Type}

/-- None of the requests is carried out. -/
def Consultation.IsIdle (setup : Flow.Setup) (attributes : Attributes) :
    Consultation ν σ → Prop
  | .vote .. | .fail .. => True
  | .note _ rest => rest.IsIdle setup attributes
  | .peek offset rest =>
    (rest setup.image[offset]? (setup.map.addressOf? offset)).IsIdle setup attributes
  | .formatOperand offset detail label rest =>
    let reply := (Flow.serveOperand setup attributes offset detail label).1
    reply ≠ .ok true ∧ (rest reply).IsIdle setup attributes
  | .claimInline offset length kind detail label rest =>
    let reply := (Flow.serveInline setup attributes offset length kind detail label).1
    reply ≠ .ok true ∧ (rest reply).IsIdle setup attributes

namespace Flow

variable {setup : Setup}

/-! ### One plugin after the other -/

section Cons

variable {site : CallSite} {plugin : Plugin ν σ} {stops : Bool} {attributes : Attributes}
variable {journal : Array ν} {others : List (Plugin ν σ)}

theorem poll_cons_of_cover (hcover : plugin.capabilities.cover site = true) :
    poll setup site stops attributes journal (plugin :: others)
      = (let asked := consult setup attributes journal (plugin.consult plugin.state site)
         let stops := (asked.vote.map (site.count stops)).getD stops
         let rest := poll setup site stops asked.attributes asked.journal others
         { rest with panel := { plugin with state := asked.state } :: rest.panel }) := by
  rw [poll, if_pos hcover]
  dsimp only
  cases (consult setup attributes journal (plugin.consult plugin.state site)).vote <;> rfl

theorem poll_cons_of_not (hcover : ¬ plugin.capabilities.cover site = true) :
    poll setup site stops attributes journal (plugin :: others)
      = (let rest := poll setup site stops attributes journal others
         { rest with panel := plugin :: rest.panel }) := by
  rw [poll, if_neg hcover]

end Cons

/-! ### The journal -/

theorem consult_journal (setup : Setup) (consultation : Consultation ν σ) :
    ∀ (attributes : Attributes) (journal journal' : Array ν),
      let asked := consult setup attributes journal consultation
      let asked' := consult setup attributes journal' consultation
      asked'.vote = asked.vote ∧ asked'.state = asked.state
        ∧ asked'.attributes = asked.attributes := by
  induction consultation with
  | vote _ _ | fail _ => intro attributes journal journal'; exact ⟨rfl, rfl, rfl⟩
  | note entry rest ih => intro attributes journal journal'; exact ih attributes _ _
  | peek offset rest ih => intro attributes journal journal'; exact ih _ _ attributes _ _
  | formatOperand offset detail label rest ih =>
      intro attributes journal journal'
      exact ih _ _ journal journal'
  | claimInline offset length kind detail label rest ih =>
      intro attributes journal journal'
      exact ih _ _ journal journal'

/-- What is in the journal, and what has been voted, makes no difference to the attributes. -/
theorem poll_attributes (site : CallSite) (panel : List (Plugin ν σ)) :
    ∀ (stops stops' : Bool) (attributes : Attributes) (journal journal' : Array ν),
      (poll setup site stops' attributes journal' panel).attributes
        = (poll setup site stops attributes journal panel).attributes := by
  induction panel with
  | nil => intro stops stops' attributes journal journal'; rfl
  | cons plugin others ih =>
      intro stops stops' attributes journal journal'
      by_cases hcover : plugin.capabilities.cover site = true
      · obtain ⟨_, _, hattributes⟩ :=
          consult_journal setup (plugin.consult plugin.state site) attributes journal journal'
        simp only [poll_cons_of_cover hcover, hattributes]
        exact ih _ _ _ _ _
      · simp only [poll_cons_of_not hcover]
        exact ih stops stops' attributes journal journal'

/-- What is in the journal makes no difference to the vote. -/
theorem poll_stops (site : CallSite) (panel : List (Plugin ν σ)) :
    ∀ (stops : Bool) (attributes : Attributes) (journal journal' : Array ν),
      (poll setup site stops attributes journal' panel).stops
        = (poll setup site stops attributes journal panel).stops := by
  induction panel with
  | nil => intro stops attributes journal journal'; rfl
  | cons plugin others ih =>
      intro stops attributes journal journal'
      by_cases hcover : plugin.capabilities.cover site = true
      · obtain ⟨hvote, _, hattributes⟩ :=
          consult_journal setup (plugin.consult plugin.state site) attributes journal journal'
        simp only [poll_cons_of_cover hcover, hvote, hattributes]
        exact ih _ _ _ _
      · simp only [poll_cons_of_not hcover]
        exact ih stops attributes journal journal'

/-- Neither what is in the journal nor what has been voted makes a difference to the plugins. -/
theorem poll_panel (site : CallSite) (panel : List (Plugin ν σ)) :
    ∀ (stops stops' : Bool) (attributes : Attributes) (journal journal' : Array ν),
      (poll setup site stops' attributes journal' panel).panel
        = (poll setup site stops attributes journal panel).panel := by
  induction panel with
  | nil => intro stops stops' attributes journal journal'; rfl
  | cons plugin others ih =>
      intro stops stops' attributes journal journal'
      by_cases hcover : plugin.capabilities.cover site = true
      · obtain ⟨_, hstate, hattributes⟩ :=
          consult_journal setup (plugin.consult plugin.state site) attributes journal journal'
        simp only [poll_cons_of_cover hcover, hattributes, hstate]
        exact congrArg _ (ih _ _ _ _ _)
      · simp only [poll_cons_of_not hcover]
        exact congrArg _ (ih stops stops' attributes journal journal')

/-! ### A panel in two parts -/

theorem poll_append (site : CallSite) (before after : List (Plugin ν σ)) :
    ∀ (stops : Bool) (attributes : Attributes) (journal : Array ν),
      let first := poll setup site stops attributes journal before
      let rest := poll setup site first.stops first.attributes first.journal after
      poll setup site stops attributes journal (before ++ after)
        = { rest with panel := first.panel ++ rest.panel } := by
  induction before with
  | nil => intro stops attributes journal; rfl
  | cons plugin others ih =>
      intro stops attributes journal
      rw [List.cons_append]
      by_cases hcover : plugin.capabilities.cover site = true
      · simp only [poll_cons_of_cover hcover, ih, List.cons_append]
      · simp only [poll_cons_of_not hcover, ih, List.cons_append]

/-- A plugin that fails hands on the vote that it found, with the attributes that it leaves. -/
theorem poll_cons_of_failed {site : CallSite} {plugin : Plugin ν σ} {attributes : Attributes}
    {journal : Array ν} (stops : Bool) (others : List (Plugin ν σ))
    (hcover : plugin.capabilities.cover site = true)
    (hfail : (consult setup attributes journal (plugin.consult plugin.state site)).vote = none) :
    let asked := consult setup attributes journal (plugin.consult plugin.state site)
    let rest := poll setup site stops asked.attributes asked.journal others
    let polled := poll setup site stops attributes journal (plugin :: others)
    polled.stops = rest.stops ∧ polled.attributes = rest.attributes := by
  rw [poll_cons_of_cover hcover]
  dsimp only
  rw [hfail]
  exact ⟨rfl, rfl⟩

/-! ### Requests that are carried out -/

section Requests

variable {attributes : Attributes} {offset length : Nat} {kind : FormatKind}
variable {detail : FormatDetail} {label : String} {format : Format}

/-- A format is chosen only if it could be made. -/
theorem format_made {made : Except Fault Format}
    (h : (match made with
      | .ok format => Except.ok (some format)
      | .error fault => .error (Refusal.badFormat fault)) = .ok (some format)) :
    made = .ok format := by
  cases made with
  | ok _ => cases h; rfl
  | error _ => cases h

theorem operandFormat_eq_ok (h : operandFormat length detail label = .ok (some format)) :
    format.length = length := by
  unfold operandFormat at h
  dsimp only at h
  split at h
  · split at h
    · cases h
    · rw [(Format.reference_eq_ok (format_made h)).2]
  all_goals first
    | exact (Format.create_eq_ok (format_made h)).1
    | cases h

/-- A request to format an operand is carried out only at an instruction that has no format yet. -/
theorem decideOperand_eq_ok
    (h : decideOperand setup attributes offset detail label = .ok (some format)) :
    offset < setup.image.size ∧ (attributes.info offset).format = none
      ∧ (attributes.info offset).isInstructionStart = true
      ∧ format.length = (attributes.info offset).instructionLength := by
  unfold decideOperand at h
  dsimp only at h
  split at h
  · cases h
  rename_i hin
  split at h
  · cases h
  rename_i hfree
  rw [Bool.not_eq_true, Bool.or_eq_false_iff] at hfree
  exact ⟨Nat.lt_of_not_le hin, by simpa using hfree.1, by simpa using hfree.2,
    operandFormat_eq_ok h⟩

/-- A claim of inline data is carried out only if its bytes are in one region and each can be
claimed, and if the first of them has no format yet. -/
theorem decideInline_eq_ok
    (h : decideInline setup attributes offset length kind detail label = .ok (some format)) :
    (0 < offset ∧ 0 < length ∧ offset + length ≤ setup.image.size)
      ∧ setup.map.isUnbroken offset length = true ∧ (attributes.info offset).format = none
      ∧ (∀ i, offset ≤ i → i < offset + length → isClaimable setup attributes i = true)
      ∧ format.length = length := by
  unfold decideInline at h
  split at h
  · cases h
  rename_i hin
  split at h
  · cases h
  rename_i hfree
  simp only [Bool.or_eq_true, not_or, Bool.not_eq_true, Bool.not_eq_false'] at hfree
  obtain ⟨⟨hunbroken, hnone⟩, hall⟩ := hfree
  refine ⟨by omega, hunbroken, by simpa using hnone, fun i hlow hhigh =>
    List.all_eq_true.mp hall i (List.mem_range'_1.mpr ⟨hlow, hhigh⟩), ?_⟩
  split at h
  · cases h
  split at h
  · cases h
  · have hmade := format_made h
    split at hmade
    · rw [(Format.reference_eq_ok hmade).2]
    · exact (Format.create_eq_ok hmade).1

variable (attributes offset length kind detail label)

/-- A request that is not carried out changes nothing; one that is gives its byte a format that it
did not have. -/
theorem serveOperand_effect (hsize : attributes.size = setup.image.size) :
    let served := serveOperand setup attributes offset detail label
    served.1 ≠ .ok true ∧ served.2 = attributes
      ∨ served.1 = .ok true ∧ (attributes.info offset).format = none
        ∧ (served.2.info offset).format ≠ none := by
  dsimp only
  unfold serveOperand
  split
  · exact Or.inl ⟨by simp, rfl⟩
  · exact Or.inl ⟨by simp, rfl⟩
  · rename_i hdecide
    obtain ⟨hin, hnone, _⟩ := decideOperand_eq_ok hdecide
    refine Or.inr ⟨rfl, hnone, ?_⟩
    rw [Attributes.info_update_self (by omega)]
    exact Option.some_ne_none _

theorem serveInline_effect (hsize : attributes.size = setup.image.size) :
    let served := serveInline setup attributes offset length kind detail label
    served.1 ≠ .ok true ∧ served.2 = attributes
      ∨ served.1 = .ok true ∧ (attributes.info offset).format = none
        ∧ (served.2.info offset).format ≠ none := by
  dsimp only
  unfold serveInline
  split
  · exact Or.inl ⟨by simp, rfl⟩
  · exact Or.inl ⟨by simp, rfl⟩
  · rename_i hdecide
    obtain ⟨⟨_, hlength, hin⟩, _, hnone, _⟩ := decideInline_eq_ok hdecide
    refine Or.inr ⟨rfl, hnone, ?_⟩
    rw [Attributes.info_updateRange, Attributes.info_update_self (by omega)]
    split <;> exact Option.some_ne_none _

end Requests

/-- What has a format keeps one. -/
theorem Served.format_ne_none {a b : Attribute} (h : Served a b) (ha : a.format ≠ none) :
    b.format ≠ none := by
  induction h with
  | refl => exact ha
  | format _ _ _ => exact Option.some_ne_none _
  | inline _ _ ih => exact ih

/-- A request that is carried out shows in what a consultation leaves. -/
theorem consult_ne_of_formatted {attributes served : Attributes} {offset : Nat}
    (hnone : (attributes.info offset).format = none) (hsome : (served.info offset).format ≠ none)
    (journal : Array ν) (consultation : Consultation ν σ) :
    (consult setup served journal consultation).attributes ≠ attributes := by
  intro heq
  have hserves : ServedAll served (consult setup served journal consultation).attributes :=
    consult_serves consultation served journal
  rw [heq] at hserves
  exact (hserves.bytes offset).format_ne_none hsome hnone

/-- **A consultation leaves the attributes as they were exactly if it was idle.** -/
theorem consult_attributes_eq_iff (consultation : Consultation ν σ) {attributes : Attributes}
    (hsize : attributes.size = setup.image.size) (journal : Array ν) :
    (consult setup attributes journal consultation).attributes = attributes
      ↔ consultation.IsIdle setup attributes := by
  induction consultation generalizing journal with
  | vote _ _ | fail _ => exact ⟨fun _ => trivial, fun _ => rfl⟩
  | note entry rest ih => exact ih _
  | peek offset rest ih => exact ih _ _ journal
  | formatOperand offset detail label rest ih =>
      unfold consult Consultation.IsIdle
      dsimp only
      rcases serveOperand_effect attributes offset detail label hsize with
        ⟨hreply, hsame⟩ | ⟨hreply, hnone, hsome⟩
      · rw [hsame]
        exact (ih _ journal).trans (and_iff_right hreply).symm
      · exact iff_of_false (consult_ne_of_formatted hnone hsome journal _)
          fun hidle => hidle.1 hreply
  | claimInline offset length kind detail label rest ih =>
      unfold consult Consultation.IsIdle
      dsimp only
      rcases serveInline_effect attributes offset length kind detail label hsize with
        ⟨hreply, hsame⟩ | ⟨hreply, hnone, hsome⟩
      · rw [hsame]
        exact (ih _ journal).trans (and_iff_right hreply).symm
      · exact iff_of_false (consult_ne_of_formatted hnone hsome journal _)
          fun hidle => hidle.1 hreply

/-! ### A plugin that fails -/

/-- Asking about a call site is polling the panel. -/
theorem askPlugins_of_site {op : Opcode} {offset : Nat} {s : State ν σ} {site : CallSite}
    (hsite : callSite? setup op offset (s.info offset).status = some site) (stops : Bool) :
    let polled := poll setup site stops s.attributes s.journal s.panel
    askPlugins setup op offset stops s
      = (polled.stops, ⟨polled.attributes, s.pending, polled.panel, polled.journal⟩) := by
  unfold askPlugins
  rw [hsite]
  rfl

/-- **A plugin that fails has no vote, but what it has done stands.**  The plugins after it are
asked with the vote of those before it, and find the attributes as it leaves them.  Those are the
attributes that it found just in case it was idle, and then the vote and the attributes come out as
if it had not been on the panel. -/
theorem askPlugins_failed (setup : Setup) (op : Opcode) (offset : Nat) (stops : Bool)
    (s : State ν σ) (site : CallSite) (before after : List (Plugin ν σ)) (plugin : Plugin ν σ)
    (hsize : s.attributes.size = setup.image.size)
    (hpanel : s.panel = before ++ plugin :: after)
    (hsite : callSite? setup op offset (s.info offset).status = some site)
    (hcover : plugin.capabilities.cover site = true)
    (hfail :
      let found := poll setup site stops s.attributes s.journal before
      (consult setup found.attributes found.journal (plugin.consult plugin.state site)).vote
        = none) :
    let found := poll setup site stops s.attributes s.journal before
    let consultation := plugin.consult plugin.state site
    let left := consult setup found.attributes found.journal consultation
    let rest := poll setup site found.stops left.attributes left.journal after
    let asked := askPlugins setup op offset stops s
    let without := askPlugins setup op offset stops { s with panel := before ++ after }
    (asked.1 = rest.stops ∧ asked.2.attributes = rest.attributes)
      ∧ (left.attributes = found.attributes ↔ consultation.IsIdle setup found.attributes)
      ∧ (consultation.IsIdle setup found.attributes →
          asked.1 = without.1 ∧ asked.2.attributes = without.2.attributes) := by
  have hwithout := askPlugins_of_site (s := { s with panel := before ++ after }) hsite stops
  have hfound : (poll setup site stops s.attributes s.journal before).attributes.size
      = setup.image.size :=
    (poll_serves site before stops s.attributes s.journal).size.trans hsize
  have hidle := consult_attributes_eq_iff (plugin.consult plugin.state site) hfound
    (poll setup site stops s.attributes s.journal before).journal
  obtain ⟨hvote, hattributes⟩ := poll_cons_of_failed
    (poll setup site stops s.attributes s.journal before).stops after hcover hfail
  dsimp only at hwithout ⊢
  rw [askPlugins_of_site hsite, hwithout, hpanel, poll_append, poll_append]
  refine ⟨⟨hvote, hattributes⟩, hidle, fun h => ?_⟩
  dsimp only
  rw [hvote, hattributes, hidle.mpr h]
  exact ⟨poll_stops site after _ _ _ _, poll_attributes site after _ _ _ _ _⟩

/-- A call with three bytes of arguments after it. -/
def argumentCall : Setup where
  image := #[0x20, 0x00, 0x20, 0x01, 0x02, 0x03, 0x60]
  processor := ⟨.nmos6502, true, OpcodeTable.blank.overlay
    [Layer.op 0x20 .jsr .abs .call .keep, Layer.op 0x60 .rts .stackRts .stop .keep]⟩
  map := ⟨[⟨0, 7, 0x1000⟩], 7⟩
  parameters := .initial
  hints := #[.code, .unset, .unset, .unset, .unset, .unset, .unset]
  overrides := #[]
  entryStatus := .indeterminate

/-- Takes `length` bytes after a call as arguments; the call is said to stop if they are given to
it, and nothing is said if `fails`. -/
def argumentTaker (length : Nat) (fails : Bool) : Plugin Unit Unit where
  capabilities := ⟨true, false, false⟩
  consult _ site := .claimInline (site.offset + 3) length .dense .plain "" fun reply =>
    if fails then .fail () else .vote (reply.toOption == some true) ()
  state := ()

theorem argumentTaker_fails (attributes : Attributes) (journal : Array Unit) (length : Nat)
    (site : CallSite) :
    (consult argumentCall attributes journal
      ((argumentTaker length true).consult () site)).vote = none := rfl

/-- The call has been decoded and `panel` is about to be asked. -/
def argumentCallDecoded (panel : List (Plugin Unit Unit)) : State Unit Unit :=
  { decodedAt argumentCall 0 (startConfig argumentCall panel).state with panel }

/-- Ten bytes are not there to be taken, so the plugin that asks for them and fails makes no
difference to the one after it. -/
theorem askPlugins_failed_argumentCall :
    let s := argumentCallDecoded [argumentTaker 10 true, argumentTaker 1 false]
    let without := { s with panel := [argumentTaker 1 false] }
    let op := argumentCall.opcodeAt 0
    callSite? argumentCall op 0 (s.info 0).status = some (.jsr 0 0x2000)
      ∧ (consult argumentCall s.attributes #[]
          ((argumentTaker 10 true).consult () (.jsr 0 0x2000))).vote = none
      ∧ (askPlugins argumentCall op 0 false s).1 = (askPlugins argumentCall op 0 false without).1
      ∧ (askPlugins argumentCall op 0 false s).2.attributes
        = (askPlugins argumentCall op 0 false without).2.attributes := by
  have hsite : callSite? argumentCall (argumentCall.opcodeAt 0) 0
      ((argumentCallDecoded [argumentTaker 10 true, argumentTaker 1 false]).info 0).status
        = some (.jsr 0 0x2000) := by decide +kernel
  obtain ⟨_, _, hsame⟩ := askPlugins_failed argumentCall (argumentCall.opcodeAt 0) 0 false
    (argumentCallDecoded [argumentTaker 10 true, argumentTaker 1 false]) (.jsr 0 0x2000) []
    [argumentTaker 1 false] (argumentTaker 10 true) (by decide +kernel) rfl hsite rfl
    (argumentTaker_fails _ _ _ _)
  rw [List.nil_append] at hsame
  exact ⟨hsite, argumentTaker_fails _ _ _ _, hsame ⟨by decide +kernel, trivial⟩⟩

/-- **A plugin that fails does take part.**  The three bytes that it has claimed stay claimed, and
the plugin after it does not get the one that it asks for and votes otherwise. -/
theorem askPlugins_failed_takes_part :
    let s := argumentCallDecoded [argumentTaker 3 true, argumentTaker 1 false]
    let without := { s with panel := [argumentTaker 1 false] }
    let op := argumentCall.opcodeAt 0
    callSite? argumentCall op 0 (s.info 0).status = some (.jsr 0 0x2000)
      ∧ (consult argumentCall s.attributes #[]
          ((argumentTaker 3 true).consult () (.jsr 0 0x2000))).vote = none
      ∧ (askPlugins argumentCall op 0 false s).1 ≠ (askPlugins argumentCall op 0 false without).1
      ∧ (askPlugins argumentCall op 0 false s).2.attributes
        ≠ (askPlugins argumentCall op 0 false without).2.attributes := by
  refine ⟨by decide +kernel, argumentTaker_fails _ _ _ _, by decide +kernel, fun hsame => ?_⟩
  have hformat := congrArg (fun attributes => (attributes.info 3).format) hsame
  revert hformat
  decide +kernel

end Flow

end Disasm65
