/-
Formats that run past the end of the image.

The end of a format is its offset and its length taken together, and a length can be almost as large
as a word.  A format whose end is no word is not reported like other bad data: it ends the analysis
of the project (`analyze_overflows`).  All others are checked against their exact end, so what is
accepted lies in the image, and the passes that walk over the items go on from it
(`accepted_ends_inside`).
-/
import Mathlib
import Disasm65.Proofs.Data.Gathering
import Disasm65.Proofs.Data.Targets
import Disasm65.Proofs.Project.UserFormats

namespace Disasm65

namespace Project

open Data

variable {setup : Flow.Setup} {attributes : Attributes} {offset : Nat} {format : Format}

/-! ### Ends that are no words -/

section Faults

variable {size : Nat} {map : AddressMap} {fault : Fault}

theorem takeFormat_eq_error {state : Attributes × Report} {entry : Nat × Format} :
    takeFormat size map state entry = .error fault
      ↔ (entry.1 < size ∧ 0x10000000000000000 ≤ entry.1 + entry.2.length)
        ∧ fault = .overflow entry.1 entry.2.length := by
  unfold takeFormat
  split
  · rename_i hout
    exact ⟨fun h => (by cases h), fun h => absurd h.1.1 (Nat.not_lt_of_le hout)⟩
  · rename_i hin
    by_cases hword : entry.1 + entry.2.length < 0x10000000000000000
    · rw [addWords_of_lt hword]
      exact ⟨fun h => (by cases h), fun h => absurd h.1.2 (Nat.not_le_of_lt hword)⟩
    · have hover := Nat.le_of_not_lt hword
      rw [addWords_of_le hover]
      constructor
      · intro h
        cases h
        exact ⟨⟨Nat.lt_of_not_le hin, hover⟩, rfl⟩
      · rintro ⟨-, rfl⟩
        rfl

/-- Formats in a row that cannot be taken hold one whose end is no word. -/
theorem foldlM_takeFormat_eq_error :
    ∀ (entries : List (Nat × Format)) (state : Attributes × Report),
      entries.foldlM (takeFormat size map) state = .error fault →
        ∃ entry ∈ entries, (entry.1 < size ∧ 0x10000000000000000 ≤ entry.1 + entry.2.length)
          ∧ fault = .overflow entry.1 entry.2.length := by
  intro entries
  induction entries with
  | nil =>
      intro state h
      cases h
  | cons entry entries ih =>
      intro state h
      rw [List.foldlM_cons] at h
      cases htaken : takeFormat size map state entry with
      | error other =>
          rw [htaken] at h
          cases h
          exact ⟨entry, List.mem_cons_self, takeFormat_eq_error.mp htaken⟩
      | ok next =>
          rw [htaken] at h
          obtain ⟨found, hfound, hover⟩ := ih next h
          exact ⟨found, List.mem_cons_of_mem _ hfound, hover⟩

end Faults

/-- **A format whose end is no word ends the analysis of the project**, if control can be
followed. -/
theorem analyze_overflows {ν σ : Type} {project : Project} {panel : List (Plugin ν σ)}
    {flow : Flow.State ν σ}
    (hflow : Flow.analyze project.setup panel (.blank project.setup.image.size) = .ok flow)
    (hover : ¬ project.EndsInWords) :
    ∃ i format, project.formats[i]? = some format
      ∧ (i < project.setup.image.size ∧ 0x10000000000000000 ≤ i + format.length)
      ∧ project.analyze panel = .error (.overflow i format.length) := by
  have htotal := (Flow.check_eq_ok.mp (Flow.analyze_eq_ok.mp hflow).1).2.1
  cases hattach : project.attachUserData project.acceptLabels.1
      (flow.attributes, project.acceptLabels.2) with
  | ok after => exact absurd (attachUserData_eq_ok.mp hattach).1 hover
  | error fault =>
      obtain ⟨⟨i, format⟩, hentry, hpast, rfl⟩ := foldlM_takeFormat_eq_error _ _ hattach
      refine ⟨i, format, Std.TreeMap.mem_toList_iff_getElem?_eq_some.mp hentry, hpast, ?_⟩
      unfold analyze
      dsimp only [bind, Except.bind, pure, Except.pure]
      rw [if_neg (not_not.mpr htotal), hflow]
      dsimp only
      rw [hattach]

/-! ### Flaws -/

/-- The format is attached, and nothing is reported. -/
def Accepted (setup : Flow.Setup) (attributes : Attributes) (offset : Nat) (format : Format) :
    Prop :=
  takeFormat setup.image.size setup.map (attributes, []) (offset, format)
    = .ok (attributes.update offset fun a => { a with format := some format }, [])

/-- The format is left out, and that is reported. -/
def Ignored (setup : Flow.Setup) (attributes : Attributes) (offset : Nat) (format : Format) :
    Prop :=
  ∃ message : Message, message.offset = offset ∧ message.resolution = .formatIgnored
    ∧ takeFormat setup.image.size setup.map (attributes, []) (offset, format)
      = .ok (attributes, [message])

theorem attachFormat_of_none {size : Nat} {map : AddressMap} (report : Report)
    (hnone : formatFlaw? size map attributes offset format = none) :
    attachFormat size map (attributes, report) (offset, format)
      = (attributes.update offset fun a => { a with format := some format }, report) := by
  unfold attachFormat
  dsimp only
  rw [hnone]

/-- **A format is accepted exactly if it fits.** -/
theorem accepted_iff (hmap : setup.map.Valid)
    (htotal : setup.map.totalLength = setup.image.size)
    (hcoded : (attributes.info offset).Coded) :
    Accepted setup attributes offset format ↔ Fits setup attributes offset format := by
  rw [← formatFlaw?_eq_none_iff hmap hcoded]
  constructor
  · intro h
    have hreport := congrArg Prod.snd (takeFormat_eq_ok.mp h).2
    rw [attachFormat_report, formatMessage?] at hreport
    simpa using hreport
  · intro hnone
    have hinside := ((formatFlaw?_eq_none_iff hmap hcoded).mp hnone).inside
    have hword := hmap.word
    refine takeFormat_eq_ok.mpr ⟨fun _ => ?_, attachFormat_of_none [] hnone⟩
    dsimp only
    omega

/-- What does not fit is reported, if its end is a word. -/
theorem ignored_of_not_fits (hmap : setup.map.Valid) (hcoded : (attributes.info offset).Coded)
    (hword : offset < setup.image.size → offset + format.length < 0x10000000000000000)
    (hfits : ¬ Fits setup attributes offset format) :
    Ignored setup attributes offset format := by
  obtain ⟨flaw, hflaw⟩ :=
    Option.ne_none_iff_exists'.mp (mt (formatFlaw?_eq_none_iff hmap hcoded).mp hfits)
  refine ⟨⟨flaw.1, offset, flaw.2.1, flaw.2.2, .formatIgnored⟩, rfl, rfl,
    takeFormat_eq_ok.mpr ⟨hword, ?_⟩⟩
  unfold attachFormat
  dsimp only
  rw [hflaw]
  rfl

/-! ### The walks over the items -/

/-- The passes over the items step over this many bytes at the byte: the one that resolves targets,
which finds it as it is, or the one that gathers ranges, which finds it classed. -/
def SteppedOver (a : Attribute) (step : Nat) : Prop :=
  step = stride a ∨ ∃ b, Classed a b ∧ endsRange? b = some step

section Walks

variable {a : Attribute} {step : Nat}

theorem SteppedOver.of_code (h : SteppedOver a step) (hstart : a.isInstructionStart = true)
    (hcode : a.isInstruction = true) : step = 1 := by
  rcases h with rfl | ⟨b, hclassed, hends⟩
  · rw [stride, if_pos hstart]
  · have hcode' : b.isInstruction = true := by
      cases hclassed <;> simpa using hcode
    rw [endsRange?, if_pos hcode'] at hends
    exact (Option.some.inj hends).symm

theorem endsRange?_of_item (hcode : a.isInstruction = false)
    (hclass : a.isInlineData = true ∨ a.isData = true) (hformat : a.format = some format) :
    endsRange? a = some format.length := by
  have hitem : (a.isInlineData || a.isDataStart) = true := by
    rcases hclass with h | h
    · rw [h, Bool.true_or]
    · rw [Attribute.isDataStart, h, hformat]
      exact Bool.or_true _
  have hlength : a.length = format.length := by
    rw [Attribute.length, if_pos (Bool.or_eq_true_iff.mpr hclass.symm), hformat]
  rw [endsRange?, hcode, if_neg Bool.false_ne_true, if_pos hitem, hlength]

/-- Both passes step over an item by its length. -/
theorem SteppedOver.of_item (h : SteppedOver a step) (hstart : a.isInstructionStart = false)
    (hcode : a.isInstruction = false) (hformat : a.format = some format) :
    step = format.length := by
  rcases h with rfl | ⟨b, hclassed, hends⟩
  · rw [stride, hstart, hformat]
    rfl
  · refine Option.some.inj (hends.symm.trans ?_)
    cases hclassed with
    | kept hkept =>
        refine endsRange?_of_item hcode (Or.inl (hkept.resolve_right fun h => ?_)) hformat
        rw [hcode] at h
        cases h
    | shown _ hnone =>
        rw [hnone] at hformat
        cases hformat
    | data _ _ => exact endsRange?_of_item (by simpa using hcode) (Or.inr (by simp)) hformat

end Walks

section Steps

variable (hmap : setup.map.Valid) (hcoded : (attributes.info offset).Coded)

include hmap hcoded

/-- From a format that fits the passes go on, and not out of the image. -/
theorem Fits.steps_forward (htotal : setup.map.totalLength = setup.image.size)
    (h : Fits setup attributes offset format) {step : Nat}
    (hstep : SteppedOver { attributes.info offset with format := some format } step) :
    ∃ next, stepOver offset step = .ok next ∧ offset < next ∧ next ≤ setup.image.size := by
  have hword := hmap.word
  have hlength := h.nonempty
  have hinside := h.inside
  have hbound : 0 < step ∧ step ≤ format.length := by
    rcases h.place with ⟨hstart, _⟩ | hfree
    · have hone := hstep.of_code hstart (hcoded.start hstart)
      omega
    · have hcode := hfree offset (Nat.le_refl _) (by omega)
      have hsame := hstep.of_item (hcoded.start_eq_false hcode) hcode rfl
      omega
  exact ⟨_, addWords_of_lt (by omega), by omega, by omega⟩

end Steps

/-! ### What is accepted -/

/-- **A format that is accepted lies in the image, and one whose end is no word ends the
analysis.**  The format is taken up on the attributes that following control has left, with whatever
labels and formats have been attached since.  There is a fault exactly if it is for a byte of the
image and its end is no word; a project with such a format has no findings.  Any other format is
accepted or reported.  It is accepted exactly if it fits, so its exact end is in the image, and the
passes that come to it step forward and not out of the image. -/
theorem accepted_ends_inside {ν σ : Type} (setup : Flow.Setup) (panel : List (Plugin ν σ))
    (flow : Flow.State ν σ) (attributes : Attributes) (offset : Nat) (format : Format)
    (hmap : setup.map.Valid)
    (hflow : Flow.analyze setup panel (Attributes.blank setup.image.size) = .ok flow)
    (hattached : Retitles flow.attributes attributes) :
    (∀ fault, takeFormat setup.image.size setup.map (attributes, []) (offset, format)
          = .error fault
        ↔ (offset < setup.image.size ∧ 0x10000000000000000 ≤ offset + format.length)
          ∧ fault = .overflow offset format.length)
      ∧ (Accepted setup attributes offset format ↔ Fits setup attributes offset format)
      ∧ (Accepted setup attributes offset format →
          offset + format.length ≤ setup.image.size
            ∧ ∀ step, SteppedOver { attributes.info offset with format := some format } step →
              ∃ next, stepOver offset step = .ok next ∧ offset < next
                ∧ next ≤ setup.image.size)
      ∧ (¬ Accepted setup attributes offset format →
          ¬ (offset < setup.image.size ∧ 0x10000000000000000 ≤ offset + format.length) →
          Ignored setup attributes offset format)
      ∧ ∀ project : Project, project.setup = setup → ¬ project.EndsInWords →
          ∃ i user, project.formats[i]? = some user
            ∧ (i < setup.image.size ∧ 0x10000000000000000 ≤ i + user.length)
            ∧ project.analyze panel = .error (.overflow i user.length) := by
  have htotal := (Flow.check_eq_ok.mp (Flow.analyze_eq_ok.mp hflow).1).2.1
  have hcoded : (attributes.info offset).Coded := by
    obtain ⟨-, rfl⟩ := Flow.analyze_eq_ok.mp hflow
    exact (Flow.outcome_coded setup panel offset).congr fun m _ => by rw [hattached.marks]
  have haccepted : Accepted setup attributes offset format ↔ Fits setup attributes offset format :=
    accepted_iff hmap htotal hcoded
  refine ⟨fun fault => takeFormat_eq_error, haccepted, fun h => ?_, fun h hword => ?_, ?_⟩
  · have hfits := haccepted.mp h
    exact ⟨hfits.inside, fun _ => hfits.steps_forward hmap hcoded htotal⟩
  · refine ignored_of_not_fits hmap hcoded (fun hin => ?_) (mt haccepted.mpr h)
    exact Nat.lt_of_not_le fun hover => hword ⟨hin, hover⟩
  · rintro project rfl hover
    exact analyze_overflows hflow hover

/-- Eight bytes without code. -/
def eightBytes (formats : Std.TreeMap Nat Format) : Project where
  setup :=
    { image := #[1, 2, 3, 4, 5, 6, 7, 8]
      processor := ⟨.nmos6502, true, OpcodeTable.blank⟩
      map := ⟨[⟨0, 8, 0x1000⟩], 8⟩
      parameters := .initial
      hints := #[]
      overrides := #[]
      entryStatus := .indeterminate }
  platforms := []
  definitions := []
  labels := []
  formats := formats
  comments := []

/-- Raw bytes, six of them. -/
def sixRaw : Format := ⟨6, .dense, .plain, none⟩

/-- Raw bytes, as many as there are words but for two. -/
def allButTwo : Format := ⟨0xfffffffffffffffe, .dense, .plain, none⟩

/-- Six bytes fit at the start, and the passes go on behind them; the other format ends no
analysis well. -/
theorem accepted_ends_inside_eightBytes :
    let setup := (eightBytes ∅).setup
    let flow : Flow.State Unit Unit := Flow.outcome setup []
    setup.map.Valid
      ∧ Flow.analyze setup [] (Attributes.blank setup.image.size) = .ok flow
      ∧ Retitles flow.attributes flow.attributes
      ∧ Accepted setup flow.attributes 0 sixRaw
      ∧ (∃ next, stepOver 0 (stride { flow.attributes.info 0 with format := some sixRaw })
          = .ok next ∧ 0 < next ∧ next ≤ 8)
      ∧ takeFormat 8 setup.map (flow.attributes, []) (4, allButTwo)
        = .error (.overflow 4 0xfffffffffffffffe) := by
  intro setup flow
  have hmap : setup.map.Valid := ⟨by decide, by decide, by decide⟩
  have hflow : Flow.analyze setup [] (Attributes.blank setup.image.size) = .ok flow :=
    Flow.analyze_eq_ok.mpr ⟨by decide, rfl⟩
  obtain ⟨-, hsix, hforward, -⟩ := accepted_ends_inside setup [] flow flow.attributes 0 sixRaw hmap
    hflow (.refl _)
  obtain ⟨hfaults, -⟩ := accepted_ends_inside setup [] flow flow.attributes 4 allButTwo hmap hflow
    (.refl _)
  have haccepted : Accepted setup flow.attributes 0 sixRaw :=
    hsix.mpr ((formatFlaw?_eq_none_iff hmap (Flow.outcome_coded setup [] 0)).mp (by decide +kernel))
  exact ⟨hmap, hflow, .refl _, haccepted, (hforward haccepted).2 _ (Or.inl rfl),
    (hfaults _).mpr ⟨by decide, rfl⟩⟩

/-- **A format that can be built ends the analysis.**  Its end is no word.  It is not reported as
one that runs out of the image, although modulo the word it would end before it starts. -/
theorem analyze_overrun :
    Format.create 0xfffffffffffffffe .dense .plain = .ok allButTwo
      ∧ (8 < 4 + allButTwo.length ∧ (4 + allButTwo.length) % 0x10000000000000000 = 2)
      ∧ (eightBytes (.ofList [(0, sixRaw), (4, allButTwo)])).analyze ([] : List (Plugin Unit Unit))
        = .error (.overflow 4 0xfffffffffffffffe) := by
  refine ⟨rfl, by decide, ?_⟩
  have hfault : ((eightBytes (.ofList [(0, sixRaw), (4, allButTwo)])).analyze
      ([] : List (Plugin Unit Unit))).map (fun _ => ())
        = .error (.overflow 4 0xfffffffffffffffe) := by
    decide +kernel
  generalize (eightBytes _).analyze _ = result at hfault ⊢
  cases result <;> cases hfault
  rfl

end Project

end Disasm65
