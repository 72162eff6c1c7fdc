/-
What becomes of the labels of the user.

A label is refused if its offset is not in the image, or if a label that was accepted before it has
its offset or its name.  An accepted label is attached to its byte, stays there through the data
passes whatever else is generated and renamed, and is taken out in the end if nothing starts at the
byte.  Every refusal and every removal makes one message, and nothing else makes a message about a
label (`labels_accounted`).
-/
import Mathlib
import Disasm65.Proofs.Project.Labels

namespace Disasm65

namespace Project

open Data

variable {ν σ : Type} {project : Project}

/-- What becomes of a label of the user. -/
inductive Fate where
  /-- its offset is not in the image -/
  | outside
  /-- a label that was accepted before has its offset or its name -/
  | repeated
  /-- it is accepted, and something starts at its byte -/
  | shown
  /-- it is accepted, but nothing starts at its byte -/
  | hidden
deriving DecidableEq

def Fate.isAccepted : Fate → Bool
  | .outside | .repeated => false
  | .shown | .hidden => true

/-- A label of the user and what becomes of it. -/
structure FatedLabel where
  offset : Nat
  symbol : Symbol
  fate : Fate

namespace FatedLabel

def entry (l : FatedLabel) : Nat × Symbol := (l.offset, l.symbol)

/-- The label is accepted, and leaves its offset and its name to no other. -/
def Bars (l : FatedLabel) (offset : Nat) (label : String) : Prop :=
  l.fate.isAccepted = true ∧ (l.offset = offset ∨ l.symbol.label = label)

/-- The message about a label that is not accepted. -/
def refusal? (l : FatedLabel) : Option Message :=
  match l.fate with
  | .outside => some (labelMessage .error .offsetOrLength l.offset l.symbol.label)
  | .repeated => some (labelMessage .warning .duplicateLabel l.offset l.symbol.label)
  | .shown | .hidden => none

/-- The message about a label that is taken out again. -/
def removal? (l : FatedLabel) : Option Message :=
  match l.fate with
  | .hidden => some (labelMessage .warning .hiddenLabel l.offset l.symbol.label)
  | .outside | .repeated | .shown => none

/-- The label as it is accepted. -/
def admission? (map : AddressMap) (l : FatedLabel) : Option (Nat × Symbol) :=
  if l.fate.isAccepted then
    (map.addressOf? l.offset).map fun address => (l.offset, { l.symbol with value := address })
  else none

end FatedLabel

/-- A label has the fate that the findings, and the labels `before` it, say. -/
structure Accounted (project : Project) (findings : Findings ν) (before : List FatedLabel)
    (l : FatedLabel) : Prop where
  outside : l.fate = .outside ↔ project.setup.image.size ≤ l.offset
  repeated : l.fate = .repeated ↔ l.offset < project.setup.image.size
    ∧ ∃ m ∈ before, m.Bars l.offset l.symbol.label
  shown : l.fate = .shown → (findings.attributes.info l.offset).isStart = true
    ∧ ∃ address, project.setup.map.addressOf? l.offset = some address
      ∧ findings.symbols.get? l.symbol.label = some (.label { l.symbol with value := address })
      ∧ (findings.attributes.info l.offset).symbol = some { l.symbol with value := address }
  hidden : l.fate = .hidden → (findings.attributes.info l.offset).isStart = false
    ∧ findings.symbols.get? l.symbol.label = none
    ∧ (findings.attributes.info l.offset).symbol = none

/-- A message about a format that is left out. -/
def IsFormatMessage (message : Message) : Prop :=
  message.resolution = .formatIgnored ∧ (message.topic = .offsetOrLength ∨ message.topic = .format)

/-- All labels of the user have their fates, and the report is about them and about formats. -/
structure Account (project : Project) (findings : Findings ν) (fated : List FatedLabel)
    (others : Report) : Prop where
  labels : fated.map FatedLabel.entry = project.labels
  each : ∀ before l after, fated = before ++ l :: after → Accounted project findings before l
  report : findings.report
    = fated.filterMap FatedLabel.refusal? ++ others ++ fated.filterMap FatedLabel.removal?
  others : ∀ message ∈ others, IsFormatMessage message

/-! ### Which labels are accepted -/

section Intake

variable (map : AddressMap) (starts : Nat → Bool)

/-- What becomes of the next label; `starts` says where something starts. -/
def Intake.judge (intake : Intake) (entry : Nat × Symbol) : FatedLabel :=
  ⟨entry.1, entry.2,
    if map.addressOf? entry.1 = none then .outside
    else if intake.isTaken entry.1 entry.2.label then .repeated
    else if starts entry.1 then .shown
    else .hidden⟩

/-- A label whose fate is the one that is due. -/
structure Judged (intake : Intake) (before : List FatedLabel) (l : FatedLabel) : Prop where
  outside : l.fate = .outside ↔ map.addressOf? l.offset = none
  repeated : l.fate = .repeated ↔ map.addressOf? l.offset ≠ none
    ∧ (intake.isTaken l.offset l.symbol.label = true
      ∨ ∃ m ∈ before, m.Bars l.offset l.symbol.label)
  shown : l.fate = .shown → starts l.offset = true
  hidden : l.fate = .hidden → starts l.offset = false

theorem judge_judged (intake : Intake) (entry : Nat × Symbol) :
    Judged map starts intake [] (intake.judge map starts entry) := by
  unfold Intake.judge
  by_cases haddress : map.addressOf? entry.1 = none
  · rw [if_pos haddress]
    exact ⟨by simp [haddress], by simp [haddress], by simp, by simp⟩
  · rw [if_neg haddress]
    by_cases htaken : intake.isTaken entry.1 entry.2.label = true
    · rw [if_pos htaken]
      exact ⟨by simp [haddress], by simp [haddress, htaken], by simp, by simp⟩
    · rw [if_neg htaken]
      by_cases hstart : starts entry.1 = true
      · rw [if_pos hstart]
        exact ⟨by simp [haddress], by simp [htaken], by simp [hstart], by simp⟩
      · rw [if_neg hstart]
        exact ⟨by simp [haddress], by simp [htaken], by simp, by simp [hstart]⟩

variable {map starts}

theorem Judged.exists_admission {intake : Intake} {before : List FatedLabel} {l : FatedLabel}
    (h : Judged map starts intake before l) (hl : l.fate.isAccepted = true) :
    ∃ address, map.addressOf? l.offset = some address
      ∧ l.admission? map = some (l.offset, { l.symbol with value := address }) := by
  cases haddress : map.addressOf? l.offset with
  | none =>
      rw [h.outside.mpr haddress] at hl
      cases hl
  | some address => exact ⟨address, rfl, by rw [FatedLabel.admission?, if_pos hl, haddress]; rfl⟩

/-- The labels that are taken out again are the accepted ones that stand where nothing starts. -/
theorem Judged.removal?_eq {intake : Intake} {before : List FatedLabel} {l : FatedLabel}
    (h : Judged map starts intake before l) :
    ((l.admission? map).bind fun p => if starts p.1 then none
      else some (labelMessage .warning .hiddenLabel p.1 p.2.label)) = l.removal? := by
  unfold FatedLabel.removal?
  cases hfate : l.fate with
  | outside | repeated => simp [FatedLabel.admission?, hfate, Fate.isAccepted]
  | shown =>
      obtain ⟨address, _, hadmission⟩ := h.exists_admission (by rw [hfate]; rfl)
      simp [hadmission, h.shown hfate]
  | hidden =>
      obtain ⟨address, _, hadmission⟩ := h.exists_admission (by rw [hfate]; rfl)
      simp [hadmission, h.hidden hfate]

variable (map starts)

/-- Taking a label: it is refused with its message, or accepted. -/
theorem takeLabel_judge (intake : Intake) (entry : Nat × Symbol) :
    takeLabel map intake entry
      = ⟨((intake.judge map starts entry).admission? map).toList ++ intake.accepted,
          intake.report ++ (intake.judge map starts entry).refusal?.toList⟩ := by
  unfold takeLabel Intake.judge
  dsimp only
  cases haddress : map.addressOf? entry.1 with
  | none => simp [FatedLabel.admission?, FatedLabel.refusal?, Fate.isAccepted]
  | some address =>
      simp only [reduceCtorEq, if_false]
      by_cases htaken : intake.isTaken entry.1 entry.2.label = true
      · rw [if_pos htaken, if_pos htaken]
        simp [FatedLabel.admission?, FatedLabel.refusal?, Fate.isAccepted]
      · rw [if_neg htaken, if_neg htaken]
        cases starts entry.1 <;>
          simp [FatedLabel.admission?, FatedLabel.refusal?, Fate.isAccepted, haddress]

/-- Then an offset or a name is taken if it was before or is the label's. -/
theorem isTaken_takeLabel (intake : Intake) (entry : Nat × Symbol) (offset : Nat)
    (label : String) :
    (takeLabel map intake entry).isTaken offset label = true
      ↔ (intake.judge map starts entry).Bars offset label
        ∨ intake.isTaken offset label = true := by
  have hjudged := judge_judged map starts intake entry
  rw [takeLabel_judge map starts]
  generalize intake.judge map starts entry = l at hjudged
  unfold Intake.isTaken FatedLabel.Bars
  rw [List.any_append, Bool.or_eq_true]
  refine or_congr_left ?_
  by_cases haccepted : l.fate.isAccepted = true
  · obtain ⟨address, _, hadmission⟩ := hjudged.exists_admission haccepted
    simp [hadmission, haccepted]
  · simp [FatedLabel.admission?, haccepted]

/-- **Every label is refused with its message or accepted, as is due.** -/
theorem foldl_takeLabel_judged :
    ∀ (entries : List (Nat × Symbol)) (intake : Intake), ∃ fated : List FatedLabel,
      fated.map FatedLabel.entry = entries
        ∧ (entries.foldl (takeLabel map) intake).report
          = intake.report ++ fated.filterMap FatedLabel.refusal?
        ∧ (entries.foldl (takeLabel map) intake).accepted.reverse
          = intake.accepted.reverse ++ fated.filterMap (FatedLabel.admission? map)
        ∧ ∀ before l after, fated = before ++ l :: after →
          Judged map starts intake before l := by
  intro entries
  induction entries with
  | nil => exact fun intake => ⟨[], by simp⟩
  | cons entry entries ih =>
      intro intake
      obtain ⟨fated, hentries, hreport, haccepted, hjudged⟩ := ih (takeLabel map intake entry)
      refine ⟨intake.judge map starts entry :: fated, ?_, ?_, ?_, fun before l after heq => ?_⟩
      · rw [List.map_cons, hentries]
        rfl
      · rw [List.foldl_cons, hreport, takeLabel_judge map starts]
        cases hmessage : (intake.judge map starts entry).refusal? <;> simp [hmessage]
      · rw [List.foldl_cons, haccepted, takeLabel_judge map starts]
        cases hadmitted : (intake.judge map starts entry).admission? map <;> simp [hadmitted]
      · -- the first label is judged here, and bars those that come after it
        cases before with
        | nil =>
            obtain ⟨rfl, -⟩ := List.cons_eq_cons.mp heq
            exact judge_judged map starts intake entry
        | cons first before =>
            obtain ⟨rfl, hrest⟩ := List.cons_eq_cons.mp heq
            obtain ⟨houtside, hrepeated, hshown, hhidden⟩ := hjudged before l after hrest
            refine ⟨houtside, hrepeated.trans (and_congr_right fun _ => ?_), hshown, hhidden⟩
            rw [isTaken_takeLabel map starts]
            simp only [List.mem_cons, exists_eq_or_imp]
            exact or_assoc.trans or_left_comm

end Intake

/-! ### The report -/

theorem attachLabel_symbol_of_ne (state : Attributes × Report) {entry : Nat × Symbol} {i : Nat}
    (hi : entry.1 ≠ i) : ((attachLabel state entry).1.info i).symbol = (state.1.info i).symbol := by
  unfold attachLabel
  dsimp only
  split
  · rfl
  · rw [Attributes.info_update, if_neg fun hc => hi hc.1]

/-- Labels that have offsets of their own are attached without a message. -/
theorem foldl_attachLabel_report :
    ∀ (entries : List (Nat × Symbol)) (state : Attributes × Report),
      entries.Pairwise (fun p q => p.1 ≠ q.1) →
      (∀ p ∈ entries, (state.1.info p.1).symbol = none) →
      (entries.foldl attachLabel state).2 = state.2 := by
  intro entries
  induction entries with
  | nil => exact fun _ _ _ => rfl
  | cons entry entries ih =>
      intro state hdistinct hnone
      obtain ⟨hentry, hrest⟩ := List.pairwise_cons.mp hdistinct
      have hreport : (attachLabel state entry).2 = state.2 := by
        unfold attachLabel
        dsimp only
        rw [if_neg]
        simp [hnone entry List.mem_cons_self]
      rw [List.foldl_cons, ih _ hrest fun p hp => ?_, hreport]
      rw [attachLabel_symbol_of_ne state (hentry p hp)]
      exact hnone p (List.mem_cons_of_mem _ hp)

theorem formatFlaw?_topic {size offset : Nat} {map : AddressMap} {attributes : Attributes}
    {format : Format} {severity : Severity} {topic : Topic} {context : String}
    (h : formatFlaw? size map attributes offset format = some (severity, topic, context)) :
    topic = .offsetOrLength ∨ topic = .format := by
  unfold formatFlaw? at h
  dsimp only at h
  repeat' split at h
  all_goals cases h
  all_goals simp

/-- Formats that are left out make messages about formats. -/
theorem foldl_attachFormat_report (size : Nat) (map : AddressMap) :
    ∀ (entries : List (Nat × Format)) (state : Attributes × Report),
      ∃ others : Report, (entries.foldl (attachFormat size map) state).2 = state.2 ++ others
        ∧ ∀ message ∈ others, IsFormatMessage message := by
  intro entries
  induction entries with
  | nil => exact fun state => ⟨[], by simp⟩
  | cons entry entries ih =>
      intro state
      obtain ⟨others, hreport, hothers⟩ := ih (attachFormat size map state entry)
      rw [List.foldl_cons, hreport]
      unfold attachFormat
      dsimp only
      split
      · rename_i severity topic context hflaw
        refine ⟨⟨severity, entry.1, topic, context, .formatIgnored⟩ :: others, by simp,
          List.forall_mem_cons.mpr ⟨⟨rfl, formatFlaw?_topic hflaw⟩, hothers⟩⟩
      · exact ⟨others, rfl, hothers⟩

/-- Before the data passes the report is about labels that were refused and about formats. -/
theorem titledReport_eq (project : Project) (panel : List (Plugin ν σ)) :
    ∃ others : Report,
      project.titledReport (Flow.outcome project.setup panel).attributes
        = project.acceptLabels.2 ++ others
      ∧ ∀ message ∈ others, IsFormatMessage message := by
  have hlabels := foldl_attachLabel_report project.acceptLabels.1
    ((Flow.outcome project.setup panel).attributes, project.acceptLabels.2)
    ((acceptLabels_admitted project).distinct.imp fun h => h.1)
    fun p _ => Flow.outcome_symbol project.setup panel p.1
  obtain ⟨others, hreport, hothers⟩ := foldl_attachFormat_report project.setup.image.size
    project.setup.map project.formats.toList (project.acceptLabels.1.foldl attachLabel
      ((Flow.outcome project.setup panel).attributes, project.acceptLabels.2))
  rw [hlabels] at hreport
  exact ⟨others, hreport, hothers⟩

/-! ### Labels that are taken out again -/

theorem Stripped.isStart {a b : Attribute} (h : Stripped a b) : b.isStart = a.isStart := by
  rcases h with rfl | rfl <;> rfl

theorem dropHidden_of_start {state : Workspace × Report} {entry : Nat × Symbol}
    (h : (state.1.info entry.1).isStart = true) : dropHidden state entry = state := by
  unfold dropHidden
  exact if_pos h

/-- A label that is taken out leaves no trace but its message. -/
theorem dropHidden_of_not_start {state : Workspace × Report} {entry : Nat × Symbol}
    (h : (state.1.info entry.1).isStart = false) :
    (dropHidden state entry).2
        = state.2 ++ [labelMessage .warning .hiddenLabel entry.1 entry.2.label]
      ∧ (∀ i, ((dropHidden state entry).1.info i).symbol
        = if entry.1 = i ∧ (state.1.info i).symbol = some entry.2 then none
          else (state.1.info i).symbol)
      ∧ ∀ label, (dropHidden state entry).1.symbols.get? label
        = if entry.2.label = label then none else state.1.symbols.get? label := by
  unfold dropHidden
  dsimp only
  rw [if_neg (by rw [h]; exact Bool.false_ne_true)]
  refine ⟨rfl, fun i => ?_, fun label => SymbolTable.get?_erase ..⟩
  unfold Workspace.info
  dsimp only
  rw [Attributes.info_update]
  by_cases hi : entry.1 = i ∧ (state.1.attributes.info i).symbol = some entry.2
  · rw [if_pos ⟨hi.1, lt_size_of_symbol hi.2⟩, if_pos hi.2, if_pos hi]
  · rw [if_neg hi]
    split
    · rename_i hlt
      rw [if_neg fun hc => hi ⟨hlt.1, hc⟩]
    · rfl

/-- Every label that is taken out makes a message. -/
theorem foldl_dropHidden_report :
    ∀ (entries : List (Nat × Symbol)) (state : Workspace × Report),
      (entries.foldl dropHidden state).2
        = state.2 ++ entries.filterMap fun p =>
          if (state.1.info p.1).isStart then none
          else some (labelMessage .warning .hiddenLabel p.1 p.2.label) := by
  intro entries
  induction entries with
  | nil => simp
  | cons entry entries ih =>
      intro state
      have hsame : ∀ i, ((dropHidden state entry).1.info i).isStart
          = (state.1.info i).isStart := fun i => ((dropHidden_stripped state entry).2 i).isStart
      rw [List.foldl_cons, ih, List.filterMap_cons]
      simp only [hsame]
      by_cases hstart : (state.1.info entry.1).isStart = true
      · rw [dropHidden_of_start hstart, if_pos hstart]
      · rw [(dropHidden_of_not_start (by simpa using hstart)).1, if_neg hstart, List.append_assoc]
        rfl

/-- The symbol of a byte and the entry of a label stay if no label is taken out there or has that
name. -/
theorem foldl_dropHidden_kept (entries : List (Nat × Symbol)) (state : Workspace × Report) (i : Nat)
    (label : String) (h : ∀ p ∈ entries, (state.1.info p.1).isStart = false →
      p.1 ≠ i ∧ p.2.label ≠ label) :
    ((entries.foldl dropHidden state).1.info i).symbol = (state.1.info i).symbol
      ∧ (entries.foldl dropHidden state).1.symbols.get? label = state.1.symbols.get? label := by
  have hall := List.foldlRecOn (motive := fun s : Workspace × Report =>
      ((s.1.info i).symbol = (state.1.info i).symbol
        ∧ s.1.symbols.get? label = state.1.symbols.get? label)
      ∧ ∀ j, (s.1.info j).isStart = (state.1.info j).isStart)
    entries dropHidden ⟨⟨rfl, rfl⟩, fun _ => rfl⟩ fun s hs p hp => ?_
  · exact hall.1
  obtain ⟨⟨hsymbol, hget⟩, hstarts⟩ := hs
  refine ⟨?_, fun j => (((dropHidden_stripped s p).2 j).isStart).trans (hstarts j)⟩
  by_cases hstart : (s.1.info p.1).isStart = true
  · rw [dropHidden_of_start hstart]
    exact ⟨hsymbol, hget⟩
  · rw [Bool.not_eq_true] at hstart
    obtain ⟨_, hsymbols, hlabels⟩ := dropHidden_of_not_start hstart
    obtain ⟨hoffset, hlabel⟩ := h p hp ((hstarts p.1).symm.trans hstart)
    rw [hsymbols, hlabels, if_neg fun hc => hoffset hc.1, if_neg hlabel]
    exact ⟨hsymbol, hget⟩

/-- What is gone from a byte and from the table does not come back. -/
theorem dropHidden_gone {state : Workspace × Report} (entry : Nat × Symbol) {i : Nat}
    {label : String}
    (h : (state.1.info i).symbol = none ∧ state.1.symbols.get? label = none) :
    ((dropHidden state entry).1.info i).symbol = none
      ∧ (dropHidden state entry).1.symbols.get? label = none := by
  by_cases hstart : (state.1.info entry.1).isStart = true
  · rw [dropHidden_of_start hstart]
    exact h
  · obtain ⟨_, hsymbols, hlabels⟩ := dropHidden_of_not_start (by simpa using hstart)
    rw [hsymbols, hlabels, h.1, h.2]
    exact ⟨ite_self none, ite_self none⟩

/-- A label that stands where nothing starts goes from its byte and from the table. -/
theorem foldl_dropHidden_gone {p : Nat × Symbol} :
    ∀ (entries : List (Nat × Symbol)) (state : Workspace × Report), p ∈ entries →
      (state.1.info p.1).isStart = false →
      ((state.1.info p.1).symbol = some p.2 ∨ (state.1.info p.1).symbol = none) →
      ((entries.foldl dropHidden state).1.info p.1).symbol = none
        ∧ (entries.foldl dropHidden state).1.symbols.get? p.2.label = none := by
  intro entries
  induction entries with
  | nil => exact fun _ hp => absurd hp List.not_mem_nil
  | cons entry entries ih =>
      intro state hp hstart hsymbol
      rw [List.foldl_cons]
      rcases List.mem_cons.mp hp with rfl | hp
      · refine List.foldlRecOn (motive := fun s : Workspace × Report =>
          (s.1.info p.1).symbol = none ∧ s.1.symbols.get? p.2.label = none) _ _ ?_
          fun s hs q _ => dropHidden_gone q hs
        obtain ⟨_, hsymbols, hlabels⟩ := dropHidden_of_not_start hstart
        refine ⟨?_, (hlabels _).trans (if_pos rfl)⟩
        rw [hsymbols]
        rcases hsymbol with hsome | hnone
        · exact if_pos ⟨rfl, hsome⟩
        · rw [hnone]
          exact ite_self none
      · refine ih _ hp ?_ ?_
        · rw [((dropHidden_stripped state entry).2 p.1).isStart]
          exact hstart
        · rcases (dropHidden_stripped state entry).2 p.1 with hsame | hnone
          · rw [hsame]
            exact hsymbol
          · exact Or.inr (by rw [hnone])

/-! ### In the findings -/

section Findings

variable {panel : List (Plugin ν σ)} {resolved laid tagged : Workspace} {findings : Findings ν}
  (h : Stages project (Flow.outcome project.setup panel).attributes resolved laid tagged findings)

include h

theorem Stages.isStart (i : Nat) :
    (findings.attributes.info i).isStart = (tagged.info i).isStart :=
  (h.stripped.2 i).isStart

theorem Stages.anchored (hlabels : ∀ entry ∈ project.labels, entry.2.origin = .user) :
    Anchored project.acceptLabels.1 tagged := by
  have hresolved := resolveTargets_anchored (titled_anchored h.total panel) h.resolve
  exact tagLabels_anchored (acceptLabels_user hlabels) (formatUnclaimed_anchored hresolved h.lay)
    h.tag

/-- An accepted label is on its byte and in the table if something starts there. -/
theorem Stages.accepted_shown (hlabels : ∀ entry ∈ project.labels, entry.2.origin = .user)
    {p : Nat × Symbol} (hp : p ∈ project.acceptLabels.1)
    (hstart : (findings.attributes.info p.1).isStart = true) :
    findings.symbols.get? p.2.label = some (.label p.2)
      ∧ (findings.attributes.info p.1).symbol = some p.2 := by
  obtain ⟨hlisted, hkept⟩ := h.anchored hlabels
  have hsymbol := hkept p.1 p.2 hp
  have hsame := foldl_dropHidden_kept project.acceptLabels.1
    (tagged, project.titledReport (Flow.outcome project.setup panel).attributes)
    p.1 p.2.label fun q hq hhidden => ?_
  · rw [h.dropped] at hsame
    exact ⟨hsame.2.trans (hlisted.entry p.1 p.2 hsymbol), hsame.1.trans hsymbol⟩
  · -- a label that is taken out is another, and has another offset and another name
    have hne : q ≠ p := by
      rintro rfl
      rw [h.isStart, hhidden] at hstart
      cases hstart
    exact (acceptLabels_admitted project).ne hq hp hne

/-- An accepted label is neither on its byte nor in the table if nothing starts there. -/
theorem Stages.accepted_hidden (hlabels : ∀ entry ∈ project.labels, entry.2.origin = .user)
    {p : Nat × Symbol} (hp : p ∈ project.acceptLabels.1)
    (hstart : (findings.attributes.info p.1).isStart = false) :
    findings.symbols.get? p.2.label = none ∧ (findings.attributes.info p.1).symbol = none := by
  have hsymbol := (h.anchored hlabels).kept p.1 p.2 hp
  have hgone := foldl_dropHidden_gone project.acceptLabels.1
    (tagged, project.titledReport (Flow.outcome project.setup panel).attributes) hp
    ((h.isStart p.1).symm.trans hstart) (Or.inl hsymbol)
  rw [h.dropped] at hgone
  exact ⟨hgone.2, hgone.1⟩

end Findings

/-- **No label of the user is lost silently.**  With a valid map, whatever the plugins do and the
user has said, if the analysis ends well then every label of the user has its fate: it is outside
the image, or repeats the offset or the name of a label that was accepted before it, or is accepted
and shown, on its byte and in the table at its address, or is accepted and hidden, and neither on
the byte nor in the table.  The report has one message for each of them but those that are shown, in
their order, and otherwise only messages about formats. -/
theorem labels_accounted (project : Project) (panel : List (Plugin ν σ)) {findings : Findings ν}
    (hmap : project.setup.map.Valid)
    (hlabels : ∀ entry ∈ project.labels, entry.2.origin = .user)
    (h : project.analyze panel = .ok findings) :
    ∃ fated others, Account project findings fated others := by
  obtain ⟨resolved, laid, tagged, hstages⟩ := analyze_stages h
  obtain ⟨fated, hentries, hrefused, haccepted, hjudged⟩ := foldl_takeLabel_judged
    project.setup.map (fun i => (findings.attributes.info i).isStart) project.labels ⟨[], []⟩
  replace hrefused : project.acceptLabels.2 = fated.filterMap FatedLabel.refusal? := hrefused
  replace haccepted : project.acceptLabels.1
      = fated.filterMap (FatedLabel.admission? project.setup.map) := haccepted
  obtain ⟨others, htitled, hothers⟩ := titledReport_eq project panel
  have houtside : ∀ i, project.setup.map.addressOf? i = none ↔ project.setup.image.size ≤ i := by
    intro i
    rw [hmap.addressOf?_eq_none_iff, hstages.total]
  have hadmitted : ∀ before l after, fated = before ++ l :: after → l.fate.isAccepted = true →
      ∃ address, project.setup.map.addressOf? l.offset = some address
        ∧ (l.offset, { l.symbol with value := address }) ∈ project.acceptLabels.1 := by
    intro before l after heq hl
    obtain ⟨address, haddress, hadmission⟩ := (hjudged before l after heq).exists_admission hl
    rw [haccepted]
    exact ⟨address, haddress, List.mem_filterMap.mpr ⟨l, by simp [heq], hadmission⟩⟩
  refine ⟨fated, others, hentries, fun before l after heq => ?_, ?_, hothers⟩
  · obtain ⟨hout, hrepeated, hshown, hhidden⟩ := hjudged before l after heq
    refine ⟨hout.trans (houtside _), hrepeated.trans (and_congr ?_ ?_), fun hfate => ?_,
      fun hfate => ?_⟩
    · rw [Ne, houtside, Nat.not_le]
    · simp [Intake.isTaken]
    · obtain ⟨address, haddress, hmem⟩ := hadmitted before l after heq (by rw [hfate]; rfl)
      exact ⟨hshown hfate, address, haddress, hstages.accepted_shown hlabels hmem (hshown hfate)⟩
    · obtain ⟨address, haddress, hmem⟩ := hadmitted before l after heq (by rw [hfate]; rfl)
      exact ⟨hhidden hfate, hstages.accepted_hidden hlabels hmem (hhidden hfate)⟩
  · have hreport := foldl_dropHidden_report project.acceptLabels.1
      (tagged, project.titledReport (Flow.outcome project.setup panel).attributes)
    simp only [← hstages.isStart] at hreport
    rw [hstages.dropped, htitled, hrefused, haccepted, List.filterMap_filterMap] at hreport
    refine hreport.trans (congrArg _ (List.filterMap_congr fun l hl => ?_))
    obtain ⟨before, after, heq⟩ := List.append_of_mem hl
    exact (hjudged before l after heq).removal?_eq

/-- The text with a label on its first letter, a label that comes to stand inside an instruction,
one behind the image, a second one for the first letter and a second one of the same name. -/
def crowdedGreeting : Project :=
  let label (name : String) : Symbol := ⟨name, 0, .user, .localOrGlobal, .plain⟩
  { greeting with
    labels := [(11, label "MESSAGE"), (5, label "PATCH"), (27, label "BEYOND"),
      (11, label "LETTER"), (12, label "MESSAGE")] }

/-- Of the five labels one is shown, and the report says what has become of the others. -/
theorem labels_accounted_crowdedGreeting :
    ∃ findings fated others, crowdedGreeting.setup.map.Valid
      ∧ (∀ entry ∈ crowdedGreeting.labels, entry.2.origin = .user)
      ∧ crowdedGreeting.analyze [Flow.wavering] = .ok findings
      ∧ findings.report.map (fun message => (message.topic, message.context))
        = [(.offsetOrLength, "BEYOND"), (.duplicateLabel, "LETTER"), (.duplicateLabel, "MESSAGE"),
            (.hiddenLabel, "PATCH")]
      ∧ Account crowdedGreeting findings fated others := by
  have hmap : crowdedGreeting.setup.map.Valid := ⟨by decide, by decide, by decide⟩
  have hlabels : ∀ entry ∈ crowdedGreeting.labels, entry.2.origin = .user := by decide
  obtain ⟨findings, h, hreport⟩ := exists_ok
    (p := fun findings => findings.report.map (fun message => (message.topic, message.context))
      == [(.offsetOrLength, "BEYOND"), (.duplicateLabel, "LETTER"), (.duplicateLabel, "MESSAGE"),
        (.hiddenLabel, "PATCH")])
    (show (Except.map _ (crowdedGreeting.analyze [Flow.wavering])).toOption = some true by
      decide +kernel)
  obtain ⟨fated, others, haccount⟩ :=
    labels_accounted crowdedGreeting [Flow.wavering] hmap hlabels h
  exact ⟨findings, fated, others, hmap, hlabels, h, beq_iff_eq.mp hreport, haccount⟩

end Project

end Disasm65
