/-
The analysis of a project, stage by stage.

An analysis that ends well has followed control, attached what the user has said, and gone through
the data passes one by one, each of which has ended well (`analyze_stages`).  Only one of these
stages changes the marks of a byte after control has been followed: the one that makes data of what
is left.

The formats of the user are attached one after the other unless one of them, for a byte of the
image, has an end that is no word; and then there are no findings (`attachUserData_eq_ok`).
-/
import Mathlib
import Disasm65.Project
import Disasm65.Proofs.Data.Labels
import Disasm65.Proofs.Flow.Cover

namespace Disasm65

namespace Project

open Data

variable {ν σ : Type} {project : Project}

/-- Every format of the user for a byte of the image ends at a word. -/
def EndsInWords (project : Project) : Prop :=
  ∀ (i : Nat) (format : Format), project.formats[i]? = some format →
    i < project.setup.image.size → i + format.length < 0x10000000000000000

/-- What attaching the user's data makes of the attributes that following control leaves, and what
has been reported then. -/
def attached (project : Project) (flow : Attributes) : Attributes × Report :=
  project.formats.toList.foldl (attachFormat project.setup.image.size project.setup.map)
    (project.acceptLabels.1.foldl attachLabel (flow, project.acceptLabels.2))

/-- What the data passes are given after control has been followed. -/
def titled (project : Project) (flow : Attributes) : Workspace where
  attributes := (project.attached flow).1
  symbols := project.initialSymbols project.acceptLabels.1

/-- What has been reported when control has been followed and the user's data is attached. -/
def titledReport (project : Project) (flow : Attributes) : Report := (project.attached flow).2

/-- The workspaces between the stages of an analysis, from the attributes that following control
leaves to the findings. -/
structure Stages (project : Project) (flow : Attributes) (resolved laid tagged : Workspace)
    (findings : Findings ν) : Prop where
  total : project.setup.map.totalLength = project.setup.image.size
  words : project.EndsInWords
  resolve : resolveTargets project.survey (project.titled flow) = resolved.done
  lay : formatUnclaimed project.survey resolved = laid.done
  tag : tagLabels project.survey laid = tagged.done
  dropped : project.acceptLabels.1.foldl dropHidden (tagged, project.titledReport flow)
    = (⟨findings.attributes, findings.symbols⟩, findings.report)

theorem takeFormat_eq_ok {size : Nat} {map : AddressMap} {state after : Attributes × Report}
    {entry : Nat × Format} :
    takeFormat size map state entry = .ok after
      ↔ (entry.1 < size → entry.1 + entry.2.length < 0x10000000000000000)
        ∧ attachFormat size map state entry = after := by
  unfold takeFormat
  split
  · rename_i hout
    rw [Except.ok.injEq]
    exact ⟨fun h => ⟨fun hin => absurd hin (Nat.not_lt_of_le hout), h⟩, fun h => h.2⟩
  · rename_i hin
    rw [map_eq_ok]
    constructor
    · rintro ⟨stop, hstop, hafter⟩
      exact ⟨fun _ => (addWords_eq_ok.mp hstop).1, hafter⟩
    · rintro ⟨hword, hafter⟩
      exact ⟨_, addWords_of_lt (hword (Nat.lt_of_not_le hin)), hafter⟩

/-- Formats in a row are attached if those for bytes of the image end at words. -/
theorem foldlM_takeFormat_eq_ok {size : Nat} {map : AddressMap} {after : Attributes × Report} :
    ∀ (entries : List (Nat × Format)) (state : Attributes × Report),
      entries.foldlM (takeFormat size map) state = .ok after
        ↔ (∀ entry ∈ entries, entry.1 < size → entry.1 + entry.2.length < 0x10000000000000000)
          ∧ entries.foldl (attachFormat size map) state = after := by
  intro entries
  induction entries with
  | nil =>
      intro state
      simp [pure, Except.pure]
  | cons entry entries ih =>
      intro state
      rw [List.foldlM_cons, List.foldl_cons, List.forall_mem_cons]
      refine bind_eq_ok.trans ⟨?_, ?_⟩
      · rintro ⟨next, hnext, hrest⟩
        obtain ⟨hword, rfl⟩ := takeFormat_eq_ok.mp hnext
        obtain ⟨hwords, hafter⟩ := (ih _).mp hrest
        exact ⟨⟨hword, hwords⟩, hafter⟩
      · rintro ⟨⟨hword, hwords⟩, hafter⟩
        exact ⟨_, takeFormat_eq_ok.mpr ⟨hword, rfl⟩, (ih _).mpr ⟨hwords, hafter⟩⟩

/-- **The user's data is attached if the formats end at words.** -/
theorem attachUserData_eq_ok {flow : Attributes} {after : Attributes × Report} :
    project.attachUserData project.acceptLabels.1 (flow, project.acceptLabels.2) = .ok after
      ↔ project.EndsInWords ∧ project.attached flow = after := by
  have hwords : (∀ entry ∈ project.formats.toList, entry.1 < project.setup.image.size →
      entry.1 + entry.2.length < 0x10000000000000000) ↔ project.EndsInWords := by
    constructor
    · intro hall i format hget
      exact hall (i, format) (Std.TreeMap.mem_toList_iff_getElem?_eq_some.mpr hget)
    · rintro hall ⟨i, format⟩ hentry
      exact hall i format (Std.TreeMap.mem_toList_iff_getElem?_eq_some.mp hentry)
  rw [attachUserData, foldlM_takeFormat_eq_ok, hwords]
  rfl

theorem runDataPasses_eq_ok {survey : Survey} {w v : Workspace}
    (h : runDataPasses survey w = .ok v) :
    ∃ resolved laid, resolveTargets survey w = resolved.done
      ∧ formatUnclaimed survey resolved = laid.done ∧ tagLabels survey laid = v.done := by
  unfold runDataPasses at h
  split at h
  · cases h
  · dsimp only at h
    split at h
    · cases h
    · rename_i hfault
      rw [Except.ok.injEq] at h
      have hdone := show _ = v.done by rw [Workspace.done, ← h, ← hfault]
      obtain ⟨laid, hlaid, htag⟩ := andThen_eq_done.mp hdone
      obtain ⟨resolved, hresolve, hlay⟩ := andThen_eq_done.mp hlaid
      exact ⟨resolved, laid, hresolve, hlay, htag⟩

/-- **An analysis that ends well has gone through its stages.** -/
theorem analyze_stages {panel : List (Plugin ν σ)} {findings : Findings ν}
    (h : project.analyze panel = .ok findings) :
    ∃ resolved laid tagged,
      Stages project (Flow.outcome project.setup panel).attributes resolved laid tagged
        findings := by
  unfold analyze at h
  dsimp only [bind, Except.bind, pure, Except.pure] at h
  split at h
  · cases h
  rename_i htotal
  split at h
  · cases h
  rename_i flow hflow
  split at h
  · cases h
  rename_i after hattached
  split at h
  · cases h
  rename_i tagged hpasses
  obtain ⟨_, rfl⟩ := Flow.analyze_eq_ok.mp hflow
  obtain ⟨hwords, rfl⟩ := attachUserData_eq_ok.mp hattached
  obtain ⟨resolved, laid, hresolve, hlay, htag⟩ := runDataPasses_eq_ok hpasses
  cases h
  exact ⟨resolved, laid, tagged, not_not.mp htotal, hwords, hresolve, hlay, htag, rfl⟩

/-! ### What the stages leave alone -/

/-- A fold in which no step changes anything but symbols and formats does not either. -/
theorem foldl_retitles {α β : Type} {attributes : β → Attributes} {f : β → α → β}
    (h : ∀ b x, Retitles (attributes b) (attributes (f b x))) :
    ∀ (l : List α) (b : β), Retitles (attributes b) (attributes (l.foldl f b)) := by
  intro l
  induction l with
  | nil => exact fun b => .refl _
  | cons x l ih => exact fun b => (h b x).trans (ih (f b x))

theorem attachLabel_retitles (state : Attributes × Report) (entry : Nat × Symbol) :
    Retitles state.1 (attachLabel state entry).1 := by
  unfold attachLabel
  dsimp only
  split
  · exact .refl _
  · exact .update _ _ fun a => ⟨some entry.2, a.format, rfl⟩

theorem attachFormat_retitles {size : Nat} {map : AddressMap} (state : Attributes × Report)
    (entry : Nat × Format) : Retitles state.1 (attachFormat size map state entry).1 := by
  unfold attachFormat
  dsimp only
  split
  · exact .refl _
  · exact .update _ _ fun a => ⟨a.symbol, some entry.2, rfl⟩

theorem titled_retitles (project : Project) (flow : Attributes) :
    Retitles flow (project.titled flow).attributes := by
  unfold titled attached
  dsimp only
  have hlabels := foldl_retitles attachLabel_retitles project.acceptLabels.1
    (flow, project.acceptLabels.2)
  exact hlabels.trans (foldl_retitles attachFormat_retitles project.formats.toList _)

/-! ### The user's labels on their bytes -/

/-- A label is attached to its byte, unless one is there. -/
theorem info_attachLabel (state : Attributes × Report) (entry : Nat × Symbol) {i : Nat}
    (hi : i < state.1.size) :
    (attachLabel state entry).1.info i
      = { state.1.info i with
          symbol := (state.1.info i).symbol.or (if entry.1 = i then some entry.2 else none) } := by
  unfold attachLabel
  dsimp only
  split
  · rename_i hsome
    by_cases hoffset : entry.1 = i
    · rw [hoffset] at hsome
      rw [Option.or_of_isSome hsome]
    · rw [if_neg hoffset, Option.or_none]
  · rename_i hnone
    rw [Attributes.info_update]
    by_cases hoffset : entry.1 = i
    · rw [hoffset, Option.not_isSome_iff_eq_none] at hnone
      rw [if_pos ⟨hoffset, hi⟩, if_pos hoffset, hnone, Option.none_or]
    · rw [if_neg fun h => hoffset h.1, if_neg hoffset, Option.or_none]

/-- A byte gets the first of the labels that are meant for it. -/
theorem info_foldl_attachLabel {i : Nat} :
    ∀ (entries : List (Nat × Symbol)) (state : Attributes × Report), i < state.1.size →
      (entries.foldl attachLabel state).1.info i
        = { state.1.info i with
            symbol := (state.1.info i).symbol.or
              ((entries.find? fun entry => entry.1 == i).map (·.2)) } := by
  intro entries
  induction entries with
  | nil =>
      intro state _
      rw [List.find?_nil, Option.map_none, Option.or_none]
      rfl
  | cons entry entries ih =>
      intro state hi
      have hsize := (attachLabel_retitles state entry).size
      rw [List.foldl_cons, ih _ (hsize.symm ▸ hi), info_attachLabel state entry hi]
      by_cases hoffset : entry.1 = i
      · rw [List.find?_cons_of_pos (by simpa using hoffset)]
        simp [hoffset]
      · rw [List.find?_cons_of_neg (by simpa using hoffset)]
        simp [hoffset]

/-- Labels leave the formats alone. -/
theorem foldl_attachLabel_format (entries : List (Nat × Symbol)) (state : Attributes × Report)
    (i : Nat) :
    ((entries.foldl attachLabel state).1.info i).format = (state.1.info i).format := by
  by_cases hi : i < state.1.size
  · rw [info_foldl_attachLabel _ _ hi]
  · have hretitles := foldl_retitles attachLabel_retitles entries state
    rw [hretitles.info_of_size_le (Nat.le_of_not_lt hi)]

theorem attachFormat_symbol {size : Nat} {map : AddressMap} (state : Attributes × Report)
    (entry : Nat × Format) (i : Nat) :
    ((attachFormat size map state entry).1.info i).symbol = (state.1.info i).symbol := by
  unfold attachFormat
  dsimp only
  split
  · rfl
  · rw [Attributes.info_update]
    split <;> rfl

/-- A byte keeps its symbol or gets the first of the labels that are meant for it. -/
theorem titled_symbol_eq (flow : Attributes) {i : Nat} (hi : i < flow.size) :
    ((project.titled flow).info i).symbol
      = (flow.info i).symbol.or
        ((project.acceptLabels.1.find? fun entry => entry.1 == i).map (·.2)) := by
  have hlabels := info_foldl_attachLabel project.acceptLabels.1 (flow, project.acceptLabels.2) hi
  refine List.foldlRecOn (motive := fun s : Attributes × Report => (s.1.info i).symbol = _)
    _ _ (congrArg Attribute.symbol hlabels) fun state hstate entry _ => ?_
  exact (attachFormat_symbol state entry i).trans hstate

/-- Without formats of the user the bytes get labels and nothing else. -/
theorem info_titled (hformats : project.formats.isEmpty = true) (flow : Attributes) {i : Nat}
    (hi : i < flow.size) :
    (project.titled flow).info i
      = { flow.info i with
          symbol := (flow.info i).symbol.or
            ((project.acceptLabels.1.find? fun entry => entry.1 == i).map (·.2)) } := by
  have hnone : project.formats.toList = [] := by
    rw [← List.isEmpty_iff, Std.TreeMap.isEmpty_toList]
    exact hformats
  unfold titled attached Workspace.info
  dsimp only
  rw [hnone, List.foldl_nil]
  exact info_foldl_attachLabel _ _ hi

theorem titled_format (hformats : project.formats.isEmpty = true) (flow : Attributes) (i : Nat) :
    ((project.titled flow).info i).format = (flow.info i).format := by
  by_cases hi : i < flow.size
  · rw [info_titled hformats flow hi]
  · have hsize := (titled_retitles project flow).size
    rw [Workspace.info, Attributes.info_of_size_le (by omega),
      Attributes.info_of_size_le (by omega)]

/-! ### Labels that are taken out again -/

/-- A byte that has lost its symbol, or nothing. -/
def Stripped (a b : Attribute) : Prop := b = a ∨ b = { a with symbol := none }

theorem Stripped.trans {a b c : Attribute} (h : Stripped a b) (h' : Stripped b c) :
    Stripped a c := by
  rcases h with rfl | rfl <;> rcases h' with rfl | rfl
  · exact Or.inl rfl
  · exact Or.inr rfl
  · exact Or.inr rfl
  · exact Or.inr rfl

theorem Stripped.retitled {a b : Attribute} (h : Stripped a b) : Retitled a b := by
  rcases h with rfl | rfl
  · exact .refl _
  · exact ⟨none, a.format, rfl⟩

theorem Stripped.alike {a b : Attribute} (h : Stripped a b) : Alike a b := by
  rcases h with rfl | rfl
  · exact .of_eq rfl
  · exact ⟨rfl, rfl, fun _ => rfl⟩

theorem dropHidden_stripped (state : Workspace × Report) (entry : Nat × Symbol) :
    (dropHidden state entry).1.attributes.size = state.1.attributes.size
      ∧ ∀ i, Stripped (state.1.info i) ((dropHidden state entry).1.info i) := by
  unfold dropHidden
  dsimp only
  split
  · exact ⟨rfl, fun i => Or.inl rfl⟩
  · refine ⟨Attributes.size_update .., fun i => ?_⟩
    unfold Workspace.info
    dsimp only
    rw [Attributes.info_update]
    repeat' split
    · exact Or.inr rfl
    · exact Or.inl rfl
    · exact Or.inl rfl

theorem foldl_dropHidden_stripped : ∀ (entries : List (Nat × Symbol)) (state : Workspace × Report),
    (entries.foldl dropHidden state).1.attributes.size = state.1.attributes.size
      ∧ ∀ i, Stripped (state.1.info i) ((entries.foldl dropHidden state).1.info i) := by
  intro entries
  induction entries with
  | nil => exact fun state => ⟨rfl, fun i => Or.inl rfl⟩
  | cons entry entries ih =>
      intro state
      obtain ⟨hsize, hbyte⟩ := dropHidden_stripped state entry
      obtain ⟨hsize', hbyte'⟩ := ih (dropHidden state entry)
      exact ⟨hsize'.trans hsize, fun i => (hbyte i).trans (hbyte' i)⟩

namespace Stages

variable {flow : Attributes} {resolved laid tagged : Workspace} {findings : Findings ν}

theorem resolved_retitles (h : Stages project flow resolved laid tagged findings) :
    Retitles flow resolved.attributes :=
  (titled_retitles project flow).trans (resolveTargets_retitles h.resolve)

theorem drop (h : Stages project flow resolved laid tagged findings) :
    ∃ report, project.acceptLabels.1.foldl dropHidden (tagged, report)
      = (⟨findings.attributes, findings.symbols⟩, findings.report) :=
  ⟨_, h.dropped⟩

/-- Taking labels out again changes nothing else. -/
theorem stripped (h : Stages project flow resolved laid tagged findings) :
    findings.attributes.size = tagged.attributes.size
      ∧ ∀ i, Stripped (tagged.info i) (findings.attributes.info i) := by
  obtain ⟨report, hdrop⟩ := h.drop
  have hstripped := foldl_dropHidden_stripped project.acceptLabels.1 (tagged, report)
  rwa [hdrop] at hstripped

/-- What comes after classing changes neither marks nor the lengths of formats, and makes no
label. -/
theorem findings_retitles (h : Stages project flow resolved laid tagged findings) :
    Retitles laid.attributes findings.attributes :=
  have htag := tagLabels_relabelled h.tag
  ⟨h.stripped.1.trans htag.1,
    fun i => (htag.2 i).retitled.trans (h.stripped.2 i).retitled⟩

/-- After classing, no byte changes its marks. -/
theorem marks (h : Stages project flow resolved laid tagged findings) (i : Nat) :
    (findings.attributes.info i).marks = ((classBytes resolved.attributes).info i).marks :=
  (h.findings_retitles.marks i).trans ((formatUnclaimed_formats h.lay).retitles.marks i)

section Placed

variable {panel : List (Plugin ν σ)}
  (h : Stages project (Flow.outcome project.setup panel).attributes resolved laid tagged findings)

include h

/-- The sizes along the stages. -/
theorem size :
    resolved.attributes.size = project.setup.image.size
      ∧ laid.attributes.size = project.setup.image.size
      ∧ findings.attributes.size = project.setup.image.size := by
  have hresolved : resolved.attributes.size = project.setup.image.size :=
    h.resolved_retitles.size.trans (Flow.size_outcome project.setup panel)
  have hlaid : laid.attributes.size = project.setup.image.size :=
    ((formatUnclaimed_formats h.lay).size.trans (size_classBytes _)).trans hresolved
  exact ⟨hresolved, hlaid, h.findings_retitles.size.trans hlaid⟩

/-- The address of a byte is the one it lies at. -/
theorem address {i : Nat} (hi : i < project.setup.image.size) :
    (findings.attributes.info i).address = (project.setup.map.addressOf? i).getD 0 := by
  rw [(h.findings_retitles.byte i).address,
    ((formatUnclaimed_formats h.lay).retitles.byte i).address]
  dsimp only
  rw [(info_classBytes (h.size.1.symm ▸ hi)).carries.stays.address,
    (h.resolved_retitles.byte i).address, Flow.outcome_address project.setup panel hi]

end Placed

end Stages

end Project

end Disasm65
