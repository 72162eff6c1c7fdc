/-
The labels of the findings.

The labels of the user that are accepted have places and names of their own (`Admitted`), so that at
first the labels on bytes and the labels of the table belong to each other (`titled_titled`), and
they stay so through all stages.  In the end the labels of the user that stand where nothing starts
are taken out, with a message each (`dropHidden_shown`).
-/
import Mathlib
import Disasm65.Proofs.AddressMap
import Disasm65.Proofs.Flow.Bounds
import Disasm65.Proofs.Project.Layout

namespace Disasm65

namespace Flow

variable {ν σ : Type}

/-- In the result what an operand refers to is in the image. -/
theorem outcome_target_lt {setup : Setup} (hmap : setup.map.Valid)
    (htotal : setup.map.totalLength = setup.image.size) (panel : List (Plugin ν σ)) {i t : Nat}
    (ht : ((outcome setup panel).attributes.info i).operandOffset = some t) :
    t < setup.image.size := by
  obtain ⟨n, _, s, hsteps, _, houtcome⟩ := outcome_reached setup panel
  have hrange := hsteps.preserves (step_inRange hmap htotal) (startConfig_inRange setup panel)
  rw [houtcome, (info_settle _ i).operandOffset] at ht
  exact (hrange.bytes i).target t ht

/-- What the analysis leaves is outlined: code is covered, and operands refer to the image. -/
theorem outcome_outlined {setup : Setup} (hmap : setup.map.Valid)
    (htotal : setup.map.totalLength = setup.image.size) :
    Data.Outlined (outcome setup ([] : List (Plugin ν σ))).attributes := by
  refine ⟨fun i => (outcome_finished setup i).unmixed, fun i hcode => ?_, fun i t ht => ?_⟩
  · by_cases hstart : ((outcome setup ([] : List (Plugin ν σ))).attributes.info
        i).isInstructionStart = true
    · exact ⟨i, Nat.le_refl i, hstart⟩
    · obtain ⟨p, hcover⟩ := outcome_covered setup _ hcode (by simpa using hstart)
      exact ⟨p, Nat.le_of_lt hcover.lt, hcover.starts⟩
  · rw [size_outcome]
    exact outcome_target_lt hmap htotal _ ht

end Flow

namespace Project

open Data

variable {ν σ : Type} {project : Project}

/-! ### Labels that are accepted -/

/-- Accepted labels are labels of the user at their addresses, with places and names of their
own. -/
structure Admitted (project : Project) (accepted : List (Nat × Symbol)) : Prop where
  distinct : accepted.Pairwise fun p q => p.1 ≠ q.1 ∧ p.2.label ≠ q.2.label
  address : ∀ p ∈ accepted, project.setup.map.addressOf? p.1 = some p.2.value
  given : ∀ p ∈ accepted, ∃ symbol, (p.1, symbol) ∈ project.labels
    ∧ p.2 = { symbol with value := p.2.value }

theorem takeLabel_admitted {intake : Intake} {entry : Nat × Symbol}
    (h : Admitted project intake.accepted) (hentry : entry ∈ project.labels) :
    Admitted project (takeLabel project.setup.map intake entry).accepted := by
  unfold takeLabel
  dsimp only
  split
  · exact h
  · rename_i address haddress
    split
    · exact h
    · rename_i hfree
      simp only [Intake.isTaken, List.any_eq_true, Bool.or_eq_true, beq_iff_eq, not_exists, not_and,
        not_or] at hfree
      refine ⟨List.pairwise_cons.mpr ⟨fun q hq => ?_, h.distinct⟩, ?_, ?_⟩
      · exact ⟨fun heq => (hfree q hq).1 heq.symm, fun heq => (hfree q hq).2 heq.symm⟩
      · exact List.forall_mem_cons.mpr ⟨haddress, h.address⟩
      · exact List.forall_mem_cons.mpr ⟨⟨entry.2, hentry, rfl⟩, h.given⟩

theorem foldl_takeLabel_admitted :
    ∀ (entries : List (Nat × Symbol)) (intake : Intake),
      (∀ entry ∈ entries, entry ∈ project.labels) → Admitted project intake.accepted →
      Admitted project (entries.foldl (takeLabel project.setup.map) intake).accepted := by
  intro entries
  induction entries with
  | nil => exact fun _ _ h => h
  | cons entry entries ih =>
      intro intake hentries h
      obtain ⟨hentry, hrest⟩ := List.forall_mem_cons.mp hentries
      exact ih _ hrest (takeLabel_admitted h hentry)

theorem acceptLabels_admitted (project : Project) : Admitted project project.acceptLabels.1 := by
  have h := foldl_takeLabel_admitted project.labels ⟨[], []⟩ (fun _ h => h)
    ⟨.nil, by simp, by simp⟩
  refine ⟨List.pairwise_reverse.mpr (h.distinct.imp fun hpq => ⟨hpq.1.symm, hpq.2.symm⟩),
    fun p hp => h.address p (List.mem_reverse.mp hp),
    fun p hp => h.given p (List.mem_reverse.mp hp)⟩

namespace Admitted

variable {accepted : List (Nat × Symbol)}

theorem ne (h : Admitted project accepted) {p q : Nat × Symbol} (hp : p ∈ accepted)
    (hq : q ∈ accepted) (hne : p ≠ q) : p.1 ≠ q.1 ∧ p.2.label ≠ q.2.label := by
  have hsymm : Std.Symm fun p q : Nat × Symbol => p.1 ≠ q.1 ∧ p.2.label ≠ q.2.label :=
    ⟨fun _ _ hpq => ⟨hpq.1.symm, hpq.2.symm⟩⟩
  exact h.distinct.forall hp hq hne

theorem eq_of_offset (h : Admitted project accepted) {p q : Nat × Symbol} (hp : p ∈ accepted)
    (hq : q ∈ accepted) (heq : p.1 = q.1) : p = q := by
  by_contra hne
  exact (h.ne hp hq hne).1 heq

theorem eq_of_label (h : Admitted project accepted) {p q : Nat × Symbol} (hp : p ∈ accepted)
    (hq : q ∈ accepted) (heq : p.2.label = q.2.label) : p = q := by
  by_contra hne
  exact (h.ne hp hq hne).2 heq

end Admitted

/-- If all labels are the user's, so are those that are accepted. -/
theorem acceptLabels_user (hlabels : ∀ entry ∈ project.labels, entry.2.origin = .user) :
    ∀ entry ∈ project.acceptLabels.1, entry.2.origin = .user := by
  intro entry hentry
  obtain ⟨symbol, hmem, hsymbol⟩ := (acceptLabels_admitted project).given entry hentry
  rw [hsymbol]
  exact hlabels _ hmem

/-! ### Before the data passes -/

section Start

variable (htotal : project.setup.map.totalLength = project.setup.image.size)

include htotal

/-- The labels on bytes are those that were accepted. -/
theorem titled_symbol (panel : List (Plugin ν σ)) (i : Nat) (s : Symbol) :
    ((project.titled (Flow.outcome project.setup panel).attributes).info i).symbol = some s
      ↔ (i, s) ∈ project.acceptLabels.1 := by
  have hadmitted := acceptLabels_admitted project
  have hsize := Flow.size_outcome project.setup panel
  have hnone := Flow.outcome_symbol project.setup panel i
  constructor
  · intro hs
    have hlt := lt_size_of_symbol hs
    rw [(titled_retitles project _).size] at hlt
    rw [titled_symbol_eq _ hlt, hnone, Option.none_or, Option.map_eq_some_iff] at hs
    obtain ⟨p, hfound, rfl⟩ := hs
    have hoffset := List.find?_some hfound
    rw [beq_iff_eq] at hoffset
    rw [← hoffset]
    exact List.mem_of_find?_eq_some hfound
  · intro hmem
    have hlt := AddressMap.lt_of_addressOf? (hadmitted.address _ hmem)
    rw [titled_symbol_eq _ (by rw [hsize, ← htotal]; exact hlt), hnone, Option.none_or]
    cases hfound : project.acceptLabels.1.find? fun entry => entry.1 == i with
    | none => exact absurd (List.find?_eq_none.mp hfound _ hmem) (by simp)
    | some p =>
        have hoffset := List.find?_some hfound
        rw [beq_iff_eq] at hoffset
        rw [hadmitted.eq_of_offset (List.mem_of_find?_eq_some hfound) hmem hoffset]
        rfl

/-- At first the labels on bytes are in the table. -/
theorem titled_anchored (panel : List (Plugin ν σ)) :
    Anchored project.acceptLabels.1
      (project.titled (Flow.outcome project.setup panel).attributes) := by
  have hadmitted := acceptLabels_admitted project
  have hsymbol := titled_symbol htotal panel
  refine ⟨⟨fun i s hs => ?_, fun i j s t hs ht hlabel => ?_⟩, fun i s hs => (hsymbol i s).mpr hs⟩
  · exact SymbolTable.get?_foldl_put_of_mem (f := fun p : Nat × Symbol => Entry.label p.2)
      _ _ (hadmitted.distinct.imp fun h => h.2) ((hsymbol i s).mp hs)
  · have hsame := hadmitted.eq_of_label ((hsymbol i s).mp hs) ((hsymbol j t).mp ht) hlabel
    exact congrArg Prod.fst hsame

/-- At first the labels on bytes have the addresses of their bytes. -/
theorem titled_value (panel : List (Plugin ν σ)) {i : Nat} {s : Symbol}
    (hs : ((project.titled (Flow.outcome project.setup panel).attributes).info i).symbol
      = some s) :
    s.value = ((project.titled (Flow.outcome project.setup panel).attributes).info i).address := by
  have haddress := (acceptLabels_admitted project).address _
    ((titled_symbol htotal panel i s).mp hs)
  have hlt := AddressMap.lt_of_addressOf? haddress
  rw [Workspace.info, ((titled_retitles project _).byte i).address,
    Flow.outcome_address project.setup _ (htotal ▸ hlt), haddress]
  rfl

/-- **At first the labels are in order.** -/
theorem titled_titled (hformats : project.formats.isEmpty = true)
    (hdefined : ∀ d ∈ project.platforms.flatten ++ project.definitions,
      d.symbol.origin = .platform ∨ d.symbol.origin = .project) :
    Titled project.acceptLabels.1
      (project.titled (Flow.outcome project.setup ([] : List (Plugin ν σ))).attributes) := by
  have hsymbol := titled_symbol htotal ([] : List (Plugin ν σ))
  obtain ⟨⟨hentry, hsingle⟩, hkept⟩ := titled_anchored htotal ([] : List (Plugin ν σ))
  refine ⟨⟨⟨?_, hentry, fun i s hs => titled_value htotal _ hs, hsingle,
    fun label entry hget hinternal => ?_⟩,
    fun i s hs => Or.inr ((hsymbol i s).mp hs), hkept⟩, fun i ref href => ?_⟩
  · exact SymbolTable.foldl_put_indexed (f := fun p : Nat × Symbol => Entry.label p.2) _ _
      (SymbolTable.foldl_put_indexed (f := Entry.defined) _ _ (SymbolTable.empty_indexed 0))
  · rcases SymbolTable.get?_foldl_put (f := fun p : Nat × Symbol => Entry.label p.2) _ _ hget
      with ⟨p, hp, rfl⟩ | hbefore
    · exact ⟨p.1, (hsymbol p.1 p.2).mpr hp⟩
    · rcases SymbolTable.get?_foldl_put (f := Entry.defined) _ _ hbefore with ⟨d, hd, rfl⟩ | hempty
      · rcases hdefined d hd with h | h <;>
          simp [Symbol.isInternal, Entry.symbol, h] at hinternal
      · rw [SymbolTable.get?_empty] at hempty
        cases hempty
  · unfold referredLabel? at href
    rw [← Workspace.info, titled_format hformats] at href
    rcases (Flow.outcome_finished (ν := ν) (σ := σ) project.setup i).format with h | ⟨_, h⟩ <;>
      rw [h] at href <;> cases href

end Start

/-! ### Labels that are taken out again -/

/-- Taking labels out, under way: a label stands where something starts or is still to come, and a
reference is to a label of the table or to one that has been reported. -/
structure Shown (entries : List (Nat × Symbol)) (state : Workspace × Report) : Prop where
  labelled : Labelled state.1
  starts : ∀ i s, (state.1.info i).symbol = some s →
    (state.1.info i).isStart = true ∨ (i, s) ∈ entries
  kept : ∀ i s, (i, s) ∈ entries → (state.1.info i).symbol = some s
  known : ∀ i ref, referredLabel? state.1.attributes i = some ref →
    state.1.symbols.get? ref.label ≠ none
      ∨ ∃ message ∈ state.2, message.topic = .hiddenLabel ∧ message.context = ref.label

theorem dropHidden_shown {entry : Nat × Symbol} {entries : List (Nat × Symbol)}
    {state : Workspace × Report} (hentry : ∀ other ∈ entries, entry.1 ≠ other.1)
    (h : Shown (entry :: entries) state) : Shown entries (dropHidden state entry) := by
  obtain ⟨w, report⟩ := state
  obtain ⟨offset, symbol⟩ := entry
  have hsymbol : (w.info offset).symbol = some symbol := h.kept offset symbol List.mem_cons_self
  unfold dropHidden
  dsimp only
  split
  · rename_i hstart
    refine ⟨h.labelled, fun i s hs => ?_, fun i s hs => h.kept i s (List.mem_cons_of_mem _ hs),
      h.known⟩
    rcases h.starts i s hs with hi | hmem
    · exact Or.inl hi
    · rcases List.mem_cons.mp hmem with heq | hmem
      · cases heq
        exact Or.inl hstart
      · exact Or.inr hmem
  · have hinfo : ∀ i, (w.attributes.update offset fun a =>
        if a.symbol = some symbol then { a with symbol := none } else a).info i
          = { w.info i with symbol := if i = offset then none else (w.info i).symbol } := by
      intro i
      rw [Attributes.info_update]
      by_cases hi : i = offset
      · subst hi
        rw [if_pos ⟨rfl, lt_size_of_symbol hsymbol⟩, ← Workspace.info, if_pos hsymbol, if_pos rfl]
      · rw [if_neg fun hc => hi hc.1.symm, if_neg hi]
        rfl
    refine ⟨h.labelled.erase hsymbol rfl hinfo, fun i s hs => ?_, fun i s hs => ?_,
      fun i ref href => ?_⟩
    · unfold Workspace.info at hs ⊢
      dsimp only at hs ⊢
      rw [hinfo] at hs ⊢
      dsimp only at hs
      split at hs
      · cases hs
      · rename_i hi
        refine (h.starts i s hs).imp id fun hmem => ?_
        exact (List.mem_cons.mp hmem).resolve_left fun heq => hi (congrArg Prod.fst heq)
    · unfold Workspace.info
      dsimp only
      rw [hinfo]
      dsimp only
      rw [if_neg fun heq => hentry _ hs heq.symm]
      exact h.kept i s (List.mem_cons_of_mem _ hs)
    · unfold referredLabel? at href
      dsimp only at href ⊢
      rw [hinfo] at href
      rw [SymbolTable.get?_erase]
      split
      · rename_i hlabel
        exact Or.inr ⟨_, List.mem_append_right _ List.mem_cons_self, rfl, hlabel⟩
      · refine (h.known i ref href).imp id fun hreported => ?_
        obtain ⟨message, hmem, hmessage⟩ := hreported
        exact ⟨message, List.mem_append_left _ hmem, hmessage⟩

theorem foldl_dropHidden_shown :
    ∀ (entries : List (Nat × Symbol)) (state : Workspace × Report),
      entries.Pairwise (fun p q => p.1 ≠ q.1) → Shown entries state →
      Shown [] (entries.foldl dropHidden state) := by
  intro entries
  induction entries with
  | nil => exact fun _ _ h => h
  | cons entry entries ih =>
      intro state hdistinct h
      obtain ⟨hentry, hrest⟩ := List.pairwise_cons.mp hdistinct
      exact ih _ hrest (dropHidden_shown hentry h)

/-! ### In the findings -/

section Findings

variable {resolved laid tagged : Workspace} {findings : Findings ν}
  (h : Stages project (Flow.outcome project.setup ([] : List (Plugin ν σ))).attributes resolved
    laid tagged findings)

include h

/-- A label that stands on an instruction's first byte or on no code stands where something
starts. -/
theorem Stages.isStart_of_site (hformats : project.formats.isEmpty = true) {i : Nat}
    {s : Symbol}
    (hs : (tagged.info i).symbol = some s) (hsite : Site (tagged.info i)) :
    (tagged.info i).isStart = true := by
  have hlt : i < project.setup.image.size := by
    rw [← h.size.2.2, h.stripped.1]
    exact lt_size_of_symbol hs
  have hmarks : (findings.attributes.info i).marks = (tagged.info i).marks :=
    (h.stripped.2 i).retitled.marks
  have hclass := (h.classes hlt).2
  unfold Attribute.isInstruction Attribute.isData Attribute.isInlineData at hclass
  rw [hmarks] at hclass
  unfold Attribute.isStart
  rcases hsite with hstart | hcode
  · rw [hstart]
    rfl
  rcases hclass with hclass | hdata | hinline
  · rw [Attribute.isInstruction, hclass] at hcode
    cases hcode
  · -- data is tiled, and no label is inside an item
    have htiled : Tiled project.comments tagged.attributes 0 project.setup.image.size :=
      (h.laid_tiled hformats).congr fun j _ _ => ((tagLabels_relabelled h.tag).2 j).alike
    have hformat := htiled.format_of_symbol (Nat.zero_le i) hlt hdata
      (by rw [← Workspace.info, hs]; exact Option.some_ne_none s)
    have hdatastart : (tagged.info i).isDataStart = true :=
      Bool.and_eq_true_iff.mpr ⟨hdata, hformat⟩
    rw [hdatastart, Bool.or_true, Bool.true_or]
  · have hlength := h.inline_format hformats (i := i)
      (by rw [Attribute.isInlineData, hmarks]; exact hinline)
    rw [(h.stripped.2 i).alike.length, Option.map_eq_some_iff] at hlength
    obtain ⟨format, hformat, _⟩ := hlength
    have hinlinestart : (tagged.info i).isInlineDataStart = true :=
      Bool.and_eq_true_iff.mpr ⟨hinline, by rw [hformat]; rfl⟩
    rw [hinlinestart, Bool.or_true]

/-- Before labels are taken out, those that are not the user's all stand where something starts. -/
theorem Stages.shown (hmap : project.setup.map.Valid) (hformats : project.formats.isEmpty = true)
    (hlabels : ∀ entry ∈ project.labels, entry.2.origin = .user)
    (hdefined : ∀ d ∈ project.platforms.flatten ++ project.definitions,
      d.symbol.origin = .platform ∨ d.symbol.origin = .project) (report : Report) :
    Shown project.acceptLabels.1 (tagged, report) := by
  have huser := acceptLabels_user hlabels
  have houtlined := (Flow.outcome_outlined (ν := ν) (σ := σ) hmap h.total).retitles
    (titled_retitles project _)
  have hresolved := resolveTargets_titled (titled_drafted hformats) houtlined
    (titled_titled h.total hformats hdefined) h.resolve
  have htagged := tagLabels_titled huser (formatUnclaimed_titled hresolved h.lay) h.tag
  refine ⟨htagged.standing.labelled, fun i s hs => ?_, htagged.standing.kept,
    fun i ref href => Or.inl (htagged.known i ref href)⟩
  exact (htagged.standing.placed i s hs).imp_left fun hauto =>
    h.isStart_of_site hformats hs hauto.2

end Findings

/-- **Integrity of labels and references.**  With a valid map, and without plugins and formats of
the user: a byte with a symbol is the first of an instruction or item, and the symbol has the byte's
address and is in the table; no two bytes have one label; every label of the table that the user or
the analysis has placed stands on a byte; and a format refers to a label of the table, or else to
one that is reported as hidden. -/
theorem analyze_labelled (project : Project) (findings : Findings ν)
    (hmap : project.setup.map.Valid) (hformats : project.formats.isEmpty = true)
    (hlabels : ∀ entry ∈ project.labels, entry.2.origin = .user)
    (hdefined : ∀ d ∈ project.platforms.flatten ++ project.definitions,
      d.symbol.origin = .platform ∨ d.symbol.origin = .project)
    (h : project.analyze ([] : List (Plugin ν σ)) = .ok findings) :
    (∀ i s, (findings.attributes.info i).symbol = some s →
      (findings.attributes.info i).isStart = true
        ∧ s.value = (findings.attributes.info i).address
        ∧ project.setup.map.addressOf? i = some s.value
        ∧ findings.symbols.get? s.label = some (.label s))
      ∧ (∀ i j s t, (findings.attributes.info i).symbol = some s →
          (findings.attributes.info j).symbol = some t → s.label = t.label → i = j)
      ∧ (∀ label entry, findings.symbols.get? label = some entry →
          entry.origin = .user ∨ entry.origin = .auto →
          ∃ i, (findings.attributes.info i).symbol = some entry.symbol)
      ∧ ∀ i format ref, (findings.attributes.info i).format = some format →
          format.label = some ref →
          (findings.symbols.get? ref.label).isSome = true
            ∨ ∃ message ∈ findings.report,
                message.topic = .hiddenLabel ∧ message.context = ref.label := by
  obtain ⟨resolved, laid, tagged, hstages⟩ := analyze_stages h
  obtain ⟨report, hdrop⟩ := hstages.drop
  have hshown := foldl_dropHidden_shown _ _
    ((acceptLabels_admitted project).distinct.imp fun hpq => hpq.1)
    (hstages.shown hmap hformats hlabels hdefined report)
  rw [hdrop] at hshown
  refine ⟨fun i s hs => ?_, hshown.labelled.single, fun label entry hentry horigin => ?_,
    fun i format ref hformat hlabel => ?_⟩
  · have hvalue := hshown.labelled.value i s hs
    have hlt : i < project.setup.image.size := hstages.size.2.2 ▸ lt_size_of_symbol hs
    obtain ⟨address, haddress⟩ := hmap.exists_addressOf? (hstages.total.symm ▸ hlt)
    refine ⟨(hshown.starts i s hs).resolve_right List.not_mem_nil, hvalue, ?_,
      hshown.labelled.entry i s hs⟩
    rw [haddress, hvalue, Workspace.info, hstages.address hlt, haddress]
    rfl
  · refine hshown.labelled.owned label entry hentry ?_
    rcases horigin with horigin | horigin <;>
      simp [Symbol.isInternal, show entry.symbol.origin = _ from horigin]
  · refine (hshown.known i ref ?_).imp Option.isSome_iff_ne_none.mpr id
    rw [referredLabel?, hformat, Option.bind_some, hlabel]

/-- The generated label that cuts the text in two, and the reference to the label that is hidden. -/
theorem analyze_labelled_greeting :
    ∃ findings : Findings Unit, greeting.setup.map.Valid ∧ greeting.formats.isEmpty = true
      ∧ (∀ entry ∈ greeting.labels, entry.2.origin = .user)
      ∧ (∀ d ∈ greeting.platforms.flatten ++ greeting.definitions,
        d.symbol.origin = .platform ∨ d.symbol.origin = .project)
      ∧ greeting.analyze ([] : List (Plugin Unit Unit)) = .ok findings
      ∧ (∃ s, (findings.attributes.info 15).symbol = some s ∧ s.label = "R_800F"
        ∧ (findings.attributes.info 15).isStart = true
        ∧ s.value = (findings.attributes.info 15).address
        ∧ greeting.setup.map.addressOf? 15 = some s.value
        ∧ findings.symbols.get? s.label = some (.label s))
      ∧ (findings.symbols.get? "PATCH").isSome = false
      ∧ ∃ format, (findings.attributes.info 7).format = some format
        ∧ format.label = some ⟨"PATCH", .low⟩
        ∧ ∃ message ∈ findings.report,
            message.topic = .hiddenLabel ∧ message.context = "PATCH" := by
  have hmap : greeting.setup.map.Valid := ⟨by decide, by decide, by decide⟩
  have hformats : greeting.formats.isEmpty = true := by decide
  have hlabels : ∀ entry ∈ greeting.labels, entry.2.origin = .user := by decide
  have hdefined : ∀ d ∈ greeting.platforms.flatten ++ greeting.definitions,
      d.symbol.origin = .platform ∨ d.symbol.origin = .project := by decide
  obtain ⟨findings, h, hbytes⟩ := exists_ok
    (p := fun findings => (findings.attributes.info 15).symbol.map (·.label) == some "R_800F"
      && (findings.attributes.info 7).format.map (·.label) == some (some ⟨"PATCH", .low⟩)
      && (findings.symbols.get? "PATCH").isSome == false)
    (show (Except.map _ (greeting.analyze ([] : List (Plugin Unit Unit)))).toOption = some true by
      decide +kernel)
  simp only [Bool.and_eq_true, beq_iff_eq, Option.map_eq_some_iff] at hbytes
  obtain ⟨⟨⟨s, hs, hname⟩, format, hformat, hlabel⟩, hgone⟩ := hbytes
  obtain ⟨hsymbols, _, _, hreferences⟩ :=
    analyze_labelled greeting findings hmap hformats hlabels hdefined h
  refine ⟨findings, hmap, hformats, hlabels, hdefined, h, ⟨s, hs, hname, hsymbols 15 s hs⟩, hgone,
    format, hformat, hlabel, ?_⟩
  exact (hreferences 7 format _ hformat hlabel).resolve_left
    (by rw [hgone]; exact Bool.false_ne_true)

end Project

end Disasm65
