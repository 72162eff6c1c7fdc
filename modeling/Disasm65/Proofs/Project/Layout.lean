/-
What the analysis makes of every byte.

Each byte of the image ends up as code, as data or as inline data, and as one of them only
(`analyze_classed`); all data is in items that neither overlap nor leave anything out
(`analyze_tiled`).
-/
import Mathlib
import Disasm65.Proofs.Project.Stages

namespace Disasm65

/-- A byte that has a class has no other. -/
theorem Attribute.Unmixed.existsUnique_class {a : Attribute} (ha : a.Unmixed)
    (hclass : a.isInstruction = true ∨ a.isData = true ∨ a.isInlineData = true) :
    ∃! m, m ∈ [Mark.instruction, .data, .inlineData] ∧ a.marks.has m = true := by
  have hcode := ha.code
  have hdata := ha.data
  simp only [isInstruction, isData, isInlineData] at hcode hdata hclass
  obtain ⟨m, hm, hhas⟩ :
      ∃ m, m ∈ [Mark.instruction, .data, .inlineData] ∧ a.marks.has m = true := by
    rcases hclass with h | h | h
    exacts [⟨_, by simp, h⟩, ⟨_, by simp, h⟩, ⟨_, by simp, h⟩]
  refine ⟨m, ⟨hm, hhas⟩, fun n ⟨hn, hhas'⟩ => ?_⟩
  simp only [List.mem_cons, List.not_mem_nil, or_false] at hm hn
  rcases hm with rfl | rfl | rfl <;> rcases hn with rfl | rfl | rfl <;> simp_all

namespace Data

/-- After classing a byte has a class. -/
theorem Classed.classes {a b : Attribute} (h : Classed a b) (ha : a.Unmixed) :
    b.Unmixed ∧ (b.isInstruction = true ∨ b.isData = true ∨ b.isInlineData = true) := by
  cases h with
  | kept h =>
      rcases h with h | h
      · exact ⟨ha, Or.inr (Or.inr h)⟩
      · exact ⟨ha, Or.inl h⟩
  | shown h _ => exact ⟨⟨ha.code, ha.data, ha.start⟩, Or.inr (Or.inr h)⟩
  | data hinline hcode =>
      exact ⟨⟨fun h => absurd h (by simpa using hcode), fun _ => by simpa using hinline,
        by simpa using ha.start⟩, Or.inr (Or.inl (by simp))⟩

theorem Relabelled.alike {a b : Attribute} (h : Relabelled a b) : Alike a b := by
  refine ⟨by rw [Attribute.isData, h.retitled.marks, Attribute.isData], h.length,
    fun hnone => ?_⟩
  have hsymbol := h.symbol
  rw [hnone, Option.isSome_none, Option.isSome_eq_false_iff, Option.isNone_iff_eq_none] at hsymbol
  exact hsymbol

end Data

namespace Project

open Data

variable {ν σ : Type} {project : Project}

/-! ### Every byte has one class -/

section Stages

variable {resolved laid tagged : Workspace} {findings : Findings ν}
  (h : Stages project (Flow.outcome project.setup ([] : List (Plugin ν σ))).attributes resolved
    laid tagged findings)

include h

theorem Stages.resolved_unmixed (i : Nat) : (resolved.info i).Unmixed :=
  (Flow.outcome_finished project.setup i).unmixed.congr fun m _ => by
    rw [Workspace.info, h.resolved_retitles.marks]

theorem Stages.classes {i : Nat} (hi : i < project.setup.image.size) :
    (findings.attributes.info i).Unmixed
      ∧ ((findings.attributes.info i).isInstruction = true
        ∨ (findings.attributes.info i).isData = true
        ∨ (findings.attributes.info i).isInlineData = true) := by
  obtain ⟨hunmixed, hclass⟩ :=
    (info_classBytes (h.size.1.symm ▸ hi)).classes (h.resolved_unmixed i)
  refine ⟨hunmixed.congr fun m _ => by rw [h.marks], ?_⟩
  unfold Attribute.isInstruction Attribute.isData Attribute.isInlineData
  rw [h.marks]
  exact hclass

end Stages

/-- **Coverage.**  Without plugins, every byte of the image ends up with exactly one of the three
marks that say what it is, and instructions start only in code. -/
theorem analyze_classed (project : Project) (findings : Findings ν)
    (h : project.analyze ([] : List (Plugin ν σ)) = .ok findings) :
    findings.attributes.size = project.setup.image.size
      ∧ ∀ i < project.setup.image.size,
          (∃! m, m ∈ [Mark.instruction, .data, .inlineData]
            ∧ (findings.attributes.info i).marks.has m = true)
          ∧ ((findings.attributes.info i).isInstructionStart = true →
            (findings.attributes.info i).isInstruction = true) := by
  obtain ⟨resolved, laid, tagged, hstages⟩ := analyze_stages h
  refine ⟨hstages.size.2.2, fun i hi => ?_⟩
  obtain ⟨hunmixed, hclass⟩ := hstages.classes hi
  exact ⟨hunmixed.existsUnique_class hclass, hunmixed.start⟩

/-- A program that prints a text.  A label of the user is hidden inside an instruction that another
one reads, a text is cut in two by an access to its middle, and a fill by a comment. -/
def greeting : Project where
  setup :=
    { image := #[0x20, 0x0a, 0x80, 0xff, 0xad, 0x0f, 0x80, 0xad, 0x05, 0x80, 0x60, 0x4d, 0x45,
        0x53, 0x53, 0x41, 0x47, 0x45, 0x53, 0x00, 0x00, 0x00, 0x00, 0x00, 0x00, 0x00, 0x00]
      processor := ⟨.nmos6502, true, OpcodeTable.blank.overlay
        [Layer.op 0x20 .jsr .abs .call .keep, Layer.op 0x60 .rts .stackRts .stop .keep,
         Layer.plain 0xad .lda .abs .keep]⟩
      map := ⟨[⟨0, 27, 0x8000⟩], 27⟩
      parameters := { Parameters.initial with labelStyle := .tagged }
      hints := #[.code, .unset, .unset, .inlineData] ++ Array.replicate 23 .unset
      overrides := #[]
      entryStatus := .indeterminate }
  platforms := [[.ofSymbol ⟨"KEYBOARD", 0xc000, .platform, .external, .plain⟩]]
  definitions := []
  labels := [(11, ⟨"MESSAGE", 0, .user, .localOrGlobal, .plain⟩),
    (5, ⟨"PATCH", 0, .user, .localOrGlobal, .plain⟩)]
  formats := ∅
  comments := [21]

/-- What a result is found to have, it has. -/
theorem exists_ok {ε α : Type} {result : Except ε α} {p : α → Bool}
    (h : (result.map p).toOption = some true) : ∃ a, result = .ok a ∧ p a = true := by
  cases result with
  | error _ => cases h
  | ok a => exact ⟨a, rfl, Option.some.inj h⟩

/-- The same with a format of the user in the middle of the fill. -/
theorem analyze_classed_greeting :
    ∃ findings : Findings Unit,
      ({ greeting with formats := .ofList [(23, Format.oneByteNumber)] } : Project).analyze
          ([] : List (Plugin Unit Unit)) = .ok findings
        ∧ findings.attributes.size = 27
        ∧ ∀ i < 27, (∃! m, m ∈ [Mark.instruction, .data, .inlineData]
            ∧ (findings.attributes.info i).marks.has m = true)
          ∧ ((findings.attributes.info i).isInstructionStart = true →
            (findings.attributes.info i).isInstruction = true) := by
  obtain ⟨findings, h, _⟩ := exists_ok
    (p := fun findings => (findings.attributes.info 23).format == some .oneByteNumber)
    (show (Except.map _ (({ greeting with formats := .ofList [(23, Format.oneByteNumber)] } :
      Project).analyze ([] : List (Plugin Unit Unit)))).toOption = some true by decide +kernel)
  exact ⟨findings, h, analyze_classed _ findings h⟩

/-! ### All data is in items -/

/-- Before operands are resolved, only inline data has formats. -/
theorem titled_drafted (hformats : project.formats.isEmpty = true) (i : Nat) :
    Drafted ((project.titled
      (Flow.outcome project.setup ([] : List (Plugin ν σ))).attributes).info i) := by
  have hmarks := (titled_retitles project
    (Flow.outcome project.setup ([] : List (Plugin ν σ))).attributes).marks i
  unfold Drafted Attribute.isInlineData
  rw [titled_format hformats, Workspace.info, hmarks]
  exact Or.inr (Flow.outcome_finished project.setup i).format

section Tiling

variable {resolved laid tagged : Workspace} {findings : Findings ν}
  (h : Stages project (Flow.outcome project.setup ([] : List (Plugin ν σ))).attributes resolved
    laid tagged findings)
  (hformats : project.formats.isEmpty = true)

include h

theorem Stages.alike (i : Nat) : Alike (laid.info i) (findings.attributes.info i) :=
  ((tagLabels_relabelled h.tag).2 i).alike.trans (h.stripped.2 i).alike

include hformats

theorem Stages.drafted (i : Nat) : Drafted (resolved.info i) :=
  resolveTargets_drafted (titled_drafted hformats) h.resolve i

theorem Stages.lays :
    Lays project.comments 0 (classBytes resolved.attributes) laid.attributes :=
  formatUnclaimed_lays h.size.1 h.resolved_unmixed (h.drafted hformats) h.lay

theorem Stages.laid_tiled :
    Tiled project.comments laid.attributes 0 project.setup.image.size := by
  have htiled := (h.lays hformats).tiled
  rwa [size_classBytes, h.size.1] at htiled

theorem Stages.tiled :
    Tiled project.comments findings.attributes 0 project.setup.image.size :=
  (h.laid_tiled hformats).congr fun j _ _ => h.alike j

/-- Inline data of the findings has formats of one byte. -/
theorem Stages.inline_format {i : Nat} (hi : (findings.attributes.info i).isInlineData = true) :
    (findings.attributes.info i).format.map (·.length) = some 1 := by
  have hlt : i < project.setup.image.size := h.size.2.2 ▸ Attributes.lt_size_of_has hi
  have hlt' : i < resolved.attributes.size := h.size.1.symm ▸ hlt
  have hdata : (findings.attributes.info i).isData = false :=
    Bool.eq_false_iff.mpr fun hc => by
      rw [(h.classes hlt).1.data hc] at hi
      cases hi
  have hsame := (h.lays hformats).others i (by rwa [Attribute.isData, ← h.marks])
  have hinline : (resolved.attributes.info i).isInlineData = true := by
    rwa [Attribute.isInlineData, h.marks, ← Attribute.isInlineData,
      (info_classBytes hlt').isInlineData] at hi
  rw [(h.alike i).length, Workspace.info, hsame]
  exact classBytes_inline (fun j => (h.drafted hformats j).narrow (h.resolved_unmixed j)) hlt'
    hinline

end Tiling

/-- **Tiling.**  Without plugins and formats of the user, every data byte is in exactly one item:
the first byte of the item is data and has the format, whose length reaches over the byte.  An item
is made of data bytes of the image, of which all but the first are bare of formats, labels and
comments.  Every byte of inline data has a format of its own, of one byte. -/
theorem analyze_tiled (project : Project) (findings : Findings ν)
    (hformats : project.formats.isEmpty = true)
    (h : project.analyze ([] : List (Plugin ν σ)) = .ok findings) :
    (∀ i, (findings.attributes.info i).isData = true →
      ∃! start, (findings.attributes.info start).isData = true
        ∧ ∃ format, (findings.attributes.info start).format = some format
          ∧ start ≤ i ∧ i < start + format.length)
      ∧ (∀ start format, (findings.attributes.info start).isData = true →
          (findings.attributes.info start).format = some format →
          start + format.length ≤ project.setup.image.size
            ∧ (∀ j, start ≤ j → j < start + format.length →
              (findings.attributes.info j).isData = true)
            ∧ ∀ j, start < j → j < start + format.length →
              (findings.attributes.info j).format = none
                ∧ (findings.attributes.info j).symbol = none ∧ j ∉ project.comments)
      ∧ ∀ i, (findings.attributes.info i).isInlineData = true →
          ∃ format, (findings.attributes.info i).format = some format ∧ format.length = 1 := by
  obtain ⟨resolved, laid, tagged, hstages⟩ := analyze_stages h
  have htiled := hstages.tiled hformats
  have hlt : ∀ i, (findings.attributes.info i).isData = true → i < project.setup.image.size :=
    fun i hi => hstages.size.2.2 ▸ Attributes.lt_size_of_has hi
  refine ⟨fun i hi => ?_, fun start format hdata hformat => ?_, fun i hi => ?_⟩
  · simpa using htiled.existsUnique (Nat.zero_le i) (hlt i hi) hi
  · obtain ⟨hitem, -, hend⟩ := htiled.itemAt (Nat.zero_le start) (hlt start hdata) hdata hformat
    exact ⟨hend, hitem.data, hitem.inside⟩
  · exact Option.map_eq_some_iff.mp (hstages.inline_format hformats hi)

/-- A byte of the text's first half, the fill after the comment and the inline byte. -/
theorem analyze_tiled_greeting :
    ∃ findings : Findings Unit, greeting.formats.isEmpty = true
      ∧ greeting.analyze ([] : List (Plugin Unit Unit)) = .ok findings
      ∧ (findings.attributes.info 13).isData = true
      ∧ (∃! start, (findings.attributes.info start).isData = true
        ∧ ∃ format, (findings.attributes.info start).format = some format
          ∧ start ≤ 13 ∧ 13 < start + format.length)
      ∧ (findings.attributes.info 21).isData = true
      ∧ (findings.attributes.info 21).format = some ⟨6, .fill, .plain, none⟩
      ∧ (∀ j, 21 < j → j < 27 → (findings.attributes.info j).format = none
        ∧ (findings.attributes.info j).symbol = none ∧ j ∉ greeting.comments)
      ∧ (findings.attributes.info 3).isInlineData = true
      ∧ ∃ format, (findings.attributes.info 3).format = some format ∧ format.length = 1 := by
  have hformats : greeting.formats.isEmpty = true := by decide
  obtain ⟨findings, h, hbytes⟩ := exists_ok
    (p := fun findings => (findings.attributes.info 13).isData
      && (findings.attributes.info 21).isData
      && (findings.attributes.info 21).format == some ⟨6, .fill, .plain, none⟩
      && (findings.attributes.info 3).isInlineData)
    (show (Except.map _ (greeting.analyze ([] : List (Plugin Unit Unit)))).toOption = some true by
      decide +kernel)
  simp only [Bool.and_eq_true, beq_iff_eq] at hbytes
  obtain ⟨⟨⟨htext, hfill⟩, hformat⟩, hinline⟩ := hbytes
  obtain ⟨hitems, hinside, hbyte⟩ := analyze_tiled greeting findings hformats h
  exact ⟨findings, hformats, h, htext, hitems 13 htext, hfill, hformat,
    (hinside 21 _ hfill hformat).2.2, hinline, hbyte 3 hinline⟩

end Project

end Disasm65
