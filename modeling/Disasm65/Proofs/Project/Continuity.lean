/-
Addresses inside the items of data.

The addresses of an item go up by one from byte to byte, with one exception: the first byte may be
cut off from the rest, if it has a label or a comment (`analyze_continuous`).
-/
import Mathlib
import Disasm65.Proofs.AddressMap.Contiguous
import Disasm65.Proofs.Data.Breaks
import Disasm65.Proofs.Project.Layout

namespace Disasm65

/-- A stretch with a break after its first byte is not contiguous. -/
theorem AddressMap.Valid.isContiguous_two {map : AddressMap} (h : map.Valid) {offset length : Nat}
    (hlength : 1 < length) (hc : map.isContiguous offset length = true) :
    map.isContiguous offset 2 = true := by
  obtain ⟨-, hend, ha⟩ := h.isContiguous_iff.mp hc
  refine h.isContiguous_iff.mpr ⟨Nat.two_pos, by omega, fun i address hlow hhigh => ?_⟩
  exact ha i address hlow (by omega)

namespace Project

open Data

variable {ν σ : Type} {project : Project}

/-- A byte where something starts keeps its label. -/
theorem info_foldl_dropHidden {i : Nat} :
    ∀ (entries : List (Nat × Symbol)) (state : Workspace × Report),
      (state.1.info i).isStart = true →
        (entries.foldl dropHidden state).1.info i = state.1.info i := by
  intro entries
  induction entries with
  | nil => exact fun _ _ => rfl
  | cons entry entries ih =>
      intro state hstart
      have hsame : (dropHidden state entry).1.info i = state.1.info i := by
        unfold dropHidden
        dsimp only
        split
        · rfl
        · rename_i hhidden
          refine Attributes.info_update_ne _ (fun heq => hhidden ?_) _
          rw [heq]
          exact hstart
      rw [List.foldl_cons, ih _ (hsame.symm ▸ hstart), hsame]

theorem Stripped.isDataStart {a b : Attribute} (h : Stripped a b) :
    b.isDataStart = a.isDataStart := by
  rcases h with rfl | rfl <;> rfl

section Stages

variable {resolved laid tagged : Workspace} {findings : Findings ν}
  (h : Stages project (Flow.outcome project.setup ([] : List (Plugin ν σ))).attributes resolved
    laid tagged findings)

include h

/-- The first byte of an item has a label in the end if it had one when the item was made. -/
theorem Stages.symbol_of_isDataStart {i : Nat}
    (hstart : (findings.attributes.info i).isDataStart = true) :
    (findings.attributes.info i).symbol.isSome = (laid.info i).symbol.isSome := by
  obtain ⟨report, hdrop⟩ := h.drop
  rw [(h.stripped.2 i).isDataStart] at hstart
  have hsame := info_foldl_dropHidden project.acceptLabels.1 (tagged, report) (i := i)
    (by rw [Attribute.isStart, hstart, Bool.or_true, Bool.true_or])
  rw [hdrop] at hsame
  rw [← ((tagLabels_relabelled h.tag).2 i).symbol]
  exact congrArg (·.symbol.isSome) hsame

/-- Inside an item the addresses break nowhere but after a first byte that is not bare. -/
theorem Stages.isContiguous_pair (hformats : project.formats.isEmpty = true) {start length : Nat}
    (hitem : ItemAt project.comments laid.attributes start length) {i : Nat}
    (hlow : start ≤ i) (hhigh : i + 1 < start + length)
    (hbare : i = start → (laid.info i).symbol = none ∧ i ∉ project.comments) :
    project.setup.map.isContiguous i 2 = true := by
  have hbare' : (laid.info i).symbol = none ∧ i ∉ project.comments := by
    rcases Nat.lt_or_eq_of_le hlow with hlt | heq
    · exact (hitem.inside i hlt (by omega)).2
    · exact hbare heq.symm
  by_contra hbreak
  have hformat := formatUnclaimed_breaks h.size.1 h.resolved_unmixed (h.drafted hformats) h.lay
    hbare'.1 hbare'.2 (Bool.eq_false_iff.mpr hbreak) (hitem.data (i + 1) (by omega) hhigh)
  rw [Workspace.info, (hitem.inside (i + 1) (by omega) hhigh).1] at hformat
  cases hformat

/-- The item that starts with a byte of the findings, as it was made. -/
theorem Stages.itemAt (hformats : project.formats.isEmpty = true) {start : Nat}
    {format : Format}
    (hdata : (findings.attributes.info start).isData = true)
    (hformat : (findings.attributes.info start).format = some format) :
    ItemAt project.comments laid.attributes start format.length ∧ 0 < format.length
      ∧ start + format.length ≤ project.setup.image.size := by
  have halike := h.alike start
  have hlength := halike.length
  rw [hformat, Option.map_some] at hlength
  obtain ⟨made, hmade, hsame⟩ := Option.map_eq_some_iff.mp hlength.symm
  rw [← hsame]
  exact (h.laid_tiled hformats).itemAt (Nat.zero_le _)
    (h.size.2.2 ▸ Attributes.lt_size_of_has hdata) (halike.isData ▸ hdata) hmade

/-- The pairs of neighbours in whatever starts with a byte that is not code, the first of them apart
if that byte has a label or a comment. -/
theorem Stages.isContiguous_pairs (hformats : project.formats.isEmpty = true) {start : Nat}
    {format : Format}
    (hdata : (findings.attributes.info start).isData = true
      ∨ (findings.attributes.info start).isInlineData = true)
    (hformat : (findings.attributes.info start).format = some format) :
    0 < format.length ∧ start + format.length ≤ project.setup.image.size
      ∧ ∀ i, start ≤ i → i + 1 < start + format.length →
        (i = start → (findings.attributes.info start).symbol.isSome = false
          ∧ start ∉ project.comments) → project.setup.map.isContiguous i 2 = true := by
  rcases hdata with hdata | hinline
  · obtain ⟨hitem, hpos, hend⟩ := h.itemAt hformats hdata hformat
    refine ⟨hpos, hend, fun i hlow hhigh hbare => ?_⟩
    refine h.isContiguous_pair hformats hitem hlow hhigh fun heq => ?_
    subst heq
    obtain ⟨hsymbol, hcomment⟩ := hbare rfl
    rw [h.symbol_of_isDataStart (by rw [Attribute.isDataStart, hdata, hformat]; rfl),
      Option.isSome_eq_false_iff, Option.isNone_iff_eq_none] at hsymbol
    exact ⟨hsymbol, hcomment⟩
  · have hone := h.inline_format hformats hinline
    rw [hformat, Option.map_some, Option.some.injEq] at hone
    have hlt : start < project.setup.image.size := h.size.2.2 ▸ Attributes.lt_size_of_has hinline
    exact ⟨by omega, by omega, fun i hlow hhigh => by omega⟩

end Stages

/-- **Continuity.**  Without plugins and formats of the user, the addresses of the bytes behind the
first one of an item are contiguous.  The whole item is, unless the addresses break right after the
first byte, and then that byte has a label or a comment. -/
theorem analyze_continuous (project : Project) (findings : Findings ν)
    (hmap : project.setup.map.Valid) (hformats : project.formats.isEmpty = true)
    (h : project.analyze ([] : List (Plugin ν σ)) = .ok findings) (start : Nat) (format : Format)
    (hdata : (findings.attributes.info start).isData = true
      ∨ (findings.attributes.info start).isInlineData = true)
    (hformat : (findings.attributes.info start).format = some format) :
    (1 < format.length →
        project.setup.map.isContiguous (start + 1) (format.length - 1) = true)
      ∧ (project.setup.map.isContiguous start format.length = false ↔
        1 < format.length ∧ project.setup.map.isContiguous start 2 = false)
      ∧ (project.setup.map.isContiguous start format.length = false →
        (findings.attributes.info start).symbol.isSome = true ∨ start ∈ project.comments) := by
  obtain ⟨resolved, laid, tagged, hstages⟩ := analyze_stages h
  have hsize := hstages.total
  obtain ⟨hpos, hend, hpairs⟩ := hstages.isContiguous_pairs hformats hdata hformat
  -- all depends on the first pair
  have hfirst : (1 < format.length → project.setup.map.isContiguous start 2 = true) →
      project.setup.map.isContiguous start format.length = true := by
    refine fun hpair => hmap.isContiguous_of_pairs hpos (by omega) fun i hlow hhigh => ?_
    rcases Nat.lt_or_eq_of_le hlow with hlt | rfl
    · exact hpairs i hlow hhigh fun heq => absurd heq (by omega)
    · exact hpair (by omega)
  refine ⟨fun hlength => ?_, ⟨fun hbreak => ?_, fun ⟨hlength, hbreak⟩ => ?_⟩, fun hbreak => ?_⟩
  · refine hmap.isContiguous_of_pairs (by omega) (by omega) fun i hlow hhigh => ?_
    exact hpairs i (by omega) (by omega) fun heq => absurd heq (by omega)
  · rw [Bool.eq_false_iff] at hbreak
    have hpair := mt hfirst hbreak
    rw [Classical.not_imp, Bool.not_eq_true] at hpair
    exact hpair
  · rw [Bool.eq_false_iff] at hbreak ⊢
    exact mt (hmap.isContiguous_two hlength) hbreak
  · rw [Bool.eq_false_iff] at hbreak
    by_contra hbare
    rw [not_or, Bool.not_eq_true] at hbare
    exact hbreak (hfirst fun hlength =>
      hpairs start (Nat.le_refl _) (by omega) fun _ => hbare)

/-- Zeros at two places, with a comment on the last byte of the first.  There is another break, at
which nothing is said. -/
def seam : Project where
  setup :=
    { image := Array.replicate 20 0
      processor := ⟨.nmos6502, true, OpcodeTable.blank⟩
      map := ⟨[⟨0, 6, 0x1000⟩, ⟨6, 8, 0x2000⟩, ⟨14, 6, 0x3000⟩], 20⟩
      parameters := Parameters.initial
      hints := #[]
      overrides := #[]
      entryStatus := .indeterminate }
  platforms := []
  definitions := []
  labels := []
  formats := ∅
  comments := [5]

/-- The fill that starts with the comment reaches over the break behind it. -/
theorem analyze_seam :
    ∃ findings : Findings Unit, seam.analyze ([] : List (Plugin Unit Unit)) = .ok findings
      ∧ (findings.attributes.info 5).isData = true
      ∧ (findings.attributes.info 5).format = some ⟨9, .fill, .plain, none⟩ := by
  obtain ⟨findings, h, hbytes⟩ := exists_ok
    (p := fun findings => (findings.attributes.info 5).isData
      && (findings.attributes.info 5).format == some ⟨9, .fill, .plain, none⟩)
    (show (Except.map _ (seam.analyze ([] : List (Plugin Unit Unit)))).toOption = some true by
      decide +kernel)
  rw [Bool.and_eq_true, beq_iff_eq] at hbytes
  exact ⟨findings, h, hbytes⟩

theorem analyze_continuous_seam :
    ∃ findings : Findings Unit, seam.setup.map.Valid ∧ seam.formats.isEmpty = true
      ∧ seam.analyze ([] : List (Plugin Unit Unit)) = .ok findings
      ∧ (findings.attributes.info 5).isData = true
      ∧ (findings.attributes.info 5).format = some ⟨9, .fill, .plain, none⟩
      ∧ (1 < 9 → seam.setup.map.isContiguous 6 8 = true)
      ∧ (seam.setup.map.isContiguous 5 9 = false ↔
        1 < 9 ∧ seam.setup.map.isContiguous 5 2 = false)
      ∧ (seam.setup.map.isContiguous 5 9 = false →
        (findings.attributes.info 5).symbol.isSome = true ∨ 5 ∈ seam.comments) := by
  have hmap : seam.setup.map.Valid := ⟨by decide, by decide, by decide⟩
  have hformats : seam.formats.isEmpty = true := by decide
  obtain ⟨findings, h, hdata, hformat⟩ := analyze_seam
  exact ⟨findings, hmap, hformats, h, hdata, hformat,
    analyze_continuous seam findings hmap hformats h 5 _ (Or.inl hdata) hformat⟩

/-- So not every item is contiguous. -/
theorem seam_not_contiguous :
    ∃ (findings : Findings Unit) (start : Nat) (format : Format),
      seam.setup.map.Valid ∧ seam.formats.isEmpty = true
        ∧ seam.analyze ([] : List (Plugin Unit Unit)) = .ok findings
        ∧ (findings.attributes.info start).isData = true
        ∧ (findings.attributes.info start).format = some format
        ∧ seam.setup.map.isContiguous start format.length = false := by
  obtain ⟨findings, h, hdata, hformat⟩ := analyze_seam
  exact ⟨findings, 5, _, ⟨by decide, by decide, by decide⟩, by decide, h, hdata, hformat,
    by decide⟩

end Project

end Disasm65
