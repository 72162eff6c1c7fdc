/-
What the analysis hands over for tagging.

Tagging keeps what refers to what when every symbol on a byte is in the table, a generated one on
that byte only, and references are to labels of the table (`Data.Linked`).  Of these only the last
is not always so in an analysis: a format of the user or of a plugin may name any label.  Where
they name labels of the table (`Resolvable`), all of it holds when the user's data is attached, and
the passes before tagging keep it (`Tied`).  They also keep that a symbol has the address of its
byte, and such a symbol has the same value when it is tagged.
-/
import Mathlib
import Disasm65.Proofs.Data.Renaming
import Disasm65.Proofs.Project.Labels

namespace Disasm65

namespace Data

variable {survey : Survey} {w v : Workspace}

/-- The symbol of a byte is in the table and on no other byte, and has the byte's address; and
references are to labels of the table. -/
structure Tied (w : Workspace) : Prop extends Listed w where
  value : ∀ i s, (w.info i).symbol = some s → s.value = (w.info i).address
  known : ∀ i ref, referredLabel? w.attributes i = some ref → w.symbols.get? ref.label ≠ none

theorem Tied.linked (hw : Tied w) : Linked w :=
  ⟨⟨hw.entry, fun q r symbol hs _ ht => hw.single r q symbol symbol ht hs rfl⟩, hw.known⟩

theorem Tied.carries (hw : Tied w) (hsymbols : v.symbols = w.symbols)
    (h : ∀ i, Carries (w.info i) (v.info i)) : Tied v := by
  refine ⟨hw.toListed.congr hsymbols fun i => (h i).stays.symbol, fun i s hs => ?_,
    fun i ref href => ?_⟩
  · rw [(h i).stays.address]
    exact hw.value i s ((h i).stays.symbol ▸ hs)
  · rw [hsymbols]
    exact hw.known i ref ((h i).label ref href)

/-! ### The passes before tagging -/

/-- A label that is generated for a byte has the byte's address. -/
theorem ensureLabel_value {place : Nat} {label : String}
    (hvalue : ∀ i s, (w.info i).symbol = some s → s.value = (w.info i).address)
    (h : ensureLabel w place = .ok (label, v)) :
    ∀ i s, (v.info i).symbol = some s → s.value = (v.info i).address := by
  have haddress := fun i => ((ensureLabel_retitles h).byte i).address
  rcases ensureLabel_eq_ok h with ⟨_, _, _, rfl⟩ | ⟨s, _, _, ⟨_, _, hnew, _⟩, rfl⟩
  · exact hvalue
  intro i t ht
  unfold Workspace.info at ht ⊢
  rw [haddress]
  dsimp only at ht
  rw [Attributes.info_update] at ht
  split at ht
  · rename_i hi
    cases ht
    rw [← hi.1]
    exact hnew
  · exact hvalue i t ht

theorem referTo_tied {source length target : Nat} (hw : Tied w)
    (h : referTo survey source length target w = v.done) : Tied v := by
  have hanchored : Anchored [] w := ⟨hw.toListed, fun _ _ hs => absurd hs List.not_mem_nil⟩
  refine ⟨(referTo_anchored hanchored h).listed, fun i s hs => ?_,
    referTo_known hw.toListed hw.known h⟩
  obtain ⟨label, u, format, hensure, _, rfl⟩ := referTo_eq_done h
  have hu := ensureLabel_value hw.value hensure i s
  rw [info_workspace_update] at hs ⊢
  by_cases hi : source = i ∧ i < u.attributes.size
  · rw [if_pos hi] at hs ⊢
    exact hu hs
  · rw [if_neg hi] at hs ⊢
    exact hu hs

/-- What is tied before operands and items are resolved is tied after it. -/
theorem resolveTargets_tied (hw : Tied w) (h : resolveTargets survey w = v.done) : Tied v := by
  have hrun := resolveFrom_refers _ _ _ h
  clear h
  induction hrun with
  | refl => exact hw
  | tail _ hstep ih =>
      cases hstep with
      | operand _ _ _ _ h => exact referTo_tied ih h
      | item _ _ _ _ h => exact referTo_tied ih h

theorem formatUnclaimed_tied (hw : Tied w) (h : formatUnclaimed survey w = v.done) : Tied v :=
  hw.carries (formatUnclaimed_formats h).symbols (formatUnclaimed_carries h)

end Data

namespace Project

open Data

variable {ν σ : Type} {project : Project} {panel : List (Plugin ν σ)}

/-- Every label that the formats of the user and of the plugins refer to is in the table. -/
structure Resolvable (project : Project) (flow : Attributes) : Prop where
  plugins : ∀ i ref, referredLabel? flow i = some ref →
    (project.titled flow).symbols.get? ref.label ≠ none
  formats : ∀ (i : Nat) (format : Format) ref, project.formats[i]? = some format →
    format.label = some ref → (project.titled flow).symbols.get? ref.label ≠ none

/-- A byte has the format that it had, or the one of the user that is meant for it. -/
theorem titled_format_or (project : Project) (flow : Attributes) (i : Nat) :
    ((project.titled flow).info i).format = (flow.info i).format
      ∨ ∃ format, project.formats[i]? = some format
        ∧ ((project.titled flow).info i).format = some format := by
  refine List.foldlRecOn (motive := fun s : Attributes × Report =>
    (s.1.info i).format = (flow.info i).format ∨ ∃ format, project.formats[i]? = some format
      ∧ (s.1.info i).format = some format) _ _
    (Or.inl (foldl_attachLabel_format project.acceptLabels.1 (flow, project.acceptLabels.2) i))
    fun state hstate entry hentry => ?_
  unfold attachFormat
  dsimp only
  split
  · exact hstate
  · rw [Attributes.info_update]
    split
    · rename_i hoffset
      refine Or.inr ⟨entry.2, ?_, rfl⟩
      rw [← hoffset.1]
      exact Std.TreeMap.mem_toList_iff_getElem?_eq_some.mp hentry
    · exact hstate

theorem titled_tied (htotal : project.setup.map.totalLength = project.setup.image.size)
    (panel : List (Plugin ν σ))
    (h : Resolvable project (Flow.outcome project.setup panel).attributes) :
    Tied (project.titled (Flow.outcome project.setup panel).attributes) := by
  refine ⟨(titled_anchored htotal panel).listed, fun i s hs => titled_value htotal panel hs,
    fun i ref href => ?_⟩
  obtain ⟨format, hformat, hlabel⟩ := Option.bind_eq_some_iff.mp href
  rcases titled_format_or project (Flow.outcome project.setup panel).attributes i with
    hsame | ⟨given, hgiven, hsame⟩
  · refine h.plugins i ref ?_
    rw [referredLabel?, ← hsame, Workspace.info, hformat]
    exact hlabel
  · obtain rfl := Option.some.inj (hsame.symm.trans hformat)
    exact h.formats i given ref hgiven hlabel

/-- Without plugins it is enough that the user's formats refer to labels of the table. -/
theorem resolvable_of_formats
    (h : ∀ (i : Nat) (format : Format) ref, project.formats[i]? = some format →
      format.label = some ref →
      (project.initialSymbols project.acceptLabels.1).get? ref.label ≠ none) :
    Resolvable project (Flow.outcome project.setup ([] : List (Plugin ν σ))).attributes := by
  refine ⟨fun i ref href => ?_, h⟩
  unfold referredLabel? at href
  rcases (Flow.outcome_finished (ν := ν) (σ := σ) project.setup i).format with h | ⟨_, h⟩ <;>
    rw [h] at href <;> cases href

/-- What is handed over for tagging is tied. -/
theorem Stages.laid_tied {resolved laid tagged : Workspace} {findings : Findings ν}
    (h : Stages project (Flow.outcome project.setup panel).attributes resolved laid tagged findings)
    (hresolvable : Resolvable project (Flow.outcome project.setup panel).attributes) :
    Tied laid :=
  formatUnclaimed_tied (resolveTargets_tied (titled_tied h.total panel hresolvable) h.resolve) h.lay

/-- **An analysis that ends well has tagged what is linked**, with the address of its byte in every
symbol. -/
theorem analyze_linked {findings : Findings ν}
    (hresolvable : Resolvable project (Flow.outcome project.setup panel).attributes)
    (h : project.analyze panel = .ok findings) :
    ∃ laid tagged : Workspace, tagLabels project.survey laid = tagged.done ∧ Linked laid
      ∧ (∀ q symbol, (laid.info q).symbol = some symbol → symbol.value = (laid.info q).address)
      ∧ ∀ i, Stripped (tagged.info i) (findings.attributes.info i) := by
  obtain ⟨resolved, laid, tagged, hstages⟩ := analyze_stages h
  have htied := hstages.laid_tied hresolvable
  exact ⟨laid, tagged, hstages.tag, htied.linked, htied.value, hstages.stripped.2⟩

end Project

end Disasm65
