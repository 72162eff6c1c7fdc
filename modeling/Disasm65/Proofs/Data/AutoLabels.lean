/-
Renaming generated labels, one label and one reference at a time.

A renaming (`Renames`) puts a new symbol in the place of the old one, on the byte and in the table,
and the new label tells of the references to the old one (`Retags`).  What a run of renamings keeps
is shown by `renameFrom_run`.  The references are then renamed byte by byte
(`renameReferences_spec`).  Neither makes or removes a label or a format, and no format changes its
length (`tagLabels_relabelled`).
-/
import Mathlib
import Disasm65.Data.AutoLabels
import Disasm65.Proofs.Data.Workspace

namespace Disasm65.Data

variable {survey : Survey} {w v : Workspace}

/-! ### Labels -/

/-- The generated label at `offset` is replaced by another. -/
structure Renames (offset : Nat) (old new : Symbol) (w v : Workspace) : Prop where
  symbol : (w.info offset).symbol = some old
  auto : old.origin = .auto
  value : new.value = (w.info offset).address
  origin : new.origin = .auto
  free : (w.symbols.erase old.label).get? new.label = none
  result : v = ⟨w.attributes.update offset fun a => { a with symbol := some new },
    (w.symbols.erase old.label).insert (.label new)⟩

/-- A renaming changes the symbol of one byte. -/
theorem Renames.info {offset : Nat} {old new : Symbol} (h : Renames offset old new w v) (i : Nat) :
    v.info i
      = { w.info i with symbol := if i = offset then some new else (w.info i).symbol } := by
  rw [h.result]
  exact Attributes.info_update_symbol (lt_size_of_symbol h.symbol) (some new) i

theorem autoLabel?_eq_some {attributes : Attributes} {offset : Nat} {label : String}
    (h : autoLabel? attributes offset = some label) :
    ∃ symbol, (attributes.info offset).symbol = some symbol ∧ symbol.origin = .auto
      ∧ symbol.label = label := by
  unfold autoLabel? at h
  split at h
  · rename_i symbol hsymbol
    split at h
    · cases h
      exact ⟨symbol, hsymbol, ‹_›, rfl⟩
    · cases h
  · cases h

/-- The generated label at `offset` is replaced by one that tells of the references to it. -/
structure Retags (survey : Survey) (found : Std.TreeMap String References) (offset : Nat)
    (old new : Symbol) (w v : Workspace) : Prop extends Renames offset old new w v where
  used : found.getD old.label .none ≠ .none
  generated : w.symbols.Generated
    (tagStem (found.getD old.label .none) survey.parameters.labelStyle)
    (w.info offset).address new

/-- **What every renaming keeps holds after all of them.**  `P` may speak of the offsets that are
still to come and of the names given so far.  An offset is passed over if it has no generated label,
or one that nothing refers to. -/
theorem renameFrom_run {found : Std.TreeMap String References}
    {P : List Nat → Renaming → Workspace → Prop}
    (hskip : ∀ {offset others renamed w},
      (∀ label, autoLabel? w.attributes offset = some label → found.getD label .none = .none) →
      P (offset :: others) renamed w → P others renamed w)
    (hrename : ∀ {offset others renamed w v old new}, Retags survey found offset old new w v →
      P (offset :: others) renamed w → P others (renamed.insert old.label new.label) v)
    {last : Renaming} :
    ∀ (offsets : List Nat) (renamed : Renaming) (w : Workspace),
      renameFrom survey found offsets renamed w = (v.done, last) → P offsets renamed w →
      P [] last v := by
  intro offsets
  induction offsets with
  | nil =>
      intro renamed w h hw
      obtain ⟨hdone, rfl⟩ := Prod.mk.inj h
      rwa [← done_inj.mp hdone]
  | cons offset others ih =>
      intro renamed w h hw
      rw [renameFrom] at h
      split at h
      · rename_i hnone
        exact ih _ _ h (hskip (fun label hlabel => by cases hnone.symm.trans hlabel) hw)
      rename_i label hlabel
      obtain ⟨old, hsymbol, hauto, rfl⟩ := autoLabel?_eq_some hlabel
      dsimp only at h
      split at h
      · rename_i hunused
        refine ih _ _ h (hskip (fun label hother => ?_) hw)
        rwa [← Option.some.inj (hlabel.symm.trans hother)]
      rename_i hused
      split at h
      · exact absurd (Prod.mk.inj h).1 stop_ne_done
      rename_i new hgenerate
      split at h
      · exact absurd (Prod.mk.inj h).1 stop_ne_done
      rename_i symbols hadd
      have hgenerated := SymbolTable.generate_eq_ok hgenerate
      obtain ⟨hfree, rfl⟩ := SymbolTable.add_eq_ok hadd
      exact ih _ _ h (hrename ⟨⟨hsymbol, hauto, hgenerated.value, hgenerated.origin, hfree, rfl⟩,
        hused, hgenerated⟩ hw)

/-- The same for what no renaming can break, whatever the references. -/
theorem renameFrom_preserves {found : Std.TreeMap String References}
    {P : List Nat → Renaming → Workspace → Prop}
    (hskip : ∀ {offset others renamed w}, P (offset :: others) renamed w → P others renamed w)
    (hrename : ∀ {offset others renamed w v old new}, Renames offset old new w v →
      P (offset :: others) renamed w → P others (renamed.insert old.label new.label) v)
    {last : Renaming} (offsets : List Nat) (renamed : Renaming) (w : Workspace)
    (h : renameFrom survey found offsets renamed w = (v.done, last)) (hw : P offsets renamed w) :
    P [] last v :=
  renameFrom_run (fun _ => hskip) (fun hretags => hrename hretags.toRenames) offsets renamed w h hw

theorem Renaming.getElem?_insert (renamed : Renaming) (old new label : String) :
    (renamed.insert old new)[label]? = if old = label then some new else renamed[label]? := by
  rw [Std.TreeMap.getElem?_insert]
  by_cases hl : old = label
  · rw [if_pos hl, if_pos (Std.LawfulEqCmp.compare_eq_iff_eq.mpr hl)]
  · rw [if_neg hl, if_neg fun hc => hl (Std.LawfulEqCmp.eq_of_compare hc)]

/-! ### References -/

/-- The reference with the new name of its label. -/
def renameRef (renamed : Renaming) (ref : LabelRef) : LabelRef :=
  { ref with label := renamed[ref.label]?.getD ref.label }

/-- The formats are alike but for the name of the label they refer to. -/
structure RefRenamed (renamed : Renaming) (format other : Option Format) : Prop where
  length : other.map (·.length) = format.map (·.length)
  order : other.map (·.kind == .bigEndian) = format.map (·.kind == .bigEndian)
  plain : format.bind (·.label) = none → other = format
  label : other.bind (·.label) = (format.bind (·.label)).map (renameRef renamed)

theorem renameFormat_eq_ok {renamed : Renaming} {format other : Format}
    (h : renameFormat renamed format = .ok other) :
    RefRenamed renamed (some format) (some other) := by
  unfold renameFormat at h
  split at h
  · rename_i hlabel
    cases h
    exact ⟨rfl, rfl, fun _ => rfl, by simp [hlabel]⟩
  · rename_i ref hlabel
    split at h
    · rename_i hnone
      cases h
      exact ⟨rfl, rfl, fun _ => rfl, by simp [hlabel, renameRef, hnone]⟩
    · rename_i label hsome
      obtain ⟨_, rfl⟩ := Format.reference_eq_ok h
      refine ⟨rfl, ?_, fun hplain => ?_, by simp [hlabel, renameRef, hsome]⟩
      · by_cases hkind : format.kind = .bigEndian <;> simp [hkind]
      · cases hlabel.symm.trans hplain

/-- Each of the offsets has its reference renamed, once, and nothing else changes. -/
theorem renameReferences_spec {renamed : Renaming} :
    ∀ (offsets : List Nat) (w : Workspace), offsets.Nodup →
      renameReferences renamed offsets w = v.done →
      v.symbols = w.symbols ∧ v.attributes.size = w.attributes.size
        ∧ ∀ i, v.info i = { w.info i with format := (v.info i).format }
          ∧ (i ∉ offsets → (v.info i).format = (w.info i).format)
          ∧ (i ∈ offsets → RefRenamed renamed (w.info i).format (v.info i).format) := by
  intro offsets
  induction offsets with
  | nil =>
      intro w _ h
      rw [← done_inj.mp h]
      exact ⟨rfl, rfl, fun i => ⟨rfl, fun _ => rfl, fun hi => by cases hi⟩⟩
  | cons offset others ih =>
      intro w hnodup h
      obtain ⟨hoffset, hothers⟩ := List.nodup_cons.mp hnodup
      rw [renameReferences] at h
      split at h
      · rename_i hnone
        obtain ⟨hsymbols, hsize, hbyte⟩ := ih w hothers h
        refine ⟨hsymbols, hsize, fun i => ?_⟩
        obtain ⟨hsame, hout, hin⟩ := hbyte i
        refine ⟨hsame, fun hi => hout fun hc => hi (List.mem_cons_of_mem _ hc), fun hi => ?_⟩
        rcases List.mem_cons.mp hi with rfl | hi
        · rw [hout hoffset, hnone]
          exact ⟨rfl, rfl, fun _ => rfl, rfl⟩
        · exact hin hi
      · rename_i format hformat
        split at h
        · exact absurd h stop_ne_done
        · rename_i other hrenamed
          obtain ⟨hsymbols, hsize, hbyte⟩ := ih _ hothers h
          have hupdate := info_workspace_update w offset
            (fun a => { a with format := some other })
          refine ⟨hsymbols, hsize.trans (size_workspace_update ..), fun i => ?_⟩
          obtain ⟨hsame, hout, hin⟩ := hbyte i
          rw [hupdate i] at hsame hout hin
          by_cases hi : i = offset
          · subst hi
            rw [if_pos ⟨rfl, lt_size_of_format hformat⟩] at hsame hout
            refine ⟨hsame, fun hc => absurd List.mem_cons_self hc, fun _ => ?_⟩
            rw [hout hoffset, hformat]
            exact renameFormat_eq_ok hrenamed
          · rw [if_neg fun hc => hi hc.1.symm] at hsame hout hin
            refine ⟨hsame, fun hc => hout fun hm => hc (List.mem_cons_of_mem _ hm), fun hm => ?_⟩
            exact hin ((List.mem_cons.mp hm).resolve_left hi)

/-! ### The whole pass -/

/-- The byte has a label if it had one, and a format of the same length if it had one. -/
structure Relabelled (a b : Attribute) : Prop where
  retitled : Retitled a b
  symbol : b.symbol.isSome = a.symbol.isSome
  length : b.format.map (·.length) = a.format.map (·.length)

theorem Relabelled.refl (a : Attribute) : Relabelled a a := ⟨.refl a, rfl, rfl⟩

theorem Relabelled.trans {a b c : Attribute} (h : Relabelled a b) (h' : Relabelled b c) :
    Relabelled a c :=
  ⟨h.retitled.trans h'.retitled, h'.symbol.trans h.symbol, h'.length.trans h.length⟩

theorem Renames.relabelled {offset : Nat} {old new : Symbol} (h : Renames offset old new w v)
    (i : Nat) : Relabelled (w.info i) (v.info i) := by
  rw [h.info]
  refine ⟨⟨_, _, rfl⟩, ?_, rfl⟩
  dsimp only
  split
  · rename_i hi
    rw [hi, h.symbol]
    rfl
  · rfl

/-- The pass renames the labels and then the references to them, unless labels stay as they are. -/
theorem tagLabels_eq_done (h : tagLabels survey w = v.done) :
    survey.parameters.labelStyle = .simple ∧ v = w
      ∨ survey.parameters.labelStyle ≠ .simple ∧ ∃ renamed u,
        renameFrom survey (gatherReferences survey w.attributes) (List.range w.attributes.size) ∅ w
            = (u.done, renamed)
          ∧ renameReferences renamed (List.range w.attributes.size) u = v.done := by
  unfold tagLabels at h
  split at h
  · exact Or.inl ⟨‹_›, (done_inj.mp h).symm⟩
  · obtain ⟨u, hrename, hreferences⟩ := andThen_eq_done.mp h
    exact Or.inr ⟨‹_›, _, u, Prod.ext hrename rfl, hreferences⟩

theorem tagLabels_relabelled (h : tagLabels survey w = v.done) :
    v.attributes.size = w.attributes.size ∧ ∀ i, Relabelled (w.info i) (v.info i) := by
  rcases tagLabels_eq_done h with ⟨_, rfl⟩ | ⟨_, renamed, u, hrename, hreferences⟩
  · exact ⟨rfl, fun i => .refl _⟩
  obtain ⟨hsize, hlabels⟩ := renameFrom_preserves
    (P := fun _ _ u => u.attributes.size = w.attributes.size
      ∧ ∀ i, Relabelled (w.info i) (u.info i))
    (fun hu => hu)
    (fun hstep hu => ⟨by rw [hstep.result]; exact (Attributes.size_update ..).trans hu.1,
      fun i => (hu.2 i).trans (hstep.relabelled i)⟩)
    _ _ _ hrename ⟨rfl, fun i => .refl _⟩
  obtain ⟨_, hsize', hformats⟩ := renameReferences_spec _ _ List.nodup_range hreferences
  refine ⟨hsize'.trans hsize, fun i => (hlabels i).trans ?_⟩
  obtain ⟨hsame, hout, hin⟩ := hformats i
  refine ⟨⟨_, _, hsame⟩, by rw [hsame], ?_⟩
  by_cases hi : i ∈ List.range w.attributes.size
  · exact (hin hi).length
  · rw [hout hi]

end Disasm65.Data
