/-
Tags on generated labels keep what refers to what.

Labels are renamed one byte at a time, and the references only when all labels have their names.  In
between, a new name may be one that an earlier label has given up.  What carries the proof is that
the table always has an entry for every label on a byte (`Posted`): a name that is free when it is
given is on no byte, so a generated label never comes to stand on two bytes, and the renaming is
injective on the labels of the first table (`Retagging.injective`).  Hence a reference is to the
label of a byte afterwards exactly if it was before (`tagLabels_retagged`).  Were a label on a byte
not in the table, its name could be given to another byte.  The tags of a label are those of all
references to it (`tags_gatherReferences`).
-/
import Mathlib
import Disasm65.Data.Targets
import Disasm65.Proofs.Data.AutoLabels

namespace Disasm65.Data

variable {survey : Survey} {w u v : Workspace}

/-! ### Tags -/

/-- The tags there are, strongest first. -/
def allTags : List Char := ['S', 'B', 'D', 'W', 'R']

namespace References

theorem mem_tags {references : References} {c : Char} :
    c ∈ references.tags ↔ references.calls = true ∧ c = 'S' ∨ references.branches = true ∧ c = 'B'
      ∨ references.addresses = true ∧ c = 'D' ∨ references.writes = true ∧ c = 'W'
      ∨ references.reads = true ∧ c = 'R' := by
  simp only [tags, List.mem_append, or_assoc]
  simp only [List.mem_ite_nil_right, List.mem_singleton]

theorem mem_tags_union {a b : References} {c : Char} :
    c ∈ (a.union b).tags ↔ c ∈ a.tags ∨ c ∈ b.tags := by
  simp only [mem_tags, union, Bool.or_eq_true, or_and_right]
  exact iff_of_eq (by ac_rfl)

theorem tags_eq_nil {references : References} : references.tags = [] ↔ references = .none := by
  obtain ⟨calls, branches, addresses, writes, reads⟩ := references
  cases calls <;> cases branches <;> cases addresses <;> cases writes <;> cases reads <;> decide

/-- The tags are in their order. -/
theorem tags_eq_filter (references : References) :
    references.tags = allTags.filter fun c => c ∈ references.tags := by
  obtain ⟨calls, branches, addresses, writes, reads⟩ := references
  cases calls <;> cases branches <;> cases addresses <;> cases writes <;> cases reads <;> decide

end References

/-- The tags of all references to a label, strongest first. -/
def tagsOf (survey : Survey) (attributes : Attributes) (label : String) : List Char :=
  allTags.filter fun c => ∃ p < attributes.size,
    (referredLabel? attributes p).map (·.label) = some label
      ∧ c ∈ (referenceAt survey attributes p).tags

/-- Note the reference at an offset. -/
def gatherAt (survey : Survey) (attributes : Attributes) (found : Std.TreeMap String References)
    (offset : Nat) : Std.TreeMap String References :=
  match referredLabel? attributes offset with
  | some ref =>
    found.insert ref.label
      ((found.getD ref.label .none).union (referenceAt survey attributes offset))
  | none => found

theorem gatherReferences_eq (survey : Survey) (attributes : Attributes) :
    gatherReferences survey attributes
      = (List.range attributes.size).foldl (gatherAt survey attributes) ∅ := rfl

theorem mem_tags_gatherAt (survey : Survey) (attributes : Attributes)
    (found : Std.TreeMap String References) (offset : Nat) (label : String) (c : Char) :
    c ∈ ((gatherAt survey attributes found offset).getD label .none).tags
      ↔ c ∈ (found.getD label .none).tags
        ∨ (referredLabel? attributes offset).map (·.label) = some label
          ∧ c ∈ (referenceAt survey attributes offset).tags := by
  unfold gatherAt
  cases referredLabel? attributes offset with
  | none => simp
  | some ref =>
      dsimp only
      rw [Std.TreeMap.getD_insert]
      by_cases hlabel : ref.label = label
      · rw [if_pos (Std.LawfulEqCmp.compare_eq_iff_eq.mpr hlabel), References.mem_tags_union]
        simp [hlabel]
      · rw [if_neg fun hc => hlabel (Std.LawfulEqCmp.eq_of_compare hc)]
        simp [hlabel]

theorem mem_tags_foldl (survey : Survey) (attributes : Attributes) (label : String) (c : Char) :
    ∀ (offsets : List Nat) (found : Std.TreeMap String References),
      c ∈ ((offsets.foldl (gatherAt survey attributes) found).getD label .none).tags
        ↔ c ∈ (found.getD label .none).tags
          ∨ ∃ p ∈ offsets, (referredLabel? attributes p).map (·.label) = some label
            ∧ c ∈ (referenceAt survey attributes p).tags := by
  intro offsets
  induction offsets with
  | nil => intro found; simp
  | cons offset offsets ih =>
      intro found
      rw [List.foldl_cons, ih, mem_tags_gatherAt, or_assoc]
      simp only [List.mem_cons, exists_eq_or_imp]

/-- **What is gathered for a label are the tags of the references to it.** -/
theorem tags_gatherReferences (survey : Survey) (attributes : Attributes) (label : String) :
    ((gatherReferences survey attributes).getD label .none).tags
      = tagsOf survey attributes label := by
  rw [References.tags_eq_filter, tagsOf]
  refine List.filter_congr fun c _ => ?_
  have hmem := mem_tags_foldl survey attributes label c (List.range attributes.size) ∅
  rw [← gatherReferences_eq] at hmem
  simp only [hmem, List.mem_range, decide_eq_decide]
  simp [References.none, References.tags]

/-! ### What refers to what -/

/-- The byte at `p` refers to the label at `q`. -/
def PointsTo (w : Workspace) (p q : Nat) : Prop :=
  ∃ ref symbol, referredLabel? w.attributes p = some ref ∧ (w.info q).symbol = some symbol
    ∧ ref.label = symbol.label

/-- The symbols on bytes are in the table, and a generated one stands on one byte. -/
structure Posted (w : Workspace) : Prop where
  entry : ∀ q symbol, (w.info q).symbol = some symbol →
    w.symbols.get? symbol.label = some (.label symbol)
  alone : ∀ q r symbol, (w.info q).symbol = some symbol → symbol.origin = .auto →
    (w.info r).symbol = some symbol → r = q

/-- References, too, are to labels of the table. -/
structure Linked (w : Workspace) : Prop extends Posted w where
  known : ∀ p ref, referredLabel? w.attributes p = some ref → w.symbols.get? ref.label ≠ none

namespace Posted

/-- A label is that of one symbol. -/
theorem eq_of_label (h : Posted w) {q r : Nat} {s t : Symbol} (hs : (w.info q).symbol = some s)
    (ht : (w.info r).symbol = some t) (hlabel : t.label = s.label) : t = s := by
  have hboth := (h.entry r t ht).symm.trans (hlabel ▸ h.entry q s hs)
  exact Entry.label.inj (Option.some.inj hboth)

/-- A byte with a generated label is the only one with it. -/
theorem eq_of_auto (h : Posted w) {q r : Nat} {s t : Symbol} (hs : (w.info q).symbol = some s)
    (hauto : s.origin = .auto) (ht : (w.info r).symbol = some t) (hlabel : t.label = s.label) :
    r = q := by
  obtain rfl := h.eq_of_label hs ht hlabel
  exact h.alone q r t hs hauto ht

/-- A name that is free is on no byte. -/
theorem ne_of_free (h : Posted w) {q : Nat} {s : Symbol} (hs : (w.info q).symbol = some s)
    {label : String} (hfree : w.symbols.get? label = none) : label ≠ s.label := by
  rintro rfl
  cases hfree.symm.trans (h.entry q s hs)

/-- Another label with a free name takes the place of a generated one. -/
theorem renames {offset : Nat} {old new : Symbol} (h : Posted w)
    (hstep : Renames offset old new w v) (hfree : w.symbols.get? new.label = none) : Posted v := by
  have hinfo : ∀ i, (v.info i).symbol = if i = offset then some new else (w.info i).symbol :=
    fun i => by rw [hstep.info]
  have hget : ∀ label, v.symbols.get? label = if new.label = label then some (.label new)
      else if old.label = label then none else w.symbols.get? label := fun label => by
    rw [hstep.result, SymbolTable.get?_insert_label, SymbolTable.get?_erase]
  refine ⟨fun q s hs => ?_, fun q r s hs hauto ht => ?_⟩
  · rw [hinfo] at hs
    split at hs
    · cases hs
      rw [hget, if_pos rfl]
    · rename_i hq
      rw [hget, if_neg (h.ne_of_free hs hfree), if_neg, h.entry q s hs]
      exact fun hlabel => hq (h.eq_of_auto hstep.symbol hstep.auto hs hlabel.symm)
  · rw [hinfo] at hs ht
    split at hs
    · cases hs
      split at ht
      · rename_i hq hr
        exact hr.trans hq.symm
      · exact absurd rfl (h.ne_of_free ht hfree)
    · split at ht
      · cases ht
        exact absurd rfl (h.ne_of_free hs hfree)
      · exact h.alone q r s hs hauto ht

end Posted

/-! ### Labels under way -/

/-- The label at `q` is replaced by one that tells of the references to it. -/
structure Replaces (survey : Survey) (first : Workspace) (q : Nat) (old new : Symbol) : Prop where
  symbol : (first.info q).symbol = some old
  auto : old.origin = .auto
  used : tagsOf survey first.attributes old.label ≠ []
  made : MadeFor (tagStem ((gatherReferences survey first.attributes).getD old.label .none)
    survey.parameters.labelStyle) (first.info q).address new.label
  value : new.value = (first.info q).address
  origin : new.origin = .auto

/-- What has become of the labels of `first` when some offsets are still to come. -/
structure Retagging (survey : Survey) (first : Workspace) (offsets : List Nat)
    (renamed : Renaming) (u : Workspace) : Prop where
  nodup : offsets.Nodup
  size : u.attributes.size = first.attributes.size
  byte : ∀ i, u.info i = { first.info i with symbol := (u.info i).symbol }
  bare : ∀ i, (first.info i).symbol = none → (u.info i).symbol = none
  kept : ∀ i symbol, (first.info i).symbol = some symbol → renamed[symbol.label]? = none →
    (u.info i).symbol = some symbol
  replaced : ∀ label name : String, renamed[label]? = some name →
    ∃ i old new, i ∉ offsets ∧ Replaces survey first i old new ∧ old.label = label
      ∧ (u.info i).symbol = some new ∧ new.label = name
  posted : Posted u
  stays : ∀ (label : String) entry, first.symbols.get? label = some entry →
    renamed[label]? = none → u.symbols.get? label = some entry
  /-- A new name is not one of a label that has kept its own. -/
  fresh : ∀ label name : String, renamed[label]? = some name →
    first.symbols.get? name = none ∨ renamed[name]? ≠ none
  all : ∀ i symbol, i ∉ offsets → (first.info i).symbol = some symbol → symbol.origin = .auto →
    tagsOf survey first.attributes symbol.label ≠ [] → renamed[symbol.label]? ≠ none

namespace Retagging

variable {first : Workspace} {offset : Nat} {offsets others : List Nat} {renamed : Renaming}

theorem start (survey : Survey) (hfirst : Posted first) :
    Retagging survey first (List.range first.attributes.size) ∅ first := by
  refine ⟨List.nodup_range, rfl, fun _ => rfl, fun _ => id, fun _ _ hs _ => hs,
    fun label name hname => ?_, hfirst, fun _ _ he _ => he, fun label name hname => ?_,
    fun i symbol hi hs => ?_⟩
  · rw [Std.TreeMap.getElem?_emptyc] at hname
    cases hname
  · rw [Std.TreeMap.getElem?_emptyc] at hname
    cases hname
  · exact absurd (List.mem_range.mpr (lt_size_of_symbol hs)) hi

/-- A label has a new name once its byte has had its turn. -/
theorem renamed_eq_none (hfirst : Posted first) (h : Retagging survey first offsets renamed u)
    {i : Nat} (hi : i ∈ offsets) {symbol : Symbol} (hs : (first.info i).symbol = some symbol) :
    renamed[symbol.label]? = none := by
  cases hname : renamed[symbol.label]? with
  | none => rfl
  | some name =>
      obtain ⟨j, old, new, hj, hreplaces, hlabel, _⟩ := h.replaced _ name hname
      exact absurd (hfirst.eq_of_auto hreplaces.symbol hreplaces.auto hs hlabel.symm ▸ hi) hj

theorem symbol_eq (hfirst : Posted first) (h : Retagging survey first offsets renamed u)
    {i : Nat} (hi : i ∈ offsets) : (u.info i).symbol = (first.info i).symbol := by
  cases hs : (first.info i).symbol with
  | none => exact h.bare i hs
  | some symbol => exact h.kept i symbol hs (h.renamed_eq_none hfirst hi hs)

theorem used_iff {label : String} :
    (gatherReferences survey first.attributes).getD label .none ≠ .none
      ↔ tagsOf survey first.attributes label ≠ [] := by
  rw [← tags_gatherReferences, ne_eq, ne_eq, References.tags_eq_nil]

theorem skip (hfirst : Posted first) (h : Retagging survey first (offset :: others) renamed u)
    (hunused : ∀ label, autoLabel? u.attributes offset = some label →
      (gatherReferences survey first.attributes).getD label .none = .none) :
    Retagging survey first others renamed u := by
  refine ⟨(List.nodup_cons.mp h.nodup).2, h.size, h.byte, h.bare, h.kept,
    fun label name hname => ?_, h.posted, h.stays, h.fresh, fun i symbol hi hs hauto hused => ?_⟩
  · obtain ⟨j, old, new, hj, hnew⟩ := h.replaced label name hname
    exact ⟨j, old, new, fun hmem => hj (List.mem_cons_of_mem _ hmem), hnew⟩
  · by_cases hoffset : i = offset
    · subst hoffset
      have hlabel : autoLabel? u.attributes i = some symbol.label := by
        unfold autoLabel?
        rw [← Workspace.info, h.symbol_eq hfirst List.mem_cons_self, hs]
        exact if_pos hauto
      exact absurd (hunused _ hlabel) (used_iff.mpr hused)
    · exact h.all i symbol (by simp [hoffset, hi]) hs hauto hused

/-- **One label is renamed.** -/
theorem step {old new : Symbol} (hfirst : Posted first)
    (h : Retagging survey first (offset :: others) renamed u)
    (hstep : Retags survey (gatherReferences survey first.attributes) offset old new u v) :
    Retagging survey first others (renamed.insert old.label new.label) v := by
  obtain ⟨hoffset, hothers⟩ := List.nodup_cons.mp h.nodup
  have hold : (first.info offset).symbol = some old :=
    (h.symbol_eq hfirst List.mem_cons_self).symm.trans hstep.symbol
  have hinsert := renamed.getElem?_insert old.label new.label
  have hgrows : ∀ label : String, renamed[label]? ≠ none →
      (renamed.insert old.label new.label)[label]? ≠ none := fun label hsome => by
    rw [hinsert]
    split
    · exact Option.some_ne_none _
    · exact hsome
  have hsymbol : ∀ i, i ≠ offset → (v.info i).symbol = (u.info i).symbol := fun i hi => by
    rw [hstep.info, if_neg hi]
  have hfree := hstep.generated.free
  have haddress : (u.info offset).address = (first.info offset).address := by rw [h.byte]
  refine ⟨hothers, ?_, fun i => ?_, fun i hnone => ?_, fun i symbol hs hkept => ?_,
    fun label name hname => ?_, h.posted.renames hstep.toRenames hfree,
    fun label entry he hkept => ?_, fun label name hname => ?_,
    fun i symbol hi hs hauto hused => ?_⟩
  · rw [hstep.result]
    exact (Attributes.size_update ..).trans h.size
  · rw [hstep.info, h.byte]
  · have hi : i ≠ offset := by
      rintro rfl
      cases hnone.symm.trans hold
    rw [hsymbol i hi]
    exact h.bare i hnone
  · rw [hinsert] at hkept
    split at hkept
    · cases hkept
    · rename_i hlabel
      have hi : i ≠ offset := by
        rintro rfl
        exact hlabel (congrArg Symbol.label (Option.some.inj (hold.symm.trans hs)))
      rw [hsymbol i hi]
      exact h.kept i symbol hs hkept
  · rw [hinsert] at hname
    split at hname
    · rename_i hlabel
      cases hname
      have hmade := hstep.generated.made
      have hvalue := hstep.value
      rw [haddress] at hmade hvalue
      exact ⟨offset, old, new, hoffset, ⟨hold, hstep.auto, used_iff.mp hstep.used, hmade, hvalue,
        hstep.origin⟩, hlabel, by rw [hstep.info, if_pos rfl], rfl⟩
    · obtain ⟨j, s, t, hj, hreplaces, hlabel, ht, hname⟩ := h.replaced label name hname
      rw [List.mem_cons, not_or] at hj
      exact ⟨j, s, t, hj.2, hreplaces, hlabel, (hsymbol j hj.1).trans ht, hname⟩
  · rw [hinsert] at hkept
    split at hkept
    · cases hkept
    · rename_i hlabel
      have hentry := h.stays label entry he hkept
      have hne : new.label ≠ label := by
        rintro rfl
        cases hfree.symm.trans hentry
      rw [hstep.result, SymbolTable.get?_insert_label, if_neg hne, SymbolTable.get?_erase,
        if_neg hlabel, hentry]
  · rw [hinsert] at hname
    split at hname
    · cases hname
      cases hget : first.symbols.get? new.label with
      | none => exact Or.inl rfl
      | some entry =>
          refine Or.inr (hgrows _ fun hkept => ?_)
          cases hfree.symm.trans (h.stays _ entry hget hkept)
    · exact (h.fresh label name hname).imp_right (hgrows name)
  · by_cases hi' : i = offset
    · subst hi'
      obtain rfl := Option.some.inj (hold.symm.trans hs)
      rw [hinsert, if_pos rfl]
      exact Option.some_ne_none _
    · exact hgrows _ (h.all i symbol (by simp [hi', hi]) hs hauto hused)

/-! ### All labels -/

/-- A byte has the label it had, under its new name. -/
theorem symbol_label (hfirst : Posted first) (h : Retagging survey first [] renamed u) {i : Nat}
    {symbol : Symbol} (hs : (first.info i).symbol = some symbol) :
    ∃ other, (u.info i).symbol = some other
      ∧ other.label = renamed[symbol.label]?.getD symbol.label
      ∧ (renamed[symbol.label]? = none ∧ other = symbol
        ∨ Replaces survey first i symbol other) := by
  cases hname : renamed[symbol.label]? with
  | none => exact ⟨symbol, h.kept i symbol hs hname, rfl, Or.inl ⟨rfl, rfl⟩⟩
  | some name =>
      obtain ⟨j, old, new, _, hreplaces, hlabel, hnew, rfl⟩ := h.replaced _ name hname
      obtain rfl := hfirst.eq_of_label hs hreplaces.symbol hlabel
      obtain rfl := hfirst.alone j i old hreplaces.symbol hreplaces.auto hs
      exact ⟨new, hnew, rfl, Or.inr hreplaces⟩

/-- **Two labels of the first table do not come to have one name.** -/
theorem injective (h : Retagging survey first [] renamed u) {label other : String}
    (hlabel : first.symbols.get? label ≠ none) (hother : first.symbols.get? other ≠ none)
    (hsame : renamed[label]?.getD label = renamed[other]?.getD other) : label = other := by
  cases hname : renamed[label]? with
  | none =>
      cases hname' : renamed[other]? with
      | none => rwa [hname, hname'] at hsame
      | some name =>
          rw [hname, hname', Option.getD_none, Option.getD_some] at hsame
          rcases h.fresh other name hname' with hfree | hrenamed
          · exact absurd (hsame ▸ hfree) hlabel
          · exact absurd (hsame ▸ hname) hrenamed
  | some name =>
      obtain ⟨i, old, new, _, hreplaces, rfl, hnew, rfl⟩ := h.replaced _ name hname
      cases hname' : renamed[other]? with
      | none =>
          rw [hname, hname', Option.getD_none, Option.getD_some] at hsame
          rcases h.fresh _ _ hname with hfree | hrenamed
          · exact absurd (hsame ▸ hfree) hother
          · exact absurd (hsame ▸ hname') hrenamed
      | some name' =>
          obtain ⟨j, old', new', _, hreplaces', rfl, hnew', rfl⟩ := h.replaced _ name' hname'
          rw [hname, hname', Option.getD_some, Option.getD_some] at hsame
          obtain rfl := h.posted.eq_of_auto hnew hreplaces.origin hnew' hsame.symm
          rw [Option.some.inj (hreplaces.symbol.symm.trans hreplaces'.symbol)]

end Retagging

/-! ### References -/

/-- What tagging makes of a workspace. -/
structure Retagged (survey : Survey) (w v : Workspace) : Prop where
  retitles : Retitles w.attributes v.attributes
  /-- What refers to what is as it was. -/
  graph : ∀ p q, PointsTo v p q ↔ PointsTo w p q
  /-- A format has the length, the order of bytes and the part of the label that it had, and without
  a label it is the same. -/
  formats : ∀ p format, (w.info p).format = some format → ∃ other, (v.info p).format = some other
    ∧ other.length = format.length ∧ (other.kind = .bigEndian ↔ format.kind = .bigEndian)
    ∧ other.label.map (·.part) = format.label.map (·.part) ∧ (format.label = none → other = format)
  unformatted : ∀ p, (w.info p).format = none → (v.info p).format = none
  /-- A label that is not generated stays; one that is stays generated, and has the address of the
  byte for its value unless it is as it was; and both are in the table. -/
  symbols : ∀ q symbol, (w.info q).symbol = some symbol → ∃ other, (v.info q).symbol = some other
    ∧ v.symbols.get? other.label = some (.label other)
    ∧ (symbol.origin ≠ .auto → other = symbol) ∧ other.origin = symbol.origin
    ∧ (other = symbol ∨ other.value = (w.info q).address)
    ∧ (symbol.value = (w.info q).address → other.value = symbol.value)
  unlabelled : ∀ q, (w.info q).symbol = none → (v.info q).symbol = none
  /-- Two bytes have one label if they had. -/
  distinct : ∀ q r s t s' t', (w.info q).symbol = some s → (w.info r).symbol = some t →
    (v.info q).symbol = some s' → (v.info r).symbol = some t' →
    (s'.label = t'.label ↔ s.label = t.label)
  entries : ∀ label entry, w.symbols.get? label = some entry → entry.symbol.origin ≠ .auto →
    v.symbols.get? label = some entry
  simple : survey.parameters.labelStyle = .simple → v = w
  /-- A generated label without tagged references stays. -/
  untagged : ∀ q symbol, (w.info q).symbol = some symbol →
    tagsOf survey w.attributes symbol.label = [] → (v.info q).symbol = some symbol
  /-- One with them is named for them, for all or for the strongest. -/
  tagged : survey.parameters.labelStyle ≠ .simple → ∀ q symbol other,
    (w.info q).symbol = some symbol → symbol.origin = .auto → (v.info q).symbol = some other →
    tagsOf survey w.attributes symbol.label ≠ [] →
    MadeFor (String.ofList
        ((if survey.parameters.labelStyle = .tagged then
            (tagsOf survey w.attributes symbol.label).take 1
          else tagsOf survey w.attributes symbol.label) ++ ['_']))
      (w.info q).address other.label

theorem Retagged.refl (survey : Survey) (hw : Linked w)
    (hstyle : survey.parameters.labelStyle = .simple) : Retagged survey w w :=
  ⟨.refl _, fun _ _ => Iff.rfl,
    fun _ format hformat => ⟨format, hformat, rfl, Iff.rfl, rfl, fun _ => rfl⟩, fun _ => id,
    fun q symbol hs => ⟨symbol, hs, hw.entry q symbol hs, fun _ => rfl, rfl, Or.inl rfl,
      fun _ => rfl⟩,
    fun _ => id, fun q r s t s' t' hs ht hs' ht' => by
      rw [Option.some.inj (hs.symm.trans hs'), Option.some.inj (ht.symm.trans ht')],
    fun _ _ he _ => he, fun _ => rfl, fun _ _ hs _ => hs, fun hne => absurd hstyle hne⟩

theorem tagStem_eq (references : References) {style : LabelStyle} (hstyle : style ≠ .simple) :
    tagStem references style
      = String.ofList ((if style = .tagged then references.tags.take 1 else references.tags)
        ++ ['_']) := by
  cases style with
  | simple => exact absurd rfl hstyle
  | tagged => rfl
  | fullyTagged => rfl

/-- All references are renamed, also those past the end, where there are none. -/
theorem renameReferences_all {renamed : Renaming}
    (h : renameReferences renamed (List.range u.attributes.size) u = v.done) :
    v.symbols = u.symbols ∧ (∀ i, v.info i = { u.info i with format := (v.info i).format })
      ∧ ∀ i, RefRenamed renamed (u.info i).format (v.info i).format := by
  obtain ⟨hsymbols, _, hbyte⟩ := renameReferences_spec _ _ List.nodup_range h
  refine ⟨hsymbols, fun i => (hbyte i).1, fun i => ?_⟩
  by_cases hi : i < u.attributes.size
  · exact (hbyte i).2.2 (List.mem_range.mpr hi)
  · have hblank : (u.info i).format = none := by
      rw [Workspace.info, Attributes.info_of_size_le (Nat.le_of_not_lt hi)]
      rfl
    rw [(hbyte i).2.1 fun hmem => hi (List.mem_range.mp hmem), hblank]
    exact ⟨rfl, rfl, fun _ => rfl, rfl⟩

/-- A format that is renamed is the same but for the name. -/
theorem RefRenamed.exists_format {renamed : Renaming} {format : Format} {other : Option Format}
    (h : RefRenamed renamed (some format) other) :
    ∃ new, other = some new ∧ new.length = format.length
      ∧ (new.kind = .bigEndian ↔ format.kind = .bigEndian)
      ∧ new.label.map (·.part) = format.label.map (·.part)
      ∧ (format.label = none → new = format) := by
  cases other with
  | none => cases h.length
  | some new =>
      have horder : (new.kind == .bigEndian) = (format.kind == .bigEndian) :=
        Option.some.inj h.order
      have hlabel : new.label = format.label.map (renameRef renamed) := h.label
      refine ⟨new, rfl, Option.some.inj h.length, ?_, ?_,
        fun hnone => Option.some.inj (h.plain hnone)⟩
      · rw [← beq_iff_eq, horder, beq_iff_eq]
      · rw [hlabel, Option.map_map]
        rfl

section Graph

variable {renamed : Renaming} (hw : Linked w) (hu : Retagging survey w [] renamed u)
variable (hsymbol : ∀ i, (v.info i).symbol = (u.info i).symbol)

include hw hu hsymbol

/-- **A reference is to the label of a byte afterwards exactly if it was before.** -/
theorem pointsTo_iff
    (hreferred : ∀ p, referredLabel? v.attributes p
      = (referredLabel? w.attributes p).map (renameRef renamed)) (p q : Nat) :
    PointsTo v p q ↔ PointsTo w p q := by
  constructor
  · rintro ⟨ref, symbol, href, hs, hlabel⟩
    rw [hreferred, Option.map_eq_some_iff] at href
    obtain ⟨first, hfirst, rfl⟩ := href
    rw [hsymbol] at hs
    cases hold : (w.info q).symbol with
    | none => cases hs.symm.trans (hu.bare q hold)
    | some old =>
        obtain ⟨other, hother, hname, _⟩ := hu.symbol_label hw.toPosted hold
        obtain rfl := Option.some.inj (hs.symm.trans hother)
        have hentry := hw.entry q old hold
        exact ⟨first, old, hfirst, hold, hu.injective (hw.known p first hfirst)
          (by rw [hentry]; exact Option.some_ne_none _) (hlabel.trans hname)⟩
  · rintro ⟨ref, symbol, href, hs, hlabel⟩
    obtain ⟨other, hother, hname, _⟩ := hu.symbol_label hw.toPosted hs
    refine ⟨renameRef renamed ref, other, by rw [hreferred, href]; rfl,
      (hsymbol q).trans hother, ?_⟩
    rw [hname, ← hlabel]
    rfl

theorem labels_eq_iff {q r : Nat} {s t s' t' : Symbol} (hs : (w.info q).symbol = some s)
    (ht : (w.info r).symbol = some t) (hs' : (v.info q).symbol = some s')
    (ht' : (v.info r).symbol = some t') : s'.label = t'.label ↔ s.label = t.label := by
  rw [hsymbol] at hs' ht'
  obtain ⟨other, hother, hname, _⟩ := hu.symbol_label hw.toPosted hs
  obtain ⟨another, hanother, hname', _⟩ := hu.symbol_label hw.toPosted ht
  obtain rfl := Option.some.inj (hs'.symm.trans hother)
  obtain rfl := Option.some.inj (ht'.symm.trans hanother)
  constructor
  · intro hlabel
    have hentry := hw.entry q s hs
    have hentry' := hw.entry r t ht
    exact hu.injective (by rw [hentry]; exact Option.some_ne_none _)
      (by rw [hentry']; exact Option.some_ne_none _) (hname.symm.trans (hlabel.trans hname'))
  · intro hlabel
    rw [hname, hname', hlabel]

omit hsymbol in
theorem get?_of_not_auto {label : String} {entry : Entry} (he : w.symbols.get? label = some entry)
    (hauto : entry.symbol.origin ≠ .auto) : u.symbols.get? label = some entry := by
  refine hu.stays label entry he ?_
  cases hname : renamed[label]? with
  | none => rfl
  | some name =>
      obtain ⟨i, old, _, _, hreplaces, rfl, _⟩ := hu.replaced label name hname
      obtain rfl := Option.some.inj (he.symm.trans (hw.entry i old hreplaces.symbol))
      exact absurd hreplaces.auto hauto

end Graph

/-- **Tags on generated labels keep what refers to what.**  Let references be to labels of the
table, and let every symbol on a byte be in the table, a generated one on that byte only.  When
tagging ends well, a byte refers to the label of another exactly if it did before; formats are as
they were but for the names of labels; labels that are not generated stay; bytes with different
labels still have different labels, which are in the table; and a generated label is made of the
tags of the references to it, all of them or the strongest as the style says, and the address. -/
theorem tagLabels_retagged (hw : Linked w) (h : tagLabels survey w = v.done) :
    Retagged survey w v := by
  rcases tagLabels_eq_done h with ⟨hstyle, rfl⟩ | ⟨hstyle, renamed, u, hrename, hreferences⟩
  · exact .refl survey hw hstyle
  have hu : Retagging survey w [] renamed u := renameFrom_run (P := Retagging survey w)
    (fun hunused hrun => hrun.skip hw.toPosted hunused)
    (fun hstep hrun => hrun.step hw.toPosted hstep) _ _ _ hrename (.start survey hw.toPosted)
  rw [← hu.size] at hreferences
  obtain ⟨hsymbols, hbyte, hformat⟩ := renameReferences_all hreferences
  have hsymbol : ∀ i, (v.info i).symbol = (u.info i).symbol := fun i => by rw [hbyte]
  have hsame : ∀ i, (u.info i).format = (w.info i).format := fun i => by rw [hu.byte]
  simp only [hsame] at hformat
  obtain ⟨hall, hrelabelled⟩ := tagLabels_relabelled h
  refine ⟨⟨hall, fun i => (hrelabelled i).retitled⟩,
    pointsTo_iff hw hu hsymbol fun p => (hformat p).label, fun p format hp => ?_,
    fun p hp => ?_, fun q symbol hs => ?_, fun q hnone => (hsymbol q).trans (hu.bare q hnone),
    fun q r s t s' t' => labels_eq_iff hw hu hsymbol, fun label entry he hauto => ?_,
    fun hsimple => absurd hsimple hstyle, fun q symbol hs hunused => ?_,
    fun _ q symbol other hs hauto hother hused => ?_⟩
  · exact (hp ▸ hformat p).exists_format
  · have hnone := (hformat p).plain
    rw [hp] at hnone
    exact hnone rfl
  · obtain ⟨other, hother, _, hnew⟩ := hu.symbol_label hw.toPosted hs
    refine ⟨other, (hsymbol q).trans hother,
      by rw [hsymbols]; exact hu.posted.entry q other hother, ?_⟩
    rcases hnew with ⟨_, rfl⟩ | hreplaces
    · exact ⟨fun _ => rfl, rfl, Or.inl rfl, fun _ => rfl⟩
    · exact ⟨fun hne => absurd hreplaces.auto hne, hreplaces.origin.trans hreplaces.auto.symm,
        Or.inr hreplaces.value, fun hvalue => hreplaces.value.trans hvalue.symm⟩
  · rw [hsymbols]
    exact get?_of_not_auto hw hu he hauto
  · obtain ⟨other, hother, _, ⟨_, rfl⟩ | hreplaces⟩ := hu.symbol_label hw.toPosted hs
    · exact (hsymbol q).trans hother
    · exact absurd hunused hreplaces.used
  · obtain ⟨new, hnew, _, ⟨hkept, _⟩ | hreplaces⟩ := hu.symbol_label hw.toPosted hs
    · exact absurd hkept (hu.all q symbol List.not_mem_nil hs hauto hused)
    · obtain rfl := Option.some.inj (((hsymbol q).symm.trans hother).symm.trans hnew)
      rw [← tags_gatherReferences, ← tagStem_eq _ hstyle]
      exact hreplaces.made

/-- A call and an address that refer to one generated label, and a label of the user that has the
name the generated one would get. -/
def calledAndListed : Workspace where
  attributes :=
    let refers : Format := ⟨2, .littleEndian, .symbol, some ⟨"L1005", .low⟩⟩
    #[{ Attribute.blank.mark .instructionStart with
          address := 0x1000, format := some { refers with length := 3 } },
      { Attribute.blank with address := 0x1001 }, { Attribute.blank with address := 0x1002 },
      { Attribute.blank with address := 0x1003, format := some refers },
      { Attribute.blank with address := 0x1004 },
      { Attribute.blank with
          address := 0x1005, symbol := some ⟨"L1005", 0x1005, .auto, .localOrGlobal, .plain⟩ },
      { Attribute.blank with
          address := 0x1006, symbol := some ⟨"SD_1005", 0x1006, .user, .localOrGlobal, .plain⟩ }]
  symbols := (SymbolTable.empty.insert
    (.label ⟨"L1005", 0x1005, .auto, .localOrGlobal, .plain⟩)).insert
    (.label ⟨"SD_1005", 0x1006, .user, .localOrGlobal, .plain⟩)

def calledAndListedSurvey : Survey where
  image := #[0x20, 0x05, 0x10, 0x05, 0x10, 0x60, 0x60]
  processor := ⟨.nmos6502, true, OpcodeTable.blank.overlay [Layer.op 0x20 .jsr .abs .call .keep]⟩
  map := ⟨[⟨0, 7, 0x1000⟩], 7⟩
  parameters := { Parameters.initial with labelStyle := .fullyTagged }
  comments := []

theorem calledAndListed_linked : Linked calledAndListed := by
  have hentry : ∀ q < 7, ∀ symbol ∈ (calledAndListed.info q).symbol,
      calledAndListed.symbols.get? symbol.label = some (.label symbol) := by decide +kernel
  have halone : ∀ q < 7, ∀ r < 7, ∀ symbol ∈ (calledAndListed.info q).symbol,
      (calledAndListed.info r).symbol = some symbol → r = q := by decide +kernel
  have hknown : ∀ p < 7, ∀ ref ∈ referredLabel? calledAndListed.attributes p,
      calledAndListed.symbols.get? ref.label ≠ none := by decide +kernel
  refine ⟨⟨fun q symbol hs => hentry q (lt_size_of_symbol hs) symbol hs,
    fun q r symbol hs _ ht =>
      halone q (lt_size_of_symbol hs) r (lt_size_of_symbol ht) symbol hs ht⟩,
    fun p ref href => ?_⟩
  obtain ⟨format, hformat, _⟩ := Option.bind_eq_some_iff.mp href
  exact hknown p (lt_size_of_format hformat) ref href

theorem tagLabels_retagged_calledAndListed :
    ∃ v, tagLabels calledAndListedSurvey calledAndListed = v.done
      ∧ PointsTo v 0 5 ∧ PointsTo v 3 5 ∧ ¬ PointsTo v 0 6
      ∧ ∃ other, (v.info 5).symbol = some other ∧ MadeFor "SD_" 0x1005 other.label := by
  obtain ⟨hfault, htags⟩ : (tagLabels calledAndListedSurvey calledAndListed).fault = none
      ∧ tagsOf calledAndListedSurvey calledAndListed.attributes "L1005" = ['S', 'D'] := by
    decide +kernel
  have hdone := eq_done_of_fault hfault
  have h := tagLabels_retagged calledAndListed_linked hdone
  obtain ⟨other, hother, _⟩ := h.symbols 5 ⟨"L1005", 0x1005, .auto, .localOrGlobal, .plain⟩ rfl
  have hstyle : calledAndListedSurvey.parameters.labelStyle ≠ .simple := LabelStyle.noConfusion
  have hs : (calledAndListed.info 5).symbol
      = some ⟨"L1005", 0x1005, .auto, .localOrGlobal, .plain⟩ := rfl
  have hname := h.tagged hstyle 5 _ other hs rfl hother (by rw [htags]; decide)
  rw [htags] at hname
  refine ⟨_, hdone, (h.graph 0 5).mpr ⟨⟨"L1005", .low⟩, _, rfl, rfl, rfl⟩,
    (h.graph 3 5).mpr ⟨⟨"L1005", .low⟩, _, rfl, rfl, rfl⟩, ?_, other, hother, hname⟩
  rw [h.graph]
  rintro ⟨ref, symbol, href, hs, hlabel⟩
  cases href
  cases hs
  revert hlabel
  decide

/-- References are to labels of the table, and a generated symbol stands on one byte and has a
generated name; but not every symbol on a byte need be in the table. -/
structure Referenced (w : Workspace) : Prop where
  known : ∀ p ref, referredLabel? w.attributes p = some ref → w.symbols.get? ref.label ≠ none
  alone : ∀ q r symbol, (w.info q).symbol = some symbol → symbol.origin = .auto →
    (w.info r).symbol = some symbol → r = q
  named : ∀ q symbol, (w.info q).symbol = some symbol → symbol.origin = .auto →
    MadeFor labelStem symbol.value symbol.label

theorem Referenced.of_lt
    (hknown : ∀ p < w.attributes.size, ∀ ref ∈ referredLabel? w.attributes p,
      w.symbols.get? ref.label ≠ none)
    (hauto : ∀ q < w.attributes.size, ∀ symbol ∈ (w.info q).symbol, symbol.origin = .auto →
      symbol.label = labelStem ++ upperHex 4 symbol.value
        ∧ ∀ r < w.attributes.size, (w.info r).symbol = some symbol → r = q) : Referenced w := by
  refine ⟨fun p ref href => ?_, fun q r symbol hs horigin ht => ?_, fun q symbol hs horigin => ?_⟩
  · obtain ⟨format, hformat, _⟩ := Option.bind_eq_some_iff.mp href
    exact hknown p (lt_size_of_format hformat) ref href
  · exact (hauto q (lt_size_of_symbol hs) symbol hs horigin).2 r (lt_size_of_symbol ht) ht
  · exact Or.inl (hauto q (lt_size_of_symbol hs) symbol hs horigin).1

/-- The call and the address again, with a table that does not have the label of the user. -/
def calledAndUnlisted : Workspace :=
  { calledAndListed with
    symbols := SymbolTable.empty.insert
      (.label ⟨"L1005", 0x1005, .auto, .localOrGlobal, .plain⟩) }

/-- A generated label that stands on a byte at another address than the one it is named for. -/
def misplaced : Workspace where
  attributes :=
    #[{ Attribute.blank with
          address := 0x1000, format := some ⟨2, .littleEndian, .symbol, some ⟨"L0042", .low⟩⟩ },
      { Attribute.blank with address := 0x1001 },
      { Attribute.blank with
          address := 0x1002, symbol := some ⟨"L0042", 0x42, .auto, .localOrGlobal, .plain⟩ }]
  symbols := SymbolTable.empty.insert (.label ⟨"L0042", 0x42, .auto, .localOrGlobal, .plain⟩)

theorem misplaced_linked : Referenced misplaced ∧ Linked misplaced := by
  have h : Referenced misplaced := .of_lt (by decide +kernel) (by decide +kernel)
  have hentry : ∀ q < 3, ∀ symbol ∈ (misplaced.info q).symbol,
      misplaced.symbols.get? symbol.label = some (.label symbol) := by decide +kernel
  exact ⟨h, ⟨⟨fun q symbol hs => hentry q (lt_size_of_symbol hs) symbol hs, h.alone⟩, h.known⟩⟩

/-- **Without the label of the user in the table, a reference may come to be to it as well; and a
generated label of another address takes the address of its byte.** -/
theorem tagLabels_astray :
    (∃ v : Workspace, Referenced calledAndUnlisted
      ∧ tagLabels calledAndListedSurvey calledAndUnlisted = v.done
      ∧ ¬ PointsTo calledAndUnlisted 0 6 ∧ PointsTo v 0 5 ∧ PointsTo v 0 6)
    ∧ ∃ v : Workspace, Referenced misplaced ∧ Linked misplaced
      ∧ tagLabels calledAndListedSurvey misplaced = v.done
      ∧ ∃ old new, (misplaced.info 2).symbol = some old ∧ (v.info 2).symbol = some new
        ∧ new.value ≠ old.value := by
  constructor
  · obtain ⟨hfault, href, hsymbol⟩ :
        (tagLabels calledAndListedSurvey calledAndUnlisted).fault = none
        ∧ (referredLabel? (tagLabels calledAndListedSurvey calledAndUnlisted).workspace.attributes
          0).map (·.label) = some "SD_1005"
        ∧ ∀ q ∈ [5, 6], ((tagLabels calledAndListedSurvey calledAndUnlisted).workspace.info
          q).symbol.map (·.label) = some "SD_1005" := by
      decide +kernel
    obtain ⟨ref, href, hlabel⟩ := Option.map_eq_some_iff.mp href
    have hpoints : ∀ q ∈ [5, 6],
        PointsTo (tagLabels calledAndListedSurvey calledAndUnlisted).workspace 0 q := by
      intro q hq
      obtain ⟨symbol, hs, hname⟩ := Option.map_eq_some_iff.mp (hsymbol q hq)
      exact ⟨ref, symbol, href, hs, hlabel.trans hname.symm⟩
    refine ⟨_, .of_lt (by decide +kernel) (by decide +kernel), eq_done_of_fault hfault, ?_,
      hpoints 5 (by decide), hpoints 6 (by decide)⟩
    rintro ⟨ref, symbol, href, hs, hlabel⟩
    cases href
    cases hs
    revert hlabel
    decide
  · obtain ⟨hfault, hvalue⟩ : (tagLabels calledAndListedSurvey misplaced).fault = none
        ∧ ((tagLabels calledAndListedSurvey misplaced).workspace.info 2).symbol.map (·.value)
          = some 0x1002 := by
      decide +kernel
    obtain ⟨new, hnew, hvalue⟩ := Option.map_eq_some_iff.mp hvalue
    refine ⟨_, misplaced_linked.1, misplaced_linked.2, eq_done_of_fault hfault, _, new, rfl, hnew,
      ?_⟩
    rw [hvalue]
    decide

end Disasm65.Data
