/-
The labels on bytes and the symbol table say the same.

`Labelled` ties the two together: the symbol of a byte is in the table and has the byte's address,
no label stands on two bytes, and every label in the table that belongs to the image stands on a
byte.  It is kept by the two things that ever happen to a label, namely that it comes
(`Labelled.insert`) or goes (`Labelled.erase`); a renaming is one after the other.

`Standing` adds where generated labels stand and that the user's labels stay, and `Titled` that no
reference is to a label that is not in the table.

Some of it does not depend on where labels stand, nor on the formats of bytes: `Listed` is the part
of `Labelled` that looks from bytes to the table only, and with it the user's labels stay whatever
the passes do (`Anchored`).
-/
import Mathlib
import Disasm65.Proofs.Data.AutoLabels
import Disasm65.Proofs.Data.Tiling

namespace Disasm65.Data

variable {survey : Survey} {w v : Workspace}

/-! ### Labels come and go -/

/-- The symbol of a byte is in the table, and no label is on two bytes. -/
structure Listed (w : Workspace) : Prop where
  entry : ∀ i s, (w.info i).symbol = some s → w.symbols.get? s.label = some (.label s)
  single : ∀ i j s t, (w.info i).symbol = some s → (w.info j).symbol = some t →
    s.label = t.label → i = j

namespace Listed

theorem congr (hw : Listed w) (hsymbols : v.symbols = w.symbols)
    (hsymbol : ∀ i, (v.info i).symbol = (w.info i).symbol) : Listed v := by
  refine ⟨fun i s hs => ?_, fun i j s t hs ht => ?_⟩
  · rw [hsymbols]
    exact hw.entry i s (hsymbol i ▸ hs)
  · exact hw.single i j s t (hsymbol i ▸ hs) (hsymbol j ▸ ht)

/-- A symbol whose label is free comes to a byte. -/
theorem insert (hw : Listed w) (place : Nat) {symbol : Symbol}
    (hfree : w.symbols.get? symbol.label = none)
    (hsymbols : v.symbols = w.symbols.insert (.label symbol))
    (hsymbol : ∀ i s, (v.info i).symbol = some s →
      i = place ∧ s = symbol ∨ (w.info i).symbol = some s) : Listed v := by
  have hother : ∀ i s, (w.info i).symbol = some s → symbol.label ≠ s.label := by
    intro i s hs heq
    rw [heq, hw.entry i s hs] at hfree
    cases hfree
  refine ⟨fun i s hs => ?_, fun i j s t hs ht hlabel => ?_⟩
  · rw [hsymbols, SymbolTable.get?_insert_label]
    rcases hsymbol i s hs with ⟨_, rfl⟩ | hs
    · rw [if_pos rfl]
    · rw [if_neg (hother i s hs)]
      exact hw.entry i s hs
  · rcases hsymbol i s hs with ⟨hi, rfl⟩ | hs <;> rcases hsymbol j t ht with ⟨hj, rfl⟩ | ht
    · rw [hi, hj]
    · exact absurd hlabel (hother j t ht)
    · exact absurd hlabel.symm (hother i s hs)
    · exact hw.single i j s t hs ht hlabel

/-- The symbol of a byte goes, and its label too. -/
theorem erase (hw : Listed w) {offset : Nat} {old : Symbol}
    (hold : (w.info offset).symbol = some old) (hsymbols : v.symbols = w.symbols.erase old.label)
    (hsymbol : ∀ i s, (v.info i).symbol = some s → i ≠ offset ∧ (w.info i).symbol = some s) :
    Listed v := by
  refine ⟨fun i s hs => ?_, fun i j s t hs ht => ?_⟩
  · obtain ⟨hi, hs⟩ := hsymbol i s hs
    rw [hsymbols, SymbolTable.get?_erase,
      if_neg fun heq => hi (hw.single i offset s old hs hold heq.symm)]
    exact hw.entry i s hs
  · exact hw.single i j s t (hsymbol i s hs).2 (hsymbol j t ht).2

end Listed

/-- The symbols of bytes and the labels of the table belong to each other. -/
structure Labelled (w : Workspace) : Prop where
  indexed : w.symbols.Indexed
  entry : ∀ i s, (w.info i).symbol = some s → w.symbols.get? s.label = some (.label s)
  value : ∀ i s, (w.info i).symbol = some s → s.value = (w.info i).address
  single : ∀ i j s t, (w.info i).symbol = some s → (w.info j).symbol = some t →
    s.label = t.label → i = j
  owned : ∀ label entry, w.symbols.get? label = some entry → entry.symbol.isInternal = true →
    ∃ i, (w.info i).symbol = some entry.symbol

namespace Labelled

theorem listed (hw : Labelled w) : Listed w := ⟨hw.entry, hw.single⟩

theorem congr (hw : Labelled w) (hsymbols : v.symbols = w.symbols)
    (hsymbol : ∀ i, (v.info i).symbol = (w.info i).symbol)
    (haddress : ∀ i, (v.info i).address = (w.info i).address) : Labelled v := by
  have hlisted := hw.listed.congr hsymbols hsymbol
  refine ⟨hsymbols ▸ hw.indexed, hlisted.entry, fun i s hs => ?_, hlisted.single,
    fun label entry hget hinternal => ?_⟩
  · rw [haddress]
    exact hw.value i s (hsymbol i ▸ hs)
  · obtain ⟨i, hi⟩ := hw.owned label entry (hsymbols ▸ hget) hinternal
    exact ⟨i, (hsymbol i).trans hi⟩

/-- A byte without a symbol gets one, whose label is free. -/
theorem insert (hw : Labelled w) {place : Nat} {symbol : Symbol}
    (hnone : (w.info place).symbol = none) (hvalue : symbol.value = (w.info place).address)
    (hfree : w.symbols.get? symbol.label = none)
    (hsymbols : v.symbols = w.symbols.insert (.label symbol))
    (hinfo : ∀ i, v.info i
      = { w.info i with symbol := if i = place then some symbol else (w.info i).symbol }) :
    Labelled v := by
  have hsymbol : ∀ i, (v.info i).symbol = if i = place then some symbol else (w.info i).symbol :=
    fun i => by rw [hinfo]
  have hlisted := hw.listed.insert (v := v) place hfree hsymbols fun i s hs => by
    rw [hsymbol] at hs
    split at hs
    · cases hs
      exact Or.inl ⟨‹_›, rfl⟩
    · exact Or.inr hs
  refine ⟨hsymbols ▸ SymbolTable.insert_indexed hw.indexed hfree, hlisted.entry, fun i s hs => ?_,
    hlisted.single, fun label entry hentry hinternal => ?_⟩
  · rw [hsymbol] at hs
    rw [hinfo]
    split at hs
    · rename_i hi
      cases hs
      rw [hi]
      exact hvalue
    · exact hw.value i s hs
  · rw [hsymbols, SymbolTable.get?_insert_label] at hentry
    split at hentry
    · cases hentry
      exact ⟨place, by rw [hsymbol, if_pos rfl]; rfl⟩
    · obtain ⟨i, hi⟩ := hw.owned label entry hentry hinternal
      refine ⟨i, ?_⟩
      rw [hsymbol, if_neg fun heq => ?_]
      · exact hi
      · rw [heq, hnone] at hi
        cases hi

/-- A byte loses its symbol, and the table the label. -/
theorem erase (hw : Labelled w) {offset : Nat} {old : Symbol}
    (hold : (w.info offset).symbol = some old) (hsymbols : v.symbols = w.symbols.erase old.label)
    (hinfo : ∀ i, v.info i
      = { w.info i with symbol := if i = offset then none else (w.info i).symbol }) :
    Labelled v := by
  have hsymbol : ∀ i, (v.info i).symbol = if i = offset then none else (w.info i).symbol :=
    fun i => by rw [hinfo]
  have hback : ∀ i s, (v.info i).symbol = some s →
      i ≠ offset ∧ (w.info i).symbol = some s := by
    intro i s hs
    rw [hsymbol] at hs
    split at hs
    · cases hs
    · exact ⟨‹_›, hs⟩
  have hlisted := hw.listed.erase hold hsymbols hback
  refine ⟨hsymbols ▸ SymbolTable.erase_indexed hw.indexed _, hlisted.entry, fun i s hs => ?_,
    hlisted.single, fun label entry hentry hinternal => ?_⟩
  · rw [hinfo]
    exact hw.value i s (hback i s hs).2
  · rw [hsymbols, SymbolTable.get?_erase] at hentry
    split at hentry
    · cases hentry
    · rename_i hne
      obtain ⟨i, hi⟩ := hw.owned label entry hentry hinternal
      refine ⟨i, ?_⟩
      rw [hsymbol, if_neg fun heq => ?_]
      · exact hi
      · -- the symbol of that byte is the one that goes, and the entry is under its own label
        rw [heq, hold, Option.some.injEq] at hi
        exact hne (by rw [hi]; exact hw.indexed.named label entry hentry)

end Labelled

/-! ### Generated labels, the user's labels and references -/

/-- The labels are in order, generated labels stand on their sites, and the user's labels are those
that were accepted. -/
structure Standing (accepted : List (Nat × Symbol)) (w : Workspace) : Prop where
  labelled : Labelled w
  placed : ∀ i s, (w.info i).symbol = some s →
    s.origin = .auto ∧ Site (w.info i) ∨ (i, s) ∈ accepted
  kept : ∀ i s, (i, s) ∈ accepted → (w.info i).symbol = some s

/-- The second byte has the place and the symbol of the first. -/
structure Stays (a b : Attribute) : Prop where
  symbol : b.symbol = a.symbol
  address : b.address = a.address
  site : Site a → Site b

theorem Standing.stays {accepted : List (Nat × Symbol)} (hw : Standing accepted w)
    (hsymbols : v.symbols = w.symbols) (h : ∀ i, Stays (w.info i) (v.info i)) :
    Standing accepted v := by
  refine ⟨hw.labelled.congr hsymbols (fun i => (h i).symbol) (fun i => (h i).address),
    fun i s hs => ?_, fun i s hs => (h i).symbol.trans (hw.kept i s hs)⟩
  rw [(h i).symbol] at hs
  exact (hw.placed i s hs).imp_left fun hauto => ⟨hauto.1, (h i).site hauto.2⟩

/-- Besides, no reference is to a label that is not in the table. -/
structure Titled (accepted : List (Nat × Symbol)) (w : Workspace) : Prop where
  standing : Standing accepted w
  known : ∀ i ref, referredLabel? w.attributes i = some ref → w.symbols.get? ref.label ≠ none

/-- Besides, the second byte refers to no other label. -/
structure Carries (a b : Attribute) : Prop where
  stays : Stays a b
  label : ∀ ref, b.format.bind (·.label) = some ref → a.format.bind (·.label) = some ref

theorem Carries.refl (a : Attribute) : Carries a a := ⟨⟨rfl, rfl, id⟩, fun _ => id⟩

theorem Carries.trans {a b c : Attribute} (h : Carries a b) (h' : Carries b c) : Carries a c :=
  ⟨⟨h'.stays.symbol.trans h.stays.symbol, h'.stays.address.trans h.stays.address,
    h'.stays.site ∘ h.stays.site⟩, fun ref href => h.label ref (h'.label ref href)⟩

theorem Formatted.carries {a b : Attribute} (h : Formatted a b) : Carries a b := by
  rcases h with rfl | ⟨format, hlabel, rfl⟩
  · exact .refl _
  · refine ⟨⟨rfl, rfl, id⟩, fun ref href => ?_⟩
    rw [Option.bind_some, hlabel] at href
    cases href

theorem Classed.carries {a b : Attribute} (h : Classed a b) : Carries a b := by
  cases h with
  | kept _ => exact .refl _
  | shown _ _ => exact ⟨⟨rfl, rfl, id⟩, fun ref href => by cases href⟩
  | data _ _ => exact ⟨⟨rfl, rfl, by simp [Site]⟩, fun _ => id⟩

theorem Titled.carries {accepted : List (Nat × Symbol)} (hw : Titled accepted w)
    (hsymbols : v.symbols = w.symbols) (h : ∀ i, Carries (w.info i) (v.info i)) :
    Titled accepted v := by
  refine ⟨hw.standing.stays hsymbols fun i => (h i).stays, fun i ref href => ?_⟩
  rw [hsymbols]
  exact hw.known i ref ((h i).label ref href)

section Passes

variable {accepted : List (Nat × Symbol)}

/-! ### Resolving -/

/-- The label that a place has or gets is in the table, and so are those that are referred to. -/
theorem ensureLabel_known {place : Nat} {label : String} (hw : Listed w)
    (hknown : ∀ i ref, referredLabel? w.attributes i = some ref → w.symbols.get? ref.label ≠ none)
    (h : ensureLabel w place = .ok (label, v)) :
    (∀ i ref, referredLabel? v.attributes i = some ref → v.symbols.get? ref.label ≠ none)
      ∧ v.symbols.get? label ≠ none := by
  have hformat := ensureLabel_format h
  rcases ensureLabel_eq_ok h with ⟨s, hs, rfl, rfl⟩ | ⟨s, _, rfl, _, rfl⟩
  · refine ⟨hknown, ?_⟩
    rw [hw.entry place s hs]
    exact Option.some_ne_none _
  · refine ⟨fun i ref href => ?_, ?_⟩
    · unfold referredLabel? at href
      rw [← Workspace.info, hformat] at href
      rw [SymbolTable.get?_insert_label]
      split
      · exact Option.some_ne_none _
      · exact hknown i ref href
    · rw [SymbolTable.get?_insert_label, if_pos rfl]
      exact Option.some_ne_none _

/-- A new reference is to a label of the table. -/
theorem referTo_known {source length target : Nat} (hw : Listed w)
    (hknown : ∀ i ref, referredLabel? w.attributes i = some ref → w.symbols.get? ref.label ≠ none)
    (h : referTo survey source length target w = v.done) :
    ∀ i ref, referredLabel? v.attributes i = some ref → v.symbols.get? ref.label ≠ none := by
  obtain ⟨label, u, format, hensure, hreference, rfl⟩ := referTo_eq_done h
  obtain ⟨hothers, hlabelled⟩ := ensureLabel_known hw hknown hensure
  have hlabel : format.label = some ⟨label, .low⟩ := by
    rw [(Format.reference_eq_ok hreference).2]
  intro i ref href
  unfold referredLabel? at href
  rw [← Workspace.info, info_workspace_update] at href
  split at href
  · rw [Option.bind_some, hlabel, Option.some.injEq] at href
    rw [← href]
    exact hlabelled
  · exact hothers i ref href

/-- When a place that can have a label has one, all labels are in order. -/
theorem ensureLabel_standing {place : Nat} {label : String} (hw : Standing accepted w)
    (hplace : (w.info place).symbol.isSome = true ∨ place < w.attributes.size ∧ Site (w.info place))
    (h : ensureLabel w place = .ok (label, v)) : Standing accepted v := by
  rcases ensureLabel_eq_ok h with ⟨_, _, _, rfl⟩ | ⟨s, hnone, _, ⟨_, hfree, hvalue, hauto⟩, rfl⟩
  · exact hw
  obtain ⟨hlt, hsite⟩ := hplace.resolve_left (by rw [hnone]; exact Bool.false_ne_true)
  have hinfo := Attributes.info_update_symbol hlt (some s)
  refine ⟨hw.labelled.insert hnone hvalue hfree rfl hinfo, fun i t ht => ?_, fun i t ht => ?_⟩
  · unfold Workspace.info at ht ⊢
    rw [hinfo] at ht ⊢
    dsimp only at ht
    split at ht
    · rename_i hi
      cases ht
      subst hi
      exact Or.inl ⟨hauto, hsite⟩
    · exact hw.placed i t ht
  · unfold Workspace.info
    rw [hinfo]
    dsimp only
    rw [if_neg fun hi => ?_]
    · exact hw.kept i t ht
    · rw [← hi, hw.kept i t ht] at hnone
      cases hnone

theorem refers_titled (hdrafted : ∀ i, Drafted (w.info i)) (houtlined : Outlined w.attributes)
    (hw : Titled accepted w) (h : Refers survey w v) : Titled accepted v := by
  cases h with
  | @operand source target _ _ _ htarget h =>
      refine ⟨?_, referTo_known hw.standing.labelled.listed hw.known h⟩
      obtain ⟨label, u, format, hensure, _, rfl⟩ := referTo_eq_done h
      have hlt := houtlined.targets source target htarget
      have hu := ensureLabel_standing hw.standing (labelPlace_site hdrafted houtlined hlt) hensure
      refine hu.stays rfl fun i => ?_
      rw [info_workspace_update]
      split <;> exact ⟨rfl, rfl, id⟩
  | item _ hstart hformat htarget _ =>
      rw [(hdrafted _).itemTarget? hstart hformat] at htarget
      cases htarget

/-- What holds of bytes and labels before operands are resolved holds after it. -/
theorem resolveTargets_titled (hdrafted : ∀ i, Drafted (w.info i))
    (houtlined : Outlined w.attributes) (hw : Titled accepted w)
    (h : resolveTargets survey w = v.done) : Titled accepted v := by
  have hrun := resolveFrom_refers _ _ _ h
  clear h
  have hall : (∀ i, Drafted (v.info i)) ∧ Outlined v.attributes ∧ Titled accepted v := by
    induction hrun with
    | refl => exact ⟨hdrafted, houtlined, hw⟩
    | tail _ hstep ih =>
        obtain ⟨hd, ho, ht⟩ := ih
        exact ⟨refers_drafted hd hstep, ho.retitles hstep.retitles, refers_titled hd ho ht hstep⟩
  exact hall.2.2

/-! ### Data -/

theorem formatUnclaimed_carries (h : formatUnclaimed survey w = v.done) (i : Nat) :
    Carries (w.info i) (v.info i) := by
  refine .trans ?_ ((formatUnclaimed_formats h).byte i).carries
  by_cases hi : i < w.attributes.size
  · exact (info_classBytes hi).carries
  · have hsame : (classBytes w.attributes).info i = w.attributes.info i := by
      rw [Attributes.info_of_size_le (Nat.le_of_not_lt hi),
        Attributes.info_of_size_le ((size_classBytes _).symm ▸ Nat.le_of_not_lt hi)]
    unfold Workspace.info
    rw [hsame]
    exact .refl _

theorem formatUnclaimed_titled (hw : Titled accepted w) (h : formatUnclaimed survey w = v.done) :
    Titled accepted v :=
  hw.carries (formatUnclaimed_formats h).symbols (formatUnclaimed_carries h)

/-! ### Renaming -/

theorem renames_labelled {offset : Nat} {old new : Symbol} (hw : Labelled w)
    (h : Renames offset old new w v) : Labelled v := by
  -- the old label goes, then the new one comes
  have hinfo := Attributes.info_update_symbol (lt_size_of_symbol h.symbol) none
  have herased : Labelled ⟨w.attributes.update offset fun a => { a with symbol := none },
      w.symbols.erase old.label⟩ := hw.erase h.symbol rfl hinfo
  have hnone : ((w.attributes.update offset fun a => { a with symbol := none }).info
      offset).symbol = none := by
    rw [hinfo]
    exact if_pos rfl
  have hvalue : new.value = ((w.attributes.update offset fun a => { a with symbol := none }).info
      offset).address := by
    rw [hinfo]
    exact h.value
  refine herased.insert hnone hvalue h.free (by rw [h.result]) fun i => ?_
  unfold Workspace.info
  rw [hinfo, ← Workspace.info, h.info]
  dsimp only
  split <;> rfl

/-- A label of the user is not renamed. -/
theorem Renames.ne_of_user {offset i : Nat} {old new s : Symbol} (h : Renames offset old new w v)
    (hs : (w.info i).symbol = some s) (huser : s.origin = .user) : i ≠ offset := by
  intro hi
  rw [hi, h.symbol, Option.some.injEq] at hs
  have hauto := h.auto
  rw [hs, huser] at hauto
  cases hauto

theorem renames_standing (huser : ∀ entry ∈ accepted, entry.2.origin = .user) {offset : Nat}
    {old new : Symbol} (hw : Standing accepted w) (h : Renames offset old new w v) :
    Standing accepted v := by
  have huserless : ∀ i s, (i, s) ∈ accepted → i ≠ offset :=
    fun i s hs => h.ne_of_user (hw.kept i s hs) (huser _ hs)
  refine ⟨renames_labelled hw.labelled h, fun i s hs => ?_, fun i s hs => ?_⟩
  · rw [h.info] at hs ⊢
    dsimp only at hs
    split at hs
    · rename_i hi
      cases hs
      subst hi
      rcases hw.placed i old h.symbol with hauto | hmem
      · exact Or.inl ⟨h.origin, hauto.2⟩
      · exact absurd rfl (huserless i old hmem)
    · exact hw.placed i s hs
  · rw [h.info, if_neg (huserless i s hs)]
    exact hw.kept i s hs

/-- Renamings under way: the offsets still to come are distinct, and every label that was in the
table at first is in it now under its new name, which stands on a byte that will not be renamed. -/
structure Renaming.Keeps (accepted : List (Nat × Symbol)) (first : Workspace)
    (offsets : List Nat) (renamed : Renaming) (w : Workspace) : Prop where
  nodup : offsets.Nodup
  standing : Standing accepted w
  format : ∀ i, (w.info i).format = (first.info i).format
  image : ∀ label : String, first.symbols.get? label ≠ none →
    w.symbols.get? (renamed[label]?.getD label) ≠ none
  settled : ∀ label name : String, renamed[label]? = some name →
    ∃ j s, j ∉ offsets ∧ (w.info j).symbol = some s ∧ s.label = name

theorem Renaming.Keeps.skip {first : Workspace} {offset : Nat} {others : List Nat}
    {renamed : Renaming} (h : Renaming.Keeps accepted first (offset :: others) renamed w) :
    Renaming.Keeps accepted first others renamed w := by
  refine ⟨(List.nodup_cons.mp h.nodup).2, h.standing, h.format, h.image, fun label name hname => ?_⟩
  obtain ⟨j, s, hj, hs⟩ := h.settled label name hname
  exact ⟨j, s, fun hmem => hj (List.mem_cons_of_mem _ hmem), hs⟩

theorem renames_keeps (huser : ∀ entry ∈ accepted, entry.2.origin = .user) {first : Workspace}
    {offset : Nat} {others : List Nat} {renamed : Renaming} {old new : Symbol}
    (h : Renames offset old new w v)
    (hw : Renaming.Keeps accepted first (offset :: others) renamed w) :
    Renaming.Keeps accepted first others (renamed.insert old.label new.label) v := by
  obtain ⟨hoffset, hothers⟩ := List.nodup_cons.mp hw.nodup
  have hget : ∀ label, old.label ≠ label → w.symbols.get? label ≠ none →
      v.symbols.get? label ≠ none := by
    intro label hne hsome
    rw [h.result, SymbolTable.get?_insert_label]
    split
    · exact Option.some_ne_none _
    · rwa [SymbolTable.get?_erase, if_neg hne]
  have hinsert := renamed.getElem?_insert old.label new.label
  refine ⟨hothers, renames_standing huser hw.standing h, fun i => ?_, fun label hlabel => ?_,
    fun label name hname => ?_⟩
  · rw [h.info]
    exact hw.format i
  · rw [hinsert]
    split
    · rw [Option.getD_some, h.result, SymbolTable.get?_insert_label, if_pos rfl]
      exact Option.some_ne_none _
    · rename_i hne
      refine hget _ (fun heq => ?_) (hw.image label hlabel)
      -- a new name stands on another byte than the one that is renamed now
      cases hr : renamed[label]? with
      | none =>
          rw [hr, Option.getD_none] at heq
          exact hne heq
      | some name =>
          obtain ⟨j, s, hj, hs, hname⟩ := hw.settled label name hr
          rw [hr, Option.getD_some, ← hname] at heq
          have hsame := hw.standing.labelled.single offset j old s h.symbol hs heq
          exact hj (hsame ▸ List.mem_cons_self)
  · rw [hinsert] at hname
    split at hname
    · cases hname
      exact ⟨offset, new, hoffset, by rw [h.info, if_pos rfl], rfl⟩
    · obtain ⟨j, s, hj, hs, hlabel⟩ := hw.settled label name hname
      rw [List.mem_cons, not_or] at hj
      exact ⟨j, s, hj.2, by rw [h.info, if_neg hj.1]; exact hs, hlabel⟩

theorem tagLabels_titled (huser : ∀ entry ∈ accepted, entry.2.origin = .user)
    (hw : Titled accepted w) (h : tagLabels survey w = v.done) : Titled accepted v := by
  rcases tagLabels_eq_done h with ⟨_, rfl⟩ | ⟨_, renamed, u, hrename, hreferences⟩
  · exact hw
  have hstart : Renaming.Keeps accepted w (List.range w.attributes.size) ∅ w :=
    ⟨List.nodup_range, hw.standing, fun _ => rfl,
      fun label hlabel => by rwa [Std.TreeMap.getElem?_emptyc, Option.getD_none],
      fun label name hname => by rw [Std.TreeMap.getElem?_emptyc] at hname; cases hname⟩
  have hu := renameFrom_preserves (P := Renaming.Keeps accepted w) Renaming.Keeps.skip
    (renames_keeps huser) _ _ _ hrename hstart
  obtain ⟨hsymbols, _, hbyte⟩ := renameReferences_spec _ _ List.nodup_range hreferences
  refine ⟨hu.standing.stays hsymbols fun i => ?_, fun i ref href => ?_⟩
  · rw [(hbyte i).1]
    exact ⟨rfl, rfl, id⟩
  · have hi : i ∈ List.range w.attributes.size := by
      obtain ⟨format, hformat, _⟩ := Option.bind_eq_some_iff.mp href
      rw [List.mem_range, ← (tagLabels_relabelled h).1]
      exact lt_size_of_format hformat
    have hlabel := ((hbyte i).2.2 hi).label
    unfold referredLabel? at href
    rw [← Workspace.info, hlabel, hu.format, Option.map_eq_some_iff] at href
    obtain ⟨first, hfirst, rfl⟩ := href
    rw [hsymbols]
    exact hu.image first.label (hw.known i first hfirst)

/-! ### The user's labels stay -/

/-- The accepted labels are on their bytes, and the symbols of bytes in the table. -/
structure Anchored (accepted : List (Nat × Symbol)) (w : Workspace) : Prop where
  listed : Listed w
  kept : ∀ i s, (i, s) ∈ accepted → (w.info i).symbol = some s

theorem Anchored.congr (hw : Anchored accepted w) (hsymbols : v.symbols = w.symbols)
    (hsymbol : ∀ i, (v.info i).symbol = (w.info i).symbol) : Anchored accepted v :=
  ⟨hw.listed.congr hsymbols hsymbol, fun i s hs => (hsymbol i).trans (hw.kept i s hs)⟩

theorem ensureLabel_anchored {place : Nat} {label : String} (hw : Anchored accepted w)
    (h : ensureLabel w place = .ok (label, v)) : Anchored accepted v := by
  rcases ensureLabel_eq_ok h with ⟨s, _, _, rfl⟩ | ⟨symbol, hnone, _, ⟨_, hfree, _, _⟩, rfl⟩
  · exact hw
  have hinfo := Attributes.info_update w.attributes place
    fun a => { a with symbol := some symbol }
  refine ⟨hw.listed.insert place hfree rfl fun i s hs => ?_, fun i s hs => ?_⟩
  · unfold Workspace.info at hs
    dsimp only at hs
    rw [hinfo] at hs
    split at hs
    · rename_i hi
      cases hs
      exact Or.inl ⟨hi.1.symm, rfl⟩
    · exact Or.inr hs
  · unfold Workspace.info
    dsimp only
    rw [hinfo, if_neg fun hi => ?_]
    · exact hw.kept i s hs
    · rw [hi.1, hw.kept i s hs] at hnone
      cases hnone

theorem referTo_anchored {source length target : Nat} (hw : Anchored accepted w)
    (h : referTo survey source length target w = v.done) : Anchored accepted v := by
  obtain ⟨label, u, format, hensure, _, rfl⟩ := referTo_eq_done h
  refine (ensureLabel_anchored hw hensure).congr rfl fun i => ?_
  rw [info_workspace_update]
  split <;> rfl

theorem resolveTargets_anchored (hw : Anchored accepted w)
    (h : resolveTargets survey w = v.done) : Anchored accepted v := by
  have hrun := resolveFrom_refers _ _ _ h
  clear h
  induction hrun with
  | refl => exact hw
  | tail _ hstep ih =>
      cases hstep with
      | operand _ _ _ _ h => exact referTo_anchored ih h
      | item _ _ _ _ h => exact referTo_anchored ih h

theorem formatUnclaimed_anchored (hw : Anchored accepted w)
    (h : formatUnclaimed survey w = v.done) : Anchored accepted v :=
  hw.congr (formatUnclaimed_formats h).symbols fun i => (formatUnclaimed_carries h i).stays.symbol

theorem renames_anchored (huser : ∀ entry ∈ accepted, entry.2.origin = .user) {offset : Nat}
    {old new : Symbol} (hw : Anchored accepted w) (h : Renames offset old new w v) :
    Anchored accepted v := by
  -- the old label goes, then the new one comes
  have hinfo := Attributes.info_update_symbol (lt_size_of_symbol h.symbol) none
  have herased : Listed ⟨w.attributes.update offset fun a => { a with symbol := none },
      w.symbols.erase old.label⟩ := by
    refine hw.listed.erase h.symbol rfl fun i s hs => ?_
    unfold Workspace.info at hs
    dsimp only at hs
    rw [hinfo] at hs
    dsimp only at hs
    split at hs
    · cases hs
    · exact ⟨‹_›, hs⟩
  refine ⟨herased.insert offset h.free (by rw [h.result]) fun i s hs => ?_,
    fun i s hs => ?_⟩
  · rw [h.info] at hs
    dsimp only at hs
    unfold Workspace.info
    dsimp only
    rw [hinfo]
    dsimp only
    split at hs
    · cases hs
      exact Or.inl ⟨‹_›, rfl⟩
    · rename_i hi
      rw [if_neg hi]
      exact Or.inr hs
  · rw [h.info, if_neg (h.ne_of_user (hw.kept i s hs) (huser _ hs))]
    exact hw.kept i s hs

theorem tagLabels_anchored (huser : ∀ entry ∈ accepted, entry.2.origin = .user)
    (hw : Anchored accepted w) (h : tagLabels survey w = v.done) : Anchored accepted v := by
  rcases tagLabels_eq_done h with ⟨_, rfl⟩ | ⟨_, renamed, u, hrename, hreferences⟩
  · exact hw
  have hu := renameFrom_preserves (P := fun _ _ w => Anchored accepted w) (fun hw => hw)
    (fun h hw => renames_anchored huser hw h) _ _ _ hrename hw
  obtain ⟨hsymbols, _, hbyte⟩ := renameReferences_spec _ _ List.nodup_range hreferences
  exact hu.congr hsymbols fun i => by rw [(hbyte i).1]

end Passes

end Disasm65.Data
