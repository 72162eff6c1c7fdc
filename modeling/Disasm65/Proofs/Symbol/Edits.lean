/-
The tables that additions, replacements and removals make.

`Indexed` is what every such table has: the label of an entry is its key, the entries of a value
are listed in their order, and the address indexes are those of the entries under the labels.  All
of it is said of the label map alone, so an index can never remember an entry that is gone or miss
one that has come back into view.
-/
import Mathlib
import Disasm65.Proofs.Symbol.Index

namespace Disasm65.SymbolTable

instance : Membership Entry SymbolTable :=
  ⟨fun table entry => table.get? entry.name = some entry⟩

theorem mem_iff {table : SymbolTable} {entry : Entry} :
    entry ∈ table ↔ table.get? entry.name = some entry :=
  Iff.rfl

/-- Every entry stands under its own label. -/
def Named (table : SymbolTable) : Prop :=
  ∀ label entry, table.get? label = some entry → entry.name = label

/-- Two entries of a table with one label are the same. -/
theorem eq_of_name_eq {table : SymbolTable} {x y : Entry} (hx : x ∈ table) (hy : y ∈ table)
    (h : x.name = y.name) : x = y := by
  rw [mem_iff, h, mem_iff.mp hy] at hx
  exact (Option.some.inj hx).symm

/-- The entries listed are the entries under the labels. -/
theorem mem_entries {table : SymbolTable} (hnamed : table.Named) {entry : Entry} :
    entry ∈ table.entries ↔ entry ∈ table := by
  rw [entries, List.mem_map, mem_iff]
  constructor
  · rintro ⟨⟨label, x⟩, hx, rfl⟩
    have hget : table.get? label = some x := Std.TreeMap.mem_toList_iff_getElem?_eq_some.mp hx
    rw [hnamed label x hget]
    exact hget
  · intro h
    exact ⟨(entry.name, entry), Std.TreeMap.mem_toList_iff_getElem?_eq_some.mpr h, rfl⟩

/-! ### What the parts of an operation leave alone -/

theorem claimAddresses_byLabel (table : SymbolTable) (entry : Entry) :
    (table.claimAddresses entry).byLabel = table.byLabel := by
  unfold claimAddresses
  split
  · rfl
  · split <;> rfl

theorem claimAddresses_byValue (table : SymbolTable) (entry : Entry) :
    (table.claimAddresses entry).byValue = table.byValue := by
  unfold claimAddresses
  split
  · rfl
  · split <;> rfl

theorem foldl_claimAddresses_byLabel :
    ∀ (entries : List Entry) (table : SymbolTable),
      (entries.foldl claimAddresses table).byLabel = table.byLabel := by
  intro entries
  induction entries with
  | nil => intro table; rfl
  | cons entry rest ih =>
      intro table
      rw [List.foldl_cons, ih, claimAddresses_byLabel]

theorem foldl_claimAddresses_byValue :
    ∀ (entries : List Entry) (table : SymbolTable),
      (entries.foldl claimAddresses table).byValue = table.byValue := by
  intro entries
  induction entries with
  | nil => intro table; rfl
  | cons entry rest ih =>
      intro table
      rw [List.foldl_cons, ih, claimAddresses_byValue]

theorem rebuild_byLabel (table : SymbolTable) : table.rebuild.byLabel = table.byLabel :=
  foldl_claimAddresses_byLabel table.entries _

theorem rebuild_byValue (table : SymbolTable) : table.rebuild.byValue = table.byValue :=
  foldl_claimAddresses_byValue table.entries _

/-- A rebuild makes the indexes those of the entries of the table. -/
theorem rebuild_indexes {table : SymbolTable} (hnamed : table.Named) :
    Indexes {entry | entry ∈ table} table.rebuild := by
  have hempty : Indexes ∅ { table with readers := ∅, writers := ∅, masked := [] } := by
    refine ⟨fun a => ?_, fun a => ?_, fun entry => by simp⟩
    · rw [Set.empty_inter, Std.TreeMap.getElem?_emptyc]
      rfl
    · rw [Set.empty_inter, Std.TreeMap.getElem?_emptyc]
      rfl
  have hall := Indexes.foldl_claimAddresses table.entries hempty fun x y hx hy hname => by
    rcases hx with hx | hx
    · exact absurd hx (Set.notMem_empty x)
    · exact eq_of_name_eq ((mem_entries hnamed).mp hx) ((mem_entries hnamed).mp hy) hname
  have hset : ∅ ∪ {entry | entry ∈ table.entries} = {entry | entry ∈ table} := by
    rw [Set.empty_union]
    ext entry
    exact mem_entries hnamed
  rw [hset] at hall
  exact hall

/-! ### The entries of one value -/

/-- The list of a value holds the entries with that value, in their order. -/
structure ListsValues (S : Set Entry) (byValue : Std.TreeMap Nat (List Entry)) : Prop where
  listed : ∀ value entry, entry ∈ byValue.getD value [] ↔ entry ∈ S ∧ entry.value = value
  sorted : ∀ value, (byValue.getD value []).Pairwise fun a b => valueBefore a b = true

theorem mem_insertByValue {entry x : Entry} {others : List Entry} :
    x ∈ insertByValue entry others ↔ x = entry ∨ x ∈ others := by
  unfold insertByValue
  have hsplit : x ∈ others ↔ x ∈ others.takeWhile (valueBefore · entry)
      ∨ x ∈ others.dropWhile (valueBefore · entry) := by
    rw [← List.mem_append, List.takeWhile_append_dropWhile]
  rw [List.mem_append, List.mem_cons, hsplit]
  tauto

/-- Putting an entry in its place keeps the order. -/
theorem pairwise_insertByValue {entry : Entry} {others : List Entry}
    (hsorted : others.Pairwise fun a b => valueBefore a b = true)
    (hfree : ∀ x ∈ others, x.name ≠ entry.name) :
    (insertByValue entry others).Pairwise fun a b => valueBefore a b = true := by
  have hbefore : ∀ x ∈ others.takeWhile (valueBefore · entry), valueBefore x entry = true :=
    fun x hx => @List.mem_takeWhile_imp _ (valueBefore · entry) others x hx
  have hsub : others.dropWhile (valueBefore · entry) <:+ others := List.dropWhile_suffix _
  have hdrop : (others.dropWhile (valueBefore · entry)).Pairwise
      fun a b => valueBefore a b = true := hsorted.sublist hsub.sublist
  -- The first entry that is kept behind is not before the new one, and the rest follow it.
  have hafter : ∀ x ∈ others.dropWhile (valueBefore · entry), valueBefore entry x = true := by
    cases hd : others.dropWhile (valueBefore · entry) with
    | nil => intro x hx; exact absurd hx List.not_mem_nil
    | cons first rest =>
        have hfirst : valueBefore first entry = false := by
          have hne : others.dropWhile (valueBefore · entry) ≠ [] := by rw [hd]; simp
          have hnot := List.head_dropWhile_not (valueBefore · entry) hne
          simpa [hd] using hnot
        have hmem : first ∈ others := hsub.subset (by rw [hd]; exact List.mem_cons_self)
        have hlt : valueBefore entry first = true :=
          valueBefore_of_not_valueBefore (hfree first hmem) hfirst
        intro x hx
        rw [hd] at hdrop
        rcases List.mem_cons.mp hx with rfl | hx
        · exact hlt
        · exact valueBefore_trans hlt ((List.pairwise_cons.mp hdrop).1 x hx)
  unfold insertByValue
  refine List.pairwise_append.mpr ⟨hsorted.sublist (List.takeWhile_sublist _),
    List.pairwise_cons.mpr ⟨hafter, hdrop⟩, fun a ha b hb => ?_⟩
  rcases List.mem_cons.mp hb with rfl | hb
  · exact hbefore a ha
  · exact valueBefore_trans (hbefore a ha) (hafter b hb)

theorem insert_listsValues {S : Set Entry} {byValue : Std.TreeMap Nat (List Entry)}
    {entry : Entry} (h : ListsValues S byValue) (hfree : ∀ x ∈ S, x.name ≠ entry.name) :
    ListsValues (S ∪ {entry})
      (byValue.insert entry.value (insertByValue entry (byValue.getD entry.value []))) := by
  refine ⟨fun value x => ?_, fun value => ?_⟩
  · rw [Std.TreeMap.getD_insert]
    by_cases hv : entry.value = value
    · rw [if_pos (Std.LawfulEqCmp.compare_eq_iff_eq.mpr hv), mem_insertByValue, h.listed, hv]
      constructor
      · rintro (rfl | ⟨hx, hxv⟩)
        · exact ⟨Or.inr rfl, hv⟩
        · exact ⟨Or.inl hx, hxv⟩
      · rintro ⟨hx | rfl, hxv⟩
        · exact Or.inr ⟨hx, hxv⟩
        · exact Or.inl rfl
    · rw [if_neg fun hc => hv (Std.LawfulEqCmp.eq_of_compare hc), h.listed]
      constructor
      · rintro ⟨hx, hxv⟩
        exact ⟨Or.inl hx, hxv⟩
      · rintro ⟨hx | rfl, hxv⟩
        · exact ⟨hx, hxv⟩
        · exact absurd hxv hv
  · rw [Std.TreeMap.getD_insert]
    by_cases hv : compare entry.value value = .eq
    · rw [if_pos hv]
      exact pairwise_insertByValue (h.sorted entry.value)
        fun x hx => hfree x ((h.listed entry.value x).mp hx).1
    · rw [if_neg hv]
      exact h.sorted value

/-- The lists of values once the entries labelled like `entry` are taken from its list. -/
def withdrawValue (byValue : Std.TreeMap Nat (List Entry)) (entry : Entry) (label : String) :
    Std.TreeMap Nat (List Entry) :=
  let others := (byValue.getD entry.value []).filter (·.name != label)
  if others.isEmpty then byValue.erase entry.value else byValue.insert entry.value others

theorem withdrawValue_getD (byValue : Std.TreeMap Nat (List Entry)) (entry : Entry)
    (label : String) (value : Nat) :
    (withdrawValue byValue entry label).getD value []
      = if entry.value = value then (byValue.getD value []).filter (·.name != label)
        else byValue.getD value [] := by
  unfold withdrawValue
  by_cases hv : entry.value = value
  · have hcmp : compare entry.value value = .eq := Std.LawfulEqCmp.compare_eq_iff_eq.mpr hv
    rw [if_pos hv, ← hv]
    simp only
    split
    · rename_i hempty
      rw [Std.TreeMap.getD_erase_self]
      exact (List.isEmpty_iff.mp hempty).symm
    · rw [Std.TreeMap.getD_insert_self]
  · have hcmp : ¬ compare entry.value value = .eq :=
      fun hc => hv (Std.LawfulEqCmp.eq_of_compare hc)
    rw [if_neg hv]
    simp only
    split
    · rw [Std.TreeMap.getD_erase, if_neg hcmp]
    · rw [Std.TreeMap.getD_insert, if_neg hcmp]

theorem withdraw_listsValues {S : Set Entry} {byValue : Std.TreeMap Nat (List Entry)}
    {entry : Entry} (h : ListsValues S byValue) (hfree : NameFree S entry) :
    ListsValues (S \ {entry}) (withdrawValue byValue entry entry.name) := by
  refine ⟨fun value x => ?_, fun value => ?_⟩
  · rw [withdrawValue_getD]
    by_cases hv : entry.value = value
    · rw [if_pos hv, List.mem_filter, h.listed, bne_iff_ne]
      constructor
      · rintro ⟨⟨hx, hxv⟩, hne⟩
        exact ⟨⟨hx, fun hc => hne (congrArg Entry.name hc)⟩, hxv⟩
      · rintro ⟨⟨hx, hne⟩, hxv⟩
        exact ⟨⟨hx, hxv⟩, fun hc => hne (hfree x hx hc)⟩
    · rw [if_neg hv, h.listed]
      constructor
      · rintro ⟨hx, hxv⟩
        refine ⟨⟨hx, fun hc => hv ?_⟩, hxv⟩
        rw [← hxv]
        exact (congrArg Entry.value hc).symm
      · rintro ⟨⟨hx, -⟩, hxv⟩
        exact ⟨hx, hxv⟩
  · rw [withdrawValue_getD]
    by_cases hv : entry.value = value
    · rw [if_pos hv]
      exact (h.sorted value).filter _
    · rw [if_neg hv]
      exact h.sorted value

/-! ### Every operation keeps the indexes -/

/-- **The indexes of a table follow its labels.** -/
structure Indexed (table : SymbolTable) : Prop where
  named : table.Named
  values : ListsValues {entry | entry ∈ table} table.byValue
  indexes : Indexes {entry | entry ∈ table} table

theorem get?_empty (label : String) : empty.get? label = none :=
  Std.TreeMap.getElem?_emptyc

theorem empty_indexed (serial : Nat) : Indexed { empty with serial := serial } := by
  have hset : {entry | entry ∈ ({ empty with serial := serial } : SymbolTable)} = ∅ := by
    refine Set.eq_empty_of_forall_notMem fun entry hentry => ?_
    have hget : empty.get? entry.name = some entry := hentry
    rw [get?_empty] at hget
    cases hget
  refine ⟨fun label entry h => ?_, ?_, ?_⟩
  · have hget : empty.get? label = some entry := h
    rw [get?_empty] at hget
    cases hget
  · rw [hset]
    refine ⟨fun value entry => ?_, fun value => ?_⟩
    · show entry ∈ (∅ : Std.TreeMap Nat (List Entry)).getD value [] ↔ _
      rw [Std.TreeMap.getD_emptyc]
      simp
    · show ((∅ : Std.TreeMap Nat (List Entry)).getD value []).Pairwise _
      rw [Std.TreeMap.getD_emptyc]
      exact List.Pairwise.nil
  · rw [hset]
    refine ⟨fun a => ?_, fun a => ?_, fun entry => by simp [empty]⟩
    · show IsFirst _ _ (∅ : ClaimIndex)[a]?
      rw [Set.empty_inter, Std.TreeMap.getElem?_emptyc]
      rfl
    · show IsFirst _ _ (∅ : ClaimIndex)[a]?
      rw [Set.empty_inter, Std.TreeMap.getElem?_emptyc]
      rfl

theorem get?_insert (table : SymbolTable) (entry : Entry) (label : String) :
    (table.insert entry).get? label
      = if entry.name = label then some entry else table.get? label := by
  unfold get? insert
  rw [claimAddresses_byLabel, Std.TreeMap.getElem?_insert]
  by_cases hl : entry.name = label
  · rw [if_pos hl, if_pos (Std.LawfulEqCmp.compare_eq_iff_eq.mpr hl)]
  · rw [if_neg hl, if_neg fun hc => hl (Std.LawfulEqCmp.eq_of_compare hc)]

/-- Entering an entry whose label is free keeps the indexes. -/
theorem insert_indexed {table : SymbolTable} {entry : Entry} (h : table.Indexed)
    (hfree : table.get? entry.name = none) : (table.insert entry).Indexed := by
  have hother : ∀ x ∈ {x | x ∈ table}, x.name ≠ entry.name := by
    intro x hx hname
    rw [Set.mem_ofPred_eq, mem_iff, hname, hfree] at hx
    cases hx
  have hset : {x | x ∈ table.insert entry} = {x | x ∈ table} ∪ {entry} := by
    ext x
    rw [Set.mem_ofPred_eq, mem_iff, get?_insert]
    by_cases hname : entry.name = x.name
    · rw [if_pos hname]
      constructor
      · intro hx
        exact Or.inr (Option.some.inj hx).symm
      · rintro (hx | hx)
        · exact absurd hname.symm (hother x hx)
        · rw [hx]
    · rw [if_neg hname]
      constructor
      · intro hx
        exact Or.inl hx
      · rintro (hx | hx)
        · exact hx
        · exact absurd (congrArg Entry.name hx).symm hname
  refine ⟨fun label x hx => ?_, ?_, ?_⟩
  · rw [get?_insert] at hx
    by_cases hname : entry.name = label
    · rw [if_pos hname] at hx
      rw [← Option.some.inj hx]
      exact hname
    · rw [if_neg hname] at hx
      exact h.named label x hx
  · rw [hset]
    unfold insert
    rw [claimAddresses_byValue]
    exact insert_listsValues h.values hother
  · rw [hset, Set.union_singleton]
    unfold insert
    refine Indexes.claimAddresses ⟨h.indexes.readers, h.indexes.writers, h.indexes.masked⟩ ?_
    intro x hx hname
    exact absurd hname (hother x hx)

/-! ### Removing an entry -/

/-- The table without the label, its address indexes as they were. -/
def forget (table : SymbolTable) (entry : Entry) (label : String) : SymbolTable :=
  { table with
    byLabel := table.byLabel.erase label
    byValue := withdrawValue table.byValue entry label
    serial := table.serial + 1 }

/-- The table with the claims of the label withdrawn at one address. -/
def withdraw (table : SymbolTable) (address : Nat) (label : String) : SymbolTable :=
  { table with
    readers := if holds table.readers address label then table.readers.erase address
      else table.readers
    writers := if holds table.writers address label then table.writers.erase address
      else table.writers }

theorem erase_of_none {table : SymbolTable} {label : String} (h : table.get? label = none) :
    table.erase label = table := by
  unfold erase
  rw [h]

/-- A removal forgets the label and then withdraws the claims, at one address or by a rebuild. -/
theorem erase_of_some {table : SymbolTable} {label : String} {entry : Entry}
    (h : table.get? label = some entry) :
    table.erase label
      = if isPoint entry then
          if (holds table.readers entry.value label || holds table.writers entry.value label)
              && ((table.forget entry label).withdraw entry.value label).isClaimed entry.value then
            ((table.forget entry label).withdraw entry.value label).rebuild
          else (table.forget entry label).withdraw entry.value label
        else (table.forget entry label).rebuild := by
  unfold erase
  rw [h]
  rfl

theorem get?_of_byLabel_erase {table other : SymbolTable} {label : String}
    (h : other.byLabel = table.byLabel.erase label) (l : String) :
    other.get? l = if label = l then none else table.get? l := by
  unfold get?
  rw [h, Std.TreeMap.getElem?_erase]
  by_cases hl : label = l
  · rw [if_pos hl, if_pos (Std.LawfulEqCmp.compare_eq_iff_eq.mpr hl)]
  · rw [if_neg hl, if_neg fun hc => hl (Std.LawfulEqCmp.eq_of_compare hc)]

theorem erase_byLabel {table : SymbolTable} {label : String} {entry : Entry}
    (h : table.get? label = some entry) :
    (table.erase label).byLabel = table.byLabel.erase label := by
  rw [erase_of_some h]
  split
  · split
    · rw [rebuild_byLabel]
      rfl
    · rfl
  · rw [rebuild_byLabel]
    rfl

theorem erase_byValue {table : SymbolTable} {label : String} {entry : Entry}
    (h : table.get? label = some entry) :
    (table.erase label).byValue = withdrawValue table.byValue entry label := by
  rw [erase_of_some h]
  split
  · split
    · rw [rebuild_byValue]
      rfl
    · rfl
  · rw [rebuild_byValue]
    rfl

theorem get?_erase (table : SymbolTable) (label l : String) :
    (table.erase label).get? l = if label = l then none else table.get? l := by
  cases h : table.get? label with
  | some entry => exact get?_of_byLabel_erase (erase_byLabel h) l
  | none =>
      rw [erase_of_none h]
      by_cases hl : label = l
      · rw [if_pos hl, ← hl, h]
      · rw [if_neg hl]

/-- No unmasked entry of the table claims an address that `isClaimed` denies. -/
theorem not_claimsAt_of_not_isClaimed {table : SymbolTable} (hnamed : table.Named) {address : Nat}
    (h : table.isClaimed address = false) {entry : Entry} (hentry : entry ∈ table)
    (direction : Access → Bool) : ¬ entry.ClaimsAt direction address := by
  intro hc
  obtain ⟨haddr, hmask, -, hcov⟩ := Entry.claimsAt_iff.mp hc
  have hcovers : entry.covers address = true := Entry.covers_iff.mpr (Entry.mem_covered.mp hcov)
  have hany : table.isClaimed address = true := by
    unfold isClaimed
    rw [List.any_eq_true]
    refine ⟨entry, (mem_entries hnamed).mpr hentry, ?_⟩
    rw [haddr, hmask, hcovers]
    rfl
  rw [h] at hany
  exact Bool.noConfusion hany

/-- Withdrawing the claims of an entry that covers one address, where the address is either held
by another entry or claimed by none. -/
theorem withdraw_indexes {S : Set Entry} {table : SymbolTable} {entry : Entry}
    (h : Indexes S table) (hpoint : isPoint entry = true)
    (halone : (holds table.readers entry.value entry.name
        || holds table.writers entry.value entry.name) = true →
      ∀ x ∈ S \ {entry}, ∀ direction, ¬ x.ClaimsAt direction entry.value) :
    Indexes (S \ {entry}) (table.withdraw entry.value entry.name) := by
  unfold isPoint at hpoint
  simp only [Bool.and_eq_true, beq_iff_eq, Option.isNone_iff_eq_none] at hpoint
  obtain ⟨⟨-, hmask⟩, hwidth⟩ := hpoint
  refine ⟨holdsFirst_withdraw h.readers hwidth fun hheld x hx => ?_,
    holdsFirst_withdraw h.writers hwidth fun hheld x hx => ?_, fun x => ?_⟩
  · exact halone (by rw [hheld, Bool.true_or]) x hx _
  · exact halone (by rw [hheld, Bool.or_true]) x hx _
  · show x ∈ table.masked ↔ _
    rw [h.masked, Set.mem_sdiff]
    constructor
    · rintro ⟨hx, haddr, hsome⟩
      refine ⟨⟨hx, fun hc => ?_⟩, haddr, hsome⟩
      rw [show x = entry from hc, hmask] at hsome
      exact Bool.noConfusion hsome
    · rintro ⟨⟨hx, -⟩, hrest⟩
      exact ⟨hx, hrest⟩

theorem named_of_byLabel_erase {table other : SymbolTable} {label : String} (h : table.Named)
    (hother : other.byLabel = table.byLabel.erase label) : other.Named := by
  intro l x hx
  rw [get?_of_byLabel_erase hother] at hx
  by_cases hl : label = l
  · rw [if_pos hl] at hx
    cases hx
  · rw [if_neg hl] at hx
    exact h l x hx

theorem mem_of_byLabel_erase {table other : SymbolTable} {entry : Entry} (hentry : entry ∈ table)
    (hother : other.byLabel = table.byLabel.erase entry.name) :
    {x | x ∈ other} = {x | x ∈ table} \ {entry} := by
  ext x
  rw [Set.mem_ofPred_eq, mem_iff, get?_of_byLabel_erase hother, Set.mem_sdiff]
  by_cases hl : entry.name = x.name
  · rw [if_pos hl]
    constructor
    · intro hx
      cases hx
    · rintro ⟨hx, hne⟩
      exact absurd (eq_of_name_eq hx hentry hl.symm) hne
  · rw [if_neg hl]
    constructor
    · intro hx
      exact ⟨hx, fun hc => hl (congrArg Entry.name hc).symm⟩
    · rintro ⟨hx, -⟩
      exact hx

/-- The address indexes after a removal are those of the entries left, also where they are not
rebuilt. -/
theorem erase_indexes {table : SymbolTable} {entry : Entry} (h : table.Indexed)
    (hentry : entry ∈ table) :
    Indexes ({x | x ∈ table} \ {entry}) (table.erase entry.name) := by
  rw [erase_of_some hentry]
  set gone := table.forget entry entry.name with hgone
  set left := gone.withdraw entry.value entry.name with hleft
  have hgoneLabel : gone.byLabel = table.byLabel.erase entry.name := rfl
  have hleftLabel : left.byLabel = table.byLabel.erase entry.name := rfl
  have hleftNamed : left.Named := named_of_byLabel_erase h.named hleftLabel
  split
  · rename_i hpoint
    split
    · rw [← mem_of_byLabel_erase hentry hleftLabel]
      exact rebuild_indexes hleftNamed
    · rename_i hkeep
      have hgoneIndexes : Indexes {x | x ∈ table} gone :=
        ⟨h.indexes.readers, h.indexes.writers, h.indexes.masked⟩
      refine withdraw_indexes hgoneIndexes hpoint fun hheld x hx direction => ?_
      have hheld' : (holds table.readers entry.value entry.name
          || holds table.writers entry.value entry.name) = true := hheld
      rw [hheld', Bool.true_and, Bool.not_eq_true] at hkeep
      rw [← mem_of_byLabel_erase hentry hleftLabel] at hx
      exact not_claimsAt_of_not_isClaimed hleftNamed hkeep hx direction
  · rw [← mem_of_byLabel_erase hentry hgoneLabel]
    exact rebuild_indexes (named_of_byLabel_erase h.named hgoneLabel)

/-- Removing an entry keeps the indexes. -/
theorem erase_indexed {table : SymbolTable} (h : table.Indexed) (label : String) :
    (table.erase label).Indexed := by
  cases hget : table.get? label with
  | none =>
      rw [erase_of_none hget]
      exact h
  | some entry =>
      obtain rfl : entry.name = label := h.named label entry hget
      have hbyLabel := erase_byLabel hget
      have hset := mem_of_byLabel_erase hget hbyLabel
      refine ⟨named_of_byLabel_erase h.named hbyLabel, ?_, ?_⟩
      · rw [hset, erase_byValue hget]
        exact withdraw_listsValues h.values fun x hx hname => eq_of_name_eq hx hget hname
      · rw [hset]
        exact erase_indexes h hget

/-- Replacing an entry keeps the indexes. -/
theorem put_indexed {table : SymbolTable} (h : table.Indexed) (entry : Entry) :
    (table.put entry).Indexed := by
  refine insert_indexed (erase_indexed h entry.name) ?_
  rw [get?_erase, if_pos rfl]

theorem get?_put (table : SymbolTable) (entry : Entry) (label : String) :
    (table.put entry).get? label
      = if entry.name = label then some entry else table.get? label := by
  unfold put
  rw [get?_insert, get?_erase]
  by_cases hl : entry.name = label
  · rw [if_pos hl, if_pos hl]
  · rw [if_neg hl, if_neg hl, if_neg hl]

/-- An entry is added when its label is free. -/
theorem add_eq_ok {table other : SymbolTable} {entry : Entry}
    (h : table.add entry = .ok other) :
    table.get? entry.name = none ∧ other = table.insert entry := by
  unfold add at h
  split at h
  · cases h
  · rename_i hc
    refine ⟨Std.TreeMap.getElem?_eq_none_of_contains_eq_false ?_, (Except.ok.inj h).symm⟩
    rwa [Bool.not_eq_true] at hc

/-- Adding an entry keeps the indexes. -/
theorem add_indexed {table other : SymbolTable} {entry : Entry} (h : table.Indexed)
    (hadd : table.add entry = .ok other) : other.Indexed := by
  obtain ⟨hfree, rfl⟩ := add_eq_ok hadd
  exact insert_indexed h hfree

/-! ### Entering many symbols -/

section Many

variable {α : Type} {f : α → Entry}

theorem foldl_put_indexed : ∀ (l : List α) (table : SymbolTable), table.Indexed →
    (l.foldl (fun symbols x => symbols.put (f x)) table).Indexed := by
  intro l
  induction l with
  | nil => exact fun _ h => h
  | cons x l ih => exact fun table h => ih _ (put_indexed h (f x))

theorem get?_foldl_put_of_ne {label : String} :
    ∀ (l : List α) (table : SymbolTable), (∀ x ∈ l, (f x).name ≠ label) →
      (l.foldl (fun symbols x => symbols.put (f x)) table).get? label = table.get? label := by
  intro l
  induction l with
  | nil => exact fun _ _ => rfl
  | cons x l ih =>
      intro table h
      obtain ⟨hx, hl⟩ := List.forall_mem_cons.mp h
      rw [List.foldl_cons, ih _ hl, get?_put, if_neg hx]

/-- What is in the table was entered or was there before. -/
theorem get?_foldl_put {label : String} {entry : Entry} :
    ∀ (l : List α) (table : SymbolTable),
      (l.foldl (fun symbols x => symbols.put (f x)) table).get? label = some entry →
      (∃ x ∈ l, f x = entry) ∨ table.get? label = some entry := by
  intro l
  induction l with
  | nil => exact fun _ h => Or.inr h
  | cons x l ih =>
      intro table h
      rcases ih _ h with ⟨y, hy, hentry⟩ | hput
      · exact Or.inl ⟨y, List.mem_cons_of_mem _ hy, hentry⟩
      · rw [get?_put] at hput
        split at hput
        · exact Or.inl ⟨x, List.mem_cons_self, Option.some.inj hput⟩
        · exact Or.inr hput

/-- Of entries with names of their own, all are in the table. -/
theorem get?_foldl_put_of_mem {x : α} :
    ∀ (l : List α) (table : SymbolTable), l.Pairwise (fun y z => (f y).name ≠ (f z).name) →
      x ∈ l → (l.foldl (fun symbols x => symbols.put (f x)) table).get? (f x).name
        = some (f x) := by
  intro l
  induction l with
  | nil => intro table _ hx; cases hx
  | cons y l ih =>
      intro table hdistinct hx
      obtain ⟨hy, hl⟩ := List.pairwise_cons.mp hdistinct
      rcases List.mem_cons.mp hx with rfl | hx
      · rw [List.foldl_cons, get?_foldl_put_of_ne l _ fun z hz => (hy z hz).symm, get?_put,
          if_pos rfl]
      · exact ih _ hl hx

end Many

end Disasm65.SymbolTable
