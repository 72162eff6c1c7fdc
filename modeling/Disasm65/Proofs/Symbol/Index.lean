/-
The address indexes of a set of entries.

`Indexes S table` says that the indexes of the table are those of the entries of `S`: each address
has the first of the claims on it, for reading and for writing, and the masked entries stand apart.
An insertion enters the claims of one entry and a rebuild those of all, so
`Indexes.claimAddresses` serves both.  A removal that does not rebuild is right for another
reason: the entry covered one address, and there it either held nothing or was the only claim.
-/
import Mathlib
import Disasm65.Proofs.Symbol.First

namespace Disasm65

namespace Entry

/-- The entry covers `address`: it is one of the `width` addresses from the value on, counted
inside the value's bank. -/
def Covers (entry : Entry) (address : Nat) : Prop :=
  ∃ i < entry.width,
    address = entry.value / 0x10000 * 0x10000 + (entry.value + i) % 0x10000

theorem mem_covered {entry : Entry} {address : Nat} :
    address ∈ entry.covered ↔ entry.Covers address := by
  unfold covered Covers
  rw [List.mem_map]
  constructor
  · rintro ⟨i, hi, rfl⟩
    rw [List.mem_range] at hi
    exact ⟨i, by omega, rfl⟩
  · rintro ⟨i, hi, rfl⟩
    -- Past a whole bank the addresses repeat.
    refine ⟨i % 0x10000, ?_, ?_⟩
    · rw [List.mem_range]
      omega
    · omega

theorem covers_iff {entry : Entry} {address : Nat} :
    entry.covers address = true ↔ entry.Covers address := by
  unfold covers Covers
  simp only [Bool.and_eq_true, beq_iff_eq, decide_eq_true_eq]
  constructor
  · rintro ⟨hbank, hlt⟩
    refine ⟨(address + 0x10000 - entry.value % 0x10000) % 0x10000, ?_, ?_⟩ <;> omega
  · rintro ⟨i, hi, rfl⟩
    refine ⟨by omega, ?_⟩
    omega

/-- The entry claims `address` for accesses that `direction` admits: it stands for addresses, has
no mask, and covers the address. -/
structure ClaimsAt (direction : Access → Bool) (address : Nat) (entry : Entry) : Prop where
  notVariable : entry.origin ≠ .variable
  notConstant : entry.symbol.kind ≠ .constant
  unmasked : entry.mask = none
  admitted : direction entry.access = true
  covers : entry.Covers address

theorem isAddressable_iff {entry : Entry} :
    entry.isAddressable = true ↔ entry.origin ≠ .variable ∧ entry.symbol.kind ≠ .constant := by
  unfold isAddressable Symbol.isConstant
  simp

theorem claimsAt_iff {direction : Access → Bool} {address : Nat} {entry : Entry} :
    entry.ClaimsAt direction address ↔
      entry.isAddressable = true ∧ entry.mask = none ∧ direction entry.access = true ∧
        address ∈ entry.covered := by
  rw [isAddressable_iff, mem_covered]
  constructor
  · rintro ⟨hv, hc, hm, hd, hcov⟩
    exact ⟨⟨hv, hc⟩, hm, hd, hcov⟩
  · rintro ⟨⟨hv, hc⟩, hm, hd, hcov⟩
    exact ⟨hv, hc, hm, hd, hcov⟩

/-- An entry of width one covers its own value only. -/
theorem eq_value_of_covers {entry : Entry} {address : Nat} (hwidth : entry.width = 1)
    (h : entry.Covers address) : address = entry.value := by
  obtain ⟨i, hi, rfl⟩ := h
  omega

end Entry

/-- The index holds, for every address, the first of the claims of `S` on it. -/
def HoldsFirst (direction : Access → Bool) (S : Set Entry) (index : ClaimIndex) : Prop :=
  ∀ a, IsFirst (Entry.Precedes a) (S ∩ {entry | entry.ClaimsAt direction a}) index[a]?

/-! ### Entering the claims of an entry -/

theorem holdsFirst_skip {direction : Access → Bool} {S : Set Entry} {index : ClaimIndex}
    {entry : Entry} (h : HoldsFirst direction S index)
    (hno : ∀ a, ¬ entry.ClaimsAt direction a) : HoldsFirst direction (insert entry S) index := by
  intro a
  have hnot : entry ∉ {x : Entry | x.ClaimsAt direction a} := hno a
  rw [Set.insert_inter_of_notMem hnot]
  exact h a

theorem holdsFirst_claims {direction : Access → Bool} {S : Set Entry} {index : ClaimIndex}
    {entry : Entry} (h : HoldsFirst direction S index) (hfree : NameFree S entry)
    (haddr : entry.isAddressable = true) (hmask : entry.mask = none)
    (hdir : direction entry.access = true) :
    HoldsFirst direction (insert entry S)
      (entry.covered.foldl (fun index address => index.claim entry address) index) := by
  intro a
  rw [ClaimIndex.getElem?_foldl_claim]
  by_cases hcov : a ∈ entry.covered
  · have hclaims : entry.ClaimsAt direction a :=
      Entry.claimsAt_iff.mpr ⟨haddr, hmask, hdir, hcov⟩
    have hmem : entry ∈ {x : Entry | x.ClaimsAt direction a} := hclaims
    rw [if_pos hcov, Set.insert_inter_of_mem hmem]
    exact isFirst_prefer (h a) fun x hx hname => hfree x hx.1 hname
  · have hno : entry ∉ {x : Entry | x.ClaimsAt direction a} :=
      fun hc => hcov (Entry.claimsAt_iff.mp hc).2.2.2
    rw [if_neg hcov, Set.insert_inter_of_notMem hno]
    exact h a

/-- The claims of an entry go into the index of a direction exactly when it has the direction. -/
theorem holdsFirst_enter {direction : Access → Bool} {S : Set Entry} {index : ClaimIndex}
    {entry : Entry} (h : HoldsFirst direction S index) (hfree : NameFree S entry)
    (haddr : entry.isAddressable = true) (hmask : entry.mask = none) :
    HoldsFirst direction (insert entry S)
      (if direction entry.access then
        entry.covered.foldl (fun index address => index.claim entry address) index
      else index) := by
  by_cases hdir : direction entry.access = true
  · rw [if_pos hdir]
    exact holdsFirst_claims h hfree haddr hmask hdir
  · rw [if_neg hdir]
    exact holdsFirst_skip h fun a hc => hdir hc.admitted

/-- The address indexes are those of the entries of `S`. -/
structure Indexes (S : Set Entry) (table : SymbolTable) : Prop where
  readers : HoldsFirst Access.reads S table.readers
  writers : HoldsFirst Access.writes S table.writers
  masked : ∀ entry, entry ∈ table.masked ↔
    entry ∈ S ∧ entry.isAddressable = true ∧ entry.mask.isSome = true

/-- Entering the claims of an entry adds it to the set the indexes are about. -/
theorem Indexes.claimAddresses {S : Set Entry} {table : SymbolTable} {entry : Entry}
    (h : Indexes S table) (hfree : NameFree S entry) :
    Indexes (insert entry S) (table.claimAddresses entry) := by
  unfold SymbolTable.claimAddresses
  by_cases haddr : entry.isAddressable = true
  · by_cases hmask : entry.mask.isSome = true
    · simp only [haddr, hmask, Bool.not_true, Bool.false_eq_true, if_false, if_true]
      have hno : ∀ direction a, ¬ entry.ClaimsAt direction a := by
        intro direction a hc
        rw [hc.unmasked] at hmask
        exact Bool.noConfusion hmask
      refine ⟨holdsFirst_skip h.readers (hno _), holdsFirst_skip h.writers (hno _), fun x => ?_⟩
      rw [List.mem_append, List.mem_singleton, h.masked, Set.mem_insert_iff]
      constructor
      · rintro (⟨hx, hrest⟩ | rfl)
        · exact ⟨Or.inr hx, hrest⟩
        · exact ⟨Or.inl rfl, haddr, hmask⟩
      · rintro ⟨rfl | hx, hrest⟩
        · exact Or.inr rfl
        · exact Or.inl ⟨hx, hrest⟩
    · have hnone : entry.mask = none := by simpa using hmask
      simp only [haddr, hmask, Bool.not_true, Bool.false_eq_true, if_false]
      refine ⟨holdsFirst_enter h.readers hfree haddr hnone,
        holdsFirst_enter h.writers hfree haddr hnone, fun x => ?_⟩
      rw [h.masked, Set.mem_insert_iff]
      constructor
      · rintro ⟨hx, hrest⟩
        exact ⟨Or.inr hx, hrest⟩
      · rintro ⟨rfl | hx, hrest⟩
        · exact absurd hrest.2 hmask
        · exact ⟨hx, hrest⟩
  · simp only [haddr, Bool.not_false, if_true]
    have hno : ∀ direction a, ¬ entry.ClaimsAt direction a :=
      fun direction a hc => haddr (Entry.claimsAt_iff.mp hc).1
    refine ⟨holdsFirst_skip h.readers (hno _), holdsFirst_skip h.writers (hno _), fun x => ?_⟩
    rw [h.masked, Set.mem_insert_iff]
    constructor
    · rintro ⟨hx, hrest⟩
      exact ⟨Or.inr hx, hrest⟩
    · rintro ⟨rfl | hx, hrest⟩
      · exact absurd hrest.1 haddr
      · exact ⟨hx, hrest⟩

/-- Entering the claims of a list of entries, as a rebuild does. -/
theorem Indexes.foldl_claimAddresses :
    ∀ (entries : List Entry) {S : Set Entry} {table : SymbolTable}, Indexes S table →
      (∀ x y, (x ∈ S ∨ x ∈ entries) → y ∈ entries → x.name = y.name → x = y) →
      Indexes (S ∪ {entry | entry ∈ entries})
        (entries.foldl SymbolTable.claimAddresses table) := by
  intro entries
  induction entries with
  | nil =>
      intro S table h _
      simpa using h
  | cons entry rest ih =>
      intro S table h hfree
      have hset : S ∪ {x | x ∈ entry :: rest} = insert entry S ∪ {x | x ∈ rest} := by
        ext x
        simp only [Set.mem_union, Set.mem_ofPred_eq, List.mem_cons, Set.mem_insert_iff]
        tauto
      rw [hset, List.foldl_cons]
      refine ih (h.claimAddresses fun x hx hname => ?_) fun x y hx hy hname => ?_
      · exact hfree x entry (Or.inl hx) List.mem_cons_self hname
      · refine hfree x y ?_ (List.mem_cons_of_mem _ hy) hname
        rcases hx with hx | hx
        · rcases Set.mem_insert_iff.mp hx with rfl | hxS
          · exact Or.inr List.mem_cons_self
          · exact Or.inl hxS
        · exact Or.inr (List.mem_cons_of_mem _ hx)

/-! ### Withdrawing a claim at one address -/

theorem sdiff_inter_comm (S C : Set Entry) (entry : Entry) :
    (S \ {entry}) ∩ C = (S ∩ C) \ {entry} := by
  ext x
  simp only [Set.mem_inter_iff, Set.mem_sdiff]
  tauto

/-- An entry that covers one address is withdrawn there, if it is the holder and no other entry
claims the address.  Where it is not the holder there is nothing to do. -/
theorem holdsFirst_withdraw {direction : Access → Bool} {S : Set Entry} {index : ClaimIndex}
    {entry : Entry} (h : HoldsFirst direction S index) (hwidth : entry.width = 1)
    (halone : SymbolTable.holds index entry.value entry.name = true →
      ∀ x ∈ S \ {entry}, ¬ x.ClaimsAt direction entry.value) :
    HoldsFirst direction (S \ {entry})
      (if SymbolTable.holds index entry.value entry.name then index.erase entry.value
      else index) := by
  intro a
  rw [sdiff_inter_comm]
  by_cases hheld : SymbolTable.holds index entry.value entry.name = true
  · rw [if_pos hheld, Std.TreeMap.getElem?_erase]
    by_cases ha : entry.value = a
    · rw [if_pos (Std.LawfulEqCmp.compare_eq_iff_eq.mpr ha), ← sdiff_inter_comm]
      refine Set.eq_empty_of_forall_notMem fun x hx => ?_
      exact halone hheld x hx.1 (ha ▸ hx.2)
    · rw [if_neg fun hc => ha (Std.LawfulEqCmp.eq_of_compare hc)]
      refine (h a).diff fun hc => ?_
      have hmem := h a
      rw [hc] at hmem
      exact ha (Entry.eq_value_of_covers hwidth hmem.mem.2.covers).symm
  · rw [if_neg hheld]
    refine (h a).diff fun hc => hheld ?_
    have hmem := h a
    rw [hc] at hmem
    have ha : a = entry.value := Entry.eq_value_of_covers hwidth hmem.mem.2.covers
    unfold SymbolTable.holds
    rw [← ha, hc]
    exact beq_self_eq_true entry.name

end Disasm65
