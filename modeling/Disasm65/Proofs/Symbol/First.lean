/-
The first of a set of entries, and how an index keeps it.

An index holds, for every address, the first of the entries that claim it.  Entering a claim
compares the new entry with the holder only; `isFirst_prefer` says that this is enough, because
entries with different labels are never equal in the order.  `getElem?_foldl_claim` says what the
claims of one entry, address by address, do to an index.
-/
import Mathlib
import Disasm65.Proofs.Symbol.Precedence

namespace Disasm65

/-- `found` is the first entry of `S` in the order `before`, and nothing when `S` is empty. -/
def IsFirst (before : Entry → Entry → Prop) (S : Set Entry) (found : Option Entry) : Prop :=
  match found with
  | none => S = ∅
  | some first => first ∈ S ∧ ∀ entry ∈ S, entry ≠ first → before first entry

theorem IsFirst.mem {before : Entry → Entry → Prop} {S : Set Entry} {first : Entry}
    (h : IsFirst before S (some first)) : first ∈ S :=
  h.1

/-- There is only one first entry. -/
theorem IsFirst.unique {before : Entry → Entry → Prop}
    (hasymm : ∀ a b, before a b → ¬ before b a) {S : Set Entry} {found other : Option Entry}
    (hf : IsFirst before S found) (ho : IsFirst before S other) : found = other := by
  cases found with
  | none =>
      cases other with
      | none => rfl
      | some b =>
          have hempty : S = ∅ := hf
          have hb : b ∈ S := ho.1
          rw [hempty] at hb
          exact absurd hb (Set.notMem_empty b)
  | some a =>
      cases other with
      | none =>
          have hempty : S = ∅ := ho
          have ha : a ∈ S := hf.1
          rw [hempty] at ha
          exact absurd ha (Set.notMem_empty a)
      | some b =>
          by_cases hab : b = a
          · rw [hab]
          · exact absurd (ho.2 a hf.1 (Ne.symm hab)) (hasymm a b (hf.2 b ho.1 hab))

/-- An entry that is not the first one can be taken away. -/
theorem IsFirst.diff {before : Entry → Entry → Prop} {S : Set Entry} {found : Option Entry}
    (h : IsFirst before S found) {entry : Entry} (hne : found ≠ some entry) :
    IsFirst before (S \ {entry}) found := by
  cases found with
  | none =>
      have hempty : S = ∅ := h
      show S \ {entry} = ∅
      rw [hempty, Set.empty_sdiff]
  | some first =>
      refine ⟨⟨h.1, ?_⟩, fun x hx hxf => h.2 x hx.1 hxf⟩
      intro hc
      exact hne (congrArg some hc)

namespace Entry

theorem not_precedes_of_precedes {address : Nat} (a b : Entry) (h : Precedes address a b) :
    ¬ Precedes address b a :=
  fun hba => not_precedes_self address a (precedes_trans h hba)

end Entry

/-- Labels tell the entries of `S` and `entry` apart. -/
def NameFree (S : Set Entry) (entry : Entry) : Prop := ∀ x ∈ S, x.name = entry.name → x = entry

/-! ### Entering one claim -/

open Entry in
/-- **Comparing with the holder keeps the first entry.** -/
theorem isFirst_prefer {address : Nat} {S : Set Entry} {found : Option Entry} {entry : Entry}
    (h : IsFirst (Precedes address) S found) (hfree : NameFree S entry) :
    IsFirst (Precedes address) (insert entry S) (SymbolTable.prefer address found entry) := by
  cases found with
  | none =>
      have hempty : S = ∅ := h
      rw [hempty]
      refine ⟨Set.mem_insert entry ∅, fun x hx hne => ?_⟩
      rcases Set.mem_insert_iff.mp hx with hxe | hx0
      · exact absurd hxe hne
      · exact absurd hx0 (Set.notMem_empty x)
  | some holder =>
      unfold SymbolTable.prefer
      by_cases hlt : entry.precedence address holder = .lt
      · simp only [hlt, if_true]
        refine ⟨Set.mem_insert entry S, fun x hx hne => ?_⟩
        rcases Set.mem_insert_iff.mp hx with hxe | hxS
        · exact absurd hxe hne
        · by_cases hxh : x = holder
          · rw [hxh]; exact hlt
          · exact precedes_trans hlt (h.2 x hxS hxh)
      · simp only [hlt, if_false]
        refine ⟨Set.mem_insert_of_mem entry h.1, fun x hx hne => ?_⟩
        rcases Set.mem_insert_iff.mp hx with hxe | hxS
        · have hname : entry.name ≠ holder.name := by
            intro hc
            exact hne (hxe.trans (hfree holder h.1 hc.symm).symm)
          rw [hxe]
          exact precedes_of_not_precedes hname hlt
        · exact h.2 x hxS hne

namespace SymbolTable

/-- Preferring the same entry again changes nothing. -/
theorem prefer_prefer (address : Nat) (found : Option Entry) (entry : Entry) :
    prefer address (prefer address found entry) entry = prefer address found entry := by
  have hself : ¬ entry.precedence address entry = .lt := Entry.not_precedes_self address entry
  cases found with
  | none =>
      unfold prefer
      simp only [hself, if_false]
  | some holder =>
      by_cases hlt : entry.precedence address holder = .lt
      · have h : prefer address (some holder) entry = some entry := by
          unfold prefer
          simp only [hlt, if_true]
        rw [h]
        unfold prefer
        simp only [hself, if_false]
      · have h : prefer address (some holder) entry = some holder := by
          unfold prefer
          simp only [hlt, if_false]
        rw [h, h]

end SymbolTable

open SymbolTable in
/-- A claim on one address leaves the holders of the others. -/
theorem ClaimIndex.getElem?_claim (index : ClaimIndex) (entry : Entry) (address a : Nat) :
    (index.claim entry address)[a]?
      = if address = a then prefer a index[a]? entry else index[a]? := by
  by_cases ha : address = a
  · rw [if_pos ha, ha]
    unfold claim
    cases hget : index[a]? with
    | none => simp only [prefer, Std.TreeMap.getElem?_insert_self]
    | some holder =>
        by_cases hlt : entry.precedence a holder = .lt
        · simp only [prefer, hlt, if_true, Std.TreeMap.getElem?_insert_self]
        · simp only [prefer, hlt, if_false, hget]
  · have hcmp : ¬ compare address a = .eq := fun hc => ha (Std.LawfulEqCmp.eq_of_compare hc)
    rw [if_neg ha]
    unfold claim
    cases index[address]? with
    | none => simp only [Std.TreeMap.getElem?_insert, hcmp, if_false]
    | some holder =>
        by_cases hlt : entry.precedence address holder = .lt
        · simp only [hlt, if_true, Std.TreeMap.getElem?_insert, hcmp, if_false]
        · simp only [hlt, if_false]

/-- The claims of one entry on a list of addresses. -/
theorem ClaimIndex.getElem?_foldl_claim (entry : Entry) (a : Nat) :
    ∀ (addresses : List Nat) (index : ClaimIndex),
      (addresses.foldl (fun index address => index.claim entry address) index)[a]?
        = if a ∈ addresses then SymbolTable.prefer a index[a]? entry else index[a]? := by
  intro addresses
  induction addresses with
  | nil => intro index; simp
  | cons address rest ih =>
      intro index
      rw [List.foldl_cons, ih, getElem?_claim]
      by_cases hrest : a ∈ rest <;> by_cases ha : address = a
      · rw [if_pos hrest, if_pos ha, if_pos (List.mem_cons_of_mem _ hrest),
          SymbolTable.prefer_prefer]
      · rw [if_pos hrest, if_neg ha, if_pos (List.mem_cons_of_mem _ hrest)]
      · rw [if_neg hrest, if_pos ha, if_pos (List.mem_cons.mpr (Or.inl ha.symm))]
      · rw [if_neg hrest, if_neg ha, if_neg]
        intro hc
        rcases List.mem_cons.mp hc with hc | hc
        · exact ha hc.symm
        · exact hrest hc

end Disasm65
