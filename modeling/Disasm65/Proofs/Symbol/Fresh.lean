/-
Labels that are made for an address.

Such a label is a stem and the address in hexadecimal, with a number behind if that name is taken
(`MadeFor`).  The table gives one that is free, or says that all of them are taken; a stem that is
a label makes labels (`MadeFor.isLabel`), so nothing else can go wrong.
-/
import Mathlib
import Disasm65.Proofs.Symbol.Edits

namespace Disasm65

/-- The label is made of the stem and the address, with or without a number behind. -/
def MadeFor (stem : String) (address : Nat) (label : String) : Prop :=
  label = stem ++ upperHex 4 address
    ∨ ∃ i ≤ SymbolTable.maxSuffix, label = stem ++ upperHex 4 address ++ "_" ++ Nat.repr i

/-! ### They are well formed -/

/-- What follows a label letter by letter makes a longer label. -/
theorem isLabel_append {label rest : String} (hlabel : isLabel label = true)
    (hrest : ∀ c ∈ rest.toList, isLabelRest c = true)
    (hlength : label.length + rest.length ≤ maxLabelLength) : isLabel (label ++ rest) = true := by
  unfold isLabel at hlabel ⊢
  rw [String.toList_append]
  rw [← String.length_toList, ← String.length_toList (s := rest)] at hlength
  split at hlabel
  · cases hlabel
  · rename_i first others hchars
    rw [hchars] at hlength ⊢
    simp only [Bool.and_eq_true, List.all_eq_true, decide_eq_true_eq] at hlabel
    obtain ⟨⟨hfirst, hothers⟩, _⟩ := hlabel
    simp only [List.cons_append, Bool.and_eq_true, List.all_eq_true, List.mem_append,
      List.length_append, decide_eq_true_eq]
    refine ⟨⟨hfirst, fun c hc => hc.elim (hothers c) (hrest c)⟩, ?_⟩
    rw [List.length_cons] at hlength
    omega

theorem exists_digitChar {base n : Nat} (hbase : 1 < base) {c : Char}
    (h : c ∈ Nat.toDigits base n) : ∃ d < base, c = Nat.digitChar d := by
  induction n using Nat.strong_induction_on with
  | _ n ih =>
      rw [Nat.toDigits_eq_if hbase] at h
      split at h
      · rename_i hlt
        exact ⟨n, hlt, List.mem_singleton.mp h⟩
      · rename_i hge
        rcases List.mem_append.mp h with hc | hc
        · exact ih (n / base) (Nat.div_lt_self (by omega) hbase) hc
        · exact ⟨n % base, Nat.mod_lt _ (by omega), List.mem_singleton.mp hc⟩

theorem isLabelRest_of_mem_upperHex {width n : Nat} {c : Char}
    (h : c ∈ (upperHex width n).toList) : isLabelRest c = true := by
  rw [upperHex, String.toList_ofList, padZeros, List.mem_append, List.mem_replicate,
    List.mem_map] at h
  rcases h with ⟨_, rfl⟩ | ⟨digit, hdigit, rfl⟩
  · decide
  · obtain ⟨d, hd, rfl⟩ := exists_digitChar (by decide) hdigit
    have hall : ∀ d < 16, isLabelRest (Nat.digitChar d).toUpper = true := by decide
    exact hall d hd

theorem isLabelRest_of_mem_repr {n : Nat} {c : Char} (h : c ∈ (Nat.repr n).toList) :
    isLabelRest c = true := by
  rw [Nat.toList_repr] at h
  have hdigit := Nat.isDigit_of_mem_toDigits (by decide) (by decide) h
  simp [isLabelRest, Char.isAlphanum, hdigit]

/-- A 32-bit address has at most eight digits. -/
theorem length_upperHex_le {address : Nat} (h : address < 0x100000000) :
    (upperHex 4 address).length ≤ 8 := by
  have hdigits : (Nat.toDigits 16 address).length ≤ 8 :=
    (Nat.length_toDigits_le_iff (by decide) (by decide)).mpr h
  rw [← String.length_toList, upperHex, String.toList_ofList, padZeros, List.length_append,
    List.length_replicate, List.length_map]
  omega

theorem length_repr_le {i : Nat} (h : i ≤ SymbolTable.maxSuffix) : (Nat.repr i).length ≤ 3 := by
  rw [← String.length_toList, Nat.toList_repr]
  unfold SymbolTable.maxSuffix at h
  exact (Nat.length_toDigits_le_iff (by decide) (by decide)).mpr (by omega)

/-- **A short label is a stem for labels.** -/
theorem MadeFor.isLabel {stem label : String} {address : Nat} (h : MadeFor stem address label)
    (hstem : Disasm65.isLabel stem = true) (hshort : stem.length ≤ 243)
    (haddress : address < 0x100000000) : Disasm65.isLabel label = true := by
  have hdigits := length_upperHex_le haddress
  have hbase : Disasm65.isLabel (stem ++ upperHex 4 address) = true := by
    refine isLabel_append hstem (fun c => isLabelRest_of_mem_upperHex) ?_
    unfold maxLabelLength
    omega
  rcases h with rfl | ⟨i, hi, rfl⟩
  · exact hbase
  · have hnumber := length_repr_le hi
    rw [String.append_assoc]
    refine isLabel_append hbase (fun c hc => ?_) ?_
    · rw [String.toList_append, List.mem_append] at hc
      rcases hc with hc | hc
      · obtain rfl : c = '_' := by simpa using hc
        decide
      · exact isLabelRest_of_mem_repr hc
    · have hone : "_".length = 1 := rfl
      unfold maxLabelLength
      rw [String.length_append, String.length_append, hone]
      omega

/-- A label starts as its stem does. -/
theorem MadeFor.toList_eq {stem label : String} {address : Nat} (h : MadeFor stem address label) :
    ∃ rest, label.toList = stem.toList ++ rest := by
  rcases h with rfl | ⟨i, _, rfl⟩
  · exact ⟨_, String.toList_append⟩
  · simp only [String.toList_append, List.append_assoc]
    exact ⟨_, rfl⟩

namespace SymbolTable

variable {table : SymbolTable} {address : Nat} {stem : String}

/-! ### They are free -/

theorem contains_eq_false {label : String} :
    table.contains label = false ↔ table.get? label = none :=
  ⟨Std.TreeMap.getElem?_eq_none_of_contains_eq_false, fun h => by
    rw [contains, Std.TreeMap.contains_eq_isSome_getElem?]
    rw [get?] at h
    rw [h]
    rfl⟩

theorem freshLabel_eq_ok {label : String} (h : table.freshLabel address stem = .ok label) :
    MadeFor stem address label ∧ table.get? label = none := by
  unfold freshLabel at h
  dsimp only at h
  split at h
  · rename_i hfree
    cases h
    exact ⟨Or.inl rfl, contains_eq_false.mp (by simpa using hfree)⟩
  · split at h
    · rename_i i hfound
      cases h
      have hmem := List.mem_of_find?_eq_some hfound
      have hfree := List.find?_some hfound
      rw [List.mem_range] at hmem
      exact ⟨Or.inr ⟨i, by omega, rfl⟩, contains_eq_false.mp (by simpa using hfree)⟩
    · cases h

theorem freshLabel_eq_error {fault : Fault} (h : table.freshLabel address stem = .error fault) :
    ∃ base, fault = .labelsExhausted base := by
  unfold freshLabel at h
  dsimp only at h
  split at h
  · cases h
  · split at h
    · cases h
    · cases h
      exact ⟨_, rfl⟩

/-- The symbol is made for the address, under a label that is free. -/
structure Generated (table : SymbolTable) (stem : String) (address : Nat) (symbol : Symbol) :
    Prop where
  made : MadeFor stem address symbol.label
  free : table.get? symbol.label = none
  value : symbol.value = address
  origin : symbol.origin = .auto

theorem generate_eq_ok {symbol : Symbol} (h : table.generate address stem = .ok symbol) :
    Generated table stem address symbol := by
  unfold generate Symbol.create at h
  split at h
  · rename_i label hlabel
    obtain ⟨hmade, hfree⟩ := freshLabel_eq_ok hlabel
    split at h
    · cases h
      exact ⟨hmade, hfree, rfl, rfl⟩
    · cases h
  · cases h

/-- No symbol can be generated only if all labels for the address are taken. -/
theorem generate_eq_error {fault : Fault} (hstem : isLabel stem = true)
    (hshort : stem.length ≤ 243) (haddress : address < 0x100000000)
    (h : table.generate address stem = .error fault) : ∃ base, fault = .labelsExhausted base := by
  unfold generate Symbol.create at h
  split at h
  · rename_i label hlabel
    rw [if_pos ((freshLabel_eq_ok hlabel).1.isLabel hstem hshort haddress)] at h
    cases h
  · rename_i hfault
    cases h
    exact freshLabel_eq_error hfault

end SymbolTable

end Disasm65
