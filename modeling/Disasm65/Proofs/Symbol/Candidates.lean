/-
Which label is generated for an address.

The labels for an address are tried in a fixed order (`candidates`), and the first that is free is
taken (`generate_eq`).  A label tells its address: behind the stem stand the digits of the address,
up to the end or to the underscore before a number (`eq_of_madeFor`), and digits can be read back
(`hexValue?_upperHex`).  So the labels for two addresses never meet, and no label that is generated
for one address can be in the way of another.
-/
import Mathlib
import Disasm65.Proofs.Symbol.Fresh
import Disasm65.Proofs.Symbol.Lookup

namespace Disasm65

/-! ### Numerals are read back -/

theorem hexDigit?_toUpper_digitChar {d : Nat} (h : d < 16) :
    hexDigit? (Nat.digitChar d).toUpper = some d := by
  have hall : ∀ d < 16, hexDigit? (Nat.digitChar d).toUpper = some d := by decide
  exact hall d h

theorem hexValue?_toDigits (n : Nat) :
    hexValue? ((Nat.toDigits 16 n).map Char.toUpper) = some n := by
  induction n using Nat.strong_induction_on with
  | _ n ih =>
      rw [Nat.toDigits_eq_if (by decide)]
      split
      · rename_i hlt
        simp [hexValue?, hexDigit?_toUpper_digitChar hlt]
      · rename_i hge
        have hrest := ih (n / 16) (by omega)
        unfold hexValue? at hrest
        rw [hexValue?, List.map_append, List.foldlM_append, hrest]
        have hlast := hexDigit?_toUpper_digitChar (Nat.mod_lt n (show 0 < 16 by decide))
        simp only [Option.bind_eq_bind, Option.bind_some, List.map_cons, List.map_nil,
          List.foldlM_cons, List.foldlM_nil, hlast, Option.map_some, Option.pure_def,
          Option.some.injEq]
        omega

/-- Zeros in front do not count. -/
theorem hexValue?_padZeros (width : Nat) (digits : List Char) :
    hexValue? (padZeros width digits) = hexValue? digits := by
  unfold padZeros
  induction width - digits.length with
  | zero => rfl
  | succ count ih =>
      rw [← ih, List.replicate_succ, List.cons_append]
      rfl

/-- **A numeral can be read back.** -/
theorem hexValue?_upperHex (width n : Nat) : hexValue? (upperHex width n).toList = some n := by
  rw [upperHex, String.toList_ofList, hexValue?_padZeros, hexValue?_toDigits]

theorem ne_underscore_of_mem_upperHex {width n : Nat} {c : Char}
    (h : c ∈ (upperHex width n).toList) : c ≠ '_' := by
  rw [upperHex, String.toList_ofList, padZeros, List.mem_append, List.mem_replicate,
    List.mem_map] at h
  rcases h with ⟨_, rfl⟩ | ⟨digit, hdigit, rfl⟩
  · decide
  · obtain ⟨d, hd, rfl⟩ := exists_digitChar (by decide) hdigit
    have hall : ∀ d < 16, (Nat.digitChar d).toUpper ≠ '_' := by decide
    exact hall d hd

/-! ### The labels for an address -/

/-- The labels that are tried for an address, in their order: the stem and the address in
hexadecimal, and the same with a number from 0 to 999 behind. -/
def candidates (stem : String) (address : Nat) : List String :=
  (stem ++ upperHex 4 address)
    :: (List.range 1000).map fun i => stem ++ upperHex 4 address ++ "_" ++ Nat.repr i

theorem mem_candidates {stem label : String} {address : Nat} :
    label ∈ candidates stem address ↔ MadeFor stem address label := by
  rw [candidates, List.mem_cons, List.mem_map, MadeFor]
  refine or_congr_right ⟨?_, ?_⟩
  · rintro ⟨i, hi, rfl⟩
    rw [List.mem_range] at hi
    exact ⟨i, Nat.le_of_lt_succ hi, rfl⟩
  · rintro ⟨i, hi, rfl⟩
    exact ⟨i, List.mem_range.mpr (Nat.lt_succ_of_le hi), rfl⟩

theorem length_candidates (stem : String) (address : Nat) :
    (candidates stem address).length = 1001 := by
  rw [candidates, List.length_cons, List.length_map, List.length_range]

/-- Behind the stem stand the digits of the address, and then an underscore or nothing. -/
theorem MadeFor.toList_eq_digits {stem label : String} {address : Nat}
    (h : MadeFor stem address label) :
    ∃ rest, label.toList = stem.toList ++ ((upperHex 4 address).toList ++ rest)
      ∧ rest.takeWhile (· != '_') = [] := by
  rcases h with rfl | ⟨i, _, rfl⟩
  · exact ⟨[], by rw [String.toList_append, List.append_nil], rfl⟩
  · exact ⟨'_' :: (Nat.repr i).toList, by simp, rfl⟩

/-- **A label is made for one address only.** -/
theorem eq_of_madeFor {stem label : String} {address other : Nat}
    (h : MadeFor stem address label) (h' : MadeFor stem other label) : address = other := by
  have hdigits : ∀ (n : Nat) (rest : List Char), rest.takeWhile (· != '_') = [] →
      ((upperHex 4 n).toList ++ rest).takeWhile (· != '_') = (upperHex 4 n).toList := by
    intro n rest hrest
    rw [List.takeWhile_append_of_pos, hrest, List.append_nil]
    exact fun c hc => bne_iff_ne.mpr (ne_underscore_of_mem_upperHex hc)
  obtain ⟨rest, hlabel, hrest⟩ := h.toList_eq_digits
  obtain ⟨rest', hlabel', hrest'⟩ := h'.toList_eq_digits
  have hbehind := List.append_cancel_left (hlabel.symm.trans hlabel')
  have hsame : (upperHex 4 address).toList = (upperHex 4 other).toList := by
    rw [← hdigits address rest hrest, hbehind, hdigits other rest' hrest']
  have hvalue := hexValue?_upperHex 4 address
  rw [hsame, hexValue?_upperHex, Option.some.injEq] at hvalue
  exact hvalue.symm

theorem disjoint_candidates (stem : String) {address other : Nat} (h : address ≠ other) :
    (candidates stem address).Disjoint (candidates stem other) :=
  fun _ hlabel hother => h (eq_of_madeFor (mem_candidates.mp hlabel) (mem_candidates.mp hother))

/-- No label is tried twice. -/
theorem nodup_candidates (stem : String) (address : Nat) : (candidates stem address).Nodup := by
  refine List.nodup_cons.mpr ⟨fun hmem => ?_, List.Nodup.map (fun i j h => ?_) List.nodup_range⟩
  · obtain ⟨i, _, h⟩ := List.mem_map.mp hmem
    have hlength := congrArg String.length h
    have hone : "_".length = 1 := rfl
    rw [String.length_append, String.length_append, hone] at hlength
    omega
  · exact Nat.repr_injective ((String.append_right_inj _).mp h)

namespace SymbolTable

variable {table : SymbolTable} {address : Nat} {stem : String}

/-! ### The first free one is taken -/

theorem isNone_get? (table : SymbolTable) (label : String) :
    (table.get? label).isNone = !table.contains label := by
  rw [contains, get?, Std.TreeMap.contains_eq_isSome_getElem?, Option.not_isSome]

/-- The first of the labels for an address that the table does not hold. -/
def firstFree? (table : SymbolTable) (stem : String) (address : Nat) : Option String :=
  (candidates stem address).find? fun label => (table.get? label).isNone

theorem freshLabel_eq (table : SymbolTable) (address : Nat) (stem : String) :
    table.freshLabel address stem
      = (table.firstFree? stem address).elim
          (.error (.labelsExhausted (stem ++ upperHex 4 address))) .ok := by
  unfold freshLabel firstFree? candidates
  simp only [isNone_get?]
  rw [List.find?_cons, List.find?_map]
  cases hbase : table.contains (stem ++ upperHex 4 address) with
  | false => rfl
  | true =>
      unfold Function.comp maxSuffix
      cases (List.range (999 + 1)).find? fun i =>
        !table.contains (stem ++ upperHex 4 address ++ "_" ++ Nat.repr i) <;> rfl

/-- **A symbol is generated under the first label that is free**, and there is none only if none is
free. -/
theorem generate_eq (table : SymbolTable) (haddress : address < 0x100000000)
    (hstem : isLabel stem = true) (hshort : stem.length ≤ 243) :
    table.generate address stem
      = (table.firstFree? stem address).elim
          (.error (.labelsExhausted (stem ++ upperHex 4 address)))
          fun label => .ok ⟨label, address, .auto, .localOrGlobal, .plain⟩ := by
  unfold generate
  rw [freshLabel_eq]
  cases hfirst : table.firstFree? stem address with
  | none => rfl
  | some label =>
      have hmade := mem_candidates.mp (List.mem_of_find?_eq_some hfirst)
      exact if_pos (hmade.isLabel hstem hshort haddress)

theorem firstFree?_eq_none_iff :
    table.firstFree? stem address = none
      ↔ ∀ label ∈ candidates stem address, table.get? label ≠ none := by
  rw [firstFree?, List.find?_eq_none]
  refine forall₂_congr fun label _ => not_congr ?_
  rw [Option.isNone_iff_eq_none]

theorem add_of_firstFree? {label : String} (h : table.firstFree? stem address = some label)
    {entry : Entry} (hname : entry.name = label) : table.add entry = .ok (table.insert entry) := by
  have hfree := List.find?_some h
  rw [isNone_get?, ← hname, Bool.not_eq_true'] at hfree
  exact if_neg (Bool.eq_false_iff.mp hfree)

/-! ### Other addresses are not in the way -/

/-- The table with a label for the address, if one is left. -/
def withLabelFor (stem : String) (table : SymbolTable) (address : Nat) : SymbolTable :=
  (table.generate address stem).toOption.elim table fun symbol =>
    (Edit.add (.label symbol)).apply table

/-- Only labels that are made for the address are new. -/
theorem get?_withLabelFor {label : String} (h : ¬ MadeFor stem address label) :
    (table.withLabelFor stem address).get? label = table.get? label := by
  unfold withLabelFor
  cases hgenerate : table.generate address stem with
  | error fault => rfl
  | ok symbol =>
      have hgenerated := generate_eq_ok hgenerate
      have hne : symbol.label ≠ label := fun heq => h (heq ▸ hgenerated.made)
      show ((Edit.add (.label symbol)).apply table).get? label = table.get? label
      cases hadd : table.add (.label symbol) with
      | error fault => simp only [Edit.apply, hadd]
      | ok other =>
          obtain ⟨_, rfl⟩ := add_eq_ok hadd
          simp only [Edit.apply, hadd]
          exact (get?_insert table (.label symbol) label).trans (if_neg hne)

theorem get?_foldl_withLabelFor {label : String} :
    ∀ (addresses : List Nat) (table : SymbolTable),
      (∀ other ∈ addresses, ¬ MadeFor stem other label) →
        (addresses.foldl (withLabelFor stem) table).get? label = table.get? label := by
  intro addresses
  induction addresses with
  | nil => exact fun _ _ => rfl
  | cons first rest ih =>
      intro table h
      obtain ⟨hfirst, hrest⟩ := List.forall_mem_cons.mp h
      rw [List.foldl_cons, ih _ hrest, get?_withLabelFor hfirst]

/-- Labels for other addresses change nothing about the label for this one. -/
theorem firstFree?_foldl_withLabelFor {addresses : List Nat} (h : address ∉ addresses) :
    (addresses.foldl (withLabelFor stem) table).firstFree? stem address
      = table.firstFree? stem address := by
  refine List.find?_congr fun label hlabel => ?_
  rw [get?_foldl_withLabelFor]
  intro other hother hmade
  exact h (eq_of_madeFor (mem_candidates.mp hlabel) hmade ▸ hother)

/-- **A label is generated whenever one is left.**  Of the 1001 labels for an address the first that
is free is taken; it names the address, it can be added, and the addition changes no other label.
If none is free, that is what is reported.  Two addresses have no label in common, so whatever is
generated for other addresses changes nothing about this one. -/
theorem generate_first_free (table : SymbolTable) (address : Nat) (haddress : address < 0x100000000)
    (stem : String) (hstem : isLabel stem = true) (hshort : stem.length ≤ 240) :
    ((candidates stem address).Nodup ∧ (candidates stem address).length = 1001)
      ∧ ((∃ symbol, table.generate address stem = .ok symbol)
          ↔ ∃ label ∈ candidates stem address, table.get? label = none)
      ∧ (∀ symbol, table.generate address stem = .ok symbol →
          (candidates stem address).find? (fun label => (table.get? label).isNone)
              = some symbol.label
            ∧ symbol.value = address ∧ symbol.origin = .auto
            ∧ ∃ other, table.add (.label symbol) = .ok other
              ∧ ∀ label, other.get? label
                  = if symbol.label = label then some (.label symbol) else table.get? label)
      ∧ ((∀ label ∈ candidates stem address, table.get? label ≠ none) →
          table.generate address stem = .error (.labelsExhausted (stem ++ upperHex 4 address)))
      ∧ (∀ other ≠ address, (candidates stem address).Disjoint (candidates stem other))
      ∧ ∀ addresses : List Nat, address ∉ addresses →
          (addresses.foldl (withLabelFor stem) table).generate address stem
            = table.generate address stem := by
  have hgenerate := fun table : SymbolTable =>
    table.generate_eq haddress hstem (hshort.trans (by decide))
  refine ⟨⟨nodup_candidates stem address, length_candidates stem address⟩, ?_, ?_, ?_,
    fun other hother => disjoint_candidates stem hother.symm, fun addresses hothers => ?_⟩
  · have hfree : (∃ label ∈ candidates stem address, table.get? label = none)
        ↔ table.firstFree? stem address ≠ none := by
      rw [Ne, firstFree?_eq_none_iff]
      push Not
      rfl
    rw [hfree, hgenerate]
    cases table.firstFree? stem address with
    | none => simp
    | some label => simp
  · intro symbol hsymbol
    rw [hgenerate] at hsymbol
    cases hfirst : table.firstFree? stem address with
    | none =>
        rw [hfirst] at hsymbol
        cases hsymbol
    | some label =>
        rw [hfirst] at hsymbol
        cases hsymbol
        exact ⟨hfirst, rfl, rfl, _, add_of_firstFree? hfirst rfl, get?_insert table (.label _)⟩
  · intro htaken
    rw [hgenerate, firstFree?_eq_none_iff.mpr htaken]
    rfl
  · rw [hgenerate, hgenerate, firstFree?_foldl_withLabelFor hothers]

/-- A label of the user that looks like a generated one. -/
def lookalike : SymbolTable :=
  SymbolTable.empty.insert (.label ⟨"L1000", 0x2000, .user, .localOrGlobal, .plain⟩)

/-- The first number is appended, also after the labels for the addresses around it are made. -/
theorem generate_first_free_lookalike :
    lookalike.generate 0x1000 "L" = .ok ⟨"L1000_0", 0x1000, .auto, .localOrGlobal, .plain⟩
      ∧ ([0x0fff, 0x1001, 0x10000].foldl (withLabelFor "L") lookalike).generate 0x1000 "L"
        = lookalike.generate 0x1000 "L"
      ∧ ∃ other,
          lookalike.add (.label ⟨"L1000_0", 0x1000, .auto, .localOrGlobal, .plain⟩) = .ok other
            ∧ other.get? "L1000" = lookalike.get? "L1000" := by
  obtain ⟨-, -, hadded, -, -, hothers⟩ :=
    lookalike.generate_first_free 0x1000 (by decide) "L" (by decide) (by decide)
  have hgenerate : lookalike.generate 0x1000 "L"
      = .ok ⟨"L1000_0", 0x1000, .auto, .localOrGlobal, .plain⟩ := by decide +kernel
  obtain ⟨-, -, -, other, hadd, hget⟩ := hadded _ hgenerate
  exact ⟨hgenerate, hothers _ (by decide), other, hadd,
    (hget "L1000").trans (if_neg (by decide))⟩

end SymbolTable

end Disasm65
