/-
What a symbol table answers.

A look-up goes through an index.  Its answer is the one a search through all entries would give,
in every table that additions, replacements, removals and clearings make, whatever their order and
whether they succeed or not.  `FindsByAddress` is that search for addresses: the first claim on
reading or writing, and a masked entry only where there is none.

An answer is therefore a function of the entries alone, and two histories that end with the same
entries cannot be told apart by any look-up.
-/
import Mathlib
import Disasm65.Proofs.Symbol.Edits

namespace Disasm65

/-- The accesses that a look-up for `access` is about, given an entry's own directions: the one
direction asked for, and either one when both are asked for or none is. -/
def Access.Selects (access own : Access) : Prop :=
  if access = .read then own.reads = true
  else if access = .write then own.writes = true
  else own.reads = true ∨ own.writes = true

/-- Two sets of directions have one in common. -/
def Access.Meets (access own : Access) : Prop := access.bits &&& own.bits ≠ 0#8

/-- A masked entry answers for `address`: the mask admits the address, the entry's directions are
`asked` for, and under the mask the address lies among the entry's own. -/
structure Entry.MaskedAt (asked : Access → Prop) (address : Nat) (entry : Entry) : Prop where
  notVariable : entry.origin ≠ .variable
  notConstant : entry.symbol.kind ≠ .constant
  admitted : asked entry.access
  reached : ∃ mask, entry.mask = some mask ∧ address &&& mask.compareMask = mask.compareValue ∧
    entry.value &&& mask.addressMask ≤ address &&& mask.addressMask ∧
    (address &&& mask.addressMask) - (entry.value &&& mask.addressMask) < entry.width

namespace SymbolTable

/-- `found` is what a search through all entries finds at `address`.  `asks access own` says that
a look-up for `access` is about a masked entry with the directions `own`. -/
def FindsByAddress (asks : Access → Access → Prop) (table : SymbolTable) (address : Nat)
    (access : Access) (found : Option Entry) : Prop :=
  ∃ reader writer masked,
    IsFirst (Entry.Precedes address)
      {entry | entry ∈ table ∧ entry.ClaimsAt Access.reads address} reader ∧
    IsFirst (Entry.Precedes address)
      {entry | entry ∈ table ∧ entry.ClaimsAt Access.writes address} writer ∧
    IsFirst (Entry.Precedes address)
      {entry | entry ∈ table ∧ entry.MaskedAt (asks access) address} masked ∧
    found = (if access = .read then reader else if access = .write then writer
      else reader.or writer).or masked

/-- The order of the entries of one value: by origin, then by label. -/
def ValueBefore (a b : Entry) : Prop := valueBefore a b = true

/-- A change of a table. -/
inductive Edit where
  /-- add an entry, which fails when the label is taken -/
  | add (entry : Entry)
  /-- add an entry in place of any with the same label -/
  | put (entry : Entry)
  /-- remove the entry with the label, if there is one -/
  | erase (label : String)
  | clear

/-- The table after a change.  An addition that fails changes nothing. -/
def Edit.apply (table : SymbolTable) : Edit → SymbolTable
  | .add entry =>
    match table.add entry with
    | .ok other => other
    | .error _ => table
  | .put entry => table.put entry
  | .erase label => table.erase label
  | .clear => table.clear

/-- The table that a list of changes makes of the empty one. -/
def ofEdits (edits : List Edit) : SymbolTable := edits.foldl Edit.apply empty

/-- The two tables give the same answer to every question. -/
structure SameAnswers (table other : SymbolTable) : Prop where
  get? : ∀ label, table.get? label = other.get? label
  contains : ∀ label, table.contains label = other.contains label
  entries : table.entries = other.entries
  size : table.size = other.size
  isEmpty : table.isEmpty = other.isEmpty
  findByValue? : ∀ value, table.findByValue? value = other.findByValue? value
  findByAddress? : ∀ address access,
    table.findByAddress? address access = other.findByAddress? address access
  generate : ∀ address stem, table.generate address stem = other.generate address stem

/-! ### Every history keeps the indexes -/

theorem apply_indexed {table : SymbolTable} (h : table.Indexed) (edit : Edit) :
    (edit.apply table).Indexed := by
  cases edit with
  | add entry =>
      cases hadd : table.add entry with
      | ok other =>
          simp only [Edit.apply, hadd]
          exact add_indexed h hadd
      | error fault =>
          simp only [Edit.apply, hadd]
          exact h
  | put entry => exact put_indexed h entry
  | erase label => exact erase_indexed h label
  | clear => exact empty_indexed (table.serial + 1)

theorem foldl_apply_indexed :
    ∀ (edits : List Edit) {table : SymbolTable}, table.Indexed →
      (edits.foldl Edit.apply table).Indexed := by
  intro edits
  induction edits with
  | nil => intro table h; exact h
  | cons edit rest ih => intro table h; exact ih (apply_indexed h edit)

theorem ofEdits_indexed (edits : List Edit) : (ofEdits edits).Indexed :=
  foldl_apply_indexed edits (empty_indexed 0)

/-! ### Look-ups by value -/

/-- The first entry with a property in a sorted list is the first of all that have it. -/
theorem isFirst_find? {before : Entry → Entry → Prop} (p : Entry → Bool) :
    ∀ {l : List Entry}, l.Pairwise before →
      IsFirst before {entry | entry ∈ l ∧ p entry = true} (l.find? p) := by
  intro l
  induction l with
  | nil =>
      intro _
      refine Set.eq_empty_of_forall_notMem fun x hx => ?_
      exact absurd hx.1 List.not_mem_nil
  | cons first rest ih =>
      intro hsorted
      obtain ⟨hfirst, hrest⟩ := List.pairwise_cons.mp hsorted
      by_cases hp : p first = true
      · rw [List.find?_cons_of_pos hp]
        refine ⟨⟨List.mem_cons_self, hp⟩, fun x hx hne => ?_⟩
        rcases List.mem_cons.mp hx.1 with hxf | hxr
        · exact absurd hxf hne
        · exact hfirst x hxr
      · have hset : {entry | entry ∈ first :: rest ∧ p entry = true}
            = {entry | entry ∈ rest ∧ p entry = true} := by
          ext x
          constructor
          · intro hx
            rcases List.mem_cons.mp hx.1 with hxf | hxr
            · exact absurd (hxf ▸ hx.2) hp
            · exact ⟨hxr, hx.2⟩
          · intro hx
            exact ⟨List.mem_cons_of_mem _ hx.1, hx.2⟩
        rw [List.find?_cons_of_neg hp, hset]
        exact ih hrest

theorem findByValue?_isFirst {table : SymbolTable} (h : table.Indexed) (value : Nat) :
    IsFirst ValueBefore
      {entry | entry ∈ table ∧ entry.value = value ∧ entry.symbol.kind ≠ .constant}
      (table.findByValue? value) := by
  have hfirst := isFirst_find? (fun entry => !entry.symbol.isConstant) (h.values.sorted value)
  have hset : {entry | entry ∈ table.byValue.getD value [] ∧ (!entry.symbol.isConstant) = true}
      = {entry | entry ∈ table ∧ entry.value = value ∧ entry.symbol.kind ≠ .constant} := by
    ext x
    rw [Set.mem_ofPred_eq, h.values.listed, Set.mem_ofPred_eq, and_assoc]
    unfold Symbol.isConstant
    simp
  rw [hset] at hfirst
  exact hfirst

/-! ### Look-ups by address -/

/-- Comparing one by one finds the first of a list of entries with distinct labels. -/
theorem isFirst_foldl_prefer {address : Nat} :
    ∀ (l : List Entry) {S : Set Entry} {found : Option Entry},
      IsFirst (Entry.Precedes address) S found →
      (∀ x y, (x ∈ S ∨ x ∈ l) → y ∈ l → x.name = y.name → x = y) →
      IsFirst (Entry.Precedes address) (S ∪ {entry | entry ∈ l})
        (l.foldl (prefer address) found) := by
  intro l
  induction l with
  | nil =>
      intro S found h _
      simpa using h
  | cons entry rest ih =>
      intro S found h hfree
      have hset : S ∪ {x | x ∈ entry :: rest} = S ∪ {entry} ∪ {x | x ∈ rest} := by
        ext x
        simp only [Set.mem_union, Set.mem_ofPred_eq, List.mem_cons, Set.mem_singleton_iff]
        tauto
      have hstep : IsFirst (Entry.Precedes address) (S ∪ {entry})
          (prefer address found entry) := by
        rw [Set.union_singleton]
        exact isFirst_prefer h fun x hx hname =>
          hfree x entry (Or.inl hx) List.mem_cons_self hname
      rw [hset, List.foldl_cons]
      refine ih hstep fun x y hx hy hname => ?_
      refine hfree x y ?_ (List.mem_cons_of_mem _ hy) hname
      rcases hx with hx | hx
      · rcases hx with hxS | hxe
        · exact Or.inl hxS
        · exact Or.inr (List.mem_cons.mpr (Or.inl hxe))
      · exact Or.inr (List.mem_cons_of_mem _ hx)

/-- The two directions of a look-up, and what they say of an entry's own. -/
theorem directions_selects (access own : Access) :
    (((directions access).1 && own.reads) || ((directions access).2 && own.writes)) = true ↔
      access.Selects own := by
  unfold directions Access.Selects
  by_cases hr : access = .read
  · simp [hr]
  · by_cases hw : access = .write
    · simp [hw, show Access.write ≠ Access.read by decide]
    · simp [hr, hw]

theorem answersMasked_iff {table : SymbolTable} (h : table.Indexed) {address : Nat}
    {access : Access} {entry : Entry} :
    (entry ∈ table.masked ∧
        answersMasked (directions access).1 (directions access).2 address entry = true) ↔
      entry ∈ table ∧ entry.MaskedAt access.Selects address := by
  rw [h.indexes.masked, Entry.isAddressable_iff]
  constructor
  · intro hx
    obtain ⟨⟨hmem, ⟨hvar, hconst⟩, hsome⟩, hans⟩ := hx
    obtain ⟨mask, hmask⟩ := Option.isSome_iff_exists.mp hsome
    simp only [answersMasked, hmask, Bool.and_eq_true, decide_eq_true_eq, RepeatMask.admits,
      beq_iff_eq] at hans
    obtain ⟨⟨⟨hadmits, hdir⟩, hle⟩, hlt⟩ := hans
    exact ⟨hmem, hvar, hconst, (directions_selects access entry.access).mp hdir,
      mask, hmask, hadmits, hle, hlt⟩
  · intro hx
    obtain ⟨hmem, hvar, hconst, hdir, mask, hmask, hadmits, hle, hlt⟩ := hx
    refine ⟨⟨hmem, ⟨hvar, hconst⟩, by rw [hmask]; rfl⟩, ?_⟩
    simp only [answersMasked, hmask, Bool.and_eq_true, decide_eq_true_eq, RepeatMask.admits,
      beq_iff_eq]
    exact ⟨⟨⟨hadmits, (directions_selects access entry.access).mpr hdir⟩, hle⟩, hlt⟩

/-- The search among the masked entries finds the first that answers. -/
theorem masked_isFirst {table : SymbolTable} (h : table.Indexed) (address : Nat)
    (access : Access) :
    IsFirst (Entry.Precedes address)
      {entry | entry ∈ table ∧ entry.MaskedAt access.Selects address}
      ((table.masked.filter
        (answersMasked (directions access).1 (directions access).2 address)).foldl
          (prefer address) none) := by
  set l := table.masked.filter
    (answersMasked (directions access).1 (directions access).2 address) with hl
  have hmem : ∀ x, x ∈ l ↔ x ∈ table ∧ x.MaskedAt access.Selects address := by
    intro x
    rw [hl, List.mem_filter]
    exact answersMasked_iff h
  have hfirst := @isFirst_foldl_prefer address l ∅ none rfl
    fun x y hx hy hname => by
      rcases hx with hx | hx
      · exact absurd hx (Set.notMem_empty x)
      · exact eq_of_name_eq ((hmem x).mp hx).1 ((hmem y).mp hy).1 hname
  have hset : ∅ ∪ {x | x ∈ l} = {x | x ∈ table ∧ x.MaskedAt access.Selects address} := by
    rw [Set.empty_union]
    ext x
    exact hmem x
  rw [hset] at hfirst
  exact hfirst

theorem findByAddress?_finds {table : SymbolTable} (h : table.Indexed) (address : Nat)
    (access : Access) :
    FindsByAddress Access.Selects table address access (table.findByAddress? address access) := by
  refine ⟨table.readers[address]?, table.writers[address]?, _, h.indexes.readers address,
    h.indexes.writers address, masked_isFirst h address access, ?_⟩
  unfold findByAddress? directions
  by_cases hr : access = .read
  · simp [hr]
  · by_cases hw : access = .write
    · simp [hw, show Access.write ≠ Access.read by decide]
    · simp [hr, hw]

/-! ### The answers depend on the entries alone -/

theorem valueBefore_asymm (a b : Entry) (h : ValueBefore a b) : ¬ ValueBefore b a := by
  intro hba
  have hself := valueBefore_iff.mp (valueBefore_trans h hba)
  rw [@Std.ReflCmp.compare_self _ valueOrder _ a] at hself
  cases hself

theorem mem_of_get?_eq {table other : SymbolTable}
    (h : ∀ label, table.get? label = other.get? label) (entry : Entry) :
    entry ∈ table ↔ entry ∈ other := by
  rw [mem_iff, mem_iff, h entry.name]

/-- A search through all entries has one outcome. -/
theorem FindsByAddress.unique {asks : Access → Access → Prop} {table other : SymbolTable}
    (hmem : ∀ entry, entry ∈ table ↔ entry ∈ other) {address : Nat} {access : Access}
    {found answer : Option Entry} (hf : FindsByAddress asks table address access found)
    (ha : FindsByAddress asks other address access answer) : found = answer := by
  have hasymm := @Entry.not_precedes_of_precedes address
  have hset : ∀ p : Entry → Prop, {x | x ∈ table ∧ p x} = {x | x ∈ other ∧ p x} := by
    intro p
    ext x
    exact and_congr_left fun _ => hmem x
  obtain ⟨reader, writer, masked, hr, hw, hm, rfl⟩ := hf
  obtain ⟨reader', writer', masked', hr', hw', hm', rfl⟩ := ha
  rw [hset] at hr hw hm
  rw [hr.unique hasymm hr', hw.unique hasymm hw', hm.unique hasymm hm']

/-- Two tables with consistent indexes and the same entries give the same answers. -/
theorem sameAnswers_of_get?_eq {table other : SymbolTable} (ht : table.Indexed)
    (ho : other.Indexed) (h : ∀ label, table.get? label = other.get? label) :
    SameAnswers table other := by
  have hequiv : table.byLabel.Equiv other.byLabel := Std.TreeMap.Equiv.of_forall_constGet?_eq h
  have hmem := mem_of_get?_eq h
  have hcontains : table.contains = other.contains := by
    funext label
    exact hequiv.contains_eq
  have hfresh : ∀ address stem,
      table.freshLabel address stem = other.freshLabel address stem := by
    intro address stem
    unfold freshLabel
    rw [hcontains]
  refine
    { get? := h
      contains := fun label => congrFun hcontains label
      entries := congrArg (List.map Prod.snd) hequiv.toList_eq
      size := hequiv.size_eq
      isEmpty := hequiv.isEmpty_eq
      findByValue? := fun value => ?_
      findByAddress? := fun address access => ?_
      generate := fun address stem => ?_ }
  · have hset : {x | x ∈ table ∧ x.value = value ∧ x.symbol.kind ≠ .constant}
        = {x | x ∈ other ∧ x.value = value ∧ x.symbol.kind ≠ .constant} := by
      ext x
      exact and_congr_left fun _ => hmem x
    have hfirst := findByValue?_isFirst ht value
    rw [hset] at hfirst
    exact hfirst.unique valueBefore_asymm (findByValue?_isFirst ho value)
  · exact (findByAddress?_finds ht address access).unique hmem
      (findByAddress?_finds ho address access)
  · unfold generate
    rw [hfresh]

/-! ### The indexed look-ups -/

/-- **Look-ups find what a search through all entries finds.**  After any changes, in any order,
the answer for an address is the first claim in the direction asked for, or for any other access
the first claim on reading, else on writing; where there is none it is the first masked entry that
answers in a direction asked for, which is either one unless the access is for reading alone or for
writing alone.  The answer for a value is the first entry with that value that is no constant.
Histories that end with the same entries are answered alike. -/
theorem ofEdits_lookups (edits : List Edit) :
    (∀ address access, FindsByAddress Access.Selects (ofEdits edits) address access
        ((ofEdits edits).findByAddress? address access)) ∧
      (∀ value, IsFirst ValueBefore
        {entry | entry ∈ ofEdits edits ∧ entry.value = value ∧ entry.symbol.kind ≠ .constant}
        ((ofEdits edits).findByValue? value)) ∧
      ∀ others, (∀ label, (ofEdits edits).get? label = (ofEdits others).get? label) →
        SameAnswers (ofEdits edits) (ofEdits others) :=
  ⟨findByAddress?_finds (ofEdits_indexed edits), findByValue?_isFirst (ofEdits_indexed edits),
    fun others => sameAnswers_of_get?_eq (ofEdits_indexed edits) (ofEdits_indexed others)⟩

/-- A register of eight bytes that repeats every 64 bytes from `$d000` to `$d3ff`. -/
def mirrored : Entry :=
  .defined { Definition.ofSymbol ⟨"REG", 0xd000, .project, .global, .plain⟩ with
    format := ⟨8, .littleEndian, .hex, none⟩
    mask := some ⟨0xfc00, 0xd000, 0x3f⟩ }

/-- A label placed over the register. -/
def overlay : Entry := .label ⟨"TOP", 0xd044, .user, .global, .plain⟩

theorem get?_ofEdits_mirrored (label : String) :
    (ofEdits [.put mirrored]).get? label
      = if mirrored.name = label then some mirrored else none := by
  show (empty.put mirrored).get? label = _
  rw [get?_put, get?_empty]

/-- Placing a label over a register and taking it away again is seen by no look-up. -/
theorem ofEdits_lookups_overlay :
    (∀ label, (ofEdits [.put mirrored]).get? label
        = (ofEdits [.put overlay, .add mirrored, .erase "TOP"]).get? label) ∧
      SameAnswers (ofEdits [.put mirrored])
        (ofEdits [.put overlay, .add mirrored, .erase "TOP"]) := by
  have hsame : ∀ label, (ofEdits [.put mirrored]).get? label
      = (ofEdits [.put overlay, .add mirrored, .erase "TOP"]).get? label := by
    intro label
    have hright : ofEdits [.put overlay, .add mirrored, .erase "TOP"]
        = ((empty.put overlay).insert mirrored).erase "TOP" := rfl
    rw [get?_ofEdits_mirrored, hright, get?_erase, get?_insert, get?_put, get?_empty]
    by_cases htop : "TOP" = label
    · have hreg : ¬ mirrored.name = label := by
        rw [← htop]
        decide
      rw [if_pos htop, if_neg hreg]
    · have hover : ¬ overlay.name = label := htop
      rw [if_neg htop, if_neg hover]
  exact ⟨hsame, (ofEdits_lookups [.put mirrored]).2.2 _ hsame⟩

/-- A look-up for no direction at all is answered by a masked entry, although the entry has no
direction in common with it. -/
theorem masked_answers_no_direction :
    ¬ FindsByAddress Access.Meets (ofEdits [.put mirrored]) 0xd044 ⟨0#8⟩
      ((ofEdits [.put mirrored]).findByAddress? 0xd044 ⟨0#8⟩) := by
  have hfound : (ofEdits [.put mirrored]).findByAddress? 0xd044 ⟨0#8⟩ = some mirrored := by
    decide
  rw [hfound]
  intro h
  obtain ⟨reader, writer, masked, hr, hw, hm, heq⟩ := h
  have honly : ∀ x ∈ ofEdits [.put mirrored], x = mirrored := by
    intro x hx
    rw [mem_iff, get?_ofEdits_mirrored] at hx
    by_cases hname : mirrored.name = x.name
    · rw [if_pos hname] at hx
      exact (Option.some.inj hx).symm
    · rw [if_neg hname] at hx
      cases hx
  have hnone : ∀ direction found,
      IsFirst (Entry.Precedes 0xd044)
        {x | x ∈ ofEdits [.put mirrored] ∧ x.ClaimsAt direction 0xd044} found →
      found = none := by
    intro direction found hfirst
    cases found with
    | none => rfl
    | some x =>
        have hx := hfirst.mem
        have hmask := hx.2.unmasked
        rw [honly x hx.1] at hmask
        cases hmask
  have hmasked : masked = none := by
    cases masked with
    | none => rfl
    | some x =>
        have hx := hm.mem.2.admitted
        exact absurd (BitVec.zero_and) hx
  rw [hnone _ _ hr, hnone _ _ hw, hmasked] at heq
  cases heq

end SymbolTable

end Disasm65
