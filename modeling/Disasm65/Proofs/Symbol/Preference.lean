/-
At every address the entries stand in one order.

The order is strict and total as far as labels tell entries apart (`precedence_swap`,
`precedes_trans`, `eq_of_precedence`), so among finitely many entries with labels of their own one
is preferred to all the others.  An index keeps the preferred one by comparing each claim with the
holder, and it makes no difference in which order the claims come (`getElem?_foldl_claim_at`).  Nor
does the order of additions to a table, for it decides only which of two entries with one label
gets in (`get?_foldl_add`).
-/
import Mathlib
import Disasm65.Proofs.Symbol.Fresh
import Disasm65.Proofs.Symbol.Lookup

namespace Disasm65

namespace Entry

theorem precedence_swap (address : Nat) (a b : Entry) :
    precedence address b a = (precedence address a b).swap :=
  @Std.OrientedCmp.eq_swap _ (precedence address) _ b a

/-- Entries that are equal in the order have one origin and one label. -/
theorem eq_of_precedence {address : Nat} {a b : Entry} (h : precedence address a b = .eq) :
    a.origin = b.origin ∧ a.name = b.name := by
  refine ⟨?_, name_eq_of_precedence_eq h⟩
  unfold precedence at h
  exact Origin.rank_injective (Std.LawfulEqCmp.eq_of_compare (Ordering.then_eq_eq.mp h).1)

/-- The entry is one of `entries` and comes before all the others at `address`. -/
def PreferredIn (address : Nat) (entries : Finset Entry) (first : Entry) : Prop :=
  first ∈ entries ∧ ∀ entry ∈ entries, entry ≠ first → precedence address first entry = .lt

end Entry

/-- The list holds the entries, in some order; it may hold one several times. -/
def Lists (order : List Entry) (entries : Finset Entry) : Prop :=
  ∀ entry, entry ∈ order ↔ entry ∈ entries

/-! ### Claims on one address -/

/-- At its own address an index prefers one claim after the other. -/
theorem ClaimIndex.getElem?_foldl_claim_at (address : Nat) :
    ∀ (order : List Entry) (index : ClaimIndex),
      (order.foldl (fun index entry => index.claim entry address) index)[address]?
        = order.foldl (SymbolTable.prefer address) index[address]? := by
  intro order
  induction order with
  | nil => exact fun _ => rfl
  | cons entry rest ih =>
      intro index
      rw [List.foldl_cons, List.foldl_cons, ih, getElem?_claim, if_pos rfl]

section Preferred

variable {address : Nat} {entries : Finset Entry} {order : List Entry}

/-- Whatever the order, comparing one by one finds the first of the entries. -/
theorem isFirst_of_lists (hnames : Set.InjOn Entry.name (entries : Set Entry))
    (horder : Lists order entries) :
    IsFirst (Entry.Precedes address) (entries : Set Entry)
      (order.foldl (SymbolTable.prefer address) none) := by
  have hfirst := @SymbolTable.isFirst_foldl_prefer address order ∅ none rfl
    fun x y hx hy hname => by
      rcases hx with hx | hx
      · exact absurd hx (Set.notMem_empty x)
      · exact hnames ((horder x).mp hx) ((horder y).mp hy) hname
  have hset : ∅ ∪ {x | x ∈ order} = (entries : Set Entry) := by
    rw [Set.empty_union]
    ext x
    exact horder x
  rwa [hset] at hfirst

theorem preferredIn_iff_isFirst {first : Entry} :
    Entry.PreferredIn address entries first
      ↔ IsFirst (Entry.Precedes address) (entries : Set Entry) (some first) :=
  Iff.rfl

/-- **Of finitely many entries with labels of their own, one is preferred.** -/
theorem existsUnique_preferredIn (hnonempty : entries.Nonempty)
    (hnames : Set.InjOn Entry.name (entries : Set Entry)) :
    ∃! first, Entry.PreferredIn address entries first := by
  have hfound := @isFirst_of_lists address entries entries.toList hnames fun _ =>
    Finset.mem_toList
  cases hfirst : entries.toList.foldl (SymbolTable.prefer address) none with
  | none =>
      rw [hfirst] at hfound
      exact absurd (Finset.coe_eq_empty.mp hfound) hnonempty.ne_empty
  | some first =>
      rw [hfirst] at hfound
      refine ⟨first, hfound, fun other hother => ?_⟩
      exact Option.some.inj
        ((preferredIn_iff_isFirst.mp hother).unique Entry.not_precedes_of_precedes hfound)

/-- An index holds the preferred one of the claims that have been entered. -/
theorem getElem?_foldl_claim_of_preferredIn {first : Entry}
    (hnames : Set.InjOn Entry.name (entries : Set Entry))
    (hfirst : Entry.PreferredIn address entries first) (horder : Lists order entries) :
    (order.foldl (fun index entry => index.claim entry address) (∅ : ClaimIndex))[address]?
      = some first := by
  rw [ClaimIndex.getElem?_foldl_claim_at, Std.TreeMap.getElem?_emptyc]
  exact (isFirst_of_lists hnames horder).unique Entry.not_precedes_of_precedes
    (preferredIn_iff_isFirst.mp hfirst)

end Preferred

/-! ### Additions to a table -/

namespace SymbolTable

/-- An addition fails only if the label is taken. -/
theorem get?_ne_none_of_add_eq_error {table : SymbolTable} {entry : Entry} {fault : Fault}
    (h : table.add entry = .error fault) : table.get? entry.name ≠ none := by
  intro hfree
  rw [add, contains_eq_false.mpr hfree] at h
  cases h

theorem get?_apply_add (table : SymbolTable) (entry : Entry) (label : String) :
    ((Edit.add entry).apply table).get? label
      = (table.get? label).or (if entry.name = label then some entry else none) := by
  cases hadd : table.add entry with
  | ok other =>
      obtain ⟨hfree, rfl⟩ := add_eq_ok hadd
      simp only [Edit.apply, hadd, get?_insert]
      by_cases hl : entry.name = label
      · rw [if_pos hl, if_pos hl, ← hl, hfree, Option.none_or]
      · rw [if_neg hl, if_neg hl, Option.or_none]
  | error fault =>
      simp only [Edit.apply, hadd]
      by_cases hl : entry.name = label
      · obtain ⟨holder, hholder⟩ :=
          Option.ne_none_iff_exists'.mp (get?_ne_none_of_add_eq_error hadd)
        rw [← hl, hholder, Option.some_or]
      · rw [if_neg hl, Option.or_none]

/-- Under a label stands what stood there, or else the first entry that is added with it. -/
theorem get?_foldl_add (label : String) :
    ∀ (order : List Entry) (table : SymbolTable),
      ((order.map Edit.add).foldl Edit.apply table).get? label
        = (table.get? label).or (order.find? fun entry => entry.name = label) := by
  intro order
  induction order with
  | nil => exact fun table => (Option.or_none).symm
  | cons entry rest ih =>
      intro table
      rw [List.map_cons, List.foldl_cons, ih, get?_apply_add, Option.or_assoc, List.find?_cons]
      by_cases hl : entry.name = label
      · rw [if_pos hl, decide_eq_true hl, Option.some_or]
      · rw [if_neg hl, decide_eq_false hl, Option.none_or]

/-- With labels of their own, the entries that are added are the entries of the table. -/
theorem get?_ofEdits_add {entries : Finset Entry} {order : List Entry}
    (hnames : Set.InjOn Entry.name (entries : Set Entry)) (horder : Lists order entries)
    {label : String} {entry : Entry} :
    (ofEdits (order.map Edit.add)).get? label = some entry
      ↔ entry ∈ entries ∧ entry.name = label := by
  rw [ofEdits, get?_foldl_add, get?_empty, Option.none_or]
  constructor
  · intro hfound
    exact ⟨(horder entry).mp (List.mem_of_find?_eq_some hfound),
      by simpa using List.find?_some hfound⟩
  · rintro ⟨hentry, rfl⟩
    cases hfound : order.find? fun x => x.name = entry.name with
    | none =>
        have hnot := List.find?_eq_none.mp hfound entry ((horder entry).mpr hentry)
        simp at hnot
    | some other =>
        have hother := (horder other).mp (List.mem_of_find?_eq_some hfound)
        have hname : other.name = entry.name := by simpa using List.find?_some hfound
        rw [hnames hother hentry hname]

/-- The order of additions is seen by no look-up. -/
theorem sameAnswers_of_lists {entries : Finset Entry} {order other : List Entry}
    (hnames : Set.InjOn Entry.name (entries : Set Entry)) (horder : Lists order entries)
    (hother : Lists other entries) :
    SameAnswers (ofEdits (order.map Edit.add)) (ofEdits (other.map Edit.add)) := by
  refine sameAnswers_of_get?_eq (ofEdits_indexed _) (ofEdits_indexed _) fun label => ?_
  refine Option.ext fun entry => ?_
  rw [get?_ofEdits_add hnames horder, get?_ofEdits_add hnames hother]

end SymbolTable

/-! ### One order -/

open SymbolTable in
/-- **At every address the entries stand in one order.**  Comparing two of them the other way round
gives the opposite, what comes before comes before all that follows, and only entries of one origin
and label are equal.  So of finitely many entries with labels of their own exactly one is preferred.
An index holds that one, and a table gives the same answers, in whatever order they are entered. -/
theorem Entry.precedence_decides (address : Nat) :
    (∀ a b : Entry, precedence address b a = (precedence address a b).swap)
      ∧ (∀ a b c : Entry, precedence address a b = .lt → precedence address b c = .lt →
          precedence address a c = .lt)
      ∧ (∀ a b : Entry, precedence address a b = .eq → a.origin = b.origin ∧ a.name = b.name)
      ∧ ∀ entries : Finset Entry, Set.InjOn Entry.name (entries : Set Entry) →
          (entries.Nonempty → ∃! first, PreferredIn address entries first)
            ∧ (∀ first, PreferredIn address entries first → ∀ order, Lists order entries →
                (order.foldl (fun index entry => index.claim entry address)
                  (∅ : ClaimIndex))[address]? = some first)
            ∧ ∀ order other, Lists order entries → Lists other entries →
                SameAnswers (ofEdits (order.map Edit.add)) (ofEdits (other.map Edit.add)) :=
  ⟨precedence_swap address, fun _ _ _ => precedes_trans, fun _ _ => eq_of_precedence,
    fun _ hnames => ⟨fun hnonempty => existsUnique_preferredIn hnonempty hnames,
      fun _ hfirst _ => getElem?_foldl_claim_of_preferredIn hnames hfirst,
      fun _ _ => sameAnswers_of_lists hnames⟩⟩

/-- Two platform files define the border colour, the second one as part of a wider range, and a
label has been generated there. -/
def borders : List Entry :=
  [.defined { Definition.ofSymbol ⟨"BORDER", 0xd020, .platform, .global, .plain⟩ with
      loadOrdinal := 1 },
   .defined { Definition.ofSymbol ⟨"VIC", 0xd000, .platform, .global, .plain⟩ with
      format := ⟨64, .littleEndian, .hex, none⟩
      loadOrdinal := 2 },
   .label ⟨"LD020", 0xd020, .auto, .localOrGlobal, .plain⟩]

/-- The later file wins, although the value of the earlier one is nearer and in whatever order the
three are entered. -/
theorem Entry.precedence_decides_borders :
    Set.InjOn Entry.name (borders.toFinset : Set Entry) ∧ borders.toFinset.Nonempty
      ∧ ∃ first, first.name = "VIC" ∧ PreferredIn 0xd020 borders.toFinset first
        ∧ ∀ order, Lists order borders.toFinset →
            (order.foldl (fun index entry => index.claim entry 0xd020)
              (∅ : ClaimIndex))[0xd020]? = some first := by
  have hnames : Set.InjOn Entry.name (borders.toFinset : Set Entry) := by
    intro a ha b hb
    rw [List.coe_toFinset] at ha hb
    have hall : ∀ a ∈ borders, ∀ b ∈ borders, a.name = b.name → a = b := by decide +kernel
    exact hall a ha b hb
  obtain ⟨hunique, hholds, -⟩ := (precedence_decides 0xd020).2.2.2 borders.toFinset hnames
  have hnonempty : borders.toFinset.Nonempty := by decide +kernel
  obtain ⟨first, hfirst, -⟩ := hunique hnonempty
  refine ⟨hnames, hnonempty, first, ?_, hfirst, hholds first hfirst⟩
  have hheld := hholds first hfirst borders fun _ => List.mem_toFinset.symm
  have hvic : ((borders.foldl (fun index entry => index.claim entry 0xd020)
      (∅ : ClaimIndex))[0xd020]?).map Entry.name = some "VIC" := by decide +kernel
  rw [hheld, Option.map_some, Option.some.injEq] at hvic
  exact hvic

end Disasm65
