/-
The data passes do nothing the second time.

For each pass there is a state in which it finds nothing to do.  The walk over the targets does
nothing if no byte that it comes to refers to the image, and the walk that gathers ranges if it
passes from item to item (`Passed.gatherFrom`).  Each pass leaves the workspace in its own state.
As the second one puts items only where the first has walked byte by byte (`AddsItems`), it leaves
the workspace in the state of the first as well.
-/
import Mathlib
import Disasm65.Proofs.Data.Classing
import Disasm65.Proofs.Data.Gathering
import Disasm65.Proofs.Data.Settling

namespace Disasm65.Data

variable {survey : Survey} {w u v : Workspace}

/-! ### Ranges -/

theorem kind_of_create {length : Nat} {kind : FormatKind} {detail : FormatDetail} {format : Format}
    (h : Format.create length kind detail = .ok format) : format.kind = kind := by
  unfold Format.create at h
  split at h
  · cases h
  · cases h
    rfl

theorem frontItems_not_numeric {parameters : Parameters} {bytes : List UInt8} {items : List Format}
    {taken : Nat} (h : frontItems parameters bytes = .ok (items, taken)) :
    ∀ format ∈ items, format.isNumeric = false := by
  unfold frontItems at h
  dsimp only at h
  split at h
  · split at h
    · rename_i format hformat
      cases h
      simp [Format.isNumeric, kind_of_create hformat, FormatKind.isNumeric]
    · cases h
  · split at h
    · split at h
      · rename_i format hformat
        cases h
        simp [Format.isNumeric, kind_of_create hformat, FormatKind.isNumeric]
      · cases h
    · cases h
      intro format hformat
      rw [List.eq_of_mem_replicate hformat]
      rfl

theorem cutBytes_not_numeric {parameters : Parameters} (fuel : Nat) (bytes : List UInt8) :
    ∀ format ∈ (cutBytes parameters fuel bytes).1, format.isNumeric = false := by
  induction fuel generalizing bytes with
  | zero => exact List.forall_mem_nil _
  | succ fuel ih =>
      cases bytes with
      | nil => exact List.forall_mem_nil _
      | cons first rest =>
          rw [cutBytes]
          split
          · exact List.forall_mem_nil _
          · rename_i front taken hfront
            intro format hformat
            rcases List.mem_append.mp hformat with hmem | hmem
            · exact frontItems_not_numeric hfront format hmem
            · exact ih _ format hmem

/-- No item that is cut off a range is a number. -/
theorem rangeItems_not_numeric (parameters : Parameters) (bytes : List UInt8) :
    ∀ format ∈ (rangeItems parameters bytes).1, format.isNumeric = false := by
  unfold rangeItems
  split
  · exact cutBytes_not_numeric _ _
  · intro format hformat
    rw [List.eq_of_mem_replicate hformat]
    rfl

/-- A range that is closed well has items from its start to its end; none of them is a number. -/
theorem closeRange_attached {closed : Option Nat} {stop : Nat} (hle : closed.getD stop ≤ stop)
    (himage : stop ≤ survey.image.size) (hsize : stop ≤ w.attributes.size)
    (h : closeRange survey closed stop w = u.done) :
    u.symbols = w.symbols ∧ ∃ items, Cuts items (stop - closed.getD stop)
      ∧ (∀ format ∈ items, format.isNumeric = false)
      ∧ Attached (placed (closed.getD stop) items) w.attributes u.attributes := by
  cases closed with
  | none =>
      obtain rfl := done_inj.mp h
      refine ⟨rfl, [], ⟨List.forall_mem_nil _, ?_⟩, List.forall_mem_nil _, rfl,
        fun _ _ hmem => absurd hmem List.not_mem_nil, fun _ _ => rfl⟩
      rw [Option.getD_none, Nat.sub_self]
      rfl
  | some start =>
      rw [Option.getD_some] at hle ⊢
      obtain ⟨items, hitems, hcuts, rfl⟩ := formatRange_items hle himage h
      refine ⟨rfl, items, hcuts, ?_, placeItems_attached hcuts (by omega)⟩
      have hkind := rangeItems_not_numeric survey.parameters
        (survey.image.bytesFrom start (stop - start))
      rwa [hitems] at hkind

/-- From one workspace to the other bytes that end no range get items, of which none is a number and
each covers only such bytes. -/
structure Fills (w v : Workspace) : Prop where
  symbols : v.symbols = w.symbols
  size : v.attributes.size = w.attributes.size
  byte : ∀ i, v.info i = w.info i
    ∨ ∃ format : Format, format.isNumeric = false
      ∧ (0 < format.length ∧ i + format.length ≤ w.attributes.size)
      ∧ v.info i = { w.info i with format := some format }
      ∧ ∀ j, i ≤ j → j < i + format.length → endsRange? (w.info j) = none

namespace Fills

theorem refl (w : Workspace) : Fills w w := ⟨rfl, rfl, fun _ => Or.inl rfl⟩

/-- What ends a range is left alone. -/
theorem kept (h : Fills w v) {i length : Nat} (hends : endsRange? (w.info i) = some length) :
    v.info i = w.info i := by
  rcases h.byte i with hsame | ⟨format, _, ⟨hpos, _⟩, _, hfree⟩
  · exact hsame
  · cases hends.symm.trans (hfree i (Nat.le_refl i) (by omega))

theorem free (h : Fills w v) {i : Nat} (hfree : endsRange? (v.info i) = none) :
    endsRange? (w.info i) = none := by
  cases hends : endsRange? (w.info i) with
  | none => rfl
  | some length =>
      rw [h.kept hends] at hfree
      cases hends.symm.trans hfree

theorem trans (h : Fills w u) (h' : Fills u v) : Fills w v := by
  refine ⟨h'.symbols.trans h.symbols, h'.size.trans h.size, fun i => ?_⟩
  rcases h'.byte i with hsame | ⟨format, hkind, hlength, hinfo, hfree⟩
  · rw [hsame]
    exact h.byte i
  · refine Or.inr ⟨format, hkind, h.size ▸ hlength, ?_, fun j hlo hhi => h.free (hfree j hlo hhi)⟩
    rw [hinfo]
    rcases h.byte i with hsame | ⟨other, _, _, hinfo', _⟩
    · rw [hsame]
    · rw [hinfo']

theorem marks (h : Fills w v) (i : Nat) : (v.info i).marks = (w.info i).marks := by
  rcases h.byte i with hsame | ⟨_, _, _, hinfo, _⟩
  · rw [hsame]
  · rw [hinfo]

theorem roomy (h : Fills w v) (hroomy : Roomy w.attributes)
    (hsize : w.attributes.size < 0x8000000000000000) : Roomy v.attributes := by
  intro i format hformat
  rw [← Workspace.info] at hformat
  rcases h.byte i with hsame | ⟨other, _, ⟨_, hend⟩, hinfo, _⟩
  · exact hroomy i format ((congrArg Attribute.format hsame).symm.trans hformat)
  · rw [hinfo, Option.some.injEq] at hformat
    rw [← hformat]
    omega

end Fills

theorem Attached.fills {start stop : Nat} {items : List Format} (hsymbols : u.symbols = w.symbols)
    (h : Attached (Data.placed start items) w.attributes u.attributes)
    (hcuts : Cuts items (stop - start)) (hkind : ∀ format ∈ items, format.isNumeric = false)
    (hle : start ≤ stop) (hsize : stop ≤ w.attributes.size)
    (hfree : ∀ j, start ≤ j → j < stop → endsRange? (w.info j) = none) : Fills w u := by
  refine ⟨hsymbols, h.size, fun i => ?_⟩
  by_cases hentry : ∃ format, (i, format) ∈ Data.placed start items
  · obtain ⟨format, hmem⟩ := hentry
    obtain ⟨hitem, hpos, hlo, hhi⟩ := hcuts.mem_placed hle hmem
    exact Or.inr ⟨format, hkind format hitem, ⟨hpos, hhi.trans hsize⟩, h.placed i format hmem,
      fun j hlo' hhi' => hfree j (hlo.trans hlo') (hhi'.trans_le hhi)⟩
  · exact Or.inl (h.elsewhere i fun format hmem => hentry ⟨format, hmem⟩)

/-- The walk passes from item to item, up to the end. -/
inductive Passed (attributes : Attributes) : Nat → Prop where
  | past {offset : Nat} (h : attributes.size ≤ offset) : Passed attributes offset
  | item {offset length : Nat} (hends : endsRange? (attributes.info offset) = some length)
      (rest : Passed attributes (offset + max length 1)) : Passed attributes offset

/-- What ends a range is one byte long, or as long as its format. -/
theorem Roomy.endsRange? (h : Roomy w.attributes) {i length : Nat} (hi : i < 0x8000000000000000)
    (hends : endsRange? (w.info i) = some length) : i + max length 1 < 0x10000000000000000 := by
  rcases length_of_endsRange? hends with hone | ⟨format, hformat, rfl⟩
  · omega
  · have := h i format hformat
    omega

/-- **A walk that passes from item to item gathers nothing.** -/
theorem Passed.gatherFrom {offset : Nat} (h : Passed w.attributes offset)
    (hroomy : Roomy w.attributes) (hsize : w.attributes.size < 0x8000000000000000) {fuel : Nat}
    (hfuel : w.attributes.size ≤ offset + fuel) :
    gatherFrom survey (fuel + 1) offset none w = w.done := by
  induction h generalizing fuel with
  | past hle =>
      rw [Data.gatherFrom]
      exact if_pos hle
  | @item offset length hends _ ih =>
      rw [Data.gatherFrom]
      dsimp only
      split
      · rfl
      · rename_i hlt
        rw [Workspace.info, hends]
        have hnext : stepOver offset length = .ok (offset + max length 1) :=
          addWords_of_lt (hroomy.endsRange? (Nat.lt_of_not_le hlt |>.trans hsize) hends)
        obtain ⟨fuel, rfl⟩ : ∃ n, fuel = n + 1 := ⟨fuel - 1, by omega⟩
        dsimp only
        rw [hnext]
        exact ih (by omega)

/-- Items that follow each other are passed one after the other. -/
theorem Passed.of_placed {attributes : Attributes} {items : List Format} {start : Nat}
    (hplain : ∀ format ∈ items, 0 < format.length)
    (hends : ∀ i format, (i, format) ∈ placed start items →
      endsRange? (attributes.info i) = some format.length)
    (h : Passed attributes (start + (items.map (·.length)).sum)) : Passed attributes start := by
  induction items generalizing start with
  | nil => exact h
  | cons format others ih =>
      obtain ⟨hpos, hothers⟩ := List.forall_mem_cons.mp hplain
      refine .item (hends start format List.mem_cons_self) ?_
      rw [Nat.max_eq_left hpos]
      refine ih hothers (fun i other hmem => hends i other (List.mem_cons_of_mem _ hmem)) ?_
      rwa [List.map_cons, List.sum_cons, ← Nat.add_assoc] at h

/-- The byte is code, inline data or data. -/
def Typed (a : Attribute) : Prop :=
  a.isInstruction = true ∨ a.isInlineData = true ∨ a.isData = true

/-- A byte that ends no range has no format, and a format makes it an item. -/
theorem Typed.endsRange? {a : Attribute} (h : Typed a) (hfree : endsRange? a = none) :
    a.format = none
      ∧ ∀ format : Format,
          Data.endsRange? { a with format := some format } = some format.length := by
  obtain ⟨hcode, hinline, hstart⟩ := endsRange?_eq_none.mp hfree
  have hdata : a.isData = true := by
    rcases h with h | h | h
    · cases hcode.symm.trans h
    · cases hinline.symm.trans h
    · exact h
  rw [Attribute.isDataStart, hdata, Bool.true_and, Option.isSome_eq_false_iff,
    Option.isNone_iff_eq_none] at hstart
  refine ⟨hstart, fun format => ?_⟩
  rw [Attribute.isInstruction] at hcode
  rw [Attribute.isData] at hdata
  simp [Data.endsRange?, Attribute.isDataStart, Attribute.length, hcode, hdata]

/-- From one workspace to the other the range from `start` up to `stop` is closed: it gets items,
and nothing else changes.  Whoever passes the bytes behind it passes the range. -/
structure Closes (start stop : Nat) (w u : Workspace) : Prop where
  fills : Fills w u
  outside : ∀ j, j < start ∨ stop ≤ j → u.info j = w.info j
  passed : ∀ v : Workspace, (∀ j < stop, v.info j = u.info j) → Passed v.attributes stop →
    Passed v.attributes start

theorem closeRange_closes {closed : Option Nat} {stop : Nat}
    (himage : w.attributes.size = survey.image.size) (hle : closed.getD stop ≤ stop)
    (hsize : stop ≤ w.attributes.size) (htyped : ∀ j < w.attributes.size, Typed (w.info j))
    (hfree : ∀ j, closed.getD stop ≤ j → j < stop → endsRange? (w.info j) = none)
    (h : closeRange survey closed stop w = u.done) : Closes (closed.getD stop) stop w u := by
  obtain ⟨hsymbols, items, hcuts, hkind, hattached⟩ :=
    closeRange_attached hle (himage ▸ hsize) hsize h
  refine ⟨hattached.fills hsymbols hcuts hkind hle hsize hfree, fun j hj => ?_,
    fun v hsame hpassed => ?_⟩
  · refine hattached.elsewhere j fun format hmem => ?_
    obtain ⟨-, hpos, hlo, hhi⟩ := hcuts.mem_placed hle hmem
    omega
  · refine .of_placed (fun format hmem => (hcuts.plain format hmem).2) (fun i format hmem => ?_) ?_
    · obtain ⟨-, hpos, hlo, hhi⟩ := hcuts.mem_placed hle hmem
      have hlt : i < stop := by omega
      have hinfo : v.attributes.info i = { w.info i with format := some format } :=
        (hsame i hlt).trans (hattached.placed i format hmem)
      rw [hinfo]
      exact ((htyped i (by omega)).endsRange? (hfree i hlo hlt)).2 format
    · rwa [hcuts.total, Nat.add_sub_cancel' hle]

/-- The walk stands at `offset`.  The range under way lies in the image and holds nothing that ends
a range. -/
structure March (survey : Survey) (offset : Nat) (start : Option Nat) (w : Workspace) : Prop where
  image : w.attributes.size = survey.image.size
  word : w.attributes.size < 0x8000000000000000
  begun : start.getD offset ≤ offset
  inside : start.isSome = true → offset ≤ w.attributes.size
  free : ∀ j, start.getD offset ≤ j → j < offset → endsRange? (w.info j) = none
  typed : ∀ j < w.attributes.size, Typed (w.info j)
  roomy : Roomy w.attributes

section March

variable {offset stop next : Nat} {start closed after : Option Nat}

/-- A turn closes its range. -/
theorem March.closes (hm : March survey offset start w) (hlt : offset < w.attributes.size)
    (hturn : Turn w offset start closed stop next after)
    (hclose : closeRange survey closed stop w = u.done) : Closes (start.getD offset) stop w u := by
  obtain ⟨hclosed, hlo, hhi, -, -, -⟩ := hturn.bounds hm.begun
  rw [← hclosed]
  refine closeRange_closes hm.image (by omega) (by omega) hm.typed (fun j hj hj' => ?_) hclose
  cases hturn with
  | passes => exact hm.free j hj hj'
  | takes _ _ _ hfree =>
      rcases Nat.lt_succ_iff_lt_or_eq.mp (Nat.lt_of_lt_of_le hj' hhi) with hbefore | rfl
      · exact hm.free j (by omega) hbefore
      · exact hfree

/-- A turn that closes its range well leads on. -/
theorem March.turn (hm : March survey offset start w) (hlt : offset < w.attributes.size)
    (hturn : Turn w offset start closed stop next after)
    (hcloses : Closes (start.getD offset) stop w u) : March survey next after u := by
  obtain ⟨-, hlo, hhi, hstop, hafter, hnext⟩ := hturn.bounds hm.begun
  have hfills := hcloses.fills
  refine ⟨hfills.size.trans hm.image, hfills.size.symm ▸ hm.word, hafter, fun hsome => ?_,
    fun j hj hj' => ?_, fun j hj => ?_, hfills.roomy hm.roomy hm.word⟩
  · cases hturn with
    | passes => cases hsome
    | takes => exact hfills.size.symm ▸ hlt
  · rw [hcloses.outside j (Or.inr (by omega))]
    cases hturn with
    | passes => exact absurd hj' (Nat.not_lt_of_le hj)
    | takes _ _ _ hfree =>
        rcases Nat.lt_succ_iff_lt_or_eq.mp hj' with hbefore | rfl
        · exact hm.free j (by omega) hbefore
        · exact hfree
  · have hmarks := hfills.marks j
    unfold Typed Attribute.isInstruction Attribute.isInlineData Attribute.isData
    rw [hmarks]
    exact hm.typed j (hfills.size ▸ hj)

/-- What has become of `w` when the walk has ended that had a range under way from `first` on. -/
structure Marched (first : Nat) (w v : Workspace) : Prop where
  fills : Fills w v
  before : ∀ j < first, v.info j = w.info j
  passed : Passed v.attributes first

theorem Marched.of_le {first : Nat} (h : w.attributes.size ≤ first) : Marched first w w :=
  ⟨.refl w, fun _ _ => rfl, .past h⟩

/-- **The walk leaves items behind it**, from where the range under way starts to the end. -/
theorem gatherFrom_marched (fuel : Nat) {offset : Nat} {start : Option Nat} {w : Workspace}
    (hm : March survey offset start w) (h : gatherFrom survey fuel offset start w = v.done) :
    Marched (start.getD offset) w v := by
  induction fuel generalizing offset start w with
  | zero => exact absurd h stop_ne_done
  | succ fuel ih =>
      by_cases hlt : offset < w.attributes.size
      · obtain ⟨closed, stop, next, after, hturn, hstep⟩ := gatherFrom_succ survey hlt hm.begun
          fun length hends => hm.roomy.endsRange? (hlt.trans hm.word) hends
        rw [hstep] at h
        obtain ⟨u, hclose, hrest⟩ := andThen_eq_done.mp h
        have hcloses := hm.closes hlt hturn hclose
        obtain ⟨-, hlo, -, hstop, -, hnext⟩ := hturn.bounds hm.begun
        have hmarched := ih (hm.turn hlt hturn hcloses) hrest
        have hsame : ∀ j < stop, v.info j = u.info j := fun j hj => hmarched.before j (by omega)
        have hpassed : Passed v.attributes stop := by
          cases hturn with
          | passes length hends =>
              refine .item ?_ hmarched.passed
              rw [← hends, ← hcloses.outside offset (Or.inr (Nat.le_refl _)),
                ← hmarched.before offset hnext]
              rfl
          | takes _ _ _ _ _ hafter => exact hafter ▸ hmarched.passed
        refine ⟨hcloses.fills.trans hmarched.fills, fun j hj => ?_,
          hcloses.passed v hsame hpassed⟩
        rw [hsame j (by omega), hcloses.outside j (Or.inl hj)]
      · rw [gatherFrom, if_pos (Nat.le_of_not_lt hlt)] at h
        cases start with
        | none =>
            obtain rfl := done_inj.mp h
            exact .of_le (Nat.le_of_not_lt hlt)
        | some first =>
            have hle := hm.inside rfl
            obtain rfl : offset = w.attributes.size := by omega
            have hcloses := closeRange_closes hm.image hm.begun (Nat.le_refl _) hm.typed hm.free h
            exact ⟨hcloses.fills, fun j hj => hcloses.outside j (Or.inl hj),
              hcloses.passed v (fun _ _ => rfl) (.past (hcloses.fills.size.symm ▸ Nat.le_refl _))⟩

end March

/-! ### The pass over ranges -/

theorem Classed.typed {a b : Attribute} (h : Classed a b) : Typed b := by
  cases h with
  | kept hkind => exact hkind.elim (fun hinline => Or.inr (Or.inl hinline)) Or.inl
  | shown hinline => exact Or.inr (Or.inl hinline)
  | data => exact Or.inr (Or.inr (by simp))

/-- Classed bytes are ready for the walk. -/
theorem march_classBytes (himage : w.attributes.size = survey.image.size)
    (hsize : survey.image.size < 0x8000000000000000) (hroomy : Roomy w.attributes) :
    March survey 0 none ⟨classBytes w.attributes, w.symbols⟩ := by
  have hsize' := size_classBytes w.attributes
  refine ⟨hsize'.trans himage, by rw [hsize', himage]; exact hsize, Nat.le_refl _,
    fun _ => Nat.zero_le _, fun j _ hj => absurd hj (Nat.not_lt_zero j), fun j hj => ?_,
    fun i format hformat => ?_⟩
  · exact (info_classBytes (hsize' ▸ hj)).typed
  · have hi : i < w.attributes.size := hsize' ▸ lt_size_of_format hformat
    rcases (info_classBytes hi).format_eq with hsame | hone
    · exact hroomy i format (hsame.symm.trans hformat)
    · cases hone.symm.trans hformat
      have hlength : Format.oneByte.length = 1 := rfl
      omega

theorem formatUnclaimed_marched (himage : w.attributes.size = survey.image.size)
    (hsize : survey.image.size < 0x8000000000000000) (hroomy : Roomy w.attributes)
    (h : formatUnclaimed survey w = v.done) :
    Marched 0 ⟨classBytes w.attributes, w.symbols⟩ v :=
  gatherFrom_marched _ (march_classBytes himage hsize hroomy) (formatUnclaimed_eq_done h).2

theorem formatUnclaimed_roomy (himage : w.attributes.size = survey.image.size)
    (hsize : survey.image.size < 0x8000000000000000) (hroomy : Roomy w.attributes)
    (h : formatUnclaimed survey w = v.done) : Roomy v.attributes := by
  have hmarch := march_classBytes himage hsize hroomy
  exact (formatUnclaimed_marched himage hsize hroomy h).fills.roomy hmarch.roomy hmarch.word

/-- The pass does nothing if classing does nothing and the walk passes from item to item. -/
theorem formatUnclaimed_of_passed (hclassed : classBytes w.attributes = w.attributes)
    (hpassed : Passed w.attributes 0) (hroomy : Roomy w.attributes)
    (hsize : w.attributes.size < 0x8000000000000000) : formatUnclaimed survey w = w.done := by
  rw [formatUnclaimed_of_words (inlineFault?_eq_none.mpr fun i format _ => hroomy i format),
    hclassed]
  exact hpassed.gatherFrom hroomy hsize (by omega)

theorem formatUnclaimed_repeats (himage : w.attributes.size = survey.image.size)
    (hsize : survey.image.size < 0x8000000000000000) (hroomy : Roomy w.attributes)
    (h : formatUnclaimed survey w = v.done) : formatUnclaimed survey v = v.done := by
  have hmarched := formatUnclaimed_marched himage hsize hroomy h
  have hfills := hmarched.fills
  have hsize' : v.attributes.size = w.attributes.size :=
    hfills.size.trans (size_classBytes w.attributes)
  refine formatUnclaimed_of_passed (classBytes_of_classed hsize' hfills.marks fun i hinline => ?_)
    hmarched.passed (formatUnclaimed_roomy himage hsize hroomy h)
    (by rw [hsize', himage]; exact hsize)
  -- inline data ends a range
  cases hends : endsRange? ((classBytes w.attributes).info i) with
  | none => cases hinline.symm.trans (endsRange?_eq_none.mp hends).2.1
  | some length => exact hfills.kept hends

/-! ### Both passes -/

/-- The two attributes agree in what the walk over the targets reads, formats apart. -/
structure SameReading (a b : Attribute) : Prop where
  start : b.isInstructionStart = a.isInstructionStart
  operand : b.operandOffset = a.operandOffset
  address : b.address = a.address

/-- From one workspace to the other bytes get items where there were none.  No new item is a number,
and each covers only bytes without a format. -/
structure AddsItems (w v : Workspace) : Prop where
  size : v.attributes.size = w.attributes.size
  byte : ∀ i, SameReading (w.info i) (v.info i)
  format : ∀ i, (v.info i).format = (w.info i).format
    ∨ ∃ format : Format, (v.info i).format = some format ∧ format.isNumeric = false
      ∧ ∀ j, i ≤ j → j < i + max format.length 1 → (w.info j).format = none

namespace AddsItems

/-- No format is lost. -/
theorem bare (h : AddsItems w v) {i : Nat} (hnone : (v.info i).format = none) :
    (w.info i).format = none := by
  rcases h.format i with hsame | ⟨format, hsome, _⟩
  · exact hsame.symm.trans hnone
  · cases hsome.symm.trans hnone

theorem trans (h : AddsItems w u) (h' : AddsItems u v) : AddsItems w v := by
  refine ⟨h'.size.trans h.size, fun i => ⟨(h'.byte i).start.trans (h.byte i).start,
    (h'.byte i).operand.trans (h.byte i).operand, (h'.byte i).address.trans (h.byte i).address⟩,
    fun i => ?_⟩
  rcases h'.format i with hsame | ⟨format, hsome, hkind, hspan⟩
  · rw [hsame]
    exact h.format i
  · exact Or.inr ⟨format, hsome, hkind, fun j hlo hhi => h.bare (hspan j hlo hhi)⟩

end AddsItems

/-- Classing leaves a byte as it is read, and only a byte without a format gets one. -/
theorem Classed.sameReading {a b : Attribute} (h : Classed a b) :
    SameReading a b
      ∧ (b.format = a.format ∨ b.format = some .oneByte ∧ a.format = none) := by
  cases h with
  | kept => exact ⟨⟨rfl, rfl, rfl⟩, Or.inl rfl⟩
  | shown _ hnone => exact ⟨⟨rfl, rfl, rfl⟩, Or.inr ⟨rfl, hnone⟩⟩
  | data => exact ⟨⟨by simp, rfl, rfl⟩, Or.inl rfl⟩

theorem classBytes_addsItems (w : Workspace) :
    AddsItems w ⟨classBytes w.attributes, w.symbols⟩ := by
  have hbyte : ∀ i, SameReading (w.info i) ((classBytes w.attributes).info i)
      ∧ (((classBytes w.attributes).info i).format = (w.info i).format
        ∨ ((classBytes w.attributes).info i).format = some .oneByte
          ∧ (w.info i).format = none) := by
    intro i
    by_cases hi : i < w.attributes.size
    · exact (info_classBytes hi).sameReading
    · rw [Workspace.info, Attributes.info_of_size_le (Nat.le_of_not_lt hi),
        Attributes.info_of_size_le (by rw [size_classBytes]; exact Nat.le_of_not_lt hi)]
      exact ⟨⟨rfl, rfl, rfl⟩, Or.inl rfl⟩
  refine ⟨size_classBytes w.attributes, fun i => (hbyte i).1, fun i => ?_⟩
  rcases (hbyte i).2 with hsame | ⟨hone, hnone⟩
  · exact Or.inl hsame
  · refine Or.inr ⟨.oneByte, hone, rfl, fun j hlo hhi => ?_⟩
    obtain rfl : j = i := Nat.le_antisymm (Nat.le_of_lt_succ hhi) hlo
    exact hnone

theorem Fills.addsItems (h : Fills w v) (htyped : ∀ j < w.attributes.size, Typed (w.info j)) :
    AddsItems w v := by
  refine ⟨h.size, fun i => ?_, fun i => ?_⟩
  · rcases h.byte i with hsame | ⟨_, _, _, hinfo, _⟩
    · rw [hsame]
      exact ⟨rfl, rfl, rfl⟩
    · rw [hinfo]
      exact ⟨rfl, rfl, rfl⟩
  · rcases h.byte i with hsame | ⟨format, hkind, ⟨hpos, hend⟩, hinfo, hfree⟩
    · exact Or.inl (congrArg _ hsame)
    · refine Or.inr ⟨format, congrArg _ hinfo, hkind, fun j hlo hhi => ?_⟩
      rw [Nat.max_eq_left hpos] at hhi
      exact ((htyped j (by omega)).endsRange? (hfree j hlo hhi)).1

theorem formatUnclaimed_addsItems (himage : w.attributes.size = survey.image.size)
    (hsize : survey.image.size < 0x8000000000000000) (hroomy : Roomy w.attributes)
    (h : formatUnclaimed survey w = v.done) : AddsItems w v :=
  (classBytes_addsItems w).trans ((formatUnclaimed_marched himage hsize hroomy h).fills.addsItems
    (march_classBytes himage hsize hroomy).typed)

/-- Over bytes without a format the walk goes byte by byte. -/
theorem Reached.add {attributes : Attributes} {i : Nat} (h : Reached attributes i) (n : Nat)
    (hbare : ∀ j, i ≤ j → j < i + n → (attributes.info j).format = none) :
    Reached attributes (i + n) := by
  induction n with
  | zero => exact h
  | succ n ih =>
      have hnext := (ih fun j hlo hhi => hbare j hlo (by omega)).next
      have hstride : stride (attributes.info (i + n)) = 1 := by
        unfold stride
        rw [hbare (i + n) (by omega) (by omega)]
        split <;> rfl
      rwa [follow, hstride] at hnext

/-- The walk goes nowhere new. -/
theorem AddsItems.reached (h : AddsItems w v) {i : Nat} (hi : Reached v.attributes i) :
    Reached w.attributes i := by
  obtain ⟨n, rfl⟩ := hi
  induction n with
  | zero => exact reached_zero _
  | succ n ih =>
      rw [Function.iterate_succ_apply']
      generalize (follow v.attributes)^[n] 0 = i at ih
      rcases h.format i with hsame | ⟨format, hsome, _, hbare⟩
      · have hstride : stride (v.info i) = stride (w.info i) := by
          unfold stride
          rw [(h.byte i).start, hsame]
        have hnext := ih.next
        rwa [follow, ← Workspace.info, ← hstride] at hnext
      · refine ih.add _ fun j hlo hhi => hbare j hlo (Nat.lt_of_lt_of_le hhi ?_)
        rw [← Workspace.info]
        unfold stride
        split
        · omega
        · rw [hsome, Option.map_some, Option.getD_some]

/-- What refers to the image did so before. -/
theorem AddsItems.idle (h : AddsItems w v) {i : Nat} (hi : Idle survey w i) : Idle survey v i := by
  intro length target hrefers
  have hbyte := h.byte i
  cases hrefers with
  | operand hlt hstart hnone htarget =>
      exact hi _ _ (.operand (h.size ▸ hlt) (hbyte.start.symm.trans hstart) (h.bare hnone)
        (hbyte.operand.symm.trans htarget))
  | @item _ format hlt hstart hsome htarget =>
      rcases h.format i with hsame | ⟨other, hother, hkind, _⟩
      · refine hi _ target (.item (h.size ▸ hlt) (hbyte.start.symm.trans hstart)
          (hsame.symm.trans hsome) ?_)
        rw [itemTarget?, hbyte.address] at htarget
        exact htarget
      · obtain rfl := Option.some.inj (hother.symm.trans hsome)
        rw [itemTarget?, hkind] at htarget
        cases htarget

/-- **The data passes do nothing the second time**, neither of them by itself nor the two in a row,
whatever items there are, as long as they lie in the image. -/
theorem passes_idempotent (survey : Survey) (w : Workspace)
    (himage : w.attributes.size = survey.image.size)
    (hsize : survey.image.size < 0x8000000000000000)
    (hinside : ∀ i format, (w.info i).format = some format →
      i + format.length ≤ survey.image.size) :
    (∀ u, resolveTargets survey w = u.done → resolveTargets survey u = u.done)
      ∧ (∀ v, formatUnclaimed survey w = v.done → formatUnclaimed survey v = v.done)
      ∧ ∀ u v, resolveTargets survey w = u.done → formatUnclaimed survey u = v.done →
          resolveTargets survey v = v.done ∧ formatUnclaimed survey v = v.done := by
  have hroomy : Roomy w.attributes := fun i format hformat => by
    have := hinside i format hformat
    omega
  have hsettles : ∀ {u}, resolveTargets survey w = u.done →
      Settles survey 0 w u ∧ Roomy u.attributes ∧ u.attributes.size = survey.image.size := by
    intro u hu
    have hsettles := resolveFrom_settles _ hroomy (himage ▸ hsize) hu
    exact ⟨hsettles, hroomy.of_short (himage ▸ hsize) hsettles.retitles hsettles.short,
      hsettles.retitles.size.trans himage⟩
  refine ⟨fun u hu => ?_, fun v hv => formatUnclaimed_repeats himage hsize hroomy hv,
    fun u v hu hv => ?_⟩
  · obtain ⟨hsettled, hroomy', himage'⟩ := hsettles hu
    exact resolveTargets_of_idle hroomy' (himage' ▸ hsize) hsettled.idle
  · obtain ⟨hsettled, hroomy', himage'⟩ := hsettles hu
    have hadds := formatUnclaimed_addsItems himage' hsize hroomy' hv
    refine ⟨resolveTargets_of_idle (formatUnclaimed_roomy himage' hsize hroomy' hv)
      (by rw [hadds.size, himage']; exact hsize) fun i hreached hi => ?_,
      formatUnclaimed_repeats himage' hsize hroomy' hv⟩
    exact hadds.idle (hsettled.idle i (hadds.reached hreached) (hadds.size ▸ hi))

/-- An address, two zeros, and the text that the address names. -/
def namedText : Survey where
  image := #[0x04, 0x10, 0x00, 0x00, 0x48, 0x65, 0x6c, 0x6c, 0x6f]
  processor := ⟨.nmos6502, true, OpcodeTable.blank⟩
  map := ⟨[⟨0, 9, 0x1000⟩], 9⟩
  parameters := .initial
  comments := []

/-- The address has a format. -/
def addressed : Workspace where
  attributes := (Array.range 9).map fun i =>
    { Attribute.blank with
      address := 0x1000 + i
      format := if i = 0 then some ⟨2, .littleEndian, .address, none⟩ else none }
  symbols := .empty

/-- The text gets a label, the address refers to it, and the other bytes get items; that is all. -/
theorem passes_idempotent_namedText :
    ∃ u v, resolveTargets namedText addressed = u.done ∧ formatUnclaimed namedText u = v.done
      ∧ (v.info 0).format = some ⟨2, .littleEndian, .symbol, some ⟨"L1004", .low⟩⟩
      ∧ (v.info 4).format.map (·.length) = some 5
      ∧ resolveTargets namedText v = v.done ∧ formatUnclaimed namedText v = v.done := by
  have hsize : addressed.attributes.size = 9 := by decide +kernel
  have hall : ∀ i < 9, ((addressed.info i).format.all fun format =>
      decide (i + format.length ≤ 9)) = true := by decide +kernel
  have hinside : ∀ i format, (addressed.info i).format = some format →
      i + format.length ≤ namedText.image.size := by
    intro i format hformat
    have hi := hall i (hsize ▸ lt_size_of_format hformat)
    rw [hformat, Option.all_some, decide_eq_true_eq] at hi
    exact hi
  obtain ⟨-, -, hboth⟩ := passes_idempotent namedText addressed hsize (by decide) hinside
  have hu := eq_done_of_fault
    (show (resolveTargets namedText addressed).fault = none by decide +kernel)
  have hv := eq_done_of_fault (show (formatUnclaimed namedText
    (resolveTargets namedText addressed).workspace).fault = none by decide +kernel)
  exact ⟨_, _, hu, hv, by decide +kernel, by decide +kernel, hboth _ _ hu hv⟩

end Disasm65.Data
