/-
What classing and the cutting of ranges do to bytes.

A range is cut into items that take all its bytes (`rangeItems_cuts`).  A byte is made data unless
it is code or inline data (`Classed`), and from then on it can only get a format that refers to no
label (`Formatted`), whatever formats there were before.
-/
import Mathlib
import Disasm65.Data.Ranges
import Disasm65.Proofs.Data.Workspace
import Disasm65.Proofs.Image.Bytes

namespace Disasm65

theorem Format.create_eq_ok {length : Nat} {kind : FormatKind} {detail : FormatDetail}
    {format : Format} (h : Format.create length kind detail = .ok format) :
    format.length = length ∧ format.label = none ∧ 0 < length := by
  unfold create at h
  split at h
  · cases h
  · rename_i hflaw
    cases h
    refine ⟨rfl, rfl, Nat.pos_of_ne_zero fun hzero => ?_⟩
    simp [flaw?, hzero] at hflaw

theorem runLength_le (bytes : List UInt8) : runLength bytes ≤ bytes.length := by
  cases bytes with
  | nil => exact Nat.le_refl _
  | cons first rest =>
      have hrun := (List.takeWhile_prefix (p := (· == first)) (l := rest)).length_le
      rw [runLength, List.length_cons]
      omega

theorem Attributes.info_push (attributes : Attributes) (a : Attribute) (i : Nat) :
    Attributes.info (attributes.push a) i
      = if i = attributes.size then a else attributes.info i := by
  simp only [Attributes.info, Array.getD_eq_getD_getElem?, Array.getElem?_push]
  split <;> rfl

namespace Data

/-! ### Cutting a range -/

/-- The items refer to no label, none is empty, and together they have `total` bytes. -/
structure Cuts (items : List Format) (total : Nat) : Prop where
  plain : ∀ format ∈ items, format.label = none ∧ 0 < format.length
  total : (items.map (·.length)).sum = total

theorem Cuts.single {format : Format} (hlabel : format.label = none) (hpos : 0 < format.length) :
    Cuts [format] format.length :=
  ⟨by simpa using ⟨hlabel, hpos⟩, by simp⟩

theorem Cuts.ones (n : Nat) : Cuts (List.replicate n .oneByte) n := by
  refine ⟨fun format hformat => ?_, by simp [Format.oneByte]⟩
  rw [List.eq_of_mem_replicate hformat]
  exact ⟨rfl, Nat.one_pos⟩

theorem Cuts.append {items others : List Format} {m n : Nat} (h : Cuts items m)
    (h' : Cuts others n) : Cuts (items ++ others) (m + n) := by
  refine ⟨fun format hformat => ?_, by rw [List.map_append, List.sum_append, h.total, h'.total]⟩
  rcases List.mem_append.mp hformat with hmem | hmem
  · exact h.plain format hmem
  · exact h'.plain format hmem

theorem frontText_le (parameters : Parameters) (bytes : List UInt8) :
    (frontText parameters bytes).1 ≤ bytes.length := by
  unfold frontText
  dsimp only
  split
  · rename_i first rest
    split
    · have hrun := runLength_le (first :: rest)
      have hrest := (List.takeWhile_prefix
        (p := (CharClass.extended (parameters.textScan.charset.refine first)).accepts)
        (l := (first :: rest).drop (runLength (first :: rest)))).length_le
      rw [List.length_drop] at hrest
      omega
    · exact Nat.zero_le _
  · exact Nat.zero_le _

theorem frontItems_cuts {parameters : Parameters} {bytes : List UInt8} {items : List Format}
    {taken : Nat} (h : frontItems parameters bytes = .ok (items, taken)) (hbytes : bytes ≠ []) :
    Cuts items taken ∧ 0 < taken ∧ taken ≤ bytes.length := by
  have hrun := runLength_le bytes
  have hpos : 0 < runLength bytes := by
    cases bytes with
    | nil => exact absurd rfl hbytes
    | cons first rest => rw [runLength]; omega
  unfold frontItems at h
  dsimp only at h
  split at h
  · split at h
    · rename_i format hformat
      obtain ⟨hlength, hlabel, hsome⟩ := Format.create_eq_ok hformat
      cases h
      rw [← hlength] at hsome
      exact ⟨hlength ▸ .single hlabel hsome, hlength ▸ hsome, frontText_le parameters bytes⟩
    · cases h
  · split at h
    · split at h
      · rename_i format hformat
        obtain ⟨hlength, hlabel, hsome⟩ := Format.create_eq_ok hformat
        cases h
        rw [← hlength] at hsome
        exact ⟨hlength ▸ .single hlabel hsome, hpos, hrun⟩
      · cases h
    · cases h
      exact ⟨.ones _, hpos, hrun⟩

theorem cutBytes_cuts {parameters : Parameters} :
    ∀ (fuel : Nat) (bytes : List UInt8) (items : List Format), bytes.length ≤ fuel →
      cutBytes parameters fuel bytes = (items, none) → Cuts items bytes.length := by
  intro fuel
  induction fuel with
  | zero =>
      intro bytes items hfuel h
      rw [List.length_eq_zero_iff.mp (Nat.le_zero.mp hfuel)] at h ⊢
      cases h
      exact ⟨by simp, rfl⟩
  | succ fuel ih =>
      intro bytes items hfuel h
      cases bytes with
      | nil =>
          cases h
          exact ⟨by simp, rfl⟩
      | cons first rest =>
          rw [cutBytes] at h
          split at h
          · cases h
          · rename_i front taken hfront
            obtain ⟨hcuts, hpos, hle⟩ := frontItems_cuts hfront (List.cons_ne_nil _ _)
            have hlength : ((first :: rest).drop taken).length
                = (first :: rest).length - taken := List.length_drop
            obtain ⟨rfl, hfault⟩ := Prod.mk.inj h
            have hothers := ih _ _ (by omega)
              (show cutBytes parameters fuel ((first :: rest).drop taken) = (_, none) from
                Prod.ext rfl hfault)
            rw [hlength] at hothers
            have happend := hcuts.append hothers
            rwa [Nat.add_sub_cancel' hle] at happend

/-- **The items of a range take all its bytes.** -/
theorem rangeItems_cuts {parameters : Parameters} {bytes : List UInt8} {items : List Format}
    (h : rangeItems parameters bytes = (items, none)) : Cuts items bytes.length := by
  unfold rangeItems at h
  split at h
  · exact cutBytes_cuts _ _ _ (Nat.le_refl _) h
  · cases h
    exact .ones _

/-! ### What the pass does to a byte -/

/-- The byte is as it was, or has a new format that refers to no label. -/
def Formatted (a b : Attribute) : Prop :=
  b = a ∨ ∃ format : Format, format.label = none ∧ b = { a with format := some format }

theorem Formatted.trans {a b c : Attribute} (h : Formatted a b) (h' : Formatted b c) :
    Formatted a c := by
  rcases h' with rfl | ⟨format, hlabel, rfl⟩
  · exact h
  · refine Or.inr ⟨format, hlabel, ?_⟩
    rcases h with rfl | ⟨_, _, rfl⟩ <;> rfl

theorem Formatted.retitled {a b : Attribute} (h : Formatted a b) : Retitled a b := by
  rcases h with rfl | ⟨format, _, rfl⟩
  · exact .refl _
  · exact ⟨_, some format, rfl⟩

/-- From one workspace to the other some bytes get formats that refer to no label. -/
structure Formats (w v : Workspace) : Prop where
  symbols : v.symbols = w.symbols
  size : v.attributes.size = w.attributes.size
  byte : ∀ i, Formatted (w.info i) (v.info i)

theorem Formats.refl (w : Workspace) : Formats w w := ⟨rfl, rfl, fun _ => Or.inl rfl⟩

theorem Formats.trans {u v w : Workspace} (h : Formats u v) (h' : Formats v w) : Formats u w :=
  ⟨h'.symbols.trans h.symbols, h'.size.trans h.size, fun i => (h.byte i).trans (h'.byte i)⟩

theorem Formats.retitles {w v : Workspace} (h : Formats w v) :
    Retitles w.attributes v.attributes :=
  ⟨h.size, fun i => (h.byte i).retitled⟩

theorem placeItems_formatted : ∀ (items : List Format) (offset : Nat) (attributes : Attributes),
    (∀ format ∈ items, format.label = none) →
      (placeItems attributes offset items).size = attributes.size
        ∧ ∀ i, Formatted (attributes.info i) ((placeItems attributes offset items).info i) := by
  intro items
  induction items with
  | nil => exact fun _ _ _ => ⟨rfl, fun _ => Or.inl rfl⟩
  | cons format others ih =>
      intro offset attributes hlabel
      obtain ⟨hfirst, hothers⟩ := List.forall_mem_cons.mp hlabel
      obtain ⟨hsize, hbyte⟩ := ih (offset + format.length)
        (attributes.update offset fun a => { a with format := some format }) hothers
      rw [placeItems]
      refine ⟨hsize.trans (Attributes.size_update ..), fun i => .trans ?_ (hbyte i)⟩
      rw [Attributes.info_update]
      split
      · exact Or.inr ⟨format, hfirst, rfl⟩
      · exact Or.inl rfl

section Frames

variable {survey : Survey} {w v : Workspace}

/-- A range gets its items, one after the other. -/
theorem formatRange_eq_done {start stop : Nat} (h : formatRange survey start stop w = v.done) :
    ∃ items, rangeItems survey.parameters ((survey.image.slice? start (stop - start)).getD [])
        = (items, none)
      ∧ v = { w with attributes := placeItems w.attributes start items } := by
  unfold formatRange Workspace.done at h
  obtain ⟨rfl, hfault⟩ := Outcome.mk.inj h
  exact ⟨_, Prod.ext rfl hfault, rfl⟩

/-- The items of a range inside the image take all its bytes. -/
theorem formatRange_items {start stop : Nat} (hle : start ≤ stop)
    (himage : stop ≤ survey.image.size) (h : formatRange survey start stop w = v.done) :
    ∃ items, rangeItems survey.parameters (survey.image.bytesFrom start (stop - start))
        = (items, none)
      ∧ Cuts items (stop - start)
      ∧ v = { w with attributes := placeItems w.attributes start items } := by
  obtain ⟨items, hitems, rfl⟩ := formatRange_eq_done h
  rw [Image.slice?_eq_some (by omega), Option.getD_some] at hitems
  have hcuts := rangeItems_cuts hitems
  rw [Image.length_bytesFrom] at hcuts
  exact ⟨items, hitems, hcuts, rfl⟩

theorem formatRange_formats {start stop : Nat} (h : formatRange survey start stop w = v.done) :
    Formats w v := by
  obtain ⟨items, hitems, rfl⟩ := formatRange_eq_done h
  have hcuts := rangeItems_cuts hitems
  obtain ⟨hsize, hbyte⟩ :=
    placeItems_formatted items start w.attributes fun format hf => (hcuts.plain format hf).1
  exact ⟨rfl, hsize, hbyte⟩

theorem closeRange_formats {start : Option Nat} {stop : Nat}
    (h : closeRange survey start stop w = v.done) : Formats w v := by
  cases start with
  | none =>
      rw [← done_inj.mp h]
      exact .refl _
  | some start => exact formatRange_formats h

theorem gatherFrom_formats : ∀ (fuel offset : Nat) (start : Option Nat) (w : Workspace),
    gatherFrom survey fuel offset start w = v.done → Formats w v := by
  intro fuel
  induction fuel with
  | zero => exact fun offset start w h => absurd h stop_ne_done
  | succ fuel ih =>
      intro offset start w h
      rw [gatherFrom] at h
      dsimp only at h
      split at h
      · exact closeRange_formats h
      split at h
      · obtain ⟨u, hclose, hon⟩ := andThen_eq_done.mp h
        obtain ⟨next, -, hrest⟩ := goOn_eq_done.mp hon
        exact (closeRange_formats hclose).trans (ih _ _ _ hrest)
      split at h
      · obtain ⟨u, hclose, hrest⟩ := andThen_eq_done.mp h
        exact (closeRange_formats hclose).trans (ih _ _ _ hrest)
      split at h
      · obtain ⟨u, hformat, hrest⟩ := andThen_eq_done.mp h
        exact (formatRange_formats hformat).trans (ih _ _ _ hrest)
      · exact ih _ _ _ h

theorem formatUnclaimed_eq_done (h : formatUnclaimed survey w = v.done) :
    inlineFault? w.attributes = none
      ∧ gatherFrom survey (walkFuel (classBytes w.attributes).size) 0 none
        ⟨classBytes w.attributes, w.symbols⟩ = v.done := by
  unfold formatUnclaimed at h
  split at h
  · exact absurd h stop_ne_done
  · exact ⟨‹_›, h⟩

theorem formatUnclaimed_of_words (h : inlineFault? w.attributes = none) :
    formatUnclaimed survey w
      = gatherFrom survey (walkFuel (classBytes w.attributes).size) 0 none
        ⟨classBytes w.attributes, w.symbols⟩ := by
  unfold formatUnclaimed
  rw [h]

end Frames

/-- Where inline items end at words there is no fault. -/
theorem inlineFault?_eq_none {attributes : Attributes} :
    inlineFault? attributes = none
      ↔ ∀ i format, (attributes.info i).isInlineData = true →
        (attributes.info i).format = some format → i + format.length < 0x10000000000000000 := by
  unfold inlineFault?
  rw [List.findSome?_eq_none_iff]
  constructor
  · intro hall i format hinline hformat
    by_contra hover
    have hi := hall i (List.mem_range.mpr (Attributes.lt_size_of_has hinline))
    dsimp only at hi
    rw [hformat, Option.map_some, addWords_of_le (Nat.le_of_not_lt hover), hinline] at hi
    cases hi
  · intro hall i _
    dsimp only
    split
    · rename_i fault hfault
      obtain ⟨format, hformat, hsum⟩ := Option.map_eq_some_iff.mp hfault
      refine if_neg fun hinline => ?_
      rw [addWords_of_lt (hall i format hinline hformat)] at hsum
      cases hsum
    · rfl

/-! ### Classing -/

/-- A byte becomes data unless it is code or inline data; inline data may get a format. -/
inductive Classed (a : Attribute) : Attribute → Prop where
  | kept (h : a.isInlineData = true ∨ a.isInstruction = true) : Classed a a
  | shown (hinline : a.isInlineData = true) (hformat : a.format = none) :
      Classed a { a with format := some .oneByte }
  | data (hinline : a.isInlineData = false) (hcode : a.isInstruction = false) :
      Classed a (a.mark .data)

theorem Classed.isInlineData {a b : Attribute} (h : Classed a b) :
    b.isInlineData = a.isInlineData := by
  cases h <;> simp

/-- If inline data has a format, it is one of a single byte. -/
def Narrow (a : Attribute) : Prop :=
  a.isInlineData = true → ∀ format, a.format = some format → format.length = 1

theorem classNext_spec (attributes : Attributes) (covered : Nat) (a : Attribute) :
    ∃ b after, classNext (attributes, covered) a = (attributes.push b, after) ∧ Classed a b
      ∧ (Narrow a → covered ≤ attributes.size → after ≤ attributes.size + 1
        ∧ (a.isInlineData = true → b.format.map (·.length) = some 1)) := by
  unfold classNext
  dsimp only
  split
  · rename_i hinline
    split
    · rename_i format hformat
      refine ⟨a, _, rfl, .kept (Or.inl hinline), fun hnarrow _ => ⟨?_, fun _ => ?_⟩⟩
      · rw [hnarrow hinline format hformat]
      · rw [hformat, Option.map_some, hnarrow hinline format hformat]
    · rename_i hformat
      split
      · exact ⟨_, covered, rfl, .shown hinline hformat, fun _ hle => ⟨by omega, fun _ => rfl⟩⟩
      · rename_i hcovered
        exact ⟨a, covered, rfl, .kept (Or.inl hinline), fun _ hle => absurd hle hcovered⟩
  · rename_i hinline
    rw [Bool.not_eq_true] at hinline
    refine ⟨_, covered, rfl, ?_, fun _ hle => ⟨by omega, fun h => ?_⟩⟩
    · split
      · exact .kept (Or.inr ‹_›)
      · rename_i hcode
        exact .data hinline (by simpa using hcode)
    · rw [hinline] at h
      cases h

/-- The first `k` bytes have been classed. -/
structure ClassedTo (attributes : Attributes) (k : Nat) (done : Attributes × Nat) : Prop where
  size : done.1.size = k
  classed : ∀ i < k, Classed (attributes.info i) (done.1.info i)
  narrow : (∀ i, Narrow (attributes.info i)) → done.2 ≤ k
    ∧ ∀ i < k, (attributes.info i).isInlineData = true →
        (done.1.info i).format.map (·.length) = some 1

theorem classNext_classedTo {attributes : Attributes} {done : Attributes × Nat} {k : Nat}
    (hdone : ClassedTo attributes k done) :
    ClassedTo attributes (k + 1) (classNext done (attributes.info k)) := by
  obtain ⟨prior, covered⟩ := done
  obtain ⟨hsize, hclassed, hnarrow⟩ := hdone
  obtain ⟨b, after, hnext, hb, hlast⟩ := classNext_spec prior covered (attributes.info k)
  dsimp only at hsize
  have hold : ∀ i < k, Attributes.info (prior.push b) i = prior.info i := fun i hi => by
    rw [Attributes.info_push, hsize, if_neg (Nat.ne_of_lt hi)]
  have hnew : Attributes.info (prior.push b) k = b := by
    rw [Attributes.info_push, if_pos hsize.symm]
  rw [hnext]
  refine ⟨by simp [hsize], fun i hi => ?_, fun hall => ?_⟩
  · rcases Nat.lt_succ_iff_lt_or_eq.mp hi with hlt | rfl
    · rw [hold i hlt]
      exact hclassed i hlt
    · rw [hnew]
      exact hb
  · obtain ⟨hcovered, hformats⟩ := hnarrow hall
    obtain ⟨hafter, hformat⟩ := hlast (hall k) (hsize ▸ hcovered)
    refine ⟨hsize ▸ hafter, fun i hi hinline => ?_⟩
    rcases Nat.lt_succ_iff_lt_or_eq.mp hi with hlt | rfl
    · rw [hold i hlt]
      exact hformats i hlt hinline
    · rw [hnew]
      exact hformat hinline

theorem classBytes_classedTo (attributes : Attributes) :
    ClassedTo attributes attributes.size (attributes.foldl classNext (#[], 0)) := by
  refine Array.foldl_induction (fun k done => ClassedTo attributes k done)
    ⟨rfl, fun i hi => absurd hi (Nat.not_lt_zero i),
      fun _ => ⟨Nat.le_refl _, fun i hi => absurd hi (Nat.not_lt_zero i)⟩⟩ fun i done hdone => ?_
  have hinfo : attributes.info i = attributes[i] := by
    simp [Attributes.info, Array.getD_eq_getD_getElem?]
  rw [← hinfo]
  exact classNext_classedTo hdone

@[simp]
theorem size_classBytes (attributes : Attributes) :
    (classBytes attributes).size = attributes.size :=
  (classBytes_classedTo attributes).size

theorem info_classBytes {attributes : Attributes} {i : Nat} (hi : i < attributes.size) :
    Classed (attributes.info i) ((classBytes attributes).info i) :=
  (classBytes_classedTo attributes).classed i hi

/-- Inline data whose formats are of one byte each has a format of one byte throughout. -/
theorem classBytes_inline {attributes : Attributes} (hall : ∀ i, Narrow (attributes.info i))
    {i : Nat} (hi : i < attributes.size) (hinline : (attributes.info i).isInlineData = true) :
    ((classBytes attributes).info i).format.map (·.length) = some 1 :=
  ((classBytes_classedTo attributes).narrow hall).2 i hi hinline

end Data

end Disasm65
