/-
A range is cut greedily.

From the front on, every byte of a range goes into an item: a string of text that goes on as far as
it can, a fill that is a whole run of one byte value, or a byte by itself, whose run is too short
for a fill (`ItemOf`).  Each cut starts where a run starts: a string ends before a byte that is not
in its character set, so its last byte and the next one differ.  Therefore no text that is long
enough for a string is left in single bytes, unless it starts in a run that is too long for text
(`Greedy.windows`).
-/
import Mathlib
import Disasm65.Proofs.Data.Cutting
import Disasm65.Proofs.Data.Ranges

namespace Disasm65

theorem Image.Stretch.unique {image : Image} {test : UInt8 → Bool} {stop lo hi other : Nat}
    (h : image.Stretch test stop lo hi) (h' : image.Stretch test stop lo other) : hi = other :=
  Nat.le_antisymm (h'.le_of_all h.le_stop h.all) (h.le_of_all h'.le_stop h'.all)

/-- Behind a stretch comes a byte that differs from its last one. -/
theorem Image.Stretch.last_ne {image : Image} {test : UInt8 → Bool} {stop lo hi : Nat}
    (h : image.Stretch test stop lo hi) (hlt : lo < hi) (hstop : hi < stop) :
    image.byteAt (hi - 1) ≠ image.byteAt hi := by
  intro heq
  have hlast := h.all (hi - 1) (by omega) (by omega)
  rw [heq, h.ends hstop] at hlast
  cases hlast

namespace Data

/-! ### Items and where they stand -/

/-- The items with their offsets, one behind the other from `offset` on. -/
def placed : (offset : Nat) → List Format → List (Nat × Format)
  | _, [] => []
  | offset, format :: others => (offset, format) :: placed (offset + format.length) others

/-- The items follow each other without a gap from `start` up to `stop`, and none is empty. -/
inductive Consecutive : (start : Nat) → List (Nat × Format) → (stop : Nat) → Prop where
  | nil (offset : Nat) : Consecutive offset [] offset
  | cons {offset stop : Nat} {format : Format} {others : List (Nat × Format)}
      (hpos : 0 < format.length) (hothers : Consecutive (offset + format.length) others stop) :
      Consecutive offset ((offset, format) :: others) stop

theorem Cuts.consecutive {items : List Format} {total : Nat} (h : Cuts items total)
    (offset : Nat) : Consecutive offset (placed offset items) (offset + total) := by
  induction items generalizing offset total with
  | nil =>
      obtain rfl : 0 = total := h.total
      exact .nil offset
  | cons format others ih =>
      obtain ⟨⟨-, hpos⟩, hplain⟩ := List.forall_mem_cons.mp h.plain
      have htotal : format.length + (others.map (·.length)).sum = total := h.total
      rw [← htotal, ← Nat.add_assoc]
      exact .cons hpos (ih ⟨hplain, rfl⟩ _)

theorem placed_append (items others : List Format) (offset : Nat) :
    placed offset (items ++ others)
      = placed offset items ++ placed (offset + (items.map (·.length)).sum) others := by
  induction items generalizing offset with
  | nil => rfl
  | cons format items ih =>
      rw [List.cons_append, placed, placed, ih, List.map_cons, List.sum_cons, Nat.add_assoc,
        List.cons_append]

theorem mem_placed {items : List Format} {offset i : Nat} {format : Format}
    (h : (i, format) ∈ placed offset items) :
    format ∈ items ∧ offset ≤ i ∧ i + format.length ≤ offset + (items.map (·.length)).sum := by
  induction items generalizing offset with
  | nil => cases h
  | cons first others ih =>
      rw [placed, List.mem_cons, Prod.mk.injEq] at h
      rw [List.map_cons, List.sum_cons]
      rcases h with ⟨rfl, rfl⟩ | h
      · exact ⟨List.mem_cons_self, Nat.le_refl _, by omega⟩
      · obtain ⟨hmem, hlo, hhi⟩ := ih h
        exact ⟨List.mem_cons_of_mem _ hmem, by omega, by omega⟩

/-- The items of a range lie in it. -/
theorem Cuts.mem_placed {items : List Format} {start stop i : Nat} {format : Format}
    (hcuts : Cuts items (stop - start)) (hle : start ≤ stop)
    (hmem : (i, format) ∈ placed start items) :
    format ∈ items ∧ 0 < format.length ∧ start ≤ i ∧ i + format.length ≤ stop := by
  obtain ⟨hitem, hlo, hhi⟩ := Data.mem_placed hmem
  rw [hcuts.total, Nat.add_sub_cancel' hle] at hhi
  exact ⟨hitem, (hcuts.plain format hitem).2, hlo, hhi⟩

/-! ### What the items are -/

/-- A run of one byte value that goes on to neither side in the range from `start` up to `stop`. -/
structure IsRun (image : Image) (start stop lo hi : Nat) : Prop where
  start_le : start ≤ lo
  lt : lo < hi
  stretch : image.Stretch (· == image.byteAt lo) stop lo hi
  before : start < lo → image.byteAt (lo - 1) ≠ image.byteAt lo

/-- An item of the range from `start` up to `stop` that stands at `offset`. -/
inductive ItemOf (parameters : Parameters) (image : Image) (start stop offset : Nat) :
    Format → Prop where
  | text (encoding : Charset) (hmem : encoding ∈ parameters.textScan.encodings) (length : Nat)
      (hnamed : encoding.detail ≠ .anyAscii) (hpos : 0 < length)
      (hmin : parameters.minString ≤ length)
      (hstretch : image.Stretch encoding.isText stop offset (offset + length)) :
      ItemOf parameters image start stop offset ⟨length, .text, encoding.detail, none⟩
  | fill (length : Nat) (hmin : parameters.minRun ≤ length)
      (hrun : IsRun image start stop offset (offset + length)) :
      ItemOf parameters image start stop offset ⟨length, .fill, .plain, none⟩
  | single (lo hi : Nat) (hrun : IsRun image start stop lo hi) (hlo : lo ≤ offset)
      (hhi : offset < hi) (hshort : hi - lo < parameters.minRun)
      (hbarren : Barren parameters image stop lo) :
      ItemOf parameters image start stop offset .oneByte

variable {parameters : Parameters} {image : Image} {start stop p : Nat}

/-- **One cut.**  If it starts where a run starts, then so does the next one, and what it takes are
items of the range. -/
theorem frontItems_items {items : List Format} {taken : Nat}
    (h : frontItems parameters (image.bytesFrom p (stop - p)) = .ok (items, taken))
    (hstart : start ≤ p) (hp : p < stop)
    (hfresh : start < p → image.byteAt (p - 1) ≠ image.byteAt p) :
    (∀ entry ∈ placed p items, ItemOf parameters image start stop entry.1 entry.2)
      ∧ (items.map (·.length)).sum = taken ∧ 0 < taken ∧ p + taken ≤ stop
      ∧ (p + taken < stop → image.byteAt (p + taken - 1) ≠ image.byteAt (p + taken)) := by
  have hcut := frontItems_cut parameters image hp
  rw [h] at hcut
  cases hcut with
  | text encoding hmem _ hpos hmin hstretch =>
      refine ⟨fun entry hentry => ?_, by simp, hpos, hstretch.le_stop,
        hstretch.last_ne (by omega)⟩
      obtain rfl := List.mem_singleton.mp hentry
      exact .text encoding hmem taken (TextScan.detail_of_mem_encodings hmem).2 hpos hmin hstretch
  | fill _ _ hpos hmin hstretch =>
      refine ⟨fun entry hentry => ?_, by simp, hpos, hstretch.le_stop,
        hstretch.last_ne (by omega)⟩
      obtain rfl := List.mem_singleton.mp hentry
      exact .fill taken hmin ⟨hstart, by omega, hstretch, hfresh⟩
  | singles _ _ hpos hshort hstretch hbarren =>
      have hsum : ((List.replicate taken Format.oneByte).map (·.length)).sum = taken :=
        (Cuts.ones taken).total
      refine ⟨fun entry hentry => ?_, hsum, hpos, hstretch.le_stop, hstretch.last_ne (by omega)⟩
      obtain ⟨hmem, hlo, hhi⟩ := mem_placed hentry
      rw [hsum] at hhi
      rw [List.eq_of_mem_replicate hmem] at hhi ⊢
      exact .single p (p + taken) ⟨hstart, by omega, hstretch, hfresh⟩ hlo hhi (by omega) hbarren

/-- **All cuts.** -/
theorem cutBytes_items {fuel : Nat} {items : List Format}
    (h : cutBytes parameters fuel (image.bytesFrom p (stop - p)) = (items, none))
    (hstart : start ≤ p)
    (hfresh : start < p → p < stop → image.byteAt (p - 1) ≠ image.byteAt p) :
    ∀ entry ∈ placed p items, ItemOf parameters image start stop entry.1 entry.2 := by
  induction fuel generalizing p items with
  | zero =>
      cases h
      intro entry hentry
      cases hentry
  | succ fuel ih =>
      by_cases hp : p < stop
      · have hcons := bytesFrom_of_lt image hp
        rw [hcons, cutBytes, ← hcons] at h
        split at h
        · cases h
        · rename_i front taken hfront
          obtain ⟨hitems, hsum, hpos, hle, hnext⟩ :=
            frontItems_items hfront hstart hp fun hlt => hfresh hlt hp
          obtain ⟨rfl, hfault⟩ := Prod.mk.inj h
          rw [Image.drop_bytesFrom, Nat.sub_sub] at hfault ⊢
          have hothers := ih (Prod.ext rfl hfault) (by omega) fun _ => hnext
          intro entry hentry
          rw [placed_append, hsum, List.mem_append] at hentry
          exact hentry.elim (hitems entry) (hothers entry)
      · rw [bytesFrom_of_le image (Nat.le_of_not_lt hp)] at h
        cases h
        intro entry hentry
        cases hentry

/-! ### What is left in single bytes -/

/-- A single byte is in a run that is too short for a fill and starts no string. -/
theorem ItemOf.run_of_oneByte {offset : Nat}
    (h : ItemOf parameters image start stop offset .oneByte) :
    ∃ lo hi, IsRun image start stop lo hi ∧ lo ≤ offset ∧ offset < hi
      ∧ Barren parameters image stop lo := by
  generalize hformat : Format.oneByte = format at h
  cases h with
  | text | fill => simp [Format.oneByte] at hformat
  | single lo hi hrun hlo hhi _ hbarren => exact ⟨lo, hi, hrun, hlo, hhi, hbarren⟩

/-- The items are those of a greedy cut of the range from `start` up to `stop`. -/
structure Greedy (parameters : Parameters) (image : Image) (start stop : Nat)
    (entries : List (Nat × Format)) : Prop where
  consecutive : Consecutive start entries stop
  items : ∀ entry ∈ entries, ItemOf parameters image start stop entry.1 entry.2
  windows : ∀ encoding ∈ parameters.textScan.encodings, ∀ lo hi, lo < hi →
    parameters.minString ≤ hi - lo →
    (∀ i, lo ≤ i → i < hi →
      (i, Format.oneByte) ∈ entries ∧ encoding.isText (image.byteAt i) = true) →
    ∃ first last, IsRun image start stop first last ∧ first ≤ lo ∧ lo < last
      ∧ parameters.maxStringRun < last - first

/-- **Single bytes hide no string.**  The bytes before `lo` in its run are the same text as the byte
at `lo`, so with the window they would have been a string from the start of the run on. -/
theorem greedy_of_items {entries : List (Nat × Format)}
    (hconsecutive : Consecutive start entries stop)
    (hitems : ∀ entry ∈ entries, ItemOf parameters image start stop entry.1 entry.2) :
    Greedy parameters image start stop entries := by
  refine ⟨hconsecutive, hitems, fun encoding hmem lo hi hlt hmin hwindow => ?_⟩
  obtain ⟨first, last, hrun, hfirst, hlast, hbarren⟩ :=
    (hitems _ (hwindow lo (Nat.le_refl _) hlt).1).run_of_oneByte
  have hle : hi ≤ stop := by
    obtain ⟨_, hi', hrun', -, hhi', -⟩ :=
      (hitems _ (hwindow (hi - 1) (by omega) (by omega)).1).run_of_oneByte
    have hstop : hi' ≤ stop := hrun'.stretch.le_stop
    omega
  refine ⟨first, last, hrun, hfirst, hlast, Nat.lt_of_not_le fun hshort => ?_⟩
  have hlength : first + runLength (image.bytesFrom first (stop - first)) = last :=
    (stretch_runLength image (by omega)).unique hrun.stretch
  obtain ⟨i, hlo, hhi, hfails⟩ := hbarren (by omega) encoding hmem hi (by omega) hle (by omega)
  have hpasses : encoding.isText (image.byteAt i) = true := by
    by_cases hin : lo ≤ i
    · exact (hwindow i hin hhi).2
    · rw [beq_iff_eq.mp (hrun.stretch.all i hlo (by omega)),
        ← beq_iff_eq.mp (hrun.stretch.all lo hfirst hlast)]
      exact (hwindow lo (Nat.le_refl _) hlt).2
  rw [hfails] at hpasses
  cases hpasses

/-! ### The range with its items -/

/-- From one to the other the items have got their formats, and nothing else has changed. -/
structure Attached (entries : List (Nat × Format)) (attributes other : Attributes) : Prop where
  size : other.size = attributes.size
  placed : ∀ offset format, (offset, format) ∈ entries →
    other.info offset = { attributes.info offset with format := some format }
  elsewhere : ∀ i, (∀ format, (i, format) ∉ entries) → other.info i = attributes.info i

theorem placeItems_attached {items : List Format} {total : Nat} (hcuts : Cuts items total)
    {offset : Nat} {attributes : Attributes} (hsize : offset + total ≤ attributes.size) :
    Attached (placed offset items) attributes (placeItems attributes offset items) := by
  induction items generalizing offset attributes total with
  | nil => exact ⟨rfl, fun _ _ h => absurd h List.not_mem_nil, fun _ _ => rfl⟩
  | cons format others ih =>
      obtain ⟨⟨-, hpos⟩, hplain⟩ := List.forall_mem_cons.mp hcuts.plain
      have htotal : format.length + (others.map (·.length)).sum = total := hcuts.total
      let marked := attributes.update offset fun a => { a with format := some format }
      have hmarked : ∀ j, j ≠ offset → marked.info j = attributes.info j := fun j hj =>
        Attributes.info_update_ne _ hj.symm _
      have hothers : Attached (placed (offset + format.length) others) marked
          (placeItems marked (offset + format.length) others) := by
        refine ih ⟨hplain, rfl⟩ ?_
        rw [Attributes.size_update]
        omega
      have hbehind : ∀ i f, (i, f) ∈ placed (offset + format.length) others → offset < i :=
        fun i f h => by
          have := (mem_placed h).2.1
          omega
      rw [placeItems, placed]
      refine ⟨hothers.size.trans (Attributes.size_update ..), fun i f hmem => ?_, fun i hnone => ?_⟩
      · rcases List.mem_cons.mp hmem with hfirst | hmem
        · obtain ⟨rfl, rfl⟩ := Prod.mk.inj hfirst
          rw [hothers.elsewhere i fun f h => Nat.lt_irrefl _ (hbehind i f h)]
          exact Attributes.info_update_self (by omega) _
        · rw [hothers.placed i f hmem, hmarked i (Nat.ne_of_gt (hbehind i f hmem))]
      · have hne : i ≠ offset := fun h => hnone format (h ▸ List.mem_cons_self)
        rw [hothers.elsewhere i fun f h => hnone f (List.mem_cons_of_mem _ h), hmarked i hne]

section Range

variable {survey : Survey} {w : Workspace}

/-- **A range is cut greedily.**  When nothing fails, the items it gets follow each other from its
start to its end, each string, fill and single byte is what it has to be, and no string is left in
single bytes unless it starts in a run that is too long for text. -/
theorem formatRange_greedy (hcuts : survey.parameters.cutsUnclaimed = true) (hle : start ≤ stop)
    (himage : stop ≤ survey.image.size) (hsize : stop ≤ w.attributes.size)
    (h : (formatRange survey start stop w).fault = none) :
    ∃ entries, Greedy survey.parameters survey.image start stop entries
      ∧ Attached entries w.attributes
          (formatRange survey start stop w).workspace.attributes := by
  obtain ⟨items, hitems, hall, hplaced⟩ :=
    formatRange_items hle himage (eq_done_of_fault h)
  have hconsecutive := hall.consecutive start
  rw [Nat.add_sub_cancel' hle] at hconsecutive
  rw [rangeItems, if_pos hcuts] at hitems
  refine ⟨placed start items, greedy_of_items hconsecutive
    (cutBytes_items hitems (Nat.le_refl _) fun hlt => absurd hlt (Nat.lt_irrefl _)), ?_⟩
  rw [hplaced]
  exact placeItems_attached hall (by omega)

end Range

/-- A word in low ASCII, a run of zeros, a word in high ASCII, and text that starts with a run which
is too long for text and too short for a fill. -/
def specimen : Survey where
  image := #[0x4d, 0x45, 0x53, 0x53, 0x41, 0x47, 0x45, 0x00, 0x00, 0x00, 0x00, 0x00, 0x00,
    0xc8, 0xc5, 0xcc, 0xcc, 0xcf, 0x41, 0x41, 0x41, 0x41, 0x42, 0x43]
  processor := ⟨.nmos6502, true, OpcodeTable.blank⟩
  map := ⟨[⟨0, 24, 0x8000⟩], 24⟩
  parameters := { Parameters.initial with maxStringRun := 3 }
  comments := []

theorem formatRange_greedy_specimen :
    (formatRange specimen 0 24 ⟨.blank 24, .empty⟩).fault = none
      ∧ ∃ entries, Greedy specimen.parameters specimen.image 0 24 entries
        ∧ Attached entries (.blank 24)
            (formatRange specimen 0 24 ⟨.blank 24, .empty⟩).workspace.attributes := by
  have hfault : (formatRange specimen 0 24 ⟨.blank 24, .empty⟩).fault = none := by decide +kernel
  exact ⟨hfault, formatRange_greedy rfl (by decide) (by decide) (by decide) hfault⟩

end Data

end Disasm65
