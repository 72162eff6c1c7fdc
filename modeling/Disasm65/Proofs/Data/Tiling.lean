/-
Data is laid out in items, without gap or overlap.

The walk that gathers ranges keeps one open: its bytes are data without a format, and none but the
first has a label or a comment (`Open`).  Whenever a range is closed its bytes are tiled
(`formatRange_lays`), and nothing that comes later changes them, so in the end all data is tiled
(`gatherFrom_lays`).
-/
import Mathlib
import Disasm65.Proofs.Data.Ranges
import Disasm65.Proofs.Data.Targets

namespace Disasm65.Data

/-- An item of data at `start`: its first byte has the format, and no other has a format, a label or
a comment. -/
structure ItemAt (comments : List Nat) (attributes : Attributes) (start length : Nat) : Prop where
  data : ∀ j, start ≤ j → j < start + length → (attributes.info j).isData = true
  first : (attributes.info start).format.map (·.length) = some length
  inside : ∀ j, start < j → j < start + length →
    (attributes.info j).format = none ∧ (attributes.info j).symbol = none ∧ j ∉ comments

/-- Every data byte from `lo` up to `hi` is in an item that lies there. -/
def Tiled (comments : List Nat) (attributes : Attributes) (lo hi : Nat) : Prop :=
  ∀ i, lo ≤ i → i < hi → (attributes.info i).isData = true →
    ∃ start length, (lo ≤ start ∧ start ≤ i ∧ i < start + length ∧ start + length ≤ hi)
      ∧ ItemAt comments attributes start length

/-- The bytes agree in what items are made of; the second may lack a label that the first has. -/
structure Alike (a b : Attribute) : Prop where
  isData : b.isData = a.isData
  length : b.format.map (·.length) = a.format.map (·.length)
  symbol : a.symbol = none → b.symbol = none

theorem Alike.of_eq {a b : Attribute} (h : b = a) : Alike a b := by
  subst h
  exact ⟨rfl, rfl, id⟩

theorem Alike.trans {a b c : Attribute} (h : Alike a b) (h' : Alike b c) : Alike a c :=
  ⟨h'.isData.trans h.isData, h'.length.trans h.length, h'.symbol ∘ h.symbol⟩

namespace Tiled

variable {comments : List Nat} {attributes other : Attributes} {lo mid hi : Nat}

theorem append (h : Tiled comments attributes lo mid) (h' : Tiled comments attributes mid hi)
    (hlo : lo ≤ mid) (hhi : mid ≤ hi) : Tiled comments attributes lo hi := by
  intro i hlow hhigh hdata
  by_cases hmid : i < mid
  · obtain ⟨start, length, hplace, hitem⟩ := h i hlow hmid hdata
    exact ⟨start, length, ⟨hplace.1, hplace.2.1, hplace.2.2.1, by omega⟩, hitem⟩
  · obtain ⟨start, length, hplace, hitem⟩ := h' i (by omega) hhigh hdata
    exact ⟨start, length, ⟨by omega, hplace.2⟩, hitem⟩

theorem of_le (h : hi ≤ lo) : Tiled comments attributes lo hi :=
  fun i hlow hhigh => absurd hhigh (by omega)

theorem of_not_data (h : (attributes.info lo).isData = false) :
    Tiled comments attributes lo (lo + 1) := by
  intro i hlow hhigh hdata
  obtain rfl : i = lo := by omega
  rw [h] at hdata
  cases hdata

theorem of_itemAt {length : Nat} (h : ItemAt comments attributes lo length) :
    Tiled comments attributes lo (lo + length) :=
  fun _ hlow hhigh _ => ⟨lo, length, ⟨Nat.le_refl _, hlow, hhigh, Nat.le_refl _⟩, h⟩

/-- The tiling of a stretch depends on nothing but its bytes. -/
theorem congr (h : Tiled comments attributes lo hi)
    (hsame : ∀ j, lo ≤ j → j < hi → Alike (attributes.info j) (other.info j)) :
    Tiled comments other lo hi := by
  intro i hlow hhigh hdata
  rw [(hsame i hlow hhigh).isData] at hdata
  obtain ⟨start, length, hplace, hitem⟩ := h i hlow hhigh hdata
  refine ⟨start, length, hplace, fun j hj hj' => ?_, ?_, fun j hj hj' => ?_⟩
  · rw [(hsame j (by omega) (by omega)).isData]
    exact hitem.data j hj hj'
  · rw [(hsame start (by omega) (by omega)).length]
    exact hitem.first
  · have halike := hsame j (by omega) (by omega)
    obtain ⟨hformat, hsymbol, hcomment⟩ := hitem.inside j hj hj'
    refine ⟨?_, halike.symbol hsymbol, hcomment⟩
    rw [← Option.map_eq_none_iff (f := (·.length)), halike.length, hformat]
    rfl

/-- A data byte with a format is the first of its item. -/
theorem itemAt (h : Tiled comments attributes lo hi) {i : Nat} {format : Format} (hlow : lo ≤ i)
    (hhigh : i < hi) (hdata : (attributes.info i).isData = true)
    (hformat : (attributes.info i).format = some format) :
    ItemAt comments attributes i format.length ∧ 0 < format.length
      ∧ i + format.length ≤ hi := by
  obtain ⟨start, length, hplace, hitem⟩ := h i hlow hhigh hdata
  rcases Nat.lt_or_eq_of_le hplace.2.1 with hlt | rfl
  · rw [(hitem.inside i hlt hplace.2.2.1).1] at hformat
    cases hformat
  · have hfirst := hitem.first
    rw [hformat, Option.map_some, Option.some.injEq] at hfirst
    subst hfirst
    exact ⟨hitem, by omega, hplace.2.2.2⟩

/-- A data byte with a label is the first of its item. -/
theorem format_of_symbol (h : Tiled comments attributes lo hi) {i : Nat} (hlow : lo ≤ i)
    (hhigh : i < hi) (hdata : (attributes.info i).isData = true)
    (hsymbol : (attributes.info i).symbol ≠ none) :
    (attributes.info i).format.isSome = true := by
  obtain ⟨start, length, hplace, hitem⟩ := h i hlow hhigh hdata
  rcases Nat.lt_or_eq_of_le hplace.2.1 with hlt | rfl
  · exact absurd (hitem.inside i hlt hplace.2.2.1).2.1 hsymbol
  · have hfirst := hitem.first
    rw [Option.map_eq_some_iff] at hfirst
    obtain ⟨format, hformat, _⟩ := hfirst
    rw [hformat]
    rfl

/-- **A data byte is in one item only.** -/
theorem existsUnique (h : Tiled comments attributes lo hi) {i : Nat} (hlow : lo ≤ i)
    (hhigh : i < hi) (hdata : (attributes.info i).isData = true) :
    ∃! start, lo ≤ start ∧ (attributes.info start).isData = true
      ∧ ∃ format, (attributes.info start).format = some format
        ∧ start ≤ i ∧ i < start + format.length := by
  obtain ⟨start, length, hplace, hitem⟩ := h i hlow hhigh hdata
  have hfirst := hitem.first
  rw [Option.map_eq_some_iff] at hfirst
  obtain ⟨format, hformat, rfl⟩ := hfirst
  refine ⟨start, ⟨hplace.1, hitem.data start (Nat.le_refl _) (by omega), format, hformat,
    hplace.2.1, hplace.2.2.1⟩, ?_⟩
  rintro s ⟨hs, hsdata, f, hf, hle, hlt⟩
  have hother := (h.itemAt hs (by omega) hsdata hf).1
  -- of two items that hold the byte, the later one would start inside the earlier
  rcases Nat.lt_trichotomy s start with hbefore | heq | hafter
  · rw [(hother.inside start hbefore (by omega)).1] at hformat
    cases hformat
  · exact heq
  · rw [(hitem.inside s hafter (by omega)).1] at hf
    cases hf

end Tiled

/-! ### One range -/

/-- The bytes of a range under way: data without a format, of which only the first may have a label
or a comment. -/
structure Open (comments : List Nat) (attributes : Attributes) (lo hi : Nat) : Prop where
  data : ∀ j, lo ≤ j → j < hi →
    (attributes.info j).isData = true ∧ (attributes.info j).format = none
  bare : ∀ j, lo < j → j < hi → (attributes.info j).symbol = none ∧ j ∉ comments

theorem Open.of_le {comments : List Nat} {attributes : Attributes} {lo hi : Nat} (h : hi ≤ lo) :
    Open comments attributes lo hi :=
  ⟨fun j hj hj' => absurd hj' (by omega), fun j hj hj' => absurd hj' (by omega)⟩

/-- A range goes on over a byte of data, which must be bare unless it is the first. -/
theorem Open.extend {comments : List Nat} {attributes : Attributes} {lo hi : Nat}
    (h : Open comments attributes lo hi) (hdata : (attributes.info hi).isData = true)
    (hformat : (attributes.info hi).format = none)
    (hbare : lo < hi → (attributes.info hi).symbol = none ∧ hi ∉ comments) :
    Open comments attributes lo (hi + 1) := by
  refine ⟨fun j hj hj' => ?_, fun j hj hj' => ?_⟩ <;>
    rcases Nat.lt_succ_iff_lt_or_eq.mp hj' with hlt | rfl
  · exact h.data j hj hlt
  · exact ⟨hdata, hformat⟩
  · exact h.bare j hj hlt
  · exact hbare hj

/-- From one to the other the bytes from `lo` up to `hi` have been tiled. -/
structure LaysRange (comments : List Nat) (lo hi : Nat) (attributes other : Attributes) :
    Prop where
  outside : ∀ j, j < lo ∨ hi ≤ j → other.info j = attributes.info j
  tiled : Tiled comments other lo hi

theorem placeItems_lays {comments : List Nat} :
    ∀ (items : List Format) (total offset : Nat) (attributes : Attributes), Cuts items total →
      offset + total ≤ attributes.size → Open comments attributes offset (offset + total) →
      LaysRange comments offset (offset + total) attributes
        (placeItems attributes offset items) := by
  intro items
  induction items with
  | nil =>
      intro total offset attributes hcuts _ _
      have htotal : 0 = total := hcuts.total
      exact ⟨fun _ _ => rfl, .of_le (by omega)⟩
  | cons format others ih =>
      intro total offset attributes hcuts hsize hopen
      obtain ⟨⟨_, hpos⟩, hplain⟩ := List.forall_mem_cons.mp hcuts.plain
      have htotal : format.length + (others.map (·.length)).sum = total := by
        rw [← hcuts.total, List.map_cons, List.sum_cons]
      let next := offset + format.length
      let placed := attributes.update offset fun a => { a with format := some format }
      have hplaced : ∀ j, j ≠ offset → placed.info j = attributes.info j := fun j hj =>
        Attributes.info_update_ne _ hj.symm _
      have hself : placed.info offset = { attributes.info offset with format := some format } :=
        Attributes.info_update_self (by omega) _
      have hrest : LaysRange comments next (offset + total) placed
          (placeItems placed next others) := by
        have hend : next + (others.map (·.length)).sum = offset + total := by omega
        rw [← hend]
        refine ih _ next placed ⟨hplain, rfl⟩ ?_ ⟨fun j hj hj' => ?_, fun j hj hj' => ?_⟩
        · rw [hend, Attributes.size_update]
          exact hsize
        · rw [hplaced j (by omega)]
          exact hopen.data j (by omega) (by omega)
        · rw [hplaced j (by omega)]
          exact hopen.bare j (by omega) (by omega)
      rw [placeItems]
      refine ⟨fun j hj => ?_, .append (.of_itemAt ⟨?_, ?_, ?_⟩) hrest.tiled (by omega)
        (by omega)⟩
      · rw [hrest.outside j (by omega), hplaced j (by omega)]
      · intro j hj hj'
        rw [hrest.outside j (Or.inl hj')]
        by_cases hfirst : j = offset
        · rw [hfirst, hself]
          exact (hopen.data offset (Nat.le_refl _) (by omega)).1
        · rw [hplaced j hfirst]
          exact (hopen.data j hj (by omega)).1
      · rw [hrest.outside offset (by omega), hself]
        rfl
      · intro j hj hj'
        rw [hrest.outside j (Or.inl hj'), hplaced j (by omega)]
        exact ⟨(hopen.data j (by omega) (by omega)).2, hopen.bare j hj (by omega)⟩

section Gather

variable {survey : Survey} {w v u : Workspace} {lo hi : Nat}

theorem formatRange_lays (himage : w.attributes.size = survey.image.size) (hle : lo ≤ hi)
    (hsize : hi ≤ w.attributes.size) (hopen : Open survey.comments w.attributes lo hi)
    (h : formatRange survey lo hi w = v.done) :
    LaysRange survey.comments lo hi w.attributes v.attributes := by
  obtain ⟨items, -, hcuts, rfl⟩ := formatRange_items hle (by omega) h
  have hend : lo + (hi - lo) = hi := by omega
  rw [← hend] at hopen ⊢
  exact placeItems_lays items (hi - lo) lo w.attributes hcuts (by omega) hopen

/-- Closing the range that is under way at `hi`, if there is one, tiles it. -/
theorem closeRange_lays {start : Option Nat} (himage : w.attributes.size = survey.image.size)
    (hle : start.getD hi ≤ hi) (hsize : hi ≤ w.attributes.size)
    (hopen : Open survey.comments w.attributes (start.getD hi) hi)
    (h : closeRange survey start hi w = v.done) :
    LaysRange survey.comments (start.getD hi) hi w.attributes v.attributes := by
  cases start with
  | none =>
      rw [← done_inj.mp h]
      exact ⟨fun _ _ => rfl, .of_le (Nat.le_refl _)⟩
  | some start => exact formatRange_lays himage hle hsize hopen h

/-! ### All ranges -/

/-- A byte as classing leaves it: code, a single inline byte, or data without a format. -/
inductive Ready (a : Attribute) : Prop where
  | code (hcode : a.isInstruction = true) (hdata : a.isData = false)
  | inlineByte (hcode : a.isInstruction = false) (hinline : a.isInlineData = true)
      (hdata : a.isData = false) (hlength : a.length = 1)
  | data (hcode : a.isInstruction = false) (hinline : a.isInlineData = false)
      (hdata : a.isData = true) (hformat : a.format = none)

theorem Ready.endsRange? {a : Attribute} (ha : Ready a) :
    endsRange? a = some 1 ∧ a.isData = false
      ∨ endsRange? a = none ∧ a.isData = true ∧ a.format = none := by
  unfold Data.endsRange? Attribute.isDataStart
  cases ha with
  | code hcode hdata => exact Or.inl ⟨by rw [if_pos hcode], hdata⟩
  | inlineByte hcode hinline hdata hlength =>
      exact Or.inl ⟨by rw [hcode, hinline, hlength]; rfl, hdata⟩
  | data hcode hinline hdata hformat =>
      exact Or.inr ⟨by rw [hcode, hinline, hformat, hdata]; rfl, hdata, hformat⟩

/-- From one to the other all data from `lo` on has been tiled and nothing else has changed. -/
structure Lays (comments : List Nat) (lo : Nat) (attributes other : Attributes) : Prop where
  below : ∀ j, j < lo → other.info j = attributes.info j
  others : ∀ j, (attributes.info j).isData = false → other.info j = attributes.info j
  tiled : Tiled comments other lo attributes.size

theorem Lays.of_le {comments : List Nat} {attributes : Attributes} (h : attributes.size ≤ lo) :
    Lays comments lo attributes attributes :=
  ⟨fun _ _ => rfl, fun _ _ => rfl, .of_le h⟩

theorem LaysRange.append {comments : List Nat} {mid : Nat} {attributes other last : Attributes}
    (h : LaysRange comments lo mid attributes other) (hopen : Open comments attributes lo mid)
    (h' : Lays comments mid other last) (hsize : other.size = attributes.size) (hlo : lo ≤ mid)
    (hmid : mid ≤ attributes.size) : Lays comments lo attributes last := by
  refine ⟨fun j hj => ?_, fun j hj => ?_, ?_⟩
  · rw [h'.below j (by omega), h.outside j (Or.inl hj)]
  · have houtside : j < lo ∨ mid ≤ j := by
      by_contra hin
      rw [(hopen.data j (by omega) (by omega)).1] at hj
      cases hj
    have hsame := h.outside j houtside
    rw [← hsame]
    exact h'.others j (hsame ▸ hj)
  · refine (h.tiled.congr fun j _ hj => .of_eq (h'.below j hj)).append ?_ hlo hmid
    rw [← hsize]
    exact h'.tiled

theorem Lays.of_not_data {comments : List Nat} {attributes other : Attributes}
    (h : Lays comments (lo + 1) attributes other) (hdata : (attributes.info lo).isData = false)
    (hsize : lo < attributes.size) : Lays comments lo attributes other := by
  refine ⟨fun j hj => h.below j (by omega), h.others, ?_⟩
  refine .append (.of_not_data ?_) h.tiled (by omega) hsize
  rw [h.others lo hdata]
  exact hdata

/-- The walk that gathers ranges stands at `offset`.  The range under way, if there is one, is open,
and the bytes to come are as classing leaves them. -/
structure Walk (survey : Survey) (offset : Nat) (start : Option Nat) (w : Workspace) : Prop where
  image : w.attributes.size = survey.image.size
  inside : offset ≤ w.attributes.size
  begun : start.getD offset ≤ offset
  opened : Open survey.comments w.attributes (start.getD offset) offset
  ready : ∀ j, offset ≤ j → j < w.attributes.size → Ready (w.info j)

/-- The walk takes a byte, after which no range is under way. -/
theorem Walk.idle {offset : Nat} {start : Option Nat} (hw : Walk survey offset start w)
    (hlt : offset < w.attributes.size) (hsize : u.attributes.size = w.attributes.size)
    (hrest : ∀ j, offset < j → u.info j = w.info j) : Walk survey (offset + 1) none u := by
  refine ⟨hsize.trans hw.image, by omega, Nat.le_refl _, .of_le (Nat.le_refl _),
    fun j hj hj' => ?_⟩
  rw [hrest j (by omega)]
  exact hw.ready j (by omega) (by omega)

/-- What the walk does with the byte at `offset`. -/
structure WalkStep (survey : Survey) (offset : Nat) (start : Option Nat) (w : Workspace)
    (next : Option Nat) (u : Workspace) : Prop where
  walk : Walk survey (offset + 1) next u
  after : ∀ j, offset < j → u.info j = w.info j
  lays : ∀ last, Lays survey.comments (next.getD (offset + 1)) u.attributes last →
    Lays survey.comments (start.getD offset) w.attributes last
  /-- Behind a break of the addresses no range is under way, unless it starts with the byte. -/
  breaks : (w.info offset).symbol = none → offset ∉ survey.comments →
    offset + 1 < w.attributes.size → survey.map.isContiguous offset 2 = false → next = none

/-- **One step of the walk.** -/
theorem gatherFrom_step {fuel offset : Nat} {start : Option Nat}
    (hw : Walk survey offset start w) (hlt : offset < w.attributes.size)
    (h : gatherFrom survey (fuel + 1) offset start w = v.done) :
    ∃ next u, WalkStep survey offset start w next u
      ∧ gatherFrom survey fuel (offset + 1) next u = v.done := by
  obtain ⟨himage, hinside, hbegun, hopen, hready⟩ := hw
  rw [gatherFrom] at h
  dsimp only at h
  rw [if_neg (by omega)] at h
  rcases (hready offset (Nat.le_refl _) hlt).endsRange? with
    ⟨hends, hdata⟩ | ⟨hends, hdata, hformat⟩
  · -- code or an inline byte: the range ends before it
    rw [hends] at h
    dsimp only at h
    obtain ⟨u, hclosed, hon⟩ := andThen_eq_done.mp h
    have hclose := closeRange_lays himage hbegun hinside hopen hclosed
    have hsize := (closeRange_formats hclosed).size
    have hself := hclose.outside offset (by omega)
    have hafter : ∀ j, offset < j → u.info j = w.info j := fun j hj =>
      hclose.outside j (by omega)
    obtain ⟨next, hnext, hrest⟩ := goOn_eq_done.mp hon
    obtain ⟨-, rfl⟩ := stepOver_eq_ok.mp hnext
    refine ⟨none, u, ⟨.idle ⟨himage, hinside, hbegun, hopen, hready⟩ hlt hsize hafter, hafter,
      fun last hlast => ?_, fun _ _ _ _ => rfl⟩, hrest⟩
    exact hclose.append hopen
      (hlast.of_not_data (by rw [hself]; exact hdata) (by omega)) hsize hbegun hinside
  rw [hends] at h
  dsimp only at h
  split at h
  · -- a label or a comment: the range ends before it, and one starts with it
    rename_i hsplits
    obtain ⟨u, hclosed, hrest⟩ := andThen_eq_done.mp h
    have hclose := closeRange_lays himage hbegun hinside hopen hclosed
    have hsize := (closeRange_formats hclosed).size
    have hself := hclose.outside offset (by omega)
    have hafter : ∀ j, offset < j → u.info j = w.info j := fun j hj =>
      hclose.outside j (by omega)
    refine ⟨some offset, u, ⟨⟨by omega, by omega, Nat.le_succ _,
      .extend (.of_le (Nat.le_refl _)) (by rw [hself]; exact hdata) (by rw [hself]; exact hformat)
        fun hlow => absurd hlow (Nat.lt_irrefl _), fun j hj hj' => ?_⟩, hafter,
      fun last hlast => hclose.append hopen hlast hsize hbegun hinside,
      fun hsymbol hcomment _ _ => ?_⟩, hrest⟩
    · rw [hafter j (by omega)]
      exact hready j (by omega) (by omega)
    · rw [hsymbol, Option.isSome_none, Bool.false_or, List.contains_iff_mem] at hsplits
      exact absurd hsplits hcomment
  rename_i hbare
  rw [Bool.or_eq_true, not_or, Bool.not_eq_true, Option.isSome_eq_false_iff,
    Option.isNone_iff_eq_none, List.contains_iff_mem] at hbare
  have hopen' := hopen.extend hdata hformat fun _ => hbare
  split at h
  · -- the addresses break after the byte: the range ends with it
    obtain ⟨u, hformatted, hrest⟩ := andThen_eq_done.mp h
    have hlow : start.getD offset ≤ offset + 1 := by omega
    have hrange := formatRange_lays himage hlow hlt hopen' hformatted
    have hsize := (formatRange_formats hformatted).size
    have hafter : ∀ j, offset < j → u.info j = w.info j := fun j hj =>
      hrange.outside j (by omega)
    exact ⟨none, u, ⟨.idle ⟨himage, hinside, hbegun, hopen, hready⟩ hlt hsize hafter, hafter,
      fun last hlast => hrange.append hopen' hlast hsize hlow hlt, fun _ _ _ _ => rfl⟩, hrest⟩
  · rename_i hgoes
    refine ⟨some (start.getD offset), w, ⟨⟨himage, hlt, Nat.le_succ_of_le hbegun, hopen',
      fun j hj hj' => hready j (by omega) hj'⟩, fun _ _ => rfl, fun last hlast => hlast,
      fun _ _ hin hbreak => ?_⟩, h⟩
    rw [hbreak, decide_eq_true hin] at hgoes
    exact absurd rfl hgoes

/-- **The walk tiles what it has not come to, and the range that is under way.** -/
theorem gatherFrom_lays {fuel offset : Nat} {start : Option Nat}
    (hw : Walk survey offset start w) (h : gatherFrom survey fuel offset start w = v.done) :
    Lays survey.comments (start.getD offset) w.attributes v.attributes := by
  induction fuel generalizing offset start w with
  | zero => exact absurd h stop_ne_done
  | succ fuel ih =>
      by_cases hlt : offset < w.attributes.size
      · obtain ⟨next, u, hstep, hrest⟩ := gatherFrom_step hw hlt h
        exact hstep.lays _ (ih hstep.walk hrest)
      · rw [gatherFrom] at h
        dsimp only at h
        rw [if_pos (by omega)] at h
        obtain rfl : offset = w.attributes.size := by have := hw.inside; omega
        have hsize := (closeRange_formats h).size
        exact (closeRange_lays hw.image hw.begun hw.inside hw.opened h).append hw.opened
          (.of_le (Nat.le_of_eq hsize)) hsize hw.begun (Nat.le_refl _)

/-! ### The whole pass -/

theorem Drafted.narrow {a : Attribute} (hunmixed : a.Unmixed) (ha : Drafted a) : Narrow a := by
  intro hinline format hformat
  rcases ha with hstart | hnone | ⟨_, hnumber⟩
  · rw [(hunmixed.code (hunmixed.start hstart)).2] at hinline
    cases hinline
  · rw [hnone] at hformat
    cases hformat
  · rw [hnumber, Option.some.injEq] at hformat
    rw [← hformat]
    rfl

theorem Classed.ready {a b : Attribute} (h : Classed a b) (hunmixed : a.Unmixed)
    (ha : Drafted a) (hinline : a.isInlineData = true → b.format.map (·.length) = some 1) :
    Ready b := by
  have hcode : a.isInlineData = true → a.isInstruction = false ∧ a.isData = false := by
    intro h
    refine ⟨Bool.eq_false_iff.mpr fun hc => ?_, Bool.eq_false_iff.mpr fun hc => ?_⟩
    · rw [(hunmixed.code hc).2] at h
      cases h
    · rw [hunmixed.data hc] at h
      cases h
  have hlength : ∀ c : Attribute, c.isInlineData = true → c.format.map (·.length) = some 1 →
      c.length = 1 := by
    intro c hc hformat
    obtain ⟨format, hsome, hone⟩ := Option.map_eq_some_iff.mp hformat
    rw [Attribute.length, if_pos (by rw [hc, Bool.or_true]), hsome]
    exact hone
  cases h with
  | kept h =>
      rcases h with h | h
      · exact .inlineByte (hcode h).1 h (hcode h).2 (hlength _ h (hinline h))
      · exact .code h (hunmixed.code h).1
  | shown h _ => exact .inlineByte (hcode h).1 h (hcode h).2 (hlength _ h rfl)
  | data hinl hcod =>
      refine .data (by simpa using hcod) (by simpa using hinl) (by simp) ?_
      rcases ha with hstart | hnone | ⟨h, _⟩
      · rw [hunmixed.start hstart] at hcod
        cases hcod
      · exact hnone
      · rw [hinl] at h
        cases h

/-- The pass classes all bytes and then gives formats to some. -/
theorem formatUnclaimed_formats (h : formatUnclaimed survey w = v.done) :
    Formats ⟨classBytes w.attributes, w.symbols⟩ v :=
  gatherFrom_formats _ _ _ _ (formatUnclaimed_eq_done h).2

/-- Classed bytes are ready for the walk. -/
theorem walk_classBytes (himage : w.attributes.size = survey.image.size)
    (hunmixed : ∀ i, (w.info i).Unmixed) (hdrafted : ∀ i, Drafted (w.info i)) :
    Walk survey 0 none ⟨classBytes w.attributes, w.symbols⟩ := by
  refine ⟨(size_classBytes _).trans himage, Nat.zero_le _, Nat.le_refl _,
    .of_le (Nat.le_refl _), fun j _ hj => ?_⟩
  have hj' : j < w.attributes.size := by rwa [← size_classBytes]
  exact (info_classBytes hj').ready (hunmixed j) (hdrafted j)
    (classBytes_inline (fun i => (hdrafted i).narrow (hunmixed i)) hj')

/-- **All data is tiled, and what is not data is as classing leaves it.** -/
theorem formatUnclaimed_lays (himage : w.attributes.size = survey.image.size)
    (hunmixed : ∀ i, (w.info i).Unmixed) (hdrafted : ∀ i, Drafted (w.info i))
    (h : formatUnclaimed survey w = v.done) :
    Lays survey.comments 0 (classBytes w.attributes) v.attributes :=
  gatherFrom_lays (walk_classBytes himage hunmixed hdrafted) (formatUnclaimed_eq_done h).2

end Gather

end Disasm65.Data
