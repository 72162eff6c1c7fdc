/-
When giving formats to unclaimed bytes can fail.

The walk that gathers ranges either passes over what ends a range or takes one more byte into the
range under way (`Turn`), so it comes to the end of the image as long as no item reaches beyond it
(`Gathers`).  A range fails for one reason only: strings without characters are asked for, and no
string starts somewhere in it.  So the pass always succeeds if a string needs a character
(`Endings.succeeds`).  If it needs none, an unclaimed byte that is no character stops the pass.
-/
import Mathlib
import Disasm65.Proofs.Data.Greedy
import Disasm65.Proofs.Data.Tiling

namespace Disasm65.Data

variable {parameters : Parameters} {image : Image} {start stop p : Nat}

/-! ### One range -/

/-- No string can start at `p`: the byte is no character, or a run starts there that is too long for
text. -/
def Textless (parameters : Parameters) (image : Image) (p : Nat) : Prop :=
  parameters.textScan.charset.isText (image.byteAt p) = false
    ∨ ∃ hi, hi ≤ image.size ∧ parameters.maxStringRun < hi - p
      ∧ ∀ i, p ≤ i → i < hi → image.byteAt i = image.byteAt p

/-- Strings without characters are asked for, and none can start at `p`. -/
structure Faults (parameters : Parameters) (image : Image) (p : Nat) (fault : Fault) : Prop where
  cuts : parameters.cutsUnclaimed = true
  empty : parameters.minString = 0
  textless : Textless parameters image p
  fault : fault = .badFormat .zeroLength 0 .text parameters.textScan.charset.detail

theorem frontItems_faults (hcuts : parameters.cutsUnclaimed = true) (himage : stop ≤ image.size)
    (hp : p < stop) {fault : Fault}
    (h : frontItems parameters (image.bytesFrom p (stop - p)) = .error fault) :
    Faults parameters image p fault := by
  have hcut := frontItems_cut parameters image hp
  rw [h] at hcut
  cases hcut with
  | fault hmin hnone =>
      refine ⟨hcuts, hmin, hnone.imp_right fun hlong => ?_, rfl⟩
      have hrun := stretch_runLength image hp
      exact ⟨_, hrun.le_stop.trans himage, by omega,
        fun i hlo hhi => beq_iff_eq.mp (hrun.all i hlo hhi)⟩

theorem cutBytes_faults (hcuts : parameters.cutsUnclaimed = true) (himage : stop ≤ image.size)
    {fault : Fault} {fuel : Nat}
    (h : (cutBytes parameters fuel (image.bytesFrom p (stop - p))).2 = some fault) :
    ∃ q, p ≤ q ∧ q < stop ∧ Faults parameters image q fault := by
  induction fuel generalizing p with
  | zero => cases h
  | succ fuel ih =>
      by_cases hp : p < stop
      · have hcons := bytesFrom_of_lt image hp
        rw [hcons, cutBytes, ← hcons] at h
        split at h
        · rename_i hfront
          cases h
          exact ⟨p, Nat.le_refl _, hp, frontItems_faults hcuts himage hp hfront⟩
        · rename_i front taken hfront
          rw [Image.drop_bytesFrom, Nat.sub_sub] at h
          obtain ⟨q, hle, hlt, hfaults⟩ := ih h
          exact ⟨q, by omega, hlt, hfaults⟩
      · rw [bytesFrom_of_le image (Nat.le_of_not_lt hp)] at h
        cases h

/-- If strings need no characters, a byte that is none stops the cutting: it is in no string, and
nothing but strings is cut off. -/
theorem cutBytes_stops (hmin : parameters.minString = 0) {q fuel : Nat} (hle : p ≤ q)
    (hlt : q < stop) (hfuel : stop - p ≤ fuel)
    (htext : parameters.textScan.charset.isText (image.byteAt q) = false) :
    (cutBytes parameters fuel (image.bytesFrom p (stop - p))).2 ≠ none := by
  induction fuel generalizing p with
  | zero => omega
  | succ fuel ih =>
      have hp : p < stop := by omega
      have hcons := bytesFrom_of_lt image hp
      have hcut := frontItems_cut parameters image hp
      rw [hcons, cutBytes, ← hcons]
      generalize frontItems parameters (image.bytesFrom p (stop - p)) = result at hcut ⊢
      cases hcut with
      | text encoding hmem length hpos _ hstretch =>
          dsimp only
          rw [Image.drop_bytesFrom, Nat.sub_sub]
          refine ih (Nat.le_of_not_lt fun hin => ?_) (by omega)
          rw [(TextScan.eq_refine hmem (hstretch.all q hle hin)).1] at htext
          cases htext
      | fill hsome | singles hsome => omega
      | fault => exact Option.some_ne_none _

section Walk

variable {survey : Survey} {w u v : Workspace} {fault : Fault}

theorem formatRange_faults (hle : start ≤ stop) (himage : stop ≤ survey.image.size)
    (h : (formatRange survey start stop w).fault = some fault) :
    ∃ q, start ≤ q ∧ q < stop ∧ Faults survey.parameters survey.image q fault := by
  unfold formatRange rangeItems at h
  dsimp only at h
  rw [Image.slice?_eq_some (by omega), Option.getD_some] at h
  split at h
  · exact cutBytes_faults ‹_› himage h
  · cases h

theorem formatRange_stops (hcuts : survey.parameters.cutsUnclaimed = true)
    (hmin : survey.parameters.minString = 0) (himage : stop ≤ survey.image.size) (hle : start ≤ p)
    (hlt : p < stop)
    (htext : survey.parameters.textScan.charset.isText (survey.image.byteAt p) = false) :
    (formatRange survey start stop w).fault ≠ none := by
  unfold formatRange rangeItems
  dsimp only
  rw [Image.slice?_eq_some (by omega), Option.getD_some, if_pos hcuts, Image.length_bytesFrom]
  exact cutBytes_stops hmin hle hlt (Nat.le_refl _) htext

/-- Closing a range leaves the bytes behind it as they are. -/
theorem closeRange_behind {closed : Option Nat} (hle : closed.getD stop ≤ stop)
    (himage : stop ≤ survey.image.size) (hsize : stop ≤ w.attributes.size)
    (h : closeRange survey closed stop w = u.done) :
    ∀ j, stop ≤ j → u.info j = w.info j := by
  intro j hj
  cases closed with
  | none =>
      rw [← done_inj.mp h]
  | some first =>
      have hfirst : first ≤ stop := hle
      obtain ⟨items, -, hcuts, rfl⟩ := formatRange_items hle himage h
      refine (placeItems_attached hcuts (by omega)).elsewhere j fun format hmem => ?_
      obtain ⟨-, hpos, -, hhi⟩ := hcuts.mem_placed hfirst hmem
      omega

theorem closeRange_faults {closed : Option Nat} (hle : closed.getD stop ≤ stop)
    (himage : stop ≤ survey.image.size) (h : (closeRange survey closed stop w).fault = some fault) :
    ∃ q, closed.getD stop ≤ q ∧ q < stop
      ∧ Faults survey.parameters survey.image q fault := by
  cases closed with
  | none => cases h
  | some first => exact formatRange_faults hle himage h

theorem closeRange_stops {closed : Option Nat} (hcuts : survey.parameters.cutsUnclaimed = true)
    (hmin : survey.parameters.minString = 0) (himage : stop ≤ survey.image.size)
    (hle : closed.getD stop ≤ p) (hlt : p < stop)
    (htext : survey.parameters.textScan.charset.isText (survey.image.byteAt p) = false) :
    (closeRange survey closed stop w).fault ≠ none := by
  cases closed with
  | none => exact absurd hlt (Nat.not_lt_of_le hle)
  | some first => exact formatRange_stops hcuts hmin himage hle hlt htext

/-! ### The walk -/

/-- What the walk does at `offset`: it closes the range `closed` at `stop`, if there is one, and
goes on at `next` with the range `after`. -/
inductive Turn (w : Workspace) (offset : Nat) (start : Option Nat) :
    (closed : Option Nat) → (stop next : Nat) → (after : Option Nat) → Prop where
  /-- An item or an instruction is passed over. -/
  | passes (length : Nat) (hends : endsRange? (w.info offset) = some length) :
      Turn w offset start start offset (offset + max length 1) none
  /-- The byte belongs to a range, which is the one that goes on behind it unless it is closed. -/
  | takes (closed after : Option Nat) (stop : Nat) (hfree : endsRange? (w.info offset) = none)
      (hclosed : closed.getD stop = start.getD offset) (hafter : after.getD (offset + 1) = stop)
      (hlo : start.getD offset ≤ stop) (hhi : stop ≤ offset + 1) :
      Turn w offset start closed stop (offset + 1) after

/-- **One step of the walk.** -/
theorem gatherFrom_succ (survey : Survey) {offset : Nat} {start : Option Nat}
    (hlt : offset < w.attributes.size) (hbegun : start.getD offset ≤ offset)
    (hword : ∀ length, endsRange? (w.info offset) = some length →
      offset + max length 1 < 0x10000000000000000) :
    ∃ closed stop next after, Turn w offset start closed stop next after
      ∧ ∀ fuel, gatherFrom survey (fuel + 1) offset start w
          = (closeRange survey closed stop w).andThen (gatherFrom survey fuel next after) := by
  simp only [gatherFrom, if_neg (Nat.not_le_of_lt hlt)]
  cases hends : endsRange? (w.info offset) with
  | some length =>
      refine ⟨start, offset, _, none, .passes length hends, fun fuel => ?_⟩
      dsimp only
      rw [show stepOver offset length = .ok _ from addWords_of_lt (hword length hends)]
      rfl
  | none =>
      dsimp only
      split
      · exact ⟨start, offset, _, some offset,
          .takes _ _ _ hends rfl rfl hbegun (Nat.le_succ _), fun _ => rfl⟩
      split
      · exact ⟨some (start.getD offset), offset + 1, _, none,
          .takes _ _ _ hends rfl rfl (by omega) (Nat.le_refl _), fun _ => rfl⟩
      · exact ⟨none, start.getD offset, _, some (start.getD offset),
          .takes _ _ _ hends rfl rfl (Nat.le_refl _) (by omega), fun _ => rfl⟩

/-- The walk stands at `offset`.  The range under way, if there is one, holds nothing that ends a
range, and no item that is to come reaches beyond the image. -/
structure Course (survey : Survey) (offset : Nat) (start : Option Nat) (w : Workspace) : Prop where
  image : w.attributes.size = survey.image.size
  inside : offset ≤ w.attributes.size
  begun : start.getD offset ≤ offset
  free : ∀ j, start.getD offset ≤ j → j < offset → endsRange? (w.info j) = none
  fits : ∀ j, offset ≤ j → j < w.attributes.size → ∀ length,
    endsRange? (w.info j) = some length → j + max length 1 ≤ w.attributes.size

variable {offset next : Nat} {begun closed after : Option Nat}

/-- What is closed starts where the range under way does, what follows starts behind it, and the
walk moves forward. -/
theorem Turn.bounds (h : Turn w offset begun closed stop next after)
    (hbegun : begun.getD offset ≤ offset) :
    closed.getD stop = begun.getD offset ∧ begun.getD offset ≤ stop ∧ stop ≤ offset + 1
      ∧ stop ≤ after.getD next ∧ after.getD next ≤ next ∧ offset < next := by
  cases h with
  | passes length =>
      have : 1 ≤ max length 1 := Nat.le_max_right _ _
      exact ⟨rfl, hbegun, Nat.le_succ _, by simp, by simp, by omega⟩
  | takes _ _ _ _ hclosed hafter hlo hhi =>
      exact ⟨hclosed, hlo, hhi, by omega, by omega, Nat.lt_succ_self _⟩

namespace Course

theorem next_le (hc : Course survey offset begun w) (hlt : offset < w.attributes.size)
    (hturn : Turn w offset begun closed stop next after) :
    next ≤ w.attributes.size := by
  cases hturn with
  | passes length hends => exact hc.fits _ (Nat.le_refl _) hlt length hends
  | takes => exact hlt

/-- A turn that closes its range well changes nothing from the next range on. -/
theorem behind (hc : Course survey offset begun w) (hlt : offset < w.attributes.size)
    (hturn : Turn w offset begun closed stop next after)
    (hclose : closeRange survey closed stop w = u.done) :
    u.attributes.size = w.attributes.size ∧ ∀ j, after.getD next ≤ j → u.info j = w.info j := by
  obtain ⟨hclosed, hlo, hhi, hstop, -, -⟩ := hturn.bounds hc.begun
  have himage := hc.image
  exact ⟨(closeRange_formats hclose).size, fun j hj =>
    closeRange_behind (by omega) (by omega) (by omega) hclose j (by omega)⟩

theorem turn (hc : Course survey offset begun w) (hlt : offset < w.attributes.size)
    (hturn : Turn w offset begun closed stop next after)
    (hclose : closeRange survey closed stop w = u.done) : Course survey next after u := by
  obtain ⟨hsize, hbehind⟩ := hc.behind hlt hturn hclose
  obtain ⟨-, hlo, hhi, hstop, hafter, hnext⟩ := hturn.bounds hc.begun
  have hle := hc.next_le hlt hturn
  refine ⟨hsize.trans hc.image, by omega, hafter, fun j hj hj' => ?_, fun j hj hj' => ?_⟩
  · rw [hbehind j hj]
    cases hturn with
    | passes => exact absurd hj' (Nat.not_lt_of_le hj)
    | takes _ _ _ hfree =>
        rcases Nat.lt_succ_iff_lt_or_eq.mp hj' with hbefore | rfl
        · exact hc.free j (by omega) hbefore
        · exact hfree
  · rw [hbehind j (by omega), hsize]
    exact hc.fits j (by omega) (by omega)

/-- What a turn closes holds nothing that ends a range. -/
theorem free_closed (hc : Course survey offset begun w)
    (hturn : Turn w offset begun closed stop next after) (hlo : closed.getD stop ≤ p)
    (hhi : p < stop) : endsRange? (w.info p) = none := by
  cases hturn with
  | passes => exact hc.free p hlo hhi
  | takes _ _ _ hfree hclosed _ _ hstop =>
      rw [hclosed] at hlo
      rcases Nat.lt_or_eq_of_le (Nat.le_of_lt_succ (Nat.lt_of_lt_of_le hhi hstop)) with hlt | rfl
      · exact hc.free p hlo hlt
      · exact hfree

/-- A step of the walk from where it stands. -/
theorem step (hc : Course survey offset begun w) (hlt : offset < w.attributes.size)
    (hword : survey.image.size < 0x10000000000000000) :
    ∃ closed stop next after, Turn w offset begun closed stop next after
      ∧ ∀ fuel, gatherFrom survey (fuel + 1) offset begun w
          = (closeRange survey closed stop w).andThen (gatherFrom survey fuel next after) := by
  refine gatherFrom_succ survey hlt hc.begun fun length hends => ?_
  have hfits := hc.fits offset (Nat.le_refl _) hlt length hends
  have himage := hc.image
  omega

end Course

/-- The walk from `offset` on, step after step to its end. -/
inductive Gathers (survey : Survey) : Nat → Option Nat → Workspace → Outcome → Prop where
  | last {offset : Nat} {begun : Option Nat} {w : Workspace} (hc : Course survey offset begun w)
      (hend : offset = w.attributes.size) :
      Gathers survey offset begun w (closeRange survey begun offset w)
  | stop {offset stop next : Nat} {begun closed after : Option Nat} {w u : Workspace}
      {fault : Fault} (hc : Course survey offset begun w) (hlt : offset < w.attributes.size)
      (hturn : Turn w offset begun closed stop next after)
      (hclose : closeRange survey closed stop w = u.stop fault) :
      Gathers survey offset begun w (u.stop fault)
  | turn {offset stop next : Nat} {begun closed after : Option Nat} {w u : Workspace}
      {outcome : Outcome} (hc : Course survey offset begun w) (hlt : offset < w.attributes.size)
      (hturn : Turn w offset begun closed stop next after)
      (hclose : closeRange survey closed stop w = u.done)
      (hrest : Gathers survey next after u outcome) :
      Gathers survey offset begun w outcome

/-- **The walk comes to its end**, for it moves forward at every step. -/
theorem gatherFrom_gathers (hword : survey.image.size < 0x10000000000000000)
    (hc : Course survey offset begun w) {fuel : Nat} (hfuel : w.attributes.size < offset + fuel) :
    Gathers survey offset begun w (gatherFrom survey fuel offset begun w) := by
  induction fuel generalizing offset begun w with
  | zero => exact absurd hc.inside (Nat.not_le_of_lt hfuel)
  | succ fuel ih =>
      rcases Nat.lt_or_eq_of_le hc.inside with hlt | hend
      · obtain ⟨closed, stop, next, after, hturn, hstep⟩ := hc.step hlt hword
        rw [hstep]
        rcases hclose : closeRange survey closed stop w with ⟨u, _ | fault⟩
        · have hsize := (hc.behind hlt hturn hclose).1
          have hnext := (hturn.bounds hc.begun).2.2.2.2.2
          exact .turn hc hlt hturn hclose (ih (hc.turn hlt hturn hclose) (by omega))
        · exact .stop hc hlt hturn hclose
      · rw [gatherFrom]
        dsimp only
        rw [if_pos (Nat.le_of_eq hend.symm), ← hend]
        exact .last hc hend

/-- More steps than it needs change nothing. -/
theorem gatherFrom_congr (hword : survey.image.size < 0x10000000000000000)
    (hc : Course survey offset begun w) {fuel more : Nat}
    (hfuel : w.attributes.size < offset + fuel) (hmore : w.attributes.size < offset + more) :
    gatherFrom survey fuel offset begun w = gatherFrom survey more offset begun w := by
  induction fuel generalizing offset begun w more with
  | zero => exact absurd hc.inside (Nat.not_le_of_lt hfuel)
  | succ fuel ih =>
      cases more with
      | zero => exact absurd hc.inside (Nat.not_le_of_lt hmore)
      | succ more =>
          rcases Nat.lt_or_eq_of_le hc.inside with hlt | hend
          · obtain ⟨closed, stop, next, after, hturn, hstep⟩ := hc.step hlt hword
            rw [hstep, hstep]
            rcases hclose : closeRange survey closed stop w with ⟨u, _ | fault⟩
            · have hsize := (hc.behind hlt hturn hclose).1
              have hnext := (hturn.bounds hc.begun).2.2.2.2.2
              exact ih (hc.turn hlt hturn hclose) (by omega) (by omega)
            · rfl
          · simp only [gatherFrom, if_pos (Nat.le_of_eq hend.symm)]

/-- If the walk is stopped, then by a byte that is in some range. -/
theorem Gathers.faults {outcome : Outcome} (h : Gathers survey offset begun w outcome)
    (hfault : outcome.fault = some fault) :
    ∃ q, begun.getD offset ≤ q ∧ q < w.attributes.size ∧ endsRange? (w.info q) = none
      ∧ Faults survey.parameters survey.image q fault := by
  induction h with
  | last hc hend =>
      have himage := hc.image
      obtain ⟨q, hlo, hhi, hfaults⟩ := closeRange_faults hc.begun (by omega) hfault
      exact ⟨q, hlo, by omega, hc.free q hlo hhi, hfaults⟩
  | stop hc hlt hturn hclose =>
      have himage := hc.image
      obtain ⟨hclosed, hlo, hhi, -, -, -⟩ := hturn.bounds hc.begun
      rw [← hclose] at hfault
      obtain ⟨q, hfirst, hlast, hfaults⟩ := closeRange_faults (by omega) (by omega) hfault
      exact ⟨q, by omega, by omega, hc.free_closed hturn hfirst hlast, hfaults⟩
  | turn hc hlt hturn hclose _ ih =>
      obtain ⟨hsize, hbehind⟩ := hc.behind hlt hturn hclose
      obtain ⟨-, hlo, -, hstop, -, -⟩ := hturn.bounds hc.begun
      obtain ⟨q, hfirst, hlast, hfree, hfaults⟩ := ih hfault
      rw [hbehind q hfirst] at hfree
      exact ⟨q, by omega, by omega, hfree, hfaults⟩

/-- If strings need no characters, then a byte that is none stops the walk when its range is closed,
unless it is inside an item. -/
theorem Gathers.stops {outcome : Outcome} (h : Gathers survey offset begun w outcome)
    (hcuts : survey.parameters.cutsUnclaimed = true) (hmin : survey.parameters.minString = 0)
    (htext : survey.parameters.textScan.charset.isText (survey.image.byteAt p) = false)
    (hlo : begun.getD offset ≤ p) (hhi : p < w.attributes.size)
    (hfree : endsRange? (w.info p) = none)
    (houtside : ∀ j, offset ≤ j → j < p → ∀ length, endsRange? (w.info j) = some length →
      j + max length 1 ≤ p) :
    outcome.fault ≠ none := by
  induction h with
  | last hc hend =>
      have himage := hc.image
      exact closeRange_stops hcuts hmin (by omega) hlo (by omega) htext
  | stop => exact Option.some_ne_none _
  | @turn offset stop next begun closed after w u _ hc hlt hturn hclose _ ih =>
      obtain ⟨hsize, hbehind⟩ := hc.behind hlt hturn hclose
      obtain ⟨hclosed, -, hstop, -, hafter, hnext⟩ := hturn.bounds hc.begun
      have himage := hc.image
      -- the range is closed well, so the byte is not in it
      have hpast : stop ≤ p := Nat.le_of_not_lt fun hin =>
        closeRange_stops hcuts hmin (by omega) (hclosed.le.trans hlo) hin htext
          (by rw [hclose]; rfl)
      have hfrom : after.getD next ≤ p := by
        cases hturn with
        | passes length hends =>
            refine houtside offset (Nat.le_refl _) (Nat.lt_of_le_of_ne hpast fun heq => ?_)
              length hends
            rw [← heq, hends] at hfree
            cases hfree
        | takes _ _ _ _ _ hstop => exact hstop ▸ hpast
      refine ih hfrom (by omega) (by rw [hbehind p hfrom]; exact hfree) fun j hj hj' => ?_
      rw [hbehind j (by omega)]
      exact houtside j (by omega) hj'

/-! ### The whole pass -/

/-- Nobody has claimed the byte: it is neither code nor inline data, and it has no format. -/
structure Unclaimed (a : Attribute) : Prop where
  code : a.isInstruction = false
  inline : a.isInlineData = false
  format : a.format = none

theorem endsRange?_eq_none {a : Attribute} :
    endsRange? a = none ↔
      a.isInstruction = false ∧ a.isInlineData = false ∧ a.isDataStart = false := by
  unfold endsRange?
  cases a.isInstruction <;> cases a.isInlineData <;> simp

/-- What ends a range is one byte long, or as long as its format. -/
theorem length_of_endsRange? {a : Attribute} {length : Nat} (h : endsRange? a = some length) :
    length ≤ 1 ∨ ∃ format, a.format = some format ∧ format.length = length := by
  unfold endsRange? at h
  split at h
  · exact Or.inl (Option.some.inj h ▸ Nat.le_refl _)
  split at h
  · rename_i hitem
    have hkind : (a.isData || a.isInlineData) = true := by
      revert hitem
      unfold Attribute.isDataStart
      cases a.isData <;> simp
    rw [Option.some.injEq, Attribute.length, if_pos hkind] at h
    split at h
    · rename_i format hformat
      exact Or.inr ⟨format, hformat, h⟩
    · exact Or.inl (h ▸ Nat.zero_le _)
  · cases h

namespace Classed

variable {a b : Attribute}

theorem eq_mark (h : Classed a b) (hcode : a.isInstruction = false)
    (hinline : a.isInlineData = false) : b = a.mark .data := by
  cases h with
  | kept h =>
      rw [hcode, hinline, or_self] at h
      cases h
  | shown h =>
      rw [hinline] at h
      cases h
  | data => rfl

theorem unclaimed_iff (h : Classed a b) : endsRange? b = none ↔ Unclaimed a := by
  have hcode : b.isInstruction = a.isInstruction := by cases h <;> simp
  have hstart : a.isInstruction = false → a.isInlineData = false →
      b.isDataStart = a.format.isSome := by
    intro hcode hinline
    rw [h.eq_mark hcode hinline]
    simp [Attribute.isDataStart]
  rw [endsRange?_eq_none, hcode, h.isInlineData]
  refine ⟨fun ⟨hcode, hinline, hnone⟩ => ⟨hcode, hinline, ?_⟩,
    fun ha => ⟨ha.code, ha.inline, ?_⟩⟩
  · rw [hstart hcode hinline] at hnone
    exact Option.isSome_eq_false_iff.mp hnone |> Option.isNone_iff_eq_none.mp
  · rw [hstart ha.code ha.inline, ha.format]
    rfl

theorem format_eq (h : Classed a b) : b.format = a.format ∨ b.format = some .oneByte := by
  cases h with
  | kept => exact Or.inl rfl
  | shown => exact Or.inr rfl
  | data => exact Or.inl rfl

/-- What ends a range of classed bytes is one byte long, or as long as the format that there was. -/
theorem length_of_endsRange? (h : Classed a b) {length : Nat}
    (hends : endsRange? b = some length) :
    length ≤ 1 ∨ ∃ format, a.format = some format ∧ format.length = length := by
  rcases Data.length_of_endsRange? hends with hone | ⟨format, hformat, rfl⟩
  · exact Or.inl hone
  · rcases h.format_eq with hsame | hone
    · exact Or.inr ⟨format, hsame ▸ hformat, rfl⟩
    · rw [hone, Option.some.injEq] at hformat
      rw [← hformat]
      exact Or.inl (Nat.le_refl _)

end Classed

/-- Classed bytes whose items lie inside the image are ready for the walk. -/
theorem course_classBytes (himage : w.attributes.size = survey.image.size)
    (hinside : ∀ i format, (w.info i).format = some format →
      i + format.length ≤ w.attributes.size) :
    Course survey 0 none ⟨classBytes w.attributes, w.symbols⟩ := by
  refine ⟨(size_classBytes _).trans himage, Nat.zero_le _, Nat.le_refl _,
    fun j _ hj => absurd hj (Nat.not_lt_zero j), fun j _ hj length hends => ?_⟩
  rw [size_classBytes] at hj ⊢
  rcases (info_classBytes hj).length_of_endsRange? hends with hone | ⟨format, hformat, rfl⟩
  · omega
  · have := hinside j format hformat
    omega

/-- How the pass that gives formats to unclaimed bytes ends. -/
structure Endings (survey : Survey) (w : Workspace) : Prop where
  /-- The walk comes to its end: more steps change nothing. -/
  ends : ∀ fuel, w.attributes.size < fuel →
    gatherFrom survey fuel 0 none ⟨classBytes w.attributes, w.symbols⟩ = formatUnclaimed survey w
  succeeds : survey.parameters.cutsUnclaimed = false ∨ 0 < survey.parameters.minString →
    (formatUnclaimed survey w).fault = none
  /-- An unclaimed byte where no text starts is to blame. -/
  blames : ∀ fault, (formatUnclaimed survey w).fault = some fault →
    ∃ p, p < w.attributes.size ∧ Unclaimed (w.info p)
      ∧ Faults survey.parameters survey.image p fault
  /-- An unclaimed byte outside all items that is no character stops the pass. -/
  fails : survey.parameters.cutsUnclaimed = true → survey.parameters.minString = 0 →
    ∀ p, p < w.attributes.size → Unclaimed (w.info p) →
      (∀ j format, j < p → (w.info j).format = some format → j + format.length ≤ p) →
      survey.parameters.textScan.charset.isText (survey.image.byteAt p) = false →
      (formatUnclaimed survey w).fault ≠ none

/-- **The pass fails for one reason only.**  It always comes to its end, and it succeeds unless
strings without characters are asked for. -/
theorem formatUnclaimed_endings (hword : survey.image.size < 0x10000000000000000)
    (himage : w.attributes.size = survey.image.size)
    (hinside : ∀ i format, (w.info i).format = some format →
      i + format.length ≤ w.attributes.size) :
    Endings survey w := by
  have hcourse := course_classBytes himage hinside
  have hfuel : (classBytes w.attributes).size < 0 + walkFuel (classBytes w.attributes).size := by
    unfold walkFuel
    omega
  have hwords : inlineFault? w.attributes = none :=
    inlineFault?_eq_none.mpr fun i format _ hformat => by
      have := hinside i format hformat
      omega
  have hgathers : Gathers survey 0 none ⟨classBytes w.attributes, w.symbols⟩
      (formatUnclaimed survey w) := by
    rw [formatUnclaimed_of_words hwords]
    exact gatherFrom_gathers hword hcourse hfuel
  have hblames : ∀ fault, (formatUnclaimed survey w).fault = some fault →
      ∃ p, p < w.attributes.size ∧ Unclaimed (w.info p)
        ∧ Faults survey.parameters survey.image p fault := by
    intro fault hfault
    obtain ⟨p, -, hlt, hfree, hfaults⟩ := hgathers.faults hfault
    rw [size_classBytes] at hlt
    exact ⟨p, hlt, (info_classBytes hlt).unclaimed_iff.mp hfree, hfaults⟩
  refine ⟨fun fuel hmore => ?_, fun hsafe => ?_, hblames, fun hcuts hmin p hp hun hout htext => ?_⟩
  · rw [formatUnclaimed_of_words hwords]
    refine gatherFrom_congr hword hcourse ?_ hfuel
    rw [size_classBytes, Nat.zero_add]
    exact hmore
  · rw [Option.eq_none_iff_forall_ne_some]
    intro fault hfault
    obtain ⟨_, _, _, hfaults⟩ := hblames fault hfault
    rcases hsafe with hsafe | hsafe
    · rw [hfaults.cuts] at hsafe
      cases hsafe
    · exact Nat.ne_of_gt hsafe hfaults.empty
  · refine hgathers.stops hcuts hmin htext (Nat.zero_le _) ?_
      ((info_classBytes hp).unclaimed_iff.mpr hun) fun j _ hj length hends => ?_
    · rw [size_classBytes]
      exact hp
    · rcases (info_classBytes (Nat.lt_trans hj hp)).length_of_endsRange? hends with
        hone | ⟨format, hformat, rfl⟩
      · omega
      · have := hout j format hj hformat
        omega

end Walk

/-- The run of zeros has a format already. -/
def claimed : Workspace :=
  ⟨(Attributes.blank 24).update 7 fun a => { a with format := some ⟨6, .fill, .plain, none⟩ },
    .empty⟩

theorem formatUnclaimed_endings_specimen :
    Endings specimen claimed ∧ (formatUnclaimed specimen claimed).fault = none := by
  have hinside : ∀ i format, (claimed.info i).format = some format →
      i + format.length ≤ claimed.attributes.size := by
    intro i format hformat
    by_cases hi : i = 7
    · have hself : (claimed.info 7).format = some ⟨6, .fill, .plain, none⟩ := by decide +kernel
      rw [hi, hself, Option.some.injEq] at hformat
      rw [hi, ← hformat]
      decide
    · rw [claimed, Workspace.info, Attributes.info_update_ne _ (Ne.symm hi),
        Attributes.info_blank] at hformat
      cases hformat
  have hendings := @formatUnclaimed_endings specimen claimed (by decide) (by decide)
    hinside
  exact ⟨hendings, hendings.succeeds (Or.inr (by decide))⟩

/-- Parameters can ask for strings without characters.  Then a single byte that nobody has claimed
and that is no character stops the pass. -/
theorem formatUnclaimed_stopped :
    (formatUnclaimed
        ⟨#[0x00], ⟨.nmos6502, true, .blank⟩, ⟨[⟨0, 1, 0x1000⟩], 1⟩,
          { Parameters.initial with minString := 0 }, []⟩
        ⟨.blank 1, .empty⟩).fault = some (.badFormat .zeroLength 0 .text .anyAscii) := by
  decide +kernel

end Disasm65.Data
