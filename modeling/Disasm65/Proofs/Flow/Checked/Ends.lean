/-
The analysis with every access checked: before the first step and after the last.

Preparing goes through the map region by region and through the image byte by byte; with a valid
map that gives every byte the address and the mark that the map has for it (`prepare_eq`).
Settling passes over the bytes of every instruction; the instructions have to end inside the image
(`settle_eq`).
-/
import Mathlib
import Disasm65.Proofs.AddressMap
import Disasm65.Proofs.Flow.Checked.Service
import Disasm65.Proofs.Flow.Ends

namespace Disasm65.Flow.Checked

/-! ### Preparing, region by region -/

/-- A byte of a region gets its address, and the first one its mark. -/
def placeByte (region : Region) (i : Nat) (a : Attribute) : Attribute :=
  let a := { a with address := region.addressOf i }
  if region.offset == i then a.mark .regionStart else a

/-- Place the bytes of a region. -/
def placeRegion (attributes : Attributes) (region : Region) : Except Trap Attributes :=
  (List.range' region.offset region.length).foldlM
    (fun attributes i => write attributes i (placeByte region i)) attributes

def hintMark? (setup : Setup) (offset : Nat) : Except Trap (Option Mark) :=
  match setup.hintAt offset with
  | .unset => return none
  | .code => do
    let op ← opcodeAt setup offset
    return if op.isValid then some .instruction else none
  | .data => return some .data
  | .inlineData => return some .inlineData

/-- What the mark of a hint makes of a byte. -/
def hintedBy (mark : Option Mark) (a : Attribute) : Attribute :=
  match mark with
  | some m => (a.mark .hinted).mark m
  | none => a

/-- Give a byte the mark of its hint. -/
def hintByte (setup : Setup) (attributes : Attributes) (offset : Nat) : Except Trap Attributes := do
  let mark ← hintMark? setup offset
  write attributes offset (hintedBy mark)

/-- Place the regions one after the other, then give the bytes their marks. -/
def prepare (setup : Setup) (attributes : Attributes) : Except Trap Attributes := do
  let attributes ← setup.map.regions.foldlM placeRegion attributes
  (List.range setup.image.size).foldlM (hintByte setup) attributes

/-- A fold whose steps all pass their checks passes its own. -/
theorem foldlM_eq {α β : Type} {f : β → α → Except Trap β} {g : β → α → β} {P : β → Prop}
    {l : List α} (h : ∀ x ∈ l, ∀ b, P b → f b x = .ok (g b x) ∧ P (g b x)) {b : β} (hb : P b) :
    l.foldlM f b = .ok (l.foldl g b) := by
  induction l generalizing b with
  | nil => rfl
  | cons x l ih =>
      obtain ⟨hok, hP⟩ := h x List.mem_cons_self b hb
      rw [List.foldlM_cons, hok, ok_bind, List.foldl_cons]
      exact ih (fun y hy => h y (List.mem_cons_of_mem _ hy)) hP

/-- The bytes of a region, placed. -/
def placedRegion (attributes : Attributes) (region : Region) : Attributes :=
  (List.range' region.offset region.length).foldl
    (fun attributes i => attributes.update i (placeByte region i)) attributes

theorem size_placedRegion (attributes : Attributes) (region : Region) :
    (placedRegion attributes region).size = attributes.size :=
  Attributes.size_foldl_update (placeByte region) _ _

theorem placeRegion_eq {attributes : Attributes} {region : Region}
    (h : region.offset + region.length ≤ attributes.size) :
    placeRegion attributes region = .ok (placedRegion attributes region) := by
  refine foldlM_eq (P := fun b => b.size = attributes.size) (fun i hi b hb => ⟨?_, ?_⟩) rfl
  · rw [List.mem_range'_1] at hi
    exact write_eq (by omega)
  · exact (Attributes.size_update ..).trans hb

theorem info_placedRegion (attributes : Attributes) (region : Region) (j : Nat) :
    (placedRegion attributes region).info j
      = if (region.offset ≤ j ∧ j < region.offset + region.length) ∧ j < attributes.size then
          placeByte region j (attributes.info j)
        else attributes.info j := by
  rw [placedRegion, Attributes.info_foldl_update (placeByte region) j _ _ List.nodup_range']
  simp only [List.mem_range'_1]

section Regions

variable {first last : Nat} {regions : List Region} {attributes : Attributes}

theorem size_foldl_placedRegion :
    (regions.foldl placedRegion attributes).size = attributes.size := by
  induction regions generalizing attributes with
  | nil => rfl
  | cons region rest ih => exact ih.trans (size_placedRegion attributes region)

/-- Regions that end inside the array are placed. -/
theorem foldlM_placeRegion (h : AddressMap.Follow first last regions)
    (hlast : last ≤ attributes.size) :
    regions.foldlM placeRegion attributes = .ok (regions.foldl placedRegion attributes) := by
  refine foldlM_eq (P := fun b => b.size = attributes.size) (fun region hr b hb => ⟨?_, ?_⟩) rfl
  · have hend := (h.mem hr).2.1
    exact placeRegion_eq (by omega)
  · exact (size_placedRegion b region).trans hb

/-- Regions leave what lies before them as it is. -/
theorem info_foldl_placedRegion_of_lt (h : AddressMap.Follow first last regions) {j : Nat}
    (hj : j < first) : (regions.foldl placedRegion attributes).info j = attributes.info j := by
  induction regions generalizing first attributes with
  | nil => rfl
  | cons region rest ih =>
      obtain ⟨hoffset, _, _, hrest⟩ := h
      rw [List.foldl_cons, ih hrest (by omega), info_placedRegion, if_neg (by omega)]

/-- A byte is placed by the region it lies in and by no other. -/
theorem info_foldl_placedRegion (h : AddressMap.Follow first last regions)
    (hlast : last ≤ attributes.size) {region : Region} (hr : region ∈ regions) {j : Nat}
    (hlow : region.offset ≤ j) (hhigh : j < region.offset + region.length) :
    (regions.foldl placedRegion attributes).info j = placeByte region j (attributes.info j) := by
  induction regions generalizing first attributes with
  | nil => cases hr
  | cons head rest ih =>
      have hend := (h.mem hr).2.1
      obtain ⟨hoffset, hlength, haddress, hrest⟩ := h
      rw [List.foldl_cons]
      rcases List.mem_cons.mp hr with rfl | hlater
      · rw [info_foldl_placedRegion_of_lt hrest (by omega), info_placedRegion,
          if_pos ⟨⟨hlow, hhigh⟩, by omega⟩]
      · have hafter := (hrest.mem hlater).1
        rw [ih hrest (by rw [size_placedRegion]; exact hlast) hlater, info_placedRegion,
          if_neg (by omega)]

end Regions

section Prepare

variable {setup : Setup}

theorem hintMark?_eq {offset : Nat} (hin : offset < setup.image.size) :
    hintMark? setup offset = .ok (setup.hintMark? offset) := by
  unfold hintMark? Setup.hintMark?
  cases setup.hintAt offset with
  | code => rw [opcodeAt_eq hin]; rfl
  | unset | data | inlineData => rfl

theorem hintByte_eq {attributes : Attributes} (hsize : attributes.size = setup.image.size)
    {offset : Nat} (hin : offset < setup.image.size) :
    hintByte setup attributes offset
      = .ok (attributes.update offset (hintedBy (setup.hintMark? offset))) := by
  rw [hintByte, hintMark?_eq hin, ok_bind, write_eq (by omega)]

/-- Placing and hinting a byte prepares it. -/
theorem hintedBy_placeByte (hmap : setup.map.Valid) {region : Region}
    (hr : region ∈ setup.map.regions) {i : Nat} (hlow : region.offset ≤ i)
    (hhigh : i < region.offset + region.length) (a : Attribute) :
    hintedBy (setup.hintMark? i) (placeByte region i a) = setup.prepareByte i a := by
  unfold Setup.prepareByte hintedBy placeByte
  rw [hmap.addressOf?_eq_some hr hlow hhigh, hmap.isRegionStart_eq hr hlow hhigh]
  rfl

/-- **Preparing passes its checks**, and region by region or byte by byte it gives the same. -/
theorem prepare_eq (hmap : setup.map.Valid) (htotal : setup.map.totalLength = setup.image.size) :
    prepare setup (Attributes.blank setup.image.size)
      = .ok (setup.prepare (Attributes.blank setup.image.size)) := by
  have hfollow := hmap.follow
  rw [htotal] at hfollow
  have hplace := foldlM_placeRegion hfollow (Attributes.size_blank setup.image.size).ge
  have hplaced : (setup.map.regions.foldl placedRegion
      (Attributes.blank setup.image.size)).size = setup.image.size :=
    size_foldl_placedRegion.trans (Attributes.size_blank _)
  have hhint : (List.range setup.image.size).foldlM (hintByte setup)
      (setup.map.regions.foldl placedRegion (Attributes.blank setup.image.size))
        = .ok ((List.range setup.image.size).foldl
            (fun b i => b.update i (hintedBy (setup.hintMark? i)))
            (setup.map.regions.foldl placedRegion (Attributes.blank setup.image.size))) := by
    refine foldlM_eq (P := fun b => b.size = setup.image.size) (fun i hi b hb => ⟨?_, ?_⟩) hplaced
    · exact hintByte_eq hb (List.mem_range.mp hi)
    · exact (Attributes.size_update ..).trans hb
  rw [prepare, hplace, ok_bind, hhint]
  refine congrArg _ (Attributes.ext_info ?_ fun i hi => ?_)
  · rw [Attributes.size_foldl_update fun i => hintedBy (setup.hintMark? i), size_prepare]
    exact hplaced
  · rw [Attributes.size_foldl_update fun i => hintedBy (setup.hintMark? i), hplaced] at hi
    obtain ⟨region, hr, hlow, hhigh⟩ := hfollow.exists_mem (Nat.zero_le i) hi
    rw [Attributes.info_foldl_update (fun i => hintedBy (setup.hintMark? i)) i _ _
        List.nodup_range, if_pos ⟨List.mem_range.mpr hi, by rw [hplaced]; exact hi⟩,
      info_foldl_placedRegion hfollow (by rw [Attributes.size_blank]) hr hlow hhigh,
      hintedBy_placeByte hmap hr hlow hhigh, info_prepare, if_pos hi, Attributes.info_blank]

end Prepare

/-! ### Settling, instruction by instruction -/

/-- How many of the `count` bytes from `next` on come before the next instruction. -/
def ownBytes (attributes : Attributes) : (count next : Nat) → Except Trap Nat
  | 0, _ => return 0
  | count + 1, next => do
    let a ← read attributes next
    if a.isInstructionStart then return 0
    else
      let more ← ownBytes attributes count (next + 1)
      return more + 1

/-- Settle the bytes from `offset` on, passing over instructions. -/
def settleFrom (attributes : Attributes) : (limit offset : Nat) → Except Trap Attributes
  | limit, offset =>
    if attributes.size ≤ offset then return attributes
    else
      match limit with
      | 0 => .error .outOfSteps
      | limit + 1 => do
        let a ← read attributes offset
        if a.isInstructionStart then
          let own ← ownBytes attributes (a.instructionLength - 1) (offset + 1)
          settleFrom attributes limit (offset + 1 + own)
        else
          let attributes ← write attributes offset settleByte
          settleFrom attributes limit (offset + 1)

def settle (attributes : Attributes) : Except Trap Attributes :=
  settleFrom attributes attributes.size 0

/-- Every instruction in the list ends in the list. -/
def EndsInside : List Attribute → Prop
  | [] => True
  | a :: rest =>
    (a.isInstructionStart = true → a.instructionLength ≤ rest.length + 1) ∧ EndsInside rest

theorem EndsInside.of_append {before after : List Attribute} (h : EndsInside (before ++ after)) :
    EndsInside after := by
  induction before with
  | nil => exact h
  | cons a before ih => exact ih h.2

section Settle

variable (before after : List Attribute) (a : Attribute)

theorem info_append_cons :
    Attributes.info (before ++ a :: after).toArray before.length = a := by
  simp [Attributes.info]

theorem read_append_cons : read (before ++ a :: after).toArray before.length = .ok a := by
  rw [read_eq (by simp), info_append_cons]

theorem write_append_cons (change : Attribute → Attribute) :
    write (before ++ a :: after).toArray before.length change
      = .ok (before ++ change a :: after).toArray := by
  rw [write_eq (by simp)]
  refine congrArg _ (Array.toList_inj.mp ?_)
  simp [Attributes.update, List.modify_eq_take_drop]

variable {after}

/-- The bytes that are passed over are the ones that are left as they are. -/
theorem ownBytes_eq {count : Nat} (hcount : count ≤ after.length) :
    ∃ own later, after = own ++ later
      ∧ ownBytes (before ++ after).toArray count before.length = .ok own.length
      ∧ settleList count after = own ++ settleList 0 later := by
  induction count generalizing before after with
  | zero => exact ⟨[], after, rfl, rfl, rfl⟩
  | succ count ih =>
      cases after with
      | nil => exact absurd hcount (by simp)
      | cons b rest =>
          by_cases hstart : b.isInstructionStart = true
          · refine ⟨[], b :: rest, rfl, ?_, ?_⟩
            · rw [ownBytes, read_append_cons, ok_bind, if_pos hstart]
              rfl
            · rw [settleList, settleList, if_pos hstart, if_pos hstart, List.nil_append]
          · obtain ⟨own, later, hsplit, hown, hsettle⟩ :=
              ih (before ++ [b]) (show count ≤ rest.length by simpa using hcount)
            refine ⟨b :: own, later, by rw [hsplit]; rfl, ?_, ?_⟩
            · rw [ownBytes, read_append_cons, ok_bind, if_neg hstart]
              rw [List.append_assoc, List.singleton_append, List.length_append] at hown
              rw [show before.length + 1 = before.length + [b].length from rfl, hown]
              rfl
            · rw [settleList, if_neg hstart, if_pos (Nat.succ_pos _), Nat.add_sub_cancel, hsettle]
              rfl

theorem settleFrom_eq {limit : Nat} (hlimit : after.length ≤ limit) (hends : EndsInside after) :
    settleFrom (before ++ after).toArray limit before.length
      = .ok (before ++ settleList 0 after).toArray := by
  induction limit generalizing before after with
  | zero =>
      have hnil : after = [] := List.length_eq_zero_iff.mp (Nat.le_zero.mp hlimit)
      subst hnil
      rw [settleFrom, if_pos (by simp)]
      rfl
  | succ limit ih =>
      cases after with
      | nil =>
          rw [settleFrom, if_pos (by simp)]
          rfl
      | cons b rest =>
          have hrest : rest.length ≤ limit := by simpa using hlimit
          rw [settleFrom, if_neg (by simp), read_append_cons, ok_bind, settleList]
          by_cases hstart : b.isInstructionStart = true
          · obtain ⟨own, later, rfl, hown, hsettle⟩ := ownBytes_eq (before ++ [b])
              (show b.instructionLength - 1 ≤ rest.length by have := hends.1 hstart; omega)
            have hnext := ih (before ++ b :: own)
              (show later.length ≤ limit by rw [List.length_append] at hrest; omega)
              hends.2.of_append
            rw [if_pos hstart, if_pos hstart, hsettle]
            simp only [List.append_assoc, List.cons_append, List.nil_append, List.length_append,
              List.length_cons, List.length_nil, Nat.zero_add] at hown hnext ⊢
            rw [hown, ok_bind, ← hnext]
            congr 1
            omega
          · have hnext := ih (before ++ [settleByte b]) hrest hends.2
            rw [if_neg hstart, if_neg hstart, if_neg (Nat.lt_irrefl 0), write_append_cons, ok_bind]
            simpa using hnext

end Settle

/-- **Settling passes its checks**, and passing over instructions or byte by byte it gives the
same. -/
theorem settle_eq {attributes : Attributes}
    (h : ∀ i, (attributes.info i).isInstructionStart = true →
      i + (attributes.info i).instructionLength ≤ attributes.size) :
    settle attributes = .ok (Flow.settle attributes) := by
  have hends : ∀ before after : List Attribute, attributes.toList = before ++ after →
      EndsInside after := by
    intro before after
    induction after generalizing before with
    | nil => exact fun _ => trivial
    | cons a rest ih =>
        intro hsplit
        refine ⟨fun hstart => ?_, ih (before ++ [a]) (by rw [hsplit]; simp)⟩
        have harray : attributes = (before ++ a :: rest).toArray :=
          Array.toList_inj.mp hsplit
        have hi := h before.length
        rw [harray, info_append_cons] at hi
        have := hi hstart
        simp only [List.size_toArray, List.length_append, List.length_cons] at this
        omega
  have hsettle := settleFrom_eq [] (Nat.le_refl attributes.toList.length) (hends [] _ rfl)
  rw [Flow.settle_eq]
  exact hsettle

end Disasm65.Flow.Checked
