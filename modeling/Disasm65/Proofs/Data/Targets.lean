/-
Making operands refer to labels, one reference at a time.

`RefersTo` says which place of the image a byte refers to, and at each byte the walk makes that
reference or does nothing (`resolveAt_eq`).  `Refers` is the step that the walk over the image takes
again and again: it finds a place for the label, generates the label if the place has none, and
gives the source a format that names it.  Without formats of the user only instructions get such
formats (`refers_drafted`), and a label is generated only where an instruction starts or where there
is no code (`labelPlace_site`).
-/
import Mathlib
import Disasm65.Data.Targets
import Disasm65.Proofs.Data.Workspace
import Disasm65.Proofs.Flow.Classes

namespace Disasm65.Data

variable {survey : Survey} {w v : Workspace}

/-! ### One reference -/

/-- The `length` bytes at `source` are an operand, or an address, that refers to `target`. -/
inductive RefersTo (survey : Survey) (w : Workspace) (source : Nat) :
    (length target : Nat) → Prop where
  | operand {target : Nat} (hsource : source < w.attributes.size)
      (hstart : (w.info source).isInstructionStart = true)
      (hformat : (w.info source).format = none)
      (htarget : (w.info source).operandOffset = some target) :
      RefersTo survey w source (w.info source).instructionLength target
  | item {target : Nat} {format : Format} (hsource : source < w.attributes.size)
      (hstart : (w.info source).isInstructionStart = false)
      (hformat : (w.info source).format = some format)
      (htarget : itemTarget? survey source (w.info source) format = some target) :
      RefersTo survey w source format.length target

theorem RefersTo.lt_size {source length target : Nat} (h : RefersTo survey w source length target) :
    source < w.attributes.size := by
  cases h with
  | operand hsource _ _ _ => exact hsource
  | item hsource _ _ _ => exact hsource

/-- A byte refers to one place at most. -/
theorem RefersTo.unique {source length target length' target' : Nat}
    (h : RefersTo survey w source length target) (h' : RefersTo survey w source length' target') :
    length = length' ∧ target = target' := by
  cases h with
  | operand _ hstart _ htarget =>
      cases h' with
      | operand _ _ _ htarget' => exact ⟨rfl, Option.some.inj (htarget.symm.trans htarget')⟩
      | item _ hstart' _ _ => exact absurd (hstart'.symm.trans hstart) Bool.false_ne_true
  | item _ hstart hformat htarget =>
      cases h' with
      | operand _ hstart' _ _ => exact absurd (hstart.symm.trans hstart') Bool.false_ne_true
      | item _ _ hformat' htarget' =>
          obtain rfl := Option.some.inj (hformat.symm.trans hformat')
          exact ⟨rfl, Option.some.inj (htarget.symm.trans htarget')⟩

/-- How far the walk goes from a byte: over an item, and else to the next byte. -/
def stride (a : Attribute) : Nat :=
  if a.isInstructionStart then 1 else (a.format.map (·.length)).getD 1

/-- What the walk does at a byte: the byte refers to a place, and is made to refer to a label, or
nothing is done. -/
theorem resolveAt_eq (survey : Survey) {offset : Nat} (hoffset : offset < w.attributes.size) :
    (∃ length target, RefersTo survey w offset length target
        ∧ resolveAt survey offset w
          = (referTo survey offset length target w, stride (w.info offset)))
      ∨ (∀ length target, ¬ RefersTo survey w offset length target)
        ∧ resolveAt survey offset w = (w.done, stride (w.info offset)) := by
  unfold resolveAt stride
  dsimp only
  cases hstart : (w.info offset).isInstructionStart with
  | true =>
      simp only [if_true]
      split
      · rename_i target hformat htarget
        exact Or.inl ⟨_, target, .operand hoffset hstart hformat htarget, rfl⟩
      · rename_i hnone
        refine Or.inr ⟨fun length target h => ?_, rfl⟩
        cases h with
        | operand _ _ hformat htarget => exact hnone _ hformat htarget
        | item _ hstart' _ _ => exact absurd (hstart'.symm.trans hstart) Bool.false_ne_true
  | false =>
      simp only [Bool.false_eq_true, if_false]
      cases hformat : (w.info offset).format with
      | none =>
          refine Or.inr ⟨fun length target h => ?_, rfl⟩
          cases h with
          | operand _ hstart' _ _ => exact absurd (hstart.symm.trans hstart') Bool.false_ne_true
          | item _ _ hformat' _ => cases hformat.symm.trans hformat'
      | some format =>
          dsimp only
          split
          · rename_i target htarget
            exact Or.inl ⟨_, target, .item hoffset hstart hformat htarget, rfl⟩
          · rename_i hnone
            refine Or.inr ⟨fun length target h => ?_, rfl⟩
            cases h with
            | operand _ hstart' _ _ => exact absurd (hstart.symm.trans hstart') Bool.false_ne_true
            | item _ _ hformat' htarget =>
                obtain rfl := Option.some.inj (hformat.symm.trans hformat')
                cases hnone.symm.trans htarget

/-- One operand or address item is made to refer to a label. -/
inductive Refers (survey : Survey) (w v : Workspace) : Prop where
  | operand {source target : Nat} (hsource : source < w.attributes.size)
      (hstart : (w.info source).isInstructionStart = true)
      (hformat : (w.info source).format = none)
      (htarget : (w.info source).operandOffset = some target)
      (h : referTo survey source (w.info source).instructionLength target w = v.done)
  | item {source target : Nat} {format : Format} (hsource : source < w.attributes.size)
      (hstart : (w.info source).isInstructionStart = false)
      (hformat : (w.info source).format = some format)
      (htarget : itemTarget? survey source (w.info source) format = some target)
      (h : referTo survey source format.length target w = v.done)

theorem Refers.exists_refersTo (h : Refers survey w v) :
    ∃ source length target, RefersTo survey w source length target
      ∧ referTo survey source length target w = v.done := by
  cases h with
  | operand hsource hstart hformat htarget h =>
      exact ⟨_, _, _, .operand hsource hstart hformat htarget, h⟩
  | item hsource hstart hformat htarget h =>
      exact ⟨_, _, _, .item hsource hstart hformat htarget, h⟩

theorem RefersTo.refers {source length target : Nat}
    (h : RefersTo survey w source length target)
    (hdone : referTo survey source length target w = v.done) : Refers survey w v := by
  cases h with
  | operand hsource hstart hformat htarget =>
      exact .operand hsource hstart hformat htarget hdone
  | item hsource hstart hformat htarget => exact .item hsource hstart hformat htarget hdone

theorem resolveAt_cases {offset : Nat} (hoffset : offset < w.attributes.size)
    (h : (resolveAt survey offset w).1 = v.done) : v = w ∨ Refers survey w v := by
  rcases resolveAt_eq survey hoffset with ⟨length, target, hrefers, heq⟩ | ⟨_, heq⟩
  · rw [heq] at h
    exact Or.inr (hrefers.refers h)
  · rw [heq] at h
    exact Or.inl (done_inj.mp h).symm

/-- The walk is a run of references. -/
theorem resolveFrom_refers : ∀ (fuel offset : Nat) (w : Workspace),
    resolveFrom survey fuel offset w = v.done → Relation.ReflTransGen (Refers survey) w v := by
  intro fuel
  induction fuel with
  | zero => exact fun offset w h => absurd h stop_ne_done
  | succ fuel ih =>
      intro offset w h
      rw [resolveFrom] at h
      split at h
      · rename_i hoffset
        dsimp only at h
        obtain ⟨u, hat, hon⟩ := andThen_eq_done.mp h
        obtain ⟨next, -, hnext⟩ := goOn_eq_done.mp hon
        have hrest := ih next u hnext
        rcases resolveAt_cases hoffset hat with rfl | hrefers
        · exact hrest
        · exact .head hrefers hrest
      · rw [done_inj.mp h]

/-- The label at a place was there before or is new, in the table as on the byte. -/
theorem ensureLabel_eq_ok {place : Nat} {label : String}
    (h : ensureLabel w place = .ok (label, v)) :
    (∃ symbol, (w.info place).symbol = some symbol ∧ label = symbol.label ∧ v = w)
      ∨ ∃ symbol, (w.info place).symbol = none ∧ label = symbol.label
          ∧ w.symbols.Generated labelStem (w.info place).address symbol
          ∧ v = ⟨w.attributes.update place fun a => { a with symbol := some symbol },
              w.symbols.insert (.label symbol)⟩ := by
  unfold ensureLabel at h
  split at h
  · rename_i symbol hsymbol
    cases h
    exact Or.inl ⟨symbol, hsymbol, rfl, rfl⟩
  · rename_i hsymbol
    split at h
    · cases h
    · rename_i symbol hgenerate
      split at h
      · cases h
      · rename_i symbols hadd
        obtain ⟨_, rfl⟩ := SymbolTable.add_eq_ok hadd
        cases h
        exact Or.inr ⟨symbol, hsymbol, rfl, SymbolTable.generate_eq_ok hgenerate, rfl⟩

theorem findPlace_eq_ok {attributes : Attributes} {source target place : Nat}
    (h : findPlace survey attributes source target = .ok place) :
    place = labelPlace survey attributes source target := by
  unfold findPlace at h
  dsimp only at h
  generalize (if survey.parameters.seeksNearby then
    alternateTarget survey attributes source target else target) = aim at h
  split at h
  · cases h
    rfl
  · obtain ⟨_, -, rfl⟩ := map_eq_ok.mp h
    rfl

/-- A source that refers to a label has a format that names it. -/
theorem referTo_eq_done {source length target : Nat}
    (h : referTo survey source length target w = v.done) :
    ∃ label u format,
      ensureLabel w (labelPlace survey w.attributes source target) = .ok (label, u)
        ∧ Format.reference length ⟨label, .low⟩ (isBigEndian (u.info source)) = .ok format
        ∧ v = u.update source fun a => { a with format := some format } := by
  unfold referTo at h
  split at h
  · exact absurd h stop_ne_done
  · rename_i label u hfound
    split at h
    · exact absurd h stop_ne_done
    · rename_i format hreference
      obtain ⟨place, hplace, hensure⟩ := bind_eq_ok.mp hfound
      obtain rfl := findPlace_eq_ok hplace
      exact ⟨label, u, format, hensure, hreference, (done_inj.mp h).symm⟩

/-! ### What a reference leaves alone -/

theorem ensureLabel_retitles {place : Nat} {label : String}
    (h : ensureLabel w place = .ok (label, v)) : Retitles w.attributes v.attributes := by
  rcases ensureLabel_eq_ok h with ⟨_, _, _, rfl⟩ | ⟨symbol, _, _, _, rfl⟩
  · exact .refl _
  · exact .update _ _ fun a => ⟨some symbol, a.format, rfl⟩

theorem referTo_retitles {source length target : Nat}
    (h : referTo survey source length target w = v.done) :
    Retitles w.attributes v.attributes := by
  obtain ⟨label, u, format, hensure, _, rfl⟩ := referTo_eq_done h
  exact (ensureLabel_retitles hensure).trans
    (.update _ _ fun a => ⟨a.symbol, some format, rfl⟩)

theorem Refers.retitles (h : Refers survey w v) : Retitles w.attributes v.attributes := by
  cases h with
  | operand _ _ _ _ h => exact referTo_retitles h
  | item _ _ _ _ h => exact referTo_retitles h

theorem resolveTargets_retitles (h : resolveTargets survey w = v.done) :
    Retitles w.attributes v.attributes := by
  have hrun := resolveFrom_refers _ _ _ h
  clear h
  induction hrun with
  | refl => exact .refl _
  | tail _ hstep ih => exact ih.trans hstep.retitles

theorem ensureLabel_format {place : Nat} {label : String}
    (h : ensureLabel w place = .ok (label, v)) (i : Nat) :
    (v.info i).format = (w.info i).format := by
  rcases ensureLabel_eq_ok h with ⟨_, _, _, rfl⟩ | ⟨symbol, _, _, _, rfl⟩
  · rfl
  · rw [Workspace.info, Attributes.info_update]
    split <;> rfl

/-- A reference changes the format of its source only. -/
theorem referTo_format_of_ne {source length target : Nat}
    (h : referTo survey source length target w = v.done) {i : Nat} (hi : i ≠ source) :
    (v.info i).format = (w.info i).format := by
  obtain ⟨label, u, format, hensure, _, rfl⟩ := referTo_eq_done h
  rw [info_workspace_update, if_neg fun hc => hi hc.1.symm]
  exact ensureLabel_format hensure i

/-- **A reference is to the label that stands at its place afterwards**, and keeps the order of the
bytes. -/
theorem referTo_answers {source length target : Nat} (hsource : source < w.attributes.size)
    (hplace : labelPlace survey w.attributes source target < w.attributes.size)
    (h : referTo survey source length target w = v.done) :
    (0 < length ∧ length ≤ Format.maxNumberLength)
      ∧ ∃ symbol, (v.info (labelPlace survey w.attributes source target)).symbol = some symbol
        ∧ (v.info source).format
          = some ⟨length, if isBigEndian (w.info source) then .bigEndian else .littleEndian,
              .symbol, some ⟨symbol.label, .low⟩⟩ := by
  obtain ⟨label, u, format, hensure, hreference, rfl⟩ := referTo_eq_done h
  obtain ⟨hlength, rfl⟩ := Format.reference_eq_ok hreference
  have husize := (ensureLabel_retitles hensure).size
  have horder : isBigEndian (u.info source) = isBigEndian (w.info source) := by
    rw [isBigEndian, isBigEndian, ensureLabel_format hensure]
  have hsymbol : ∃ symbol, (u.info (labelPlace survey w.attributes source target)).symbol
      = some symbol ∧ label = symbol.label := by
    rcases ensureLabel_eq_ok hensure with
      ⟨symbol, hs, hname, rfl⟩ | ⟨symbol, _, hname, _, rfl⟩
    · exact ⟨symbol, hs, hname⟩
    · refine ⟨symbol, ?_, hname⟩
      rw [Workspace.info, Attributes.info_update, if_pos ⟨rfl, hplace⟩]
  obtain ⟨symbol, hs, rfl⟩ := hsymbol
  refine ⟨hlength, symbol, ?_, ?_⟩
  · rw [info_workspace_update]
    split
    · exact hs
    · exact hs
  · rw [info_workspace_update, if_pos ⟨rfl, husize.symm ▸ hsource⟩, horder]

/-! ### Formats before data is classed -/

/-- A byte where no instruction starts has no format, unless it is inline data that is shown as a
number. -/
def Drafted (a : Attribute) : Prop :=
  a.isInstructionStart = true ∨ a.format = none
    ∨ a.isInlineData = true ∧ a.format = some .oneByteNumber

theorem Drafted.itemTarget? {offset : Nat} {a : Attribute} {format : Format} (ha : Drafted a)
    (hstart : a.isInstructionStart = false) (hformat : a.format = some format) :
    itemTarget? survey offset a format = none := by
  rcases ha with h | h | ⟨_, h⟩
  · rw [hstart] at h
    cases h
  · rw [hformat] at h
    cases h
  · rw [hformat, Option.some.injEq] at h
    subst h
    rfl

/-- Only where an instruction starts does a reference change the format. -/
theorem refers_drafted (hw : ∀ i, Drafted (w.info i)) (h : Refers survey w v) (i : Nat) :
    Drafted (v.info i) := by
  have hmarks := h.retitles.marks i
  cases h with
  | @operand source target hsource hstart _ _ h =>
      obtain ⟨label, u, format, hensure, _, rfl⟩ := referTo_eq_done h
      by_cases hi : source = i
      · subst hi
        refine Or.inl ?_
        rw [Attribute.isInstructionStart, Workspace.info, hmarks]
        exact hstart
      · have hformat : ((u.update source fun a => { a with format := some format }).info i).format
            = (w.info i).format := by
          rw [info_workspace_update, if_neg fun hc => hi hc.1]
          exact ensureLabel_format hensure i
        unfold Drafted Attribute.isInstructionStart Attribute.isInlineData
        rw [hformat, Workspace.info, hmarks]
        exact hw i
  | item _ hstart hformat htarget _ =>
      rw [(hw _).itemTarget? hstart hformat] at htarget
      cases htarget

theorem resolveTargets_drafted (hw : ∀ i, Drafted (w.info i))
    (h : resolveTargets survey w = v.done) : ∀ i, Drafted (v.info i) := by
  have hrun := resolveFrom_refers _ _ _ h
  clear h
  induction hrun with
  | refl => exact hw
  | tail _ hstep ih => exact refers_drafted ih hstep

/-! ### Where labels are generated -/

/-- A label can stand on the byte: an instruction starts there, or there is no code. -/
def Site (a : Attribute) : Prop := a.isInstructionStart = true ∨ a.isInstruction = false

/-- No byte has two classes, code is part of an instruction that starts there or before, and
operands refer to the image. -/
structure Outlined (attributes : Attributes) : Prop where
  unmixed : ∀ i, (attributes.info i).Unmixed
  covered : ∀ i, (attributes.info i).isInstruction = true →
    ∃ p ≤ i, (attributes.info p).isInstructionStart = true
  targets : ∀ i t, (attributes.info i).operandOffset = some t → t < attributes.size

theorem Outlined.retitles {attributes other : Attributes} (ha : Outlined attributes)
    (h : Retitles attributes other) : Outlined other := by
  refine ⟨fun i => (ha.unmixed i).congr fun m _ => by rw [h.marks], fun i hi => ?_,
    fun i t ht => ?_⟩
  · rw [Attribute.isInstruction, h.marks] at hi
    obtain ⟨p, hp, hstart⟩ := ha.covered i hi
    exact ⟨p, hp, by rwa [Attribute.isInstructionStart, h.marks]⟩
  · rw [(h.byte i).operandOffset] at ht
    rw [h.size]
    exact ha.targets i t ht

section Places

variable {attributes : Attributes}

theorem instructionStart_spec {p : Nat} (hp : (attributes.info p).isInstructionStart = true) :
    ∀ offset, p ≤ offset →
      (attributes.info (instructionStart attributes offset)).isInstructionStart = true
        ∧ instructionStart attributes offset ≤ offset := by
  intro offset
  induction offset with
  | zero =>
      intro hle
      obtain rfl := Nat.le_zero.mp hle
      exact ⟨hp, Nat.le_refl _⟩
  | succ n ih =>
      intro hle
      rw [instructionStart]
      split
      · exact ⟨‹_›, Nat.le_refl _⟩
      · rename_i hstart
        have hne : p ≠ n + 1 := fun heq => hstart (heq ▸ hp)
        obtain ⟨hfound, hlow⟩ := ih (by omega)
        exact ⟨hfound, by omega⟩

theorem findBelow?_eq_some {p : Attribute → Bool} {m : Nat} :
    ∀ offset, attributes.findBelow? p offset = some m →
      m < offset ∧ p (attributes.info m) = true := by
  intro offset
  induction offset with
  | zero => intro h; cases h
  | succ n ih =>
      intro h
      rw [Attributes.findBelow?] at h
      split at h
      · rename_i hfound
        cases h
        exact ⟨Nat.lt_succ_self _, hfound⟩
      · obtain ⟨hlow, hfound⟩ := ih h
        exact ⟨by omega, hfound⟩

theorem firstLabel?_mem {target place : Nat} :
    ∀ places, firstLabel? attributes target places = some place → place ∈ places := by
  intro places
  induction places with
  | nil => intro h; cases h
  | cons probe others ih =>
      intro h
      rw [firstLabel?] at h
      split at h
      · cases h
        exact List.mem_cons_self
      · cases h
      · exact List.mem_cons_of_mem _ (ih h)

theorem nextInstruction_lt {target : Nat} (h : target < attributes.size) :
    nextInstruction attributes target < attributes.size := by
  unfold nextInstruction
  split
  · rename_i hnext
    simp only [Bool.and_eq_true, decide_eq_true_eq] at hnext
    exact hnext.1.2
  · exact h

theorem instructionStart_le (attributes : Attributes) (offset : Nat) :
    instructionStart attributes offset ≤ offset := by
  induction offset with
  | zero => exact Nat.le_refl _
  | succ n ih =>
      rw [instructionStart]
      split
      · exact Nat.le_refl _
      · exact Nat.le_succ_of_le ih

theorem accessedInCode_lt {target : Nat} (h : target < attributes.size) :
    accessedInCode attributes target < attributes.size := by
  unfold accessedInCode
  dsimp only
  split
  · rename_i nearby hnearby
    have hdata := List.find?_some hnearby
    simp only [Bool.and_eq_true, decide_eq_true_eq] at hdata
    exact hdata.1
  · split
    · exact h
    · exact Nat.lt_of_le_of_lt (instructionStart_le attributes target) h

theorem alternateTarget_lt {source target : Nat} (h : target < attributes.size) :
    alternateTarget survey attributes source target < attributes.size := by
  unfold alternateTarget
  split
  · cases hfound : (firstLabel? attributes target (placesBack target)).or
        (firstLabel? attributes target (placesForward attributes.size target)) with
    | none => exact h
    | some place =>
        rw [Option.getD_some]
        rcases Option.or_eq_some_iff.mp hfound with hback | ⟨_, hforward⟩
        · have hplace := firstLabel?_mem _ hback
          simp only [placesBack, List.mem_filterMap] at hplace
          obtain ⟨distance, _, hdistance⟩ := hplace
          split at hdistance <;> simp at hdistance
          omega
        · have hplace := firstLabel?_mem _ hforward
          unfold placesForward at hplace
          split at hplace <;> simp at hplace
          omega
  · dsimp only
    repeat' split
    · exact nextInstruction_lt h
    · exact h
    · exact nextInstruction_lt h
    · exact accessedInCode_lt h

theorem alignTarget_le (attributes : Attributes) (target : Nat) :
    alignTarget attributes target ≤ target := by
  unfold alignTarget
  dsimp only
  split
  · split
    · exact Nat.le_refl _
    · exact instructionStart_le attributes target
  · split
    · exact Nat.le_refl _
    · unfold itemStart
      split
      · rename_i start hstart
        have := (findBelow?_eq_some _ hstart).1
        dsimp only
        split <;> omega
      · exact Nat.le_refl _

/-- A label stands on a byte of the image. -/
theorem labelPlace_lt {source target : Nat} (h : target < attributes.size) :
    labelPlace survey attributes source target < attributes.size := by
  unfold labelPlace
  split
  · exact h
  · refine Nat.lt_of_le_of_lt (alignTarget_le attributes _) ?_
    split
    · exact alternateTarget_lt h
    · exact h

/-- No item ends past the last word. -/
def Roomy (attributes : Attributes) : Prop :=
  ∀ i format, (attributes.info i).format = some format →
    i + format.length < 0x10000000000000000

theorem checkItem_of_roomy (h : Roomy attributes) (target : Nat) :
    ∃ stop, checkItem attributes target = .ok stop := by
  unfold checkItem
  split
  · rename_i start hfound
    obtain ⟨format, hformat⟩ := Option.isSome_iff_exists.mp (findBelow?_eq_some target hfound).2
    rw [hformat]
    exact ⟨_, addWords_of_lt (h start format hformat)⟩
  · exact ⟨target, rfl⟩

/-- Among items that end at words the place of a label is always found. -/
theorem findPlace_of_roomy (h : Roomy attributes) (source target : Nat) :
    findPlace survey attributes source target
      = .ok (labelPlace survey attributes source target) := by
  unfold findPlace
  dsimp only
  generalize (if survey.parameters.seeksNearby then
    alternateTarget survey attributes source target else target) = aim
  split
  · rfl
  · obtain ⟨stop, hstop⟩ := checkItem_of_roomy h aim
    rw [hstop]
    rfl

/-- A label that is moved to the first byte of an instruction or item finds a place there. -/
theorem alignTarget_site (hdrafted : ∀ i, Drafted (attributes.info i))
    (houtlined : Outlined attributes) {target : Nat} (h : target < attributes.size) :
    alignTarget attributes target < attributes.size
      ∧ Site (attributes.info (alignTarget attributes target)) := by
  unfold alignTarget
  dsimp only
  split
  · rename_i hcode
    split
    · exact ⟨h, Or.inl ‹_›⟩
    · obtain ⟨p, hp, hstart⟩ := houtlined.covered target hcode
      obtain ⟨hfound, hlow⟩ := instructionStart_spec hstart target hp
      exact ⟨Nat.lt_of_le_of_lt hlow h, Or.inl hfound⟩
  · rename_i hcode
    rw [Bool.not_eq_true] at hcode
    split
    · exact ⟨h, Or.inr hcode⟩
    · unfold itemStart
      split
      · rename_i start hstart
        dsimp only
        split
        · -- what has a format is an instruction or inline data
          obtain ⟨hlow, hformat⟩ := findBelow?_eq_some _ hstart
          refine ⟨by omega, ?_⟩
          rcases hdrafted start with hfirst | hnone | ⟨hinline, _⟩
          · exact Or.inl hfirst
          · rw [hnone] at hformat
            cases hformat
          · refine Or.inr (Bool.eq_false_iff.mpr fun hboth => ?_)
            rw [((houtlined.unmixed start).code hboth).2] at hinline
            cases hinline
        · exact ⟨h, Or.inr hcode⟩
      · exact ⟨h, Or.inr hcode⟩

/-- The label of a reference stands on its target, if that has a label, and else where a label can
be generated. -/
theorem labelPlace_site (hdrafted : ∀ i, Drafted (attributes.info i))
    (houtlined : Outlined attributes) {source target : Nat} (h : target < attributes.size) :
    (attributes.info (labelPlace survey attributes source target)).symbol.isSome = true
      ∨ labelPlace survey attributes source target < attributes.size
        ∧ Site (attributes.info (labelPlace survey attributes source target)) := by
  unfold labelPlace
  split
  · exact Or.inl ‹_›
  · refine Or.inr (alignTarget_site hdrafted houtlined ?_)
    split
    · exact alternateTarget_lt h
    · exact h

end Places

end Disasm65.Data
