/-
What the walk over the image does from its first byte to its last.

The walk goes over items from one to the next and over all else byte by byte (`Reached`).  It gives
the items formats of the same length, so where it goes does not depend on what it has done.  When it
comes to an offset, labels have only been added (`Extends`), what it has reached refers to a label
if it refers to the image, and all other formats are as they were (`Progress`).  It stops early only
if no label can be generated, at a label that is empty, or at a reference that is too long for a
label (`StopsAt`), and in any case at the end of the image (`resolveTargets_spec`).
-/
import Mathlib
import Disasm65.Proofs.Data.Targets
import Disasm65.Proofs.Image.Bytes

namespace Disasm65

namespace Data

variable {survey : Survey} {w u v : Workspace}

/-! ### Labels are added -/

/-- From one workspace to the other labels are generated, under names that were free, and none is
lost or altered.  Bytes change in symbol and format at most. -/
structure Extends (w v : Workspace) : Prop where
  retitles : Retitles w.attributes v.attributes
  keeps : ∀ i symbol, (w.info i).symbol = some symbol → (v.info i).symbol = some symbol
  gains : ∀ i symbol, (v.info i).symbol = some symbol → (w.info i).symbol = some symbol
    ∨ w.symbols.Generated labelStem (w.info i).address symbol
      ∧ v.symbols.get? symbol.label = some (.label symbol)
  retains : ∀ label entry, w.symbols.get? label = some entry → v.symbols.get? label = some entry
  adds : ∀ label entry, v.symbols.get? label = some entry → w.symbols.get? label = some entry
    ∨ w.symbols.get? label = none
      ∧ ∃ symbol, entry = .label symbol ∧ symbol.label = label ∧ symbol.origin = .auto

namespace Extends

theorem refl (w : Workspace) : Extends w w :=
  ⟨.refl _, fun _ _ => id, fun _ _ => Or.inl, fun _ _ => id, fun _ _ => Or.inl⟩

/-- What is free later was free before. -/
theorem free (h : Extends w v) {label : String} (hfree : v.symbols.get? label = none) :
    w.symbols.get? label = none := by
  cases hget : w.symbols.get? label with
  | none => rfl
  | some entry => exact absurd (hfree.symm.trans (h.retains label entry hget)) (by simp)

theorem trans (h : Extends w u) (h' : Extends u v) : Extends w v := by
  refine ⟨h.retitles.trans h'.retitles, fun i symbol hs => h'.keeps i symbol (h.keeps i symbol hs),
    fun i symbol hs => ?_, fun label entry he => h'.retains label entry (h.retains label entry he),
    fun label entry he => ?_⟩
  · rcases h'.gains i symbol hs with hold | ⟨⟨hmade, hfree, hvalue, horigin⟩, hentry⟩
    · rcases h.gains i symbol hold with holder | ⟨hgenerated, hentry⟩
      · exact Or.inl holder
      · exact Or.inr ⟨hgenerated, h'.retains _ _ hentry⟩
    · have haddress : (u.info i).address = (w.info i).address := (h.retitles.byte i).address
      rw [haddress] at hmade hvalue
      exact Or.inr ⟨⟨hmade, h.free hfree, hvalue, horigin⟩, hentry⟩
  · rcases h'.adds label entry he with hold | ⟨hfree, hnew⟩
    · exact h.adds label entry hold
    · exact Or.inr ⟨h.free hfree, hnew⟩

theorem update_format (w : Workspace) (offset : Nat) (format : Option Format) :
    Extends w (w.update offset fun a => { a with format }) := by
  have hsymbol : ∀ i, ((w.update offset fun a => { a with format }).info i).symbol
      = (w.info i).symbol := fun i => by
    rw [info_workspace_update]
    split <;> rfl
  exact ⟨.update _ _ fun a => ⟨a.symbol, format, rfl⟩, fun i symbol hs => (hsymbol i).trans hs,
    fun i symbol hs => Or.inl ((hsymbol i).symm.trans hs), fun _ _ => id, fun _ _ => Or.inl⟩

end Extends

theorem ensureLabel_extends {place : Nat} {label : String}
    (h : ensureLabel w place = .ok (label, v)) : Extends w v := by
  rcases ensureLabel_eq_ok h with ⟨_, _, _, rfl⟩ | ⟨new, hnone, _, hgenerated, rfl⟩
  · exact .refl _
  have hinfo : ∀ i, (w.attributes.update place fun a => { a with symbol := some new }).info i
      = if place = i ∧ i < w.attributes.size then { w.info i with symbol := some new }
        else w.info i := Attributes.info_update w.attributes place _
  have hget := SymbolTable.get?_insert_label w.symbols new
  have hnew : (w.symbols.insert (.label new)).get? new.label = some (.label new) := by
    rw [hget, if_pos rfl]
  refine ⟨.update _ _ fun a => ⟨some new, a.format, rfl⟩, fun i symbol hs => ?_,
    fun i symbol hs => ?_, fun label entry he => ?_, fun label entry he => ?_⟩
  · rw [Workspace.info, hinfo, if_neg]
    · exact hs
    · rintro ⟨rfl, _⟩
      cases hnone.symm.trans hs
  · rw [Workspace.info, hinfo] at hs
    split at hs
    · rename_i hi
      obtain rfl := hi.1
      cases hs
      exact Or.inr ⟨hgenerated, hnew⟩
    · exact Or.inl hs
  · have hne : new.label ≠ label := fun heq => by
      cases hgenerated.free.symm.trans (heq ▸ he)
    rw [hget, if_neg hne, he]
  · rw [hget] at he
    split at he
    · rename_i hlabel
      cases he
      exact Or.inr ⟨hlabel ▸ hgenerated.free, new, rfl, hlabel, hgenerated.origin⟩
    · exact Or.inl he

theorem referTo_extends {source length target : Nat}
    (h : referTo survey source length target w = v.done) : Extends w v := by
  obtain ⟨_, u, format, hensure, _, rfl⟩ := referTo_eq_done h
  exact (ensureLabel_extends hensure).trans (.update_format u source (some format))

/-! ### Faults -/

theorem label_ne_of_generated {table : SymbolTable} {address : Nat} {symbol : Symbol}
    (h : table.Generated labelStem address symbol) : symbol.label ≠ "" := by
  obtain ⟨rest, hrest⟩ := h.made.toList_eq
  intro hempty
  rw [hempty] at hrest
  cases hrest

/-- A byte has an empty label. -/
def Nameless (w : Workspace) : Prop :=
  ∃ i symbol, (w.info i).symbol = some symbol ∧ symbol.label = ""

/-- No label that is generated is empty. -/
theorem Nameless.of_extends (h : Nameless v) (hextends : Extends w v) : Nameless w := by
  obtain ⟨i, symbol, hs, hempty⟩ := h
  rcases hextends.gains i symbol hs with hold | ⟨hgenerated, _⟩
  · exact ⟨i, symbol, hold, hempty⟩
  · exact absurd hempty (label_ne_of_generated hgenerated)

theorem ensureLabel_eq_error {place : Nat} {fault : Fault}
    (haddress : (w.info place).address < 0x100000000) (h : ensureLabel w place = .error fault) :
    ∃ base, fault = .labelsExhausted base := by
  unfold ensureLabel at h
  split at h
  · cases h
  split at h
  · rename_i hgenerate
    cases h
    exact SymbolTable.generate_eq_error (by decide) (by decide) haddress hgenerate
  · rename_i symbol hgenerate
    have hfree : w.symbols.contains symbol.label = false :=
      SymbolTable.contains_eq_false.mpr (SymbolTable.generate_eq_ok hgenerate).free
    have hadd : w.symbols.add (.label symbol) = .ok (w.symbols.insert (.label symbol)) :=
      if_neg (Bool.eq_false_iff.mp hfree)
    rw [hadd] at h
    cases h

/-- A reference fails only if no label can be generated, if the label is empty, or if the reference
is too long for a label. -/
theorem referTo_fault {source length target : Nat} {fault : Fault}
    (haddress : ∀ i, (w.info i).address < 0x100000000) (hroomy : Roomy w.attributes)
    (h : (referTo survey source length target w).fault = some fault) :
    (∃ base, fault = .labelsExhausted base) ∨ (Nameless w ∧ fault = .referenceWithoutLabel)
      ∨ (length = 0 ∨ Format.maxNumberLength < length) ∧ fault = .referenceLength length := by
  unfold referTo at h
  rw [findPlace_of_roomy hroomy, show (Except.ok _).bind (ensureLabel w) = ensureLabel w _ from rfl]
    at h
  split at h
  · rename_i hensure
    cases h
    exact Or.inl (ensureLabel_eq_error (haddress _) hensure)
  · rename_i label u hensure
    split at h
    · rename_i hreference
      cases h
      rcases Format.reference_eq_error hreference with ⟨hempty, rfl⟩ | hlength
      · rcases ensureLabel_eq_ok hensure with
          ⟨symbol, hs, rfl, _⟩ | ⟨symbol, _, rfl, hgenerated, _⟩
        · exact Or.inr (Or.inl ⟨⟨_, symbol, hs, hempty⟩, rfl⟩)
        · exact absurd hempty (label_ne_of_generated hgenerated)
      · exact Or.inr (Or.inr hlength)
    · cases h

/-! ### Where the walk goes -/

/-- The offset that the walk comes to after `offset`. -/
def follow (attributes : Attributes) (offset : Nat) : Nat :=
  offset + max (stride (attributes.info offset)) 1

/-- The walk comes to the byte. -/
def Reached (attributes : Attributes) (i : Nat) : Prop := ∃ n, (follow attributes)^[n] 0 = i

section Reached

variable {attributes : Attributes} {i j : Nat}

theorem lt_follow (attributes : Attributes) (i : Nat) : i < follow attributes i := by
  unfold follow
  omega

theorem reached_zero (attributes : Attributes) : Reached attributes 0 := ⟨0, rfl⟩

theorem Reached.next (h : Reached attributes i) : Reached attributes (follow attributes i) := by
  obtain ⟨n, rfl⟩ := h
  exact ⟨n + 1, Function.iterate_succ_apply' ..⟩

/-- The walk comes to no byte between one and the next. -/
theorem Reached.follow_le (hi : Reached attributes i) (hj : Reached attributes j) (hij : i < j) :
    follow attributes i ≤ j := by
  obtain ⟨m, rfl⟩ := hi
  obtain ⟨n, rfl⟩ := hj
  have hmono : StrictMono fun k => (follow attributes)^[k] 0 :=
    strictMono_nat_of_lt_succ fun k => by
      rw [Function.iterate_succ_apply']
      exact lt_follow attributes _
  have hle := hmono.monotone (show m + 1 ≤ n from hmono.lt_iff_lt.mp hij)
  rwa [Function.iterate_succ_apply'] at hle

theorem exists_reached (attributes : Attributes) (j : Nat) :
    ∃ i ≤ j, Reached attributes i ∧ j < follow attributes i := by
  induction j with
  | zero => exact ⟨0, Nat.le_refl 0, reached_zero attributes, lt_follow attributes 0⟩
  | succ j ih =>
      obtain ⟨i, hi, hreached, hj⟩ := ih
      rcases Nat.lt_or_ge (j + 1) (follow attributes i) with hlt | hge
      · exact ⟨i, by omega, hreached, hlt⟩
      · have heq : j + 1 = follow attributes i := by omega
        exact ⟨j + 1, Nat.le_refl _, heq ▸ hreached.next, lt_follow attributes _⟩

/-- The walk comes to every instruction, if items do not cover any. -/
theorem reached_of_start
    (hclear : ∀ i format, (attributes.info i).isInstructionStart = false →
      (attributes.info i).format = some format → ∀ j, i < j → j < i + format.length →
        (attributes.info j).isInstructionStart = false)
    (hstart : (attributes.info i).isInstructionStart = true) : Reached attributes i := by
  obtain ⟨k, hk, hreached, hlt⟩ := exists_reached attributes i
  rcases Nat.eq_or_lt_of_le hk with rfl | hk
  · exact hreached
  -- the byte before it that the walk comes to is that of an item around it
  exfalso
  unfold follow stride at hlt
  split at hlt
  · omega
  · rename_i hitem
    cases hformat : (attributes.info k).format with
    | none =>
        rw [hformat, Option.map_none, Option.getD_none] at hlt
        omega
    | some format =>
        rw [hformat, Option.map_some, Option.getD_some] at hlt
        have hinside := hclear k format (by simpa using hitem) hformat i hk (by omega)
        exact absurd (hinside.symm.trans hstart) Bool.false_ne_true

end Reached

/-! ### What the walk has done -/

/-- What a byte refers to does not depend on labels, nor on other formats. -/
theorem RefersTo.congr {i length target : Nat} (h : RefersTo survey w i length target)
    (hretitles : Retitles w.attributes u.attributes)
    (hformat : (u.info i).format = (w.info i).format) : RefersTo survey u i length target := by
  obtain ⟨symbol, format, hinfo⟩ := hretitles.byte i
  have hu : u.info i = { w.info i with symbol := symbol, format := format } := hinfo
  cases h with
  | operand hsource hstart hnone htarget =>
      have hlength : (u.info i).instructionLength = (w.info i).instructionLength := by rw [hu]
      rw [← hlength]
      refine .operand (hretitles.size.symm ▸ hsource) ?_ (hformat.trans hnone) ?_
      · rw [hu]
        exact hstart
      · rw [hu]
        exact htarget
  | item hsource hstart hsome htarget =>
      refine .item (hretitles.size.symm ▸ hsource) ?_ (hformat.trans hsome) ?_
      · rw [hu]
        exact hstart
      · rw [hu]
        exact htarget

/-- The byte refers to a label, if it referred to the image, and else has the format it had. -/
structure Answered (survey : Survey) (w v : Workspace) (i : Nat) : Prop where
  refers : ∀ length target, RefersTo survey w i length target →
    (0 < length ∧ length ≤ Format.maxNumberLength)
      ∧ ∃ place symbol, (v.info place).symbol = some symbol
        ∧ (v.info i).format
          = some ⟨length, if isBigEndian (w.info i) then .bigEndian else .littleEndian, .symbol,
              some ⟨symbol.label, .low⟩⟩
  other : (∀ length target, ¬ RefersTo survey w i length target) →
    (v.info i).format = (w.info i).format

theorem Answered.extends {i : Nat} (h : Answered survey w u i) (hextends : Extends u v)
    (hformat : (v.info i).format = (u.info i).format) : Answered survey w v i := by
  refine ⟨fun length target hrefers => ?_, fun hnot => hformat.trans (h.other hnot)⟩
  obtain ⟨hlength, place, symbol, hsymbol, hanswer⟩ := h.refers length target hrefers
  exact ⟨hlength, place, symbol, hextends.keeps place symbol hsymbol, hformat.trans hanswer⟩

/-- What the walk relies on. -/
structure Walkable (survey : Survey) (w : Workspace) : Prop where
  address : ∀ i, (w.info i).address < 0x100000000
  word : w.attributes.size < 0x10000000000000000
  targets : ∀ i length target, RefersTo survey w i length target → target < w.attributes.size
  whole : ∀ i, (w.info i).isInstructionStart = true →
    i + (w.info i).instructionLength ≤ w.attributes.size
  inside : ∀ i format, (w.info i).format = some format → i + format.length ≤ w.attributes.size

/-- What refers to the image lies in it. -/
theorem Walkable.source (hw : Walkable survey w) {i length target : Nat}
    (h : RefersTo survey w i length target) : i + length ≤ w.attributes.size := by
  cases h with
  | operand _ hstart _ _ => exact hw.whole i hstart
  | item _ _ hformat _ => exact hw.inside i _ hformat

/-- What has become of `w` when the walk comes to `offset`. -/
structure Progress (survey : Survey) (w : Workspace) (offset : Nat) (u : Workspace) : Prop where
  grown : Extends w u
  ahead : ∀ i, offset ≤ i ∨ ¬ Reached w.attributes i → (u.info i).format = (w.info i).format
  behind : ∀ i < offset, Reached w.attributes i → Answered survey w u i

/-- Why the walk over `w` stops early. -/
def StopsAt (survey : Survey) (w : Workspace) (fault : Fault) : Prop :=
  (∃ base, fault = .labelsExhausted base) ∨ (Nameless w ∧ fault = .referenceWithoutLabel)
    ∨ ∃ i length target, Reached w.attributes i ∧ RefersTo survey w i length target
      ∧ (length = 0 ∨ Format.maxNumberLength < length) ∧ fault = .referenceLength length

theorem Progress.start (survey : Survey) (w : Workspace) : Progress survey w 0 w :=
  ⟨.refl w, fun _ _ => rfl, fun _ hi => absurd hi (Nat.not_lt_zero _)⟩

section Walk

variable {offset : Nat}

/-- The walk comes from one offset to the next with all formats behind it answered, if the one at
the offset is. -/
theorem Progress.next (h : Progress survey w offset u) (hreached : Reached w.attributes offset)
    (hgrown : Extends u v) (hothers : ∀ i, i ≠ offset → (v.info i).format = (u.info i).format)
    (hanswered : Answered survey w v offset) :
    Progress survey w (follow w.attributes offset) v := by
  have hlt := lt_follow w.attributes offset
  refine ⟨h.grown.trans hgrown, fun i hi => ?_, fun i hi hreachedi => ?_⟩
  · have hne : i ≠ offset := by
      rintro rfl
      rcases hi with hle | hnot
      · omega
      · exact hnot hreached
    rw [hothers i hne]
    exact h.ahead i (hi.imp_left fun hle => by omega)
  · rcases Nat.lt_trichotomy i offset with hbefore | rfl | hafter
    · exact (h.behind i hbefore hreachedi).extends hgrown (hothers i (by omega))
    · exact hanswered
    · have := hreached.follow_le hreachedi hafter
      omega

/-- References are as long as what they stand for, so all items end in the image. -/
theorem Progress.roomy (hw : Walkable survey w) (h : Progress survey w offset u) :
    Roomy u.attributes := by
  intro i format hformat
  have hword := hw.word
  suffices hinside : i + format.length ≤ w.attributes.size by omega
  by_cases hbehind : i < offset ∧ Reached w.attributes i
  · have hanswered := h.behind i hbehind.1 hbehind.2
    by_cases hrefers : ∃ length target, RefersTo survey w i length target
    · obtain ⟨length, target, hrefers⟩ := hrefers
      obtain ⟨_, _, symbol, _, hanswer⟩ := hanswered.refers length target hrefers
      obtain rfl := Option.some.inj (hformat.symm.trans hanswer)
      exact hw.source hrefers
    · have hsame := hanswered.other fun length target hyes => hrefers ⟨length, target, hyes⟩
      exact hw.inside i format (hsame.symm.trans hformat)
  · have hahead : offset ≤ i ∨ ¬ Reached w.attributes i :=
      (not_and_or.mp hbehind).imp_left Nat.le_of_not_lt
    exact hw.inside i format ((h.ahead i hahead).symm.trans hformat)

/-- The walk does not go past the end of the image. -/
theorem Walkable.follow_le (hw : Walkable survey w) (hoffset : offset < w.attributes.size) :
    follow w.attributes offset ≤ w.attributes.size := by
  unfold follow stride
  split
  · omega
  · cases hitem : (w.attributes.info offset).format with
    | none =>
        rw [Option.map_none, Option.getD_none]
        omega
    | some format =>
        have := hw.inside offset format hitem
        rw [Option.map_some, Option.getD_some]
        omega

/-- Where the walk goes does not depend on what it has done. -/
theorem Progress.stepOver_eq (hw : Walkable survey w) (h : Progress survey w offset u)
    (hoffset : offset < w.attributes.size) :
    stepOver offset (stride (u.info offset)) = .ok (follow w.attributes offset) := by
  have hformat := h.ahead offset (Or.inl (Nat.le_refl offset))
  have hstride : stride (u.info offset) = stride (w.info offset) := by
    unfold stride Attribute.isInstructionStart
    rw [hformat, Workspace.info, h.grown.retitles.marks]
    rfl
  rw [stepOver, hstride]
  exact addWords_of_lt (Nat.lt_of_le_of_lt (hw.follow_le hoffset) hw.word)

/-- **One step of the walk.**  It goes on to the next offset, or stops. -/
theorem Progress.step (hw : Walkable survey w) (h : Progress survey w offset u)
    (hreached : Reached w.attributes offset) (hoffset : offset < w.attributes.size) :
    (∃ fault, (resolveAt survey offset u).1.fault = some fault ∧ StopsAt survey w fault)
      ∨ ∃ v, resolveAt survey offset u = (v.done, stride (u.info offset))
        ∧ Progress survey w (follow w.attributes offset) v := by
  have hformat := h.ahead offset (Or.inl (Nat.le_refl offset))
  have hretitles := h.grown.retitles
  have hsize := hretitles.size
  have hrefers : ∀ length target, RefersTo survey u offset length target
      ↔ RefersTo survey w offset length target := fun length target =>
    ⟨fun hu => hu.congr hretitles.symm hformat.symm, fun hw => hw.congr hretitles hformat⟩
  have hplain : (∀ length target, ¬ RefersTo survey w offset length target) →
      Answered survey w u offset := fun hnot =>
    ⟨fun length target hyes => absurd hyes (hnot length target), fun _ => hformat⟩
  rcases resolveAt_eq survey (show offset < u.attributes.size from hsize ▸ hoffset) with
    ⟨length, target, hsource, heq⟩ | ⟨hnot, heq⟩
  · have hto := (hrefers length target).mp hsource
    have htarget := hw.targets offset length target hto
    cases hfault : (referTo survey offset length target u).fault with
    | some fault =>
        refine Or.inl ⟨fault, by rw [heq]; exact hfault, ?_⟩
        have haddress : ∀ i, (u.info i).address < 0x100000000 := fun i => by
          rw [Workspace.info, (hretitles.byte i).address]
          exact hw.address i
        rcases referTo_fault haddress (h.roomy hw) hfault with
          hbase | ⟨hnameless, hfault⟩ | ⟨hlength, hfault⟩
        · exact Or.inl hbase
        · exact Or.inr (Or.inl ⟨hnameless.of_extends h.grown, hfault⟩)
        · exact Or.inr (Or.inr ⟨offset, length, target, hreached, hto, hlength, hfault⟩)
    | none =>
        have hdone : referTo survey offset length target u
            = (referTo survey offset length target u).workspace.done := by
          rw [Workspace.done, ← hfault]
        refine Or.inr ⟨_, by rw [heq, ← hdone], h.next hreached (referTo_extends hdone)
          (fun i hi => referTo_format_of_ne hdone hi) ⟨fun length' target' hto' => ?_,
            fun hnot => absurd hto (hnot length target)⟩⟩
        obtain ⟨rfl, rfl⟩ := hto.unique hto'
        obtain ⟨hlength, symbol, hsymbol, hanswer⟩ := referTo_answers (hsize.symm ▸ hoffset)
          (labelPlace_lt (hsize.symm ▸ htarget)) hdone
        have horder : isBigEndian (u.info offset) = isBigEndian (w.info offset) := by
          rw [isBigEndian, isBigEndian, hformat]
        rw [horder] at hanswer
        exact ⟨hlength, _, symbol, hsymbol, hanswer⟩
  · exact Or.inr ⟨u, heq, h.next hreached (.refl u) (fun _ _ => rfl)
      (hplain fun length target => mt (hrefers length target).mpr (hnot length target))⟩

theorem resolveFrom_of_end (hoffset : ¬ offset < w.attributes.size) (fuel : Nat) :
    resolveFrom survey (fuel + 1) offset w = w.done := by
  rw [resolveFrom, if_neg hoffset]

theorem resolveFrom_of_fault {fault : Fault} (hoffset : offset < w.attributes.size)
    (hfault : (resolveAt survey offset w).1.fault = some fault) (fuel : Nat) :
    resolveFrom survey (fuel + 1) offset w = (resolveAt survey offset w).1 := by
  rw [resolveFrom, if_pos hoffset]
  exact andThen_of_fault hfault _

theorem resolveFrom_of_done {length next : Nat} (hoffset : offset < w.attributes.size)
    (hdone : resolveAt survey offset w = (v.done, length))
    (hnext : stepOver offset length = .ok next) (fuel : Nat) :
    resolveFrom survey (fuel + 1) offset w = resolveFrom survey fuel next v := by
  rw [resolveFrom, if_pos hoffset, hdone]
  dsimp only
  rw [done_andThen, hnext]
  rfl

/-- **The whole walk.**  The induction is on the steps that are left, which are more than there are
bytes ahead. -/
theorem resolveFrom_progress (hw : Walkable survey w) :
    ∀ (fuel offset : Nat) (u : Workspace), offset ≤ w.attributes.size →
      w.attributes.size < offset + fuel → Reached w.attributes offset →
      Progress survey w offset u →
      (∀ more, resolveFrom survey (fuel + more) offset u = resolveFrom survey fuel offset u)
        ∧ ((∃ fault, (resolveFrom survey fuel offset u).fault = some fault
            ∧ StopsAt survey w fault)
          ∨ ∃ v, resolveFrom survey fuel offset u = v.done
            ∧ Progress survey w w.attributes.size v) := by
  intro fuel
  induction fuel with
  | zero =>
      intro offset u hend hfuel _ _
      omega
  | succ fuel ih =>
      intro offset u hend hfuel hreached h
      have hsize := h.grown.retitles.size
      have hlt := lt_follow w.attributes offset
      by_cases hoffset : offset < w.attributes.size
      · have hinside : offset < u.attributes.size := hsize.symm ▸ hoffset
        rcases h.step hw hreached hoffset with ⟨fault, hfault, hstops⟩ | ⟨v, hdone, hv⟩
        · have hstop := resolveFrom_of_fault hinside hfault
          refine ⟨fun more => ?_, Or.inl ⟨fault, by rw [hstop, hfault], hstops⟩⟩
          rw [Nat.succ_add, hstop, hstop]
        · have hgo := resolveFrom_of_done hinside hdone (h.stepOver_eq hw hoffset)
          obtain ⟨hmore, hends⟩ := ih (follow w.attributes offset) v (hw.follow_le hoffset)
            (by omega) hreached.next hv
          refine ⟨fun more => ?_, ?_⟩
          · rw [Nat.succ_add, hgo, hgo, hmore]
          · rw [hgo]
            exact hends
      · obtain rfl : offset = w.attributes.size := by omega
        have hout : ¬ w.attributes.size < u.attributes.size := by omega
        refine ⟨fun more => ?_, Or.inr ⟨u, resolveFrom_of_end hout fuel, h⟩⟩
        rw [Nat.succ_add, resolveFrom_of_end hout, resolveFrom_of_end hout]

end Walk

/-- **What the walk makes of a workspace.**  It ends by itself.  It stops early for one of three
reasons; or else every byte that it comes to refers to a label, if it referred to the image, and
there are new labels, but nothing else has changed. -/
theorem resolveTargets_spec (hw : Walkable survey w) :
    (∀ more, resolveFrom survey (walkFuel w.attributes.size + more) 0 w
        = resolveTargets survey w)
      ∧ ((∃ fault, (resolveTargets survey w).fault = some fault ∧ StopsAt survey w fault)
        ∨ ∃ v, resolveTargets survey w = v.done ∧ Extends w v
          ∧ (∀ i, Reached w.attributes i → Answered survey w v i)
          ∧ ∀ i, ¬ Reached w.attributes i → (v.info i).format = (w.info i).format) := by
  obtain ⟨hmore, hends⟩ := resolveFrom_progress hw (walkFuel w.attributes.size) 0 w (Nat.zero_le _)
    (by unfold walkFuel; omega) (reached_zero _) (.start survey w)
  refine ⟨hmore, hends.imp_right ?_⟩
  rintro ⟨v, hdone, h⟩
  refine ⟨v, hdone, h.grown, fun i hreached => ?_, fun i hnot => h.ahead i (Or.inr hnot)⟩
  rcases Nat.lt_or_ge i w.attributes.size with hi | hi
  · exact h.behind i hi hreached
  · refine ⟨fun length target hrefers => ?_, fun _ => h.ahead i (Or.inl hi)⟩
    have := hrefers.lt_size
    omega

/-! ### Addresses -/

/-- The number that an item spells, in the byte order of its format. -/
def spelled (image : Image) (offset : Nat) (format : Format) : Nat :=
  let bytes := image.bytesFrom offset format.length
  Nat.ofDigits 0x100 ((if format.kind = .bigEndian then bytes.reverse else bytes).map (·.toNat))

/-- The item at `offset` is the address of the byte at `target`.  A short address is in the bank of
the item; of a long one the four low bytes count. -/
structure IsAddressOf (survey : Survey) (offset : Nat) (a : Attribute) (format : Format)
    (target : Nat) : Prop where
  kind : format.kind = .littleEndian ∨ format.kind = .bigEndian
  detail : format.detail = .address
  maps : survey.map.offsetOf? offset
    (if format.length < 3 then bankOf a.address + spelled survey.image offset format
      else wrap32 (spelled survey.image offset format)) = some target

theorem spelled_lt (image : Image) (offset : Nat) (format : Format) :
    spelled image offset format < 0x100 ^ format.length := by
  unfold spelled
  dsimp only
  refine (ofDigits_toNat_lt _).trans_eq (congrArg _ ?_)
  split <;> simp

theorem readWord_eq_spelled {image : Image} {offset : Nat} {format : Format}
    (hinside : offset + format.length ≤ image.size) :
    image.readWord offset format.length
        (if format.kind = .bigEndian then .highFirst else .lowFirst)
      = wrap32 (spelled image offset format) := by
  unfold Image.readWord spelled
  rw [Image.slice?_eq_some hinside, Option.getD_some]
  dsimp only
  by_cases hkind : format.kind = .bigEndian
  · rw [if_pos hkind, if_pos hkind]
    exact (bigEndian_eq_littleEndian_reverse _).trans (littleEndian_eq_ofDigits _)
  · rw [if_neg hkind, if_neg hkind]
    exact littleEndian_eq_ofDigits _

theorem itemTarget?_eq_some_iff (survey : Survey) {offset target : Nat} {a : Attribute}
    {format : Format} (hinside : offset + format.length ≤ survey.image.size) :
    itemTarget? survey offset a format = some target
      ↔ IsAddressOf survey offset a format target := by
  have hshort : format.length < 3 → wrap32 (spelled survey.image offset format)
      = spelled survey.image offset format := fun hlength => wrap32_of_lt (calc
    spelled survey.image offset format < 0x100 ^ format.length := spelled_lt ..
    _ ≤ 0x100 ^ 2 := Nat.pow_le_pow_right (by decide) (by omega)
    _ < 0x100000000 := by decide)
  have haddress : (if format.length < 3 then
        bankOf a.address + wrap32 (spelled survey.image offset format)
        else wrap32 (spelled survey.image offset format))
      = if format.length < 3 then bankOf a.address + spelled survey.image offset format
        else wrap32 (spelled survey.image offset format) := by
    split
    · rw [hshort ‹_›]
    · rfl
  have hkind : format.isNumeric = true
      ↔ format.kind = .littleEndian ∨ format.kind = .bigEndian := by
    unfold Format.isNumeric
    cases format.kind <;> simp [FormatKind.isNumeric]
  unfold itemTarget?
  dsimp only
  rw [readWord_eq_spelled hinside, haddress]
  constructor
  · intro h
    split at h
    · rename_i hcheck
      obtain ⟨hnumeric, hdetail⟩ := Bool.and_eq_true_iff.mp hcheck
      exact ⟨hkind.mp hnumeric, by simpa using hdetail, h⟩
    · cases h
  · rintro ⟨hnumeric, hdetail, hmaps⟩
    rw [if_pos (Bool.and_eq_true_iff.mpr ⟨hkind.mpr hnumeric, by simpa using hdetail⟩), hmaps]

/-! ### What has changed -/

/-- What resolving makes of a workspace: it is complete, and touches nothing else. -/
structure Resolves (survey : Survey) (w v : Workspace) : Prop where
  /-- An instruction without a format whose operand is in the image refers to a label. -/
  operands : ∀ i target, (w.info i).isInstructionStart = true → (w.info i).format = none →
    (w.info i).operandOffset = some target →
    ∃ place symbol, (v.info place).symbol = some symbol
      ∧ (v.info i).format = some ⟨(w.info i).instructionLength, .littleEndian, .symbol,
          some ⟨symbol.label, .low⟩⟩
  /-- So does an address of a byte of the image that the walk comes to. -/
  items : ∀ i format target, Reached w.attributes i → (w.info i).isInstructionStart = false →
    (w.info i).format = some format → IsAddressOf survey i (w.info i) format target →
    ∃ place symbol, (v.info place).symbol = some symbol
      ∧ (v.info i).format = some ⟨format.length, format.kind, .symbol, some ⟨symbol.label, .low⟩⟩
  /-- All other formats are as they were. -/
  others : ∀ i, (v.info i).format = (w.info i).format
    ∨ ((w.info i).isInstructionStart = true ∧ (w.info i).format = none
        ∧ ∃ target, (w.info i).operandOffset = some target)
    ∨ (Reached w.attributes i ∧ (w.info i).isInstructionStart = false
        ∧ ∃ format target, (w.info i).format = some format
          ∧ IsAddressOf survey i (w.info i) format target)
  /-- Labels are added, and nothing else changes. -/
  labels : Extends w v

/-- **A walk that ends well is complete and conservative.** -/
theorem Walkable.resolves (hw : Walkable survey w) (hsize : w.attributes.size = survey.image.size)
    (hclear : ∀ i format, (w.info i).isInstructionStart = false → (w.info i).format = some format →
      ∀ j, i < j → j < i + format.length → (w.info j).isInstructionStart = false)
    (hdone : resolveTargets survey w = v.done) : Resolves survey w v := by
  have htarget : ∀ {i format target}, (w.info i).format = some format →
      (itemTarget? survey i (w.info i) format = some target
        ↔ IsAddressOf survey i (w.info i) format target) := fun hformat =>
    itemTarget?_eq_some_iff _ (hsize ▸ hw.inside _ _ hformat)
  rcases (resolveTargets_spec hw).2 with ⟨fault, hfault, _⟩ | ⟨v', hdone', hgrown, hanswered, hsame⟩
  · rw [hdone] at hfault
    cases hfault
  obtain rfl := done_inj.mp (hdone.symm.trans hdone')
  refine ⟨fun i target hstart hnone htargeti => ?_,
    fun i format target hreached hstart hformat hitem => ?_, fun i => ?_, hgrown⟩
  · have hlt : i < w.attributes.size := Attributes.lt_size_of_info fun hblank => by
      rw [Workspace.info, hblank] at hstart
      cases hstart
    obtain ⟨_, place, symbol, hsymbol, hanswer⟩ :=
      (hanswered i (reached_of_start hclear hstart)).refers _ _
        (.operand hlt hstart hnone htargeti)
    rw [isBigEndian, hnone] at hanswer
    exact ⟨place, symbol, hsymbol, hanswer⟩
  · obtain ⟨_, place, symbol, hsymbol, hanswer⟩ := (hanswered i hreached).refers _ _
      (.item (lt_size_of_format hformat) hstart hformat ((htarget hformat).mpr hitem))
    have hkind : (if isBigEndian (w.info i) then FormatKind.bigEndian else .littleEndian)
        = format.kind := by
      rw [isBigEndian, hformat]
      rcases hitem.kind with hkind | hkind <;> simp [hkind]
    rw [hkind] at hanswer
    exact ⟨place, symbol, hsymbol, hanswer⟩
  · by_cases hreached : Reached w.attributes i
    · by_cases hrefers : ∃ length target, RefersTo survey w i length target
      · obtain ⟨length, target, hrefers⟩ := hrefers
        refine Or.inr ?_
        cases hrefers with
        | operand _ hstart hnone htargeti => exact Or.inl ⟨hstart, hnone, target, htargeti⟩
        | item _ hstart hformat htargeti =>
            exact Or.inr ⟨hreached, hstart, _, target, hformat,
              (htarget hformat).mp htargeti⟩
      · exact Or.inl ((hanswered i hreached).other fun length target hyes =>
          hrefers ⟨length, target, hyes⟩)
    · exact Or.inl (hsame i hreached)

end Data

end Disasm65
