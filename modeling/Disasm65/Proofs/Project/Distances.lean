/-
How far labels are from what they stand for.

An operand that refers to a byte without a label is written as a nearby label plus or minus a small
number, which is right only if the two bytes are as far apart in addresses as in offsets.  Moving a
label to the first byte of its instruction or item never leaves a region, and a label of the user is
compared with the target.  A target in code that is moved forward, to the next instruction or to
data, is not: there the distance can be lost, and only there (`references_level`).
-/
import Mathlib
import Disasm65.Proofs.Flow.Spans
import Disasm65.Proofs.Project.Labels

namespace Disasm65

/-- Two bytes are as far apart in addresses as in offsets. -/
def Attributes.Level (attributes : Attributes) (i j : Nat) : Prop :=
  ((attributes.info i).address : Int) - (attributes.info j).address = (i : Int) - j

instance (attributes : Attributes) (i j : Nat) : Decidable (attributes.Level i j) :=
  inferInstanceAs (Decidable (_ = _))

theorem Attributes.Level.refl (attributes : Attributes) (i : Nat) : attributes.Level i i := by
  simp [Level]

theorem Attributes.Level.symm {attributes : Attributes} {i j : Nat} (h : attributes.Level i j) :
    attributes.Level j i := by
  unfold Level at *
  omega

theorem Attributes.Level.trans_iff {attributes : Attributes} {i j k : Nat}
    (h : attributes.Level i j) : attributes.Level i k ↔ attributes.Level j k := by
  unfold Level at *
  omega

namespace Data

variable {survey : Survey} {w v : Workspace} {attributes other : Attributes}

theorem Retitles.level_iff (h : Retitles attributes other) {i j : Nat} :
    other.Level i j ↔ attributes.Level i j := by
  unfold Attributes.Level
  rw [(h.byte i).address, (h.byte j).address]

/-! ### References -/

/-- A reference gives a format to its source only. -/
theorem referTo_format {source length target : Nat}
    (h : referTo survey source length target w = v.done) {i : Nat} {format : Format}
    (hformat : (v.info i).format = some format) :
    i = source ∧ format.length = length ∨ (w.info i).format = some format := by
  by_cases hi : i = source
  · obtain ⟨label, u, made, hensure, hreference, rfl⟩ := referTo_eq_done h
    rw [info_workspace_update] at hformat
    split at hformat
    · cases hformat
      exact Or.inl ⟨hi, by rw [(Format.reference_eq_ok hreference).2]⟩
    · rw [ensureLabel_format hensure] at hformat
      exact Or.inr hformat
  · rw [referTo_format_of_ne h hi] at hformat
    exact Or.inr hformat

/-- After a reference its source names the label at the place. -/
theorem referTo_label {source length target : Nat} (hsource : source < w.attributes.size)
    (hplace : labelPlace survey w.attributes source target < w.attributes.size)
    (h : referTo survey source length target w = v.done) :
    ∃ symbol format,
      (v.info (labelPlace survey w.attributes source target)).symbol = some symbol
        ∧ (v.info source).format = some format ∧ format.length = length
        ∧ format.label = some ⟨symbol.label, .low⟩ := by
  obtain ⟨_, symbol, hsymbol, hformat⟩ := referTo_answers hsource hplace h
  exact ⟨symbol, _, hsymbol, hformat, rfl, rfl⟩

/-! ### What is charted -/

/-- The bytes have the addresses of the map, instructions and items stay in their regions, code
belongs to the nearest instruction, and operands refer to the image. -/
structure Charted (setup : Flow.Setup) (attributes : Attributes) : Prop where
  laid : Flow.Laid setup attributes
  size : attributes.size = setup.image.size
  address : ∀ i < setup.image.size,
    (attributes.info i).address = (setup.map.addressOf? i).getD 0
  covered : ∀ i, (attributes.info i).isInstruction = true →
    (attributes.info i).isInstructionStart = false → ∃ p, Flow.Covers attributes p i
  targets : ∀ i t, (attributes.info i).operandOffset = some t → t < setup.image.size

namespace Charted

variable {setup : Flow.Setup}

/-- New symbols change nothing, nor do new formats that stay in their regions. -/
theorem retitles (h : Charted setup attributes) (hretitles : Retitles attributes other)
    (hformats : ∀ i format, (other.info i).format = some format →
      setup.map.Whole i format.length) : Charted setup other := by
  have hstarts : ∀ i, (other.info i).isInstructionStart
      = (attributes.info i).isInstructionStart := fun i => by
    rw [Attribute.isInstructionStart, hretitles.marks, Attribute.isInstructionStart]
  have hlengths : ∀ i, (other.info i).instructionLength
      = (attributes.info i).instructionLength := fun i => (hretitles.byte i).instructionLength
  refine ⟨⟨fun i hi => ?_, hformats⟩, hretitles.size.trans h.size, fun i hi => ?_,
    fun i hcode hstart => ?_, fun i t ht => ?_⟩
  · rw [hlengths]
    exact h.laid.starts i ((hstarts i).symm.trans hi)
  · rw [(hretitles.byte i).address]
    exact h.address i hi
  · rw [Attribute.isInstruction, hretitles.marks] at hcode
    obtain ⟨p, hp⟩ := h.covered i hcode ((hstarts i).symm.trans hstart)
    exact ⟨p, hp.lt, (hstarts p).trans hp.starts, by rw [hlengths]; exact hp.reach,
      fun j hlow hhigh => (hstarts j).trans (hp.nearest j hlow hhigh)⟩
  · rw [(hretitles.byte i).operandOffset] at ht
    exact h.targets i t ht

section Regions

variable (hmap : setup.map.Valid) (htotal : setup.map.totalLength = setup.image.size)

include hmap htotal

theorem level_of_sameRegion (h : Charted setup attributes) {i j : Nat}
    (hij : setup.map.SameRegion i j) : attributes.Level i j := by
  obtain ⟨hi, hj⟩ := hmap.lt_of_sameRegion hij
  unfold Attributes.Level
  rw [h.address i (htotal ▸ hi), h.address j (htotal ▸ hj)]
  exact hmap.distance_of_sameRegion hij

theorem sameRegion_refl {i : Nat} (hi : i < setup.image.size) : setup.map.SameRegion i i :=
  hmap.sameRegion_refl (htotal.symm ▸ hi)

end Regions

end Charted

/-! ### Moving a target -/

theorem instructionStart_of_start {i : Nat}
    (h : (attributes.info i).isInstructionStart = true) : instructionStart attributes i = i := by
  cases i with
  | zero => rfl
  | succ n => rw [instructionStart, if_pos h]

/-- Going back from a byte of an instruction one comes to its first byte. -/
theorem instructionStart_of_covers {p : Nat} :
    ∀ i, Flow.Covers attributes p i → (attributes.info i).isInstructionStart = false →
      instructionStart attributes i = p := by
  intro i
  induction i with
  | zero =>
      intro h
      exact absurd h.lt (Nat.not_lt_zero p)
  | succ n ih =>
      intro h hstart
      rw [instructionStart, if_neg (by rw [hstart]; exact Bool.false_ne_true)]
      by_cases hp : p = n
      · subst hp
        exact instructionStart_of_start h.starts
      · have hlt := h.lt
        have hreach := h.reach
        have hpn : p < n := by omega
        refine ih ⟨hpn, h.starts, by omega, fun j hlow hhigh => h.nearest j hlow (by omega)⟩ ?_
        exact h.nearest n hpn (Nat.lt_succ_self n)

theorem probeLabel_use {target probe : Nat} (h : probeLabel attributes target probe = .use) :
    attributes.Level target probe := by
  unfold probeLabel at h
  split at h
  · split at h
    · split at h
      · rename_i hdistance
        exact hdistance
      · cases h
    · cases h
  · cases h

/-- A label of the user that is used is at the right distance. -/
theorem firstLabel?_level {target place : Nat} :
    ∀ places, firstLabel? attributes target places = some place →
      attributes.Level target place := by
  intro places
  induction places with
  | nil => intro h; cases h
  | cons probe others ih =>
      intro h
      rw [firstLabel?] at h
      split at h
      · rename_i huse
        cases h
        exact probeLabel_use huse
      · cases h
      · exact ih h

/-- Where a reference is going before its label is moved to the first byte of something. -/
def nearTarget (survey : Survey) (attributes : Attributes) (source target : Nat) : Nat :=
  if (attributes.info target).symbol.isSome || !survey.parameters.seeksNearby then target
  else alternateTarget survey attributes source target

/-- The reference from `source` to `target` goes forward past the start of a region: the target has
no label, it is in code, and what refers to it is no branch or call. -/
structure MovedAcross (survey : Survey) (attributes : Attributes) (source target : Nat) :
    Prop where
  seeks : survey.parameters.seeksNearby = true
  free : (attributes.info target).symbol = none
  code : (attributes.info target).isInstruction = true
  access : (attributes.info source).isInstructionStart = true →
    (survey.opcodeAt source).isBranchOrCall = false
  forward : nearTarget survey attributes source target = target + 1
    ∨ nearTarget survey attributes source target = target + 2
  crossed : ∃ i, target < i ∧ i ≤ nearTarget survey attributes source target
    ∧ survey.map.isRegionStart i = true

/-- A label is on its target or on the first byte of what the target is part of. -/
theorem labelPlace_cases (survey : Survey) (attributes : Attributes) (source target : Nat) :
    labelPlace survey attributes source target = target
        ∧ nearTarget survey attributes source target = target
      ∨ labelPlace survey attributes source target
        = alignTarget attributes (nearTarget survey attributes source target) := by
  unfold labelPlace nearTarget
  cases (attributes.info target).symbol.isSome
  · right
    cases survey.parameters.seeksNearby <;> simp
  · exact Or.inl ⟨rfl, rfl⟩

theorem nextInstruction_cases (attributes : Attributes) (target : Nat) :
    nextInstruction attributes target = target
      ∨ nextInstruction attributes target = target + 1 := by
  unfold nextInstruction
  split
  · exact Or.inr rfl
  · exact Or.inl rfl

theorem Charted.nearTarget_lt {setup : Flow.Setup} (h : Charted setup attributes) (source : Nat)
    {target : Nat} (ht : target < setup.image.size) :
    nearTarget survey attributes source target < setup.image.size := by
  unfold nearTarget
  split
  · exact ht
  · rw [← h.size] at ht ⊢
    exact alternateTarget_lt ht

section Regions

variable {setup : Flow.Setup} (hmap : setup.map.Valid)
variable (htotal : setup.map.totalLength = setup.image.size)

include hmap htotal

theorem Charted.instructionStart_sameRegion (h : Charted setup attributes) {i : Nat}
    (hcode : (attributes.info i).isInstruction = true)
    (hstart : (attributes.info i).isInstructionStart = false) :
    setup.map.SameRegion (instructionStart attributes i) i := by
  obtain ⟨p, hp⟩ := h.covered i hcode hstart
  rw [instructionStart_of_covers i hp hstart]
  exact (h.laid.starts p hp.starts).sameRegion hmap htotal (Nat.le_of_lt hp.lt) hp.reach

/-- The first byte of the instruction or item that a byte is part of is in the byte's region. -/
theorem Charted.alignTarget_sameRegion (h : Charted setup attributes) {i : Nat}
    (hi : i < setup.image.size) : setup.map.SameRegion (alignTarget attributes i) i := by
  have hrefl := Charted.sameRegion_refl hmap htotal hi
  unfold alignTarget
  dsimp only
  split
  · rename_i hcode
    split
    · exact hrefl
    · rename_i hstart
      exact h.instructionStart_sameRegion hmap htotal hcode (by simpa using hstart)
  · split
    · exact hrefl
    · unfold itemStart
      split
      · rename_i start hstart
        obtain ⟨hlow, hsome⟩ := findBelow?_eq_some _ hstart
        obtain ⟨format, hformat⟩ := Option.isSome_iff_exists.mp hsome
        rw [hformat, Option.map_some, Option.getD_some]
        dsimp only
        split
        · exact h.laid.formats start format hformat i (Nat.le_of_lt hlow) ‹_›
        · exact hrefl
      · exact hrefl

theorem Charted.accessedInCode_cases (h : Charted setup attributes) {target : Nat}
    (hcode : (attributes.info target).isInstruction = true) :
    attributes.Level (accessedInCode attributes target) target
      ∨ accessedInCode attributes target = target + 1
      ∨ accessedInCode attributes target = target + 2 := by
  unfold accessedInCode
  dsimp only
  split
  · rename_i nearby hnearby
    have hmem := List.mem_of_find?_eq_some hnearby
    simp only [List.mem_cons, List.not_mem_nil, or_false] at hmem
    exact Or.inr hmem
  · left
    split
    · exact .refl _ _
    · rename_i hstart
      exact h.level_of_sameRegion hmap htotal
        (h.instructionStart_sameRegion hmap htotal hcode (by simpa using hstart))

/-- A better target is at the right distance, or it is one or two bytes further on, and then the
target is in code and the reference is no branch or call. -/
theorem Charted.alternateTarget_cases (h : Charted setup attributes) (source target : Nat) :
    attributes.Level (alternateTarget survey attributes source target) target
      ∨ (attributes.info target).isInstruction = true
        ∧ ((attributes.info source).isInstructionStart = true →
          (survey.opcodeAt source).isBranchOrCall = false)
        ∧ (alternateTarget survey attributes source target = target + 1
          ∨ alternateTarget survey attributes source target = target + 2) := by
  unfold alternateTarget
  split
  · left
    cases hfound : (firstLabel? attributes target (placesBack target)).or
        (firstLabel? attributes target (placesForward attributes.size target)) with
    | none => exact .refl _ _
    | some place =>
        rw [Option.getD_some]
        rcases Option.or_eq_some_iff.mp hfound with hback | ⟨_, hforward⟩
        · exact (firstLabel?_level _ hback).symm
        · exact (firstLabel?_level _ hforward).symm
  · rename_i hcode
    replace hcode : (attributes.info target).isInstruction = true := by simpa using hcode
    -- the next instruction is asked for in two places
    have hnext : ∀ {P : Prop}, P →
        attributes.Level (nextInstruction attributes target) target
          ∨ (attributes.info target).isInstruction = true ∧ P
            ∧ (nextInstruction attributes target = target + 1
              ∨ nextInstruction attributes target = target + 2) := by
      intro P hP
      rcases nextInstruction_cases attributes target with heq | heq
      · exact Or.inl (heq.symm ▸ .refl _ _)
      · exact Or.inr ⟨hcode, hP, Or.inl heq⟩
    split
    · rename_i hitem
      exact hnext fun hstart => by rw [hstart] at hitem; cases hitem
    · dsimp only
      split
      · exact Or.inl (.refl _ _)
      · rename_i hbranch
        have haccess : (attributes.info source).isInstructionStart = true →
          (survey.opcodeAt source).isBranchOrCall = false := fun _ => by simpa using hbranch
        split
        · exact hnext haccess
        · exact (h.accessedInCode_cases hmap htotal hcode).imp_right fun hforward =>
            ⟨hcode, haccess, hforward⟩

/-- Between bytes that are not level a region starts. -/
theorem Charted.exists_isRegionStart (h : Charted setup attributes) {i j : Nat} (hij : i ≤ j)
    (hj : j < setup.image.size) (hlevel : ¬ attributes.Level j i) :
    ∃ k, i < k ∧ k ≤ j ∧ setup.map.isRegionStart k = true := by
  by_contra hnone
  have hfits : Flow.FitsAt setup i (j - i + 1) := by
    refine ⟨by omega, fun k hlow hhigh => ?_⟩
    rw [Bool.eq_false_iff]
    exact fun hstart => hnone ⟨k, hlow, by omega, hstart⟩
  exact hlevel (h.level_of_sameRegion hmap htotal
    (hfits.sameRegion hmap htotal hij (by omega)).symm)

/-- **A reference goes to a level byte, or forward past the start of a region.** -/
theorem Charted.nearTarget_cases (h : Charted setup attributes) (hsurvey : survey.map = setup.map)
    (source : Nat) {target : Nat} (ht : target < setup.image.size) :
    attributes.Level (nearTarget survey attributes source target) target
      ∨ MovedAcross survey attributes source target := by
  by_cases hlevel : attributes.Level (nearTarget survey attributes source target) target
  · exact Or.inl hlevel
  · right
    have hlt : nearTarget survey attributes source target < setup.image.size :=
      h.nearTarget_lt source ht
    by_cases hstays : ((attributes.info target).symbol.isSome
        || !survey.parameters.seeksNearby) = true
    · rw [nearTarget, if_pos hstays] at hlevel
      exact absurd (.refl _ _) hlevel
    · have hnear : nearTarget survey attributes source target
          = alternateTarget survey attributes source target := if_neg hstays
      simp only [Bool.or_eq_true, not_or, Bool.not_eq_true', Bool.not_eq_false,
        Option.not_isSome_iff_eq_none] at hstays
      rw [hnear] at hlevel
      obtain ⟨hcode, haccess, hforward⟩ :=
        (h.alternateTarget_cases hmap htotal source target).resolve_left hlevel
      rw [← hnear] at hlevel hforward
      refine ⟨hstays.2, hstays.1, hcode, haccess, hforward, ?_⟩
      rw [hsurvey]
      exact h.exists_isRegionStart hmap htotal (by omega) hlt hlevel

/-- The label of a reference is in the region of the byte that the reference goes to. -/
theorem Charted.labelPlace_sameRegion (h : Charted setup attributes) (source : Nat) {target : Nat}
    (ht : target < setup.image.size) :
    setup.map.SameRegion (labelPlace survey attributes source target)
      (nearTarget survey attributes source target) := by
  rcases labelPlace_cases survey attributes source target with ⟨hplace, hnear⟩ | hplace
  · rw [hplace, hnear]
    exact Charted.sameRegion_refl hmap htotal ht
  · rw [hplace]
    exact h.alignTarget_sameRegion hmap htotal (h.nearTarget_lt source ht)

theorem Charted.target_lt (h : Charted setup w.attributes) (hsurvey : survey.map = setup.map)
    {source length target : Nat} (hrefers : RefersTo survey w source length target) :
    target < setup.image.size := by
  cases hrefers with
  | operand _ _ _ htarget => exact h.targets _ _ htarget
  | item _ _ _ htarget =>
      unfold itemTarget? at htarget
      split at htarget
      · rw [hsurvey] at htarget
        exact htotal ▸ hmap.offsetOf?_lt htarget
      · cases htarget

/-- References keep the chart: the new format is as long as the instruction or item was. -/
theorem Charted.referTo (h : Charted setup w.attributes) {source length target : Nat}
    (hrefers : RefersTo survey w source length target)
    (hdone : Data.referTo survey source length target w = v.done) : Charted setup v.attributes := by
  refine h.retitles (referTo_retitles hdone) fun i format hformat => ?_
  rcases referTo_format hdone hformat with ⟨rfl, hlength⟩ | hold
  · rw [hlength]
    cases hrefers with
    | operand _ hstart _ _ => exact (h.laid.starts i hstart).whole hmap htotal
    | item _ _ hitem _ => exact h.laid.formats i _ hitem
  · exact h.laid.formats i format hold

theorem Charted.run (h : Charted setup w.attributes)
    (hrun : Relation.ReflTransGen (Refers survey) w v) : Charted setup v.attributes := by
  induction hrun with
  | refl => exact h
  | tail _ hstep ih =>
      obtain ⟨source, length, target, hrefers, hdone⟩ := hstep.exists_refersTo
      exact ih.referTo hmap htotal hrefers hdone

end Regions

end Data

namespace Flow

variable {ν σ : Type} {setup : Setup}

/-- Whatever the plugins do, the analysis leaves a chart. -/
theorem outcome_charted (hmap : setup.map.Valid)
    (htotal : setup.map.totalLength = setup.image.size) (panel : List (Plugin ν σ)) :
    Data.Charted setup (outcome setup panel).attributes :=
  ⟨outcome_laid hmap htotal panel, size_outcome setup panel,
    fun _ => outcome_address setup panel, fun _ => outcome_covered setup panel,
    fun _ _ => outcome_target_lt hmap htotal panel⟩

end Flow

namespace Project

open Data

variable {ν σ : Type} {project : Project}

theorem isUnbroken_of_formatFlaw? {size offset : Nat} {map : AddressMap} {attributes : Attributes}
    {format : Format} (h : formatFlaw? size map attributes offset format = none) :
    map.isUnbroken offset format.length = true := by
  by_contra hbroken
  rw [Bool.not_eq_true] at hbroken
  unfold formatFlaw? at h
  simp only [hbroken, Bool.not_false, if_true] at h
  repeat' split at h
  all_goals cases h

/-- What the user has said about the bytes keeps the chart. -/
theorem titled_charted (hmap : project.setup.map.Valid) {flow : Attributes}
    (h : Charted project.setup flow) : Charted project.setup (project.titled flow).attributes := by
  have hlabels : Charted project.setup
      (project.acceptLabels.1.foldl attachLabel (flow, project.acceptLabels.2)).1 := by
    refine List.foldlRecOn (motive := fun s : Attributes × Report => Charted project.setup s.1)
      _ _ h fun state hstate entry _ => ?_
    refine hstate.retitles (attachLabel_retitles state entry) fun i format hformat => ?_
    have hlt := lt_size_of_format hformat
    rw [(attachLabel_retitles state entry).size] at hlt
    rw [info_attachLabel state entry hlt] at hformat
    exact hstate.laid.formats i format hformat
  refine List.foldlRecOn (motive := fun s : Attributes × Report => Charted project.setup s.1)
    _ _ hlabels fun state hstate entry _ => ?_
  refine hstate.retitles (attachFormat_retitles state entry) fun i format hformat => ?_
  unfold attachFormat at hformat
  dsimp only at hformat
  split at hformat
  · exact hstate.laid.formats i format hformat
  · rename_i hflaw
    dsimp only at hformat
    rw [Attributes.info_update] at hformat
    split at hformat
    · rename_i hoffset
      cases hformat
      rw [← hoffset.1]
      exact hmap.whole_of_isUnbroken (isUnbroken_of_formatFlaw? hflaw)
    · exact hstate.laid.formats i format hformat

/-- **References keep their distance, unless they go forward past the start of a region.**  With a
valid map of the image, whatever the plugins do and the user has said, when a reference is made on
the walk over the image: the format it is given names the label that then stands at its place; the
label is in the region of the byte that the reference goes to, and so at the right distance from the
target exactly if that byte is; and if it is not, the target is an unlabelled byte of code, the
reference no branch or call, and the byte that it goes to one or two bytes further on, past the
start of a region. -/
theorem references_level (project : Project) (panel : List (Plugin ν σ))
    (hmap : project.setup.map.Valid)
    (htotal : project.setup.map.totalLength = project.setup.image.size) {w v : Workspace}
    (hrun : Relation.ReflTransGen (Refers project.survey)
      (project.titled (Flow.outcome project.setup panel).attributes) w)
    {source length target : Nat} (hrefers : RefersTo project.survey w source length target)
    (h : referTo project.survey source length target w = v.done) :
    let place := labelPlace project.survey w.attributes source target
    let near := nearTarget project.survey w.attributes source target
    (∃ symbol format, (v.info place).symbol = some symbol ∧ (v.info source).format = some format
        ∧ format.length = length ∧ format.label = some ⟨symbol.label, .low⟩)
      ∧ project.setup.map.SameRegion place near
      ∧ (v.attributes.Level place target ↔ v.attributes.Level near target)
      ∧ (v.attributes.Level place target
        ∨ MovedAcross project.survey w.attributes source target) := by
  intro place near
  have hcharted := (titled_charted hmap (Flow.outcome_charted hmap htotal panel)).run hmap htotal
    hrun
  have hsource : source < w.attributes.size := by
    cases hrefers with
    | operand hsource _ _ _ => exact hsource
    | item hsource _ _ _ => exact hsource
  have htarget : target < project.setup.image.size := hcharted.target_lt hmap htotal rfl hrefers
  have hregion : project.setup.map.SameRegion place near :=
    hcharted.labelPlace_sameRegion hmap htotal source htarget
  have hplace : place < w.attributes.size := by
    rw [hcharted.size, ← htotal]
    exact (hmap.lt_of_sameRegion hregion).1
  have hlevel : v.attributes.Level place target ↔ v.attributes.Level near target := by
    simp only [(referTo_retitles h).level_iff]
    exact (hcharted.level_of_sameRegion hmap htotal hregion).trans_iff
  refine ⟨referTo_label hsource hplace h, hregion, hlevel, ?_⟩
  rw [hlevel, (referTo_retitles h).level_iff]
  exact hcharted.nearTarget_cases hmap htotal rfl source htarget

/-- A store to the return that follows it, with a byte of data behind. -/
def storeBeforeData (map : AddressMap) : Project where
  setup :=
    { image := #[0x8d, 0x03, 0x10, 0x60, 0x01]
      processor := ⟨.nmos6502, true, OpcodeTable.blank.overlay
        [Layer.plain 0x8d .sta .abs .keep, Layer.op 0x60 .rts .stackRts .stop .keep]⟩
      map
      parameters := Parameters.initial
      hints := #[.code, .unset, .unset, .unset, .unset]
      overrides := #[]
      entryStatus := .indeterminate }
  platforms := []
  definitions := []
  labels := []
  formats := ∅
  comments := []

/-- What the data passes are given for the store. -/
def storeTitled (map : AddressMap) : Workspace :=
  (storeBeforeData map).titled
    (Flow.outcome (storeBeforeData map).setup ([] : List (Plugin Unit Unit))).attributes

/-- What the store's reference makes of it. -/
def storeReferred (map : AddressMap) : Data.Outcome :=
  referTo (storeBeforeData map).survey 0 3 3 (storeTitled map)

/-- The store's operand is the return, and its label is put on the data. -/
def StoreMoves (map : AddressMap) : Prop :=
  ((storeTitled map).attributes.size = 5 ∧ ((storeTitled map).info 0).isInstructionStart = true
    ∧ ((storeTitled map).info 0).format = none
    ∧ ((storeTitled map).info 0).operandOffset = some 3
    ∧ ((storeTitled map).info 0).instructionLength = 3)
    ∧ (storeReferred map).fault = none
    ∧ labelPlace (storeBeforeData map).survey (storeTitled map).attributes 0 3 = 4

instance (map : AddressMap) : Decidable (StoreMoves map) := inferInstanceAs (Decidable (_ ∧ _))

theorem StoreMoves.refersTo {map : AddressMap} (h : StoreMoves map) :
    RefersTo (storeBeforeData map).survey (storeTitled map) 0 3 3 := by
  obtain ⟨⟨hsize, hstart, hformat, htarget, hlength⟩, _⟩ := h
  have hrefers : RefersTo (storeBeforeData map).survey (storeTitled map) 0
      ((storeTitled map).info 0).instructionLength 3 :=
    .operand (by omega) hstart hformat htarget
  rwa [hlength] at hrefers

theorem StoreMoves.eq_done {map : AddressMap} (h : StoreMoves map) :
    storeReferred map = (storeReferred map).workspace.done := by
  rw [Workspace.done, ← h.2.1]

/-- In one region the label is on the data, one byte behind the return. -/
theorem references_level_storeBeforeData :
    let map : AddressMap := ⟨[⟨0, 5, 0x1000⟩], 5⟩
    let v := (storeReferred map).workspace
    map.Valid ∧ RefersTo (storeBeforeData map).survey (storeTitled map) 0 3 3
      ∧ storeReferred map = v.done
      ∧ labelPlace (storeBeforeData map).survey (storeTitled map).attributes 0 3 = 4
      ∧ (∃ symbol format, (v.info 4).symbol = some symbol ∧ (v.info 0).format = some format
        ∧ format.length = 3 ∧ format.label = some ⟨symbol.label, .low⟩)
      ∧ v.attributes.Level 4 3 := by
  intro map v
  have hmap : map.Valid := ⟨by decide, by decide, by decide⟩
  have hmoves : StoreMoves map := by decide +kernel
  obtain ⟨hlabel, _, _, hlevel⟩ := references_level (w := storeTitled map) (storeBeforeData map)
    ([] : List (Plugin Unit Unit)) hmap rfl .refl hmoves.refersTo hmoves.eq_done
  rw [hmoves.2.2] at hlabel hlevel
  refine ⟨hmap, hmoves.refersTo, hmoves.eq_done, hmoves.2.2, hlabel,
    hlevel.resolve_right fun hmoved => ?_⟩
  -- the only region starts at the first byte
  obtain ⟨i, hlow, _, hregion⟩ := hmoved.crossed
  have hstart : 0 = i := by
    simpa [AddressMap.isRegionStart, survey, storeBeforeData, map] using hregion
  omega

/-- If the data is in a region of its own, the label is at another distance in addresses. -/
theorem references_skewed :
    let map : AddressMap := ⟨[⟨0, 4, 0x1000⟩, ⟨4, 1, 0x2000⟩], 5⟩
    let v := (storeReferred map).workspace
    map.Valid ∧ RefersTo (storeBeforeData map).survey (storeTitled map) 0 3 3
      ∧ storeReferred map = v.done
      ∧ labelPlace (storeBeforeData map).survey (storeTitled map).attributes 0 3 = 4
      ∧ (v.info 4).symbol.map (·.label) = some "L2000"
      ∧ (v.info 0).format.bind (·.label) = some ⟨"L2000", .low⟩
      ∧ ¬ v.attributes.Level 4 3 := by
  intro map v
  have hmoves : StoreMoves map := by decide +kernel
  exact ⟨⟨by decide, by decide, by decide⟩, hmoves.refersTo, hmoves.eq_done, hmoves.2.2,
    by decide +kernel⟩

end Project

end Disasm65
