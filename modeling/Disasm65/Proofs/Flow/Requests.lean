/-
Requests are carried out as a whole or not at all.

What a plugin asks for is looked at from every side before anything is changed: the place, what is
there already, how it is to be shown, and what the bytes hold.  `OperandOpen` and `InlineOpen` are
all the conditions, and a request is carried out exactly if they are met (`decideOperand_eq_some`,
`decideInline_eq_some`).  One that is refused or declined leaves every attribute as it was; one that
is carried out sets one format, and for inline data the marks of the range.
-/
import Mathlib
import Disasm65.Proofs.AddressMap
import Disasm65.Proofs.Flow.Polling

namespace Disasm65

theorem FormatDetail.ne_symbol_of_isCharacter {detail : FormatDetail}
    (h : detail.isCharacter = true) : detail ≠ .symbol := by
  rintro rfl
  cases h

namespace Format

theorem create_eq_ok_iff {length : Nat} {kind : FormatKind} {detail : FormatDetail}
    {format : Format} :
    create length kind detail = .ok format
      ↔ flaw? length kind detail = none ∧ format = ⟨length, kind, detail, none⟩ := by
  unfold create
  split <;> rename_i hflaw <;> simp [hflaw, eq_comm]

theorem reference_eq_ok_iff {length : Nat} {ref : LabelRef} {bigEndian : Bool} {format : Format} :
    reference length ref bigEndian = .ok format
      ↔ (0 < length ∧ length ≤ maxNumberLength) ∧ ref.label ≠ ""
        ∧ format
          = ⟨length, if bigEndian then .bigEndian else .littleEndian, .symbol, some ref⟩ := by
  constructor
  · intro h
    obtain ⟨hlength, rfl⟩ := reference_eq_ok h
    refine ⟨hlength, fun hlabel => ?_, rfl⟩
    rw [reference, if_neg (by omega), if_pos hlabel] at h
    cases h
  · rintro ⟨hlength, hlabel, rfl⟩
    rw [reference, if_neg (by omega), if_neg hlabel]

section Flaws

variable {length : Nat} {kind : FormatKind} {detail : FormatDetail}

theorem flaw?_of_numeric (hkind : kind.isNumeric = true) :
    flaw? length kind detail = none
      ↔ (0 < length ∧ length ≤ maxNumberLength) ∧ detail ≠ .symbol ∧ detail ≠ .ignore
        ∧ detail.isAlignment = false := by
  cases kind <;> cases hkind <;> unfold flaw? <;> grind

theorem flaw?_of_string (hkind : kind.isString = true) (hdetail : detail.isCharacter = true) :
    flaw? length kind detail = none ↔ 0 < length := by
  have halign : detail.isAlignment = false := by cases detail <;> cases hdetail <;> rfl
  have hsymbol := FormatDetail.ne_symbol_of_isCharacter hdetail
  cases kind <;> cases hkind <;> simp [flaw?, halign, hsymbol, hdetail, Nat.pos_iff_ne_zero]

theorem flaw?_of_plain (hkind : kind = .dense ∨ kind = .fill) :
    flaw? length kind .plain = none ↔ 0 < length := by
  have halign : FormatDetail.plain.isAlignment = false := rfl
  rcases hkind with rfl | rfl <;> simp [flaw?, halign, Nat.pos_iff_ne_zero]

end Flaws

/-- What a plugin's request for a format comes to. -/
def requested (length : Nat) (kind : FormatKind) (detail : FormatDetail) (label : String) :
    Format :=
  ⟨length, kind, detail, if detail = .symbol then some ⟨label, .low⟩ else none⟩

end Format

namespace Flow

variable {setup : Setup} {attributes : Attributes} {offset length : Nat} {kind : FormatKind}
variable {detail : FormatDetail} {label : String} {format : Format}

/-! ### Operands -/

/-- The details that an operand can be shown with as it stands. -/
def plainOperands : List FormatDetail :=
  [.hex, .decimal, .binary, .address, .ascii, .highAscii, .petscii, .screenCode]

/-- What an operand can be shown as. -/
def ShownAsOperand (detail : FormatDetail) (label : String) : Prop :=
  detail ∈ plainOperands ∨ detail = .symbol ∧ label ≠ ""

/-- The operand at `offset` can be given a format. -/
structure OperandOpen (setup : Setup) (attributes : Attributes) (offset : Nat)
    (detail : FormatDetail) (label : String) : Prop where
  inside : offset < setup.image.size
  start : (attributes.info offset).isInstructionStart = true
  free : (attributes.info offset).format = none
  width : 0 < (attributes.info offset).instructionLength
    ∧ (attributes.info offset).instructionLength ≤ Format.maxNumberLength
  shown : ShownAsOperand detail label

/-- The details that are shown without a label can be those of a number. -/
theorem create_number (hlength : 0 < length ∧ length ≤ Format.maxNumberLength)
    (hdetail : detail ∈ plainOperands) :
    Format.create length .littleEndian detail
      = .ok (Format.requested length .littleEndian detail label) := by
  rw [Format.create_eq_ok_iff, Format.flaw?_of_numeric rfl]
  revert detail
  simp [plainOperands, hlength, Format.requested, FormatDetail.isAlignment,
    FormatDetail.alignment?]

theorem operandFormat_eq_some :
    operandFormat length detail label = .ok (some format)
      ↔ (0 < length ∧ length ≤ Format.maxNumberLength) ∧ ShownAsOperand detail label
        ∧ format = Format.requested length .littleEndian detail label := by
  constructor
  · intro h
    unfold operandFormat at h
    dsimp only at h
    split at h
    · split at h
      · cases h
      · rename_i hlabel
        obtain ⟨hlength, -, rfl⟩ := Format.reference_eq_ok_iff.mp (format_made h)
        exact ⟨hlength, Or.inr ⟨rfl, hlabel⟩, rfl⟩
    all_goals first
      | cases h
      | obtain ⟨hflaw, rfl⟩ := Format.create_eq_ok_iff.mp (format_made h)
        exact ⟨((Format.flaw?_of_numeric rfl).mp hflaw).1, Or.inl (by decide), rfl⟩
  · rintro ⟨hlength, hshown, rfl⟩
    rcases hshown with hdetail | ⟨rfl, hlabel⟩
    · have hmade : Format.create length .littleEndian detail
          = .ok (Format.requested length .littleEndian detail label) :=
        create_number hlength hdetail
      unfold operandFormat
      dsimp only
      rw [hmade]
      revert detail
      simp [plainOperands]
    · have hmade : Format.reference length ⟨label, .low⟩ false
          = .ok (Format.requested length .littleEndian .symbol label) :=
        Format.reference_eq_ok_iff.mpr ⟨hlength, hlabel, rfl⟩
      unfold operandFormat
      dsimp only
      rw [if_neg hlabel, hmade]

/-- A request to format an operand is carried out exactly if the operand is open to it. -/
theorem decideOperand_eq_some :
    decideOperand setup attributes offset detail label = .ok (some format)
      ↔ OperandOpen setup attributes offset detail label
        ∧ format = Format.requested (attributes.info offset).instructionLength .littleEndian detail
          label := by
  have hpasses (hfree : (attributes.info offset).format = none)
      (hstart : (attributes.info offset).isInstructionStart = true) :
      ¬ ((attributes.info offset).format.isSome
        || !(attributes.info offset).isInstructionStart) = true := by
    rw [hfree, hstart]
    decide
  constructor
  · intro h
    obtain ⟨hinside, hfree, hstart, _⟩ := decideOperand_eq_ok h
    rw [decideOperand, if_neg (by omega), if_neg (hpasses hfree hstart)] at h
    obtain ⟨hwidth, hshown, hformat⟩ := operandFormat_eq_some.mp h
    exact ⟨⟨hinside, hstart, hfree, hwidth, hshown⟩, hformat⟩
  · rintro ⟨⟨hinside, hstart, hfree, hwidth, hshown⟩, hformat⟩
    rw [decideOperand, if_neg (by omega), if_neg (hpasses hfree hstart)]
    exact operandFormat_eq_some.mpr ⟨hwidth, hshown, hformat⟩

/-! ### Inline data -/

/-- What inline data can be shown as: raw bytes, a string of a known encoding, or a number. -/
def ShownInline (length : Nat) (kind : FormatKind) (detail : FormatDetail) (label : String) :
    Prop :=
  (kind = .dense ∨ kind = .fill) ∧ detail = .plain
    ∨ kind.isString = true ∧ detail.isCharacter = true ∧ detail ≠ .anyAscii
    ∨ kind.isNumeric = true ∧ length ≤ Format.maxNumberLength ∧ detail ≠ .ignore
      ∧ detail.isAlignment = false ∧ (detail = .symbol → label ≠ "")

/-- The `length` bytes at `offset` can be claimed as inline data. -/
structure InlineOpen (setup : Setup) (attributes : Attributes) (offset length : Nat)
    (kind : FormatKind) (detail : FormatDetail) (label : String) : Prop where
  positive : 0 < offset ∧ 0 < length
  inside : offset + length ≤ setup.image.size
  region : ∃ region ∈ setup.map.regions,
    region.offset ≤ offset ∧ offset + length ≤ region.offset + region.length
  free : (attributes.info offset).format = none
  bytes : ∀ i, offset ≤ i → i < offset + length →
    (attributes.info i).isInstruction = false ∧ setup.hintAt i ≠ .code ∧ setup.hintAt i ≠ .data
  shown : ShownInline length kind detail label
  string : kind.isString = true → setup.image.stringFlaw? offset length kind = none
  fill : kind = .fill → setup.image.isFill offset length = true

theorem isClaimable_iff {i : Nat} :
    isClaimable setup attributes i = true
      ↔ (attributes.info i).isInstruction = false ∧ setup.hintAt i ≠ .code
        ∧ setup.hintAt i ≠ .data := by
  unfold isClaimable
  cases setup.hintAt i <;> simp

theorem holdsInline_iff {image : Image} :
    holdsInline image offset length kind = true
      ↔ (kind.isString = true → image.stringFlaw? offset length kind = none)
        ∧ (kind = .fill → image.isFill offset length = true) := by
  unfold holdsInline
  cases kind <;> simp [FormatKind.isString]

theorem inlineRefusal?_eq_none :
    inlineRefusal? length kind detail label = none
      ↔ (kind ≠ .unformatted ∧ kind ≠ .junk)
        ∧ (kind = .dense ∨ kind = .fill → detail = .plain)
        ∧ (kind.isString = true → detail.isCharacter = true ∧ detail ≠ .anyAscii)
        ∧ (kind.isNumeric = true → length ≤ Format.maxNumberLength)
        ∧ (detail = .symbol → label ≠ "") := by
  unfold inlineRefusal?
  grind

/-- The format that a claim gets. -/
def inlineFormat (length : Nat) (kind : FormatKind) (detail : FormatDetail) (label : String) :
    Except Fault Format :=
  if detail = .symbol then Format.reference length ⟨label, .low⟩ (kind == .bigEndian)
  else Format.create length kind detail

section Kinds

variable (hlength : 0 < length)

include hlength

theorem inlineFormat_of_raw (hkind : kind = .dense ∨ kind = .fill) :
    inlineFormat length kind .plain label = .ok (Format.requested length kind .plain label) := by
  rw [inlineFormat, if_neg (by decide), Format.create_eq_ok_iff, Format.flaw?_of_plain hkind]
  exact ⟨hlength, rfl⟩

theorem inlineFormat_of_string (hkind : kind.isString = true)
    (hdetail : detail.isCharacter = true) :
    inlineFormat length kind detail label = .ok (Format.requested length kind detail label) := by
  have hsymbol := FormatDetail.ne_symbol_of_isCharacter hdetail
  rw [inlineFormat, if_neg hsymbol, Format.create_eq_ok_iff,
    Format.flaw?_of_string hkind hdetail, Format.requested, if_neg hsymbol]
  exact ⟨hlength, rfl⟩

/-- A number can be shown with any detail but two, and as a label that has a name. -/
theorem inlineFormat_of_number (hkind : kind.isNumeric = true)
    (hwidth : length ≤ Format.maxNumberLength) (hlabel : detail = .symbol → label ≠ "") :
    inlineFormat length kind detail label = .ok format
      ↔ (detail ≠ .ignore ∧ detail.isAlignment = false)
        ∧ format = Format.requested length kind detail label := by
  by_cases hsymbol : detail = .symbol
  · have horder : (if (kind == .bigEndian) = true then FormatKind.bigEndian else .littleEndian)
        = kind := by
      cases kind <;> cases hkind <;> rfl
    rw [inlineFormat, if_pos hsymbol, Format.reference_eq_ok_iff, Format.requested, horder]
    subst hsymbol
    simp [hlength, hwidth, hlabel, FormatDetail.isAlignment, FormatDetail.alignment?]
  · rw [inlineFormat, if_neg hsymbol, Format.create_eq_ok_iff, Format.flaw?_of_numeric hkind,
      Format.requested, if_neg hsymbol]
    simp [hlength, hwidth, hsymbol]

/-- A claim is refused or gets its format, as it can be shown or not. -/
theorem inlineFormat_eq_ok :
    inlineRefusal? length kind detail label = none
        ∧ inlineFormat length kind detail label = .ok format
      ↔ ShownInline length kind detail label
        ∧ format = Format.requested length kind detail label := by
  have hgroups : (kind = .unformatted ∨ kind = .junk) ∨ (kind = .dense ∨ kind = .fill)
      ∨ kind.isString = true ∨ kind.isNumeric = true := by
    cases kind <;> decide
  rw [inlineRefusal?_eq_none]
  constructor
  · rintro ⟨⟨hkind, hraw, hstring, hnumber, hlabel⟩, hmade⟩
    rcases hgroups with hnone | hgroup | hgroup | hgroup
    · exact absurd hnone (not_or.mpr hkind)
    · obtain rfl := hraw hgroup
      rw [inlineFormat_of_raw hlength hgroup] at hmade
      exact ⟨Or.inl ⟨hgroup, rfl⟩, (Except.ok.inj hmade).symm⟩
    · obtain ⟨hdetail, hknown⟩ := hstring hgroup
      rw [inlineFormat_of_string hlength hgroup hdetail] at hmade
      exact ⟨Or.inr (Or.inl ⟨hgroup, hdetail, hknown⟩), (Except.ok.inj hmade).symm⟩
    · obtain ⟨hdetail, hformat⟩ :=
        (inlineFormat_of_number hlength hgroup (hnumber hgroup) hlabel).mp hmade
      exact ⟨Or.inr (Or.inr ⟨hgroup, hnumber hgroup, hdetail.1, hdetail.2, hlabel⟩), hformat⟩
  · rintro ⟨⟨hgroup, rfl⟩ | ⟨hgroup, hdetail, hknown⟩ | ⟨hgroup, hwidth, hignore, halign, hlabel⟩,
      rfl⟩
    · refine ⟨?_, inlineFormat_of_raw hlength hgroup⟩
      rcases hgroup with rfl | rfl <;> simp [FormatKind.isString, FormatKind.isNumeric]
    · refine ⟨?_, inlineFormat_of_string hlength hgroup hdetail⟩
      have hsymbol := FormatDetail.ne_symbol_of_isCharacter hdetail
      cases kind <;> cases hgroup <;> simp [FormatKind.isNumeric, hdetail, hknown, hsymbol]
    · refine ⟨?_, (inlineFormat_of_number hlength hgroup hwidth hlabel).mpr
        ⟨⟨hignore, halign⟩, rfl⟩⟩
      cases kind <;> cases hgroup <;> simpa [FormatKind.isString, hwidth] using hlabel

end Kinds

/-- A claim of inline data is carried out exactly if the bytes are open to it. -/
theorem decideInline_eq_some (hmap : setup.map.Valid) :
    decideInline setup attributes offset length kind detail label = .ok (some format)
      ↔ InlineOpen setup attributes offset length kind detail label
        ∧ format = Format.requested length kind detail label := by
  have hpasses (hunbroken : setup.map.isUnbroken offset length = true)
      (hfree : (attributes.info offset).format = none)
      (hclaimable : ∀ i, offset ≤ i → i < offset + length →
        isClaimable setup attributes i = true) :
      ¬ (!setup.map.isUnbroken offset length || (attributes.info offset).format.isSome
        || !(List.range' offset length).all (isClaimable setup attributes)) = true := by
    have hall : (List.range' offset length).all (isClaimable setup attributes) = true :=
      List.all_eq_true.mpr fun i hi =>
        hclaimable i (List.mem_range'_1.mp hi).1 (List.mem_range'_1.mp hi).2
    rw [hunbroken, hfree, hall]
    decide
  constructor
  · intro h
    obtain ⟨⟨hoffset, hlength, hinside⟩, hunbroken, hfree, hclaimable, _⟩ := decideInline_eq_ok h
    rw [decideInline, if_neg (by omega), if_neg (hpasses hunbroken hfree hclaimable)] at h
    split at h
    · cases h
    rename_i hrefusal
    split at h
    · cases h
    rename_i hholds
    rw [Bool.not_eq_true, Bool.not_eq_false', holdsInline_iff] at hholds
    obtain ⟨hshown, hformat⟩ := (inlineFormat_eq_ok hlength).mp ⟨hrefusal, format_made h⟩
    exact ⟨⟨⟨hoffset, hlength⟩, hinside, (hmap.isUnbroken_iff.mp hunbroken).2, hfree,
      fun i hlow hhigh => isClaimable_iff.mp (hclaimable i hlow hhigh), hshown, hholds.1, hholds.2⟩,
      hformat⟩
  · rintro ⟨hopen, hformat⟩
    obtain ⟨hoffset, hlength⟩ := hopen.positive
    have hinside := hopen.inside
    have hunbroken := hmap.isUnbroken_iff.mpr ⟨hlength, hopen.region⟩
    have hholds := holdsInline_iff.mpr ⟨hopen.string, hopen.fill⟩
    obtain ⟨hrefusal, hmade⟩ := (inlineFormat_eq_ok hlength).mpr ⟨hopen.shown, hformat⟩
    unfold inlineFormat at hmade
    rw [decideInline, if_neg (by omega), if_neg (hpasses hunbroken hopen.free
      fun i hlow hhigh => isClaimable_iff.mpr (hopen.bytes i hlow hhigh)), hrefusal]
    dsimp only
    rw [hholds, if_neg (by decide), hmade]

/-! ### Serving -/

/-- Byte `i` once the byte at `offset` has been given a format. -/
def withFormat (offset : Nat) (format : Format) (i : Nat) (a : Attribute) : Attribute :=
  if i = offset then { a with format := some format } else a

theorem info_update_format (hinside : offset < attributes.size) (i : Nat) :
    (attributes.update offset fun a => { a with format := some format }).info i
      = withFormat offset format i (attributes.info i) := by
  rw [Attributes.info_update, withFormat]
  by_cases hi : i = offset
  · rw [if_pos ⟨hi.symm, by omega⟩, if_pos hi]
  · rw [if_neg fun hc => hi hc.1.symm, if_neg hi]

/-- What serving a request to format an operand comes to. -/
structure OperandServed (setup : Setup) (attributes : Attributes) (offset : Nat)
    (detail : FormatDetail) (label : String) (served : Reply × Attributes) : Prop where
  /-- it is carried out exactly if the operand is open to it -/
  granted : served.1 = .ok true ↔ OperandOpen setup attributes offset detail label
  /-- or else nothing changes -/
  untouched : served.1 ≠ .ok true → served.2 = attributes
  size : served.2.size = attributes.size
  /-- the byte at `offset` gets a format of the instruction's length, and that is all -/
  changed : served.1 = .ok true → ∀ i, served.2.info i
    = withFormat offset
        (.requested (attributes.info offset).instructionLength .littleEndian detail label) i
        (attributes.info i)

theorem serveOperand_spec (hsize : attributes.size = setup.image.size) (offset : Nat)
    (detail : FormatDetail) (label : String) :
    OperandServed setup attributes offset detail label
      (serveOperand setup attributes offset detail label) := by
  have hopen : OperandOpen setup attributes offset detail label
      ↔ ∃ format, decideOperand setup attributes offset detail label = .ok (some format) :=
    ⟨fun h => ⟨_, decideOperand_eq_some.mpr ⟨h, rfl⟩⟩,
      fun ⟨_, h⟩ => (decideOperand_eq_some.mp h).1⟩
  unfold serveOperand
  split
  · rename_i hdecide
    exact ⟨by simp [hopen, hdecide], fun _ => rfl, rfl, fun h => by cases h⟩
  · rename_i hdecide
    exact ⟨by simp [hopen, hdecide], fun _ => rfl, rfl, fun h => by cases h⟩
  · rename_i format hdecide
    obtain ⟨⟨hinside, _⟩, rfl⟩ := decideOperand_eq_some.mp hdecide
    exact ⟨⟨fun _ => hopen.mpr ⟨_, hdecide⟩, fun _ => rfl⟩, fun h => absurd rfl h,
      Attributes.size_update .., fun _ => info_update_format (by omega)⟩

/-- What serving a claim of inline data comes to. -/
structure InlineServed (setup : Setup) (attributes : Attributes) (offset length : Nat)
    (kind : FormatKind) (detail : FormatDetail) (label : String) (served : Reply × Attributes) :
    Prop where
  /-- it is carried out exactly if the bytes are open to it -/
  granted : served.1 = .ok true ↔ InlineOpen setup attributes offset length kind detail label
  /-- or else nothing changes -/
  untouched : served.1 ≠ .ok true → served.2 = attributes
  size : served.2.size = attributes.size
  /-- the byte at `offset` gets a format of that length, the bytes of the range are marked, and that
  is all -/
  changed : served.1 = .ok true → ∀ i,
    let a := withFormat offset (.requested length kind detail label) i (attributes.info i)
    served.2.info i = if offset ≤ i ∧ i < offset + length then a.mark .inlineData else a

theorem serveInline_spec (hmap : setup.map.Valid)
    (hsize : attributes.size = setup.image.size) (offset length : Nat) (kind : FormatKind)
    (detail : FormatDetail) (label : String) :
    InlineServed setup attributes offset length kind detail label
      (serveInline setup attributes offset length kind detail label) := by
  have hopen : InlineOpen setup attributes offset length kind detail label
      ↔ ∃ format, decideInline setup attributes offset length kind detail label
        = .ok (some format) :=
    ⟨fun h => ⟨_, (decideInline_eq_some hmap).mpr ⟨h, rfl⟩⟩,
      fun ⟨_, h⟩ => ((decideInline_eq_some hmap).mp h).1⟩
  unfold serveInline
  split
  · rename_i hdecide
    exact ⟨by simp [hopen, hdecide], fun _ => rfl, rfl, fun h => by cases h⟩
  · rename_i hdecide
    exact ⟨by simp [hopen, hdecide], fun _ => rfl, rfl, fun h => by cases h⟩
  · rename_i format hdecide
    obtain ⟨⟨_, hinside, _⟩, rfl⟩ := (decideInline_eq_some hmap).mp hdecide
    have hlength := (hopen.mpr ⟨_, hdecide⟩).positive.2
    refine ⟨⟨fun _ => hopen.mpr ⟨_, hdecide⟩, fun _ => rfl⟩, fun h => absurd rfl h,
      (Attributes.size_updateRange ..).trans (Attributes.size_update ..), fun _ i => ?_⟩
    rw [Attributes.info_updateRange, info_update_format (by omega), Attributes.size_update]
    refine if_congr ?_ rfl rfl
    omega

/-- **A request is carried out as a whole or not at all.**  Whatever it is and whenever it is made,
it is carried out exactly if the operand or the bytes are open to it; otherwise no attribute
changes.  A request to format an operand that is carried out gives the instruction's first byte,
which had no format, one of the instruction's length.  A claim of inline data gives its first byte a
format of the length that was asked for, and marks that many bytes as inline data. -/
theorem requests_atomic (setup : Setup) (attributes : Attributes) (hmap : setup.map.Valid)
    (hcheck : setup.check attributes = .ok ()) :
    (∀ (offset : Nat) (detail : FormatDetail) (label : String),
      OperandServed setup attributes offset detail label
        (serveOperand setup attributes offset detail label))
      ∧ ∀ (offset length : Nat) (kind : FormatKind) (detail : FormatDetail) (label : String),
        InlineServed setup attributes offset length kind detail label
          (serveInline setup attributes offset length kind detail label) := by
  obtain ⟨hsize, _⟩ := check_eq_ok.mp hcheck
  exact ⟨serveOperand_spec hsize, serveInline_spec hmap hsize⟩

/-- Behind a call that has been decoded three bytes can be claimed; with the return behind them they
are no string. -/
theorem requests_atomic_argumentCall :
    let attributes := ((Attributes.blank 7).update 0 fun a =>
      { a.mark .instructionStart with instructionLength := 3 }).updateRange 0 3 claimByte
    let inline := serveInline argumentCall attributes 3 3 .dense .plain ""
    let string := serveInline argumentCall attributes 3 4 .nullTerminated .ascii ""
    argumentCall.map.Valid ∧ argumentCall.check attributes = .ok ()
      ∧ OperandOpen argumentCall attributes 0 .hex ""
      ∧ InlineOpen argumentCall attributes 3 3 .dense .plain ""
      ∧ inline.2.info 5 = (attributes.info 5).mark .inlineData
      ∧ inline.2.info 6 = attributes.info 6
      ∧ ¬ InlineOpen argumentCall attributes 3 4 .nullTerminated .ascii ""
      ∧ string.2 = attributes := by
  intro attributes inline string
  have hmap : argumentCall.map.Valid := ⟨by decide, by decide, by decide⟩
  have hcheck : argumentCall.check attributes = .ok () := by decide +kernel
  obtain ⟨hoperand, hinline⟩ := requests_atomic argumentCall attributes hmap hcheck
  have hgranted : inline.1 = .ok true := by decide +kernel
  have hdeclined : string.1 ≠ .ok true := by decide +kernel
  have hchanged := (hinline 3 3 .dense .plain "").changed hgranted
  refine ⟨hmap, hcheck, (hoperand 0 .hex "").granted.mp (by decide +kernel),
    (hinline 3 3 .dense .plain "").granted.mp hgranted, ?_, ?_,
    fun hopen => hdeclined ((hinline 3 4 .nullTerminated .ascii "").granted.mpr hopen),
    (hinline 3 4 .nullTerminated .ascii "").untouched hdeclined⟩
  · rw [hchanged 5, if_pos (by decide), withFormat, if_neg (by decide)]
  · rw [hchanged 6, if_neg (by decide), withFormat, if_neg (by decide)]

end Flow

end Disasm65
