/-
Resolving operands and addresses in what a project hands over.

A format of the user that is attached stays inside the image and covers no code unless it is that of
a whole instruction.  So the walk over the image comes to every instruction and ends.  A format for
an address that is built as one of a number has at most four bytes, and with such formats the walk
can only run out of labels, or come to a label that is empty (`resolution_complete`).  A format that
is built from the width of a symbol may be longer, and an address of more than four bytes ends the
analysis (`resolution_fault`).
-/
import Mathlib
import Disasm65.Proofs.Data.Resolution
import Disasm65.Proofs.Flow.Spans
import Disasm65.Proofs.Project.Distances
import Disasm65.Proofs.Project.UserFormats

namespace Disasm65

/-! ### Lengths -/

/-- An instruction is no longer than a number. -/
theorem AddressMode.length_bounds (mode : AddressMode) (status : StatusFlags) :
    0 < mode.length status ∧ mode.length status ≤ Format.maxNumberLength := by
  unfold length Format.maxNumberLength
  cases mode <;> dsimp only <;> first | omega | (split <;> omega)

namespace Format

/-- The format is built as one that refers to no label. -/
def IsCreated (format : Format) : Prop :=
  ∃ length kind detail, create length kind detail = .ok format

/-- The format is built as a reference to a label. -/
def IsReference (format : Format) : Prop :=
  ∃ length ref bigEndian, reference length ref bigEndian = .ok format

/-- The format is built from the width of a symbol. -/
def IsWidth (format : Format) : Prop := ∃ width detail, ofWidth width detail = .ok format

variable {format : Format}

theorem IsCreated.length_bounds (h : format.IsCreated)
    (hkind : format.kind = .littleEndian ∨ format.kind = .bigEndian) :
    0 < format.length ∧ format.length ≤ maxNumberLength := by
  obtain ⟨length, kind, detail, hcreate⟩ := h
  unfold create at hcreate
  split at hcreate
  · cases hcreate
  rename_i hflaw
  cases hcreate
  unfold flaw? at hflaw
  rcases hkind with hkind | hkind <;> dsimp only at hkind ⊢ <;> subst hkind
  all_goals
    split at hflaw
    · cases hflaw
    split at hflaw
    · cases hflaw
    split at hflaw
    · cases hflaw
    dsimp only at hflaw
    split at hflaw
    · cases hflaw
    · omega

theorem IsReference.detail_eq (h : format.IsReference) : format.detail = .symbol := by
  obtain ⟨length, ref, bigEndian, hreference⟩ := h
  rw [(reference_eq_ok hreference).2]

theorem IsWidth.kind_eq (h : format.IsWidth) :
    0 < format.length ∧ format.kind = .littleEndian := by
  obtain ⟨width, detail, hwidth⟩ := h
  unfold ofWidth at hwidth
  split at hwidth
  · cases hwidth
  split at hwidth
  · cases hwidth
    exact ⟨by dsimp only; omega, rfl⟩
  · cases hwidth

end Format

namespace Project

open Data

variable {ν σ : Type} {project : Project} {symbols : SymbolTable} {i : Nat}

/-! ### Formats that are handed over -/

theorem Fits.retitles {setup : Flow.Setup} {attributes other : Attributes} {format : Format}
    (hfits : Fits setup attributes i format) (h : Retitles attributes other) :
    Fits setup other i format := by
  refine ⟨hfits.nonempty, hfits.inside, hfits.region, ?_⟩
  rcases hfits.place with ⟨hstart, hlength, hplace⟩ | hdata
  · refine Or.inl ⟨?_, ?_, hplace⟩
    · rw [Attribute.isInstructionStart, h.marks]
      exact hstart
    · rw [(h.byte i).instructionLength]
      exact hlength
  · refine Or.inr fun j hlow hhigh => ?_
    rw [Attribute.isInstruction, h.marks]
    exact hdata j hlow hhigh

/-- A byte has the user's format, if there is one that fits, and else the one that it was left
with. -/
theorem titled_format_cases {flow : Attributes} (hmap : project.setup.map.Valid)
    (hsize : flow.size = project.setup.image.size) (hcoded : ∀ i, (flow.info i).Coded)
    (hwords : project.EndsInWords) (i : Nat) :
    (∃ format, project.formats[i]? = some format
        ∧ Fits project.setup (project.titled flow).attributes i format
        ∧ ((project.titled flow).info i).format = some format)
      ∨ (∀ format, project.formats[i]? = some format →
          ¬ Fits project.setup (project.titled flow).attributes i format)
        ∧ ((project.titled flow).info i).format = (flow.info i).format := by
  have hlabels : Retitles flow (project.acceptLabels.1.foldl attachLabel
      (flow, project.acceptLabels.2)).1 :=
    foldl_retitles attachLabel_retitles project.acceptLabels.1 (flow, project.acceptLabels.2)
  have hformats : Retitles (project.acceptLabels.1.foldl attachLabel
      (flow, project.acceptLabels.2)).1 (project.titled flow).attributes :=
    foldl_retitles attachFormat_retitles project.formats.toList _
  have hsame := foldl_attachLabel_format project.acceptLabels.1 (flow, project.acceptLabels.2) i
  obtain ⟨_, _, hattachment⟩ := foldl_attachFormat_attachment hmap (hlabels.size.trans hsize)
    (fun j => (hcoded j).congr fun m _ => by rw [hlabels.marks]) project.formats hwords
    (project.acceptLabels.1.foldl attachLabel (flow, project.acceptLabels.2)).2
  cases hget : project.formats[i]? with
  | none =>
      refine Or.inr ⟨fun _ hformat => (by cases hformat), ?_⟩
      exact (congrArg Attribute.format (hattachment.others i hget).1).trans hsame
  | some format =>
      by_cases hfits : Fits project.setup (project.acceptLabels.1.foldl attachLabel
          (flow, project.acceptLabels.2)).1 i format
      · exact Or.inl ⟨format, rfl, hfits.retitles hformats,
          congrArg Attribute.format (hattachment.attached i format hget hfits).1⟩
      · refine Or.inr ⟨fun other hother => ?_, ?_⟩
        · cases hother
          exact fun h => hfits (h.retitles hformats.symm)
        · exact (congrArg Attribute.format (hattachment.reported i format hget hfits).1).trans hsame

/-- What the data passes are given after control has been followed, with some table. -/
def draft (project : Project) (flow : Attributes) (symbols : SymbolTable) : Workspace :=
  ⟨(project.titled flow).attributes, symbols⟩

/-- An address of more than four bytes, in a format of the user that is attached, at a byte that the
walk comes to. -/
structure WideAddress (project : Project) (w : Workspace) (i : Nat) (format : Format) : Prop where
  given : project.formats[i]? = some format
  fits : Fits project.setup w.attributes i format
  reached : Reached w.attributes i
  width : format.IsWidth
  long : Format.maxNumberLength < format.length
  address : ∃ target, IsAddressOf project.survey i (w.info i) format target

section Draft

variable {flow : Attributes}
variable (hflow : flow = (Flow.outcome project.setup ([] : List (Plugin ν σ))).attributes)

include hflow

/-- An instruction that is handed over is as long as its opcode says. -/
theorem draft_length (hstart : ((project.draft flow symbols).info i).isInstructionStart = true) :
    0 < ((project.draft flow symbols).info i).instructionLength
      ∧ ((project.draft flow symbols).info i).instructionLength ≤ Format.maxNumberLength := by
  have hretitles := titled_retitles project flow
  have hlength : ((project.draft flow symbols).info i).instructionLength
      = (flow.info i).instructionLength := (hretitles.byte i).instructionLength
  have hfirst : (flow.info i).isInstructionStart = true := by
    rw [Attribute.isInstructionStart, ← hretitles.marks]
    exact hstart
  rw [hlength]
  subst hflow
  rw [Flow.outcome_length project.setup hfirst]
  exact AddressMode.length_bounds _ _

/-- What starts an instruction is code. -/
theorem draft_code (hcode : ((project.draft flow symbols).info i).isInstruction = false) :
    ((project.draft flow symbols).info i).isInstructionStart = false := by
  have hretitles := titled_retitles project flow
  have hmarks : ((project.draft flow symbols).info i).marks = (flow.info i).marks :=
    hretitles.marks i
  rw [Attribute.isInstruction, hmarks] at hcode
  rw [Attribute.isInstructionStart, hmarks]
  subst hflow
  by_contra hstart
  have hboth := (Flow.outcome_coded project.setup ([] : List (Plugin ν σ)) i).start
    (by simpa using hstart)
  exact absurd (hcode.symm.trans hboth) Bool.false_ne_true

variable (hmap : project.setup.map.Valid) (hwords : project.EndsInWords)

include hmap hwords

/-- Where no instruction starts there is a format of the user that covers no code, or a byte of
inline data that is shown as a number. -/
theorem draft_item {format : Format}
    (hstart : ((project.draft flow symbols).info i).isInstructionStart = false)
    (hformat : ((project.draft flow symbols).info i).format = some format) :
    (project.formats[i]? = some format
        ∧ Fits project.setup (project.draft flow symbols).attributes i format
        ∧ ∀ j, i ≤ j → j < i + format.length →
          ((project.draft flow symbols).info j).isInstruction = false)
      ∨ format = .oneByteNumber := by
  subst hflow
  rcases titled_format_cases hmap (Flow.size_outcome project.setup ([] : List (Plugin ν σ)))
    (Flow.outcome_coded project.setup []) hwords i with ⟨user, hget, hfits, huser⟩ | ⟨_, hleft⟩
  · obtain rfl := Option.some.inj (hformat.symm.trans huser)
    refine Or.inl ⟨hget, hfits, ?_⟩
    rcases hfits.place with ⟨hfirst, _⟩ | hdata
    · exact absurd (hstart.symm.trans hfirst) Bool.false_ne_true
    · exact hdata
  · have hsome := hformat.symm.trans hleft
    rcases (Flow.outcome_finished project.setup i).format with hnone | ⟨_, hnumber⟩
    · cases hsome.trans hnone
    · exact Or.inr (Option.some.inj (hsome.trans hnumber))

/-- An item covers no instruction. -/
theorem draft_clear (i : Nat) (format : Format)
    (hstart : ((project.draft flow symbols).info i).isInstructionStart = false)
    (hformat : ((project.draft flow symbols).info i).format = some format) (j : Nat) (hlow : i < j)
    (hhigh : j < i + format.length) :
    ((project.draft flow symbols).info j).isInstructionStart = false := by
  rcases draft_item hflow hmap hwords hstart hformat with ⟨_, _, hdata⟩ | rfl
  · exact draft_code hflow (hdata j (Nat.le_of_lt hlow) hhigh)
  · have hone : Format.oneByteNumber.length = 1 := rfl
    omega

/-- A format that is too long for a label is that of a wide address. -/
theorem draft_wide
    (hformats : ∀ (i : Nat) (format : Format), project.formats[i]? = some format →
      format.IsCreated ∨ format.IsReference ∨ format.IsWidth)
    (hreached : Reached (project.draft flow symbols).attributes i) {length target : Nat}
    (hrefers : RefersTo project.survey (project.draft flow symbols) i length target)
    (hlength : length = 0 ∨ Format.maxNumberLength < length) :
    ∃ format, WideAddress project (project.draft flow symbols) i format
      ∧ length = format.length := by
  cases hrefers with
  | operand _ hstart _ _ =>
      have := draft_length hflow hstart
      omega
  | @item _ format _ hstart hformat htarget =>
      refine ⟨format, ?_, rfl⟩
      rcases draft_item hflow hmap hwords hstart hformat with ⟨hget, hfits, _⟩ | rfl
      · have hitem := (itemTarget?_eq_some_iff project.survey hfits.inside).mp htarget
        rcases hformats i format hget with hcreated | hreference | hwidth
        · have := hcreated.length_bounds hitem.kind
          omega
        · cases hreference.detail_eq.symm.trans hitem.detail
        · have := hwidth.kind_eq.1
          exact ⟨hget, hfits, hreached, hwidth, by omega, target, hitem⟩
      · cases htarget

/-- A wide address refers to the image. -/
theorem WideAddress.refersTo {format : Format}
    (h : WideAddress project (project.draft flow symbols) i format) :
    ∃ target, RefersTo project.survey (project.draft flow symbols) i format.length target := by
  obtain ⟨target, hitem⟩ := h.address
  have hnonempty := h.fits.nonempty
  have hstart : ((project.draft flow symbols).info i).isInstructionStart = false := by
    rcases h.fits.place with ⟨hstart, hlength, _⟩ | hdata
    · have hbound := (draft_length hflow hstart).2
      have hlong := h.long
      rw [hlength] at hlong
      exact absurd hlong (Nat.not_lt.mpr hbound)
    · exact draft_code hflow (hdata i (Nat.le_refl i) (by omega))
  have hformat : ((project.draft flow symbols).info i).format = some format := by
    have hfits := h.fits
    subst hflow
    rcases titled_format_cases hmap (Flow.size_outcome project.setup ([] : List (Plugin ν σ)))
      (Flow.outcome_coded project.setup []) hwords i with ⟨user, hget, _, huser⟩ | ⟨hnot, _⟩
    · rw [h.given, Option.some.injEq] at hget
      exact hget ▸ huser
    · exact absurd hfits (hnot format h.given)
  exact ⟨target, .item (lt_size_of_format hformat) hstart hformat
    ((itemTarget?_eq_some_iff project.survey h.fits.inside).mpr hitem)⟩

variable (htotal : project.setup.map.totalLength = project.setup.image.size)

include htotal

/-- **The walk can be taken over what a project hands over.** -/
theorem draft_walkable : Walkable project.survey (project.draft flow symbols) := by
  have hretitles := titled_retitles project flow
  have hsize : (project.draft flow symbols).attributes.size = project.setup.image.size := by
    rw [← Flow.size_outcome project.setup ([] : List (Plugin ν σ)), ← hflow]
    exact hretitles.size
  have hcharted : Charted project.setup (project.draft flow symbols).attributes :=
    titled_charted hmap (hflow ▸ Flow.outcome_charted hmap htotal [])
  refine ⟨fun j => ?_, by have := hmap.word; omega, fun j length target hrefers => ?_,
    fun j hstart => ?_, fun j format hformat => ?_⟩
  · by_cases hj : j < project.setup.image.size
    · rw [Workspace.info, hcharted.address j hj]
      cases haddress : project.setup.map.addressOf? j with
      | none => decide
      | some address =>
          obtain ⟨region, _, rfl⟩ := Option.map_eq_some_iff.mp haddress
          exact wrap32_lt _
    · rw [Workspace.info, Attributes.info_of_size_le (by omega)]
      decide
  · rw [hsize]
    exact hcharted.target_lt hmap htotal rfl hrefers
  · have hlength : ((project.draft flow symbols).info j).instructionLength
        = (flow.info j).instructionLength := (hretitles.byte j).instructionLength
    have hfirst : (flow.info j).isInstructionStart = true := by
      rw [Attribute.isInstructionStart, ← hretitles.marks]
      exact hstart
    rw [hsize, hlength]
    subst hflow
    exact ((Flow.outcome_laid hmap htotal []).starts j hfirst).1
  · have hlt := lt_size_of_format hformat
    subst hflow
    rcases titled_format_cases hmap (Flow.size_outcome project.setup ([] : List (Plugin ν σ)))
      (Flow.outcome_coded project.setup []) hwords j with ⟨user, _, hfits, huser⟩ | ⟨_, hleft⟩
    · obtain rfl := Option.some.inj (hformat.symm.trans huser)
      rw [hsize]
      exact hfits.inside
    · rcases (Flow.outcome_finished project.setup j).format with hnone | ⟨_, hnumber⟩
      · cases (hformat.symm.trans hleft).trans hnone
      · cases (hformat.symm.trans hleft).trans hnumber
        exact hlt

omit hmap hwords in
/-- Where no label of the user is empty no byte has an empty one. -/
theorem draft_named (hlabels : ∀ entry ∈ project.labels, entry.2.label ≠ "") :
    ¬ Nameless (project.draft flow symbols) := by
  rintro ⟨j, symbol, hs, hempty⟩
  subst hflow
  obtain ⟨user, hmem, hsymbol⟩ := (acceptLabels_admitted project).given (j, symbol)
    ((titled_symbol htotal ([] : List (Plugin ν σ)) j symbol).mp hs)
  dsimp only at hsymbol
  rw [hsymbol] at hempty
  exact hlabels _ hmem hempty

end Draft

/-! ### The two results -/

/-- **A format of the user ends the resolving of operands and addresses only if it is a wide
address.**  Without plugins, with labels that are not empty and formats however they are built, and
whatever the table holds, the walk over the image that is handed over ends by itself.  It fails only
if there are no more labels, or at a wide address, with a fault that names its length; and if it
comes to a wide address, it fails. -/
theorem resolution_fault (project : Project) {flow : Flow.State ν σ}
    (hflow : Flow.analyze project.setup [] (.blank project.setup.image.size) = .ok flow)
    (hmap : project.setup.map.Valid)
    (hlabels : ∀ entry ∈ project.labels, entry.2.label ≠ "")
    (hformats : ∀ (i : Nat) (format : Format), project.formats[i]? = some format →
      format.IsCreated ∨ format.IsReference ∨ format.IsWidth) {handed : Attributes × Report}
    (hhanded : project.attachUserData project.acceptLabels.1
      (flow.attributes, project.acceptLabels.2) = .ok handed) (symbols : SymbolTable) :
    let w : Workspace := ⟨handed.1, symbols⟩
    (∀ more, resolveFrom project.survey (walkFuel w.attributes.size + more) 0 w
        = resolveTargets project.survey w)
      ∧ (∀ fault, (resolveTargets project.survey w).fault = some fault →
        (∃ base, fault = .labelsExhausted base)
          ∨ ∃ i format, WideAddress project w i format ∧ fault = .referenceLength format.length)
      ∧ ((∃ i format, WideAddress project w i format) →
        (resolveTargets project.survey w).fault ≠ none) := by
  intro w
  obtain ⟨hcheck, rfl⟩ := Flow.analyze_eq_ok.mp hflow
  obtain ⟨hwords, rfl⟩ := attachUserData_eq_ok.mp hhanded
  have htotal := (Flow.check_eq_ok.mp hcheck).2.1
  have hwalkable : Walkable project.survey w := draft_walkable rfl hmap hwords htotal
  have hnamed : ¬ Nameless w := draft_named rfl htotal hlabels
  obtain ⟨hmore, hends⟩ := resolveTargets_spec hwalkable
  refine ⟨hmore, fun fault hfault => ?_, ?_⟩
  · rcases hends with ⟨_, hstop, hstops⟩ | ⟨v, hdone, _⟩
    · obtain rfl := Option.some.inj (hfault.symm.trans hstop)
      rcases hstops with
        hbase | ⟨hnameless, -⟩ | ⟨i, length, target, hreached, hrefers, hlength, rfl⟩
      · exact Or.inl hbase
      · exact absurd hnameless hnamed
      · obtain ⟨format, hwide, rfl⟩ := draft_wide rfl hmap hwords hformats hreached hrefers hlength
        exact Or.inr ⟨i, format, hwide, rfl⟩
    · rw [hdone] at hfault
      cases hfault
  · rintro ⟨i, format, hwide⟩ hnone
    obtain ⟨target, hrefers⟩ := hwide.refersTo rfl hmap hwords
    rcases hends with ⟨_, hstop, _⟩ | ⟨v, _, _, hanswered, _⟩
    · cases hnone.symm.trans hstop
    · have hbound := ((hanswered i hwide.reached).refers _ _ hrefers).1.2
      exact absurd hwide.long (Nat.not_lt.mpr hbound)

/-- A load from a table of three addresses: one low byte first, one high byte first and one of five
bytes. -/
def addressTable (formats : Std.TreeMap Nat Format) : Project where
  setup :=
    { image := #[0xad, 0x06, 0x10, 0x60, 0x06, 0x10, 0x10, 0x00, 0x00, 0x10, 0x00, 0x00, 0x00]
      processor := ⟨.nmos6502, true, OpcodeTable.blank.overlay
        [Layer.plain 0xad .lda .abs .keep, Layer.op 0x60 .rts .stackRts .stop .keep]⟩
      map := ⟨[⟨0, 13, 0x1000⟩], 13⟩
      parameters := .initial
      hints := #[.code] ++ Array.replicate 12 .unset
      overrides := #[]
      entryStatus := .indeterminate }
  platforms := []
  definitions := []
  labels := [(4, ⟨"TABLE", 0, .user, .localOrGlobal, .plain⟩)]
  formats := formats
  comments := []

theorem analyze_addressTable (formats : Std.TreeMap Nat Format) :
    Flow.analyze (addressTable formats).setup ([] : List (Plugin Unit Unit))
        (.blank (addressTable formats).setup.image.size)
      = .ok (Flow.outcome (addressTable formats).setup []) :=
  Flow.analyze_eq_ok.mpr
    ⟨Flow.check_eq_ok.mpr ⟨Attributes.size_blank _, rfl, Or.inl rfl, Or.inr rfl⟩, rfl⟩

/-- What holds of all entries holds of what is found. -/
theorem forall_of_toList {formats : Std.TreeMap Nat Format} {p : Nat × Format → Prop}
    (h : ∀ entry ∈ formats.toList, p entry) (i : Nat) (format : Format)
    (hget : formats[i]? = some format) : p (i, format) :=
  h (i, format) (Std.TreeMap.mem_toList_iff_getElem?_eq_some.mpr hget)

/-- What is handed over if all formats end at words. -/
theorem attachUserData_of_toList {flow : Attributes}
    (h : ∀ entry ∈ project.formats.toList, entry.1 + entry.2.length < 0x10000000000000000) :
    project.attachUserData project.acceptLabels.1 (flow, project.acceptLabels.2)
      = .ok (project.attached flow) :=
  attachUserData_eq_ok.mpr ⟨fun i format hget _ => forall_of_toList h i format hget, rfl⟩

/-- The five bytes as one address. -/
def wideFormats : Std.TreeMap Nat Format :=
  .ofList [(4, (⟨2, .littleEndian, .address, none⟩ : Format)),
    (8, ⟨5, .littleEndian, .address, none⟩)]

theorem resolution_fault_wideFormats :
    let w : Workspace := ⟨((addressTable wideFormats).attached (Flow.outcome
      (addressTable wideFormats).setup ([] : List (Plugin Unit Unit))).attributes).1, .empty⟩
    WideAddress (addressTable wideFormats) w 8 ⟨5, .littleEndian, .address, none⟩
      ∧ (resolveTargets (addressTable wideFormats).survey w).fault ≠ none := by
  intro w
  obtain ⟨hget, hdata, hreached, haddress⟩ :
      (addressTable wideFormats).formats[8]? = some ⟨5, .littleEndian, .address, none⟩
        ∧ firstCode? w.attributes 8 13 = none
        ∧ (follow w.attributes)^[7] 0 = 8
        ∧ itemTarget? (addressTable wideFormats).survey 8 (w.info 8)
          ⟨5, .littleEndian, .address, none⟩ = some 0 := by
    decide +kernel
  have hwide : WideAddress (addressTable wideFormats) w 8 ⟨5, .littleEndian, .address, none⟩ :=
    ⟨hget, ⟨by decide, by decide, ⟨⟨0, 13, 0x1000⟩, by decide, by decide⟩,
      Or.inr (firstCode?_eq_none.mp hdata)⟩, ⟨7, hreached⟩, ⟨5, .address, rfl⟩, by decide,
      0, (itemTarget?_eq_some_iff _ (by decide)).mp haddress⟩
  have hbuilt : ∀ entry ∈ wideFormats.toList,
      entry.2.IsCreated ∨ entry.2.IsReference ∨ entry.2.IsWidth := by
    have hlist : wideFormats.toList = [(4, ⟨2, .littleEndian, .address, none⟩),
      (8, ⟨5, .littleEndian, .address, none⟩)] := by decide +kernel
    rw [hlist]
    intro entry hentry
    fin_cases hentry
    · exact Or.inl ⟨2, .littleEndian, .address, rfl⟩
    · exact Or.inr (Or.inr ⟨5, .address, rfl⟩)
  exact ⟨hwide, (resolution_fault (addressTable wideFormats) (analyze_addressTable _)
    ⟨by decide, by decide, by decide⟩ (by decide) (forall_of_toList hbuilt)
    (attachUserData_of_toList (by decide +kernel)) .empty).2.2 ⟨8, _, hwide⟩⟩

/-- **A format of the user can end the analysis.**  It is built from a width, fits its bytes, and is
too long for the label that it comes to stand for. -/
theorem exists_aborting_format :
    ∃ (project : Project) (format : Format) (handed : Attributes × Report),
      Format.ofWidth 5 .address = .ok format ∧ project.formats[8]? = some format
        ∧ project.attachUserData project.acceptLabels.1 ((Flow.outcome project.setup
          ([] : List (Plugin Unit Unit))).attributes, project.acceptLabels.2) = .ok handed
        ∧ (handed.1.info 8).format = some format
        ∧ (resolveTargets project.survey ⟨handed.1, project.initialSymbols
          project.acceptLabels.1⟩).fault = some (.referenceLength 5) :=
  ⟨addressTable wideFormats, ⟨5, .littleEndian, .address, none⟩, _, rfl, by decide +kernel,
    attachUserData_of_toList (by decide +kernel), by decide +kernel⟩

/-- **Operands and addresses are resolved completely, and nothing else is touched.**  Without
plugins, with formats that are built as numbers, text or references, and whatever the table holds,
the walk over the image that is handed over ends by itself.  If it does not run out of labels and
does not come to an empty one, every instruction without a format whose operand is in the image, and
every address of a byte of the image that the walk comes to, refers to a label, and labels have been
added; all else is as it was. -/
theorem resolution_complete (project : Project) {flow : Flow.State ν σ}
    (hflow : Flow.analyze project.setup [] (.blank project.setup.image.size) = .ok flow)
    (hmap : project.setup.map.Valid)
    (hformats : ∀ (i : Nat) (format : Format), project.formats[i]? = some format →
      format.IsCreated ∨ format.IsReference) {handed : Attributes × Report}
    (hhanded : project.attachUserData project.acceptLabels.1
      (flow.attributes, project.acceptLabels.2) = .ok handed) (symbols : SymbolTable) :
    let w : Workspace := ⟨handed.1, symbols⟩
    (∀ more, resolveFrom project.survey (walkFuel w.attributes.size + more) 0 w
        = resolveTargets project.survey w)
      ∧ ((∃ base, (resolveTargets project.survey w).fault = some (.labelsExhausted base))
        ∨ (Nameless w
          ∧ (resolveTargets project.survey w).fault = some .referenceWithoutLabel)
        ∨ ∃ v, resolveTargets project.survey w = v.done ∧ Resolves project.survey w v) := by
  intro w
  obtain ⟨hcheck, rfl⟩ := Flow.analyze_eq_ok.mp hflow
  obtain ⟨hwords, rfl⟩ := attachUserData_eq_ok.mp hhanded
  have htotal := (Flow.check_eq_ok.mp hcheck).2.1
  have hwalkable : Walkable project.survey w := draft_walkable rfl hmap hwords htotal
  have hsize : w.attributes.size = project.setup.image.size :=
    (titled_retitles project _).size.trans (Flow.size_outcome project.setup [])
  obtain ⟨hmore, hends⟩ := resolveTargets_spec hwalkable
  refine ⟨hmore, ?_⟩
  rcases hends with ⟨fault, hfault, hstops⟩ | ⟨v, hdone, _⟩
  · rcases hstops with ⟨base, rfl⟩ | ⟨hnameless, rfl⟩ |
      ⟨i, length, target, hreached, hrefers, hlength, _⟩
    · exact Or.inl ⟨base, hfault⟩
    · exact Or.inr (Or.inl ⟨hnameless, hfault⟩)
    · -- a wide address is not built as a number or a reference
      exfalso
      obtain ⟨format, hwide, rfl⟩ := draft_wide rfl hmap hwords
        (fun i format hget => (hformats i format hget).imp_right Or.inl) hreached hrefers hlength
      obtain ⟨_, hitem⟩ := hwide.address
      rcases hformats i format hwide.given with hcreated | hreference
      · exact absurd hwide.long (Nat.not_lt.mpr (hcreated.length_bounds hitem.kind).2)
      · cases hreference.detail_eq.symm.trans hitem.detail
  · exact Or.inr (Or.inr ⟨v, hdone, hwalkable.resolves hsize (draft_clear rfl hmap hwords) hdone⟩)

/-- The first two addresses as such. -/
def shortFormats : Std.TreeMap Nat Format :=
  .ofList [(4, (⟨2, .littleEndian, .address, none⟩ : Format)), (6, ⟨2, .bigEndian, .address, none⟩)]

theorem resolution_complete_shortFormats :
    let w : Workspace := ⟨((addressTable shortFormats).attached (Flow.outcome
      (addressTable shortFormats).setup ([] : List (Plugin Unit Unit))).attributes).1, .empty⟩
    ∃ v, resolveTargets (addressTable shortFormats).survey w = v.done
      ∧ (∃ place symbol, (v.info place).symbol = some symbol
        ∧ (v.info 0).format = some ⟨3, .littleEndian, .symbol, some ⟨symbol.label, .low⟩⟩)
      ∧ (∃ place symbol, (v.info place).symbol = some symbol
        ∧ (v.info 6).format = some ⟨2, .bigEndian, .symbol, some ⟨symbol.label, .low⟩⟩)
      ∧ Extends w v := by
  intro w
  have hbuilt : ∀ entry ∈ shortFormats.toList, entry.2.IsCreated ∨ entry.2.IsReference := by
    have hlist : shortFormats.toList = [(4, ⟨2, .littleEndian, .address, none⟩),
      (6, ⟨2, .bigEndian, .address, none⟩)] := by decide +kernel
    rw [hlist]
    intro entry hentry
    fin_cases hentry
    · exact Or.inl ⟨2, .littleEndian, .address, rfl⟩
    · exact Or.inl ⟨2, .bigEndian, .address, rfl⟩
  obtain ⟨hnone, ⟨hstart, hplain, htarget, hlength⟩, hreached, hitem, hformat, haddress⟩ :
      (resolveTargets (addressTable shortFormats).survey w).fault = none
        ∧ ((w.info 0).isInstructionStart = true ∧ (w.info 0).format = none
          ∧ (w.info 0).operandOffset = some 6 ∧ (w.info 0).instructionLength = 3)
        ∧ (follow w.attributes)^[5] 0 = 6 ∧ (w.info 6).isInstructionStart = false
        ∧ (w.info 6).format = some ⟨2, .bigEndian, .address, none⟩
        ∧ itemTarget? (addressTable shortFormats).survey 6 (w.info 6)
          ⟨2, .bigEndian, .address, none⟩ = some 0 := by
    decide +kernel
  rcases (resolution_complete (addressTable shortFormats) (analyze_addressTable _)
    ⟨by decide, by decide, by decide⟩ (forall_of_toList hbuilt)
    (attachUserData_of_toList (by decide +kernel)) .empty).2 with
    ⟨base, hbase⟩ | ⟨-, hempty⟩ | ⟨v, hv, h⟩
  · cases hnone.symm.trans hbase
  · cases hnone.symm.trans hempty
  · have hoperand := h.operands 0 6 hstart hplain htarget
    rw [hlength] at hoperand
    exact ⟨v, hv, hoperand, h.items 6 ⟨2, .bigEndian, .address, none⟩ 0 ⟨5, hreached⟩ hitem hformat
      ((itemTarget?_eq_some_iff _ (by decide)).mp haddress), h.labels⟩

/-- The byte that the load refers to has an empty label. -/
def namelessTable : Project :=
  { addressTable ∅ with labels := [(6, ⟨"", 0, .user, .localOrGlobal, .plain⟩)] }

/-- Raw bytes from the fifth byte on, as many as there are words but for two. -/
def endlessFormats : Std.TreeMap Nat Format :=
  .ofList [(4, (⟨0xfffffffffffffffe, .dense, .plain, none⟩ : Format))]

/-- **Not all that can be given is resolved.**  A label that is empty stops the walk at the operand
that refers to its byte.  And with a format that can be built but ends past the last word nothing is
handed over. -/
theorem resolution_stopped :
    (∃ handed, namelessTable.attachUserData namelessTable.acceptLabels.1
          ((Flow.outcome namelessTable.setup ([] : List (Plugin Unit Unit))).attributes,
            namelessTable.acceptLabels.2) = .ok handed
        ∧ (resolveTargets namelessTable.survey ⟨handed.1, .empty⟩).fault
          = some .referenceWithoutLabel)
      ∧ endlessFormats[4]?.map Except.ok = some (Format.create 0xfffffffffffffffe .dense .plain)
      ∧ ∀ handed, (addressTable endlessFormats).attachUserData
          (addressTable endlessFormats).acceptLabels.1
          ((Flow.outcome (addressTable endlessFormats).setup
            ([] : List (Plugin Unit Unit))).attributes,
            (addressTable endlessFormats).acceptLabels.2) ≠ .ok handed := by
  refine ⟨⟨_, attachUserData_of_toList (by decide +kernel), by decide +kernel⟩,
    by decide +kernel, fun handed h => ?_⟩
  have hword := (attachUserData_eq_ok.mp h).1 4 ⟨0xfffffffffffffffe, .dense, .plain, none⟩
    (by decide +kernel) (by decide)
  exact absurd hword (by decide)

end Project

end Disasm65
