/-
What becomes of the formats of the user.

The formats are attached one after the other to the attributes that following control has left, and
each is checked against the attributes as they are then.  The check reads nothing that an attached
format changes: what is code is neither data nor inline data, so the length of an instruction is
never that of a format.  Hence each format is judged as if it were the only one, and the judgement
is whether it fits (`Fits`): a format is attached and not mentioned, or left out and reported once
(`formats_judged`).
-/
import Mathlib
import Disasm65.Proofs.AddressMap
import Disasm65.Proofs.Flow.Polling
import Disasm65.Proofs.Project.Stages

namespace Disasm65

namespace Project

open Data

/-- The format of the user fits the bytes at its offset.  They are bytes of the image in one region;
and the format is for a whole instruction that has an operand, which it can show, or for bytes of
which none is code. -/
structure Fits (setup : Flow.Setup) (attributes : Attributes) (offset : Nat) (format : Format) :
    Prop where
  nonempty : 0 < format.length
  inside : offset + format.length ≤ setup.image.size
  region : ∃ region ∈ setup.map.regions,
    region.offset ≤ offset ∧ offset + format.length ≤ region.offset + region.length
  place : ((attributes.info offset).isInstructionStart = true
      ∧ format.length = (attributes.info offset).instructionLength ∧ format.length ≠ 1
      ∧ (format.kind = .unformatted ∨ format.kind = .littleEndian))
    ∨ ∀ i, offset ≤ i → i < offset + format.length → (attributes.info i).isInstruction = false

/-! ### The check -/

section Check

variable {size : Nat} {map : AddressMap} {attributes other : Attributes}

theorem firstCode?_eq_none {offset stop : Nat} :
    firstCode? attributes offset stop = none
      ↔ ∀ i, offset ≤ i → i < stop → (attributes.info i).isInstruction = false := by
  unfold firstCode?
  rw [List.find?_eq_none]
  constructor
  · intro hall i hlow hhigh
    have hmem : i ∈ (List.range (stop - offset)).map (offset + ·) :=
      List.mem_map.mpr ⟨i - offset, List.mem_range.mpr (by omega), by omega⟩
    simpa using hall i hmem
  · intro hall i hi
    obtain ⟨k, hk, rfl⟩ := List.mem_map.mp hi
    rw [List.mem_range] at hk
    rw [hall (offset + k) (by omega) (by omega)]
    exact Bool.false_ne_true

/-- An instruction has its own length, whatever format it has. -/
theorem length_of_start {a : Attribute} (ha : a.Coded) (hstart : a.isInstructionStart = true) :
    a.length = a.instructionLength := by
  obtain ⟨hdata, hinline⟩ := ha.code (ha.start hstart)
  rw [Attribute.length, hdata, hinline]
  rfl

/-- The check does not read what labels and formats change. -/
theorem formatFlaw?_retitles (hcoded : ∀ i, (attributes.info i).Coded)
    (h : Retitles attributes other) (offset : Nat) (format : Format) :
    formatFlaw? size map other offset format = formatFlaw? size map attributes offset format := by
  have hmarks : ∀ i m, (other.info i).marks.has m = (attributes.info i).marks.has m :=
    fun i m => by rw [h.marks]
  have hcode : firstCode? other offset = firstCode? attributes offset := by
    funext stop
    unfold firstCode? Attribute.isInstruction
    simp only [hmarks]
  have hinstruction : (other.info offset).isInstruction = (attributes.info offset).isInstruction :=
    hmarks offset .instruction
  have hstart : (other.info offset).isInstructionStart
      = (attributes.info offset).isInstructionStart := hmarks offset .instructionStart
  have hlength : (attributes.info offset).isInstructionStart = true →
      (other.info offset).length = (attributes.info offset).length := by
    intro hfirst
    rw [length_of_start ((hcoded offset).congr fun m _ => hmarks offset m) (hstart.trans hfirst),
      length_of_start (hcoded offset) hfirst, (h.byte offset).instructionLength]
  unfold formatFlaw?
  dsimp only
  rw [hcode, hstart, hinstruction]
  by_cases hfirst : (attributes.info offset).isInstructionStart = true
  · rw [hlength hfirst]
  · rw [if_neg hfirst, if_neg hfirst]

theorem fitsInstruction_iff {format : Format} :
    format.fitsInstruction = true ↔ format.kind = .unformatted ∨ format.kind = .littleEndian := by
  simp [Format.fitsInstruction]

/-- A format that the check passes fits. -/
theorem fits_of_formatFlaw? {setup : Flow.Setup} (hmap : setup.map.Valid)
    {offset : Nat} (hcoded : (attributes.info offset).Coded) {format : Format}
    (h : formatFlaw? setup.image.size setup.map attributes offset format = none) :
    Fits setup attributes offset format := by
  unfold formatFlaw? at h
  dsimp only at h
  split at h
  · cases h
  split at h
  · cases h
  rename_i hinside
  split at h
  · cases h
  rename_i hwhole
  obtain ⟨hlength, hregion⟩ := hmap.isUnbroken_iff.mp (by simpa using hwhole)
  refine ⟨hlength, Nat.le_of_not_lt hinside, hregion, ?_⟩
  split at h
  · rename_i hstart
    rw [length_of_start hcoded hstart] at h
    split at h
    · cases h
    rename_i hsame
    split at h
    · cases h
    rename_i hone
    split at h
    · cases h
    rename_i hfits
    exact Or.inl ⟨hstart, not_not.mp hsame, hone, fitsInstruction_iff.mp (by simpa using hfits)⟩
  · split at h
    · cases h
    split at h
    · cases h
    · rename_i hfree
      exact Or.inr (firstCode?_eq_none.mp hfree)

/-- **The check passes the formats that fit.** -/
theorem formatFlaw?_eq_none_iff {setup : Flow.Setup} (hmap : setup.map.Valid)
    {offset : Nat} (hcoded : (attributes.info offset).Coded) {format : Format} :
    formatFlaw? setup.image.size setup.map attributes offset format = none
      ↔ Fits setup attributes offset format := by
  refine ⟨fits_of_formatFlaw? hmap hcoded, ?_⟩
  rintro ⟨hlength, hinside, hregion, hplace⟩
  unfold formatFlaw?
  dsimp only
  rw [if_neg (by omega), if_neg (by omega), hmap.isUnbroken_iff.mpr ⟨hlength, hregion⟩,
    Bool.not_true, if_neg Bool.false_ne_true]
  rcases hplace with ⟨hstart, hsame, hone, hfits⟩ | hfree
  · rw [if_pos hstart, length_of_start hcoded hstart, if_neg (not_not.mpr hsame), if_neg hone,
      fitsInstruction_iff.mpr hfits]
    rfl
  · -- where an instruction starts there is code
    have hcode := hfree offset (Nat.le_refl _) (by omega)
    rw [hcoded.start_eq_false hcode, hcode, if_neg Bool.false_ne_true,
      if_neg Bool.false_ne_true, firstCode?_eq_none.mpr hfree]

end Check

/-! ### One format after the other -/

section Attaching

variable {size : Nat} {map : AddressMap} {attributes : Attributes}

/-- The message about a format of the user, if it is left out. -/
def formatMessage? (size : Nat) (map : AddressMap) (attributes : Attributes)
    (entry : Nat × Format) : Option Message :=
  (formatFlaw? size map attributes entry.1 entry.2).map fun flaw =>
    ⟨flaw.1, entry.1, flaw.2.1, flaw.2.2, .formatIgnored⟩

theorem formatMessage?_eq_some {entry : Nat × Format} {message : Message}
    (h : formatMessage? size map attributes entry = some message) :
    message.offset = entry.1 ∧ message.resolution = .formatIgnored := by
  obtain ⟨flaw, _, rfl⟩ := Option.map_eq_some_iff.mp h
  exact ⟨rfl, rfl⟩

theorem attachFormat_report (state : Attributes × Report) (entry : Nat × Format) :
    (attachFormat size map state entry).2
      = state.2 ++ (formatMessage? size map state.1 entry).toList := by
  unfold attachFormat formatMessage?
  dsimp only
  split
  · rename_i severity topic context hflaw
    rw [hflaw]
    rfl
  · rename_i hflaw
    rw [hflaw]
    exact (List.append_nil _).symm

/-- A byte gets the format that is meant for it, if the check passes it. -/
theorem info_attachFormat (state : Attributes × Report) (entry : Nat × Format) {i : Nat}
    (hi : i < state.1.size) :
    (attachFormat size map state entry).1.info i
      = if entry.1 = i ∧ formatFlaw? size map state.1 entry.1 entry.2 = none then
          { state.1.info i with format := some entry.2 }
        else state.1.info i := by
  unfold attachFormat
  dsimp only
  split
  · rename_i hflaw
    rw [if_neg fun hc => by rw [hflaw] at hc; cases hc.2]
  · rename_i hflaw
    rw [Attributes.info_update]
    simp [hflaw, hi]

/-- The report about formats in a row is about each of them on its own. -/
theorem foldl_attachFormat_messages (hcoded : ∀ i, (attributes.info i).Coded) :
    ∀ (entries : List (Nat × Format)) (state : Attributes × Report),
      Retitles attributes state.1 →
      (entries.foldl (attachFormat size map) state).2
        = state.2 ++ entries.filterMap (formatMessage? size map attributes) := by
  intro entries
  induction entries with
  | nil =>
      intro state _
      exact (List.append_nil _).symm
  | cons entry entries ih =>
      intro state hstate
      have hsame : formatMessage? size map state.1 entry
          = formatMessage? size map attributes entry := by
        rw [formatMessage?, formatFlaw?_retitles hcoded hstate, ← formatMessage?]
      rw [List.foldl_cons, ih _ (hstate.trans (attachFormat_retitles state entry)),
        attachFormat_report, hsame, List.append_assoc, List.filterMap_cons]
      cases formatMessage? size map attributes entry <;> rfl

/-- Formats for other bytes leave a byte alone. -/
theorem info_foldl_attachFormat_of_ne {i : Nat} :
    ∀ (entries : List (Nat × Format)) (state : Attributes × Report), i < state.1.size →
      (∀ entry ∈ entries, entry.1 ≠ i) →
      (entries.foldl (attachFormat size map) state).1.info i = state.1.info i := by
  intro entries
  induction entries with
  | nil => exact fun _ _ _ => rfl
  | cons entry entries ih =>
      intro state hi hne
      have hsize : (attachFormat size map state entry).1.size = state.1.size :=
        (attachFormat_retitles state entry).size
      rw [List.foldl_cons, ih _ (hsize.symm ▸ hi) fun e he => hne e (List.mem_cons_of_mem _ he),
        info_attachFormat state entry hi, if_neg fun hc => hne entry List.mem_cons_self hc.1]

/-- A byte gets the one format that is meant for it, if the check passes it at first. -/
theorem info_foldl_attachFormat (hcoded : ∀ i, (attributes.info i).Coded) {i : Nat}
    {format : Format} :
    ∀ (entries : List (Nat × Format)) (state : Attributes × Report),
      Retitles attributes state.1 → i < state.1.size → (entries.map (·.1)).Nodup →
      (i, format) ∈ entries →
      (entries.foldl (attachFormat size map) state).1.info i
        = if formatFlaw? size map attributes i format = none then
            { state.1.info i with format := some format }
          else state.1.info i := by
  intro entries
  induction entries with
  | nil =>
      intro state _ _ _ hmem
      cases hmem
  | cons entry entries ih =>
      intro state hstate hi hnodup hmem
      have hretitles : Retitles state.1 (attachFormat size map state entry).1 :=
        attachFormat_retitles state entry
      have hi' : i < (attachFormat size map state entry).1.size := hretitles.size.symm ▸ hi
      rw [List.map_cons, List.nodup_cons] at hnodup
      rw [List.foldl_cons]
      rcases List.mem_cons.mp hmem with rfl | hmem
      · rw [info_foldl_attachFormat_of_ne entries _ hi' fun e he heq =>
            hnodup.1 (List.mem_map.mpr ⟨e, he, heq⟩),
          info_attachFormat state _ hi, formatFlaw?_retitles hcoded hstate]
        simp
      · have hne : entry.1 ≠ i := fun heq =>
          hnodup.1 (List.mem_map.mpr ⟨(i, format), hmem, heq.symm⟩)
        have hsame : (attachFormat size map state entry).1.info i = state.1.info i := by
          rw [info_attachFormat state entry hi, if_neg fun hc => hne hc.1]
        rw [ih _ (hstate.trans hretitles) hi' hnodup.2 hmem, hsame]

/-- The messages about the format at an offset are those about the entry of that offset. -/
theorem filter_messages {i : Nat} :
    ∀ entries : List (Nat × Format),
      (entries.filterMap (formatMessage? size map attributes)).filter (fun m => m.offset == i)
        = (entries.filter fun entry => entry.1 == i).filterMap
          (formatMessage? size map attributes) := by
  intro entries
  induction entries with
  | nil => rfl
  | cons entry entries ih =>
      cases hmessage : formatMessage? size map attributes entry with
      | none =>
          rw [List.filterMap_cons_none hmessage, ih]
          by_cases hi : entry.1 = i
          · rw [List.filter_cons_of_pos (by simpa using hi), List.filterMap_cons_none hmessage]
          · rw [List.filter_cons_of_neg (by simpa using hi)]
      | some message =>
          have hoffset := (formatMessage?_eq_some hmessage).1
          rw [List.filterMap_cons_some hmessage]
          by_cases hi : entry.1 = i
          · rw [List.filter_cons_of_pos (by simpa [hoffset] using hi),
              List.filter_cons_of_pos (by simpa using hi), List.filterMap_cons_some hmessage, ih]
          · rw [List.filter_cons_of_neg (by simpa [hoffset] using hi),
              List.filter_cons_of_neg (by simpa using hi), ih]

theorem nodup_keys {α : Type} (formats : Std.TreeMap Nat α) :
    (formats.toList.map (·.1)).Nodup :=
  List.pairwise_map.mpr (Std.TreeMap.distinct_keys_toList.imp fun hne heq =>
    hne (Std.LawfulEqCmp.compare_eq_iff_eq.mpr heq))

/-- A map has one entry at most for an offset. -/
theorem filter_toList {α : Type} (formats : Std.TreeMap Nat α) (i : Nat) :
    (formats.toList.filter fun entry => entry.1 == i) = (formats[i]?.map (Prod.mk i)).toList := by
  have hmem : ∀ a, (i, a) ∈ formats.toList ↔ formats[i]? = some a := fun a =>
    Std.TreeMap.mem_toList_iff_getElem?_eq_some
  have hsingle : ∀ l : List (Nat × α), (l.map (·.1)).Nodup → ∀ a, (i, a) ∈ l →
      (l.filter fun entry => entry.1 == i) = [(i, a)] := by
    intro l
    induction l with
    | nil =>
        intro _ a ha
        cases ha
    | cons entry l ih =>
        intro hnodup a ha
        rw [List.map_cons, List.nodup_cons] at hnodup
        rcases List.mem_cons.mp ha with rfl | ha
        · have hrest : (l.filter fun entry => entry.1 == i) = [] := by
            rw [List.filter_eq_nil_iff]
            intro e he heq
            exact hnodup.1 (List.mem_map.mpr ⟨e, he, by simpa using heq⟩)
          rw [List.filter_cons_of_pos (by simp), hrest]
        · have hne : entry.1 ≠ i := fun heq =>
            hnodup.1 (List.mem_map.mpr ⟨(i, a), ha, heq.symm⟩)
          rw [List.filter_cons_of_neg (by simpa using hne), ih hnodup.2 a ha]
  cases hget : formats[i]? with
  | none =>
      rw [Option.map_none, Option.toList_none, List.filter_eq_nil_iff]
      rintro ⟨j, a⟩ ha heq
      obtain rfl : j = i := by simpa using heq
      rw [(hmem a).mp ha] at hget
      cases hget
  | some a => exact hsingle _ (nodup_keys formats) a ((hmem a).mpr hget)

end Attaching

/-! ### All formats -/

/-- What attaching the formats of the user makes of `attributes`, and what it reports. -/
structure Attachment (setup : Flow.Setup) (attributes : Attributes)
    (formats : Std.TreeMap Nat Format) (after : Attributes) (messages : Report) : Prop where
  size : after.size = attributes.size
  /-- A byte without a format of the user stays as it is. -/
  others : ∀ i, formats[i]? = none →
    after.info i = attributes.info i ∧ messages.filter (fun m => m.offset == i) = []
  /-- A format that fits is attached, and that is all. -/
  attached : ∀ i format, formats[i]? = some format → Fits setup attributes i format →
    after.info i = { attributes.info i with format := some format }
      ∧ messages.filter (fun m => m.offset == i) = []
  /-- One that does not is reported, and that is all. -/
  reported : ∀ i format, formats[i]? = some format → ¬ Fits setup attributes i format →
    after.info i = attributes.info i
      ∧ ∃ message, messages.filter (fun m => m.offset == i) = [message]
        ∧ message.resolution = .formatIgnored
  /-- Both are as they would be if there were no other format. -/
  alone : ∀ i format, formats[i]? = some format →
    ∃ single, takeFormat setup.image.size setup.map (attributes, []) (i, format) = .ok single
      ∧ after.info i = single.1.info i ∧ messages.filter (fun m => m.offset == i) = single.2

section All

variable {setup : Flow.Setup} {attributes : Attributes} {i : Nat} {format : Format}

/-- A format that fits is attached. -/
theorem attachFormat_of_fits (hmap : setup.map.Valid)
    (hsize : attributes.size = setup.image.size) (hcoded : (attributes.info i).Coded)
    (hfits : Fits setup attributes i format) :
    let single := attachFormat setup.image.size setup.map (attributes, []) (i, format)
    single.1.info i = { attributes.info i with format := some format } ∧ single.2 = [] := by
  have hnone := (formatFlaw?_eq_none_iff hmap hcoded).mpr hfits
  have hlength := hfits.nonempty
  have hinside := hfits.inside
  refine ⟨?_, ?_⟩
  · rw [info_attachFormat _ _ (by dsimp only; omega), if_pos ⟨rfl, hnone⟩]
  · rw [attachFormat_report, formatMessage?, hnone]
    rfl

/-- One that does not is reported. -/
theorem attachFormat_of_not_fits (hmap : setup.map.Valid) (hcoded : (attributes.info i).Coded)
    (hfits : ¬ Fits setup attributes i format) :
    let single := attachFormat setup.image.size setup.map (attributes, []) (i, format)
    single.1.info i = attributes.info i
      ∧ ∃ message, single.2 = [message] ∧ message.resolution = .formatIgnored := by
  have hsome := mt (formatFlaw?_eq_none_iff hmap hcoded).mp hfits
  obtain ⟨flaw, hflaw⟩ := Option.ne_none_iff_exists'.mp hsome
  obtain ⟨message, hmessage⟩ : ∃ message, formatMessage? setup.image.size setup.map attributes
      (i, format) = some message := ⟨_, by rw [formatMessage?, hflaw]; rfl⟩
  refine ⟨?_, message, ?_, (formatMessage?_eq_some hmessage).2⟩
  · by_cases hi : i < attributes.size
    · rw [info_attachFormat _ _ hi, if_neg fun hc => hsome hc.2]
    · exact (attachFormat_retitles _ _).info_of_size_le (Nat.le_of_not_lt hi)
  · rw [attachFormat_report, hmessage]
    rfl

/-- A byte without a format is left alone by all of them. -/
theorem info_foldl_attachFormat_of_none (formats : Std.TreeMap Nat Format) (report : Report)
    (hget : formats[i]? = none) :
    (formats.toList.foldl (attachFormat setup.image.size setup.map) (attributes, report)).1.info i
      = attributes.info i := by
  by_cases hi : i < attributes.size
  · refine info_foldl_attachFormat_of_ne _ _ hi fun entry hentry heq => ?_
    rw [← heq, Std.TreeMap.mem_toList_iff_getElem?_eq_some.mp (show (entry.1, entry.2) ∈ _ from
      hentry)] at hget
    cases hget
  · exact (foldl_retitles attachFormat_retitles _ (attributes, report)).info_of_size_le
      (Nat.le_of_not_lt hi)

/-- A byte with a format fares as if there were no other format. -/
theorem info_foldl_attachFormat_alone (hcoded : ∀ i, (attributes.info i).Coded)
    (formats : Std.TreeMap Nat Format) (report : Report) (hget : formats[i]? = some format) :
    (formats.toList.foldl (attachFormat setup.image.size setup.map) (attributes, report)).1.info i
      = (attachFormat setup.image.size setup.map (attributes, []) (i, format)).1.info i := by
  by_cases hi : i < attributes.size
  · rw [info_foldl_attachFormat hcoded _ _ (.refl _) hi (nodup_keys formats)
      (Std.TreeMap.mem_toList_iff_getElem?_eq_some.mpr hget), info_attachFormat _ _ hi]
    simp
  · have hout := Nat.le_of_not_lt hi
    rw [(foldl_retitles attachFormat_retitles _ (attributes, report)).info_of_size_le hout,
      (attachFormat_retitles (attributes, []) _).info_of_size_le hout]

/-- The messages about a format are those that there would be without any other. -/
theorem filter_messages_toList (size : Nat) (map : AddressMap) (attributes : Attributes)
    (formats : Std.TreeMap Nat Format) (i : Nat) :
    (formats.toList.filterMap (formatMessage? size map attributes)).filter
        (fun m => m.offset == i)
      = formats[i]?.elim [] fun format =>
          (attachFormat size map (attributes, []) (i, format)).2 := by
  rw [filter_messages, filter_toList]
  cases formats[i]? with
  | none => rfl
  | some format =>
      rw [Option.elim_some, attachFormat_report, List.nil_append]
      cases hmessage : formatMessage? size map attributes (i, format) with
      | none => exact List.filterMap_cons_none hmessage
      | some message => exact List.filterMap_cons_some hmessage

/-- Formats are attached to attributes in which code is nothing else. -/
theorem foldl_attachFormat_attachment (hmap : setup.map.Valid)
    (hsize : attributes.size = setup.image.size) (hcoded : ∀ i, (attributes.info i).Coded)
    (formats : Std.TreeMap Nat Format)
    (hword : ∀ i format, formats[i]? = some format → i < setup.image.size →
      i + format.length < 0x10000000000000000)
    (report : Report) :
    ∃ messages,
      (formats.toList.foldl (attachFormat setup.image.size setup.map) (attributes, report)).2
        = report ++ messages
      ∧ Attachment setup attributes formats
        (formats.toList.foldl (attachFormat setup.image.size setup.map) (attributes, report)).1
        messages := by
  have hfilter := filter_messages_toList setup.image.size setup.map attributes formats
  refine ⟨_, foldl_attachFormat_messages hcoded _ _ (.refl _),
    (foldl_retitles attachFormat_retitles _ (attributes, report)).size, fun i hget => ?_,
    fun i format hget hfits => ?_, fun i format hget hfits => ?_, fun i format hget => ?_⟩
  · rw [hfilter, hget]
    exact ⟨info_foldl_attachFormat_of_none formats report hget, rfl⟩
  · rw [hfilter, hget, info_foldl_attachFormat_alone hcoded formats report hget]
    exact attachFormat_of_fits hmap hsize (hcoded i) hfits
  · rw [hfilter, hget, info_foldl_attachFormat_alone hcoded formats report hget]
    exact attachFormat_of_not_fits hmap (hcoded i) hfits
  · rw [hfilter, hget, info_foldl_attachFormat_alone hcoded formats report hget]
    exact ⟨_, takeFormat_eq_ok.mpr ⟨hword i format hget, rfl⟩, rfl, rfl⟩

end All

/-- **Every format of the user is attached or reported once, on its own merits.**  Whatever the
plugins have done while control was followed, and as long as the formats for bytes of the image end
at words, all are taken.  A format is attached exactly if it fits; then it is what its byte gets,
and no message is about it.  Otherwise the byte stays as it is and there is one message, which says
that the format is left out.  No other format has a say in this, and nothing else changes. -/
theorem formats_judged {ν σ : Type} (setup : Flow.Setup) (panel : List (Plugin ν σ))
    {flow : Flow.State ν σ}
    (hflow : Flow.analyze setup panel (.blank setup.image.size) = .ok flow)
    (hmap : setup.map.Valid) (formats : Std.TreeMap Nat Format)
    (hword : ∀ i format, formats[i]? = some format → i < setup.image.size →
      i + format.length < 0x10000000000000000) (report : Report) :
    ∃ after messages,
      formats.toList.foldlM (takeFormat setup.image.size setup.map) (flow.attributes, report)
        = .ok (after, report ++ messages)
      ∧ Attachment setup flow.attributes formats after messages := by
  obtain ⟨_, rfl⟩ := Flow.analyze_eq_ok.mp hflow
  obtain ⟨messages, hreport, hattachment⟩ := foldl_attachFormat_attachment hmap
    (Flow.size_outcome setup panel) (Flow.outcome_coded setup panel) formats hword report
  refine ⟨_, messages, (foldlM_takeFormat_eq_ok _ _).mpr ⟨?_, ?_⟩, hattachment⟩
  · rintro ⟨i, format⟩ hentry
    exact hword i format (Std.TreeMap.mem_toList_iff_getElem?_eq_some.mp hentry)
  · rw [← hreport]

/-- Formats for the call, for its first operand byte, and for two ranges of its arguments that have
a byte in common. -/
def argumentFormats : Std.TreeMap Nat Format :=
  .ofList [(0, (⟨3, .littleEndian, .hex, none⟩ : Format)), (1, .oneByte),
    (3, ⟨2, .dense, .plain, none⟩), (4, ⟨2, .bigEndian, .address, none⟩)]

/-- After a plugin has taken the arguments of a call, three formats are attached, and the one for an
operand byte is reported. -/
theorem formats_judged_argumentFormats :
    let setup := Flow.argumentCall
    let flow := Flow.outcome setup [Flow.argumentTaker 3 false]
    ∃ after messages, argumentFormats.toList.foldlM (takeFormat setup.image.size setup.map)
        (flow.attributes, []) = .ok (after, messages)
      ∧ (flow.attributes.info 3).isInlineData = true
      ∧ (∀ i ∈ [0, 3, 4], (after.info i).format = argumentFormats[i]?)
      ∧ after.info 1 = flow.attributes.info 1
      ∧ ∃ message, messages.filter (fun m => m.offset == 1) = [message]
        ∧ message.resolution = .formatIgnored := by
  intro setup flow
  have hvalid : setup.map.Valid := ⟨by decide, by decide, by decide⟩
  have hall : ∀ entry ∈ argumentFormats.toList,
      entry.1 + entry.2.length < 0x10000000000000000 := by decide +kernel
  have hword : ∀ i format, argumentFormats[i]? = some format → i < setup.image.size →
      i + format.length < 0x10000000000000000 := fun i format hget _ =>
    hall (i, format) (Std.TreeMap.mem_toList_iff_getElem?_eq_some.mpr hget)
  have hfits : ∀ i format,
      formatFlaw? setup.image.size setup.map flow.attributes i format = none
        ↔ Fits setup flow.attributes i format := fun i _ =>
    formatFlaw?_eq_none_iff hvalid (Flow.outcome_coded _ _ i)
  obtain ⟨after, messages, htaken, hattachment⟩ := formats_judged setup
    [Flow.argumentTaker 3 false] (Flow.analyze_eq_ok.mpr ⟨by decide +kernel, rfl⟩) hvalid
    argumentFormats hword []
  have hattached : ∀ i format, argumentFormats[i]? = some format →
      formatFlaw? setup.image.size setup.map flow.attributes i format = none →
      (after.info i).format = argumentFormats[i]? := fun i format hget hnone => by
    rw [(hattachment.attached i format hget ((hfits i format).mp hnone)).1, hget]
  -- the run is evaluated once for all that is read off it
  obtain ⟨hinline, hoperand, hcall, hdense, haddress⟩ :
      (flow.attributes.info 3).isInlineData = true
        ∧ formatFlaw? setup.image.size setup.map flow.attributes 1 .oneByte ≠ none
        ∧ formatFlaw? setup.image.size setup.map flow.attributes 0
          ⟨3, .littleEndian, .hex, none⟩ = none
        ∧ formatFlaw? setup.image.size setup.map flow.attributes 3
          ⟨2, .dense, .plain, none⟩ = none
        ∧ formatFlaw? setup.image.size setup.map flow.attributes 4
          ⟨2, .bigEndian, .address, none⟩ = none := by
    decide +kernel
  obtain ⟨hsame, hmessage⟩ := hattachment.reported 1 .oneByte (by decide +kernel)
    (mt (hfits 1 .oneByte).mpr hoperand)
  refine ⟨after, messages, htaken, hinline, ?_, hsame, hmessage⟩
  intro i hi
  fin_cases hi
  · exact hattached 0 _ (by decide +kernel) hcall
  · exact hattached 3 _ (by decide +kernel) hdense
  · exact hattached 4 _ (by decide +kernel) haddress

end Project

end Disasm65
