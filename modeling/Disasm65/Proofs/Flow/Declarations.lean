/-
Claims of inline data among each other.

No two claims whose formats are in place start at the same byte.  Their bytes can overlap all the
same, because a claim looks at the format of its first byte only; but a byte that two of them share
was data or inline data when the later one was made.  Likewise a claim makes inline data of a byte
that has been rejected and leaves it data at the same time.

What carries this is that a byte of a claim stays code or data from then on (`isTyped`): where it
has become code, no claim can have it, and so it is blocked for every claim that can.
-/
import Mathlib
import Disasm65.Proofs.Flow.Moments

namespace Disasm65.Flow

variable {ν σ : Type} {setup : Setup} {panel : List (Plugin ν σ)}

/-- The later claim `e` starts at a byte of its own, and takes from `d` only what was data or inline
data at the time. -/
def Declaration.Spares (d e : Declaration) : Prop :=
  d.offset ≠ e.offset ∧ ∀ i, d.Covers i → e.Covers i → isBlocked (e.before.info i) = true

/-! ### What a request leaves -/

namespace Grants

variable {x y : Attributes} {d : Declaration} {claim? : Option Declaration}

theorem serves (h : Grants setup x claim? y) : ServedAll x y := by
  cases h with
  | nothing => exact .refl _
  | operand _ => exact .format _ _ _
  | @inline offset _ _ _ _ format hdecide =>
      have hformat := ServedAll.format x offset format
      refine hformat.trans (.inline fun i hlow hhigh => ?_)
      exact ((hformat.bytes i).has (by decide)).trans
        (isInstruction_of_decideInline hdecide hlow hhigh)

theorem typed (h : Grants setup x claim? y) {i : Nat} (hi : isTyped (x.info i) = true) :
    isTyped (y.info i) = true := by
  have hevolves : Evolves setup True i (x.info i) (y.info i) :=
    (h.serves.develops trivial).bytes i
  exact hevolves.typed hi

/-- What a claim that is carried out has found, and what it leaves. -/
structure Claimed (setup : Setup) (x y : Attributes) (d : Declaration) : Prop where
  before : d.before = x
  free : (x.info d.offset).format = none
  attached : (y.info d.offset).format = some d.format
  claimable : ∀ i, d.Covers i → isClaimable setup x i = true
  inline : ∀ i, d.Covers i → (y.info i).isInlineData = true

theorem claimed (hsize : x.size = setup.image.size) (h : Grants setup x (some d) y) :
    Claimed setup x y d := by
  cases h with
  | inline hdecide =>
      obtain ⟨⟨_, hlength, hend⟩, _, hfree, hall, _⟩ := decideInline_eq_ok hdecide
      refine ⟨rfl, hfree, ?_, fun i hi => hall i hi.1 hi.2, fun i hi => ?_⟩
      · rw [Attributes.info_updateRange, Attributes.info_update_self (by omega)]
        split <;> rfl
      · obtain ⟨hlow, hhigh⟩ := hi
        dsimp only at hlow hhigh
        rw [Attributes.info_updateRange, if_pos ⟨⟨hlow, hhigh⟩, by simp; omega⟩]
        simp

end Grants

namespace Grants.Claimed

variable {x y : Attributes} {d : Declaration} {i : Nat}

theorem not_code (h : Claimed setup x y d) (hi : d.Covers i) :
    (x.info i).isInstruction = false := by
  have hclaimable := h.claimable i hi
  simpa using (Bool.and_eq_true_iff.mp hclaimable).2

theorem hint_ne_data (h : Claimed setup x y d) (hi : d.Covers i) : setup.hintAt i ≠ .data := by
  intro hhint
  have hclaimable := h.claimable i hi
  simp [isClaimable, hhint] at hclaimable

/-- A claim spares every claim whose bytes are still code or data. -/
theorem spares {e : Declaration} (h : Claimed setup x y d)
    (hattached : e.isAttached x = true) (htyped : ∀ i, e.Covers i → isTyped (x.info i) = true) :
    e.Spares d := by
  refine ⟨fun hsame => ?_, fun i he hd => ?_⟩
  · have hformat := h.free
    rw [← hsame, beq_iff_eq.mp hattached] at hformat
    cases hformat
  · rw [h.before]
    refine (Bool.or_eq_true_iff.mp (htyped i he)).resolve_left fun hcode => ?_
    rw [h.not_code hd] at hcode
    cases hcode

end Grants.Claimed

/-! ### From moment to moment -/

/-- The claims whose formats are in place spare each other, and their bytes are code or data. -/
structure Orderly (setup : Setup) (m : Moment ν σ) : Prop where
  size : m.attributes.size = setup.image.size
  attached : ∀ d ∈ m.live, d.isAttached m.attributes = true
  typed : ∀ d ∈ m.live, ∀ i, d.Covers i → isTyped (m.attributes.info i) = true
  spared : m.live.Pairwise Declaration.Spares
  /-- what is data was hinted as such or has been visited and rejected -/
  data : ∀ i, (m.attributes.info i).isData = true →
    setup.hintAt i = .data ∨ (m.attributes.info i).isVisited = true

section Next

variable {m m' : Moment ν σ}

/-- What a step does to the claims that it adds. -/
theorem Orderly.claims (hm : Orderly setup m) (hsound : m.Sound setup)
    (h : m.next setup = some m') {d : Declaration} (hd : m.claim? setup = some d) :
    Grants setup m.attributes (some d) m'.attributes
      ∧ Grants.Claimed setup m.attributes m'.attributes d := by
  rcases Moment.next_changes hsound h with hgrants | ⟨hnone, _⟩
  · rw [hd] at hgrants
    exact ⟨hgrants, hgrants.claimed hm.size⟩
  · rw [hd] at hnone
    cases hnone

theorem next_orderly (hm : Orderly setup m) (hsound : m.Sound setup)
    (h : m.next setup = some m') : Orderly setup m' := by
  obtain ⟨_, hlive⟩ := Moment.next_eq_some h
  have hclaims := fun d => hm.claims hsound h (d := d)
  have hchanges := Moment.next_changes hsound h
  have htyped : ∀ i, isTyped (m.attributes.info i) = true →
      isTyped (m'.attributes.info i) = true := by
    intro i hi
    rcases hchanges with hgrants | ⟨_, htouched⟩
    · exact hgrants.typed hi
    · exact (htouched.bytes i).typed hi
  have hmember : ∀ d ∈ m'.live, (d ∈ m.live ∨ m.claim? setup = some d)
      ∧ d.isAttached m'.attributes = true := by
    intro d hd
    rw [hlive, List.mem_filter, List.mem_append, Option.mem_toList] at hd
    exact hd
  refine ⟨?_, fun d hd => (hmember d hd).2, fun d hd i hi => ?_, ?_, fun i hi => ?_⟩
  · rcases hchanges with hgrants | ⟨_, htouched⟩
    · exact hgrants.serves.size.trans hm.size
    · exact htouched.size.trans hm.size
  · rcases (hmember d hd).1 with hold | hnew
    · exact htyped i (hm.typed d hold i hi)
    · rw [isTyped, isBlocked, (hclaims d hnew).2.inline i hi, Bool.or_true, Bool.or_true]
  · rw [hlive]
    refine List.Pairwise.filter _ (List.pairwise_append.mpr ⟨hm.spared, ?_, fun d hd e he => ?_⟩)
    · cases m.claim? setup <;> simp
    · rw [Option.mem_toList] at he
      exact (hclaims e he).2.spares (hm.attached d hd) (hm.typed d hd)
  · rcases hchanges with hgrants | ⟨_, htouched⟩
    · have hbyte := hgrants.serves.bytes i
      rw [Attribute.isData, hbyte.has (by decide)] at hi
      rw [Attribute.isVisited, hbyte.has (by decide)]
      exact hm.data i hi
    · rcases (htouched.bytes i).data hi with hdata | hvisited
      · exact (hm.data i hdata).imp_right (htouched.bytes i).visited
      · exact Or.inr hvisited

end Next

theorem startConfig_orderly (setup : Setup) (panel : List (Plugin ν σ)) :
    Orderly setup (⟨startConfig setup panel, none, []⟩ : Moment ν σ) := by
  refine ⟨size_prepare setup, by simp, by simp, .nil, fun i hi => Or.inl ?_⟩
  change ((setup.prepare (Attributes.blank setup.image.size)).info i).isData = true at hi
  rw [info_prepare] at hi
  split at hi
  · rw [Attribute.isData, prepareByte_has] at hi
    rcases hintMark?_cases setup i with h | ⟨h, _⟩ | ⟨_, h⟩ | ⟨h, _⟩
    · simp [h] at hi
    · simp [h] at hi
    · exact h
    · simp [h] at hi
  · exact absurd hi (by decide)

theorem Moment.Reached.orderly {m : Moment ν σ} (hm : Reached setup panel m) :
    Orderly setup m := by
  have hboth : Orderly setup m ∧ m.Sound setup :=
    hm.preserves (P := fun m => Orderly setup m ∧ m.Sound setup)
      ⟨startConfig_orderly setup panel, ⟨startConfig_placed setup panel, by simp⟩⟩
      fun h hnext => ⟨next_orderly h.1 h.2 hnext, Moment.next_sound h.2 hnext⟩
  exact hboth.1

/-- **Claims of inline data collide only where there was data.**  At every moment of every analysis,
whatever the plugins do, the claims whose formats are in place start at different bytes, and a byte
that two of them share was data or inline data when the later one was made.  When a claim has been
carried out its bytes are inline data and not code, and those are data besides that were data
before, by having been rejected. -/
theorem claims_spare_each_other (setup : Setup) (panel : List (Plugin ν σ)) (m : Moment ν σ)
    (hm : m.Reached setup panel) :
    (∀ d ∈ m.live, (m.attributes.info d.offset).format = some d.format)
      ∧ m.live.Pairwise (fun d e => d.offset ≠ e.offset
          ∧ ∀ i, d.Covers i → e.Covers i → isBlocked (e.before.info i) = true)
      ∧ ∀ d m', m.claim? setup = some d → m.next setup = some m' →
          d.before = m.attributes ∧ d ∈ m'.live
            ∧ ∀ i, d.Covers i →
                (m'.attributes.info i).isInlineData = true
                ∧ (m'.attributes.info i).isInstruction = false
                ∧ ((m'.attributes.info i).isData = true ↔ (m.attributes.info i).isData = true)
                ∧ ((m.attributes.info i).isData = true →
                    (m.attributes.info i).isVisited = true ∧ setup.hintAt i ≠ .data) := by
  have hordered := hm.orderly
  refine ⟨fun d hd => beq_iff_eq.mp (hordered.attached d hd), hordered.spared,
    fun d m' hclaim hnext => ?_⟩
  obtain ⟨hgrants, hclaimed⟩ := hordered.claims hm.sound hnext hclaim
  refine ⟨hclaimed.before, ?_, fun i hi => ?_⟩
  · rw [(Moment.next_eq_some hnext).2, hclaim]
    simp [Declaration.isAttached, hclaimed.attached]
  · have hbyte := hgrants.serves.bytes i
    refine ⟨hclaimed.inline i hi, (hbyte.has (by decide)).trans (hclaimed.not_code hi), ?_,
      fun hdata => ?_⟩
    · rw [Attribute.isData, hbyte.has (by decide), Attribute.isData]
    · have hhint := hclaimed.hint_ne_data hi
      exact ⟨(hordered.data i hdata).resolve_left hhint, hhint⟩

/-- The requests of a plugin that claims one range after the other and lets the call return. -/
def claimRanges : List (Nat × Nat) → Consultation Unit Unit
  | [] => .vote false ()
  | (offset, length) :: rest =>
    .claimInline offset length .dense .plain "" fun _ => claimRanges rest

/-- Claims the given ranges after every call. -/
def rangeTaker (ranges : List (Nat × Nat)) : Plugin Unit Unit where
  capabilities := ⟨true, false, false⟩
  consult _ _ := claimRanges ranges
  state := ()

/-- What is true after `n` moments is true of a moment that is reached. -/
theorem Moment.exists_reached (setup : Setup) (panel : List (Plugin ν σ)) (n : Nat)
    (check : Moment ν σ → Bool)
    (h : (after setup panel n).any check = true) :
    ∃ m, Reached setup panel m ∧ check m = true := by
  obtain ⟨m, hm, hcheck⟩ := (Option.any_eq_true check _).mp h
  exact ⟨m, ⟨n, hm⟩, hcheck⟩

/-- One byte after the call and then the two after that. -/
theorem claims_spare_each_other_argumentCall :
    ∃ m : Moment Unit Unit, m.Reached argumentCall [rangeTaker [(3, 1), (4, 2)]]
      ∧ m.live.map (fun d => (d.offset, d.length)) = [(3, 1), (4, 2)]
      ∧ m.live.Pairwise (fun d e => d.offset ≠ e.offset
          ∧ ∀ i, d.Covers i → e.Covers i → isBlocked (e.before.info i) = true) := by
  obtain ⟨m, hm, hlive⟩ := Moment.exists_reached argumentCall [rangeTaker [(3, 1), (4, 2)]] 5
    (fun m => m.live.map (fun d => (d.offset, d.length)) == [(3, 1), (4, 2)]) (by decide +kernel)
  obtain ⟨_, hspared, _⟩ := claims_spare_each_other argumentCall _ m hm
  exact ⟨m, hm, beq_iff_eq.mp hlive, hspared⟩

/-- A jump to the last byte, where no instruction fits, and then a call. -/
def callBeforeTail : Setup where
  image := #[0x4c, 0x07, 0x10, 0x20, 0x00, 0x20, 0x01, 0xad]
  processor := ⟨.nmos6502, true, OpcodeTable.blank.overlay
    [Layer.op 0x4c .jmp .abs .branch .keep, Layer.op 0x20 .jsr .abs .call .keep,
     Layer.plain 0xad .lda .abs .keep]⟩
  map := ⟨[⟨0, 8, 0x1000⟩], 8⟩
  parameters := .initial
  hints := #[.code, .unset, .unset, .code, .unset, .unset, .unset, .unset]
  overrides := #[]
  entryStatus := .indeterminate

/-- **Claims of inline data do collide.**  The second of two claims lies within the first, and both
formats are in place.  And a byte that has been rejected is data and inline data once it has been
claimed. -/
theorem claims_collide :
    (∃ m : Moment Unit Unit, m.Reached argumentCall [rangeTaker [(3, 3), (4, 1)]]
        ∧ ∃ d e, m.live = [d, e] ∧ d.Covers 4 ∧ e.Covers 4)
      ∧ ∃ (m m' : Moment Unit Unit) (d : Declaration),
          m.Reached callBeforeTail [rangeTaker [(6, 2)]] ∧ m.claim? callBeforeTail = some d
            ∧ m.next callBeforeTail = some m' ∧ d.Covers 7
            ∧ (m'.attributes.info 7).isData = true
            ∧ (m'.attributes.info 7).isInlineData = true := by
  refine ⟨?_, ?_⟩
  · obtain ⟨m, hm, hlive⟩ := Moment.exists_reached argumentCall [rangeTaker [(3, 3), (4, 1)]] 5
      (fun m => m.live.map (fun d => (d.offset, d.length)) == [(3, 3), (4, 1)]) (by decide +kernel)
    obtain ⟨d, rest, hcons, hd, hrest⟩ := List.map_eq_cons_iff.mp (beq_iff_eq.mp hlive)
    obtain ⟨e, none, hcons', he, hnone⟩ := List.map_eq_cons_iff.mp hrest
    rw [hcons', List.map_eq_nil_iff.mp hnone] at hcons
    obtain ⟨hoffset, hlength⟩ := Prod.mk.inj hd
    obtain ⟨hoffset', hlength'⟩ := Prod.mk.inj he
    exact ⟨m, hm, d, e, hcons, by unfold Declaration.Covers; omega,
      by unfold Declaration.Covers; omega⟩
  · obtain ⟨m, hm, hcheck⟩ := Moment.exists_reached callBeforeTail [rangeTaker [(6, 2)]] 9
      (fun m => (m.claim? callBeforeTail).any (fun d => d.offset == 6 && d.length == 2)
        && (m.next callBeforeTail).any fun m' =>
          (m'.attributes.info 7).isData && (m'.attributes.info 7).isInlineData)
      (by decide +kernel)
    obtain ⟨hclaim, hnext⟩ := Bool.and_eq_true_iff.mp hcheck
    obtain ⟨d, hd, hrange⟩ := (Option.any_eq_true _ _).mp hclaim
    obtain ⟨m', hm', hbyte⟩ := (Option.any_eq_true _ _).mp hnext
    obtain ⟨hoffset, hlength⟩ := Bool.and_eq_true_iff.mp hrange
    obtain ⟨hdata, hinline⟩ := Bool.and_eq_true_iff.mp hbyte
    rw [beq_iff_eq] at hoffset hlength
    exact ⟨m, m', d, hm, hd, hm', by unfold Declaration.Covers; omega, hdata, hinline⟩

end Disasm65.Flow
