/-
Two analyses side by side.

Plugins act on an analysis through nothing but what a poll comes to: a vote, and the attributes.  If
two panels come to the same in every poll, and two such panels again are left of them
(`PollAlike`), then two analyses of the same setup stay abreast, whatever is in their journals: a
visit takes both to the same attributes, the same list and the same next offset
(`Abreast.visit`), so all steps do, and the two results have the same attributes
(`analyze_abreast`).
-/
import Mathlib
import Disasm65.Proofs.Flow.Visit
import Disasm65.Flow.Analysis

namespace Disasm65.Flow

variable {ν σ : Type} {setup : Setup} {R : List (Plugin ν σ) → List (Plugin ν σ) → Prop}

/-- Panels in the relation come to the same in every poll, and stay in the relation. -/
def PollAlike (setup : Setup) (R : List (Plugin ν σ) → List (Plugin ν σ) → Prop) : Prop :=
  ∀ {panel panel' : List (Plugin ν σ)}, R panel panel' →
    ∀ (site : CallSite) (stops : Bool) (attributes : Attributes) (journal journal' : Array ν),
      let polled := poll setup site stops attributes journal panel
      let polled' := poll setup site stops attributes journal' panel'
      polled'.stops = polled.stops ∧ polled'.attributes = polled.attributes
        ∧ R polled.panel polled'.panel

/-- The states differ in their journals and panels only, and the panels are in the relation. -/
structure Abreast (R : List (Plugin ν σ) → List (Plugin ν σ) → Prop) (s t : State ν σ) : Prop where
  attributes : t.attributes = s.attributes
  pending : t.pending = s.pending
  panels : R s.panel t.panel

namespace Abreast

variable {s t : State ν σ} (h : Abreast R s t)

include h

theorem info (i : Nat) : t.info i = s.info i := by
  rw [State.info, State.info, h.attributes]

theorem update (i : Nat) (change : Attribute → Attribute) :
    Abreast R (s.update i change) (t.update i change) :=
  ⟨congrArg (·.update i change) h.attributes, h.pending, h.panels⟩

theorem updateRange (offset length : Nat) (change : Attribute → Attribute) :
    Abreast R (s.updateRange offset length change) (t.updateRange offset length change) :=
  ⟨congrArg (·.updateRange offset length change) h.attributes, h.pending, h.panels⟩

theorem withPending {pending : List Nat} :
    Abreast R { s with pending := pending } { t with pending := pending } :=
  ⟨h.attributes, rfl, h.panels⟩

/-! ### Asking -/

/-- Both panels are asked about the same, and come to the same. -/
theorem askPlugins (hR : PollAlike setup R) (op : Opcode) (offset : Nat) (stops : Bool) :
    (Flow.askPlugins setup op offset stops t).1 = (Flow.askPlugins setup op offset stops s).1
      ∧ Abreast R (Flow.askPlugins setup op offset stops s).2
        (Flow.askPlugins setup op offset stops t).2 := by
  unfold Flow.askPlugins
  rw [h.info]
  cases callSite? setup op offset (s.info offset).status with
  | none => exact ⟨rfl, h⟩
  | some site =>
      obtain ⟨_, _, panel, journal⟩ := s
      obtain ⟨attributes, pending, panel', journal'⟩ := t
      obtain ⟨rfl, rfl, hpanels⟩ := h
      obtain ⟨hstops, hattributes, hleft⟩ := hR hpanels site stops attributes journal journal'
      exact ⟨hstops, hattributes, rfl, hleft⟩

theorem breakAsked (hR : PollAlike setup R) (offset : Nat) (op : Opcode) (status : StatusFlags) :
    (Flow.breakAsked setup offset op status t).1 = (Flow.breakAsked setup offset op status s).1
      ∧ Abreast R (Flow.breakAsked setup offset op status s).2
        (Flow.breakAsked setup offset op status t).2 := by
  obtain ⟨hstops, hasked⟩ := h.askPlugins hR op offset (!continues op status)
  unfold Flow.breakAsked
  split
  · dsimp only
    rw [hstops]
    exact ⟨rfl, hasked⟩
  · exact ⟨rfl, h⟩

theorem callAsked (hR : PollAlike setup R) (offset : Nat) (op : Opcode) (first : Bool) :
    (Flow.callAsked setup offset op first t).1 = (Flow.callAsked setup offset op first s).1
      ∧ Abreast R (Flow.callAsked setup offset op first s).2
        (Flow.callAsked setup offset op first t).2 := by
  unfold Flow.callAsked
  split
  · exact h.askPlugins hR op offset false
  · exact ⟨rfl, h⟩

theorem stopMarked (hR : PollAlike setup R) (offset : Nat) (op : Opcode) (status : StatusFlags) :
    Abreast R (Flow.stopMarked setup offset op status s)
      (Flow.stopMarked setup offset op status t) := by
  obtain ⟨hgoes, hasked⟩ := h.breakAsked hR offset op status
  unfold Flow.stopMarked
  rw [hgoes]
  exact hasked.update offset _

/-! ### One visit -/

theorem claimed (offset length : Nat) :
    Abreast R (Flow.claimed offset length s) (Flow.claimed offset length t) :=
  (h.update offset _).updateRange offset length claimByte

theorem resolved (offset : Nat) (op : Opcode) (length : Nat) (first : Bool) :
    Abreast R (Flow.resolved setup offset op length first s)
      (Flow.resolved setup offset op length first t) := by
  have hclaimed := h.claimed offset length
  unfold Flow.resolved
  dsimp only
  split
  · exact hclaimed.update offset _
  · exact hclaimed

theorem decoded (offset : Nat) (op : Opcode) (length : Nat) (first : Bool)
    (status : StatusFlags) :
    Abreast R (Flow.decoded setup offset op length first status s)
      (Flow.decoded setup offset op length first status t) := by
  have hresolved : Abreast R (Flow.resolved setup offset op length first s)
      (Flow.resolved setup offset op length first t) := h.resolved offset op length first
  unfold Flow.decoded
  dsimp only
  rw [hresolved.info]
  exact hresolved.update offset _

theorem followBranch (target : Nat) (incoming : StatusFlags) :
    Abreast R (Flow.followBranch setup target incoming s)
      (Flow.followBranch setup target incoming t) := by
  have hinfo := h.info target
  by_cases hblocked : isBlocked (s.info target) = true
  · rw [followBranch_of_blocked _ _ _ _ hblocked,
      followBranch_of_blocked _ _ _ _ (hinfo ▸ hblocked)]
    exact h
  · rw [Bool.not_eq_true] at hblocked
    rw [followBranch_of_unblocked _ _ _ _ hblocked,
      followBranch_of_unblocked _ _ _ _ (hinfo ▸ hblocked), hinfo, h.pending]
    split
    · exact (h.update target _).withPending
    · exact h.update target _

theorem branched (op : Opcode) (status : StatusFlags) (target : Option Nat)
    (taken : StatusFlags) :
    Abreast R (Flow.branched setup op status target taken s)
      (Flow.branched setup op status target taken t) := by
  unfold Flow.branched
  split
  · exact h.followBranch _ taken
  · exact h

theorem fallThrough (offset length : Nat) (incoming : StatusFlags) :
    (Flow.fallThrough setup offset length incoming t).2
        = (Flow.fallThrough setup offset length incoming s).2
      ∧ Abreast R (Flow.fallThrough setup offset length incoming s).1
        (Flow.fallThrough setup offset length incoming t).1 := by
  unfold Flow.fallThrough
  dsimp only
  rw [h.attributes, h.info, h.info]
  split
  · exact ⟨rfl, h⟩
  · exact ⟨rfl, h.update _ _⟩

theorem leave (hR : PollAlike setup R) (offset : Nat) (op : Opcode) (length : Nat) (first : Bool)
    (status next : StatusFlags) :
    (Flow.leave setup offset op length first status next t).2
        = (Flow.leave setup offset op length first status next s).2
      ∧ Abreast R (Flow.leave setup offset op length first status next s).1
        (Flow.leave setup offset op length first status next t).1 := by
  have hmarked := h.stopMarked hR offset op status
  obtain ⟨hstops, hasked⟩ := hmarked.callAsked hR offset op first
  rw [leave_eq, leave_eq]
  unfold bothAsked
  dsimp only
  rw [hmarked.info, hstops]
  split
  · exact ⟨rfl, hmarked⟩
  · split
    · exact ⟨rfl, hasked.update offset _⟩
    · exact hasked.fallThrough offset length next

theorem execute (hR : PollAlike setup R) (offset : Nat) (op : Opcode) (length : Nat)
    (first : Bool) (status : StatusFlags) :
    (Flow.execute setup offset op length first status t).2
        = (Flow.execute setup offset op length first status s).2
      ∧ Abreast R (Flow.execute setup offset op length first status s).1
        (Flow.execute setup offset op length first status t).1 := by
  rw [execute_eq, execute_eq]
  dsimp only
  rw [(h.claimed offset length).attributes, (h.resolved offset op length first).info]
  exact ((h.decoded offset op length first status).branched op status _ _).leave hR offset op length
    first status _

/-- A visit takes both to the same attributes, the same list and the same next offset. -/
theorem visit (hR : PollAlike setup R) (offset : Nat) :
    (Flow.visit setup offset t).2 = (Flow.visit setup offset s).2
      ∧ Abreast R (Flow.visit setup offset s).1 (Flow.visit setup offset t).1 := by
  have hvisited := h.update offset visitByte
  rw [visit_eq, visit_eq]
  dsimp only
  rw [h.info, hvisited.attributes]
  split
  · exact ⟨rfl, h⟩
  · split
    · exact ⟨rfl, hvisited⟩
    · split
      · exact ⟨rfl, hvisited.update offset rejectByte⟩
      · split
        · exact ⟨rfl, hvisited⟩
        · exact hvisited.execute hR offset _ _ _ _

end Abreast

/-! ### All steps -/

/-- Two analyses abreast stay so until they are done. -/
theorem Abreast.drain (hR : PollAlike setup R) (n : Nat) :
    ∀ (at? : Option Nat) {s t : State ν σ}, Abreast R s t →
      Abreast R (Flow.drain setup n at? s) (Flow.drain setup n at? t) := by
  induction n with
  | zero => exact fun _ _ _ h => h
  | succ n ih =>
      intro at? s t h
      cases at? with
      | some offset =>
          obtain ⟨hnext, hvisited⟩ := h.visit hR offset
          rw [Flow.drain, Flow.drain]
          dsimp only
          rw [hnext]
          exact ih _ hvisited
      | none =>
          rw [Flow.drain, Flow.drain, h.pending]
          cases s.pending with
          | nil => exact h
          | cons target rest => exact ih _ h.withPending

theorem Abreast.tryEntry (hR : PollAlike setup R) {s t : State ν σ} (h : Abreast R s t)
    (offset : Nat) :
    Abreast R (Flow.tryEntry setup s offset) (Flow.tryEntry setup t offset) := by
  have hentry : isEntry setup t offset = isEntry setup s offset := by
    rw [isEntry, isEntry, h.info]
  unfold Flow.tryEntry
  rw [hentry]
  split
  · exact (h.update offset _).drain hR _ _
  · exact h

theorem Abreast.followAll (hR : PollAlike setup R) {s t : State ν σ} (h : Abreast R s t) :
    Abreast R (Flow.followAll setup s) (Flow.followAll setup t) :=
  List.foldl_rel h fun offset _ _ _ hbefore => hbefore.tryEntry hR offset

/-- Panels that come to the same in every poll give the same analysis. -/
theorem analyze_abreast (hR : PollAlike setup R) {panel panel' : List (Plugin ν σ)}
    (h : R panel panel') (attributes : Attributes) :
    (analyze setup panel' attributes).map (·.attributes)
      = (analyze setup panel attributes).map (·.attributes) := by
  have hstart : Abreast R ⟨setup.prepare attributes, [], panel, #[]⟩
      ⟨setup.prepare attributes, [], panel', #[]⟩ := ⟨rfl, rfl, h⟩
  unfold analyze
  split
  · rfl
  · exact congrArg (fun done => Except.ok (settle done)) (hstart.followAll hR).attributes

end Disasm65.Flow
