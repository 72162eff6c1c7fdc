/-
The analysis, one request of a plugin at a time.

A step of the analysis is a whole visit, with all that the plugins ask for while it lasts.  `Moment`
stops between any two requests.  Everything that is written in between is either one request that
is carried out or has nothing to do with plugins (`next_changes`), and no configuration is left out
(`Steps.exists_reached`).

A moment also keeps the claims of inline data that have been carried out and whose formats are
still in place.
-/
import Mathlib
import Disasm65.Proofs.Flow.Talk

namespace Disasm65.Flow

variable {ν σ : Type} {setup : Setup} {panel : List (Plugin ν σ)}

/-- Where the analysis stands between two requests. -/
structure Moment (ν σ : Type) where
  config : Config ν σ
  /-- the talk that the visit of the current offset is in -/
  talk : Option (Talk ν σ)
  /-- the claims of inline data whose formats are in place, in the order in which they were made -/
  live : List Declaration

/-- The format of the claim is in place. -/
def Declaration.isAttached (attributes : Attributes) (d : Declaration) : Bool :=
  (attributes.info d.offset).format == some d.format

namespace Moment

def attributes (m : Moment ν σ) : Attributes :=
  match m.talk with
  | some talk => talk.attributes
  | none => m.config.state.attributes

/-- The claim of inline data that is about to be carried out. -/
def claim? (setup : Setup) (m : Moment ν σ) : Option Declaration :=
  m.talk.bind fun talk => talk.claim? setup

/-- The call site that the visit of the current offset is going to ask about, and the state in
which it does. -/
def asks? (setup : Setup) (m : Moment ν σ) : Option (CallSite × State ν σ) :=
  m.config.current.bind fun offset => asked? setup offset m.config.state

/-- Where the analysis stands next: a talk goes on, is over, begins, or there is none. -/
def advance (setup : Setup) (m : Moment ν σ) : Option (Config ν σ × Option (Talk ν σ)) :=
  match m.talk with
  | some talk =>
    match talk.next setup with
    | some talk => some (m.config, some talk)
    | none => (step setup m.config).map (·, none)
  | none =>
    match m.asks? setup with
    | some (site, s) => some (m.config, some ⟨site, s.attributes, none, s.panel⟩)
    | none => (step setup m.config).map (·, none)

/-- The next moment; `none` when the analysis is finished. -/
def next (setup : Setup) (m : Moment ν σ) : Option (Moment ν σ) :=
  (m.advance setup).map fun (config, talk) =>
    let live := m.live ++ (m.claim? setup).toList
    let m : Moment ν σ := ⟨config, talk, live⟩
    { m with live := live.filter (·.isAttached m.attributes) }

/-- The moment after `n` others. -/
def after (setup : Setup) (panel : List (Plugin ν σ)) : Nat → Option (Moment ν σ)
  | 0 => some ⟨startConfig setup panel, none, []⟩
  | n + 1 => (after setup panel n).bind (next setup)

/-- The analysis comes to the moment. -/
def Reached (setup : Setup) (panel : List (Plugin ν σ)) (m : Moment ν σ) : Prop :=
  ∃ n, after setup panel n = some m

variable {m m' : Moment ν σ}

theorem Reached.next (hm : Reached setup panel m) (h : m.next setup = some m') :
    Reached setup panel m' := by
  obtain ⟨n, hn⟩ := hm
  exact ⟨n + 1, by rw [after, hn]; exact h⟩

/-- What holds at first and is kept from moment to moment always holds. -/
theorem Reached.preserves {P : Moment ν σ → Prop}
    (hstart : P ⟨startConfig setup panel, none, []⟩)
    (hnext : ∀ {m m'}, P m → m.next setup = some m' → P m') (hm : Reached setup panel m) : P m := by
  obtain ⟨n, hn⟩ := hm
  induction n generalizing m with
  | zero =>
      cases hn
      exact hstart
  | succ n ih =>
      obtain ⟨prior, hprior, hstep⟩ := Option.bind_eq_some_iff.mp hn
      exact hnext (ih hprior) hstep

/-- The cases of going on. -/
theorem advance_cases {config : Config ν σ} {talk? : Option (Talk ν σ)}
    (h : m.advance setup = some (config, talk?)) :
    (∃ talk talk', m.talk = some talk ∧ talk.next setup = some talk' ∧ config = m.config
        ∧ talk? = some talk')
      ∨ (∃ talk, m.talk = some talk ∧ talk.next setup = none ∧ step setup m.config = some config
          ∧ talk? = none)
      ∨ (∃ site s, m.talk = none ∧ m.asks? setup = some (site, s) ∧ config = m.config
          ∧ talk? = some ⟨site, s.attributes, none, s.panel⟩)
      ∨ (m.talk = none ∧ m.asks? setup = none ∧ step setup m.config = some config
          ∧ talk? = none) := by
  unfold advance at h
  split at h
  · rename_i talk htalk
    split at h
    · rename_i talk' hnext
      cases h
      exact Or.inl ⟨talk, talk', htalk, hnext, rfl, rfl⟩
    · rename_i hover
      obtain ⟨c, hstep, heq⟩ := Option.map_eq_some_iff.mp h
      cases heq
      exact Or.inr (Or.inl ⟨talk, htalk, hover, hstep, rfl⟩)
  · rename_i htalk
    split at h
    · rename_i site s hasks
      cases h
      exact Or.inr (Or.inr (Or.inl ⟨site, s, htalk, hasks, rfl, rfl⟩))
    · rename_i hasks
      obtain ⟨c, hstep, heq⟩ := Option.map_eq_some_iff.mp h
      cases heq
      exact Or.inr (Or.inr (Or.inr ⟨htalk, hasks, hstep, rfl⟩))

theorem next_eq_some (h : m.next setup = some m') :
    m.advance setup = some (m'.config, m'.talk)
      ∧ m'.live = (m.live ++ (m.claim? setup).toList).filter (·.isAttached m'.attributes) := by
  obtain ⟨⟨config, talk⟩, hadvance, heq⟩ := Option.map_eq_some_iff.mp h
  cases heq
  exact ⟨hadvance, rfl⟩

theorem Reached.advance {config : Config ν σ} {talk? : Option (Talk ν σ)}
    (hm : Reached setup panel m) (h : m.advance setup = some (config, talk?)) :
    ∃ m', Reached setup panel m' ∧ m'.config = config ∧ m'.talk = talk? :=
  ⟨_, hm.next (by rw [Moment.next, h]; rfl), rfl, rfl⟩

/-! ### What happens from one moment to the next -/

/-- A talk belongs to the visit of the current offset, and it is on its way to what that visit's
poll comes to. -/
structure Sound (setup : Setup) (m : Moment ν σ) : Prop where
  placed : Placed setup m.config.state
  talk : ∀ talk, m.talk = some talk → ∃ site s, m.asks? setup = some (site, s)
    ∧ talk.outcome setup = (poll setup site false s.attributes #[] s.panel).attributes

theorem asks?_eq_some {site : CallSite} {s : State ν σ} (h : m.asks? setup = some (site, s)) :
    ∃ offset, m.config.current = some offset
      ∧ asked? setup offset m.config.state = some (site, s) :=
  Option.bind_eq_some_iff.mp h

theorem next_sound (hm : Sound setup m) (h : m.next setup = some m') : Sound setup m' := by
  obtain ⟨config, talk?, live⟩ := m'
  obtain ⟨hadvance, _⟩ := next_eq_some h
  rcases advance_cases hadvance with ⟨talk, talk', htalk, hnext, rfl, rfl⟩ | ⟨_, _, _, hstep, rfl⟩
    | ⟨site, s, _, hasks, rfl, rfl⟩ | ⟨_, _, hstep, rfl⟩
  · refine ⟨hm.placed, fun t ht => ?_⟩
    cases ht
    obtain ⟨site, s, hasks, houtcome⟩ := hm.talk talk htalk
    exact ⟨site, s, hasks, (Talk.outcome_next hnext).trans houtcome⟩
  · exact ⟨step_placed hm.placed hstep, by simp⟩
  · refine ⟨hm.placed, fun t ht => ?_⟩
    cases ht
    exact ⟨site, s, hasks, rfl⟩
  · exact ⟨step_placed hm.placed hstep, by simp⟩

theorem Reached.sound (hm : Reached setup panel m) : Sound setup m :=
  hm.preserves ⟨startConfig_placed setup panel, by simp⟩ next_sound

/-- A step at which an offset is to be visited is the visit. -/
theorem step_of_current {c : Config ν σ} {offset : Nat} (h : c.current = some offset) :
    step setup c
      = some ⟨c.search, (visit setup offset c.state).2, (visit setup offset c.state).1⟩ := by
  simp [step, h]

/-- A step in which no plugin is asked only touches bytes. -/
theorem step_touches {c d : Config ν σ} (hplaced : Placed setup c.state)
    (hquiet : ∀ offset, c.current = some offset → asked? setup offset c.state = none)
    (h : step setup c = some d) : TouchedAll setup c.state.attributes d.state.attributes := by
  rcases step_cases h with ⟨offset, hcurrent, rfl⟩ | ⟨_, _, _, _, rfl⟩ | ⟨_, _, _, _, rfl⟩
    | ⟨_, _, _, _, rfl⟩
  · exact visit_of_quiet hplaced (hquiet offset hcurrent)
  · exact .refl _
  · show TouchedAll setup c.state.attributes (c.state.attributes.update c.search fun a =>
      { a.mark .entryPoint with
        status := setup.entryStatus.apply (setup.overrideAt c.search) })
    exact .update (.enter _ _)
  · exact .refl _

/-- **From one moment to the next, either a request is carried out, or bytes are only touched.** -/
theorem next_changes (hm : Sound setup m) (h : m.next setup = some m') :
    Grants setup m.attributes (m.claim? setup) m'.attributes
      ∨ m.claim? setup = none ∧ TouchedAll setup m.attributes m'.attributes := by
  obtain ⟨config, talk?, live⟩ := m'
  obtain ⟨hadvance, _⟩ := next_eq_some h
  obtain ⟨c, mtalk, mlive⟩ := m
  rcases advance_cases hadvance with ⟨talk, talk', rfl, hnext, rfl, rfl⟩
    | ⟨talk, rfl, hover, hstep, rfl⟩ | ⟨site, s, rfl, hasks, rfl, rfl⟩ | ⟨rfl, hasks, hstep, rfl⟩
  · exact Or.inl (Talk.next_grants hnext)
  · refine Or.inr ⟨?_, ?_⟩
    · unfold Talk.next at hover
      simp only [claim?, Option.bind_some, Talk.claim?]
      split at hover <;> simp_all
    · -- the visit goes on from where the talk has ended
      obtain ⟨site, s, hasks, houtcome⟩ := hm.talk talk rfl
      obtain ⟨offset, hcurrent, hasked⟩ := asks?_eq_some hasks
      rw [Talk.outcome_of_over hover] at houtcome
      have hvisit := (visit_of_asked hm.placed hasked).2
      rw [← houtcome] at hvisit
      rw [step_of_current hcurrent] at hstep
      cases hstep
      exact hvisit
  · obtain ⟨offset, _, hasked⟩ := asks?_eq_some hasks
    exact Or.inr ⟨rfl, (visit_of_asked hm.placed hasked).1⟩
  · refine Or.inr ⟨rfl, step_touches hm.placed (fun offset hcurrent => ?_) hstep⟩
    exact Option.bind_eq_none_iff.mp hasks offset hcurrent

end Moment

/-! ### Every configuration is a moment -/

/-- A talk is a run of moments. -/
theorem Moment.Reached.talks {m : Moment ν σ} {talk talk' : Talk ν σ}
    (hm : Reached setup panel m) (htalk : m.talk = some talk)
    (h : Relation.ReflTransGen (Talk.Goes setup) talk talk') :
    ∃ m', Reached setup panel m' ∧ m'.config = m.config ∧ m'.talk = some talk' := by
  induction h with
  | refl => exact ⟨m, hm, rfl, htalk⟩
  | @tail talk talk' _ hgoes ih =>
      obtain ⟨m', hm', hconfig, htalk'⟩ := ih
      have hadvance : m'.advance setup = some (m'.config, some talk') := by
        simp only [Moment.advance, htalk', show talk.next setup = some talk' from hgoes]
      obtain ⟨m'', hm'', hconfig', htalk''⟩ := hm'.advance hadvance
      exact ⟨m'', hm'', hconfig'.trans hconfig, htalk''⟩

/-- **The moments leave no configuration out.** -/
theorem Steps.exists_reached {n : Nat} {c : Config ν σ}
    (h : Steps setup n (startConfig setup panel) c) :
    ∃ m, Moment.Reached setup panel m ∧ m.config = c ∧ m.talk = none := by
  refine h.preserves (P := fun c => ∃ m, Moment.Reached setup panel m ∧ m.config = c
    ∧ m.talk = none) ?_ ⟨_, ⟨0, rfl⟩, rfl, rfl⟩
  rintro c d ⟨m, hm, rfl, htalk⟩ hstep
  rcases hasks : m.asks? setup with _ | ⟨site, s⟩
  · exact hm.advance (by simp only [Moment.advance, htalk, hasks, hstep, Option.map_some])
  · -- the plugins are heard, and then the visit goes on
    obtain ⟨begins, hbegins, hconfig, htalks⟩ := hm.advance
      (show m.advance setup = some (m.config, some ⟨site, s.attributes, none, s.panel⟩) by
        simp only [Moment.advance, htalk, hasks])
    obtain ⟨talk, hgoes, hover⟩ := Talk.ends setup site s.panel s.attributes
    obtain ⟨m', hm', hconfig', htalk'⟩ := hbegins.talks htalks hgoes
    rw [hconfig] at hconfig'
    exact hm'.advance
      (by simp only [Moment.advance, htalk', hover, hconfig', hstep, Option.map_some])

end Disasm65.Flow
