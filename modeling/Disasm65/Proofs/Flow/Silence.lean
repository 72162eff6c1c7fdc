/-
Plugins that only vote.

A plugin is silent if it never asks for a change: it may look at the image, leave notes and keep a
state, and then it votes or fails.  A poll of silent plugins is a count of their ballots, each of
which depends on nothing but the plugin and the call site (`poll_of_silent`), so their order makes
no difference.  A silent plugin that fails or votes neutrally makes no difference either, whatever
plugins it stands among (`Inserted.pollAlike`).  Both carry over from one poll to a whole analysis,
since analyses whose polls come to the same run abreast.
-/
import Mathlib
import Disasm65.Proofs.Flow.Lockstep
import Disasm65.Proofs.Flow.Polling

namespace Disasm65

variable {ν σ : Type}

/-- The plugin asks for no change, and `done` holds of its vote, if it has one, and of the state it
is left in. -/
def Consultation.EndsIn (setup : Flow.Setup) (done : Option Bool → σ → Prop) :
    Consultation ν σ → Prop
  | .vote stops state => done (some stops) state
  | .fail state => done none state
  | .note _ rest => rest.EndsIn setup done
  | .peek offset rest =>
    (rest setup.image[offset]? (setup.map.addressOf? offset)).EndsIn setup done
  | .formatOperand .. | .claimInline .. => False

/-- The plugin never asks for a change and gives no vote but the `allowed` ones, now or in any
state (`keep`) that it can come to be in. -/
def Plugin.SilentBut (setup : Flow.Setup) (allowed : CallSite → Option Bool → Prop)
    (plugin : Plugin ν σ) : Prop :=
  ∃ keep : σ → Prop, keep plugin.state
    ∧ ∀ state site, keep state → plugin.capabilities.cover site = true →
      (plugin.consult state site).EndsIn setup fun vote state => allowed site vote ∧ keep state

/-- The plugin only votes. -/
def Plugin.Silent (setup : Flow.Setup) : Plugin ν σ → Prop :=
  Plugin.SilentBut setup fun _ _ => True

/-- The plugin does nothing but fail or vote neutrally. -/
def Plugin.Neutral (setup : Flow.Setup) : Plugin ν σ → Prop :=
  Plugin.SilentBut setup fun site vote => vote = none ∨ vote = some site.neutral

namespace Flow

variable {setup : Setup}

/-! ### One consultation -/

/-- A consultation without requests leaves the attributes alone, and comes to the same whatever
they are. -/
theorem consult_of_endsIn {done : Option Bool → σ → Prop} (consultation : Consultation ν σ) :
    ∀ (journal : Array ν), consultation.EndsIn setup done → ∀ attributes : Attributes,
      let asked := consult setup attributes journal consultation
      done asked.vote asked.state ∧ asked.attributes = attributes
        ∧ asked.vote = (consult setup #[] #[] consultation).vote
        ∧ asked.state = (consult setup #[] #[] consultation).state := by
  induction consultation with
  | vote stops state => exact fun journal h attributes => ⟨h, rfl, rfl, rfl⟩
  | fail state => exact fun journal h attributes => ⟨h, rfl, rfl, rfl⟩
  | note entry rest ih =>
      intro journal h attributes
      obtain ⟨hdone, hattributes, hvote, hstate⟩ := ih (journal.push entry) h attributes
      obtain ⟨hvote', hstate', _⟩ := consult_journal setup rest #[] #[] (#[].push entry)
      exact ⟨hdone, hattributes, hvote.trans hvote'.symm, hstate.trans hstate'.symm⟩
  | peek offset rest ih => exact fun journal h attributes => ih _ _ journal h attributes
  | formatOperand offset detail label rest ih => exact fun _ h => h.elim
  | claimInline offset length kind detail label rest ih => exact fun _ h => h.elim

/-! ### One poll -/

section Silent

variable {allowed : CallSite → Option Bool → Prop} {plugin : Plugin ν σ} {site : CallSite}

/-- The ballot of a plugin that makes no requests. -/
def ballot (setup : Setup) (site : CallSite) (plugin : Plugin ν σ) : Option Bool :=
  if plugin.capabilities.cover site then
    (consult setup #[] #[] (plugin.consult plugin.state site)).vote
  else none

/-- Such a plugin once it has been asked. -/
def balloted (setup : Setup) (site : CallSite) (plugin : Plugin ν σ) : Plugin ν σ :=
  if plugin.capabilities.cover site then
    { plugin with state := (consult setup #[] #[] (plugin.consult plugin.state site)).state }
  else plugin

/-- Count a ballot. -/
def tally (site : CallSite) (stops : Bool) (ballot : Option Bool) : Bool :=
  (ballot.map (site.count stops)).getD stops

theorem tally_right_comm (site : CallSite) (stops : Bool) (one other : Option Bool) :
    tally site (tally site stops one) other = tally site (tally site stops other) one := by
  cases one <;> cases other <;> cases site <;>
    simp [tally, CallSite.count, Bool.or_right_comm, Bool.and_right_comm]

theorem tally_neutral (site : CallSite) (stops : Bool) {ballot : Option Bool}
    (h : ballot = none ∨ ballot = some site.neutral) : tally site stops ballot = stops := by
  rcases h with rfl | rfl
  · rfl
  · cases site <;> simp [tally, CallSite.count, CallSite.neutral]

/-- A plugin stays as silent as it is. -/
theorem silentBut_balloted (h : plugin.SilentBut setup allowed) :
    (balloted setup site plugin).SilentBut setup allowed := by
  unfold balloted
  split
  · rename_i hcover
    obtain ⟨keep, hnow, hever⟩ := h
    obtain ⟨⟨_, hkept⟩, _⟩ := consult_of_endsIn _ #[] (hever _ site hnow hcover) #[]
    exact ⟨keep, hkept, hever⟩
  · exact h

/-- Asking a silent plugin counts its ballot and makes no difference to the others. -/
theorem poll_cons_of_silent (h : plugin.SilentBut setup allowed) (site : CallSite) (stops : Bool)
    (attributes : Attributes) (journal journal' : Array ν) (others : List (Plugin ν σ)) :
    let polled := poll setup site stops attributes journal' (plugin :: others)
    let rest :=
      poll setup site (tally site stops (ballot setup site plugin)) attributes journal others
    polled.stops = rest.stops ∧ polled.attributes = rest.attributes
      ∧ polled.panel = balloted setup site plugin :: rest.panel := by
  by_cases hcover : plugin.capabilities.cover site = true
  · obtain ⟨keep, hnow, hever⟩ := h
    obtain ⟨_, hattributes, hvote, hstate⟩ :=
      consult_of_endsIn _ journal' (hever _ site hnow hcover) attributes
    rw [poll_cons_of_cover hcover, ballot, balloted, if_pos hcover, if_pos hcover, tally]
    dsimp only
    rw [hattributes, hvote, hstate]
    exact ⟨poll_stops site others _ _ _ _, poll_attributes site others _ _ _ _ _,
      congrArg _ (poll_panel site others _ _ _ _ _)⟩
  · rw [poll_cons_of_not hcover, ballot, balloted, if_neg hcover, if_neg hcover]
    exact ⟨poll_stops site others _ _ _ _, poll_attributes site others _ _ _ _ _,
      congrArg _ (poll_panel site others _ _ _ _ _)⟩

/-- A poll of silent plugins counts their ballots. -/
theorem poll_of_silent (site : CallSite) {panel : List (Plugin ν σ)}
    (h : ∀ plugin ∈ panel, plugin.Silent setup) :
    ∀ (stops : Bool) (attributes : Attributes) (journal : Array ν),
      let polled := poll setup site stops attributes journal panel
      polled.stops
          = panel.foldl (fun stops plugin => tally site stops (ballot setup site plugin)) stops
        ∧ polled.attributes = attributes
        ∧ polled.panel = panel.map (balloted setup site) := by
  induction panel with
  | nil => exact fun stops attributes journal => ⟨rfl, rfl, rfl⟩
  | cons plugin others ih =>
      intro stops attributes journal
      rw [List.forall_mem_cons] at h
      obtain ⟨hstops, hattributes, hpanel⟩ :=
        poll_cons_of_silent h.1 site stops attributes journal journal others
      obtain ⟨hstops', hattributes', hpanel'⟩ := ih h.2
        (tally site stops (ballot setup site plugin)) attributes journal
      exact ⟨hstops.trans hstops', hattributes.trans hattributes',
        hpanel.trans (congrArg _ hpanel')⟩

end Silent

/-! ### Panels that come to the same -/

/-- The same plugins in another order, all of them silent. -/
def Reordered (setup : Setup) (panel panel' : List (Plugin ν σ)) : Prop :=
  panel.Perm panel' ∧ ∀ plugin ∈ panel, plugin.Silent setup

theorem Reordered.pollAlike : PollAlike setup (Reordered (ν := ν) (σ := σ) setup) := by
  intro panel panel' ⟨hperm, hsilent⟩ site stops attributes journal journal'
  obtain ⟨hstops, hattributes, hpanel⟩ :=
    poll_of_silent site hsilent stops attributes journal
  obtain ⟨hstops', hattributes', hpanel'⟩ := poll_of_silent site
    (fun plugin hmem => hsilent plugin (hperm.mem_iff.mpr hmem)) stops attributes journal'
  refine ⟨?_, hattributes'.trans hattributes.symm, ?_, ?_⟩
  · rw [hstops, hstops']
    exact (hperm.foldl_eq' (fun one _ other _ stops => tally_right_comm ..) stops).symm
  · rw [hpanel, hpanel']
    exact hperm.map _
  · rw [hpanel]
    exact List.forall_mem_map.mpr fun plugin hmem => silentBut_balloted (hsilent plugin hmem)

/-- The second panel is the first with neutral plugins put in between. -/
inductive Inserted (setup : Setup) : List (Plugin ν σ) → List (Plugin ν σ) → Prop where
  | nil : Inserted setup [] []
  | keep {panel panel' : List (Plugin ν σ)} (plugin : Plugin ν σ)
      (h : Inserted setup panel panel') : Inserted setup (plugin :: panel) (plugin :: panel')
  | insert {panel panel' : List (Plugin ν σ)} {plugin : Plugin ν σ}
      (hneutral : plugin.Neutral setup) (h : Inserted setup panel panel') :
      Inserted setup panel (plugin :: panel')

/-- The ballot of a neutral plugin does not count. -/
theorem tally_of_neutral {plugin : Plugin ν σ} (h : plugin.Neutral setup) (site : CallSite)
    (stops : Bool) : tally site stops (ballot setup site plugin) = stops := by
  unfold ballot
  split
  · rename_i hcover
    obtain ⟨keep, hnow, hever⟩ := h
    obtain ⟨⟨hallowed, _⟩, _⟩ := consult_of_endsIn _ #[] (hever _ site hnow hcover) #[]
    exact tally_neutral site stops hallowed
  · rfl

theorem Inserted.pollAlike : PollAlike setup (Inserted (ν := ν) (σ := σ) setup) := by
  intro panel panel' h site
  induction h with
  | nil => exact fun stops attributes journal journal' => ⟨rfl, rfl, .nil⟩
  | @keep panel panel' plugin h ih =>
      intro stops attributes journal journal'
      by_cases hcover : plugin.capabilities.cover site = true
      · obtain ⟨hvote, hstate, hattributes⟩ :=
          consult_journal setup (plugin.consult plugin.state site) attributes journal journal'
        rw [poll_cons_of_cover hcover, poll_cons_of_cover hcover]
        dsimp only
        rw [hvote, hattributes, hstate]
        obtain ⟨hstops, hsame, hleft⟩ := ih _ _ _ _
        exact ⟨hstops, hsame, .keep _ hleft⟩
      · rw [poll_cons_of_not hcover, poll_cons_of_not hcover]
        obtain ⟨hstops, hsame, hleft⟩ := ih stops attributes journal journal'
        exact ⟨hstops, hsame, .keep _ hleft⟩
  | @insert panel panel' plugin hneutral h ih =>
      intro stops attributes journal journal'
      obtain ⟨hstops, hattributes, hpanel⟩ :=
        poll_cons_of_silent hneutral site stops attributes journal' journal' panel'
      obtain ⟨hstops', hattributes', hleft⟩ := ih stops attributes journal journal'
      rw [tally_of_neutral hneutral] at hstops hattributes hpanel
      refine ⟨hstops.trans hstops', hattributes.trans hattributes', ?_⟩
      rw [hpanel]
      exact .insert (silentBut_balloted hneutral) hleft

/-- The plugin that is always neutral is so. -/
theorem neutral_quiet (capabilities : Capabilities) (state : σ) :
    (Plugin.quiet (ν := ν) capabilities state).Neutral setup :=
  ⟨fun _ => True, trivial, fun _ _ _ _ => ⟨Or.inr rfl, trivial⟩⟩

/-! ### The whole analysis -/

/-- **Neutral plugins are invisible, and silent plugins can be asked in any order.**  Neutral
plugins anywhere among other plugins, however many, make no difference to the attributes that the
analysis comes to; and for plugins that only vote it comes to the same in every order, even if a
vote depends on what the plugin has been asked before. -/
theorem analyze_panel_invariant (setup : Setup) (attributes : Attributes) :
    (∀ panel panel' : List (Plugin ν σ), Inserted setup panel panel' →
        (analyze setup panel' attributes).map (·.attributes)
          = (analyze setup panel attributes).map (·.attributes))
      ∧ ∀ panel panel' : List (Plugin ν σ), panel.Perm panel' →
          (∀ plugin ∈ panel, plugin.Silent setup) →
          (analyze setup panel' attributes).map (·.attributes)
            = (analyze setup panel attributes).map (·.attributes) :=
  ⟨fun _ _ hinserted => analyze_abreast Inserted.pollAlike hinserted attributes,
    fun _ _ hperm hsilent => analyze_abreast Reordered.pollAlike ⟨hperm, hsilent⟩ attributes⟩

/-- A call, then a break. -/
def callThenBreak : Setup where
  image := #[0x20, 0x00, 0x20, 0x00, 0x00, 0x60]
  processor := ⟨.nmos6502, true, OpcodeTable.blank.overlay
    [Layer.op 0x00 .brk .stackInt .stop .keep, Layer.op 0x20 .jsr .abs .call .keep,
      Layer.op 0x60 .rts .stackRts .stop .keep]⟩
  map := ⟨[⟨0, 6, 0x1000⟩], 6⟩
  parameters := .initial
  hints := #[.code, .unset, .unset, .unset, .unset, .unset]
  overrides := #[]
  entryStatus := .indeterminate

/-- Counts the questions, and votes or fails as the number of those before and the site say. -/
def voter (choice : Nat → CallSite → Option Bool) : Plugin Unit Nat where
  capabilities := ⟨true, true, true⟩
  consult asked site := (choice asked site).elim (.fail (asked + 1)) (.vote · (asked + 1))
  state := 0

theorem silentBut_voter {allowed : CallSite → Option Bool → Prop}
    {choice : Nat → CallSite → Option Bool} (h : ∀ asked site, allowed site (choice asked site)) :
    (voter choice).SilentBut setup allowed := by
  refine ⟨fun _ => True, trivial, fun asked site _ _ => ?_⟩
  have hallowed := h asked site
  dsimp only [voter]
  cases hchoice : choice asked site with
  | none => exact ⟨hchoice ▸ hallowed, trivial⟩
  | some vote => exact ⟨hchoice ▸ hallowed, trivial⟩

/-- One plugin fails on every other question and is neutral on the rest, one is neutral throughout,
one votes that control goes on, one that it stops. -/
theorem analyze_panel_invariant_callThenBreak :
    let wavering := voter fun asked site => if asked % 2 = 0 then none else some site.neutral
    let quiet := Plugin.quiet ⟨true, false, true⟩ 0
    let onward := voter fun _ _ => some false
    let halting := voter fun _ _ => some true
    let result := fun panel =>
      (analyze callThenBreak panel (Attributes.blank 6)).map (·.attributes)
    Inserted callThenBreak [onward] [wavering, onward, quiet]
      ∧ result [wavering, onward, quiet] = result [onward]
      ∧ (∀ plugin ∈ [onward, halting], plugin.Silent callThenBreak)
      ∧ result [halting, onward] = result [onward, halting]
      ∧ result [halting, onward] ≠ result [onward] ∧ result [onward] ≠ result [] := by
  intro wavering quiet onward halting result
  have hwavering : wavering.Neutral callThenBreak := by
    refine silentBut_voter fun asked site => ?_
    by_cases heven : asked % 2 = 0
    · exact Or.inl (if_pos heven)
    · exact Or.inr (if_neg heven)
  have hinserted : Inserted callThenBreak [onward] [wavering, onward, quiet] :=
    .insert hwavering (.keep onward (.insert (neutral_quiet _ _) .nil))
  have hsilent : ∀ plugin ∈ [onward, halting], plugin.Silent callThenBreak := by
    simp only [List.forall_mem_cons, List.not_mem_nil, false_imp_iff, forall_true_iff, and_true]
    exact ⟨silentBut_voter fun _ _ => trivial, silentBut_voter fun _ _ => trivial⟩
  obtain ⟨hneutral, horder⟩ :=
    analyze_panel_invariant (ν := Unit) (σ := Nat) callThenBreak (Attributes.blank 6)
  refine ⟨hinserted, hneutral _ _ hinserted, hsilent,
    horder _ _ (List.Perm.swap halting onward []) hsilent, ?_, ?_⟩
  · intro hsame
    have hbreak := congrArg (fun result => result.toOption.map fun attributes =>
      (attributes.info 3).isInstructionStart) hsame
    revert hbreak
    decide +kernel
  · intro hsame
    have hreturn := congrArg (fun result => result.toOption.map fun attributes =>
      (attributes.info 5).isInstructionStart) hsame
    revert hreturn
    decide +kernel

end Flow

end Disasm65
