/-
The analysis with every access checked: a visit.

A visit starts inside the image and decodes an instruction only where it fits; what it looks for
before the instruction and after it lies in the image too.  The branch target is the one offset
that comes from elsewhere: it has to be in the image (`visit_eq`).
-/
import Mathlib
import Disasm65.Proofs.Flow.Checked.Service
import Disasm65.Proofs.Flow.Visit

namespace Disasm65.Flow.Checked

variable {ν σ : Type}

/-! ### The status after an instruction -/

def matchingPhp? (setup : Setup) (attributes : Attributes) :
    (count limit : Nat) → Except Trap (Option Nat)
  | 0, _ => return none
  | count + 1, limit => do
    let i := limit - 1
    let a ← read attributes i
    let op ← opcodeAt setup i
    if a.isInstructionStart && a.isVisited && op.isPhp then return some i
    else matchingPhp? setup attributes count i

def pushedStatus (setup : Setup) (attributes : Attributes) (offset : Nat) :
    Except Trap StatusFlags :=
  if setup.parameters.matchesPlp then do
    let found ← matchingPhp? setup attributes (min offset setup.parameters.plpWindow) offset
    match found with
    | some php =>
      let a ← read attributes php
      return a.status
    | none => return .indeterminate
  else return .indeterminate

/-- What a PLP makes of the status `pushed` that it finds on the stack. -/
def restoredStatus (setup : Setup) (current pushed : StatusFlags) : StatusFlags :=
  let widths :=
    if pushed = .indeterminate ∧ setup.processor.family = .wide65816 then
      (pushed.set .memory (current.get .memory)).set .index (current.get .index)
    else pushed
  widths.set .emulation (current.get .emulation)

def statusAfter (setup : Setup) (attributes : Attributes) (offset : Nat) (op : Opcode)
    (status : StatusFlags) : Except Trap Transition :=
  if op.isPlp then do
    let a ← read attributes offset
    let pushed ← pushedStatus setup attributes offset
    let pulled := restoredStatus setup a.status pushed
    return ⟨pulled, pulled⟩
  else return op.transition status setup.image offset

section Status

variable {setup : Setup} {attributes : Attributes} (hsize : attributes.size = setup.image.size)

include hsize

theorem matchingPhp?_eq {count limit : Nat} (hcount : count ≤ limit)
    (hlimit : limit ≤ setup.image.size) :
    matchingPhp? setup attributes count limit
        = .ok (Flow.matchingPhp?.search setup attributes count limit)
      ∧ ∀ php, Flow.matchingPhp?.search setup attributes count limit = some php →
          php < setup.image.size := by
  induction count generalizing limit with
  | zero =>
      refine ⟨rfl, fun php hphp => ?_⟩
      cases hphp
  | succ count ih =>
      obtain ⟨hrest, hbound⟩ := ih (show count ≤ limit - 1 by omega) (by omega)
      unfold matchingPhp? Flow.matchingPhp?.search
      dsimp only
      rw [read_eq (by omega), ok_bind, opcodeAt_eq (by omega), ok_bind]
      split
      · refine ⟨rfl, fun php hphp => ?_⟩
        cases hphp
        omega
      · exact ⟨hrest, hbound⟩

theorem statusAfter_eq {offset : Nat} (hin : offset < setup.image.size) (op : Opcode)
    (status : StatusFlags) :
    statusAfter setup attributes offset op status
      = .ok (Flow.statusAfter setup attributes offset op status) := by
  unfold statusAfter Flow.statusAfter
  split
  · obtain ⟨hfound, hbound⟩ := matchingPhp?_eq hsize
      (Nat.min_le_left offset setup.parameters.plpWindow) (by omega)
    rw [read_eq (by omega), ok_bind, pushedStatus, pulledStatus, Flow.matchingPhp?]
    split
    · rw [hfound, ok_bind]
      cases hphp : Flow.matchingPhp?.search setup attributes
          (min offset setup.parameters.plpWindow) offset with
      | none => rfl
      | some php =>
          have := hbound php hphp
          dsimp only
          rw [read_eq (by omega)]
          rfl
    · rfl
  · rfl

end Status

/-! ### Where control goes -/

def followBranch (setup : Setup) (target : Nat) (incoming : StatusFlags) (s : State ν σ) :
    Except Trap (State ν σ) := do
  let before ← info s target
  if isBlocked before then return s
  else
    let s ← update s target (branchChange setup target incoming before)
    if needsVisit setup target incoming before && !s.pending.contains target then
      return { s with pending := target :: s.pending }
    else return s

def skipInline (attributes : Attributes) : (count offset : Nat) → Except Trap Nat
  | 0, offset => return offset
  | count + 1, offset => do
    let a ← read attributes offset
    if a.isInlineData then skipInline attributes count (offset + 1) else return offset

def fallThrough (setup : Setup) (offset length : Nat) (incoming : StatusFlags) (s : State ν σ) :
    Except Trap (State ν σ × Option Nat) := do
  let size := setup.image.size
  let next ← skipInline s.attributes (size - (offset + length)) (offset + length)
  if size ≤ next then return (s, none)
  else
    let before ← info s next
    let a ← info s offset
    if before.isData || before.address != wrap32 (a.address + (next - offset)) then
      return (s, none)
    else
      let s ← update s next (onwardChange setup incoming next before)
      let learns := setup.arrive next before.status incoming != before.status
      return (s, if before.isVisited && !before.isChanged && !learns then none else some next)

section Control

variable {setup : Setup} {s : State ν σ} (hsize : s.attributes.size = setup.image.size)

include hsize

theorem followBranch_eq {target : Nat} (hin : target < setup.image.size)
    (incoming : StatusFlags) :
    followBranch setup target incoming s = .ok (Flow.followBranch setup target incoming s) := by
  unfold followBranch
  rw [info_eq (by omega), ok_bind]
  split
  · rename_i hblocked
    rw [followBranch_of_blocked setup target incoming s hblocked]
    rfl
  · rename_i hopen
    rw [followBranch_of_unblocked setup target incoming s (by simpa using hopen),
      update_eq (by omega), ok_bind]
    split <;> rename_i hneeds
    · exact (congrArg _ (if_pos hneeds)).symm
    · exact (congrArg _ (if_neg hneeds)).symm

omit hsize in
theorem skipInline_eq {attributes : Attributes} {count offset : Nat}
    (h : offset + count ≤ attributes.size) :
    skipInline attributes count offset = .ok (Flow.skipInline attributes count offset) := by
  induction count generalizing offset with
  | zero => rfl
  | succ count ih =>
      unfold skipInline Flow.skipInline
      rw [read_eq (by omega), ok_bind]
      split
      · exact ih (by omega)
      · rfl

theorem fallThrough_eq {offset length : Nat} (hin : offset < setup.image.size)
    (hend : offset + length ≤ setup.image.size) (incoming : StatusFlags) :
    fallThrough setup offset length incoming s
      = .ok (Flow.fallThrough setup offset length incoming s) := by
  have honward : Flow.skipInline s.attributes (setup.image.size - (offset + length))
      (offset + length) = onward setup offset length s := rfl
  unfold fallThrough
  dsimp only
  rw [skipInline_eq (by omega), ok_bind, honward]
  split
  · rename_i hout
    rw [fallThrough_of_not setup offset length incoming s fun hgo => by
      have := hgo.1
      omega]
    rfl
  · rename_i hnext
    rw [info_eq (by omega), ok_bind, info_eq (by omega), ok_bind]
    split
    · rename_i hstop
      rw [fallThrough_of_not setup offset length incoming s fun hgo => by
        rw [hgo.2.1, hgo.2.2, Bool.false_or, bne_self_eq_false] at hstop
        cases hstop]
      rfl
    · rename_i hgo
      rw [fallThrough_of_canGoOn setup offset length incoming s ?_, update_eq (by omega)]
      · rfl
      · simp only [Bool.or_eq_true, bne_iff_ne, not_or, not_not, Bool.not_eq_true] at hgo
        exact ⟨by omega, hgo⟩

end Control

/-! ### A visit -/

def breakAsked (setup : Setup) (offset : Nat) (op : Opcode) (status : StatusFlags)
    (s : State ν σ) : Except Trap (Bool × State ν σ) :=
  if op.isBrk then do
    let asked ← askPlugins setup op offset (!continues op status) s
    return (continues op status || !asked.1, asked.2)
  else return (continues op status, s)

def callAsked (setup : Setup) (offset : Nat) (op : Opcode) (first : Bool) (s : State ν σ) :
    Except Trap (Bool × State ν σ) :=
  if first && (op.isJsr || op.isJsl) then askPlugins setup op offset false s
  else return (false, s)

def leave (setup : Setup) (offset : Nat) (op : Opcode) (length : Nat) (first : Bool)
    (status next : StatusFlags) (s : State ν σ) : Except Trap (State ν σ × Option Nat) := do
  let asked ← breakAsked setup offset op status s
  let s ← update asked.2 offset fun a => a.putMark .noContinue (!asked.1)
  let a ← info s offset
  if a.doesNotContinue || setup.image.size ≤ offset + length then return (s, none)
  else
    let asked ← callAsked setup offset op first s
    if asked.1 then
      let s ← update asked.2 offset fun a => a.mark .noContinuePlugin
      return (s, none)
    else fallThrough setup offset length next asked.2

def resolved (setup : Setup) (offset : Nat) (op : Opcode) (first : Bool) (s : State ν σ) :
    Except Trap (State ν σ) :=
  if first then update s offset (resolveOperand setup offset op) else return s

def branched (setup : Setup) (op : Opcode) (status : StatusFlags) (target : Option Nat)
    (taken : StatusFlags) (s : State ν σ) : Except Trap (State ν σ) :=
  match if recordedVerdict? op status = some .never then none else target with
  | some target => followBranch setup target taken s
  | none => return s

def execute (setup : Setup) (offset : Nat) (op : Opcode) (length : Nat) (first : Bool)
    (status : StatusFlags) (s : State ν σ) : Except Trap (State ν σ × Option Nat) :=
  if length = 0 then .error (.emptyInstruction offset)
  else do
    let s ← update s offset fun a =>
      { a.mark .instructionStart with instructionLength := length }
    let s ← updateRange s offset length claimByte
    let after ← statusAfter setup s.attributes offset op status
    let s ← resolved setup offset op first s
    let a ← info s offset
    let s ← update s offset (noteBranch op status (branchTarget? op a))
    let s ← branched setup op status (branchTarget? op a) after.taken s
    leave setup offset op length first status after.next s

def staysInRegion (setup : Setup) (attributes : Attributes) (offset length : Nat) :
    Except Trap Bool :=
  if offset + length ≤ setup.image.size then do
    let crosses ← (List.range' (offset + 1) (length - 1)).anyM fun i => do
      let a ← read attributes i
      return a.isRegionStart
    return !crosses
  else return false

def visit (setup : Setup) (offset : Nat) (s : State ν σ) :
    Except Trap (State ν σ × Option Nat) :=
  if setup.image.size ≤ offset then return (s, none)
  else do
    let before ← info s offset
    if before.isVisited && !before.isChanged then return (s, none)
    else
      let s ← update s offset visitByte
      if isBlocked before then return (s, none)
      else
        let op ← opcodeAt setup offset
        let length := op.length before.status
        let stays ← staysInRegion setup s.attributes offset length
        if !stays then
          let s ← update s offset rejectByte
          return (s, none)
        else if !op.isValid then return (s, none)
        else execute setup offset op length (!before.isVisited) before.status s

section Visit

variable {setup : Setup} {s : State ν σ} {offset : Nat}
variable (hsize : s.attributes.size = setup.image.size) (hin : offset < setup.image.size)

include hsize hin

theorem breakAsked_eq (op : Opcode) (status : StatusFlags) :
    breakAsked setup offset op status s = .ok (Flow.breakAsked setup offset op status s) := by
  unfold breakAsked Flow.breakAsked
  split
  · rw [askPlugins_eq hsize hin]
    rfl
  · rfl

theorem callAsked_eq (op : Opcode) (first : Bool) :
    callAsked setup offset op first s = .ok (Flow.callAsked setup offset op first s) := by
  unfold callAsked Flow.callAsked
  split
  · rw [askPlugins_eq hsize hin]
  · rfl

theorem leave_eq (op : Opcode) {length : Nat} (hend : offset + length ≤ setup.image.size)
    (first : Bool) (status next : StatusFlags) :
    leave setup offset op length first status next s
      = .ok (Flow.leave setup offset op length first status next s) := by
  have hmarked := (size_stopMarked setup offset op status s).trans hsize
  have hasked := (size_bothAsked setup offset op first status s).trans hsize
  have hstop : update (Flow.breakAsked setup offset op status s).2 offset
      (fun a => a.putMark .noContinue (!(Flow.breakAsked setup offset op status s).1))
        = .ok (stopMarked setup offset op status s) :=
    update_eq (by rw [breakAsked_serves.size]; omega)
  rw [Flow.leave_eq]
  unfold leave
  rw [breakAsked_eq hsize hin, ok_bind, hstop, ok_bind, info_eq (by omega), ok_bind]
  dsimp only
  split
  · rfl
  · rw [callAsked_eq hmarked hin, ok_bind, ← bothAsked]
    split
    · rw [update_eq (by omega)]
      rfl
    · exact fallThrough_eq hasked hin hend next

theorem resolved_eq (op : Opcode) (length : Nat) (first : Bool) :
    resolved setup offset op first (claimed offset length s)
      = .ok (Flow.resolved setup offset op length first s) := by
  unfold resolved Flow.resolved
  cases first
  · rfl
  · exact update_eq (by rw [size_claimed]; omega)

omit hin in
theorem branched_eq (op : Opcode) (status : StatusFlags) {target : Option Nat}
    (htarget : ∀ t, target = some t → t < setup.image.size) (taken : StatusFlags) :
    branched setup op status target taken s
      = .ok (Flow.branched setup op status target taken s) := by
  unfold branched Flow.branched
  cases hfollowed : (if recordedVerdict? op status = some .never then none else target) with
  | none => rfl
  | some t =>
      refine followBranch_eq hsize (htarget t ?_) taken
      split at hfollowed
      · cases hfollowed
      · exact hfollowed

theorem execute_eq (op : Opcode) {length : Nat} (hlength : 0 < length)
    (hend : offset + length ≤ setup.image.size) (first : Bool) (status : StatusFlags)
    (htarget : ∀ t,
      branchTarget? op ((Flow.resolved setup offset op length first s).info offset) = some t →
        t < setup.image.size) :
    execute setup offset op length first status s
      = .ok (Flow.execute setup offset op length first status s) := by
  have hclaimed : (claimed offset length s).attributes.size = setup.image.size :=
    size_claimed.trans hsize
  have hresolved : (Flow.resolved setup offset op length first s).attributes.size
      = setup.image.size :=
    size_resolved.trans hsize
  have hdecoded : (decoded setup offset op length first status s).attributes.size
      = setup.image.size :=
    size_decoded.trans hsize
  have hclaim : updateRange (s.update offset fun a =>
      { a.mark .instructionStart with instructionLength := length }) offset length claimByte
        = .ok (claimed offset length s) :=
    updateRange_eq (by rw [State.size_update]; omega)
  have hdecode : update (Flow.resolved setup offset op length first s) offset
      (noteBranch op status (branchTarget? op
        ((Flow.resolved setup offset op length first s).info offset)))
        = .ok (decoded setup offset op length first status s) :=
    update_eq (by omega)
  rw [Flow.execute_eq, execute, if_neg (by omega), update_eq (by omega), ok_bind, hclaim, ok_bind,
    statusAfter_eq hclaimed hin, ok_bind, resolved_eq hsize hin, ok_bind, info_eq (by omega),
    ok_bind, hdecode, ok_bind, branched_eq hdecoded op status htarget, ok_bind]
  exact leave_eq ((size_branched setup op status _ _ _).trans hdecoded) hin op hend first status _

omit hin in
theorem staysInRegion_eq (length : Nat) :
    staysInRegion setup s.attributes offset length
      = .ok (Flow.staysInRegion setup s.attributes offset length) := by
  unfold staysInRegion Flow.staysInRegion
  split
  · rename_i hend
    rw [decide_eq_true hend, Bool.true_and,
      anyM_eq (g := fun i => (s.attributes.info i).isRegionStart) fun i hi => ?_]
    · rfl
    · rw [List.mem_range'_1] at hi
      rw [read_eq (by omega)]
      rfl
  · rename_i hend
    rw [decide_eq_false hend, Bool.false_and]
    rfl

omit hsize hin in
theorem le_of_staysInRegion {attributes : Attributes} {length : Nat}
    (h : Flow.staysInRegion setup attributes offset length = true) :
    offset + length ≤ setup.image.size := by
  unfold Flow.staysInRegion at h
  exact of_decide_eq_true (Bool.and_eq_true_iff.mp h).1

omit hin in
/-- **A visit passes its checks**, if its branch leads into the image. -/
theorem visit_eq (htarget : ∀ t, branchTarget? (setup.opcodeAt offset)
      (decodedByte setup offset (s.info offset)) = some t → t < setup.image.size) :
    visit setup offset s = .ok (Flow.visit setup offset s) := by
  rw [Flow.visit_eq]
  unfold visit
  dsimp only
  by_cases hin : offset < setup.image.size
  · have hvisited : (s.update offset visitByte).attributes.size = setup.image.size :=
      State.size_update.trans hsize
    rw [if_neg (by omega), info_eq (by omega), ok_bind, decide_eq_false (by omega), Bool.false_or]
    split
    · rfl
    · rw [update_eq (by omega), ok_bind]
      split
      · rfl
      · rw [opcodeAt_eq hin, ok_bind, staysInRegion_eq hvisited, ok_bind]
        split
        · rw [update_eq (by omega)]
          rfl
        · rename_i hstays
          split
          · rfl
          · refine execute_eq hvisited hin _ (length_pos _ _) ?_ _ _ ?_
            · exact le_of_staysInRegion (by simpa using hstays)
            · rw [branchTarget?_resolvedAt setup (by omega)]
              exact htarget
  · rw [if_pos (by omega), decide_eq_true (by omega), Bool.true_or]
    rfl

end Visit

end Disasm65.Flow.Checked
