/-
The analysis with every access checked: arrays and plugins.

Out of range, the analysis reads a blank attribute or a zero byte and writes nothing.  Here is the
same analysis for arrays that have nothing out of range: every read and every write of an attribute
and every read of an opcode is checked and ends the analysis when it fails (`Trap.outside`), as
does an instruction without bytes.  Each function is followed by what it takes for the checks to
pass, and then gives what the function of the same name in `Disasm65.Flow` gives.

Plugins are free in what they ask for.  Every request is checked against the image before any
attribute is touched.
-/
import Mathlib
import Disasm65.Proofs.Flow.Handing

namespace Disasm65.Flow

/-- What ends an analysis that checks all it does. -/
inductive Trap where
  /-- an array of `size` entries is used at `index` -/
  | outside (index size : Nat)
  /-- an instruction has no bytes -/
  | emptyInstruction (offset : Nat)
  /-- the analysis takes more steps than it may -/
  | outOfSteps
deriving DecidableEq

namespace Checked

variable {ν σ : Type}

/-! ### Reading and writing -/

/-- Read an entry. -/
def read {α : Type} (entries : Array α) (i : Nat) : Except Trap α :=
  match entries[i]? with
  | some entry => .ok entry
  | none => .error (.outside i entries.size)

/-- Change the attribute of a byte. -/
def write (attributes : Attributes) (i : Nat) (change : Attribute → Attribute) :
    Except Trap Attributes :=
  if i < attributes.size then .ok (attributes.update i change)
  else .error (.outside i attributes.size)

/-- Change the attributes of `length` bytes from `offset` on. -/
def writeRange (attributes : Attributes) (offset length : Nat)
    (change : Attribute → Attribute) : Except Trap Attributes :=
  if offset + length ≤ attributes.size then .ok (attributes.updateRange offset length change)
  else .error (.outside (offset + length) attributes.size)

def info (s : State ν σ) (offset : Nat) : Except Trap Attribute := read s.attributes offset

def update (s : State ν σ) (offset : Nat) (change : Attribute → Attribute) :
    Except Trap (State ν σ) := do
  let attributes ← write s.attributes offset change
  return { s with attributes }

def updateRange (s : State ν σ) (offset length : Nat) (change : Attribute → Attribute) :
    Except Trap (State ν σ) := do
  let attributes ← writeRange s.attributes offset length change
  return { s with attributes }

/-- The opcode of the byte at `offset`. -/
def opcodeAt (setup : Setup) (offset : Nat) : Except Trap Opcode := do
  let byte ← read setup.image offset
  return setup.processor.opcode byte

theorem ok_bind {α β : Type} (a : α) (f : α → Except Trap β) : (Except.ok a >>= f) = f a := rfl

section Access

variable {attributes : Attributes} {s : State ν σ} {i offset length : Nat}
variable {change : Attribute → Attribute}

theorem read_eq (h : i < attributes.size) : read attributes i = .ok (attributes.info i) := by
  rw [read, Array.getElem?_eq_getElem h, Attributes.info, Array.getD_eq_getD_getElem?,
    Array.getElem?_eq_getElem h]
  rfl

theorem write_eq (h : i < attributes.size) :
    write attributes i change = .ok (attributes.update i change) := by
  rw [write, if_pos h]

theorem writeRange_eq (h : offset + length ≤ attributes.size) :
    writeRange attributes offset length change
      = .ok (attributes.updateRange offset length change) := by
  rw [writeRange, if_pos h]

theorem info_eq (h : i < s.attributes.size) : info s i = .ok (s.info i) := read_eq h

theorem update_eq (h : i < s.attributes.size) : update s i change = .ok (s.update i change) := by
  rw [update, write_eq h]
  rfl

theorem updateRange_eq (h : offset + length ≤ s.attributes.size) :
    updateRange s offset length change = .ok (s.updateRange offset length change) := by
  rw [updateRange, writeRange_eq h]
  rfl

theorem opcodeAt_eq {setup : Setup} (h : i < setup.image.size) :
    opcodeAt setup i = .ok (setup.opcodeAt i) := by
  have hbyte : setup.image.byteAt i = setup.image[i] := by
    simp [Image.byteAt, h]
  rw [opcodeAt, read, Array.getElem?_eq_getElem h, Setup.opcodeAt, hbyte]
  rfl

end Access

section Lists

variable {α : Type} {l : List α} {f : α → Except Trap Bool} {g : α → Bool}

theorem anyM_eq (h : ∀ x ∈ l, f x = .ok (g x)) : l.anyM f = .ok (l.any g) := by
  induction l with
  | nil => rfl
  | cons x l ih =>
      rw [List.anyM, h x List.mem_cons_self, ok_bind, List.any_cons]
      cases g x with
      | true => rfl
      | false => exact ih fun y hy => h y (List.mem_cons_of_mem _ hy)

theorem allM_eq (h : ∀ x ∈ l, f x = .ok (g x)) : l.allM f = .ok (l.all g) := by
  induction l with
  | nil => rfl
  | cons x l ih =>
      rw [List.allM, h x List.mem_cons_self, ok_bind, List.all_cons]
      cases g x with
      | true => exact ih fun y hy => h y (List.mem_cons_of_mem _ hy)
      | false => rfl

end Lists

/-! ### What is done for a plugin -/

section Service

variable (setup : Setup)

def decideOperand (attributes : Attributes) (offset : Nat) (detail : FormatDetail)
    (label : String) : Except Trap (Except Refusal (Option Format)) :=
  if setup.image.size ≤ offset then return .error (.offsetOutside offset)
  else do
    let a ← read attributes offset
    if a.format.isSome || !a.isInstructionStart then return .ok none
    else return operandFormat a.instructionLength detail label

/-- A byte with the hint `hint` and the attribute `a` can be claimed as inline data. -/
def isClaimable (hint : Hint) (a : Attribute) : Bool :=
  (match hint with
    | .unset | .inlineData => true
    | .code | .data => false)
    && !a.isInstruction

/-- The format for a claim of bytes that can be claimed: `none` when it is declined. -/
def inlineFormat (offset length : Nat) (kind : FormatKind) (detail : FormatDetail)
    (label : String) : Except Refusal (Option Format) :=
  match inlineRefusal? length kind detail label with
  | some refusal => .error refusal
  | none =>
    if !holdsInline setup.image offset length kind then .ok none
    else
      let format :=
        if detail = .symbol then
          Format.reference length ⟨label, .low⟩ (kind == .bigEndian)
        else Format.create length kind detail
      match format with
      | .ok format => .ok (some format)
      | .error fault => .error (.badFormat fault)

def decideInline (attributes : Attributes) (offset length : Nat) (kind : FormatKind)
    (detail : FormatDetail) (label : String) : Except Trap (Except Refusal (Option Format)) :=
  if offset = 0 ∨ length = 0 ∨ setup.image.size < offset + length then
    return .error (.rangeOutside offset length)
  else do
    let a ← read attributes offset
    let free ← (List.range' offset length).allM fun i => do
      let b ← read attributes i
      return isClaimable (setup.hintAt i) b
    if !setup.map.isUnbroken offset length || a.format.isSome || !free then return .ok none
    else return inlineFormat setup offset length kind detail label

/-- Reply to a request on which there is a decision; `carry` carries it out. -/
def reply (attributes : Attributes) (decision : Except Refusal (Option Format))
    (carry : Format → Except Trap Attributes) : Except Trap (Reply × Attributes) :=
  match decision with
  | .error refusal => return (.error refusal, attributes)
  | .ok none => return (.ok false, attributes)
  | .ok (some format) => do
    let attributes ← carry format
    return (.ok true, attributes)

def serveOperand (attributes : Attributes) (offset : Nat) (detail : FormatDetail)
    (label : String) : Except Trap (Reply × Attributes) := do
  let decision ← decideOperand setup attributes offset detail label
  reply attributes decision fun format =>
    write attributes offset fun a => { a with format := some format }

def serveInline (attributes : Attributes) (offset length : Nat) (kind : FormatKind)
    (detail : FormatDetail) (label : String) : Except Trap (Reply × Attributes) := do
  let decision ← decideInline setup attributes offset length kind detail label
  reply attributes decision fun format => do
    let attributes ← write attributes offset fun a => { a with format := some format }
    writeRange attributes offset length fun a => a.mark .inlineData

def consult (attributes : Attributes) (journal : Array ν) :
    Consultation ν σ → Except Trap (Consulted ν σ)
  | .vote stops state => return ⟨some stops, state, attributes, journal⟩
  | .fail state => return ⟨none, state, attributes, journal⟩
  | .note entry rest => consult attributes (journal.push entry) rest
  | .peek offset rest =>
    consult attributes journal (rest setup.image[offset]? (setup.map.addressOf? offset))
  | .formatOperand offset detail label rest => do
    let (reply, attributes) ← serveOperand setup attributes offset detail label
    consult attributes journal (rest reply)
  | .claimInline offset length kind detail label rest => do
    let (reply, attributes) ← serveInline setup attributes offset length kind detail label
    consult attributes journal (rest reply)

def poll (site : CallSite) (stops : Bool) (attributes : Attributes) (journal : Array ν) :
    List (Plugin ν σ) → Except Trap (Polled ν σ)
  | [] => return ⟨stops, [], attributes, journal⟩
  | plugin :: others =>
    if plugin.capabilities.cover site then do
      let asked ← consult setup attributes journal (plugin.consult plugin.state site)
      let stops :=
        match asked.vote with
        | some vote => site.count stops vote
        | none => stops
      let rest ← poll site stops asked.attributes asked.journal others
      return { rest with panel := { plugin with state := asked.state } :: rest.panel }
    else do
      let rest ← poll site stops attributes journal others
      return { rest with panel := plugin :: rest.panel }

def askPlugins (op : Opcode) (offset : Nat) (stops : Bool) (s : State ν σ) :
    Except Trap (Bool × State ν σ) := do
  let a ← info s offset
  match callSite? setup op offset a.status with
  | some site =>
    let polled ← poll setup site stops s.attributes s.journal s.panel
    return (polled.stops, ⟨polled.attributes, s.pending, polled.panel, polled.journal⟩)
  | none => return (stops, s)

variable {setup} {attributes : Attributes} (hsize : attributes.size = setup.image.size)

include hsize

theorem decideOperand_eq (offset : Nat) (detail : FormatDetail) (label : String) :
    decideOperand setup attributes offset detail label
      = .ok (Flow.decideOperand setup attributes offset detail label) := by
  unfold decideOperand Flow.decideOperand
  dsimp only
  split
  · rfl
  · rw [read_eq (by omega), ok_bind]
    split <;> rfl

theorem decideInline_eq (offset length : Nat) (kind : FormatKind) (detail : FormatDetail)
    (label : String) :
    decideInline setup attributes offset length kind detail label
      = .ok (Flow.decideInline setup attributes offset length kind detail label) := by
  unfold decideInline Flow.decideInline
  split
  · rfl
  · have hfree : ((List.range' offset length).allM fun i => do
        let b ← read attributes i
        return isClaimable (setup.hintAt i) b)
          = .ok ((List.range' offset length).all (Flow.isClaimable setup attributes)) := by
      refine allM_eq fun i hi => ?_
      rw [List.mem_range'_1] at hi
      rw [read_eq (by omega)]
      rfl
    rw [read_eq (by omega), ok_bind, hfree, ok_bind]
    split <;> rfl

theorem serveOperand_eq (offset : Nat) (detail : FormatDetail) (label : String) :
    serveOperand setup attributes offset detail label
      = .ok (Flow.serveOperand setup attributes offset detail label) := by
  unfold serveOperand Flow.serveOperand
  rw [decideOperand_eq hsize, ok_bind]
  cases hdecision : Flow.decideOperand setup attributes offset detail label with
  | error refusal => rfl
  | ok format =>
      cases format with
      | none => rfl
      | some format =>
          -- a request past the end is refused
          have hin : offset < attributes.size := by
            by_contra hout
            rw [Flow.decideOperand, if_pos (by omega)] at hdecision
            cases hdecision
          rw [reply, write_eq hin]
          rfl

theorem serveInline_eq (offset length : Nat) (kind : FormatKind) (detail : FormatDetail)
    (label : String) :
    serveInline setup attributes offset length kind detail label
      = .ok (Flow.serveInline setup attributes offset length kind detail label) := by
  unfold serveInline Flow.serveInline
  rw [decideInline_eq hsize, ok_bind]
  cases hdecision : Flow.decideInline setup attributes offset length kind detail label with
  | error refusal => rfl
  | ok format =>
      cases format with
      | none => rfl
      | some format =>
          obtain ⟨hlength, hin⟩ : length ≠ 0 ∧ offset + length ≤ attributes.size := by
            by_contra hout
            rw [Flow.decideInline, if_pos (by omega)] at hdecision
            cases hdecision
          rw [reply, write_eq (by omega), ok_bind,
            writeRange_eq (by rw [Attributes.size_update]; exact hin)]
          rfl

theorem consult_eq (journal : Array ν) (consultation : Consultation ν σ) :
    consult setup attributes journal consultation
      = .ok (Flow.consult setup attributes journal consultation) := by
  induction consultation generalizing attributes journal with
  | vote _ _ | fail _ => rfl
  | note _ _ ih => exact ih hsize _
  | peek _ _ ih => exact ih _ _ hsize journal
  | formatOperand offset detail label rest ih =>
      rw [consult, serveOperand_eq hsize]
      refine ih _ ?_ journal
      exact (serveOperand_serves attributes offset detail label).size.trans hsize
  | claimInline offset length kind detail label rest ih =>
      rw [consult, serveInline_eq hsize]
      refine ih _ ?_ journal
      exact (serveInline_serves attributes offset length kind detail label).size.trans hsize

theorem poll_eq (site : CallSite) (stops : Bool) (journal : Array ν) (panel : List (Plugin ν σ)) :
    poll setup site stops attributes journal panel
      = .ok (Flow.poll setup site stops attributes journal panel) := by
  induction panel generalizing attributes stops journal with
  | nil => rfl
  | cons plugin others ih =>
      unfold poll Flow.poll
      split
      · rw [consult_eq hsize, ok_bind]
        dsimp only
        rw [ih ((consult_serves _ _ _).size.trans hsize)]
        rfl
      · rw [ih hsize]
        rfl

end Service

theorem askPlugins_eq {setup : Setup} {s : State ν σ}
    (hsize : s.attributes.size = setup.image.size) {offset : Nat} (hin : offset < setup.image.size)
    (op : Opcode) (stops : Bool) :
    askPlugins setup op offset stops s = .ok (Flow.askPlugins setup op offset stops s) := by
  unfold askPlugins Flow.askPlugins
  rw [info_eq (by omega), ok_bind]
  cases callSite? setup op offset (s.info offset).status with
  | none => rfl
  | some site =>
      dsimp only
      rw [poll_eq hsize]
      rfl

end Checked

end Disasm65.Flow
