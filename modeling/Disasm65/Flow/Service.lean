/-
What the analysis does for a plugin.

A request is carried out, declined, or refused with a reason.  Only a request that is carried out
changes an attribute: `decideOperand` and `decideInline` decide, and the change follows from the
decision.
-/
import Disasm65.Flow.Setup
import Disasm65.Plugin
import Disasm65.Text.Strings

namespace Disasm65.Flow

/-- The format a plugin may give an operand of an instruction of `length` bytes.  A reference needs
a label. -/
def operandFormat (length : Nat) (detail : FormatDetail) (label : String) :
    Except Refusal (Option Format) :=
  let wrap (format : Except Fault Format) : Except Refusal (Option Format) :=
    match format with
    | .ok format => .ok (some format)
    | .error fault => .error (.badFormat fault)
  match detail with
  | .symbol => if label = "" then .ok none else wrap (Format.reference length ⟨label, .low⟩ false)
  | .hex | .decimal | .binary | .address | .ascii | .highAscii | .petscii | .screenCode =>
    wrap (Format.create length .littleEndian detail)
  | .plain | .anyAscii | .ignore | .align _ => .error (.unsupportedOperand detail)

/-- Decide on a request to format the operand of the instruction at `offset`: `none` when it is
declined. -/
def decideOperand (setup : Setup) (attributes : Attributes) (offset : Nat)
    (detail : FormatDetail) (label : String) : Except Refusal (Option Format) :=
  let a := attributes.info offset
  if setup.image.size ≤ offset then .error (.offsetOutside offset)
  else if a.format.isSome || !a.isInstructionStart then .ok none
  else operandFormat a.instructionLength detail label

/-- Why a kind, a detail and a length cannot be claimed as inline data. -/
def inlineRefusal? (length : Nat) (kind : FormatKind) (detail : FormatDetail) (label : String) :
    Option Refusal :=
  if kind = .unformatted ∨ kind = .junk then some (.unsupportedInline kind)
  else if (kind = .dense ∨ kind = .fill) ∧ detail ≠ .plain then some (.detailNotAllowed kind)
  else if kind.isString ∧ (detail.isCharacter = false ∨ detail = .anyAscii) then
    some (.encodingNeeded kind detail)
  else if kind.isNumeric ∧ Format.maxNumberLength < length then some (.numberTooLong length)
  else if detail = .symbol ∧ label = "" then some .labelMissing
  else none

/-- The bytes hold what the kind says: a string of that layout, or one value repeated. -/
def holdsInline (image : Image) (offset length : Nat) (kind : FormatKind) : Bool :=
  if kind.isString then (image.stringFlaw? offset length kind).isNone
  else kind != .fill || image.isFill offset length

/-- The byte can be claimed as inline data. -/
def isClaimable (setup : Setup) (attributes : Attributes) (offset : Nat) : Bool :=
  (match setup.hintAt offset with
    | .unset | .inlineData => true
    | .code | .data => false)
    && !(attributes.info offset).isInstruction

/-- Decide on a claim of the `length` bytes at `offset` as inline data: `none` when it is
declined. -/
def decideInline (setup : Setup) (attributes : Attributes) (offset length : Nat)
    (kind : FormatKind) (detail : FormatDetail) (label : String) :
    Except Refusal (Option Format) :=
  if offset = 0 ∨ length = 0 ∨ setup.image.size < offset + length then
    .error (.rangeOutside offset length)
  else if !setup.map.isUnbroken offset length || (attributes.info offset).format.isSome
      || !(List.range' offset length).all (isClaimable setup attributes) then .ok none
  else
    match inlineRefusal? length kind detail label with
    | some refusal => .error refusal
    | none =>
      if !holdsInline setup.image offset length kind then .ok none
      else
        let format :=
          if detail = .symbol then
            Format.reference length ⟨label, .low⟩ (kind == .bigEndian)
          else Format.create length kind detail
        match format with
        | .ok format => .ok (some format)
        | .error fault => .error (.badFormat fault)

/-- Serve a request to format an operand. -/
def serveOperand (setup : Setup) (attributes : Attributes) (offset : Nat)
    (detail : FormatDetail) (label : String) : Reply × Attributes :=
  match decideOperand setup attributes offset detail label with
  | .error refusal => (.error refusal, attributes)
  | .ok none => (.ok false, attributes)
  | .ok (some format) =>
    (.ok true, attributes.update offset fun a => { a with format := some format })

/-- Serve a claim of bytes as inline data. -/
def serveInline (setup : Setup) (attributes : Attributes) (offset length : Nat)
    (kind : FormatKind) (detail : FormatDetail) (label : String) : Reply × Attributes :=
  match decideInline setup attributes offset length kind detail label with
  | .error refusal => (.error refusal, attributes)
  | .ok none => (.ok false, attributes)
  | .ok (some format) =>
    (.ok true,
      (attributes.update offset fun a => { a with format := some format }).updateRange offset
        length fun a => a.mark .inlineData)

/-- What a consultation leaves behind. -/
structure Consulted (ν σ : Type) where
  /-- the vote, unless the plugin failed -/
  vote : Option Bool
  state : σ
  attributes : Attributes
  journal : Array ν

/-- Hold a consultation. -/
def consult (setup : Setup) (attributes : Attributes) (journal : Array ν) :
    Consultation ν σ → Consulted ν σ
  | .vote stops state => ⟨some stops, state, attributes, journal⟩
  | .fail state => ⟨none, state, attributes, journal⟩
  | .note entry rest => consult setup attributes (journal.push entry) rest
  | .peek offset rest =>
    consult setup attributes journal
      (rest setup.image[offset]? (setup.map.addressOf? offset))
  | .formatOperand offset detail label rest =>
    let (reply, attributes) := serveOperand setup attributes offset detail label
    consult setup attributes journal (rest reply)
  | .claimInline offset length kind detail label rest =>
    let (reply, attributes) := serveInline setup attributes offset length kind detail label
    consult setup attributes journal (rest reply)

/-- What asking all plugins leaves behind. -/
structure Polled (ν σ : Type) where
  stops : Bool
  panel : List (Plugin ν σ)
  attributes : Attributes
  journal : Array ν

/-- Ask every plugin that wants to be asked, in order.  One that fails has no vote, but what it has
done before stands. -/
def poll (setup : Setup) (site : CallSite) (stops : Bool) (attributes : Attributes)
    (journal : Array ν) : List (Plugin ν σ) → Polled ν σ
  | [] => ⟨stops, [], attributes, journal⟩
  | plugin :: others =>
    if plugin.capabilities.cover site then
      let asked := consult setup attributes journal (plugin.consult plugin.state site)
      let stops :=
        match asked.vote with
        | some vote => site.count stops vote
        | none => stops
      let rest := poll setup site stops asked.attributes asked.journal others
      { rest with panel := { plugin with state := asked.state } :: rest.panel }
    else
      let rest := poll setup site stops attributes journal others
      { rest with panel := plugin :: rest.panel }

end Disasm65.Flow
