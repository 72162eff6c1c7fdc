/-
Plugins: what the flow analysis asks about calls and breaks.

A subroutine call may be followed by parameters, a break may be a system call, a call may never
return.  Plugins know such conventions.  One is asked about a call site and, before it answers,
may look at the image, choose the format of an operand, and claim bytes as inline data.

A plugin's part of such a talk is a `Consultation`: a tree of requests, each going on with the
reply it gets, that ends in a vote or in a failure.  It says everything a plugin can do, so an
analysis can be reasoned about for all plugins at once.  A plugin keeps a state of type `σ` from
one consultation to the next and may leave notes of type `ν` in the journal of the analysis.
-/
import Disasm65.Format.Basic

namespace Disasm65

/-- Why a request of a plugin is refused as wrong, not just declined. -/
inductive Refusal where
  | offsetOutside (offset : Nat)
  | rangeOutside (offset length : Nat)
  | unsupportedOperand (detail : FormatDetail)
  | unsupportedInline (kind : FormatKind)
  | detailNotAllowed (kind : FormatKind)
  | encodingNeeded (kind : FormatKind) (detail : FormatDetail)
  | numberTooLong (length : Nat)
  | labelMissing
  | badFormat (fault : Fault)
deriving DecidableEq

/-- The classes of refusals. -/
inductive RefusalKind where
  | badArguments
  | unsupported
deriving DecidableEq

namespace Refusal

/-- The class of a refusal. -/
def kind : Refusal → RefusalKind
  | .unsupportedOperand _ | .unsupportedInline _ => .unsupported
  | .offsetOutside _ | .rangeOutside .. | .detailNotAllowed _ | .encodingNeeded ..
  | .numberTooLong _ | .labelMissing | .badFormat _ => .badArguments

/-- The part of the message that is about this refusal. -/
def detail : Refusal → String
  | .offsetOutside offset => "offset " ++ offsetText offset
  | .rangeOutside offset length => "range " ++ offsetText offset ++ " len " ++ Nat.repr length
  | .unsupportedOperand detail => "operand sub-type " ++ detail.name
  | .unsupportedInline kind => "inline data type " ++ kind.name
  | .detailNotAllowed kind => kind.name ++ " must not have a sub-type"
  | .encodingNeeded kind detail => kind.name ++ " needs a character encoding, got " ++ detail.name
  | .numberTooLong length => "numeric length " ++ Nat.repr length ++ " too long"
  | .labelMissing => "symbol reference without a label"
  | .badFormat fault => fault.message

/-- The whole message. -/
def message (refusal : Refusal) : String :=
  (match refusal.kind with
    | .badArguments => "bad arguments: "
    | .unsupported => "unsupported format: ")
    ++ refusal.detail

end Refusal

/-- The reply to a request: whether it was carried out, or why it is wrong. -/
abbrev Reply := Except Refusal Bool

/-- What a plugin is asked about. -/
inductive CallSite where
  /-- a call of a subroutine in the same bank -/
  | jsr (offset target : Nat)
  /-- a call of a subroutine in any bank -/
  | jsl (offset target : Nat)
  /-- a break; `signed` says that a signature byte belongs to the instruction -/
  | brk (offset : Nat) (signed : Bool)
deriving DecidableEq

namespace CallSite

def offset : CallSite → Nat
  | .jsr offset _ | .jsl offset _ | .brk offset _ => offset

/-- The vote that changes nothing: a call returns, a break does not. -/
def neutral : CallSite → Bool
  | .jsr .. | .jsl .. => false
  | .brk .. => true

/-- Take a vote on whether control stops here.  One vote stops a call; a break goes on after one
vote that it does. -/
def count (site : CallSite) (stops vote : Bool) : Bool :=
  match site with
  | .jsr .. | .jsl .. => stops || vote
  | .brk .. => stops && vote

end CallSite

/-- What a plugin does when it is asked. -/
inductive Consultation (ν σ : Type) where
  /-- vote on whether control stops at the call site -/
  | vote (stops : Bool) (state : σ)
  /-- break off without a vote -/
  | fail (state : σ)
  /-- leave a note -/
  | note (entry : ν) (rest : Consultation ν σ)
  /-- ask for the byte and the address at an offset -/
  | peek (offset : Nat) (rest : Option UInt8 → Option Nat → Consultation ν σ)
  /-- choose the format of the operand of the instruction at an offset -/
  | formatOperand (offset : Nat) (detail : FormatDetail) (label : String)
      (rest : Reply → Consultation ν σ)
  /-- claim bytes as inline data -/
  | claimInline (offset length : Nat) (kind : FormatKind) (detail : FormatDetail)
      (label : String) (rest : Reply → Consultation ν σ)

/-- The call sites a plugin wants to be asked about. -/
structure Capabilities where
  jsr : Bool
  jsl : Bool
  brk : Bool
deriving DecidableEq

/-- The plugin wants to be asked about the call site. -/
def Capabilities.cover (capabilities : Capabilities) : CallSite → Bool
  | .jsr .. => capabilities.jsr
  | .jsl .. => capabilities.jsl
  | .brk .. => capabilities.brk

/-- A plugin in its present state. -/
structure Plugin (ν σ : Type) where
  capabilities : Capabilities
  consult : σ → CallSite → Consultation ν σ
  state : σ

/-- The plugin that is always neutral. -/
def Plugin.quiet (capabilities : Capabilities) (state : σ) : Plugin ν σ where
  capabilities
  consult state site := .vote site.neutral state
  state

end Disasm65
