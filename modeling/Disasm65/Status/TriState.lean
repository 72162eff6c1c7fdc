/-
Words whose bits are known only in part.

A bit can be zero, can be one, can be either, or has not been specified at all.  The four states
are two marks per bit, "could be zero" and "could be one", and a word of `w` such bits is a pair
of ordinary words.  Merging what two paths know is the union of their marks, so a bit on which the
paths disagree becomes indeterminate and stays so; an override replaces the bits it specifies and
leaves the others alone.
-/

namespace Disasm65

/-- What is known about one bit. -/
inductive BitState where
  | unspecified
  | indeterminate
  | zero
  | one
deriving DecidableEq

namespace BitState

/-- Every state. -/
def all : List BitState := [.unspecified, .indeterminate, .zero, .one]

def name : BitState → String
  | .unspecified => "Unspecified"
  | .indeterminate => "Indeterminate"
  | .zero => "Zero"
  | .one => "One"

/-- The state with the given name. -/
def ofName? (text : String) : Option BitState := all.find? (·.name == text)

/-- The state of a bit whose value is known. -/
def ofBool (value : Bool) : BitState := if value then .one else .zero

/-- A bit is known when it has one possible value. -/
def isKnown : BitState → Bool
  | .zero | .one => true
  | .unspecified | .indeterminate => false

/-- The state of a bit from its two marks. -/
def ofMarks : (couldBeZero couldBeOne : Bool) → BitState
  | false, false => .unspecified
  | true, true => .indeterminate
  | true, false => .zero
  | false, true => .one

/-- The mark "could be zero". -/
def couldBeZero : BitState → Bool
  | .zero | .indeterminate => true
  | .one | .unspecified => false

/-- The mark "could be one". -/
def couldBeOne : BitState → Bool
  | .one | .indeterminate => true
  | .zero | .unspecified => false

end BitState

/-- A word of `w` bits, each with its two marks. -/
structure TriState (w : Nat) where
  zero : BitVec w
  one : BitVec w
deriving DecidableEq

namespace TriState

variable {w : Nat}

/-- No bit specified. -/
def unspecified : TriState w := ⟨0#w, 0#w⟩

/-- Every bit indeterminate. -/
def indeterminate : TriState w := ⟨BitVec.allOnes w, BitVec.allOnes w⟩

/-- What is known about bit `i`. -/
def get (t : TriState w) (i : Nat) : BitState :=
  .ofMarks (t.zero.getLsbD i) (t.one.getLsbD i)

/-- One of the two words with the mark of bit `i` switched on or off. -/
def putMark (word : BitVec w) (i : Nat) (on : Bool) : BitVec w :=
  if on then word ||| BitVec.twoPow w i else word &&& ~~~ BitVec.twoPow w i

/-- Give bit `i` the state `state`. -/
def set (t : TriState w) (i : Nat) (state : BitState) : TriState w :=
  ⟨putMark t.zero i state.couldBeZero, putMark t.one i state.couldBeOne⟩

/-- What holds when control may come from either side. -/
def merge (t other : TriState w) : TriState w :=
  ⟨t.zero ||| other.zero, t.one ||| other.one⟩

/-- Replace every bit that `overrides` specifies. -/
def apply (t overrides : TriState w) : TriState w :=
  let keep := ~~~ (overrides.zero ||| overrides.one)
  ⟨(t.zero &&& keep) ||| overrides.zero, (t.one &&& keep) ||| overrides.one⟩

end TriState

end Disasm65
