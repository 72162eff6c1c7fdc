/-
Sets of bits as text: the names of the bits that are on, with bars between them, and bits without a
name as one hexadecimal number at the end.
-/
import Disasm65.Persist.Codec
import Disasm65.Text.Blank
import Disasm65.Text.Hex

namespace Disasm65

/-- Names for bits of a word. -/
structure BitNames (w : Nat) where
  /-- the names of single bits, in the order in which they are written -/
  single : List (String × BitVec w)
  /-- names that are understood for several bits at once -/
  combined : List (String × BitVec w)

namespace BitNames

variable {w : Nat}

/-- The text of a set. -/
def render (names : BitNames w) (bits : BitVec w) : String :=
  let present := names.single.filter fun (_, bit) => bits &&& bit != 0#w
  let unnamed := bits &&& ~~~ (names.single.foldl (fun known (_, bit) => known ||| bit) 0#w)
  let parts := present.map (·.1) ++ (if unnamed = 0#w then [] else ["0x" ++ hex 1 unnamed.toNat])
  " | ".intercalate parts

/-- The lists between the separators. -/
def splitAtBars (cs : List Char) : List (List Char) :=
  cs.foldr
    (fun c parts =>
      if c == '|' then [] :: parts
      else
        match parts with
        | part :: others => (c :: part) :: others
        | [] => [[c]])
    [[]]

/-- The bits of a hexadecimal number, which may have a plus sign. -/
def hexBits? (digits : List Char) : Option (BitVec w) :=
  let digits :=
    match digits with
    | '+' :: rest => rest
    | _ => digits
  if digits.isEmpty then none
  else
    match hexValue? digits with
    | some value =>
      let bits := BitVec.ofNat w value
      if bits.toNat = value then some bits else none
    | none => none

/-- The bits that one part of the text names. -/
def part? (names : BitNames w) (part : List Char) : Option (BitVec w) :=
  match part with
  | '0' :: 'x' :: digits => hexBits? digits
  | _ => (names.single ++ names.combined).lookup (String.ofList part)

/-- The set that a text names. -/
def parse? (names : BitNames w) (text : String) : Option (BitVec w) :=
  if (trimBlanks text.toList).isEmpty then some 0#w
  else
    (splitAtBars text.toList).foldlM
      (fun bits part => (names.part? (trimBlanks part)).map (bits ||| ·)) 0#w

/-- Sets of bits, written as text. -/
def codec (names : BitNames w) : Codec (BitVec w) where
  write bits := .string (names.render bits)
  read?
    | .string text => names.parse? text
    | _ => none

end BitNames

end Disasm65
