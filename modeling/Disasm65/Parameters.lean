/-
What the user can tune.
-/
import Disasm65.Fault
import Disasm65.Text.Charset

namespace Disasm65

/-- The character set that strings are looked for in. -/
inductive TextScan where
  | lowAscii
  | eitherAscii
  | petscii
  | screenCode
deriving DecidableEq

namespace TextScan

/-- Every choice. -/
def all : List TextScan := [.lowAscii, .eitherAscii, .petscii, .screenCode]

def name : TextScan → String
  | .lowAscii => "LowAscii"
  | .eitherAscii => "LowHighAscii"
  | .petscii => "C64Petscii"
  | .screenCode => "C64ScreenCode"

/-- The choice with the given name. -/
def ofName (text : String) : Except Fault TextScan := byName "text scan mode" all name text

def charset : TextScan → Charset
  | .lowAscii => .lowAscii
  | .eitherAscii => .eitherAscii
  | .petscii => .petscii
  | .screenCode => .screenCode

end TextScan

/-- How generated labels are named. -/
inductive LabelStyle where
  /-- all alike -/
  | simple
  /-- after the strongest kind of reference -/
  | tagged
  /-- after all kinds of reference -/
  | fullyTagged
deriving DecidableEq

namespace LabelStyle

/-- Every style. -/
def all : List LabelStyle := [.simple, .tagged, .fullyTagged]

def name : LabelStyle → String
  | .simple => "Simple"
  | .tagged => "Annotated"
  | .fullyTagged => "FullyAnnotated"

/-- The style with the given name. -/
def ofName (text : String) : Except Fault LabelStyle := byName "auto label style" all name text

end LabelStyle

/-- The least string length that turns strings off. -/
def noStrings : Nat := 0xffffffffffffffff

/-- The tunable parts of the analysis.  Numbers are 64-bit words. -/
structure Parameters where
  /-- look for strings and fills in bytes nobody has claimed -/
  cutsUnclaimed : Bool
  textScan : TextScan
  /-- the least number of characters of a string -/
  minString : Nat
  /-- move references onto labels nearby -/
  seeksNearby : Bool
  /-- at a PLP, take up the status at the nearest PHP before it -/
  matchesPlp : Bool
  /-- how many bytes before a PLP are searched for its PHP -/
  plpWindow : Nat
  /-- the least length of a fill -/
  minRun : Nat
  /-- the greatest length of a run of equal bytes at the start of a string -/
  maxStringRun : Nat
  labelStyle : LabelStyle
deriving DecidableEq

namespace Parameters

/-- What holds when nothing is said. -/
def initial : Parameters where
  cutsUnclaimed := true
  textScan := .eitherAscii
  minString := 4
  seeksNearby := true
  matchesPlp := true
  plpWindow := 128
  minRun := 5
  maxStringRun := 62
  labelStyle := .simple

/-- Strings are turned off. -/
def stringsDisabled (parameters : Parameters) : Bool := parameters.minString == noStrings

end Parameters

end Disasm65
