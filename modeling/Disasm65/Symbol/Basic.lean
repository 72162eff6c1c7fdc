/-
Symbols: names for addresses and constants.
-/
import Disasm65.Fault

namespace Disasm65

/-- Where a symbol comes from, most trusted first. -/
inductive Origin where
  /-- placed by the user -/
  | user
  /-- defined by the project -/
  | project
  /-- defined by a platform file -/
  | platform
  /-- generated by the analysis -/
  | auto
  /-- a local variable -/
  | variable
deriving DecidableEq

namespace Origin

/-- Every origin, most trusted first. -/
def all : List Origin := [.user, .project, .platform, .auto, .variable]

/-- The place in the order of trust; the lowest wins. -/
def rank : Origin → Nat
  | .user => 0
  | .project => 1
  | .platform => 2
  | .auto => 3
  | .variable => 4

def name : Origin → String
  | .user => "User"
  | .project => "Project"
  | .platform => "Platform"
  | .auto => "Auto"
  | .variable => "Variable"

def letter : Origin → Char
  | .user => 'U'
  | .project => 'R'
  | .platform => 'P'
  | .auto => 'A'
  | .variable => 'V'

/-- The origin with the given name. -/
def ofName (text : String) : Except Fault Origin := byName "SymbolSource" all name text

end Origin

/-- What a symbol's value is. -/
inductive SymbolKind where
  | localOrGlobal
  | nonUniqueLocal
  | global
  | exported
  | external
  | constant
deriving DecidableEq

namespace SymbolKind

/-- Every kind. -/
def all : List SymbolKind :=
  [.localOrGlobal, .nonUniqueLocal, .global, .exported, .external, .constant]

def name : SymbolKind → String
  | .localOrGlobal => "LocalOrGlobalAddr"
  | .nonUniqueLocal => "NonUniqueLocalAddr"
  | .global => "GlobalAddr"
  | .exported => "GlobalAddrExport"
  | .external => "ExternalAddr"
  | .constant => "Constant"

def letter : SymbolKind → Char
  | .localOrGlobal => 'L'
  | .nonUniqueLocal => 'N'
  | .global => 'G'
  | .exported => 'X'
  | .external => 'E'
  | .constant => 'C'

/-- The kind with the given name. -/
def ofName (text : String) : Except Fault SymbolKind := byName "SymbolType" all name text

end SymbolKind

/-- A remark shown with a label. -/
inductive Remark where
  | plain
  | uncertain
  | generated
deriving DecidableEq

namespace Remark

/-- Every remark. -/
def all : List Remark := [.plain, .uncertain, .generated]

def name : Remark → String
  | .plain => "None"
  | .uncertain => "Uncertain"
  | .generated => "Generated"

/-- The remark with the given name. -/
def ofName (text : String) : Except Fault Remark := byName "LabelAnnotation" all name text

end Remark

/-- The most characters a label has. -/
def maxLabelLength : Nat := 255

def isLabelStart (c : Char) : Bool := c.isAlpha || c == '_'

def isLabelRest (c : Char) : Bool := c.isAlphanum || c == '_'

/-- A label is an ASCII letter or underscore, then letters, digits and underscores. -/
def isLabel (label : String) : Bool :=
  match label.toList with
  | [] => false
  | first :: rest =>
    isLabelStart first && rest.all isLabelRest && rest.length < maxLabelLength

/-- A named value. -/
structure Symbol where
  label : String
  value : Nat
  origin : Origin
  kind : SymbolKind
  remark : Remark
deriving DecidableEq

namespace Symbol

/-- A symbol with a well-formed label. -/
def create (label : String) (value : Nat) (origin : Origin) (kind : SymbolKind)
    (remark : Remark) : Except Fault Symbol :=
  if isLabel label then .ok ⟨label, value, origin, kind, remark⟩
  else .error (.invalidLabel label)

/-- Labels placed in the image, by the user or by the analysis. -/
def isInternal (symbol : Symbol) : Bool :=
  symbol.origin == .user || symbol.origin == .auto

def isConstant (symbol : Symbol) : Bool := symbol.kind == .constant

/-- Two letters for origin and kind. -/
def code (symbol : Symbol) : String := String.ofList [symbol.origin.letter, symbol.kind.letter]

/-- The parts of a symbol, for listings. -/
def text (symbol : Symbol) : String :=
  symbol.label ++ "\x7b" ++ symbol.origin.name ++ "," ++ symbol.kind.name ++ ",val="
    ++ dollarHex 4 symbol.value ++ "\x7d"

end Symbol

end Disasm65
