/-
JSON values.

Numbers are told apart by how they are written: only one without a fraction and without an
exponent is an integer.  Members of an object keep their order, and a name may come twice.
-/

namespace Disasm65

/-- A JSON value. -/
inductive Json where
  | null
  | bool (value : Bool)
  | integer (value : Int)
  /-- a number that is not written as an integer, as it is written -/
  | real (lexeme : String)
  | string (text : String)
  | array (items : List Json)
  | object (members : List (String × Json))
  /-- a string that stands for no text, because half of a surrogate pair is missing, or an object
  with such a name -/
  | unreadable

namespace Json

def nat (n : Nat) : Json := .integer n

/-- The value, or `null` in place of none. -/
def ofOption (value : α → Json) : Option α → Json
  | some a => value a
  | none => .null

/-- The array of the values of a list. -/
def ofList (value : α → Json) (items : List α) : Json := .array (items.map value)

end Json

end Disasm65
