/-
Persisted forms: how values of the library are written as JSON and read again.

A record is an object with one member per field, in any order, among members that mean nothing; or
it is an array of its fields in their order.  A field that may be absent is written as `null`.
-/
import Disasm65.Json.Basic

namespace Disasm65

/-- How the values of a type are written and read. -/
structure Codec (α : Type) where
  write : α → Json
  read? : Json → Option α

namespace Codec

def bool : Codec Bool where
  write := .bool
  read?
    | .bool value => some value
    | _ => none

def text : Codec String where
  write := .string
  read?
    | .string text => some text
    | _ => none

/-- Natural numbers of at most `width` bits. -/
def word (width : Nat) : Codec Nat where
  write := .nat
  read?
    | .integer value =>
      let word := (BitVec.ofInt width value).toNat
      if (word : Int) = value then some word else none
    | _ => none

/-- Signed numbers of at most `width` bits. -/
def signed (width : Nat) : Codec Int where
  write := .integer
  read?
    | .integer value =>
      if (BitVec.ofInt width value).toInt = value then some value else none
    | _ => none

/-- The values of a list, each by its name.  An object with that name and `null` will also do. -/
def named (all : List α) (name : α → String) : Codec α where
  write value := .string (name value)
  read?
    | .string text | .object [(text, .null)] => all.find? fun value => name value == text
    | _ => none

/-- A value or `null`. -/
def option (codec : Codec α) : Codec (Option α) where
  write := .ofOption codec.write
  read?
    | .null => some none
    | json => (codec.read? json).map some

/-- Any number of values. -/
def list (codec : Codec α) : Codec (List α) where
  write := .ofList codec.write
  read?
    | .array items => items.mapM codec.read?
    | _ => none

end Codec

/-- The fields found for a record. -/
structure Record where
  /-- the fields were told by their places, not by their names -/
  positional : Bool
  fields : List (String × Json)

namespace Record

/-- Find the fields with the given names.  None may come twice, and an array may not be longer than
the names. -/
def ofJson? (names : List String) : Json → Option Record
  | .object members =>
    let fields := members.filter fun (name, _) => names.contains name
    if names.all fun name => fields.countP (·.1 == name) ≤ 1 then some ⟨false, fields⟩ else none
  | .array items => if items.length ≤ names.length then some ⟨true, names.zip items⟩ else none
  | _ => none

/-- A field that has to be there. -/
def get (record : Record) (name : String) (codec : Codec α) : Option α := do
  codec.read? (← record.fields.lookup name)

/-- A field with a value of its own when it is missing. -/
def getD (record : Record) (name : String) (codec : Codec α) (initial : α) : Option α :=
  match record.fields.lookup name with
  | some json => codec.read? json
  | none => some initial

/-- A field that may be absent.  Only where fields are told by their names can it be left out. -/
def get? (record : Record) (name : String) (codec : Codec α) : Option (Option α) :=
  match record.fields.lookup name with
  | some json => codec.option.read? json
  | none => if record.positional then none else some none

end Record

end Disasm65
