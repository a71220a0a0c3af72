import ActorGlue.Decimal.Double
import ActorGlue.Text.Numeral

/-!
# Documents

The JSON documents that interfaces are published as. Objects keep the order of their fields.
-/

namespace ActorGlue

/-- A JSON document. -/
inductive Document where
  | null
  | bool (value : Bool)
  | int (value : Int)
  | float (value : Double)
  | text (value : String)
  | list (items : List Document)
  | object (fields : List (String × Document))
  deriving Inhabited

namespace Document

/-- The document of a natural number. -/
def nat (n : Nat) : Document := .int n

def texts (values : List String) : Document := .list (values.map .text)

/-- The document of a value that may be missing. -/
def option {α : Type} (f : α → Document) : Option α → Document
  | some value => f value
  | none => .null

/-- The first field with the given name. -/
def lookup (name : String) : List (String × Document) → Option Document
  | [] => none
  | (key, value) :: rest => if key = name then some value else lookup name rest

/-- Fields with one of them assigned: an existing field keeps its place. -/
def assign (name : String) (value : Document) :
    List (String × Document) → List (String × Document)
  | [] => [(name, value)]
  | (key, old) :: rest =>
      if key = name then (key, value) :: rest else (key, old) :: assign name value rest

/-- Fields without the given one. -/
def erase (name : String) (fields : List (String × Document)) : List (String × Document) :=
  fields.filter (·.1 ≠ name)

/-- The integer that a number or a truth value equals. -/
def toInt? : Document → Option Int
  | .bool value => some (if value then 1 else 0)
  | .int value => some value
  | .float value => value.toInt?
  | _ => none

/-- A number or a truth value as a numerator and a denominator. -/
def ratio? : Document → Option (Int × Nat)
  | .bool value => some (if value then 1 else 0, 1)
  | .int value => some (value, 1)
  | .float value => value.ratio?
  | _ => none

/-- A number or a truth value. -/
def isNumber : Document → Bool
  | .bool _ | .int _ | .float _ => true
  | _ => false

/-- One number is smaller than another. -/
def isBelow (left right : Document) : Bool :=
  match left.ratio?, right.ratio? with
  | some (m, d), some (n, e) => m * e < n * d
  | _, _ => false

/-- The empty documents, zero and false count as absent; everything else as present. -/
def isPresent : Document → Bool
  | .null => false
  | .bool value => value
  | .int value => value ≠ 0
  | .float value => value.toInt? ≠ some 0
  | .text value => !value.isEmpty
  | .list items => !items.isEmpty
  | .object fields => !fields.isEmpty

mutual

/-- No numeral of the document is too long to be written. -/
def isWritable : Document → Bool
  | .int value => Text.isWritable value
  | .list items => areWritable items
  | .object fields => fieldsWritable fields
  | _ => true

/-- Several documents can be written. -/
def areWritable : List Document → Bool
  | [] => true
  | item :: rest => item.isWritable && areWritable rest

/-- The fields of an object can be written. -/
def fieldsWritable : List (String × Document) → Bool
  | [] => true
  | (_, value) :: rest => value.isWritable && fieldsWritable rest

end

end Document

end ActorGlue
