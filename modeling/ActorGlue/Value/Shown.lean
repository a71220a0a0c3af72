import ActorGlue.Value.Basic

/-!
# Values in messages

How a value is shown inside a message. A text that stands alone is shown without quotes and an
identifier that stands alone by its text. Maps inside of keys cannot be changed and say so. A value
with a number whose numeral is too long cannot be shown.
-/

namespace ActorGlue.Value

/-- Braces around parts. -/
def inBraces (parts : List String) : String :=
  "\x7b" ++ ", ".intercalate parts ++ "\x7d"

/-- A tuple of parts. -/
def inParens : List String → String
  | [part] => "(" ++ part ++ ",)"
  | parts => "(" ++ ", ".intercalate parts ++ ")"

/-- An identifier inside of something else. -/
def cidParts (cid : Cid) : String :=
  "Cid(codec=" ++ toString cid.codec ++ ", hash_code=" ++ toString cid.hash ++ ", digest=" ++
    Text.quotedBytes cid.digest ++ ", version=" ++ toString cid.version ++ ")"

mutual

/-- A value as part of a message; `frozen` inside of keys. -/
def quoted (frozen : Bool) : Value → String
  | .null => "None"
  | .bool value => if value then "True" else "False"
  | .int value => toString value
  | .float value => value.text
  | .text value => Text.quoted value
  | .bytes value => Text.quotedBytes value
  | .list items => "[" ++ ", ".intercalate (quotedAll frozen items) ++ "]"
  | .tuple items => inParens (quotedAll frozen items)
  | .map entries =>
      let text := inBraces (quotedEntries frozen entries)
      if frozen then "FrozenDict(" ++ text ++ ")" else text
  | .tag number content =>
      "CBORTag(" ++ toString number ++ ", " ++ content.quoted frozen ++ ")"
  | .simple code => "CBORSimpleValue(value=" ++ toString code ++ ")"
  | .undefined => "undefined"
  | .breakMark => "break_marker"
  | .cid address => cidParts address
  | .record name fields =>
      name ++ "(" ++ ", ".intercalate (quotedFields fields) ++ ")"
  | .shared _ => "..."
  | .foreign => "<object object>"

/-- Several values as parts of a message. -/
def quotedAll (frozen : Bool) : List Value → List String
  | [] => []
  | item :: rest => item.quoted frozen :: quotedAll frozen rest

/-- The entries of a map as parts of a message. -/
def quotedEntries (frozen : Bool) : List (Value × Value) → List String
  | [] => []
  | (key, value) :: rest =>
      (key.quoted true ++ ": " ++ value.quoted frozen) :: quotedEntries frozen rest

/-- The fields of a record as parts of a message. -/
def quotedFields : List (String × Value) → List String
  | [] => []
  | (name, value) :: rest => (name ++ "=" ++ value.quoted false) :: quotedFields rest

end

mutual

/-- No numeral in the text of a value is too long to be written. -/
def isWritable : Value → Bool
  | .int value => Text.isWritable value
  | .list items | .tuple items => areWritable items
  | .map entries => entriesWritable entries
  | .tag number content => Text.isWritable number && content.isWritable
  | .simple code => Text.isWritable code
  | .cid address => [address.codec, address.hash, address.version].all fun n => Text.isWritable n
  | .record _ fields => fieldsWritable fields
  | _ => true

/-- Several values can be written. -/
def areWritable : List Value → Bool
  | [] => true
  | item :: rest => item.isWritable && areWritable rest

/-- The entries of a map can be written. -/
def entriesWritable : List (Value × Value) → Bool
  | [] => true
  | (key, value) :: rest => key.isWritable && value.isWritable && entriesWritable rest

/-- The fields of a record can be written. -/
def fieldsWritable : List (String × Value) → Bool
  | [] => true
  | (_, value) :: rest => value.isWritable && fieldsWritable rest

end

/-- A value as part of a message, if it can be written. -/
def written (value : Value) : Except Text.NumeralFault String :=
  if value.isWritable then .ok (value.quoted false) else .error .unwritable

/-- A value that stands alone in a message. -/
def shown : Value → Except Text.NumeralFault String
  | .text value => .ok value
  | .cid address => .ok address.text
  | value => value.written

end ActorGlue.Value
