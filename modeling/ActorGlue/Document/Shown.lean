import ActorGlue.Document.Basic

/-!
# Documents in messages

How a document is shown inside a message: words for null and the truth values, quoted texts, and
brackets and braces around lists and objects. A text that stands alone is shown without quotes.
-/

namespace ActorGlue.Document

/-- The braces around shown fields. -/
def braced (fields : List String) : String :=
  "\x7b" ++ ", ".intercalate fields ++ "\x7d"

mutual

/-- A document as part of a message, with its texts quoted. -/
def quoted : Document → String
  | .null => "None"
  | .bool value => if value then "True" else "False"
  | .int value => toString value
  | .float value => value.text
  | .text value => Text.quoted value
  | .list items => "[" ++ ", ".intercalate (quotedAll items) ++ "]"
  | .object fields => braced (quotedFields fields)

/-- Several documents as parts of a message. -/
def quotedAll : List Document → List String
  | [] => []
  | item :: rest => item.quoted :: quotedAll rest

/-- The fields of an object as parts of a message. -/
def quotedFields : List (String × Document) → List String
  | [] => []
  | (key, value) :: rest => (Text.quoted key ++ ": " ++ value.quoted) :: quotedFields rest

end

def typeName : Document → String
  | .null => "NoneType"
  | .bool _ => "bool"
  | .int _ => "int"
  | .float _ => "float"
  | .text _ => "str"
  | .list _ => "list"
  | .object _ => "dict"

/-- The complaint about something that has no place in a document. -/
def unwritable (kind : String) : String :=
  "Object of type " ++ kind ++ " is not JSON serializable"

/-- A document that stands alone in a message. -/
def shown : Document → String
  | .text value => value
  | document => document.quoted

end ActorGlue.Document
