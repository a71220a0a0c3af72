import ActorGlue.Document.Basic

/-!
# JSON text

Documents as JSON text in the characters from the space to the tilde: everything else inside a
text is escaped. The compact form has no blanks, and the pretty form has one line for each item.
-/

namespace ActorGlue.Document

/-- The UTF-16 units of a character. -/
def utf16Units (c : Char) : List Nat :=
  if c.toNat < 0x10000 then [c.toNat]
  else [0xd800 + (c.toNat - 0x10000) / 0x400, 0xdc00 + (c.toNat - 0x10000) % 0x400]

/-- One character inside a JSON text. -/
def jsonChar (c : Char) : List Char :=
  if c = '"' then ['\\', '"']
  else if c = '\\' then ['\\', '\\']
  else if c = '\n' then ['\\', 'n']
  else if c = '\r' then ['\\', 'r']
  else if c = '\t' then ['\\', 't']
  else if c = '\x08' then ['\\', 'b']
  else if c = '\x0c' then ['\\', 'f']
  else if 0x20 ≤ c.toNat && c.toNat ≤ 0x7e then [c]
  else (utf16Units c).flatMap fun unit => '\\' :: 'u' :: Text.hexDigits 4 unit

def jsonText (text : String) : List Char :=
  '"' :: text.toList.flatMap jsonChar ++ ['"']

def jsonNumber (value : Double) : List Char :=
  match value.parts with
  | .nan => "NaN".toList
  | .infinite negative => (if negative then "-Infinity" else "Infinity").toList
  | .finite .. => value.text.toList

/-- Parts with a separator between them. -/
def joined (separator : List Char) : List (List Char) → List Char
  | [] => []
  | [part] => part
  | part :: rest => part ++ separator ++ joined separator rest

mutual

/-- The compact JSON of a document. -/
def compact : Document → List Char
  | .null => "null".toList
  | .bool value => if value then "true".toList else "false".toList
  | .int value => (toString value).toList
  | .float value => jsonNumber value
  | .text value => jsonText value
  | .list items => '[' :: joined [','] (compactAll items) ++ [']']
  | .object fields => '\x7b' :: joined [','] (compactFields fields) ++ ['\x7d']

/-- The compact JSON of several documents. -/
def compactAll : List Document → List (List Char)
  | [] => []
  | item :: rest => item.compact :: compactAll rest

/-- The compact JSON of fields. -/
def compactFields : List (String × Document) → List (List Char)
  | [] => []
  | (key, value) :: rest => (jsonText key ++ ':' :: value.compact) :: compactFields rest

end

/-- The start of a line at a depth. -/
def lineStart (depth : Nat) : List Char :=
  '\n' :: List.replicate (2 * depth) ' '

/-- Parts on lines of their own between brackets, if there are any. -/
def onLines (depth : Nat) (first last : Char) (parts : List (List Char)) : List Char :=
  if parts.isEmpty then [first, last]
  else first :: lineStart (depth + 1) ++ joined (',' :: lineStart (depth + 1)) parts ++
    lineStart depth ++ [last]

mutual

/-- The pretty JSON of a document that starts at a depth. -/
def pretty (depth : Nat) : Document → List Char
  | .null => "null".toList
  | .bool value => if value then "true".toList else "false".toList
  | .int value => (toString value).toList
  | .float value => jsonNumber value
  | .text value => jsonText value
  | .list items => onLines depth '[' ']' (prettyAll (depth + 1) items)
  | .object fields => onLines depth '\x7b' '\x7d' (prettyFields (depth + 1) fields)

/-- The pretty JSON of several documents. -/
def prettyAll (depth : Nat) : List Document → List (List Char)
  | [] => []
  | item :: rest => item.pretty depth :: prettyAll depth rest

/-- The pretty JSON of fields. -/
def prettyFields (depth : Nat) : List (String × Document) → List (List Char)
  | [] => []
  | (key, value) :: rest =>
      (jsonText key ++ ':' :: ' ' :: value.pretty depth) :: prettyFields depth rest

end

end ActorGlue.Document
