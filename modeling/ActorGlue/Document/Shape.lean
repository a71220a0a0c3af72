import ActorGlue.Document.Shown

/-!
# The shape of documents

Reading a document that should be an object with a given field, or something with items in it. A
document of another shape is refused for the first thing that does not fit.
-/

namespace ActorGlue.Document

/-- How a document fails to have the shape that is read from it. -/
inductive Misshapen where
  | missingField
  | fieldless
  | unlisted (kind : String)
  | unindexed (kind : String)
  | unnamable (kind : String)
  | unordered (left right : String)
  | unjoined (index : Nat) (kind : String)
  | unwritable
  deriving DecidableEq, Repr

/-- The wording of a shape that has one. -/
def Misshapen.message? : Misshapen → Option String
  | .missingField | .fieldless => none
  | .unlisted kind => some ("'" ++ kind ++ "' object is not iterable")
  | .unindexed "list" => some "list indices must be integers or slices, not str"
  | .unindexed "str" => some "string indices must be integers, not 'str'"
  | .unindexed kind => some ("'" ++ kind ++ "' object is not subscriptable")
  | .unnamable kind => some ("unhashable type: '" ++ kind ++ "'")
  | .unordered left right =>
      some ("'<' not supported between instances of '" ++ left ++ "' and '" ++ right ++ "'")
  | .unjoined index kind =>
      some ("sequence item " ++ toString index ++ ": expected str instance, " ++ kind ++ " found")
  | .unwritable => some Text.NumeralFault.unwritable.message

def fieldOf (name : String) : Document → Except Misshapen Document
  | .object fields =>
      match lookup name fields with
      | some document => .ok document
      | none => .error .missingField
  | document => .error (.unindexed document.typeName)

/-- What a document lists: its items, its characters or its keys. -/
def itemsOf : Document → Except Misshapen (List Document)
  | .list items => .ok items
  | .text value => .ok (value.toList.map fun c => .text (String.ofList [c]))
  | .object fields => .ok (fields.map fun field => .text field.1)
  | document => .error (.unlisted document.typeName)

/-- The text of a document that stands alone in a message, if it can be written. -/
def shownText (document : Document) : Except Misshapen String :=
  if document.isWritable then .ok document.shown else .error .unwritable

/-- The text that a document is. -/
def textOf : Document → Except Misshapen String
  | .text value => .ok value
  | _ => .error .fieldless

/-- Documents that are joined have to be texts; `index` is the place of the first one. -/
def joinable (index : Nat) : List Document → Except Misshapen (List String)
  | [] => .ok []
  | .text value :: rest => return value :: (← joinable (index + 1) rest)
  | document :: _ => .error (.unjoined index document.typeName)

end ActorGlue.Document
