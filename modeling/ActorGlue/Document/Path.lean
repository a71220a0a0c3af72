import ActorGlue.Document.Basic

/-!
# Places in documents

A path leads into a document by the names of fields and the indices of items. The place it leads
to can be assigned or deleted.
-/

namespace ActorGlue.Document

/-- One step of a path. -/
inductive Step where
  | field (name : String)
  | item (index : Int)
  deriving DecidableEq, Repr

/-- The place of an index among items; negative ones count from the end. -/
def placeOf (index : Int) (items : List Document) : Nat :=
  (if index < 0 then index + items.length else index).toNat

/-- The document at a step. -/
def step? : Step → Document → Option Document
  | .field name, .object fields => lookup name fields
  | .item index, .list items => items[placeOf index items]?
  | _, _ => none

/-- The document with the part at a step assigned. -/
def assignStep (value : Document) : Step → Document → Document
  | .field name, .object fields => .object (assign name value fields)
  | .item index, .list items => .list (items.set (placeOf index items) value)
  | _, document => document

/-- The document without the part at a step. -/
def eraseStep : Step → Document → Document
  | .field name, .object fields => .object (erase name fields)
  | .item index, .list items => .list (items.eraseIdx (placeOf index items))
  | _, document => document

/-- The document with the place at a path changed: assigned, or deleted when there is no value. A
path that leads nowhere changes nothing. -/
def edit (value : Option Document) : List Step → Document → Document
  | [], document => value.getD document
  | [last], document =>
      match value with
      | some value => assignStep value last document
      | none => eraseStep last document
  | step :: next :: rest, document =>
      match step? step document with
      | some inner => assignStep (edit value (next :: rest) inner) step document
      | none => document

end ActorGlue.Document
