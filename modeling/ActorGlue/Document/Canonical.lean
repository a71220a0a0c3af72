import ActorGlue.Document.Basic

/-!
# Canonical documents

Two documents that differ only in the order of object fields have the same canonical form, which
has the fields of every object in the order of their names.
-/

namespace ActorGlue.Document

/-- Puts a field in front of the first one whose name is not smaller. -/
def insertField (field : String × Document) :
    List (String × Document) → List (String × Document)
  | [] => [field]
  | other :: rest =>
      if field.1 ≤ other.1 then field :: other :: rest else other :: insertField field rest

/-- Fields in the order of their names. -/
def sortFields : List (String × Document) → List (String × Document)
  | [] => []
  | field :: rest => insertField field (sortFields rest)

mutual

/-- The document with the fields of every object in the order of their names. -/
def canonical : Document → Document
  | .list items => .list (canonicalAll items)
  | .object fields => .object (sortFields (canonicalFields fields))
  | document => document

/-- The canonical forms of several documents. -/
def canonicalAll : List Document → List Document
  | [] => []
  | item :: rest => item.canonical :: canonicalAll rest

/-- The fields with canonical values. -/
def canonicalFields : List (String × Document) → List (String × Document)
  | [] => []
  | (key, value) :: rest => (key, value.canonical) :: canonicalFields rest

end

mutual

/-- Two documents mean the same: the order of fields does not count, and numbers and truth values
are equal by the number they stand for. -/
def same : Document → Document → Bool
  | .null, .null => true
  | .text a, .text b => a = b
  | .list a, .list b => sameAll a b
  | .object a, .object b => a.length = b.length && sameFields a b
  | .float a, .float b => a.same b
  | a, b =>
      match a.toInt?, b.toInt? with
      | some m, some n => m = n
      | _, _ => false

/-- Two lists have the same items. -/
def sameAll : List Document → List Document → Bool
  | [], [] => true
  | a :: as, b :: bs => a.same b && sameAll as bs
  | _, _ => false

/-- Every field on the left has the same value on the right. -/
def sameFields : List (String × Document) → List (String × Document) → Bool
  | [], _ => true
  | (key, value) :: rest, others =>
      (match lookup key others with
        | some other => value.same other
        | none => false) && sameFields rest others

end

end ActorGlue.Document
