import ActorGlue.Content.Cid

/-!
# Values

The values that methods take and give, and that states hold: plain data, content identifiers,
records, and objects from outside that nothing can be said about.
-/

namespace ActorGlue

/-- A value. Maps keep the order in which keys were first added. During a run a record that can be
changed is named by its index among the records of the run. -/
inductive Value where
  | null
  | bool (value : Bool)
  | int (value : Int)
  | float (value : Double)
  | text (value : String)
  | bytes (value : Bytes)
  | list (items : List Value)
  | tuple (items : List Value)
  | map (entries : List (Value × Value))
  | tag (number : Nat) (content : Value)
  | simple (code : Nat)
  | undefined
  | breakMark
  | cid (cid : Cid)
  | record (name : String) (fields : List (String × Value))
  | shared (index : Nat)
  | foreign

namespace Value

/-- The integer that a number or a truth value equals. -/
def toInt? : Value → Option Int
  | .bool value => some (if value then 1 else 0)
  | .int value => some value
  | .float value => value.toInt?
  | _ => none

mutual

/-- Two values are equal. Numbers of all kinds are equal by value, the entries of maps in any
order, and a simple value equals the tuple of its code. -/
def same : Value → Value → Bool
  | .null, .null => true
  | .text a, .text b => a = b
  | .bytes a, .bytes b => a = b
  | .list a, .list b => sameAll a b
  | .tuple a, .tuple b => sameAll a b
  | .map a, .map b => a.length = b.length && sameEntries a b
  | .tag m a, .tag n b => m = n && a.same b
  | .simple a, .simple b => a = b
  | .simple code, .tuple [item] => item.toInt? = some (code : Int)
  | .tuple [item], .simple code => item.toInt? = some (code : Int)
  | .undefined, .undefined => true
  | .breakMark, .breakMark => true
  | .cid a, .cid b => a = b
  | .record m a, .record n b => m = n && sameFields a b
  | .shared a, .shared b => a = b
  | .float a, .float b => a.same b
  | a, b =>
      match a.toInt?, b.toInt? with
      | some m, some n => m = n
      | _, _ => false

/-- Two lists have equal items. -/
def sameAll : List Value → List Value → Bool
  | [], [] => true
  | a :: as, b :: bs => a.same b && sameAll as bs
  | _, _ => false

/-- Every entry on the left has an equal one on the right. -/
def sameEntries : List (Value × Value) → List (Value × Value) → Bool
  | [], _ => true
  | (key, value) :: rest, others =>
      (others.any fun (otherKey, other) => key.same otherKey && value.same other) &&
        sameEntries rest others

/-- Two records have equal fields in order. -/
def sameFields : List (String × Value) → List (String × Value) → Bool
  | [], [] => true
  | (key, a) :: as, (other, b) :: bs => key = other && a.same b && sameFields as bs
  | _, _ => false

end

/-- Entries with one of them assigned: an equal key keeps its place and its own form. -/
def assign (key value : Value) : List (Value × Value) → List (Value × Value)
  | [] => [(key, value)]
  | (old, before) :: rest =>
      if key.same old then (old, value) :: rest else (old, before) :: assign key value rest

/-- The map of entries assigned one after the other. -/
def ofEntries (entries : List (Value × Value)) : Value :=
  .map (entries.foldl (fun done (key, value) => assign key value done) [])

def typeName : Value → String
  | .null => "NoneType"
  | .bool _ => "bool"
  | .int _ => "int"
  | .float _ => "float"
  | .text _ => "str"
  | .bytes _ => "bytes"
  | .list _ => "list"
  | .tuple _ => "tuple"
  | .map _ => "dict"
  | .tag .. => "CBORTag"
  | .simple _ => "CBORSimpleValue"
  | .undefined => "undefined_type"
  | .breakMark => "break_marker_type"
  | .cid _ => "Cid"
  | .record name _ => name
  | .shared _ => "object"
  | .foreign => "object"

mutual

/-- The type of a part that keeps a value from being a key. -/
def unhashable? : Value → Option String
  | .list _ => some "list"
  | .map _ => some "dict"
  | .record name _ => some name
  | .tuple items => unhashableAmong? items
  | .tag _ content => content.unhashable?
  | _ => none

/-- The first such part of several values. -/
def unhashableAmong? : List Value → Option String
  | [] => none
  | item :: rest => item.unhashable?.orElse fun _ => unhashableAmong? rest

end

end Value

end ActorGlue
