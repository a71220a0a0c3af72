import ActorGlue.Value.Basic

/-!
# Shared records

During a run several names can stand for one record, and what is changed under one of them is
changed under all. The records of a run are therefore kept in one list, and values name them by
their index. A value that leaves the run is settled: its records are written out in it.
-/

namespace ActorGlue

/-- A record that can be changed. It may get attributes beside its fields. -/
structure Record where
  name : String
  fields : List (String × Value)
  extras : List (String × Value) := []

/-- The records of a run, in the order they were made. -/
abbrev Records := List Record

namespace Value

/-- Named values with one of them assigned: a name that is there keeps its place. -/
def putNamed (name : String) (value : Value) :
    List (String × Value) → List (String × Value)
  | [] => [(name, value)]
  | (key, old) :: rest =>
      if key = name then (key, value) :: rest else (key, old) :: putNamed name value rest

mutual

/-- The value with every named record replaced. -/
def mapShared (f : Nat → Value) : Value → Value
  | .shared index => f index
  | .list items => .list (mapSharedAll f items)
  | .tuple items => .tuple (mapSharedAll f items)
  | .map entries => .map (mapSharedEntries f entries)
  | .tag number content => .tag number (content.mapShared f)
  | .record name fields => .record name (mapSharedFields f fields)
  | value => value

/-- The same for several values. -/
def mapSharedAll (f : Nat → Value) : List Value → List Value
  | [] => []
  | item :: rest => item.mapShared f :: mapSharedAll f rest

/-- The same for the entries of a map. -/
def mapSharedEntries (f : Nat → Value) : List (Value × Value) → List (Value × Value)
  | [] => []
  | (key, value) :: rest => (key.mapShared f, value.mapShared f) :: mapSharedEntries f rest

/-- The same for the fields of a record. -/
def mapSharedFields (f : Nat → Value) : List (String × Value) → List (String × Value)
  | [] => []
  | (name, value) :: rest => (name, value.mapShared f) :: mapSharedFields f rest

end

/-- The attribute of a value that is no record. -/
def attribute? : Value → String → Option Value
  | .cid address, "codec" => some (.int address.codec)
  | .cid address, "hash_code" => some (.int address.hash)
  | .cid address, "digest" => some (.bytes address.digest)
  | .cid address, "version" => some (.int address.version)
  | .tag number _, "tag" => some (.int number)
  | .tag _ content, "value" => some content
  | .simple code, "value" => some (.int code)
  | _, _ => none

end Value

namespace Record

def attribute? (record : Record) (name : String) : Option Value :=
  (record.fields.lookup name).orElse fun _ => record.extras.lookup name

/-- The record with an attribute assigned. -/
def assign (record : Record) (name : String) (value : Value) : Record :=
  if (record.fields.lookup name).isSome then
    { record with fields := Value.putNamed name value record.fields }
  else { record with extras := Value.putNamed name value record.extras }

end Record

namespace Records

/-- A value of the run for a value from outside: a record is added, and named by its index. -/
def hold (records : Records) : Value → Value × Records
  | .record name fields => (.shared records.length, records ++ [⟨name, fields, []⟩])
  | value => (value, records)

def attribute? (records : Records) (value : Value) (name : String) : Option Value :=
  match value with
  | .shared index => records[index]?.bind (·.attribute? name)
  | value => value.attribute? name

/-- The records with an attribute of a value assigned; only records take any. -/
def assign? (records : Records) (target : Value) (name : String) (value : Value) :
    Option Records :=
  match target with
  | .shared index =>
      records[index]?.map fun record => records.set index (record.assign name value)
  | _ => none

/-- Writes out records up to a depth, except those in `around`, which enclose the value. -/
def settleWithin (records : Records) : (depth : Nat) → (around : List Nat) → Value → Value
  | 0, _, value => value
  | depth + 1, around, value =>
      value.mapShared fun index =>
        if around.contains index then .shared index
        else
          match records[index]? with
          | none => .shared index
          | some record =>
              .record record.name (record.fields.map fun (name, value) =>
                (name, settleWithin records depth (index :: around) value))

/-- The value with its records written out. A record inside of itself stays a name. No record is
written out inside of itself, so their number bounds the depth. -/
def settle (records : Records) (value : Value) : Value :=
  settleWithin records (records.length + 1) [] value

end Records

end ActorGlue
