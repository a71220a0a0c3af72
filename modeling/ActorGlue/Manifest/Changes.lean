import ActorGlue.Document.Shape
import ActorGlue.Manifest.Basic

/-!
# Changes between manifests

How two interfaces differ: entry points that came or went, what changed about those that stayed,
and states. If none of this tells them apart, the generated glue differs.
-/

namespace ActorGlue.Manifest

/-- Documents by name. A name is a text, a number, a truth value or null. -/
abbrev Entries := List (Document × Document)

namespace Entries

/-- The document of a name. -/
def find? (name : Document) : Entries → Option Document
  | [] => none
  | (key, document) :: rest => if key.same name then some document else find? name rest

/-- The entries with a document under a name: a name that is there keeps its place. -/
def assign (name document : Document) : Entries → Entries
  | [] => [(name, document)]
  | (key, old) :: rest =>
      if key.same name then (key, document) :: rest else (key, old) :: assign name document rest

def names (entries : Entries) : List Document :=
  entries.map (·.1)

end Entries

/-- Documents by the name that a field gives them; a later one takes the place of an earlier
one. -/
def byName (key : String) (items : List Document) : Except Document.Misshapen Entries :=
  items.foldlM
    (fun named item => do
      let name ← Document.fieldOf key item
      match name with
      | .list _ | .object _ => throw (.unnamable name.typeName)
      | _ => return Entries.assign name item named)
    []

def programOf (manifest : Manifest) : Except Document.Misshapen Document :=
  Document.fieldOf "program" (.object manifest)

/-- The entry points of a manifest by method; without an actor there are none. -/
def entryPointsOf (manifest : Manifest) : Except Document.Misshapen Entries := do
  match ← manifest.programOf with
  | .object fields =>
      match Document.lookup "actor_implementation" fields with
      | none => return []
      | some actor =>
          if !actor.isPresent then return []
          match actor with
          | .object fields =>
              match Document.lookup "entry_points" fields with
              | none => return []
              | some entries => byName "method" (← entries.itemsOf)
          | _ => throw .fieldless
  | _ => throw .fieldless

def statesOf (manifest : Manifest) : Except Document.Misshapen Entries := do
  byName "name" (← (← (← manifest.programOf).fieldOf "state_structs").itemsOf)

/-- Texts in order. -/
def sortTexts (texts : List String) : List String :=
  (Document.sortFields (texts.map fun text => (text, .null))).map (·.1)

/-- The texts among names. -/
def textNames (names : List Document) : List String :=
  names.filterMap fun name =>
    match name with
    | .text value => some value
    | _ => none

/-- Puts a number in front of the first one that is not smaller. -/
def insertNumber (name : Document) : List Document → List Document
  | [] => [name]
  | other :: rest =>
      if other.isBelow name then other :: insertNumber name rest else name :: other :: rest

/-- Names in order. Texts are ordered among each other, and so are numbers. -/
def sortNames (names : List Document) : Except Document.Misshapen (List Document) :=
  match names with
  | [] => .ok []
  | [name] => .ok [name]
  | first :: second :: _ =>
      let texts := textNames names
      if texts.length = names.length then .ok ((sortTexts texts).map .text)
      else if names.all (·.isNumber) then .ok (names.foldr insertNumber [])
      else .error (.unordered second.typeName first.typeName)

/-- The names on the left that are not on the right. -/
def namesWithout (left right : Entries) : List Document :=
  left.names.filter fun name => (right.find? name).isNone

/-- The names on both sides. -/
def namesInBoth (left right : Entries) : List Document :=
  left.names.filter fun name => (right.find? name).isSome

/-- The fields of an entry point that changes are reported for. -/
def watched : List String := ["binding", "mutability", "returns", "arguments"]

/-- The change of a field of an entry point. -/
def fieldChange (name : Document) (key : String) (left right : Document) :
    Except Document.Misshapen (List String) := do
  let before ← left.fieldOf key
  let after ← right.fieldOf key
  if before.same after then return []
  return ["~ '" ++ name.shown ++ "' " ++ key ++ ": " ++ before.shown ++ " vs " ++ after.shown]

/-- The changes of the fields of an entry point. -/
def entryPointChanges (left right : Entries) (name : Document) :
    Except Document.Misshapen (List String) := do
  match left.find? name, right.find? name with
  | some before, some after =>
      return (← watched.mapM fun key => fieldChange name key before after).flatten
  | _, _ => return []

/-- The changes between entry points. -/
def allEntryPointChanges (left right : Entries) : Except Document.Misshapen (List String) := do
  let removed ← sortNames (namesWithout left right)
  let added ← sortNames (namesWithout right left)
  let changed ← (← sortNames (namesInBoth left right)).mapM (entryPointChanges left right)
  return (removed.map fun name => "- entry point '" ++ name.shown ++ "' removed") ++
    (added.map fun name => "+ entry point '" ++ name.shown ++ "' added") ++ changed.flatten

/-- A state has the same layout on both sides. -/
def sameState (left right : Entries) (name : Document) : Bool :=
  match left.find? name, right.find? name with
  | some before, some after => before.same after
  | _, _ => false

/-- The changes between states. -/
def stateChanges (left right : Entries) : Except Document.Misshapen (List String) := do
  let single ← sortNames (namesWithout left right ++ namesWithout right left)
  let both ← sortNames (namesInBoth left right)
  return (single.map fun name => "~ state '" ++ name.shown ++ "' only in one interface") ++
    (both.filter fun name => !sameState left right name).map fun name =>
      "~ state '" ++ name.shown ++ "' layout differs"

/-- The changes between two manifests; none if they have the same digest. -/
def changes (left right : Manifest) : Except Document.Misshapen (List String) := do
  let before ← left.digest.mapError fun _ => .unwritable
  let after ← right.digest.mapError fun _ => .unwritable
  if before = after then return []
  let entries ← allEntryPointChanges (← left.entryPointsOf) (← right.entryPointsOf)
  let states ← stateChanges (← left.statesOf) (← right.statesOf)
  let found := entries ++ states
  return if found.isEmpty then ["~ generated glue differs"] else found

end ActorGlue.Manifest
