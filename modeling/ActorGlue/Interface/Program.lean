import ActorGlue.Annotation

/-!
# Programs

The interface of an actor: its state and payload structures and the entry points of its
implementation.
-/

namespace ActorGlue

/-- How an entry point touches the persisted state. -/
inductive Mutability where
  | pure
  | view
  | write
  deriving DecidableEq, Repr

namespace Mutability

def name : Mutability → String
  | .pure => "pure"
  | .view => "view"
  | .write => "write"

/-- The entry point is called on the state. -/
def loadsState : Mutability → Bool
  | .pure => false
  | _ => true

/-- The entry point stores the state after the call. -/
def savesState : Mutability → Bool
  | .write => true
  | _ => false

end Mutability

/-- An argument of an entry point. -/
structure Argument where
  name : String
  mutable : Bool
  type : String
  deriving DecidableEq, Repr

/-- A method that can be invoked from outside. -/
structure EntryPoint where
  method : String
  binding : MethodNumber
  mutability : Mutability
  returns : Bool
  arguments : List Argument
  deriving DecidableEq, Repr

/-- The implementation block of an actor. -/
structure Actor where
  name : String
  dispatch : Dispatch
  entryPoints : List EntryPoint
  deriving DecidableEq, Repr

/-- A persisted field of a state structure. -/
structure StateField where
  name : String
  type : String
  deriving DecidableEq, Repr

/-- A state structure. -/
structure StateStruct where
  name : String
  exportName : String
  fields : List StateField
  codec : Codec
  deriving DecidableEq, Repr

/-- A payload structure. -/
structure PayloadStruct where
  name : String
  codec : Codec
  deriving DecidableEq, Repr

/-- The declarations of one expansion. -/
structure Program where
  states : List StateStruct := []
  payloads : List PayloadStruct := []
  actor : Option Actor := none
  deriving DecidableEq, Repr

/-- A method number with the methods bound to it, in order. It is a collision if they are several. -/
structure Collision where
  binding : MethodNumber
  methods : List String
  deriving DecidableEq, Repr

/-- Puts the method of an entry point under its number, which is added if it was not in use. -/
def EntryPoint.group (entry : EntryPoint) : List Collision → List Collision
  | [] => [⟨entry.binding, [entry.method]⟩]
  | ⟨binding, methods⟩ :: rest =>
      if binding = entry.binding then ⟨binding, methods ++ [entry.method]⟩ :: rest
      else ⟨binding, methods⟩ :: entry.group rest

namespace Actor

/-- The first entry point bound to a number. -/
def entryPoint? (actor : Actor) (number : Int) : Option EntryPoint :=
  actor.entryPoints.find? fun entry => (entry.binding.value : Int) = number

/-- The first entry point with a binding. -/
def boundTo? (actor : Actor) (binding : MethodNumber) : Option EntryPoint :=
  actor.entryPoint? binding.value

/-- The numbers that two or more entry points share. -/
def collisions (actor : Actor) : List Collision :=
  (actor.entryPoints.foldl (fun groups entry => entry.group groups) []).filter
    (1 < ·.methods.length)

end Actor

namespace Program

/-- The first state structure of a name. -/
def state? (program : Program) (name : String) : Option StateStruct :=
  program.states.find? (·.name = name)

/-- Nothing has been declared. -/
def isEmpty (program : Program) : Bool :=
  program.states.isEmpty && program.payloads.isEmpty && program.actor.isNone

end Program

def Argument.document (argument : Argument) : Document :=
  .object [("name", .text argument.name), ("mutable", .bool argument.mutable),
    ("type", .text argument.type)]

def EntryPoint.document (entry : EntryPoint) : Document :=
  .object [("method", .text entry.method), ("export_name", .text entry.method),
    ("binding", .nat entry.binding.value), ("mutability", .text entry.mutability.name),
    ("returns", .bool entry.returns),
    ("arguments", .list (entry.arguments.map (·.document)))]

def Actor.document (actor : Actor) : Document :=
  .object [("name", .text actor.name), ("export_name", .text actor.name),
    ("dispatch", .text actor.dispatch.name),
    ("entry_points", .list (actor.entryPoints.map (·.document)))]

def StateField.document (field : StateField) : Document :=
  .object [("name", .text field.name), ("export_name", .text field.name),
    ("type", .text field.type)]

/-- The document of a state structure. -/
def StateStruct.document (state : StateStruct) : Document :=
  .object [("name", .text state.name), ("export_name", .text state.exportName),
    ("codec", .text state.codec.name), ("fields", .list (state.fields.map (·.document)))]

/-- The document of a payload structure. -/
def PayloadStruct.document (payload : PayloadStruct) : Document :=
  .object [("name", .text payload.name), ("export_name", .text payload.name),
    ("codec", .text payload.codec.name)]

def Program.document (program : Program) : Document :=
  .object [("state_structs", .list (program.states.map (·.document))),
    ("payload_structs", .list (program.payloads.map (·.document))),
    ("actor_implementation", .option (·.document) program.actor)]

end ActorGlue
