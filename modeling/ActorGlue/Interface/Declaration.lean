import ActorGlue.Interface.ArgumentType
import ActorGlue.Interface.Program
import ActorGlue.Parse.Source

/-!
# Declarations

What an annotated item declares: a structure declares a state or a payload, and an implementation
block declares an actor with the entry points among its methods. Failures of several methods are
reported together.
-/

namespace ActorGlue

/-- The fields that everyone may see; a field without a name is named by its index. -/
def StructItem.publicFields (item : StructItem Span) : List StateField :=
  item.fields.zipIdx.filterMap fun (field, index) =>
    if field.visibility.isPublic then some ⟨field.name.getD (toString index), field.ty.render⟩
    else none

/-- The fault of generic parameters, if there are any. -/
def Generics.refuse (generics : Generics Span) (fault : Fault) : Except Diagnostic Unit :=
  if generics.params.isEmpty then .ok ()
  else .error (.atSpan fault (generics.place.getD ⟨0, 0⟩))

/-- The state that a structure declares. -/
def StructItem.state (item : StructItem Span) (marks : Annotation) :
    Except Diagnostic StateStruct := do
  item.generics.refuse .stateGenerics
  return ⟨item.name, item.name, item.publicFields, marks.codec⟩

/-- The payload that a structure declares. -/
def StructItem.payload (item : StructItem Span) (marks : Annotation) :
    Except Diagnostic PayloadStruct := do
  item.generics.refuse .payloadGenerics
  return ⟨item.name, marks.codec⟩

/-- The name of the type of an implementation block, which has to be one plain word. -/
def ImplItem.typeName (item : ImplItem Span) : Except Diagnostic String :=
  match item.selfTy with
  | .path (.mk _ .relative [.mk _ ident .absent]) => .ok ident
  | ty => .error (.atSpan .actorType ty.place)

/-- The annotation that exports a method. -/
def Method.exportAttribute? (method : Method Span) : Option (Attribute Span) :=
  method.attributes.find? (·.name = Target.method.name)

/-- The text between the delimiters of a group. -/
def Span.inside (group : Span) : Span :=
  ⟨group.start + 1, group.stop - 1⟩

/-- The directives of an annotation that exports a method. -/
def Attribute.exportAnnotation (source : List Char) (a : Attribute Span) :
    Except Failure Annotation :=
  match a.input with
  | .list group => Annotation.read (group.inside.slice source) .method group.inside.start
  | _ => .error (.reported (.atSpan .exportArguments a.place))

/-- A receiver can be changed through: a typed one if it is a reference that is mutable. -/
def Receiver.isMutable (receiver : Receiver Span) : Bool :=
  match receiver.ty with
  | some (.reference _ _ _ mutable) => mutable
  | _ => receiver.mutable

/-- How a method touches the state: not without a receiver, and by writing with a mutable one. -/
def Method.mutability (method : Method Span) : Mutability :=
  match method.inputs with
  | .receiver receiver :: _ => if receiver.isMutable then .write else .view
  | _ => .pure

/-- The inputs after the receiver. -/
def Method.arguments (method : Method Span) : List (MethodInput Span) :=
  match method.inputs with
  | .receiver _ :: rest => rest
  | inputs => inputs

def Pattern.place {σ : Type} : Pattern σ → σ
  | .ident place .. => place
  | .other place _ => place

/-- The argument that an input declares. -/
def MethodInput.argument : MethodInput Span → Except Diagnostic Argument
  | .receiver self => .error (.atSpan .argumentReceiver self.place)
  | .typed input =>
      match input.pattern with
      | .other place _ => .error (.atSpan .argumentPattern place)
      | .ident _ name mutable _ _ =>
          match input.ty.descriptor with
          | .ok type => .ok ⟨name, mutable, type⟩
          | .error rejection => .error (.atSpan rejection.fault rejection.place)

/-- The entry point that a method declares. Generic parameters, visibility, binding, arguments
and the shape of the binding are checked in this order. -/
def Method.entryPoint (method : Method Span) (dispatch : Dispatch) (marks : Annotation) :
    Except Diagnostic EntryPoint := do
  method.generics.refuse (.entryPointGenerics method.name)
  unless method.visibility.isPublic do
    throw (.atSpan (.entryPointPrivate method.name) method.place)
  let some binding := marks.binding?
    | throw (.atSpan (.missingBinding method.name) method.place)
  let arguments ← method.arguments.mapM (·.argument)
  match binding with
  | .number number =>
      return ⟨method.name, number, method.mutability, method.output.isSome, arguments⟩
  | .word _ =>
      throw (.atSpan (.bindingMismatch method.name dispatch.bindingShape) method.place)

/-- The entry points and the failures of the exported methods among the members. -/
def Member.exports (source : List Char) (dispatch : Dispatch) :
    List (Member Span) → Except Halt (List EntryPoint × List Diagnostic)
  | [] => .ok ([], [])
  | .other _ :: rest => Member.exports source dispatch rest
  | .method found :: rest =>
      match found.exportAttribute? with
      | none => Member.exports source dispatch rest
      | some exported => do
          let result ← match exported.exportAnnotation source with
            | .ok marks => pure (found.entryPoint dispatch marks)
            | .error (.reported diagnostic) => pure (.error diagnostic)
            | .error (.halted halt) => throw halt
          let (entries, failures) ← Member.exports source dispatch rest
          match result with
          | .ok entry => return (entry :: entries, failures)
          | .error failure => return (entries, failure :: failures)

/-- The actor that an implementation block declares. -/
def ImplItem.actor (source : List Char) (item : ImplItem Span) (marks : Annotation) :
    Except Failure Actor := do
  (item.generics.refuse .actorGenerics).mapError .reported
  let name ← item.typeName.mapError .reported
  let (entries, failures) ←
    (Member.exports source marks.dispatch item.members).mapError .halted
  match Diagnostic.ofList failures with
  | some diagnostic => throw (.reported diagnostic)
  | none => return ⟨name, marks.dispatch, entries⟩

/-- What one annotated item adds to a program. -/
inductive Declaration where
  | state (state : StateStruct)
  | payload (payload : PayloadStruct)
  | actor (actor : Actor)
  deriving DecidableEq, Repr

def Declaration.document : Declaration → Document
  | .state declared => declared.document
  | .payload declared => declared.document
  | .actor declared => declared.document

/-- The line that notes a shared method number. -/
def Collision.note (collision : Collision) (actor : String) : String :=
  "binding " ++ toString collision.binding.value ++ " on '" ++ actor ++ "' is shared by " ++
    ", ".intercalate collision.methods ++ "; the first declared method wins"

/-- The notes taken while an item is read. -/
def Declaration.notes : Declaration → List String
  | .actor declared => declared.collisions.map (·.note declared.name)
  | _ => []

/-- What an item declares for a target. -/
def Item.declaration (source : List Char) (item : Item Span) (marks : Annotation) :
    Target → Option (Except Failure Declaration)
  | .state => some <|
      match item with
      | .struct found => (found.state marks).map .state |>.mapError .reported
      | _ => .error (.reported (.atSpan .stateNotStructure item.place))
  | .payload => some <|
      match item with
      | .struct found => (found.payload marks).map .payload |>.mapError .reported
      | _ => .error (.reported (.atSpan .payloadNotStructure item.place))
  | .actor => some <|
      match item with
      | .impl found => (found.actor source marks).map .actor
      | _ => .error (.reported (.atSpan .actorNotImplementation item.place))
  | .method => none

/-- Why a declaration is not added to a program. -/
inductive DeclarationFault where
  | failed (failure : Failure)
  | notForItems (target : Target)
  | secondActor (first : String)

/-- The wording of a fault that is no failure of the item itself. -/
def DeclarationFault.message? : DeclarationFault → Option String
  | .failed _ => none
  | .notForItems target => some (target.name ++ " is not an item-level macro")
  | .secondActor first => some ("program already holds actor implementation '" ++ first ++ "'")

/-- The program with a declaration added; there is only one actor. -/
def Program.add (program : Program) : Declaration → Except DeclarationFault Program
  | .state state => .ok { program with states := program.states ++ [state] }
  | .payload payload => .ok { program with payloads := program.payloads ++ [payload] }
  | .actor actor =>
      match program.actor with
      | some first => .error (.secondActor first.name)
      | none => .ok { program with actor := some actor }

/-- A result with the notes taken on the way to it. -/
structure Noted (α : Type) where
  notes : List String
  result : α

/-- Adds what an item declares to a program. Notes about a second actor stay although it is not
added. -/
def Program.declare (program : Program) (source : List Char) (item : Item Span)
    (target : Target) (marks : Annotation) :
    Noted (Except DeclarationFault (Program × Declaration)) :=
  match item.declaration source marks target with
  | none => ⟨[], .error (.notForItems target)⟩
  | some (.error failure) => ⟨[], .error (.failed failure)⟩
  | some (.ok declaration) =>
      ⟨declaration.notes, (program.add declaration).map fun program => (program, declaration)⟩

end ActorGlue
