import ActorGlue.Glue.Basic

/-!
# Lowering

The blocks of states and entry points. An entry point decodes its arguments, loads the state,
calls the method, encodes the result and saves the state, each step only where it is needed.
-/

namespace ActorGlue

/-- The multicodec of the encoding that states and results are stored in. -/
def dagCborCodec : Nat := 0x71

/-- The multihash code of the hash that blocks are addressed by. -/
def blake2b256 : Nat := 0xb220

/-- The size of digests in bytes. -/
def digestSize : Nat := 32

/-- The name of the generated function. -/
def invokeSymbol : String := "invoke"

namespace Glue

/-- An abort for the failure of a step. -/
def onError (exitCode : Int) (message : String) : List (String × Abort) :=
  [("error", ⟨exitCode, message, true⟩)]

/-- The metadata of steps that encode or decode a state. -/
def stateMetadata (state : StateStruct) : List (String × Document) :=
  [("state", .text state.name), ("codec", .text state.codec.name)]

def loadSteps (state : StateStruct) : List Step :=
  [⟨.getRoot, [], [], onError illegalState "failed to get root"⟩,
    ⟨.getBlock, [resultName 0], [],
      ("missing", ⟨illegalState, "state does not exist", false⟩) ::
        onError illegalState "failed to get state"⟩,
    ⟨.decodeState, [resultName 1], stateMetadata state,
      onError serializationFailure "failed to deserialize state"⟩,
    ⟨.ret, [resultName 2], [], []⟩]

def saveSteps (state : StateStruct) : List Step :=
  [⟨.encodeState, ["self"], stateMetadata state,
      onError serializationFailure "failed to serialize state"⟩,
    ⟨.putBlock, [resultName 0],
      [("codec", .nat dagCborCodec), ("hash", .nat blake2b256), ("digest_size", .nat digestSize)],
      onError serializationFailure "failed to store initial state"⟩,
    ⟨.setRoot, [resultName 1], [], onError illegalState "failed to set root cid"⟩,
    ⟨.ret, [resultName 1], [], []⟩]

/-- The blocks of a state structure. -/
def lowerState (state : StateStruct) : StateInterface :=
  ⟨state, .ofSteps (state.name ++ "::load") (loadSteps state),
    .ofSteps (state.name ++ "::save") (saveSteps state)⟩

/-- The steps that decode the arguments of an entry point, if it has any. -/
def argumentSteps (entry : EntryPoint) : List Step :=
  if entry.arguments.isEmpty then []
  else
    [⟨.fetchParams, [], [], onError serializationFailure "failed to receive params"⟩,
      ⟨.decodeArgs, [resultName 0],
        [("arguments", .list (entry.arguments.map (·.document)))],
        onError serializationFailure "failed to deserialize params"⟩]

/-- The step that loads the state, if the entry point needs it. -/
def loadStateSteps (entry : EntryPoint) (stateType : String) : List Step :=
  if entry.mutability.loadsState then
    [⟨.loadState, [],
      [("state", .text stateType), ("mutable", .bool (entry.mutability = .write))], []⟩]
  else []

/-- The steps of an entry point of the given type. -/
def entrySteps (entry : EntryPoint) (stateType : String) : List Step :=
  let arguments := argumentSteps entry
  let load := loadStateSteps entry stateType
  let state := load.map fun _ => resultName arguments.length
  let decoded := if entry.arguments.isEmpty then [] else [resultName 1]
  let before := arguments ++ load
  let call : Step := ⟨.call, state ++ decoded,
    [("method", .text entry.method), ("receiver", .text entry.mutability.name),
      ("returns", .bool entry.returns), ("state", .text stateType)], []⟩
  let encode : List Step :=
    if entry.returns then
      [⟨.encodeResult, [resultName before.length], [],
        onError serializationFailure "failed to serialize return value"⟩]
    else []
  let save : List Step :=
    if entry.mutability.savesState then [⟨.saveState, state, [("state", .text stateType)], []⟩]
    else []
  let returned := encode.map fun _ => resultName (before.length + 1)
  before ++ [call] ++ encode ++ save ++ [⟨.ret, returned, [], []⟩]

/-- The block of an entry point. -/
def lowerEntry (entry : EntryPoint) (stateType : String) : Block :=
  .ofSteps entry.method (entrySteps entry stateType)

/-- One case for each entry point, in order. -/
def lowerActor (actor : Actor) (symbol : String) : DispatchTable :=
  ⟨symbol, actor, actor.entryPoints.map fun entry => ⟨entry, lowerEntry entry actor.name⟩⟩

/-- The module of a program. -/
def lower (program : Program) (symbol : String) : Module :=
  ⟨program.states.map lowerState, program.actor.map (lowerActor · symbol)⟩

end Glue

end ActorGlue
