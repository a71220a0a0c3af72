import ActorGlue.Interface.Program

/-!
# Glue

The runtime steps generated for an actor. A block is a sequence of instructions, each of which may
abort; a state structure has a block that loads it and one that saves it, and each entry point has
a block that dispatch runs.
-/

namespace ActorGlue

/-- The name of an exit code that actors abort with. -/
def exitCodeName? (code : Int) : Option String :=
  if code = 20 then some "USR_ILLEGAL_STATE"
  else if code = 21 then some "USR_SERIALIZATION"
  else if code = 22 then some "USR_UNHANDLED_MESSAGE"
  else none

/-- The exit code of a state that cannot be used. -/
def illegalState : Int := 20

/-- The exit code of data that cannot be encoded, decoded or stored. -/
def serializationFailure : Int := 21

/-- The exit code of a method number without a method. -/
def unhandledMessage : Int := 22

namespace Glue

/-- How a failing step aborts. The detail of the failure is appended unless it is unwanted. -/
structure Abort where
  exitCode : Int
  message : String
  withDetail : Bool := true
  deriving DecidableEq, Repr

/-- The message of an abort for a failure with the given detail. -/
def Abort.text (abort : Abort) (detail : Option String) : String :=
  match abort.withDetail, detail with
  | true, some detail => abort.message ++ ": " ++ detail
  | _, _ => abort.message

/-- The operations of instructions. -/
inductive Op where
  | getRoot
  | getBlock
  | decodeState
  | encodeState
  | putBlock
  | setRoot
  | fetchParams
  | decodeArgs
  | loadState
  | call
  | encodeResult
  | saveState
  | ret
  | unknown (name : String)
  deriving DecidableEq, Repr

namespace Op

/-- The name of an operation. -/
def name : Op → String
  | .getRoot => "GET_ROOT"
  | .getBlock => "GET_BLOCK"
  | .decodeState => "DECODE_STATE"
  | .encodeState => "ENCODE_STATE"
  | .putBlock => "PUT_BLOCK"
  | .setRoot => "SET_ROOT"
  | .fetchParams => "FETCH_PARAMS"
  | .decodeArgs => "DECODE_ARGS"
  | .loadState => "LOAD_STATE"
  | .call => "CALL"
  | .encodeResult => "ENCODE_RESULT"
  | .saveState => "SAVE_STATE"
  | .ret => "RETURN"
  | .unknown name => name

/-- The operations that have a meaning. -/
def known : List Op :=
  [.getRoot, .getBlock, .decodeState, .encodeState, .putBlock, .setRoot, .fetchParams,
    .decodeArgs, .loadState, .call, .encodeResult, .saveState, .ret]

/-- The operation of a name. -/
def ofName (text : String) : Op :=
  (known.find? (·.name = text)).getD (.unknown text)

end Op

/-- What an instruction does, apart from the name of its result. -/
structure Step where
  op : Op
  args : List String := []
  metadata : List (String × Document) := []
  aborts : List (String × Abort) := []

/-- A step with the name of its result. -/
structure Instruction extends Step where
  id : String

/-- The abort of an instruction for a kind of failure. -/
def Step.abort? (step : Step) (kind : String) : Option Abort :=
  step.aborts.lookup kind

/-- The first metadata of a name. -/
def Step.meta? (step : Step) (name : String) : Option Document :=
  Document.lookup name step.metadata

def resultName (index : Nat) : String :=
  "g" ++ toString index

/-- Instructions in the order they run. -/
structure Block where
  name : String
  instructions : List Instruction

/-- The block of the given steps, with results numbered from zero. -/
def Block.ofSteps (name : String) (steps : List Step) : Block :=
  ⟨name, steps.zipIdx.map fun (step, index) => ⟨step, resultName index⟩⟩

/-- The first instruction with an operation. -/
def Block.find? (block : Block) (op : Op) : Option Instruction :=
  block.instructions.find? (·.op = op)

/-- The blocks of a state structure. -/
structure StateInterface where
  state : StateStruct
  load : Block
  save : Block

/-- The block of an entry point. -/
structure Case where
  entry : EntryPoint
  block : Block

/-- The choice among entry points by method number. -/
structure DispatchTable where
  symbol : String
  actor : Actor
  cases : List Case

/-- Everything generated for a program. -/
structure Module where
  interfaces : List StateInterface := []
  table : Option DispatchTable := none

/-- The abort of a method number that no case has. -/
def unhandledAbort : Abort := ⟨unhandledMessage, "unrecognized method", false⟩

/-- The abort of a result that cannot be stored. -/
def resultAbort : Abort := ⟨serializationFailure, "failed to store return value", true⟩

/-- The first case of a method number. -/
def DispatchTable.case? (table : DispatchTable) (number : Int) : Option Case :=
  table.cases.find? fun case => (case.entry.binding.value : Int) = number

/-- The method numbers of the cases. -/
def DispatchTable.bindings (table : DispatchTable) : List Nat :=
  table.cases.map (·.entry.binding.value)

/-- The first interface of a state structure. -/
def Module.interface? (module : Module) (name : String) : Option StateInterface :=
  module.interfaces.find? (·.state.name = name)

/-- All blocks of a module: load and save of each state, then each case. -/
def Module.blocks (module : Module) : List Block :=
  module.interfaces.flatMap (fun interface => [interface.load, interface.save]) ++
    (module.table.map fun table => table.cases.map (·.block)).getD []

def Abort.document (abort : Abort) : Document :=
  .object [("exit_code", .int abort.exitCode), ("message", .text abort.message)]

def Instruction.document (instruction : Instruction) : Document :=
  .object [("id", .text instruction.id), ("op", .text instruction.op.name),
    ("args", .texts instruction.args), ("metadata", .object instruction.metadata),
    ("aborts", .object (instruction.aborts.map fun (kind, abort) => (kind, abort.document)))]

def Block.document (block : Block) : Document :=
  .object [("name", .text block.name),
    ("instructions", .list (block.instructions.map (·.document)))]

def StateInterface.document (interface : StateInterface) : Document :=
  .object [("state", .text interface.state.name), ("load", interface.load.document),
    ("save", interface.save.document)]

def Case.document (case : Case) : Document :=
  .object [("binding", .nat case.entry.binding.value), ("method", .text case.entry.method),
    ("body", case.block.document)]

def DispatchTable.document (table : DispatchTable) : Document :=
  .object [("symbol", .text table.symbol), ("implementation", .text table.actor.name),
    ("cases", .list (table.cases.map (·.document))), ("default", unhandledAbort.document)]

def Module.document (module : Module) : Document :=
  .object [("state_interfaces", .list (module.interfaces.map (·.document))),
    ("dispatch_table", .option (·.document) module.table)]

end Glue

end ActorGlue
