import ActorGlue.Document.Shown
import ActorGlue.Machine.Sandbox
import ActorGlue.Value.Shared

/-!
# The glue machine

Runs the blocks of a glue module in a sandbox. Methods are stand-ins: functions from the receiver
and the arguments to a result, which may change the receiver.
-/

namespace ActorGlue

/-- A computation on the records of a run. -/
abbrev OnRecords := StateT Records (Except Stop)

/-- A stand-in for a method. It can read and change the records among its arguments. -/
abbrev StandIn := List Value → OnRecords Value

/-- A machine with at most one state structure. -/
structure Machine where
  interface : Option Glue.StateInterface := none
  stateClass : Option RecordClass := none
  methods : List (String × StandIn) := []

/-- The results of a run by name, and the records that they share. -/
structure Env where
  results : List (String × Value) := []
  records : Records := []

namespace Env

/-- The environment with a result under a name. -/
def assign (env : Env) (name : String) (value : Value) : Env :=
  { env with results := Value.putNamed name value env.results }

/-- The result of a name. -/
def find? (env : Env) (name : String) : Option Value :=
  env.results.lookup name

/-- The result of a name; a name without one stands for itself. Its records are written out. -/
def resolve (env : Env) (name : String) : Value :=
  env.records.settle ((env.find? name).getD (.text name))

/-- A value from outside, which may be a new record, and the environment that knows it. -/
def hold (env : Env) (value : Value) : Value × Env :=
  let (value, records) := env.records.hold value
  (value, { env with records := records })

/-- The values of the arguments of a call: lists are spread out. -/
def spread (env : Env) : List String → Except Stop (List Value)
  | [] => .ok []
  | name :: rest => do
      let some value := env.find? name | throw .missingKey
      let more ← env.spread rest
      match value with
      | .list items => return items ++ more
      | _ => return value :: more

end Env

namespace Machine

/-- Ends the run with the abort of an instruction for a kind of failure. -/
def abort {α : Type} (spec : Option Glue.Abort) (detail : Option String) : Run α := do
  let some spec := spec | throw .missingKey
  if (exitCodeName? spec.exitCode).isNone then throw .missingKey
  Sandbox.note ("ABORT:" ++ toString spec.exitCode)
  throw (.abort spec.exitCode (some (spec.text detail)))

/-- Turns the failures that an instruction expects into its abort. -/
def guarded {α : Type} (i : Glue.Instruction) (expected : Stop → Bool)
    (result : Except Stop α) : Run α :=
  match result with
  | .ok value => pure value
  | .error stop =>
      if expected stop then abort (i.abort? "error") (some stop.message) else throw stop

/-- The outcome of a run, with what it changed. -/
def attempt {α : Type} (run : Run α) : Run (Except Stop α) :=
  fun sandbox =>
    let (result, sandbox) := run sandbox
    (.ok result, sandbox)

/-- The first argument of an instruction. -/
def firstArg (env : Env) (i : Glue.Instruction) : Run Value :=
  match i.args with
  | name :: _ => pure (env.resolve name)
  | [] => throw .missingArgument

def encode (value : Value) : Except Stop Value :=
  match Cbor.encode value with
  | .ok data => .ok (.bytes data)
  | .error fault => .error (.encode fault)

/-- The value that is encoded in a value's bytes. -/
def decode (value : Value) : Except Stop Value := do
  let data ← value.toBytes.mapError .bytes
  (Cbor.decode data).mapError .decode

/-- The record of a class that is encoded in a value's bytes. -/
def decodeRecord (cls : Option RecordClass) (value : Value) : Except Stop Value := do
  match ← decode value, cls with
  | .list items, some cls => (cls.make items).mapError .record
  | .list _, none => throw (.record .classless)
  | other, some cls => throw (.record (.notAList cls.name other.typeName))
  | _, none => throw .missingAttribute

/-- A failure of a value. -/
def ofValue (stop : Stop) : Bool :=
  stop.isValueFault

/-- A failure of a value or of its type. -/
def ofValueOrType (stop : Stop) : Bool :=
  stop.isValueFault || stop.isTypeFault

/-- A failure of the machine. -/
def ofSyscall : Stop → Bool
  | .syscall _ => true
  | _ => false

/-- A failure of the store. -/
def ofStore : Stop → Bool
  | .store (.unaddressed _) => false
  | .store _ => true
  | _ => false

/-- The codec of the block that an instruction stores. -/
def blockCodec (i : Glue.Instruction) : Nat :=
  match i.meta? "codec" with
  | none => dagCborCodec
  | some document => (document.toInt?.getD 0).toNat

/-- The hash that an instruction addresses its block with. Only one is known. -/
def blockHash (i : Glue.Instruction) : Except Stop Int :=
  match i.meta? "hash" with
  | none => .ok blake2b256
  | some .null => .error (.unformatted "NoneType")
  | some (.list _) => .error (.unformatted "list")
  | some (.object _) => .error (.unformatted "dict")
  | some document =>
      let code := document.toInt?.getD 0
      if code = blake2b256 then .ok code else .error (.store (.unaddressed (.unsupportedHash code)))

/-- The size of the digest that an instruction addresses its block with. -/
def blockDigestSize (i : Glue.Instruction) : Except Stop Int :=
  match i.meta? "digest_size" with
  | none => .ok digestSize
  | some (.int n) => .ok n
  | some (.bool value) => .ok (if value then 1 else 0)
  | some document => .error (.bytes (.notANumber document.typeName))

/-- The number of arguments that an instruction decodes. -/
def argumentCount (i : Glue.Instruction) : Except Stop Nat :=
  match i.meta? "arguments" with
  | none => .error .missingKey
  | some (.list items) => .ok items.length
  | some (.object fields) => .ok fields.length
  | some (.text value) => .ok value.length
  | some document => .error (.unmeasured document.typeName)

/-- Stores the block that an instruction has as its argument. The hash is looked at first, then
the block and then the size of the digest. -/
def putBlock (i : Glue.Instruction) (value : Value) : Run Value := do
  let parts : Except Stop (Int × Bytes × Int) := do
    let hash ← blockHash i
    let data ← value.toBytes.mapError .bytes
    return (hash, data, ← blockDigestSize i)
  let result ← match parts with
    | .ok (hash, data, size) => attempt (Sandbox.storePut (blockCodec i) data hash size)
    | .error stop => do pure (.error ((← get).putRefusal stop))
  return .cid (← guarded i ofStore result)

/-- What is said about arguments that are not a list of the declared length. -/
def miscount (count : Nat) (found : String) : String :=
  "expected a tuple of " ++ toString count ++ " values, found " ++ found

/-- The abort of the instruction for arguments that are not a list of the declared length. It says
what was found, which has to be written for that. -/
def refuseItems (i : Glue.Instruction) (count : Nat) (values : Value) : Run (List Value) := do
  let found ← (values.written.mapError .numeral : Except Stop String)
  abort (i.abort? "error") (some (miscount count found))

/-- Takes the items of a list of a length; anything else is refused. -/
def takeItems (i : Glue.Instruction) (count : Nat) : Value → Run (List Value)
  | .list items =>
    if items.length = count then pure items else refuseItems i count (.list items)
  | values => refuseItems i count values

/-- Decodes the arguments of a call, which have to be a list of the declared length. -/
def decodeArgs (i : Glue.Instruction) (env : Env) : Run Value := do
  let count ← (argumentCount i : Except Stop Nat)
  let values ← guarded i ofValue (decode (← firstArg env i))
  return .list (← takeItems i count values)

/-- Calls the stand-in of a method. -/
def callMethod (machine : Machine) (i : Glue.Instruction) (env : Env) : Run (Value × Env) := do
  let some method := i.meta? "method" | throw .missingKey
  let name ← match method with
    | .text name => pure name
    | .list _ | .object _ => throw (.unhashable method.typeName)
    | _ => throw (if method.isWritable then .noStandIn method.shown else .numeral .unwritable)
  let some standIn := machine.methods.lookup name | throw (.noStandIn name)
  let args ← (env.spread i.args : Except Stop (List Value))
  let (result, records) ← (standIn args env.records : Except Stop (Value × Records))
  return (result, { env with records := records })

/-- The result of an instruction and the environment after it; `load` and `save` run the blocks of
the state. -/
def apply (machine : Machine) (load : Run Value) (save : Value → Run Value) (params : Int)
    (env : Env) (i : Glue.Instruction) : Run (Value × Env) := do
  match i.op with
  | .getRoot => return (← guarded i ofSyscall (← attempt Sandbox.getRoot), env)
  | .getBlock =>
      let address ← firstArg env i
      match ← guarded i ofStore (← attempt (Sandbox.storeGet address)) with
      | some data => return (.bytes data, env)
      | none => abort (i.abort? "missing") none
  | .decodeState =>
      let value ← firstArg env i
      return env.hold (← guarded i ofValueOrType (decodeRecord machine.stateClass value))
  | .encodeState | .encodeResult =>
      let value ← firstArg env i
      return (← guarded i ofValueOrType (encode value), env)
  | .putBlock => return (← putBlock i (← firstArg env i), env)
  | .setRoot =>
      let root ← firstArg env i
      guarded i ofSyscall (← attempt (Sandbox.setRoot root))
      return (.null, env)
  | .fetchParams =>
      let data ← guarded i ofSyscall (← attempt (Sandbox.getBlock params))
      return (.bytes data, env)
  | .decodeArgs => return (← decodeArgs i env, env)
  | .loadState => return env.hold (← load)
  | .call => machine.callMethod i env
  | .saveState => return (← save (← firstArg env i), env)
  | .ret => return (.null, env)
  | .unknown name => throw (.unknownOp name)

/-- Runs instructions one after the other up to a return. -/
def runSteps (machine : Machine) (load : Run Value) (save : Value → Run Value) (params : Int) :
    Env → List Glue.Instruction → Run Value
  | _, [] => pure .null
  | env, i :: rest =>
      if i.op = .ret then
        match i.args with
        | [] => pure .null
        | name :: _ =>
            match env.find? name with
            | some value => pure (env.records.settle value)
            | none => throw .missingKey
      else do
        let (value, env) ← machine.apply load save params env i
        Sandbox.note (i.op.name ++ ":" ++ i.id)
        machine.runSteps load save params (env.assign i.id value) rest

/-- Runs a block of the state, which has no use for the state itself. -/
def runState (machine : Machine) (bindings : List (String × Value)) (block : Glue.Block) :
    Run Value :=
  machine.runSteps (throw .endless) (fun _ => throw .endless) 0 ⟨bindings, []⟩ block.instructions

def loadState (machine : Machine) : Run Value :=
  match machine.interface with
  | some interface => machine.runState [] interface.load
  | none => throw .noInterface

/-- Saves a state and gives its address. -/
def saveState (machine : Machine) (state : Value) : Run Value :=
  match machine.interface with
  | some interface => machine.runState [("self", state)] interface.save
  | none => throw .noInterface

/-- Runs a block with the given bindings and parameters. -/
def execute (machine : Machine) (block : Glue.Block) (bindings : List (String × Value) := [])
    (params : Int := 0) : Run Value :=
  machine.runSteps machine.loadState machine.saveState params ⟨bindings, []⟩ block.instructions

/-- Puts the value of an invocation into a block, if there is one. -/
def deliver : Value → Run Nat
  | .null => pure 0
  | value =>
    match value.toBytes with
    | .ok data => Sandbox.putBlock data
    | .error fault => throw (.bytes fault)

/-- Runs the case of a method number and gives the id of its result, which is zero if there is
none. -/
def dispatch (machine : Machine) (table : Glue.DispatchTable) (method : Value) (params : Int) :
    Run Nat := do
  modify fun sandbox => { sandbox with methodNumber := method }
  match method.toInt?.bind table.case? with
  | none => abort (some Glue.unhandledAbort) none
  | some case => machine.execute case.block [] params >>= deliver

/-- Invokes a method with arguments, if there are any. -/
def invoke (machine : Machine) (table : Glue.DispatchTable) (method : Value)
    (args : Option (List Value)) : Run Nat := do
  let params ← Sandbox.putParams args
  machine.dispatch table method params

/-- The arguments of a call, as they are put into a block. -/
def given (args : List Value) : Option (List Value) :=
  if args.isEmpty then none else some args

/-- Takes the value of a result from its block. -/
def collect (id : Nat) : Run Value := do
  if id = 0 then return .null
  let data ← Sandbox.getBlock id
  (decode (.bytes data) : Except Stop Value)

/-- Invokes a method and decodes its result. -/
def call (machine : Machine) (table : Glue.DispatchTable) (method : Value)
    (args : List Value) : Run Value :=
  machine.invoke table method (given args) >>= collect

def ofInterface (interface : Option Glue.StateInterface) (methods : List (String × StandIn)) :
    Except Stop Machine :=
  match interface with
  | none => .ok ⟨none, none, methods⟩
  | some interface =>
      match RecordClass.ofState interface.state with
      | .ok cls => .ok ⟨some interface, some cls, methods⟩
      | .error fault => .error (.record fault)

/-- The machine of the actor of a module, with the table of its methods. -/
def ofModule (module : Glue.Module) (methods : List (String × StandIn)) :
    Except Stop (Machine × Glue.DispatchTable) :=
  match module.table with
  | none => .error .noTable
  | some table =>
      (ofInterface (module.interface? table.actor.name) methods).map (·, table)

end Machine

end ActorGlue
