import ActorGlue.Document.Shape
import ActorGlue.Glue.Basic

/-!
# Generated text

The text that glue is written as. Text is a list of lines; a line that is not empty is indented by
the bodies it stands in. Everything refers to the runtime library by the name `sdk`.
-/

namespace ActorGlue

/-- The library that generated text refers to. -/
def sdkName : String := "fvm_rs_sdk"

namespace Glue

/-- Why a block cannot be written. -/
inductive EmitFault where
  | stateOp (op : Op)
  | dispatchOp (op : Op)
  | missingKey
  | missingArgument
  | misshapen (shape : Document.Misshapen)
  deriving DecidableEq, Repr

/-- The wording of a fault that has one. -/
def EmitFault.message? : EmitFault → Option String
  | .stateOp op => some ("unexpected state instruction: " ++ op.name)
  | .dispatchOp op => some ("unexpected dispatch instruction: " ++ op.name)
  | .missingKey | .missingArgument => none
  | .misshapen shape => shape.message?

/-- Text, or why there is none. -/
abbrev Emit := Except EmitFault

/-- Lines one level further in. -/
def indent (lines : List String) : List String :=
  lines.map fun line => if line.isEmpty then "" else "    " ++ line

/-- A body with its first and last line. -/
def enclosed (first : String) (body : List String) (last : String := "\x7d") : List String :=
  first :: indent body ++ [last]

/-- The marks that make a structure travel as a tuple of its fields. -/
def deriveMarkers (sdk : String) : String :=
  "#[derive(" ++ sdk ++ "::encoding::tuple::Serialize_tuple, " ++ sdk ++
    "::encoding::tuple::Deserialize_tuple)]\n" ++
    "#[serde(crate = \"" ++ sdk ++ "::encoding::serde\")]"

/-- The call that aborts. With an error at hand its text is appended if the abort wants it. -/
def abortCall (sdk : String) (abort : Abort) (withError : Bool := true) : Emit String :=
  match exitCodeName? abort.exitCode with
  | none => .error .missingKey
  | some name =>
      let message :=
        if withError && abort.withDetail then
          "Some(format!(\"" ++ abort.message ++ ": \x7b:?\x7d\", err).as_str())"
        else "Some(" ++ Text.literal abort.message ++ ")"
      .ok (sdk ++ "::syscall::vm::abort(" ++ sdk ++ "::shared::error::ExitCode::" ++ name ++
        ".value(), " ++ message ++ ")")

/-- The first argument of an instruction. -/
def Instruction.firstArg (instruction : Instruction) : Emit String :=
  match instruction.args with
  | arg :: _ => .ok arg
  | [] => .error .missingArgument

/-- The abort of an instruction for a kind of failure. -/
def Instruction.abortOf (instruction : Instruction) (kind : String := "error") : Emit Abort :=
  match instruction.abort? kind with
  | some abort => .ok abort
  | none => .error .missingKey

/-- The metadata of an instruction under a name. -/
def Instruction.metaOf (instruction : Instruction) (name : String) : Emit Document :=
  match instruction.meta? name with
  | some document => .ok document
  | none => .error .missingKey

/-- Metadata that is there and not empty, zero or false. -/
def Instruction.hasMeta (instruction : Instruction) (name : String) : Bool :=
  (instruction.meta? name).any (·.isPresent)

/-- A binding to the good outcome of an expression, which aborts on the bad one. -/
def matchResult (sdk binding expr pattern value : String) (abort : Abort) :
    Emit (List String) := do
  return enclosed ("let " ++ binding ++ " = match " ++ expr ++ " \x7b")
    ["Ok(" ++ pattern ++ ") => " ++ value ++ ",", "Err(err) => " ++ (← abortCall sdk abort) ++ ","]
    "\x7d;"

/-- The lines of an instruction in a block that loads or saves a state. -/
def stateLines (sdk : String) (i : Instruction) : Emit (List String) := do
  match i.op with
  | .getRoot =>
      matchResult sdk i.id (sdk ++ "::syscall::sself::root()") "root" "root" (← i.abortOf)
  | .getBlock =>
      let root ← i.firstArg
      let missing ← abortCall sdk (← i.abortOf "missing") false
      let failed ← abortCall sdk (← i.abortOf)
      return enclosed
          ("fn get_block<S: " ++ sdk ++ "::encoding::CborStore>(store: &S, cid: &" ++ sdk ++
            "::cid::Cid) -> Vec<u8> \x7b")
          (enclosed "match store.get(cid) \x7b"
            ["Ok(Some(block)) => block,", "Ok(None) => " ++ missing ++ ",",
              "Err(err) => " ++ failed ++ ","]) ++
        ["let " ++ i.id ++ " = get_block(&" ++ sdk ++ "::state::cbor::CborBlockstore, &" ++ root ++
          ");"]
  | .decodeState =>
      let block ← i.firstArg
      matchResult sdk (i.id ++ ": Self") (sdk ++ "::encoding::from_slice(&" ++ block ++ ")")
        "state" "state" (← i.abortOf)
  | .encodeState =>
      matchResult sdk i.id (sdk ++ "::encoding::to_vec(self)") "bytes" "bytes" (← i.abortOf)
  | .putBlock =>
      let size ← ((i.meta? "digest_size").getD (.nat 32)).shownText.mapError .misshapen
      let bytes ← i.firstArg
      let failed ← abortCall sdk (← i.abortOf)
      return enclosed ("let " ++ i.id ++ " = match " ++ sdk ++ "::syscall::ipld::put(")
          [sdk ++ "::cid::Code::Blake2b256.into(),", size ++ ",", sdk ++ "::encoding::DAG_CBOR,",
            bytes ++ ".as_slice(),"]
          ") \x7b" ++
        indent ["Ok(cid) => cid,", "Err(err) => " ++ failed ++ ","] ++ ["\x7d;"]
  | .setRoot =>
      let cid ← i.firstArg
      let failed ← abortCall sdk (← i.abortOf)
      return enclosed
        ("if let Err(err) = " ++ sdk ++ "::syscall::sself::set_root(&" ++ cid ++ ") \x7b")
        [failed ++ ";"]
  | .ret => return [← i.firstArg]
  | op => throw (.stateOp op)

/-- The lines of a block that loads or saves a state. -/
def stateBlockLines (sdk : String) (block : Block) : Emit (List String) :=
  return (← block.instructions.mapM (stateLines sdk)).flatten

/-- The implementation that loads and saves a state. -/
def emitStateObject (sdk : String) (interface : StateInterface) : Emit String := do
  let load ← stateBlockLines sdk interface.load
  let save ← stateBlockLines sdk interface.save
  return "\n".intercalate <|
    enclosed ("impl " ++ sdk ++ "::state::StateObject for " ++ interface.state.exportName ++ " \x7b")
      (enclosed "fn load() -> Self \x7b" load ++ [""] ++
        enclosed ("fn save(&self) -> " ++ sdk ++ "::cid::Cid \x7b") save)

/-- What the result of an instruction is called in a case. -/
inductive CaseName where
  | locals (names : List String)
  | state
  deriving DecidableEq, Repr

/-- Items as a tuple. -/
def tupleText : List String → String
  | [item] => "(" ++ item ++ ",)"
  | items => "(" ++ ", ".intercalate items ++ ")"

/-- A name without its raw mark. -/
def dropRawMark (name : String) : String :=
  match name.toList with
  | 'r' :: '#' :: rest => String.ofList rest
  | _ => name

/-- The types of arguments as a tuple. A single one may be any document. -/
def typesText : List Document → Except Document.Misshapen String
  | [type] => return tupleText [← type.shownText]
  | types => return tupleText (← Document.joinable 0 types)

/-- The arguments in metadata: their names in the case, their patterns and their types. All names
are read before the first pattern, and all patterns before the first type. -/
def argumentTexts (arguments : Document) :
    Except Document.Misshapen (List String × List String × List Document) := do
  let items ← arguments.itemsOf
  let names ← items.mapM fun item => do
    return "arg_" ++ dropRawMark (← (← item.fieldOf "name").textOf)
  let marks ← items.mapM fun item => do
    return if (← item.fieldOf "mutable").isPresent then "mut " else ""
  return (names, marks.zipWith (· ++ ·) names, ← items.mapM (·.fieldOf "type"))

/-- What an argument of a call stands for. -/
def resolve (names : List (String × CaseName)) (arg : String) : Option CaseName :=
  match names.lookup arg with
  | some name => some name
  | none => if arg = "state" then some .state else none

/-- The call of a method, on the state or on the type. -/
def callText (names : List (String × CaseName)) (stateType method : String)
    (args : List String) : String :=
  let resolved := args.filterMap (resolve names)
  let passed := resolved.flatMap fun name =>
    match name with
    | .locals names => names
    | .state => []
  let target := if resolved.contains .state then "state." ++ method
    else stateType ++ "::" ++ method
  target ++ "(" ++ ", ".intercalate passed ++ ")"

/-- The lines of an instruction in a case, and the names known after it. -/
def caseLines (sdk stateType : String) (names : List (String × CaseName)) (i : Instruction) :
    Emit (List String × List (String × CaseName)) := do
  match i.op with
  | .fetchParams =>
      let lines ← matchResult sdk i.id
        (sdk ++ "::syscall::message::params_raw(params_pointer)") "(_, raw)" "raw" (← i.abortOf)
      return (lines, names)
  | .decodeArgs =>
      let (locals, patterns, types) ←
        (argumentTexts (← i.metaOf "arguments")).mapError .misshapen
      let block ← i.firstArg
      let abort ← i.abortOf
      let types ← (typesText types).mapError .misshapen
      let lines ← matchResult sdk (tupleText patterns ++ ": " ++ types)
        (sdk ++ "::encoding::from_slice(&" ++ block ++ ")") "args" "args" abort
      return (lines, (i.id, .locals locals) :: names)
  | .loadState =>
      let binding := if i.hasMeta "mutable" then "mut state" else "state"
      return (["let " ++ binding ++ ": " ++ stateType ++ " = <" ++ stateType ++ " as " ++ sdk ++
        "::state::StateObject>::load();"], (i.id, .state) :: names)
  | .call =>
      let method ← (← i.metaOf "method").shownText.mapError .misshapen
      let call := callText names stateType method i.args
      return ([if i.hasMeta "returns" then "let " ++ i.id ++ " = " ++ call ++ ";" else call ++ ";"],
        names)
  | .encodeResult =>
      let result ← i.firstArg
      let lines ← matchResult sdk i.id
        (sdk ++ "::encoding::RawBytes::serialize(&" ++ result ++ ")") "bytes" "bytes"
        (← i.abortOf)
      return (lines, names)
  | .saveState =>
      return (["<" ++ stateType ++ " as " ++ sdk ++ "::state::StateObject>::save(&state);"], names)
  | .ret =>
      return ([match i.args with
        | arg :: _ => "Some(" ++ arg ++ ")"
        | [] => "None"], names)
  | op => throw (.dispatchOp op)

/-- The lines of the instructions of a case. -/
def caseBodyLines (sdk stateType : String) :
    List (String × CaseName) → List Instruction → Emit (List String)
  | _, [] => .ok []
  | names, i :: rest => do
      let (lines, names) ← caseLines sdk stateType names i
      return lines ++ (← caseBodyLines sdk stateType names rest)

/-- The lines of a case. -/
def emitCase (sdk stateType : String) (case : Case) : Emit (List String) :=
  return enclosed (toString case.entry.binding.value ++ " => \x7b")
    (← caseBodyLines sdk stateType [] case.block.instructions)

/-- The exported function that chooses among the cases by method number. -/
def emitDispatchTable (sdk : String) (table : DispatchTable) : Emit String := do
  let cases ← table.cases.mapM (emitCase sdk table.actor.name)
  let unhandled ← abortCall sdk unhandledAbort false
  let unstored ← abortCall sdk resultAbort
  return "\n".intercalate <|
    ["#[no_mangle]", "#[allow(unused_variables)]"] ++
      enclosed ("pub fn " ++ table.symbol ++ "(params_pointer: u32) -> u32 \x7b")
        (enclosed
            ("let ret: Option<" ++ sdk ++ "::encoding::RawBytes> = match " ++ sdk ++
              "::syscall::message::method_number() \x7b")
            (cases.flatten ++ ["_ => " ++ unhandled ++ ","]) "\x7d;" ++
          enclosed "match ret \x7b"
            (["None => " ++ sdk ++ "::syscall::NO_DATA_BLOCK_ID,"] ++
              enclosed
                ("Some(v) => match " ++ sdk ++ "::syscall::ipld::put_block(" ++ sdk ++
                  "::encoding::DAG_CBOR, v.bytes()) \x7b")
                ["Ok(id) => id,", "Err(err) => " ++ unstored ++ ","] "\x7d,"))

/-- A state structure with its marks and its implementation. -/
def emitState (sdk item : String) (interface : StateInterface) : Emit String :=
  return "\n".intercalate [deriveMarkers sdk, item, "", ← emitStateObject sdk interface]

/-- A payload structure with its marks. -/
def emitPayload (sdk item : String) : String :=
  "\n".intercalate [deriveMarkers sdk, item]

/-- An implementation block with the function that dispatches to it. -/
def emitActor (sdk item : String) (table : DispatchTable) : Emit String :=
  return "\n".intercalate [item, "", ← emitDispatchTable sdk table]

end Glue

end ActorGlue
