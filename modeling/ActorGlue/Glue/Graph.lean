import ActorGlue.Glue.Basic

/-!
# Glue graphs

A module as a directed graph: one cluster for each block, edges between consecutive instructions,
dashed edges from instructions to the exit codes they may abort with, and edges from the dispatch
node to the first instruction of each case.
-/

namespace ActorGlue.Graph

/-- Attributes in the order they are written. -/
abbrev Attributes := List (String × String)

structure Node where
  name : String
  attributes : Attributes
  deriving DecidableEq, Repr

structure Edge where
  source : String
  target : String
  attributes : Attributes
  deriving DecidableEq, Repr

/-- Nodes drawn together. -/
structure Cluster where
  name : String
  attributes : Attributes
  nodes : List Node
  deriving DecidableEq, Repr

/-- What a graph is made of, in the order it is written. -/
inductive Element where
  | node (node : Node)
  | edge (edge : Edge)
  | cluster (cluster : Cluster)
  deriving DecidableEq, Repr

/-- The fill color of an operation. -/
def opColor : Glue.Op → String
  | .getRoot | .getBlock | .putBlock | .setRoot | .fetchParams => "#AED6F1"
  | .decodeState | .encodeState | .decodeArgs | .encodeResult => "#F9E79F"
  | .loadState | .saveState => "#A9DFBF"
  | .call => "#F5B7B1"
  | .ret => "#D5D8DC"
  | .unknown _ => "#B0BEC5"

/-- The node name of an instruction in a block with the given label. -/
def nodeName (label : String) (instruction : Glue.Instruction) : String :=
  label ++ "_" ++ instruction.id

/-- The node name of an exit code. -/
def abortName (exitCode : Int) : String :=
  "abort_" ++ toString exitCode

def instructionNode (label : String) (instruction : Glue.Instruction) : Node :=
  ⟨nodeName label instruction,
    [("label", instruction.op.name ++ "\\n" ++ instruction.id), ("shape", "box"),
      ("style", "filled"), ("fillcolor", opColor instruction.op), ("color", "#34495e"),
      ("fontname", "Helvetica")]⟩

def abortEdge (source kind : String) (abort : Glue.Abort) : Edge :=
  ⟨source, abortName abort.exitCode,
    [("style", "dashed"), ("color", "#c0392b"),
      ("label", if kind = "error" then abort.message else kind), ("fontsize", "8")]⟩

/-- The edges into an instruction from the one before it, and from it to its aborts. -/
def instructionEdges (label : String) (previous : Option String)
    (instruction : Glue.Instruction) : List Edge :=
  let name := nodeName label instruction
  (previous.map fun source => ⟨source, name, []⟩).toList ++
    instruction.aborts.map fun (kind, abort) => abortEdge name kind abort

/-- The edges of the instructions after a given one. -/
def blockEdges (label : String) : Option String → List Glue.Instruction → List Edge
  | _, [] => []
  | previous, instruction :: rest =>
      instructionEdges label previous instruction ++
        blockEdges label (some (nodeName label instruction)) rest

/-- The edges and the cluster of a block. -/
def blockElements (block : Glue.Block) (label title : String) : List Element :=
  (blockEdges label none block.instructions).map .edge ++
    [.cluster ⟨"cluster_" ++ label,
      [("label", title), ("color", "#7f8c8d"), ("fontname", "Helvetica"), ("fontsize", "10"),
        ("style", "rounded")],
      block.instructions.map (instructionNode label)⟩]

/-- The elements of a state's blocks. -/
def interfaceElements (interface : Glue.StateInterface) : List Element :=
  blockElements interface.load (interface.state.name ++ "_load") interface.load.name ++
    blockElements interface.save (interface.state.name ++ "_save") interface.save.name

/-- The elements of the case at an index, and the edge that leads to it. -/
def caseElements (case : Glue.Case) (index : Nat) : List Element :=
  let label := "case" ++ toString index
  let number := toString case.entry.binding.value
  blockElements case.block label (number ++ " => " ++ case.entry.method) ++
    (case.block.instructions.head?.map fun first =>
      Element.edge ⟨"dispatch", nodeName label first, [("label", number)]⟩).toList

def tableElements (table : Glue.DispatchTable) : List Element :=
  [.node ⟨"dispatch",
      [("label", table.symbol ++ "()\\nmethod_number()"), ("shape", "diamond"),
        ("fontname", "Helvetica")]⟩] ++
    table.cases.zipIdx.flatMap (fun (case, index) => caseElements case index) ++
    [.edge ⟨"dispatch", abortName Glue.unhandledAbort.exitCode,
      [("label", "_"), ("style", "dashed")]⟩]

/-- The aborts of a module in the order they are met, the one of unknown methods last. -/
def moduleAborts (module : Glue.Module) : List Int :=
  (module.blocks.flatMap fun block =>
      block.instructions.flatMap fun instruction => instruction.aborts.map (·.2.exitCode)) ++
    (module.table.map fun _ => Glue.unhandledAbort.exitCode).toList

/-- The first occurrences of the items of a list. -/
def firsts : List Int → List Int
  | [] => []
  | item :: rest => item :: (firsts rest).filter (· ≠ item)

def abortNode (exitCode : Int) : Option Node :=
  (exitCodeName? exitCode).map fun name =>
    ⟨abortName exitCode,
      [("label", "abort " ++ name), ("shape", "octagon"), ("color", "#c0392b"),
        ("fontname", "Helvetica")]⟩

/-- The graph of a module. The exit codes come last. -/
def ofModule (module : Glue.Module) : List Element :=
  module.interfaces.flatMap interfaceElements ++
    (module.table.map tableElements).getD [] ++
    (firsts (moduleAborts module)).filterMap fun exitCode => (abortNode exitCode).map .node

/-- The text in double quotes. -/
def inQuotes (text : String) : String :=
  String.ofList ('"' :: text.toList.flatMap (fun c =>
    if c = '"' then ['\\', '"'] else if c = '\n' then ['\\', 'n']
    else if c = '\r' then ['\\', 'r'] else [c]) ++ ['"'])

/-- A name, in quotes unless it is a plain word. -/
def nameText (name : String) : String :=
  match name.toList with
  | [] => inQuotes name
  | c :: rest =>
      if (c.isAlpha || c = '_') && rest.all fun c => c.isAlphanum || c = '_' then name
      else inQuotes name

/-- An attribute value, in quotes unless it is a number or a word of letters and digits. -/
def valueText (value : String) : String :=
  match value.toList with
  | [] => inQuotes value
  | c :: rest =>
      if (c :: rest).all Char.isDigit || (c.isAlpha && rest.all Char.isAlphanum) then value
      else inQuotes value

/-- Attributes in brackets, if there are any. -/
def attributesText (attributes : Attributes) : String :=
  if attributes.isEmpty then ""
  else " [" ++ ", ".intercalate (attributes.map fun (key, value) => key ++ "=" ++ valueText value) ++
    "]"

def Node.line (node : Node) : String :=
  nameText node.name ++ attributesText node.attributes ++ ";"

def Element.lines : Element → List String
  | .node found => [found.line]
  | .edge found =>
      [nameText found.source ++ " -> " ++ nameText found.target ++
        attributesText found.attributes ++ ";"]
  | .cluster found =>
      ["subgraph " ++ nameText found.name ++ " \x7b"] ++
        found.attributes.map (fun (key, value) => key ++ "=" ++ valueText value ++ ";") ++
        found.nodes.map (·.line) ++ ["\x7d"]

/-- The graph as text. -/
def dot (elements : List Element) : String :=
  "\n".intercalate
    (["digraph fvmgen_glue \x7b", "rankdir=TB;", "fontname=Helvetica;"] ++
      elements.flatMap (·.lines) ++ ["\x7d", ""])

/-- The line that reports a written graph. -/
def exportLine (path : String) : String :=
  "  ✓ Glue graph exported → " ++ path ++ "\n"

end ActorGlue.Graph
