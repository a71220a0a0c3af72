import ActorGlue.Machine.Basic

/-!
# Scripts

Small programs that stand in for methods: assignments to attributes of the first argument, then a
result.
-/

namespace ActorGlue

/-- An expression of a script. -/
inductive Expr where
  | lit (value : Value)
  | arg (index : Int)
  | field (name : String)
  | add (left right : Expr)
  | list (items : List Expr)
  | new (values : List Expr)
  | abort (exitCode : Int) (message : Option String)

structure Script where
  assignments : List (String × Expr) := []
  result : Option Expr := none

/-- Numbers are added, texts joined, and anything else gives null. -/
def Value.add : Value → Value → Value
  | .int a, .int b => .int (a + b)
  | .text a, .text b => .text (a ++ b)
  | _, _ => .null

/-- The argument at an index; negative ones count from the end. -/
def Expr.argument? (args : List Value) (index : Int) : Option Value :=
  let place := if index < 0 then index + args.length else index
  if place < 0 then none else args[place.toNat]?

/-- The first argument. -/
def Expr.firstArg (args : List Value) : OnRecords Value :=
  match args with
  | first :: _ => pure first
  | [] => throw .missingArgument

/-- The value of the run for a value from outside. -/
def Expr.hold (value : Value) : OnRecords Value :=
  modifyGet (·.hold value)

mutual

/-- The value of an expression for arguments; records are of the given class. -/
def Expr.eval (cls : Option RecordClass) (args : List Value) : Expr → OnRecords Value
  | .lit value => pure value
  | .arg index =>
      match Expr.argument? args index with
      | some value => pure value
      | none => throw .missingArgument
  | .field name => do
      match (← get).attribute? (← Expr.firstArg args) name with
      | some value => return value
      | none => throw .missingAttribute
  | .add left right => do return (← left.eval cls args).add (← right.eval cls args)
  | .list items => do return .list (← Expr.evalAll cls args items)
  | .new values => do
      let values ← Expr.evalAll cls args values
      match cls with
      | none => throw (.record .classless)
      | some cls =>
          match cls.make values with
          | .ok record => Expr.hold record
          | .error fault => throw (.record fault)
  | .abort exitCode message => throw (.abort exitCode message)

/-- The values of several expressions. -/
def Expr.evalAll (cls : Option RecordClass) (args : List Value) :
    List Expr → OnRecords (List Value)
  | [] => pure []
  | item :: rest => do return (← item.eval cls args) :: (← Expr.evalAll cls args rest)

end

namespace Script

/-- Makes assignments to the first argument in order; each sees those before it. -/
def assignAll (cls : Option RecordClass) (args : List Value) :
    List (String × Expr) → OnRecords Unit
  | [] => pure ()
  | (name, expr) :: rest => do
      let value ← expr.eval cls args
      match (← get).assign? (← Expr.firstArg args) name value with
      | some records => set records
      | none => throw .missingAttribute
      assignAll cls args rest

def standIn (cls : Option RecordClass) (script : Script) : StandIn := fun args => do
  assignAll cls args script.assignments
  match script.result with
  | some expr => expr.eval cls args
  | none => return .null

end Script

end ActorGlue
