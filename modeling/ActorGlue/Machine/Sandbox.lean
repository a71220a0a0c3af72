import ActorGlue.Cbor.Decode
import ActorGlue.Cbor.Encode
import ActorGlue.Content.Store
import ActorGlue.Value.Bytes
import ActorGlue.Value.Record

/-!
# The sandbox of an actor

What an actor sees of the machine it runs on: a block store, a slot for the root of its state, the
blocks that carry parameters and results, the method number of the invocation, and a log.
-/

namespace ActorGlue

/-- Blocks by id, and a counter for the ids. Zero stands for no data. -/
structure BlockTable where
  entries : List (Nat × Bytes)
  next : Nat
  next_pos : 0 < next
  below_next : ∀ entry ∈ entries, entry.1 < next

namespace BlockTable

/-- The table without blocks. -/
def empty : BlockTable :=
  ⟨[], 1, Nat.one_pos, List.forall_mem_nil _⟩

/-- The table with one more block, under the next id. -/
def add (table : BlockTable) (data : Bytes) : BlockTable where
  entries := table.entries ++ [(table.next, data)]
  next := table.next + 1
  next_pos := Nat.succ_pos _
  below_next entry member := by
    rcases List.mem_append.mp member with old | new
    · exact Nat.lt_succ_of_lt (table.below_next entry old)
    · rw [List.mem_singleton.mp new]
      exact Nat.lt_succ_self _

/-- The table with more blocks, one after the other. -/
def addAll (table : BlockTable) (blocks : List Bytes) : BlockTable :=
  blocks.foldl add table

/-- The block of an id. -/
def get? (table : BlockTable) (id : Int) : Option Bytes :=
  if id = 0 then none else (table.entries.find? fun entry => entry.1 = id).map (·.2)

/-- No block has the next id. -/
theorem get?_next (table : BlockTable) : table.get? table.next = none := by
  have absent : table.entries.find? (fun entry => (entry.1 : Int) = table.next) = none := by
    rw [List.find?_eq_none]
    intro entry member
    have below := table.below_next entry member
    simp
    omega
  rw [get?, absent]
  split <;> rfl

/-- A block that is added is found under the id that was next, and the others stay. -/
theorem get?_add (table : BlockTable) (data : Bytes) (id : Int) :
    (table.add data).get? id = if id = table.next then some data else table.get? id := by
  have positive := table.next_pos
  by_cases new : id = table.next
  · subst new
    have absent := table.get?_next
    have some : (table.next : Int) ≠ 0 := by omega
    simp only [get?, some, if_false, Option.map_eq_none_iff] at absent ⊢
    simp only [add, List.find?_append, absent, Option.none_or, List.find?_singleton, decide_true,
      if_true, Option.map_some]
  · have other : (table.next : Int) ≠ id := fun same => new same.symm
    simp [get?, add, List.find?_append, new, other]

end BlockTable

/-- Everything an invocation can read or change. -/
structure Sandbox where
  store : Store := {}
  root : Option Value := none
  blocks : BlockTable := .empty
  methodNumber : Value := .null
  log : List String := []

/-- Why the machine does not do what it is asked. -/
inductive SyscallFault where
  | noRoot
  | notStored (text : String)
  | noBlock (id : String)
  deriving DecidableEq, Repr

namespace SyscallFault

/-- The number of a fault, as a word. -/
def errno : SyscallFault → String
  | .noRoot => "IllegalOperation"
  | .notStored _ => "NotFound"
  | .noBlock _ => "InvalidHandle"

/-- What happened. -/
def detail : SyscallFault → String
  | .noRoot => "actor has no state root"
  | .notStored text => "block " ++ text ++ " is not in the store"
  | .noBlock id => "no block with id " ++ id

/-- The wording of a fault. -/
def message (fault : SyscallFault) : String :=
  fault.errno ++ ": " ++ fault.detail

end SyscallFault

/-- Why a run ends before its end. -/
inductive Stop where
  | abort (exitCode : Int) (message : Option String)
  | syscall (fault : SyscallFault)
  | store (fault : StoreFault)
  | decode (fault : Cbor.DecodeFault)
  | encode (fault : Cbor.EncodeFault)
  | bytes (fault : BytesFault)
  | record (fault : RecordFault)
  | numeral (fault : Text.NumeralFault)
  | unhashable (typeName : String)
  | unmeasured (typeName : String)
  | unformatted (typeName : String)
  | unknownOp (name : String)
  | noTable
  | noInterface
  | noStandIn (method : String)
  | missingKey
  | missingArgument
  | missingAttribute
  | endless

namespace Stop

/-- The wording of a reason. -/
def message : Stop → String
  | .abort exitCode message =>
      (exitCodeName? exitCode).getD (toString exitCode) ++ ": " ++ message.getD "None"
  | .syscall fault => fault.message
  | .store fault => fault.message
  | .decode fault => fault.message
  | .encode fault => fault.message
  | .bytes fault => fault.message
  | .record fault => fault.message
  | .numeral fault => fault.message
  | .unhashable typeName => "unhashable type: '" ++ typeName ++ "'"
  | .unmeasured typeName => "object of type '" ++ typeName ++ "' has no len()"
  | .unformatted typeName =>
      "unsupported format string passed to " ++ typeName ++ ".__format__"
  | .unknownOp name => "unknown glue instruction: " ++ name
  | .noTable => "glue module has no dispatch table"
  | .noInterface => "no state interface bound to this VM"
  | .noStandIn method => "no stand-in registered for method '" ++ method ++ "'"
  | .missingKey => "missing key"
  | .missingArgument => "missing argument"
  | .missingAttribute => "missing attribute"
  | .endless => "state blocks load or save the state"

/-- A value of the right type is not right. -/
def isValueFault : Stop → Bool
  | .decode fault => !fault.isEnd
  | .encode fault => fault.isValueFault
  | .bytes fault => fault.isValueFault
  | .record fault => fault.isValueFault
  | .store (.unaddressed _) => true
  | .numeral _ | .unknownOp _ | .noTable => true
  | _ => false

/-- A value is of the wrong type. -/
def isTypeFault : Stop → Bool
  | .unhashable _ | .unmeasured _ | .unformatted _ => true
  | .encode fault => !fault.isValueFault
  | .bytes fault => !fault.isValueFault
  | .record fault => !fault.isValueFault
  | _ => false

/-- A reason whose wording shows a value, or that the value cannot be written. -/
def showing (value : Value) (reason : String → Stop) : Stop :=
  match value.shown with
  | .ok text => reason text
  | .error fault => .numeral fault

end Stop

/-- A run in a sandbox. What it changed stays changed also if it stops early. -/
abbrev Run := ExceptT Stop (StateM Sandbox)

namespace Sandbox

/-- The id that the next block gets. -/
def nextBlockId (sandbox : Sandbox) : Nat :=
  sandbox.blocks.next

def block? (sandbox : Sandbox) (id : Int) : Option Bytes :=
  sandbox.blocks.get? id

/-- Adds a line to the log. -/
def note (line : String) : Run Unit :=
  modify fun sandbox => { sandbox with log := sandbox.log ++ [line] }

/-- The root of the state. -/
def getRoot : Run Value := do
  match (← get).root with
  | some root => return root
  | none => throw (.syscall .noRoot)

/-- Makes a stored block the root of the state. -/
def setRoot (root : Value) : Run Unit := do
  match root with
  | .cid cid =>
      if (← get).store.contains cid then
        modify fun sandbox => { sandbox with root := some root }
      else throw (.syscall (.notStored cid.text))
  | _ =>
      match root.unhashable? with
      | some typeName => throw (.unhashable typeName)
      | none => throw (.showing root (.syscall <| .notStored ·))

/-- Adds a block and gives its id. -/
def putBlock (data : Bytes) : Run Nat := do
  let id := (← get).nextBlockId
  modify fun sandbox => { sandbox with blocks := sandbox.blocks.add data }
  return id

def getBlock (id : Int) : Run Bytes := do
  match (← get).block? id with
  | some data => return data
  | none => throw (.showing (.int id) (.syscall <| .noBlock ·))

/-- Adds a block of arguments and gives its id, which is zero without arguments. -/
def putParams (args : Option (List Value)) : Run Nat := do
  match args with
  | none => return 0
  | some args =>
      match Cbor.encode (.tuple args) with
      | .ok data => putBlock data
      | .error fault => throw (.encode fault)

/-- The block of an address in the store. -/
def storeGet (address : Value) : Run (Option Bytes) := do
  match address with
  | .cid cid => return (← get).store.get? cid
  | other => throw (.showing other (.store <| .invalidCid ·))

/-- Puts a block into the store. -/
def storePut (codec : Nat) (data : Bytes) (hash : Int := blake2b256)
    (size : Int := digestSize) : Run Cid := do
  match (← get).store.put codec data hash size with
  | .ok (cid, store) =>
      modify fun sandbox => { sandbox with store := store }
      return cid
  | .error fault => throw (.store fault)

/-- What putting a block ends with when a reason keeps it from having an address. -/
def putRefusal (sandbox : Sandbox) (reason : Stop) : Stop :=
  match sandbox.store.mode with
  | .refuse text => .store (.refused text)
  | .keep => if reason.isValueFault then .store (.refused "IllegalArgument") else reason
  | .drop => reason

/-- Puts a block that should have a known address into the store. -/
def storePutKeyed (address : Value) (data : Bytes) : Run Unit := do
  match address with
  | .cid cid =>
      let (result, store) := (← get).store.putKeyed cid data
      modify fun sandbox => { sandbox with store := store }
      match result with
      | .ok _ => return ()
      | .error fault => throw (.store fault)
  | _ => throw .missingAttribute

/-- The store has a block of an address. -/
def storeHas (sandbox : Sandbox) : Value → Bool
  | .cid cid => sandbox.store.contains cid
  | _ => false

end Sandbox

end ActorGlue
