import ActorGlue.Proofs.Machine.Steps

/-!
# What an invocation comes to

An invocation is told from the sandbox before anything in it changes: the arguments are read, the
state is loaded, the method is called, its result and the state are encoded. Only when all of this
has gone well are the block of the state, the root and the block of the result put in place, and
none of that can fail.
-/

namespace ActorGlue

variable {program : Program} {symbol stateType name : String} {index : Nat}

namespace Machine

open Glue

/-- The machine has no state interface or one of the module. -/
def RunsOver (machine : Machine) (module : Module) : Prop :=
  ∀ interface, machine.interface = some interface → interface ∈ module.interfaces

/-- The interface of a machine over a lowered program is that of a state structure. -/
theorem RunsOver.lowered {machine : Machine} (runs : machine.RunsOver (lower program symbol))
    {interface : StateInterface} (h : machine.interface = some interface) :
    ∃ state, interface = lowerState state := by
  obtain ⟨state, _, rfl⟩ := List.mem_map.mp (runs interface h)
  exact ⟨state, rfl⟩

/-- The state that the root stands for. -/
def storedState (machine : Machine) : Preview Value :=
  match machine.interface with
  | none => throw (.raised .noInterface)
  | some _ => do
      let root ← expecting illegalState "failed to get root" ofSyscall Sandbox.getRoot
      let data ← fetching illegalState "failed to get state" "state does not exist" root
      let record ← (fun _ => orAbort serializationFailure "failed to deserialize state"
        ofValueOrType (decodeRecord machine.stateClass (.bytes data)) : Preview Value)
      return Records.renew record

theorem loadState_reads {machine : Machine} (runs : machine.RunsOver (lower program symbol)) :
    Reads machine.loadState machine.storedState := by
  unfold loadState storedState
  cases h : machine.interface with
  | none => exact Performs.raise .noInterface
  | some interface =>
    obtain ⟨state, rfl⟩ := runs.lowered h
    simp only [runState, lowerState, Block.ofSteps, loadSteps, List.zipIdx_cons, List.zipIdx_nil,
      List.map_cons, List.map_nil]
    refine (getRoot_reads rfl ⟨rfl, rfl⟩).performs fun root _ => ?_
    refine (getBlock_reads rfl rfl (by simp [Env.resolve]) ⟨rfl, rfl⟩ rfl).performs fun data _ => ?_
    refine (decodeState_reads rfl rfl (by simp [Env.resolve]) ⟨rfl, rfl⟩).performs
      fun record _ => ?_
    rw [runSteps_ret rfl rfl (Env.find?_assign_self _ _ _)]
    exact Reads.pure _

/-- The address that a state gets and the store that has its block. -/
def savedState (machine : Machine) (state : Value) : Preview (Cid × Store) :=
  match machine.interface with
  | none => throw (.raised .noInterface)
  | some _ => do
      let data ← (fun _ => orAbort serializationFailure "failed to serialize state" ofValueOrType
        (encoded state) : Preview Bytes)
      stored data

theorem saveState_performs {machine : Machine} (runs : machine.RunsOver (lower program symbol))
    (state : Value) :
    Performs (machine.saveState state) (machine.savedState state)
      fun saved => (.cid saved.1, some saved) := by
  unfold saveState savedState
  cases h : machine.interface with
  | none => exact Performs.raise .noInterface
  | some interface =>
    obtain ⟨struct, rfl⟩ := runs.lowered h
    simp only [runState, lowerState, Block.ofSteps, saveSteps, List.zipIdx_cons, List.zipIdx_nil,
      List.map_cons, List.map_nil]
    refine (encode_reads (.inl rfl) rfl (by exact Records.settle_nil state) ⟨rfl, rfl⟩).performs
      fun data _ => ?_
    exact runSteps_store rfl rfl (Env.resolve_eq (Env.find?_assign_self _ _ _)) rfl rfl rfl rfl
      rfl rfl rfl rfl (by decide) rfl rfl

/-- The arguments that an invocation comes with. -/
def sentArguments (entry : EntryPoint) (params : Int) : Preview (List Value) := do
  if entry.arguments.isEmpty then return []
  let data ← expecting serializationFailure "failed to receive params" ofSyscall
    (Sandbox.getBlock params)
  (fun _ => decoding serializationFailure "failed to deserialize params" entry.arguments.length
    (.bytes data) : Preview (List Value))

/-- What the method of an entry point is called on, if it is called on the state, and the records
that this value names. -/
def receiver (machine : Machine) (entry : EntryPoint) : Preview (Option Value × Records) := do
  if entry.mutability.loadsState then
    let state ← machine.storedState
    return (some (Records.hold [] state).1, (Records.hold [] state).2)
  else return (none, [])

/-- The bytes of a result, if the entry point declares one. -/
def encodedResult (entry : EntryPoint) (value : Value) : Preview (Option Bytes) := do
  if entry.returns then
    let data ← (fun _ => orAbort serializationFailure "failed to serialize return value"
      ofValueOrType (encoded value) : Preview Bytes)
    return some data
  else return none

/-- What comes of an invocation: the bytes of its result, and the address of the new state with
the store that has its block. -/
structure Outcome where
  result : Option Bytes
  saved : Option (Cid × Store)

def Outcome.value (outcome : Outcome) : Value :=
  match outcome.result with
  | some data => .bytes data
  | none => .null

/-- The outcome of an entry point with a result, called on a value if it is called on the state. -/
def concluded (machine : Machine) (entry : EntryPoint) (result : Option Bytes) (records : Records) :
    Option Value → Preview Outcome
  | some receiver => do
      if entry.mutability.savesState then
        let saved ← machine.savedState (records.settle receiver)
        return ⟨result, some saved⟩
      else return ⟨result, none⟩
  | none => return ⟨result, none⟩

/-- The outcome of an entry point. -/
def evaluate (machine : Machine) (entry : EntryPoint) (params : Int) : Preview Outcome := do
  let arguments ← sentArguments entry params
  let (receiver, records) ← machine.receiver entry
  let (value, records) ← (fun _ =>
    (machine.answer entry.method (receiver.toList ++ arguments) records).mapError .raised :
      Preview (Value × Records))
  let result ← encodedResult entry (records.settle value)
  machine.concluded entry result records receiver

section Segments

variable {γ : Type} {machine : Machine} {load : Run Value} {save : Value → Run Value}
  {params : Int} {done : γ → Value × Option (Cid × Store)} {env : Env} {entry : EntryPoint}
  {rest : List Instruction}

/-- Steps as instructions, with results numbered from an index. -/
def numbered (index : Nat) (steps : List Step) : List Instruction :=
  (steps.zipIdx index).map fun (step, index) => ⟨step, resultName index⟩

theorem numbered_append (index : Nat) (first second : List Step) :
    numbered index (first ++ second) =
      numbered index first ++ numbered (index + first.length) second := by
  simp only [numbered, List.zipIdx_append, List.map_append]

/-- The name of the decoded arguments, if there are any. -/
def decodedNames (entry : EntryPoint) : List String :=
  if entry.arguments.isEmpty then [] else [resultName 1]

theorem runSteps_arguments {next : List Value → Preview γ} (records : env.records = [])
    (second : ∀ items (after : Env), after.records = [] →
      after.spread (decodedNames entry) = .ok items →
      Performs (machine.runSteps load save params after rest) (next items) done) :
    Performs
      (machine.runSteps load save params env (numbered 0 (argumentSteps entry) ++ rest))
      (sentArguments entry params >>= next) done := by
  unfold sentArguments argumentSteps
  cases h : entry.arguments.isEmpty with
  | true =>
    have named : decodedNames entry = [] := by simp [decodedNames, h]
    exact second [] env records (by rw [named]; rfl)
  | false =>
    have named : decodedNames entry = [resultName 1] := by simp [decodedNames, h]
    simp only [Bool.false_eq_true, if_false, bind_assoc]
    refine (fetchParams_reads rfl ⟨rfl, rfl⟩).performs fun data _ => ?_
    refine (decodeArgs_reads rfl rfl ?_ ?_ ⟨rfl, rfl⟩).performs fun items _ => ?_
    · rw [Env.resolve_eq (Env.find?_assign_self _ _ _), Env.assign_records, records,
        Records.settle_nil]
    · exact congrArg Except.ok (List.length_map _)
    · refine second items _ records ?_
      rw [named]
      exact Env.spread_list (Env.find?_assign_self _ _ _)

/-- The name of the state, if the entry point is called on it. -/
def stateNames (entry : EntryPoint) (index : Nat) : List String :=
  if entry.mutability.loadsState then [resultName index] else []

/-- A state is loaded as a record. -/
theorem storedState_record {sandbox : Sandbox} {state : Value}
    (h : machine.storedState sandbox = .ok state) : ∃ name fields, state = .record name fields := by
  unfold storedState at h
  cases hi : machine.interface with
  | none => rw [hi] at h; cases h
  | some interface =>
    simp only [hi, Preview.bind_eq_ok, orAbort_eq_ok] at h
    obtain ⟨root, _, data, _, record, decoded, renewed⟩ := h
    obtain ⟨cls, items, _, _, rfl⟩ := decodeRecord_eq_ok decoded
    obtain ⟨fields, same⟩ := Records.renew_record cls.name (RecordClass.pair cls.fields items)
    rw [same] at renewed
    cases renewed
    exact ⟨_, _, rfl⟩

theorem runSteps_receiver {next : Option Value × Records → Preview γ} {decoded : List String}
    {items : List Value} (loads : Reads load machine.storedState) (records : env.records = [])
    (given : env.spread decoded = .ok items) (other : resultName index ∉ decoded)
    (second : ∀ receiver (after : Env),
      after.spread (stateNames entry index ++ decoded) = .ok (receiver.toList ++ items) →
      (∀ name ∈ stateNames entry index, after.find? name = receiver) →
      (entry.mutability.loadsState → receiver.isSome) →
      Performs (machine.runSteps load save params after rest) (next (receiver, after.records))
        done) :
    Performs
      (machine.runSteps load save params env
        (numbered index (loadStateSteps entry stateType) ++ rest))
      (machine.receiver entry >>= next) done := by
  unfold receiver loadStateSteps
  cases h : entry.mutability.loadsState with
  | false =>
    have named : stateNames entry index = [] := by simp [stateNames, h]
    simp only [named, h, List.nil_append] at second
    have seconded := second none env given (by simp) (by simp)
    rw [records] at seconded
    exact seconded
  | true =>
    have named : stateNames entry index = [resultName index] := by simp [stateNames, h]
    simp only [if_true, bind_assoc, pure_bind]
    refine (loadState_stepReads rfl loads).performs fun state reached => ?_
    obtain ⟨sandbox, reached⟩ := reached
    obtain ⟨name, fields, rfl⟩ := storedState_record reached
    simp only [Env.hold, records, Records.hold, named] at second ⊢
    refine second (some (.shared 0)) _ ?_ ?_ (by simp)
    · refine Env.spread_record (Env.find?_assign_self _ _ _) ?_
      refine .trans ?_ given
      refine Env.spread_congr fun name member => ?_
      have fresh : name ≠ resultName index := fun same => other (same ▸ member)
      rw [Env.find?_assign, if_neg fresh]
      rfl
    · simp

/-- The step that encodes a result, if the entry point declares one. -/
def resultSteps (entry : EntryPoint) (name : String) : List Step :=
  if entry.returns then
    [⟨.encodeResult, [name], [],
      onError serializationFailure "failed to serialize return value"⟩]
  else []

/-- The name of the encoded result, if the entry point declares one. -/
def resultNames (entry : EntryPoint) (index : Nat) : List String :=
  if entry.returns then [resultName index] else []

theorem mem_resultNames {entry : EntryPoint} :
    name ∈ resultNames entry index ↔ entry.returns ∧ name = resultName index := by
  unfold resultNames
  cases entry.returns <;> simp

theorem runSteps_result {next : Option Bytes → Preview γ} {value : Value}
    (found : env.find? name = some value)
    (second : ∀ result (after : Env), after.records = env.records →
      (∀ other, other ≠ resultName index → after.find? other = env.find? other) →
      (∀ other ∈ resultNames entry index, after.find? other = result.map .bytes) →
      result.isSome = entry.returns →
      Performs (machine.runSteps load save params after rest) (next result) done) :
    Performs
      (machine.runSteps load save params env (numbered index (resultSteps entry name) ++ rest))
      (encodedResult entry (env.records.settle value) >>= next) done := by
  unfold encodedResult resultSteps
  cases h : entry.returns with
  | false =>
    have named : resultNames entry index = [] := by simp [resultNames, h]
    exact second none env rfl (fun _ _ => rfl) (by simp [named]) h.symm
  | true =>
    have named : resultNames entry index = [resultName index] := by simp [resultNames, h]
    simp only [if_true, bind_assoc, pure_bind]
    refine (encode_reads (.inr rfl) rfl (Env.resolve_eq found) ⟨rfl, rfl⟩).performs fun data _ => ?_
    refine second (some data) _ rfl (fun other fresh => ?_) ?_ h.symm
    · rw [Env.find?_assign, if_neg fresh]
    · simp [named]

/-- The steps that save the state, if the entry point changes it, and return. -/
def finalSteps (entry : EntryPoint) (stateType : String) (state returned : List String) :
    List Step :=
  (if entry.mutability.savesState then [⟨.saveState, state, [("state", .text stateType)], []⟩]
    else []) ++ [⟨.ret, returned, [], []⟩]

/-- What an outcome makes of a run: its value, and the state that it saves. -/
def Outcome.told (outcome : Outcome) : Value × Option (Cid × Store) :=
  (outcome.value, outcome.saved)

theorem runSteps_final {receiver : Option Value} {result : Option Bytes} {state returned : Nat}
    (saves : ∀ value, Performs (save value) (machine.savedState value)
      fun saved => (.cid saved.1, some saved))
    (stateFound : ∀ name ∈ stateNames entry state, env.find? name = receiver)
    (received : entry.mutability.loadsState → receiver.isSome)
    (resultFound : ∀ name ∈ resultNames entry returned, env.find? name = result.map .bytes)
    (declared : result.isSome = entry.returns)
    (other : entry.returns → resultName returned ≠ resultName index) :
    Performs
      (machine.runSteps load save params env
        (numbered index
          (finalSteps entry stateType (stateNames entry state) (resultNames entry returned))))
      (machine.concluded entry result env.records receiver) Outcome.told := by
  have returns : ∀ (after : Env) (i : Instruction), i.op = .ret →
      i.args = resultNames entry returned → after.records = env.records →
      (∀ name ∈ resultNames entry returned, after.find? name = env.find? name) →
      machine.runSteps load save params after [i] = pure (Outcome.value ⟨result, none⟩) := by
    intro after i op args records kept
    cases result with
    | none =>
      have named : resultNames entry returned = [] := by simp [resultNames, ← declared]
      rw [runSteps_ret_nil op (args.trans named)]
      rfl
    | some data =>
      have named : resultNames entry returned = [resultName returned] := by
        simp [resultNames, ← declared]
      rw [named] at args kept resultFound
      have member := List.mem_singleton_self (resultName returned)
      rw [runSteps_ret op args ((kept _ member).trans (resultFound _ member))]
      simp [Records.settle, Records.settleWithin, Value.mapShared, Outcome.value]
  unfold finalSteps
  cases h : entry.mutability.savesState with
  | false =>
    have concludes : machine.concluded entry result env.records receiver =
        pure ⟨result, none⟩ := by
      cases receiver <;> simp [concluded, h]
    rw [concludes]
    simp only [Bool.false_eq_true, if_false, List.nil_append]
    rw [numbered, List.zipIdx_singleton, List.map_singleton,
      returns env _ rfl rfl rfl fun _ _ => rfl]
    exact @Performs.pure _ _ Outcome.told ⟨result, none⟩ rfl
  | true =>
    have loads : entry.mutability.loadsState = true := by
      cases kind : entry.mutability <;> simp_all [Mutability.savesState, Mutability.loadsState]
    obtain ⟨held, rfl⟩ := Option.isSome_iff_exists.mp (received loads)
    have named : stateNames entry state = [resultName state] := by simp [stateNames, loads]
    have found := stateFound (resultName state) (by simp [named])
    have applied : machine.apply load save params env
        ⟨⟨.saveState, [resultName state], [("state", .text stateType)], []⟩, resultName index⟩ =
        (·, env) <$> save (env.records.settle held) := by
      simp only [apply, firstArg, Env.resolve_eq found, pure_bind, map_eq_pure_bind]
    simp only [named, numbered, if_true, List.cons_append, List.nil_append, List.zipIdx_cons,
      List.zipIdx_nil, List.map_cons, List.map_nil, concluded, h]
    rw [runSteps, if_neg (by simp), applied, map_eq_pure_bind, bind_assoc]
    have returned (value : Value) := returns (env.assign (resultName index) value)
      ⟨⟨.ret, resultNames entry returned, [], []⟩, resultName (index + 1)⟩ rfl rfl rfl
      fun name member => by
        obtain ⟨declares, rfl⟩ := mem_resultNames.mp member
        rw [Env.find?_assign, if_neg (other declares)]
    simp only [pure_bind, returned]
    exact Performs.map ((saves _).note_pure _ _)

end Segments

/-- The names of the few results of a block are different. -/
theorem resultName_ne : ∀ i < 6, ∀ j < 6, i ≠ j → resultName i ≠ resultName j := by
  decide

/-- The number of steps before the call. -/
def callIndex (entry : EntryPoint) (stateType : String) : Nat :=
  (argumentSteps entry).length + (loadStateSteps entry stateType).length

theorem length_argumentSteps_le (entry : EntryPoint) : (argumentSteps entry).length ≤ 2 := by
  unfold argumentSteps
  split <;> simp

theorem length_loadStateSteps (entry : EntryPoint) (stateType : String) :
    (loadStateSteps entry stateType).length = if entry.mutability.loadsState then 1 else 0 := by
  unfold loadStateSteps
  split <;> rfl

theorem length_resultSteps (entry : EntryPoint) (name : String) :
    (resultSteps entry name).length = if entry.returns then 1 else 0 := by
  unfold resultSteps
  split <;> rfl

theorem resultName_not_mem_decodedNames (entry : EntryPoint) :
    resultName (argumentSteps entry).length ∉ decodedNames entry := by
  unfold argumentSteps decodedNames
  split
  · simp
  · exact fun member => resultName_ne 2 (by decide) 1 (by decide) (by decide) (List.mem_singleton.mp member)

theorem mem_stateNames {entry : EntryPoint} :
    name ∈ stateNames entry index ↔ entry.mutability.loadsState ∧ name = resultName index := by
  unfold stateNames
  cases entry.mutability.loadsState <;> simp

/-- The step that calls the method of an entry point. -/
def callStep (entry : EntryPoint) (stateType : String) : Step :=
  ⟨.call, stateNames entry (argumentSteps entry).length ++ decodedNames entry,
    [("method", .text entry.method), ("receiver", .text entry.mutability.name),
      ("returns", .bool entry.returns), ("state", .text stateType)], []⟩

/-- The steps of an entry point, one part after the other. -/
theorem entrySteps_eq (entry : EntryPoint) (stateType : String) :
    entrySteps entry stateType =
      argumentSteps entry ++ (loadStateSteps entry stateType ++ ([callStep entry stateType] ++
        (resultSteps entry (resultName (callIndex entry stateType)) ++
          finalSteps entry stateType (stateNames entry (argumentSteps entry).length)
            (resultNames entry (callIndex entry stateType + 1))))) := by
  have state : (loadStateSteps entry stateType).map
      (fun _ => resultName (argumentSteps entry).length) =
        stateNames entry (argumentSteps entry).length := by
    unfold loadStateSteps stateNames
    split <;> rfl
  simp only [entrySteps, state, callStep, callIndex, finalSteps, resultSteps, resultNames,
    decodedNames, List.length_append]
  cases entry.returns <;> simp

/-- The block of an entry point comes to the outcome of the entry point. -/
theorem execute_performs {machine : Machine} (runs : machine.RunsOver (lower program symbol))
    (entry : EntryPoint) (stateType : String) (params : Int) :
    Performs (machine.execute (lowerEntry entry stateType) [] params)
      (machine.evaluate entry params) Outcome.told := by
  obtain ⟨call, named⟩ : ∃ index, index = callIndex entry stateType := ⟨_, rfl⟩
  have steps : (lowerEntry entry stateType).instructions =
      numbered 0 (argumentSteps entry) ++
        (numbered (argumentSteps entry).length (loadStateSteps entry stateType) ++
          (⟨callStep entry stateType, resultName call⟩ ::
            (numbered (call + 1) (resultSteps entry (resultName call)) ++
              numbered (call + 1 + (resultSteps entry (resultName call)).length)
                (finalSteps entry stateType (stateNames entry (argumentSteps entry).length)
                  (resultNames entry (call + 1)))))) := by
    have whole : (lowerEntry entry stateType).instructions =
        numbered 0 (entrySteps entry stateType) := rfl
    rw [whole, entrySteps_eq, numbered_append, numbered_append, numbered_append, numbered_append,
      Nat.zero_add, named]
    rfl
  rw [execute, steps]
  refine runSteps_arguments rfl fun items env records given => ?_
  refine runSteps_receiver (loadState_reads runs) records given ?_
    fun receiver env given held received => ?_
  · exact resultName_not_mem_decodedNames entry
  refine (call_reads rfl rfl given).performs fun found _ => ?_
  refine runSteps_result (Env.find?_assign_self _ _ _)
    fun result env records kept resultFound declared => ?_
  have settled : found.2 = env.records := records.symm
  have before := length_argumentSteps_le entry
  have loading := length_loadStateSteps entry stateType
  have encoding := length_resultSteps entry (resultName call)
  rw [callIndex, loading] at named
  rw [settled]
  refine runSteps_final (saveState_performs runs) (fun name member => ?_) received resultFound
    declared fun declares => ?_
  · obtain ⟨loads, rfl⟩ := mem_stateNames.mp member
    rw [loads, if_pos rfl] at named
    rw [kept _ (resultName_ne _ (by omega) _ (by omega) (by omega)), Env.find?_assign,
      if_neg (resultName_ne _ (by omega) _ (by omega) (by omega))]
    exact held _ member
  · rw [encoding, if_pos declares]
    refine resultName_ne _ ?_ _ ?_ (by omega)
    all_goals split at named <;> omega

end Machine

end ActorGlue
