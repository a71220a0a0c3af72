import ActorGlue.Proofs.Machine.Reachable
import ActorGlue.Proofs.Machine.Reference

/-!
# How invocations fail

The failures of an invocation whose method does its part. Each of them is an abort of a class that
the cause decides, with two exceptions that no step turns into an abort: bytes that end early are
reported as they are by the decoder, and a complaint may have to show a number that is too long to
be written.
-/

namespace ActorGlue

/-- The block that the root is the address of. -/
def Sandbox.stateBlock? (sandbox : Sandbox) : Option Bytes :=
  match sandbox.root with
  | some (.cid cid) => sandbox.store.get? cid
  | _ => none

/-- The fault of a value that is no record of a class. -/
def RecordClass.misfit? (cls : RecordClass) : Value → Option RecordFault
  | .list items =>
    if cls.fields.length < items.length then
      some (.tooMany cls.name cls.fields.length items.length)
    else none
  | value => some (.notAList cls.name value.typeName)

namespace Machine

open Glue
variable {fault : Cbor.DecodeFault} {breakdown : Breakdown} {value : Value}

/-- The value is a list of the given number of items. -/
def IsTuple (count : Nat) (value : Value) : Prop :=
  ∃ items, value = .list items ∧ items.length = count

/-- The arguments of an invocation arrive: there are none to receive, or the block of parameters is
a list of the declared length. -/
def Arrives (entry : EntryPoint) (params : Int) (sandbox : Sandbox) : Prop :=
  entry.arguments = [] ∨ ∃ data value, sandbox.block? params = some data ∧
    Cbor.decode data = .ok value ∧ IsTuple entry.arguments.length value

/-- The reason why parameters under an id without a block are not received. It shows the id, which
has to be written for that. -/
def unreceived (params : Int) : Breakdown :=
  if Text.isWritable params then
    .aborted serializationFailure
      ("failed to receive params: " ++ (SyscallFault.noBlock (toString params)).message)
  else .raised (.numeral .unwritable)

/-- What a fault of the decoder comes to: only the end of the bytes is not turned into an abort. -/
def undecoded (message : String) (fault : Cbor.DecodeFault) : Breakdown :=
  if fault.isEnd then .raised (.decode fault)
  else .aborted serializationFailure (message ++ ": " ++ fault.message)

section Causes

variable (cls : RecordClass) (table : DispatchTable) (method : Value) (params : Int)
  (sandbox : Sandbox)

/-- The failures of invocations with their causes. -/
inductive Fails : Breakdown → Prop
  /-- No entry point has the method number. -/
  | unrecognized (unselected : table.selected? method = none) :
      Fails (.aborted unhandledMessage "unrecognized method")
  /-- There is no block of parameters. -/
  | noParams {case : Case} (selected : table.selected? method = some case)
      (declares : case.entry.arguments ≠ []) (missing : sandbox.block? params = none) :
      Fails (unreceived params)
  /-- The parameters are no encoding of a value. -/
  | undecodedParams {case : Case} {data : Bytes} {fault : Cbor.DecodeFault}
      (selected : table.selected? method = some case) (declares : case.entry.arguments ≠ [])
      (found : sandbox.block? params = some data) (faulty : Cbor.decode data = .error fault) :
      Fails (undecoded "failed to deserialize params" fault)
  /-- The parameters are not a list of the declared length. -/
  | misshapenParams {case : Case} {data : Bytes} {value : Value}
      (selected : table.selected? method = some case) (declares : case.entry.arguments ≠ [])
      (found : sandbox.block? params = some data) (decoded : Cbor.decode data = .ok value)
      (misshapen : ¬ IsTuple case.entry.arguments.length value) :
      Fails (refusal serializationFailure "failed to deserialize params"
        case.entry.arguments.length value)
  /-- There is no root. -/
  | noRoot {case : Case} (selected : table.selected? method = some case)
      (arrives : Arrives case.entry params sandbox)
      (loads : case.entry.mutability.loadsState) (missing : sandbox.root = none) :
      Fails (.aborted illegalState ("failed to get root: " ++ SyscallFault.noRoot.message))
  /-- The block of the state is no encoding of a value. -/
  | undecodedState {case : Case} {data : Bytes} {fault : Cbor.DecodeFault}
      (selected : table.selected? method = some case)
      (arrives : Arrives case.entry params sandbox)
      (loads : case.entry.mutability.loadsState) (found : sandbox.stateBlock? = some data)
      (faulty : Cbor.decode data = .error fault) :
      Fails (undecoded "failed to deserialize state" fault)
  /-- The block of the state is not a list of at most as many values as there are fields. -/
  | misshapenState {case : Case} {data : Bytes} {value : Value} {fault : RecordFault}
      (selected : table.selected? method = some case)
      (arrives : Arrives case.entry params sandbox)
      (loads : case.entry.mutability.loadsState) (found : sandbox.stateBlock? = some data)
      (decoded : Cbor.decode data = .ok value) (misshapen : cls.misfit? value = some fault) :
      Fails (.aborted serializationFailure ("failed to deserialize state: " ++ fault.message))

end Causes

/-- The method of an entry point does its part: where an invocation comes to call it, it answers,
with a result that can be encoded if one is declared, and it leaves a state that can be encoded if
the entry point changes it. -/
def Obliges (machine : Machine) (entry : EntryPoint) (params : Int) (sandbox : Sandbox) : Prop :=
  ∀ receiver answer, machine.Calls entry params sandbox receiver answer →
    ∃ value records, answer = .ok (value, records) ∧
      (entry.returns → ∃ data, Cbor.encode (records.settle value) = .ok data) ∧
      ∀ held ∈ receiver, entry.mutability.savesState →
        ∃ data, Cbor.encode (records.settle held) = .ok data

section Arguments

variable {entry : EntryPoint} {params : Int} {sandbox : Sandbox} {data : Bytes}

theorem sentArguments_of_missing (declares : entry.arguments ≠ [])
    (missing : sandbox.block? params = none) :
    sentArguments entry params sandbox = .error (unreceived params) := by
  have some : entry.arguments.isEmpty = false := by simpa using declares
  have reason : Stop.showing (.int params) (.syscall <| .noBlock ·) =
      if Text.isWritable params then .syscall (.noBlock (toString params))
      else .numeral .unwritable := by
    have shown : (Value.int params).shown =
        if Text.isWritable params then .ok (toString params) else .error .unwritable := rfl
    rw [Stop.showing, shown]
    cases Text.isWritable params <;> rfl
  have fetched : expecting serializationFailure "failed to receive params" ofSyscall
      (Sandbox.getBlock params) sandbox = .error (unreceived params) := by
    simp only [expecting, Sandbox.getBlock, Run.bind_apply, Run.get_apply, missing,
      Run.throw_apply, reason, unreceived]
    cases Text.isWritable params <;> rfl
  simp only [sentArguments, some, Bool.false_eq_true, if_false, Preview.bind_apply, fetched,
    Except.bind]

theorem orAbort_decode {α : Type} (fault : Cbor.DecodeFault) (message : String)
    {expected : Stop → Bool} (expects : expected (.decode fault) = !fault.isEnd) :
    (orAbort serializationFailure message expected (.error (.decode fault)) :
      Except Breakdown α) = .error (undecoded message fault) := by
  rw [orAbort, expects, undecoded]
  cases fault.isEnd <;> rfl

theorem decoding_of_error (faulty : Cbor.decode data = .error fault) (message : String)
    (count : Nat) :
    decoding serializationFailure message count (.bytes data) =
      .error (undecoded message fault) := by
  have failed : decode (.bytes data) = .error (.decode fault) := by
    rw [decode_bytes, faulty, Except.mapError]
  rw [decoding, failed, orAbort_decode fault message rfl, Except.bind]

theorem listed_of_tuple {count : Nat} (tuple : IsTuple count value) (exitCode : Int)
    (message : String) : ∃ items, listed exitCode message count value = .ok items := by
  obtain ⟨items, rfl, rfl⟩ := tuple
  exact ⟨items, by rw [listed, if_pos rfl]⟩

theorem listed_of_misshapen {count : Nat} (misshapen : ¬ IsTuple count value) (exitCode : Int)
    (message : String) :
    listed exitCode message count value = .error (refusal exitCode message count value) := by
  cases value with
  | list items => rw [listed, if_neg fun same => misshapen ⟨items, rfl, same⟩]
  | _ => rfl

theorem sentArguments_of_arrives (arrives : Arrives entry params sandbox) :
    ∃ arguments, sentArguments entry params sandbox = .ok arguments := by
  by_cases declares : entry.arguments = []
  · exact ⟨[], sentArguments_of_none declares⟩
  · obtain none | ⟨data, value, found, decoded, tuple⟩ := arrives
    · exact absurd none declares
    · rw [sentArguments_of_block declares found, decoding_of_ok decoded]
      exact listed_of_tuple tuple _ _

end Arguments

section State

variable {machine : Machine} {cls : RecordClass} {sandbox : Sandbox} {data : Bytes}

theorem storedState_of_noRoot (interfaced : machine.interface.isSome)
    (missing : sandbox.root = none) :
    machine.storedState sandbox = .error (.aborted illegalState
      ("failed to get root: " ++ SyscallFault.noRoot.message)) := by
  obtain ⟨interface, interfaced⟩ := Option.isSome_iff_exists.mp interfaced
  have failed : expecting illegalState "failed to get root" ofSyscall Sandbox.getRoot sandbox =
      .error (.aborted illegalState ("failed to get root: " ++ SyscallFault.noRoot.message)) := by
    simp only [expecting, Sandbox.getRoot, Run.bind_apply, Run.get_apply, missing]
    rfl
  simp only [storedState, interfaced, Preview.bind_apply, failed, Except.bind]

/-- The block of the state decides what is loaded. -/
theorem storedState_of_block (interfaced : machine.interface.isSome)
    (found : sandbox.stateBlock? = some data) :
    machine.storedState sandbox =
      (orAbort serializationFailure "failed to deserialize state" ofValueOrType
        (decodeRecord machine.stateClass (.bytes data))).map Records.renew := by
  obtain ⟨cid, root, block⟩ : ∃ cid, sandbox.root = some (.cid cid) ∧
      sandbox.store.get? cid = some data := by
    unfold Sandbox.stateBlock? at found
    split at found
    · exact ⟨_, by assumption, found⟩
    · cases found
  exact storedState_of_root interfaced root block

theorem decodeRecord_of_error (faulty : Cbor.decode data = .error fault) :
    decodeRecord (some cls) (.bytes data) = .error (.decode fault) := by
  rw [decodeRecord, decode_bytes, faulty]
  rfl

/-- A value is read as a record unless it does not fit. -/
theorem decodeRecord_of_ok (cls : RecordClass) (decoded : Cbor.decode data = .ok value) :
    match cls.misfit? value with
    | some fault => decodeRecord (some cls) (.bytes data) = .error (.record fault)
    | none => ∃ record, decodeRecord (some cls) (.bytes data) = .ok record := by
  cases value with
  | list items =>
    by_cases many : cls.fields.length < items.length
    · simp only [RecordClass.misfit?, if_pos many]
      rw [decodeRecord, decode_bytes, decoded]
      change (cls.make items).mapError Stop.record = _
      rw [RecordClass.make, if_pos many]
      rfl
    · simp only [RecordClass.misfit?, if_neg many]
      exact ⟨_, decodeRecord_of_list decoded (by omega)⟩
  | _ =>
    rw [decodeRecord, decode_bytes, decoded]
    rfl

theorem ofValueOrType_record (fault : RecordFault) : ofValueOrType (.record fault) = true := by
  cases h : fault.isValueFault <;>
    simp [ofValueOrType, Stop.isValueFault, Stop.isTypeFault, h]

variable (interfaced : machine.interface.isSome) (classed : machine.stateClass = some cls)
  (found : sandbox.stateBlock? = some data)

include interfaced classed found

theorem storedState_of_error (faulty : Cbor.decode data = .error fault) :
    machine.storedState sandbox =
      .error (undecoded "failed to deserialize state" fault) := by
  have expects : ofValueOrType (.decode fault) = !fault.isEnd :=
    Bool.or_false _
  rw [storedState_of_block interfaced found, classed, decodeRecord_of_error faulty,
    orAbort_decode fault _ expects, Except.map]

theorem storedState_of_misfit (decoded : Cbor.decode data = .ok value) {fault : RecordFault}
    (misfit : cls.misfit? value = some fault) :
    machine.storedState sandbox = .error (.aborted serializationFailure
      ("failed to deserialize state: " ++ fault.message)) := by
  have refused := decodeRecord_of_ok cls decoded
  simp only [misfit] at refused
  rw [storedState_of_block interfaced found, classed, refused, orAbort,
    if_pos (ofValueOrType_record fault)]
  rfl

theorem storedState_of_fit (decoded : Cbor.decode data = .ok value)
    (fits : cls.misfit? value = none) :
    ∃ state, machine.storedState sandbox = .ok state := by
  have read := decodeRecord_of_ok cls decoded
  simp only [fits] at read
  obtain ⟨record, read⟩ := read
  exact ⟨Records.renew record, by rw [storedState_of_block interfaced found, classed, read]; rfl⟩

end State

section Conclusion

variable {machine : Machine} {entry : EntryPoint} {params : Int} {sandbox : Sandbox}

theorem receiver_of_pure (pure : entry.mutability.loadsState = false) :
    machine.receiver entry sandbox = .ok (none, []) := by
  simp only [receiver, pure, Bool.false_eq_true, if_false]
  rfl

theorem receiver_of_ok {state : Value} (loads : entry.mutability.loadsState)
    (loaded : machine.storedState sandbox = .ok state) :
    ∃ held records, machine.receiver entry sandbox = .ok (some held, records) := by
  simp only [receiver, loads, if_true, Preview.bind_apply, loaded, Except.bind]
  exact ⟨_, _, rfl⟩

theorem evaluate_of_unsent (failed : sentArguments entry params sandbox = .error breakdown) :
    machine.evaluate entry params sandbox = .error breakdown := by
  simp only [evaluate, Preview.bind_apply, failed, Except.bind]

theorem evaluate_of_unloaded (arrives : Arrives entry params sandbox)
    (loads : entry.mutability.loadsState)
    (failed : machine.storedState sandbox = .error breakdown) :
    machine.evaluate entry params sandbox = .error breakdown := by
  obtain ⟨arguments, sent⟩ := sentArguments_of_arrives arrives
  simp only [evaluate, receiver, loads, if_true, Preview.bind_apply, sent, failed, Except.bind]

/-- Where the arguments arrive and the state is loaded, a method that does its part brings the
invocation to its outcome. -/
theorem evaluate_of_obliges (interfaced : machine.interface.isSome)
    (keeps : sandbox.store.mode = .keep) (obliges : machine.Obliges entry params sandbox)
    {arguments : List Value} {receiver : Option Value} {records : Records}
    (sent : sentArguments entry params sandbox = .ok arguments)
    (received : machine.receiver entry sandbox = .ok (receiver, records)) :
    ∃ outcome, machine.evaluate entry params sandbox = .ok outcome := by
  obtain ⟨value, after, answered, returns, saves⟩ :=
    obliges receiver _ ⟨arguments, records, sent, received, rfl⟩
  have encodes : ∃ result, encodedResult entry (after.settle value) sandbox = .ok result := by
    unfold encodedResult
    split
    · obtain ⟨data, encodes⟩ := returns (by assumption)
      refine ⟨some data, ?_⟩
      simp only [Preview.bind_eq_ok, orAbort_eq_ok]
      exact ⟨data, by rw [encoded, encodes]; rfl, rfl⟩
    · exact ⟨none, rfl⟩
  obtain ⟨result, encodes⟩ := encodes
  have concludes : ∃ outcome, machine.concluded entry result after receiver sandbox =
      .ok outcome := by
    cases receiver with
    | none => exact ⟨_, rfl⟩
    | some held =>
      unfold concluded
      cases changes : entry.mutability.savesState with
      | false => exact ⟨_, rfl⟩
      | true =>
        obtain ⟨data, encodes⟩ := saves held rfl changes
        obtain ⟨cid, saves⟩ := savedState_of_encoded interfaced keeps encodes
        refine ⟨⟨result, some (cid, sandbox.store.insert cid data)⟩, ?_⟩
        simp only [if_true, Preview.bind_eq_ok]
        exact ⟨_, saves, rfl⟩
  obtain ⟨outcome, concludes⟩ := concludes
  refine ⟨outcome, ?_⟩
  simp only [evaluate, Preview.bind_apply, sent, received, answered, encodes, concludes,
    Except.bind, Except.mapError]

end Conclusion

section Dispatch

variable {program : Program} {symbol : String} {methods : List (String × StandIn)}
  {machine : Machine} {table : DispatchTable} {cls : RecordClass} {method : Value}
  {params : Int} {sandbox : Sandbox}

section Built

variable (built : ofModule (lower program symbol) methods = .ok (machine, table))
  (classed : machine.stateClass = some cls)

include built classed

/-- What an invocation comes to when the evaluation of its entry point breaks off. -/
theorem dispatch_of_error {case : Case} (selected : table.selected? method = some case)
    (evaluated : machine.evaluate case.entry params sandbox = .error breakdown) :
    (machine.dispatch table method params sandbox).1 = .error breakdown.stop := by
  obtain ⟨tabled, runs, -⟩ := ofModule_stateful built classed
  obtain ⟨lines, ran, -⟩ := dispatch_of_breakdown tabled runs selected evaluated
  rw [ran]

theorem dispatch_of_fails (fails : Fails cls table method params sandbox breakdown) :
    (machine.dispatch table method params sandbox).1 = .error breakdown.stop := by
  obtain ⟨-, -, interfaced, -⟩ := ofModule_stateful built classed
  have ends : ∀ case, table.selected? method = some case →
      machine.evaluate case.entry params sandbox = .error breakdown →
      (machine.dispatch table method params sandbox).1 = .error breakdown.stop :=
    fun case selected evaluated => dispatch_of_error built classed selected evaluated
  cases fails with
  | unrecognized unselected =>
    rw [dispatch_unselected unselected]
    rfl
  | noParams selected declares missing =>
    exact ends _ selected (evaluate_of_unsent (sentArguments_of_missing declares missing))
  | undecodedParams selected declares found faulty =>
    refine ends _ selected (evaluate_of_unsent ?_)
    rw [sentArguments_of_block declares found, decoding_of_error faulty]
  | misshapenParams selected declares found decoded misshapen =>
    refine ends _ selected (evaluate_of_unsent ?_)
    rw [sentArguments_of_block declares found, decoding_of_ok decoded,
      listed_of_misshapen misshapen]
  | noRoot selected arrives loads missing =>
    exact ends _ selected (evaluate_of_unloaded arrives loads
      (storedState_of_noRoot interfaced missing))
  | undecodedState selected arrives loads found faulty =>
    exact ends _ selected (evaluate_of_unloaded arrives loads
      (storedState_of_error interfaced classed found faulty))
  | misshapenState selected arrives loads found decoded misshapen =>
    exact ends _ selected (evaluate_of_unloaded arrives loads
      (storedState_of_misfit interfaced classed found decoded misshapen))

end Built

theorem stateBlock?_of_rooted (rooted : sandbox.Rooted) {root : Value}
    (found : sandbox.root = some root) : ∃ data, sandbox.stateBlock? = some data := by
  obtain ⟨cid, data, rfl, stored⟩ := rooted.stored root found
  exact ⟨data, by simp only [Sandbox.stateBlock?, found, stored]⟩

/-- The arguments of an entry point arrive, or there is a failure that concerns them. -/
theorem arrives_or_fails (cls : RecordClass) {case : Case}
    (selected : table.selected? method = some case) :
    Arrives case.entry params sandbox ∨ ∃ reason, Fails cls table method params sandbox reason := by
  by_cases declares : case.entry.arguments = []
  · exact .inl (.inl declares)
  cases found : sandbox.block? params with
  | none => exact .inr ⟨_, .noParams selected declares found⟩
  | some data =>
    cases decoded : Cbor.decode data with
    | error fault => exact .inr ⟨_, .undecodedParams selected declares found decoded⟩
    | ok value =>
      by_cases tuple : IsTuple case.entry.arguments.length value
      · exact .inl (.inr ⟨data, value, found, decoded, tuple⟩)
      · exact .inr ⟨_, .misshapenParams selected declares found decoded tuple⟩

/-- The state of a reachable sandbox is loaded, or there is a failure that concerns it. -/
theorem receives_or_fails (rooted : sandbox.Rooted) (interfaced : machine.interface.isSome)
    (classed : machine.stateClass = some cls) {case : Case}
    (selected : table.selected? method = some case) (arrives : Arrives case.entry params sandbox) :
    (∃ receiver records, machine.receiver case.entry sandbox = .ok (receiver, records)) ∨
      ∃ reason, Fails cls table method params sandbox reason := by
  cases loads : case.entry.mutability.loadsState with
  | false => exact .inl ⟨_, _, receiver_of_pure loads⟩
  | true =>
    cases root : sandbox.root with
    | none => exact .inr ⟨_, .noRoot selected arrives loads root⟩
    | some found =>
      obtain ⟨data, found⟩ := stateBlock?_of_rooted rooted root
      cases decoded : Cbor.decode data with
      | error fault => exact .inr ⟨_, .undecodedState selected arrives loads found decoded⟩
      | ok value =>
        cases misfit : cls.misfit? value with
        | some fault =>
          exact .inr ⟨_, .misshapenState selected arrives loads found decoded misfit⟩
        | none =>
          obtain ⟨state, loaded⟩ := storedState_of_fit interfaced classed found decoded misfit
          obtain ⟨held, records, received⟩ := receiver_of_ok loads loaded
          exact .inl ⟨some held, records, received⟩

/-- In a reachable sandbox an invocation whose method does its part returns, or fails for one of the
known causes. -/
theorem returns_or_fails (built : ofModule (lower program symbol) methods = .ok (machine, table))
    (classed : machine.stateClass = some cls) (rooted : sandbox.Rooted)
    (obliges : ∀ case, table.selected? method = some case →
      machine.Obliges case.entry params sandbox) :
    (∃ id, (machine.dispatch table method params sandbox).1 = .ok id) ∨
      ∃ reason, Fails cls table method params sandbox reason := by
  obtain ⟨tabled, runs, interfaced, -⟩ := ofModule_stateful built classed
  cases selected : table.selected? method with
  | none => exact .inr ⟨_, .unrecognized selected⟩
  | some case =>
    obtain arrives | fails := arrives_or_fails cls selected
    · obtain ⟨receiver, records, received⟩ | fails :=
        receives_or_fails rooted interfaced classed selected arrives
      · obtain ⟨arguments, sent⟩ := sentArguments_of_arrives arrives
        obtain ⟨outcome, evaluated⟩ := evaluate_of_obliges interfaced rooted.keeps
          (obliges case selected) sent received
        obtain ⟨lines, ran⟩ := dispatch_of_outcome tabled runs selected evaluated
        exact .inl ⟨_, by rw [ran]⟩
      · exact .inr fails
    · exact .inr fails

/-- An invocation whose method does its part, in a sandbox that operations lead to, fails exactly for
the known causes, and otherwise returns. All failures are aborts of the class that the cause decides
but two: bytes of the parameters or of the state that end early, and a number in the complaint about
the parameters that is too long to be written. -/
theorem dispatch_fails_iff (built : ofModule (lower program symbol) methods = .ok (machine, table))
    (classed : machine.stateClass = some cls) (reachable : sandbox.Reachable) (method : Value)
    (params : Int) (obliges : ∀ case, table.selected? method = some case →
      machine.Obliges case.entry params sandbox) (stop : Stop) :
    (machine.dispatch table method params sandbox).1 = .error stop ↔
      ∃ reason, Fails cls table method params sandbox reason ∧ reason.stop = stop := by
  constructor
  · intro stopped
    obtain ⟨id, returned⟩ | ⟨reason, fails⟩ :=
      returns_or_fails built classed reachable.rooted obliges
    · rw [returned] at stopped
      cases stopped
    · have failed := dispatch_of_fails built classed fails
      exact ⟨reason, fails, Except.error.inj (failed.symm.trans stopped)⟩
  · rintro ⟨reason, fails, rfl⟩
    exact dispatch_of_fails built classed fails

end Dispatch

/-- The failures of writing a register that holds a value, and the parameters with which it does not
fail. -/
theorem dispatch_fails_iff_register :
    ∃ machine table address start,
      ofModule (lower registerProgram invokeSymbol) registerMethods = .ok (machine, table) ∧
      machine.saveState (.record "Register" [("value", .int 7)])
        (Sandbox.putBlock [0x81, 0x09] {}).2 = (.ok address, start) ∧
      start.Reachable ∧
      (∀ case, table.selected? (.int 3) = some case → machine.Obliges case.entry 1 start) ∧
      (∀ stop, (machine.dispatch table (.int 3) 1 start).1 = .error stop ↔
        ∃ reason, Fails ⟨"Register", ["value"]⟩ table (.int 3) 1 start reason ∧
          reason.stop = stop) ∧
      ∃ id after, machine.dispatch table (.int 3) 1 start = (.ok id, after) ∧
        ∃ cid, after.root = some (.cid cid) ∧ after.store.contains cid := by
  obtain ⟨tabled, runs, interfaced, -⟩ := ofModule_stateful ofModule_register rfl
  have plain : (Value.list [.int 7]).Plain ∧ (Value.int 9).Plain := by
    simp only [Value.Plain, Value.PlainAll]
    decide +kernel
  have keeps : (Sandbox.putBlock [0x81, 0x09] {}).2.store.mode = .keep := rfl
  have count : [Value.int 7].length = (⟨"Register", ["value"]⟩ : RecordClass).fields.length := rfl
  obtain ⟨saved, saves, state⟩ := savedState_of_plain interfaced keeps plain.1 count
  obtain ⟨lines, ran, -⟩ := (saveState_performs runs
    (.record "Register" [("value", .int 7)])).outcome (Sandbox.putBlock [0x81, 0x09] {}).2
  have stored : savedState _ (.record "Register" [("value", .int 7)]) _ = .ok saved := saves
  rw [stored] at ran
  have reachable := (Sandbox.Reachable.fresh.step (.putBlock {} [0x81, 0x09])).step
    (.saveState _ runs (.record "Register" [("value", .int 7)]))
  rw [ran] at reachable
  have obliges : ∀ case, (lowerActor registerActor invokeSymbol).selected? (.int 3) = some case →
      Obliges ⟨some (lowerState ⟨"Register", "Register", [⟨"value", "u64"⟩], .dagCbor⟩),
        some ⟨"Register", ["value"]⟩, registerMethods⟩ case.entry 1
        (((Sandbox.putBlock [0x81, 0x09] {}).2.commit (some saved)).noted lines) := by
    intro case selected receiver answer calls
    obtain rfl : _ = case := Option.some.inj selected
    obtain ⟨arguments, records, sent, received, rfl⟩ := calls
    rw [sentArguments_of_block (by simp) rfl, decoding_of_ok rfl] at sent
    cases sent
    cases (receiver_of_hasState interfaced rfl (state lines) _).symm.trans received
    refine ⟨_, _, rfl, (by simp), fun held member _ => ?_⟩
    obtain rfl := Option.some.inj member
    exact ⟨_, rfl⟩
  refine ⟨_, _, _, _, ofModule_register, ran, reachable, obliges,
    dispatch_fails_iff ofModule_register rfl reachable (.int 3) 1 obliges, ?_⟩
  have selected : (lowerActor registerActor invokeSymbol).selected? (.int 3) = some _ := rfl
  have sent : sentArguments ⟨"write", ⟨3, by decide⟩, .write, false, [⟨"value", false, "u64"⟩]⟩ 1
      (((Sandbox.putBlock [0x81, 0x09] {}).2.commit (some saved)).noted lines) = .ok [.int 9] := by
    rw [sentArguments_of_block (by simp) rfl, decoding_of_ok rfl]
    rfl
  obtain ⟨outcome, evaluated⟩ := evaluate_of_obliges interfaced (state lines).keeps
    (obliges _ selected) sent (receiver_of_hasState interfaced rfl (state lines) _)
  obtain ⟨more, returned⟩ := dispatch_of_outcome tabled runs selected evaluated
  obtain ⟨_, _, _, _, same, -, saves, -⟩ := done_of_outcome selected evaluated more
  cases selected.symm.trans same
  obtain ⟨_, -, _, cid, -, -, root, contained, -⟩ := saves
  exact ⟨_, _, returned, cid, root, contained⟩

/-- Writing a register with parameters that end after the head of a list stops, but not with an
abort. -/
theorem dispatch_runs_out_of_bytes :
    ∃ machine table,
      ofModule (lower registerProgram invokeSymbol) registerMethods = .ok (machine, table) ∧
      (Sandbox.putBlock [0x81] {}).2.Reachable ∧
      (∀ case, table.selected? (.int 3) = some case →
        machine.Obliges case.entry 1 (Sandbox.putBlock [0x81] {}).2) ∧
      (machine.dispatch table (.int 3) 1 (Sandbox.putBlock [0x81] {}).2).1 =
        .error (.decode (.ended 1 0)) := by
  have ended : Cbor.decode [0x81] = .error (.ended 1 0) := rfl
  refine ⟨_, _, ofModule_register, Sandbox.Reachable.fresh.step (.putBlock {} [0x81]), ?obliges, ?ends⟩
  case obliges =>
    intro case selected receiver answer calls
    obtain rfl : _ = case := Option.some.inj selected
    obtain ⟨arguments, records, sent, -⟩ := calls
    rw [sentArguments_of_block (by simp) rfl, decoding_of_error ended] at sent
    cases sent
  case ends =>
    exact dispatch_of_fails ofModule_register rfl (.undecodedParams rfl (by simp) rfl ended)

end Machine

end ActorGlue
