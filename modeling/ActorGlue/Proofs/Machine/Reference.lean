import ActorGlue.Machine.Script
import ActorGlue.Proofs.Cbor.RoundTrip
import ActorGlue.Proofs.Machine.Atomicity

/-!
# No update is lost

An actor in a sandbox reads its state from a block, and writes it to a new block whose address
becomes the root. Seen from outside, this is a machine that keeps the fields of the state in a
variable: calls give the same results and leave the same state, in any order and whatever fails.
-/

namespace ActorGlue

variable {value : Value} {names : List String} {data : Bytes} {params : Int} {records : Records}
  {actor : Actor}

namespace Value

mutual

/-- What was read names no records. -/
theorem mapShared_read (f : Nat → Value) : (value : Value) → {frozen : Bool} → value.Read frozen →
    value.mapShared f = value
  | .list items, _, read | .tuple items, _, read =>
    by rw [mapShared, mapSharedAll_read f items read.2.2]
  | .map entries, _, read => by rw [mapShared, mapSharedEntries_read f entries read.2.2]
  | .tag _ content, _, read => by rw [mapShared, mapShared_read f content read.2.2.2]
  | .null, _, _ | .bool _, _, _ | .int _, _, _ | .float _, _, _ | .text _, _, _ | .bytes _, _, _
  | .simple _, _, _ | .undefined, _, _ | .breakMark, _, _ => by simp only [mapShared]
  | .cid _, _, read | .record .., _, read | .shared _, _, read | .foreign, _, read => read.elim

theorem mapSharedAll_read (f : Nat → Value) : (items : List Value) → {frozen : Bool} →
    ReadAll frozen items → mapSharedAll f items = items
  | [], _, _ => rfl
  | item :: rest, _, read => by
    rw [mapSharedAll, mapShared_read f item read.1, mapSharedAll_read f rest read.2]

theorem mapSharedEntries_read (f : Nat → Value) : (entries : List (Value × Value)) →
    {frozen : Bool} → ReadEntries frozen entries → mapSharedEntries f entries = entries
  | [], _, _ => rfl
  | (key, value) :: rest, _, read => by
    rw [mapSharedEntries, mapShared_read f key read.1, mapShared_read f value read.2.1,
      mapSharedEntries_read f rest read.2.2]

end

theorem unified_of_isKey (isKey : value.IsKey) : value.unified = value := by
  cases value with
  | int | text | bytes => simp only [unified]
  | _ => exact isKey.elim

mutual

/-- Unified forms of plain values are plain. -/
theorem plain_unified : (value : Value) → value.Plain → value.unified.Plain
  | .list items, plain => by
    rw [unified]
    exact ⟨(length_unifiedAll items).symm ▸ plain.1, plain_unifiedAll items plain.2⟩
  | .map entries, plain => by
    have keys : (unifiedEntries entries).map (·.1) = entries.map (·.1) := by
      rw [unifiedEntries_eq, List.map_map]
      refine List.map_congr_left fun entry member => ?_
      exact unified_of_isKey (isKey_of_plainEntries plain.2.2 entry member)
    rw [unified]
    exact ⟨(length_unifiedEntries entries).symm ▸ plain.1, keys.symm ▸ plain.2.1,
      plain_unifiedEntries entries plain.2.2⟩
  | .float x, _ => by rw [unified]; trivial
  | .null, plain | .bool _, plain | .int _, plain | .text _, plain | .bytes _, plain => by
    simpa only [unified] using plain
  | .tuple _, plain | .tag .., plain | .simple _, plain | .undefined, plain | .breakMark, plain
  | .cid _, plain | .record .., plain | .shared _, plain | .foreign, plain => plain.elim

theorem plain_unifiedAll : (items : List Value) → PlainAll items → PlainAll (unifiedAll items)
  | [], _ => trivial
  | item :: rest, plain => ⟨plain_unified item plain.1, plain_unifiedAll rest plain.2⟩

theorem plain_unifiedEntries :
    (entries : List (Value × Value)) → PlainEntries entries → PlainEntries (unifiedEntries entries)
  | [], _ => trivial
  | (_, value) :: rest, plain => ⟨(unified_of_isKey plain.1).symm ▸ plain.1,
      (unified_of_isKey plain.1).symm ▸ plain.2.1, plain_unified value plain.2.2.1,
      plain_unifiedEntries rest plain.2.2.2⟩

end

end Value

namespace RecordClass

variable {values : List Value}

/-- Values, with nulls up to a number of fields. -/
def filled (count : Nat) (values : List Value) : List Value :=
  values ++ List.replicate (count - values.length) .null

theorem values_pair_filled (few : values.length ≤ names.length) :
    (pair names values).map (·.2) = filled names.length values := by
  induction names generalizing values with
  | nil =>
    obtain rfl : values = [] := List.eq_nil_of_length_eq_zero (by simpa using few)
    rfl
  | cons name names ih =>
    cases values with
    | nil =>
      have rest := @ih [] (Nat.zero_le _)
      rw [pair, List.map_cons, rest]
      rfl
    | cons value values =>
      rw [pair, List.map_cons, ih (by simpa using few)]
      simp [filled]

theorem length_filled {count : Nat} (few : values.length ≤ count) :
    (filled count values).length = count := by
  rw [filled, List.length_append, List.length_replicate]
  omega

theorem filled_eq_iff {count : Nat} (few : values.length ≤ count) :
    filled count values = values ↔ values.length = count := by
  constructor
  · intro same
    rw [← same, length_filled few]
  · intro same
    rw [filled, same, Nat.sub_self, List.replicate_zero, List.append_nil]

theorem values_pair (same : values.length = names.length) :
    (pair names values).map (·.2) = values := by
  rw [values_pair_filled same.le, (filled_eq_iff same.le).mpr same]

end RecordClass

namespace Records

theorem settleWithin_read {frozen : Bool} (records : Records) (depth : Nat) (around : List Nat)
    (read : value.Read frozen) : records.settleWithin depth around value = value := by
  cases depth with
  | zero => rfl
  | succ depth => exact Value.mapShared_read _ value read

/-- A record of values that were read is the same after it was held and written out. -/
theorem renew_read {name : String} {fields : List (String × Value)}
    (read : Value.ReadAll false (fields.map (·.2))) :
    renew (.record name fields) = .record name fields := by
  have same : fields.map (fun field =>
      (field.1, settleWithin [⟨name, fields, []⟩] 1 [0] field.2)) = fields := by
    conv_rhs => rw [← List.map_id fields]
    refine List.map_congr_left fun field member => ?_
    rw [settleWithin_read _ _ _ (Value.readAll_iff.mp read _ (List.mem_map_of_mem member))]
    rfl
  exact congrArg (Value.record name) same

end Records

def Value.fieldValues : Value → List Value
  | .record _ fields => fields.map (·.2)
  | _ => []

namespace StandIn

/-- What a stand-in makes of the fields of a state and of arguments: what it gives, and the fields
that it leaves. -/
def onState (standIn : StandIn) (cls : RecordClass) (fields args : List Value) :
    Except Stop (Value × List Value) :=
  (standIn (.shared 0 :: args) [⟨cls.name, RecordClass.pair cls.fields fields, []⟩]).map
    fun found => (found.2.settle found.1, (found.2.settle (.shared 0)).fieldValues)

/-- What a stand-in makes of arguments alone. -/
def onArguments (standIn : StandIn) (args : List Value) : Except Stop Value :=
  (standIn args []).map fun found => found.2.settle found.1

/-- On plain data the stand-in gives plain values, and leaves the state a record of its class with
plain fields. -/
structure KeepsPlain (standIn : StandIn) (cls : RecordClass) : Prop where
  onState : ∀ fields args value records, (Value.list fields).Plain →
    fields.length = cls.fields.length → (Value.list args).Plain →
    standIn (.shared 0 :: args) [⟨cls.name, RecordClass.pair cls.fields fields, []⟩] =
      .ok (value, records) →
    (records.settle value).Plain ∧ ∃ left, (Value.list left).Plain ∧
      left.length = cls.fields.length ∧
      records.settle (.shared 0) = .record cls.name (RecordClass.pair cls.fields left)
  onArguments : ∀ args value records, (Value.list args).Plain →
    standIn args [] = .ok (value, records) → (records.settle value).Plain

end StandIn

/-- An actor that keeps the fields of its state in a variable. -/
structure Reference where
  actor : Actor
  cls : RecordClass
  methods : List (String × StandIn)

namespace Reference

open Glue

/-- The arguments that an entry point receives: none if it declares none, and else as many as it
declares. Another number of them is an abort that shows them, unless they have a number in them
that is too long to be written. -/
def received (entry : EntryPoint) (args : List Value) : Except Stop (List Value) :=
  if entry.arguments.isEmpty then .ok []
  else if args.isEmpty then
    .error (.abort serializationFailure
      (some ("failed to receive params: " ++ (SyscallFault.noBlock "0").message)))
  else if args.length = entry.arguments.length then .ok (Value.unifiedAll args)
  else if Value.areWritable (Value.unifiedAll args) then
    .error (.abort serializationFailure (some ("failed to deserialize params: " ++
      Machine.miscount entry.arguments.length ((Value.list (Value.unifiedAll args)).quoted false))))
  else .error (.numeral .unwritable)

/-- What the method of an entry point gives, and the fields that it leaves. -/
def acts (reference : Reference) (entry : EntryPoint) (fields args : List Value) :
    Except Stop (Value × List Value) :=
  match reference.methods.lookup entry.method with
  | none => .error (.noStandIn entry.method)
  | some standIn =>
    if entry.mutability.loadsState then standIn.onState reference.cls fields args
    else (standIn.onArguments args).map (·, fields)

/-- The result of a call of a selector with arguments, and the fields after it. -/
def step (reference : Reference) (fields : List Value) (call : Value × List Value) :
    Except Stop Value × List Value :=
  match call.1.toInt?.bind reference.actor.entryPoint? with
  | none => (.error (.abort unhandledMessage (some "unrecognized method")), fields)
  | some entry =>
    match received entry call.2 >>= reference.acts entry fields with
    | .error stop => (.error stop, fields)
    | .ok (value, left) =>
      (.ok (if entry.returns then value.unified else .null),
        if entry.mutability = .write then Value.unifiedAll left else fields)

/-- The results of calls one after the other, and the fields after them. -/
def run (reference : Reference) (fields : List Value) :
    List (Value × List Value) → List (Except Stop Value) × List Value
  | [] => ([], fields)
  | call :: calls =>
    let rest := reference.run (reference.step fields call).2 calls
    ((reference.step fields call).1 :: rest.1, rest.2)

end Reference

namespace Machine

open Glue
variable {entry : EntryPoint}

/-- The results of calls one after the other, and the sandbox after them. -/
def callAll (machine : Machine) (table : DispatchTable) (sandbox : Sandbox) :
    List (Value × List Value) → List (Except Stop Value) × Sandbox
  | [] => ([], sandbox)
  | call :: calls =>
    let rest := machine.callAll table (machine.call table call.1 call.2 sandbox).2 calls
    ((machine.call table call.1 call.2 sandbox).1 :: rest.1, rest.2)

/-- The sandbox has the fields as the state: the root is the address of a block with them. -/
structure HasState (cls : RecordClass) (sandbox : Sandbox) (fields : List Value) : Prop where
  keeps : sandbox.store.mode = .keep
  plain : (Value.list fields).Plain
  count : fields.length = cls.fields.length
  rooted : ∃ cid data, sandbox.root = some (.cid cid) ∧ sandbox.store.get? cid = some data ∧
    Cbor.decode data = .ok (.list fields)

/-- What the machine of a module with a state is made of. -/
theorem ofModule_stateful {program : Program} {symbol : String}
    {methods : List (String × StandIn)} {machine : Machine} {table : DispatchTable}
    {cls : RecordClass}
    (built : ofModule (lower program symbol) methods = .ok (machine, table))
    (classed : machine.stateClass = some cls) :
    (lower program symbol).table = some table ∧ machine.RunsOver (lower program symbol) ∧
      machine.interface.isSome ∧ machine.methods = methods := by
  unfold ofModule at built
  cases tabled : (lower program symbol).table with
  | none => rw [tabled] at built; cases built
  | some found =>
    rw [tabled] at built
    cases interfaced : (lower program symbol).interface? found.actor.name with
    | none =>
      simp only [interfaced, ofInterface] at built
      cases built
      cases classed
    | some interface =>
      simp only [interfaced, ofInterface] at built
      cases stated : RecordClass.ofState interface.state with
      | error fault => rw [stated] at built; cases built
      | ok made =>
        rw [stated] at built
        cases built
        refine ⟨rfl, ?_, rfl, rfl⟩
        rintro other same
        cases same
        exact List.mem_of_find?_eq_some interfaced

section Steps

variable {machine : Machine} {cls : RecordClass} {sandbox : Sandbox} {fields : List Value}
variable {args : List Value}

theorem decode_bytes (data : Bytes) :
    decode (.bytes data) = (Cbor.decode data).mapError Stop.decode := by
  change (Cbor.decode data).mapError Stop.decode = _
  rfl

theorem decodeRecord_of_list (decoded : Cbor.decode data = .ok (.list fields))
    (few : fields.length ≤ cls.fields.length) :
    decodeRecord (some cls) (.bytes data) =
      .ok (.record cls.name (RecordClass.pair cls.fields fields)) := by
  rw [decodeRecord, decode_bytes, decoded]
  change (cls.make fields).mapError Stop.record = _
  rw [RecordClass.make, if_neg (by omega)]
  rfl

/-- The block at the root decides what is loaded. -/
theorem storedState_of_root (interfaced : machine.interface.isSome) {cid : Cid}
    (root : sandbox.root = some (.cid cid)) (block : sandbox.store.get? cid = some data) :
    machine.storedState sandbox =
      (orAbort serializationFailure "failed to deserialize state" ofValueOrType
        (decodeRecord machine.stateClass (.bytes data))).map Records.renew := by
  obtain ⟨interface, interfaced⟩ := Option.isSome_iff_exists.mp interfaced
  have rootFound : expecting illegalState "failed to get root" ofSyscall Sandbox.getRoot sandbox =
      .ok (.cid cid) := by
    simp [expecting, Sandbox.getRoot, Run.bind_apply, root, orAbort]
  have blockFound : fetching illegalState "failed to get state" "state does not exist" (.cid cid)
      sandbox = .ok data := by
    rw [fetching, Preview.bind_eq_ok]
    refine ⟨some data, ?_, rfl⟩
    rw [← block]
    rfl
  simp only [storedState, interfaced, Preview.bind_apply, rootFound, blockFound, Except.bind]
  cases orAbort serializationFailure "failed to deserialize state" ofValueOrType
    (decodeRecord machine.stateClass (.bytes data)) <;> rfl

/-- A state that can be encoded is saved in a store that keeps blocks. -/
theorem savedState_of_encoded (interfaced : machine.interface.isSome)
    (keeps : sandbox.store.mode = .keep) {state : Value} (encodes : Cbor.encode state = .ok data) :
    ∃ cid, machine.savedState state sandbox = .ok (cid, sandbox.store.insert cid data) := by
  obtain ⟨interface, interfaced⟩ := Option.isSome_iff_exists.mp interfaced
  obtain ⟨cid, puts⟩ := Store.put_of_keep keeps data
  have stores : stored data sandbox = .ok (cid, sandbox.store.insert cid data) := by
    rw [stored, puts]
    change orAbort _ _ _ (if (sandbox.store.insert cid data).contains cid then _ else _) = _
    rw [if_pos (Store.contains_insert _ _ _)]
    rfl
  refine ⟨cid, ?_⟩
  simp only [savedState, interfaced, Preview.bind_eq_ok, orAbort_eq_ok]
  exact ⟨data, by rw [encoded, encodes]; rfl, stores⟩

/-- A state with plain fields is saved, and the sandbox then has its unified form. -/
theorem savedState_of_plain (interfaced : machine.interface.isSome)
    (keeps : sandbox.store.mode = .keep) (plain : (Value.list fields).Plain)
    (count : fields.length = cls.fields.length) :
    ∃ saved, machine.savedState (.record cls.name (RecordClass.pair cls.fields fields)) sandbox =
        .ok saved ∧
      ∀ lines, HasState cls (((sandbox.commit (some saved)).noted lines))
        (Value.unifiedAll fields) := by
  obtain ⟨data, writes, reads⟩ := Cbor.decode_encode_list plain.1 plain.2
  have encodes : Cbor.encode (.record cls.name (RecordClass.pair cls.fields fields)) = .ok data := by
    rw [Cbor.encode_record, RecordClass.values_pair count, writes]
  obtain ⟨cid, saves⟩ := savedState_of_encoded interfaced keeps encodes
  refine ⟨_, saves, fun lines => ⟨?_, ?_, ?_, cid, data, rfl, ?_, reads⟩⟩
  · exact (Store.mode_insert _ _ _).trans keeps
  · exact Value.plain_unified _ plain
  · rw [Value.length_unifiedAll, count]
  · exact (Store.get?_insert _ _ _ _).trans (if_pos rfl)

theorem HasState.congr {other : Sandbox} (state : HasState cls sandbox fields)
    (store : other.store = sandbox.store) (root : other.root = sandbox.root) :
    HasState cls other fields := by
  obtain ⟨keeps, plain, count, rooted⟩ := state
  refine ⟨store ▸ keeps, plain, count, ?_⟩
  rw [store, root]
  exact rooted

theorem sentArguments_of_none (none : entry.arguments = []) :
    sentArguments entry params sandbox = .ok [] := by
  simp [sentArguments, none]
  rfl

theorem sentArguments_none (entry : EntryPoint) (sandbox : Sandbox) :
    (sentArguments entry 0 sandbox).mapError Breakdown.stop = Reference.received entry [] := by
  unfold sentArguments Reference.received
  cases entry.arguments.isEmpty <;> rfl

theorem sentArguments_of_block (declares : entry.arguments ≠ [])
    (found : sandbox.block? params = some data) :
    sentArguments entry params sandbox =
      decoding serializationFailure "failed to deserialize params" entry.arguments.length
        (.bytes data) := by
  have some : entry.arguments.isEmpty = false := by simpa using declares
  have fetched : expecting serializationFailure "failed to receive params" ofSyscall
      (Sandbox.getBlock params) sandbox = .ok data := by
    simp [expecting, Sandbox.getBlock, Run.bind_apply, found, orAbort]
  simp only [sentArguments, some, Bool.false_eq_true, if_false, Preview.bind_apply, fetched,
    Except.bind]

theorem decoding_of_ok (decoded : Cbor.decode data = .ok value) (exitCode : Int) (message : String)
    (count : Nat) :
    decoding exitCode message count (.bytes data) = listed exitCode message count value := by
  rw [decoding, decode_bytes, decoded]
  simp only [Except.mapError, orAbort, Except.bind]

theorem sentArguments_block (nonempty : args ≠ []) (found : sandbox.block? params = some data)
    (decoded : Cbor.decode data = .ok (.list (Value.unifiedAll args))) :
    (sentArguments entry params sandbox).mapError Breakdown.stop =
      Reference.received entry args := by
  have some : args.isEmpty = false := by simpa using nonempty
  unfold Reference.received
  by_cases declares : entry.arguments = []
  · rw [sentArguments_of_none declares, declares]
    rfl
  · have declared : entry.arguments.isEmpty = false := by simpa using declares
    rw [sentArguments_of_block declares found, decoding_of_ok decoded]
    simp only [declared, Bool.false_eq_true, if_false, some, listed, Value.length_unifiedAll,
      refusal, Value.isWritable]
    split
    · rfl
    · by_cases writable : Value.areWritable (Value.unifiedAll args) <;>
        simp only [writable, Bool.false_eq_true, if_true, if_false] <;> rfl

/-- What the method of an entry point answers in a sandbox with a state. -/
def answers (machine : Machine) (cls : RecordClass) (fields : List Value) (entry : EntryPoint)
    (args : List Value) : Except Stop (Value × Records) :=
  if entry.mutability.loadsState then
    machine.answer entry.method (.shared 0 :: args)
      [⟨cls.name, RecordClass.pair cls.fields fields, []⟩]
  else machine.answer entry.method args []

theorem acts_eq (actor : Actor) (entry : EntryPoint) (args : List Value) :
    Reference.acts ⟨actor, cls, machine.methods⟩ entry fields args =
      (machine.answers cls fields entry args).map fun found =>
        (found.2.settle found.1,
          if entry.mutability.loadsState then (found.2.settle (.shared 0)).fieldValues
          else fields) := by
  unfold Reference.acts answers answer
  cases machine.methods.lookup entry.method with
  | none => cases entry.mutability.loadsState <;> rfl
  | some standIn =>
    cases entry.mutability.loadsState with
    | true => rfl
    | false =>
      simp only [StandIn.onArguments, Bool.false_eq_true, if_false]
      cases standIn args [] <;> rfl

theorem answers_plain (keepPlain : ∀ name standIn, machine.methods.lookup name = some standIn →
      standIn.KeepsPlain cls) (plain : (Value.list fields).Plain)
    (count : fields.length = cls.fields.length) (plainArgs : (Value.list args).Plain)
    (answered : machine.answers cls fields entry args = .ok (value, records)) :
    (records.settle value).Plain ∧ (entry.mutability.loadsState → ∃ left,
      (Value.list left).Plain ∧ left.length = cls.fields.length ∧
      records.settle (.shared 0) = .record cls.name (RecordClass.pair cls.fields left)) := by
  unfold answers answer at answered
  cases found : machine.methods.lookup entry.method with
  | none =>
    rw [found] at answered
    cases loads : entry.mutability.loadsState <;> rw [loads] at answered <;> cases answered
  | some standIn =>
    have keeps := keepPlain entry.method standIn found
    rw [found] at answered
    cases loads : entry.mutability.loadsState with
    | true =>
      rw [loads, if_pos rfl] at answered
      obtain ⟨plainValue, left⟩ := keeps.onState fields args value records plain count plainArgs
        answered
      exact ⟨plainValue, fun _ => left⟩
    | false =>
      rw [loads, if_neg (by decide)] at answered
      exact ⟨keeps.onArguments args value records plainArgs answered, by simp⟩

theorem received_plain {found : List Value} (plain : (Value.list args).Plain)
    (h : Reference.received entry args = .ok found) : (Value.list found).Plain := by
  unfold Reference.received at h
  split_ifs at h <;> cases h
  · exact ⟨Nat.zero_le _, trivial⟩
  · exact Value.plain_unified _ plain

theorem encodedResult_of_plain (entry : EntryPoint) (sandbox : Sandbox) (plain : value.Plain) :
    ∃ result, encodedResult entry value sandbox = .ok result ∧
      if entry.returns then ∃ data, result = some data ∧ Cbor.decode data = .ok value.unified
      else result = none := by
  unfold encodedResult
  cases entry.returns with
  | false => exact ⟨none, rfl, rfl⟩
  | true =>
    obtain ⟨data, writes, reads⟩ := (Cbor.carries_plain plain).decode
    refine ⟨some data, ?_, data, rfl, reads⟩
    simp only [if_true, Preview.bind_eq_ok, orAbort_eq_ok, encoded, mapError_eq_ok]
    exact ⟨data, writes, rfl⟩

theorem concluded_of_plain (interfaced : machine.interface.isSome)
    (keeps : sandbox.store.mode = .keep) (result : Option Bytes)
    (leaves : entry.mutability.loadsState → ∃ left, (Value.list left).Plain ∧
      left.length = cls.fields.length ∧
      records.settle (.shared 0) = .record cls.name (RecordClass.pair cls.fields left)) :
    ∃ outcome, machine.concluded entry result records
        (if entry.mutability.loadsState then some (.shared 0) else none) sandbox = .ok outcome ∧
      outcome.result = result ∧
      if entry.mutability = .write then
        ∃ saved, outcome.saved = some saved ∧ ∀ lines,
          HasState cls ((sandbox.commit (some saved)).noted lines)
            (Value.unifiedAll (records.settle (.shared 0)).fieldValues)
      else outcome.saved = none := by
  cases kind : entry.mutability with
  | pure => exact ⟨⟨result, none⟩, rfl, rfl, rfl⟩
  | view => exact ⟨⟨result, none⟩, by simp [concluded, kind, Mutability.loadsState, Mutability.savesState]; rfl, rfl, rfl⟩
  | write =>
    obtain ⟨left, plain, count, settled⟩ := leaves (by rw [kind]; rfl)
    obtain ⟨saved, saves, has⟩ := savedState_of_plain interfaced keeps plain count
    refine ⟨⟨result, some saved⟩, ?_, rfl, saved, rfl, ?_⟩
    · simp only [Mutability.loadsState, concluded, kind, Mutability.savesState, if_true,
        Preview.bind_eq_ok, settled]
      exact ⟨saved, saves, rfl⟩
    · rw [settled, Value.fieldValues, RecordClass.values_pair count]
      exact has

section

variable (interfaced : machine.interface.isSome) (classed : machine.stateClass = some cls)
  (state : HasState cls sandbox fields)
include interfaced classed state

/-- The state that the sandbox has is loaded. -/
theorem storedState_of_hasState :
    machine.storedState sandbox =
      .ok (.record cls.name (RecordClass.pair cls.fields fields)) := by
  obtain ⟨cid, data, root, found, decoded⟩ := state.rooted
  rw [storedState_of_root interfaced root found, classed,
    decodeRecord_of_list decoded state.count.le]
  have values := RecordClass.values_pair state.count
  exact congrArg Except.ok (Records.renew_read
    (values.symm ▸ (Value.readAll_of_plain _ state.plain.2).1))

/-- What an entry point is called on in a sandbox with a state. -/
theorem receiver_of_hasState (entry : EntryPoint) :
    machine.receiver entry sandbox =
      .ok (if entry.mutability.loadsState then
        (some (.shared 0), [⟨cls.name, RecordClass.pair cls.fields fields, []⟩])
      else (none, [])) := by
  have stored := storedState_of_hasState interfaced classed state
  unfold receiver
  cases entry.mutability.loadsState with
  | true =>
    simp only [if_true, Preview.bind_apply, stored]
    rfl
  | false => rfl

/-- After its arguments, the outcome of an entry point hangs on the answer of its method. -/
theorem evaluate_of_sent (sent : sentArguments entry params sandbox = .ok args) :
    machine.evaluate entry params sandbox =
      ((machine.answers cls fields entry args).mapError .raised).bind fun found =>
        (encodedResult entry (found.2.settle found.1) sandbox).bind fun result =>
          machine.concluded entry result found.2
            (if entry.mutability.loadsState then some (.shared 0) else none) sandbox := by
  have received := receiver_of_hasState interfaced classed state entry
  unfold answers
  cases loads : entry.mutability.loadsState <;> rw [loads] at received <;>
    simp only [evaluate, Preview.bind_apply, sent, received, Except.bind] <;> rfl

/-- A call that the reference refuses breaks off for the same reason. -/
theorem evaluate_refused {stop : Stop}
    (sent : (sentArguments entry params sandbox).mapError Breakdown.stop =
      Reference.received entry args) (refused : Reference.received entry args >>=
      Reference.acts ⟨actor, cls, machine.methods⟩ entry fields = .error stop) :
    ∃ breakdown, machine.evaluate entry params sandbox = .error breakdown ∧
      breakdown.stop = stop := by
  rw [← sent] at refused
  cases sends : sentArguments entry params sandbox with
  | error breakdown =>
    rw [sends] at refused
    refine ⟨breakdown, ?_, Except.error.inj refused⟩
    simp only [evaluate, Preview.bind_apply, sends, Except.bind]
  | ok found =>
    rw [sends] at refused
    change Reference.acts _ entry fields found = .error stop at refused
    rw [acts_eq] at refused
    rw [evaluate_of_sent interfaced classed state sends]
    cases answered : machine.answers cls fields entry found with
    | ok result => rw [answered] at refused; cases refused
    | error reason =>
      rw [answered] at refused
      exact ⟨.raised reason, rfl, Except.error.inj refused⟩

/-- A call that the reference makes has an outcome with the same result and the same state. -/
theorem evaluate_made (keepPlain : ∀ name standIn, machine.methods.lookup name = some standIn →
      standIn.KeepsPlain cls) {left : List Value} (plainArgs : (Value.list args).Plain)
    (sent : (sentArguments entry params sandbox).mapError Breakdown.stop =
      Reference.received entry args) (made : Reference.received entry args >>=
      Reference.acts ⟨actor, cls, machine.methods⟩ entry fields = .ok (value, left)) :
    ∃ outcome, machine.evaluate entry params sandbox = .ok outcome ∧
      (if entry.returns then
        ∃ data, outcome.result = some data ∧ Cbor.decode data = .ok value.unified
      else outcome.result = none) ∧
      if entry.mutability = .write then
        ∃ saved, outcome.saved = some saved ∧ ∀ lines,
          HasState cls ((sandbox.commit (some saved)).noted lines) (Value.unifiedAll left)
      else outcome.saved = none := by
  rw [← sent] at made
  cases sends : sentArguments entry params sandbox with
  | error breakdown => rw [sends] at made; cases made
  | ok found =>
    rw [sends] at made sent
    have plainFound := received_plain plainArgs sent.symm
    change Reference.acts _ entry fields found = .ok (value, left) at made
    rw [acts_eq] at made
    rw [evaluate_of_sent interfaced classed state sends]
    cases answered : machine.answers cls fields entry found with
    | error reason => rw [answered] at made; cases made
    | ok result =>
      obtain ⟨given, records⟩ := result
      obtain ⟨plainValue, leaves⟩ :=
        answers_plain keepPlain state.plain state.count plainFound answered
      rw [answered] at made
      cases made
      obtain ⟨result, encodes, results⟩ := encodedResult_of_plain entry sandbox plainValue
      obtain ⟨outcome, concludes, told, saves⟩ :=
        concluded_of_plain interfaced state.keeps result leaves
      refine ⟨outcome, ?_, told ▸ results, ?_⟩
      · change (encodedResult entry (records.settle given) sandbox).bind _ = _
        rw [encodes]
        exact concludes
      · cases kind : entry.mutability with
        | write =>
          rw [kind] at saves
          exact saves
        | _ => simpa [kind] using saves

end

/-- The arguments of a call are put where its entry point finds them. -/
theorem putParams_given (plain : (Value.list args).Plain) (sandbox : Sandbox) :
    ∃ params ready, Sandbox.putParams (given args) sandbox = (.ok params, ready) ∧
      ready.store = sandbox.store ∧ ready.root = sandbox.root ∧
      ∀ entry, (sentArguments entry (params : Nat) ready).mapError Breakdown.stop =
        Reference.received entry args := by
  cases args with
  | nil => exact ⟨0, sandbox, rfl, rfl, rfl, fun entry => sentArguments_none entry sandbox⟩
  | cons first rest =>
    obtain ⟨data, writes, reads⟩ := Cbor.decode_encode_list plain.1 plain.2
    have puts : Sandbox.putParams (given (first :: rest)) sandbox =
        (.ok sandbox.nextBlockId, withResult sandbox (some data)) := by
      simp only [given, List.isEmpty_cons, Bool.false_eq_true, if_false, Sandbox.putParams, writes]
      rfl
    refine ⟨_, _, puts, rfl, rfl, fun entry => ?_⟩
    exact sentArguments_block (by simp) (block?_withResult sandbox data) reads

end Steps

section Calls

variable {program : Program} {symbol : String} {methods : List (String × StandIn)}
  {machine : Machine} {table : DispatchTable} {cls : RecordClass} {sandbox : Sandbox}
  {fields : List Value}

/-- A result that was added is collected as the value that its block reads as. -/
theorem collect_withResult (decoded : Cbor.decode data = .ok value) :
    collect sandbox.nextBlockId (withResult sandbox (some data)) =
      (.ok value, withResult sandbox (some data)) := by
  have found := block?_withResult sandbox data
  have named : ¬ sandbox.nextBlockId = 0 := nextBlockId_ne_zero sandbox
  have decodes : decode (.bytes data) = .ok value := by
    rw [decode_bytes, decoded, Except.mapError]
  simp only [collect, named, if_false, Run.bind_apply, Sandbox.getBlock, Run.get_apply, found]
  change (liftM (decode (.bytes data)) : Run Value) (withResult sandbox (some data)) = _
  rw [decodes]
  rfl

/-- The result of an outcome is collected as the value that the method gave. -/
theorem collect_outcome {outcome : Outcome}
    (results : if entry.returns then
        ∃ data, outcome.result = some data ∧ Cbor.decode data = .ok value
      else outcome.result = none) :
    collect (outcome.id sandbox) (withResult sandbox outcome.result) =
      (.ok (if entry.returns then value else .null), withResult sandbox outcome.result) := by
  cases returns : entry.returns with
  | true =>
    rw [returns, if_pos rfl] at results
    obtain ⟨data, told, decoded⟩ := results
    rw [Outcome.id, told]
    exact collect_withResult decoded
  | false =>
    rw [returns, if_neg (by decide)] at results
    rw [Outcome.id, results]
    rfl

section

variable (built : ofModule (lower program symbol) methods = .ok (machine, table))
  (classed : machine.stateClass = some cls)
  (keepPlain : ∀ name standIn, methods.lookup name = some standIn → standIn.KeepsPlain cls)
include built classed keepPlain

/-- One call gives what the reference gives, and the sandbox then has its state. -/
theorem call_follows (state : HasState cls sandbox fields) (call : Value × List Value)
    (plain : (Value.list call.2).Plain) :
    ∃ after, machine.call table call.1 call.2 sandbox =
        ((Reference.step ⟨table.actor, cls, methods⟩ fields call).1, after) ∧
      HasState cls after (Reference.step ⟨table.actor, cls, methods⟩ fields call).2 := by
  obtain ⟨tabled, runs, interfaced, rfl⟩ := ofModule_stateful built classed
  obtain ⟨params, ready, puts, store, root, sent⟩ := putParams_given plain sandbox
  have state := state.congr store root
  have selected := selected_eq tabled call.1
  rw [Machine.call, invoke, bind_assoc, Run.bind_apply, puts]
  simp only [Run.bind_apply]
  unfold Reference.step
  cases chosen : call.1.toInt?.bind table.actor.entryPoint? with
  | none =>
    rw [chosen] at selected
    rw [dispatch_unselected selected]
    exact ⟨_, rfl, state.congr rfl rfl⟩
  | some entry =>
    rw [chosen] at selected
    simp only
    cases refers : Reference.received entry call.2 >>=
        Reference.acts ⟨table.actor, cls, machine.methods⟩ entry fields with
    | error stop =>
      obtain ⟨breakdown, evaluated, rfl⟩ :=
        evaluate_refused interfaced classed state (sent entry) refers
      obtain ⟨lines, ran, _⟩ := dispatch_of_breakdown tabled runs selected evaluated
      rw [ran]
      exact ⟨_, rfl, state.congr rfl rfl⟩
    | ok made =>
      obtain ⟨value, left⟩ := made
      obtain ⟨outcome, evaluated, results, saves⟩ :=
        evaluate_made interfaced classed state keepPlain plain (sent entry) refers
      obtain ⟨lines, ran⟩ := dispatch_of_outcome tabled runs selected evaluated
      have collects := @collect_outcome _ entry
        (((invoked ready call.1).commit outcome.saved).noted lines) outcome results
      have next : outcome.id (((invoked ready call.1).commit outcome.saved).noted lines) =
          outcome.id ready := by
        cases outcome.saved <;> rfl
      rw [next] at collects
      rw [ran]
      refine ⟨_, collects, ?_⟩
      simp only
      by_cases writes : entry.mutability = .write
      · rw [if_pos writes] at saves ⊢
        obtain ⟨saved, told, has⟩ := saves
        rw [told]
        exact (has lines).congr rfl rfl
      · rw [if_neg writes] at saves ⊢
        rw [saves]
        exact state.congr rfl rfl

/-- Calls in any order give what the reference gives, and the sandbox then has its state. -/
theorem callAll_follows (state : HasState cls sandbox fields) (calls : List (Value × List Value))
    (plain : ∀ call ∈ calls, (Value.list call.2).Plain) :
    (machine.callAll table sandbox calls).1 =
        (Reference.run ⟨table.actor, cls, methods⟩ fields calls).1 ∧
      HasState cls (machine.callAll table sandbox calls).2
        (Reference.run ⟨table.actor, cls, methods⟩ fields calls).2 := by
  induction calls generalizing sandbox fields with
  | nil => exact ⟨rfl, state⟩
  | cons call calls ih =>
    obtain ⟨after, called, kept⟩ := call_follows built classed keepPlain state call
      (plain call List.mem_cons_self)
    obtain ⟨results, final⟩ := ih kept fun other member =>
      plain other (List.mem_cons_of_mem _ member)
    simp only [callAll, Reference.run, called]
    exact ⟨by rw [results], final⟩

end

end Calls

theorem ofModule_of_class {module : Module} {methods : List (String × StandIn)}
    {table : DispatchTable} {interface : StateInterface} {cls : RecordClass}
    (tabled : module.table = some table)
    (interfaced : module.interface? table.actor.name = some interface)
    (classed : RecordClass.ofState interface.state = .ok cls) :
    ofModule module methods = .ok (⟨some interface, some cls, methods⟩, table) := by
  simp only [ofModule, tabled, interfaced, ofInterface, classed]
  rfl

/-- A register with a method that writes it and a method that reads it. -/
def registerActor : Actor :=
  ⟨"Register", .methodNumber,
    [⟨"write", ⟨3, by decide⟩, .write, false, [⟨"value", false, "u64"⟩]⟩,
      ⟨"read", ⟨4, by decide⟩, .view, true, []⟩]⟩

/-- The state of the register is what it holds. -/
def registerProgram : Program :=
  { states := [⟨"Register", "Register", [⟨"value", "u64"⟩], .dagCbor⟩]
    actor := some registerActor }

/-- Scripts that stand in for the methods of the register. -/
def registerMethods : List (String × StandIn) :=
  [("write", Script.standIn none ⟨[("value", .arg 1)], none⟩),
    ("read", Script.standIn none ⟨[], some (.field "value")⟩)]

theorem ofModule_register :
    ofModule (lower registerProgram invokeSymbol) registerMethods =
      .ok (⟨some (lowerState ⟨"Register", "Register", [⟨"value", "u64"⟩], .dagCbor⟩),
        some ⟨"Register", ["value"]⟩, registerMethods⟩, lowerActor registerActor invokeSymbol) := by
  have classed : RecordClass.ofState ⟨"Register", "Register", [⟨"value", "u64"⟩], .dagCbor⟩ =
      .ok ⟨"Register", ["value"]⟩ := by decide +kernel
  exact ofModule_of_class rfl rfl classed

/-- A register with a plain value is written out as it is. -/
theorem settle_register (plain : value.Plain) :
    Records.settle [⟨"Register", [("value", value)], []⟩] (.shared 0) =
      .record "Register" [("value", value)] :=
  @Records.renew_read "Register" [("value", value)] ⟨(Value.read_of_plain value plain).1, trivial⟩

theorem write_keepsPlain :
    (Script.standIn none ⟨[("value", .arg 1)], none⟩).KeepsPlain ⟨"Register", ["value"]⟩ where
  onState := by
    intro fields args value records plain count plainArgs ran
    obtain ⟨old, rfl⟩ := List.length_eq_one_iff.mp count
    cases args with
    | nil => cases ran
    | cons written rest =>
      cases ran
      exact ⟨trivial, [written], ⟨Nat.le_of_ble_eq_true rfl, plainArgs.2.1, trivial⟩, rfl,
        settle_register plainArgs.2.1⟩
  onArguments := by
    intro args value records plain ran
    cases args with
    | nil => cases ran
    | cons first rest =>
      cases rest with
      | nil => cases ran
      | cons written rest => cases first <;> cases ran

theorem read_keepsPlain :
    (Script.standIn none ⟨[], some (.field "value")⟩).KeepsPlain ⟨"Register", ["value"]⟩ where
  onState := by
    intro fields args value records plain count plainArgs ran
    obtain ⟨old, rfl⟩ := List.length_eq_one_iff.mp count
    cases ran
    refine ⟨?_, [value], plain, rfl, settle_register plain.2.1⟩
    rw [Records.settle, Records.settleWithin_read _ _ _ (Value.read_of_plain _ plain.2.1).1]
    exact plain.2.1
  onArguments := by
    intro args value records plain ran
    cases args with
    | nil => cases ran
    | cons first rest => cases first <;> first | exact plain.2.1.elim | cases ran

theorem registerMethods_keepPlain (name : String) (standIn : StandIn)
    (found : registerMethods.lookup name = some standIn) :
    standIn.KeepsPlain ⟨"Register", ["value"]⟩ := by
  simp only [registerMethods, List.lookup] at found
  split at found
  · cases found
    exact write_keepsPlain
  · split at found <;> cases found
    exact read_keepsPlain

/-- A register that is written with two arguments cannot complain about a number that is too long to
be written. -/
theorem call_register_unwritten {n : Nat} (long : Text.isWritable n = false)
    (plainArgs : (Value.list [.int n, .int 1]).Plain) :
    ∃ machine table start,
      ofModule (lower registerProgram invokeSymbol) registerMethods = .ok (machine, table) ∧
      HasState ⟨"Register", ["value"]⟩ start [.int 0] ∧
      (machine.call table (.int 3) [.int n, .int 1] start).1 = .error (.numeral .unwritable) := by
  obtain ⟨-, -, interfaced, -⟩ := ofModule_stateful ofModule_register rfl
  have plain : (Value.list [.int 0]).Plain := by
    simp only [Value.Plain, Value.PlainAll]
    decide +kernel
  have count : [Value.int 0].length = (⟨"Register", ["value"]⟩ : RecordClass).fields.length := rfl
  obtain ⟨saved, -, state⟩ := @savedState_of_plain _ _ {} _ interfaced rfl plain count
  obtain ⟨after, called, -⟩ := call_follows ofModule_register rfl registerMethods_keepPlain
    (state []) (.int 3, _) plainArgs
  have unwritable : Value.areWritable (Value.unifiedAll [.int n, .int 1]) = false := by
    simp [Value.unifiedAll, Value.unified, Value.areWritable, Value.isWritable, long]
  have selected : (lowerActor registerActor invokeSymbol).actor.entryPoint? 3 =
      some ⟨"write", ⟨3, by decide⟩, .write, false, [⟨"value", false, "u64"⟩]⟩ := rfl
  refine ⟨_, _, _, ofModule_register, state [], ?_⟩
  rw [called]
  simp only [Reference.step, Value.toInt?, Option.bind_some, selected, Reference.received,
    unwritable]
  rfl

end Machine

end ActorGlue
