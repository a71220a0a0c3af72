import ActorGlue.Proofs.Machine.Preview

/-!
# Previews of steps

What the single steps of a lowered block come to, and from that what a sequence of them comes to.
All steps but those that store a block, set the root or save the state only read.
-/

namespace ActorGlue

variable {name : String} {cid : Cid} {value data : Value} {values : List Value}
  {expected : Stop → Bool} {sandbox after : Sandbox}

namespace Value

mutual

/-- Naming every record by its own index changes nothing. -/
theorem mapShared_shared : (value : Value) → value.mapShared .shared = value
  | .shared _ => by simp only [mapShared]
  | .list items | .tuple items => by simp only [mapShared, mapSharedAll_shared items]
  | .map entries => by simp only [mapShared, mapSharedEntries_shared entries]
  | .tag _ content => by simp only [mapShared, mapShared_shared content]
  | .record _ fields => by simp only [mapShared, mapSharedFields_shared fields]
  | .null | .bool _ | .int _ | .float _ | .text _ | .bytes _ | .simple _ | .undefined
  | .breakMark | .cid _ | .foreign => by simp only [mapShared]

theorem mapSharedAll_shared : (items : List Value) → mapSharedAll .shared items = items
  | [] => rfl
  | item :: rest => by simp only [mapSharedAll, mapShared_shared item, mapSharedAll_shared rest]

theorem mapSharedEntries_shared :
    (entries : List (Value × Value)) → mapSharedEntries .shared entries = entries
  | [] => rfl
  | (key, value) :: rest => by
    simp only [mapSharedEntries, mapShared_shared key, mapShared_shared value,
      mapSharedEntries_shared rest]

theorem mapSharedFields_shared :
    (fields : List (String × Value)) → mapSharedFields .shared fields = fields
  | [] => rfl
  | (_, value) :: rest => by
    simp only [mapSharedFields, mapShared_shared value, mapSharedFields_shared rest]

end

theorem lookup_putNamed (name other : String) (value : Value) (named : List (String × Value)) :
    (putNamed name value named).lookup other =
      if other = name then some value else named.lookup other := by
  induction named with
  | nil =>
    by_cases h : other = name
    · simp [putNamed, h]
    · simp [putNamed, List.lookup_cons, beq_false_of_ne h, h]
  | cons entry rest ih =>
    obtain ⟨key, old⟩ := entry
    by_cases hk : key = name
    · subst hk
      by_cases h : other = key
      · simp [putNamed, h]
      · simp [putNamed, List.lookup_cons, beq_false_of_ne h, h]
    · by_cases h : other = key
      · subst h
        simp [putNamed, hk]
      · simp [putNamed, List.lookup_cons, hk, beq_false_of_ne h, ih]

end Value

namespace Records

/-- Without records there is nothing to write out. -/
@[simp] theorem settle_nil (value : Value) : settle [] value = value := by
  have named : ∀ f : Nat → Value, (∀ index, f index = .shared index) →
      value.mapShared f = value := by
    intro f same
    rw [funext same, Value.mapShared_shared]
  apply named
  intro index
  simp

/-- A value from outside, held and written out again at once. -/
def renew (value : Value) : Value :=
  (hold [] value).2.settle (hold [] value).1

theorem renew_record (name : String) (fields : List (String × Value)) :
    ∃ renewed, renew (.record name fields) = .record name renewed := by
  simp [renew, hold, settle, settleWithin, Value.mapShared]

end Records

namespace Store

theorem lookup_replace (cid other : Cid) (data : Bytes) (blocks : List (Cid × Bytes)) :
    (blocks.map fun block => if block.1 = cid then (cid, data) else block).lookup other =
      if other = cid then (blocks.lookup cid).map fun _ => data else blocks.lookup other := by
  induction blocks with
  | nil => simp
  | cons block rest ih =>
    obtain ⟨key, old⟩ := block
    rw [List.map_cons, List.lookup_cons, List.lookup_cons, List.lookup_cons]
    by_cases hk : key = cid
    · subst hk
      by_cases h : other = key
      · simp [h]
      · simp [h, ih, beq_false_of_ne h]
    · by_cases h : other = cid
      · subst h
        simp [hk, ih, beq_false_of_ne (Ne.symm hk)]
      · simp [hk, h, ih]

/-- A block is found under the identifier it was put under, and all others are as before. -/
theorem get?_insert (store : Store) (cid other : Cid) (data : Bytes) :
    (store.insert cid data).get? other = if other = cid then some data else store.get? other := by
  cases h : store.contains cid with
  | true =>
    obtain ⟨old, found⟩ := Option.isSome_iff_exists.mp h
    have kept : store.blocks.lookup cid = some old := found
    simp only [insert, h, if_true, get?, lookup_replace, kept, Option.map_some]
  | false =>
    have missing : store.blocks.lookup cid = none :=
      Option.isNone_iff_eq_none.mp (Option.isSome_eq_false_iff.mp h)
    simp only [insert, h, Bool.false_eq_true, if_false, get?, List.lookup_append]
    by_cases same : other = cid
    · simp [same, missing]
    · simp [List.lookup_cons, same, beq_false_of_ne same]

/-- A block that is put is kept, or the store is left as it is. -/
theorem put_eq_ok {store after : Store} {codec : Nat} {data : Bytes} {hash size : Int}
    (h : store.put codec data hash size = .ok (cid, after)) :
    Cid.ofBlock codec data hash size = .ok cid ∧
      (after = store.insert cid data ∨ after = store) := by
  unfold put at h
  split at h
  · cases h
  · split at h <;> cases h
    exact ⟨by assumption, .inl rfl⟩
  · split at h <;> cases h
    exact ⟨by assumption, .inr rfl⟩

theorem contains_insert (store : Store) (cid : Cid) (data : Bytes) :
    (store.insert cid data).contains cid := by
  simp only [contains, get?_insert, if_true, Option.isSome_some]

theorem mode_insert (store : Store) (cid : Cid) (data : Bytes) :
    (store.insert cid data).mode = store.mode := by
  unfold insert
  split <;> rfl

/-- A store that keeps blocks takes every block. -/
theorem put_of_keep {store : Store} (keeps : store.mode = .keep) (data : Bytes) :
    ∃ cid, store.put dagCborCodec data = .ok (cid, store.insert cid data) := by
  unfold put
  rw [keeps]
  exact ⟨_, rfl⟩

end Store

namespace Env

theorem resolve_eq {env : Env} (found : env.find? name = some value) :
    env.resolve name = env.records.settle value := by
  rw [resolve, found, Option.getD_some]

@[simp] theorem find?_assign (env : Env) (name other : String) (value : Value) :
    (env.assign name value).find? other = if other = name then some value else env.find? other :=
  Value.lookup_putNamed name other value env.results

theorem find?_assign_self (env : Env) (name : String) (value : Value) :
    (env.assign name value).find? name = some value := by
  rw [find?_assign, if_pos rfl]

@[simp] theorem assign_records (env : Env) (name : String) (value : Value) :
    (env.assign name value).records = env.records := rfl

theorem spread_list {env : Env} {items : List Value} (found : env.find? name = some (.list items)) :
    env.spread [name] = .ok items := by
  simp only [spread, found]
  exact congrArg Except.ok (List.append_nil items)

theorem spread_record {env : Env} {index : Nat} {rest : List String}
    (found : env.find? name = some (.shared index)) (more : env.spread rest = .ok values) :
    env.spread (name :: rest) = .ok (.shared index :: values) := by
  simp only [spread, found, more]
  rfl

/-- The values of names that are not assigned stay as they are. -/
theorem spread_congr {env after : Env} {names : List String}
    (same : ∀ name ∈ names, after.find? name = env.find? name) :
    after.spread names = env.spread names := by
  induction names with
  | nil => rfl
  | cons name rest ih =>
    simp only [spread, same name (List.mem_cons_self ..),
      ih fun other member => same other (List.mem_cons_of_mem _ member)]

end Env

namespace Machine

open Glue

variable {α : Type} {i : Instruction} {exitCode : Int} {message : String} {run : Run α}

/-- A failure that a step expects aborts with the failure as the detail, and any other failure
comes out as it is. -/
def orAbort (exitCode : Int) (message : String) (expected : Stop → Bool) :
    Except Stop α → Except Breakdown α
  | .ok value => .ok value
  | .error stop =>
    .error (if expected stop then .aborted exitCode (message ++ ": " ++ stop.message)
      else .raised stop)

/-- Nothing is done after an abort. -/
theorem abort_bind {β : Type} (spec : Option Abort) (detail : Option String) (next : α → Run β) :
    abort spec detail >>= next = abort spec detail := by
  funext sandbox
  rw [Run.bind_apply]
  cases spec with
  | none => rfl
  | some spec => cases h : (exitCodeName? spec.exitCode).isNone <;> simp [abort, h, Run.bind_apply]

/-- The abort of a known exit code is noted in the log. -/
theorem abort_reads {spec : Abort} (known : (exitCodeName? spec.exitCode).isSome)
    (detail : Option String) :
    Reads (abort (some spec) detail : Run α)
      (throw (.aborted spec.exitCode (spec.text detail))) := by
  have named : (exitCodeName? spec.exitCode).isNone = false := by
    rw [Option.isNone_eq_false_iff]
    exact known
  have ran : ∀ sandbox, (abort (some spec) detail : Run α) sandbox =
      (.error (.abort spec.exitCode (some (spec.text detail))),
        sandbox.noted [Breakdown.line spec.exitCode]) := by
    intro sandbox
    simp only [abort, named, Bool.false_eq_true, if_false]
    rfl
  refine ⟨fun sandbox => ⟨[Breakdown.line spec.exitCode], ran sandbox, ?_⟩, fun _ => rfl⟩
  intro breakdown failed
  cases failed
  rfl

/-- The instruction aborts on errors, with a known exit code. -/
def Guards (exitCode : Int) (message : String) (i : Instruction) : Prop :=
  i.abort? "error" = some ⟨exitCode, message, true⟩ ∧ (exitCodeName? exitCode).isSome

/-- A step with an abort turns the failures it expects into this abort. -/
theorem guarded_reads (guards : Guards exitCode message i) (expected : Stop → Bool)
    (result : Except Stop α) :
    Reads (guarded i expected result) (fun _ => orAbort exitCode message expected result) := by
  cases result with
  | ok value => exact Reads.pure value
  | error stop =>
    cases h : expected stop with
    | false =>
      have ran : (guarded i expected (.error stop) : Run α) = throw stop := by
        simp [guarded, h]
      have previewed : (fun _ => orAbort exitCode message expected (.error stop)) =
          (throw (.raised stop) : Preview α) := by
        funext sandbox
        simp [orAbort, h]
        rfl
      rw [ran, previewed]
      exact Performs.raise stop
    | true =>
      have ran : (guarded i expected (.error stop) : Run α) =
          abort (some ⟨exitCode, message, true⟩) (some stop.message) := by
        simp [guarded, h, guards.1]
      have previewed : (fun _ => orAbort exitCode message expected (.error stop)) =
          (throw (.aborted exitCode (message ++ ": " ++ stop.message)) : Preview α) := by
        funext sandbox
        simp [orAbort, h]
        rfl
      rw [ran, previewed]
      exact abort_reads guards.2 _

/-- The run leaves the sandbox alone and looks neither at the log nor at the method number. -/
structure Looks (run : Run α) : Prop where
  kept : ∀ sandbox, (run sandbox).2 = sandbox
  blind : ∀ {first second : Sandbox}, first.Agrees second → (run first).1 = (run second).1

theorem attempt_reads (looks : Looks run) :
    Reads (attempt run) (fun sandbox => .ok (run sandbox).1) := by
  refine ⟨fun sandbox => ⟨[], ?_, fun _ failed => by cases failed⟩, fun agrees => ?_⟩
  · simp only [Run.attempt_apply, looks.kept, Sandbox.noted_nil, Sandbox.commit_none]
  · rw [looks.blind agrees]

/-- What a run comes to when the failures it is expected to have abort it. -/
def expecting (exitCode : Int) (message : String) (expected : Stop → Bool) (run : Run α) :
    Preview α :=
  fun sandbox => orAbort exitCode message expected (run sandbox).1

/-- An attempt whose expected failures abort comes to what the run comes to, or the abort. -/
theorem guarded_attempt_reads (guards : Guards exitCode message i) (expected : Stop → Bool)
    (looks : Looks run) :
    Reads (attempt run >>= guarded i expected) (expecting exitCode message expected run) :=
  Performs.bind (attempt_reads looks) fun result _ => guarded_reads guards expected result

theorem orAbort_eq_ok {result : Except Stop α} {value : α} :
    orAbort exitCode message expected result = .ok value ↔ result = .ok value := by
  cases result <;> simp [orAbort]

/-- A record is decoded from a list of values that its class takes. -/
theorem decodeRecord_eq_ok {cls : Option RecordClass} {record : Value}
    (h : decodeRecord cls data = .ok record) :
    ∃ found items, cls = some found ∧ decode data = .ok (.list items) ∧
      record = .record found.name (RecordClass.pair found.fields items) := by
  unfold decodeRecord at h
  cases decoded : decode data with
  | error stop => rw [decoded] at h; cases h
  | ok value =>
    rw [decoded] at h
    cases value with
    | list items =>
      cases cls with
      | none => cases h
      | some found =>
        change (found.make items).mapError Stop.record = .ok record at h
        unfold RecordClass.make at h
        split at h <;> cases h
        exact ⟨found, items, rfl, rfl, rfl⟩
    | _ => cases cls <;> cases h

section Sequence

variable {β γ : Type} {machine : Machine} {load : Run Value} {save : Value → Run Value}
  {params : Int} {env : Env} {rest : List Instruction}

/-- The instruction only reads: it runs to what the preview tells, held as a value and the
environment after it. -/
def StepReads (machine : Machine) (load : Run Value) (save : Value → Run Value) (params : Int)
    (env : Env) (i : Instruction) (preview : Preview β) (held : β → Value × Env) : Prop :=
  i.op ≠ .ret ∧ ∃ run, machine.apply load save params env i = held <$> run ∧ Reads run preview

/-- A step that reads goes before the steps after it, which find its result under its name. -/
theorem StepReads.performs {preview : Preview β} {held : β → Value × Env} {next : β → Preview γ}
    {done : γ → Value × Option (Cid × Store)}
    (step : machine.StepReads load save params env i preview held)
    (second : ∀ found, (∃ sandbox, preview sandbox = .ok found) → Performs
      (machine.runSteps load save params ((held found).2.assign i.id (held found).1) rest)
      (next found) done) :
    Performs (machine.runSteps load save params env (i :: rest)) (preview >>= next) done := by
  obtain ⟨runs, run, opened, first⟩ := step
  rw [runSteps, if_neg runs, opened, map_eq_pure_bind, bind_assoc]
  refine Performs.bind first fun found reached => ?_
  rw [pure_bind]
  exact (second found reached).note_bind

section Reading

theorem getRoot_looks : Looks Sandbox.getRoot where
  kept sandbox := by cases h : sandbox.root <;> simp [Sandbox.getRoot, Run.bind_apply, h]
  blind {first second} agrees := by
    have same := agrees.root
    cases h : second.root <;> simp [Sandbox.getRoot, Run.bind_apply, same, h]

theorem getRoot_reads (op : i.op = .getRoot) (guards : Guards exitCode message i) :
    machine.StepReads load save params env i
      (expecting exitCode message ofSyscall Sandbox.getRoot) (·, env) := by
  refine ⟨by simp [op], _, ?_, guarded_attempt_reads guards ofSyscall getRoot_looks⟩
  simp only [apply, op, map_eq_pure_bind, bind_assoc]

theorem storeGet_looks (address : Value) : Looks (Sandbox.storeGet address) where
  kept sandbox := by cases address <;> rfl
  blind agrees := by
    cases address with
    | cid cid => exact congrArg (fun store : Store => Except.ok (store.get? cid)) agrees.store
    | _ => rfl

/-- The block of an address. One that is missing has an abort of its own. -/
def fetching (exitCode : Int) (message missing : String) (address : Value) : Preview Bytes := do
  match ← expecting exitCode message ofStore (Sandbox.storeGet address) with
  | some data => return data
  | none => throw (.aborted exitCode missing)

theorem getBlock_reads {missing : String} {address : Value} (op : i.op = .getBlock)
    (args : i.args = [name]) (resolves : env.resolve name = address)
    (guards : Guards exitCode message i)
    (specMissing : i.abort? "missing" = some ⟨exitCode, missing, false⟩) :
    machine.StepReads load save params env i (fetching exitCode message missing address)
      fun data => (.bytes data, env) := by
  let found : Run Bytes := do
    match ← attempt (Sandbox.storeGet address) >>= guarded i ofStore with
    | some data => return data
    | none => abort (i.abort? "missing") none
  refine ⟨by simp [op], found, ?_, Performs.bind
    (guarded_attempt_reads guards ofStore (storeGet_looks _)) fun data _ => ?_⟩
  · simp only [apply, op, firstArg, args, resolves, found, pure_bind, map_eq_pure_bind, bind_assoc]
    congr 1
    funext result
    congr 1
    funext data
    cases data with
    | some data => rw [pure_bind]
    | none => rw [abort_bind]
  · cases data with
    | some data => exact Reads.pure data
    | none =>
      rw [specMissing]
      exact abort_reads guards.2 none

theorem decodeState_reads (op : i.op = .decodeState) (args : i.args = [name])
    (resolves : env.resolve name = data) (guards : Guards exitCode message i) :
    machine.StepReads load save params env i (fun _ => orAbort exitCode message ofValueOrType
      (decodeRecord machine.stateClass data)) fun record => env.hold record := by
  refine ⟨by simp [op], _, ?_, guarded_reads guards ofValueOrType _⟩
  simp only [apply, op, firstArg, args, resolves, pure_bind, map_eq_pure_bind]

def encoded (value : Value) : Except Stop Bytes :=
  (Cbor.encode value).mapError .encode

theorem encode_eq (value : Value) : encode value = (encoded value).map .bytes := by
  cases h : Cbor.encode value <;> simp [encode, encoded, h] <;> rfl

theorem guarded_map {β : Type} (i : Instruction) (expected : Stop → Bool) (result : Except Stop α)
    (f : α → β) : guarded i expected (result.map f) = f <$> guarded i expected result := by
  cases result with
  | ok value => rfl
  | error stop =>
    cases h : expected stop with
    | true =>
      simp only [guarded, Except.map, h, if_true, map_eq_pure_bind]
      rw [abort_bind]
    | false => simp [guarded, Except.map, h]

theorem encode_reads (op : i.op = .encodeState ∨ i.op = .encodeResult) (args : i.args = [name])
    (resolves : env.resolve name = value) (guards : Guards exitCode message i) :
    machine.StepReads load save params env i (fun _ => orAbort exitCode message ofValueOrType
      (encoded value)) fun data => (.bytes data, env) := by
  refine ⟨by rcases op with op | op <;> simp [op], _, ?_, guarded_reads guards ofValueOrType _⟩
  rcases op with op | op <;>
    simp only [apply, op, firstArg, args, resolves, encode_eq, guarded_map, pure_bind, map_eq_pure_bind,
      bind_assoc]

theorem getBlock_looks (id : Int) : Looks (Sandbox.getBlock id) where
  kept sandbox := by cases h : sandbox.block? id <;> simp [Sandbox.getBlock, Run.bind_apply, h]
  blind {first second} agrees := by
    have same : first.block? id = second.block? id := by simp only [Sandbox.block?, agrees.blocks]
    cases h : second.block? id <;> simp [Sandbox.getBlock, Run.bind_apply, same, h]

theorem fetchParams_reads (op : i.op = .fetchParams) (guards : Guards exitCode message i) :
    machine.StepReads load save params env i
      (expecting exitCode message ofSyscall (Sandbox.getBlock params))
      fun data => (.bytes data, env) := by
  refine ⟨by simp [op], _, ?_, guarded_attempt_reads guards ofSyscall (getBlock_looks params)⟩
  simp only [apply, op, map_eq_pure_bind, bind_assoc]

/-- Why anything but a list of the declared length is refused. -/
def refusal (exitCode : Int) (message : String) (count : Nat) (values : Value) : Breakdown :=
  if values.isWritable then
    .aborted exitCode (message ++ ": " ++ miscount count (values.quoted false))
  else .raised (.numeral .unwritable)

/-- The items of a list of a length; anything else is refused with what was found. -/
def listed (exitCode : Int) (message : String) (count : Nat) :
    Value → Except Breakdown (List Value)
  | .list items =>
    if items.length = count then .ok items
    else .error (refusal exitCode message count (.list items))
  | values => .error (refusal exitCode message count values)

/-- The arguments in a block of parameters. -/
def decoding (exitCode : Int) (message : String) (count : Nat) (data : Value) :
    Except Breakdown (List Value) :=
  (orAbort exitCode message ofValue (decode data)).bind (listed exitCode message count)

theorem takeItems_reads (guards : Guards exitCode message i) (count : Nat) (values : Value) :
    Reads (takeItems i count values) (fun _ => listed exitCode message count values) := by
  have refuses : ∀ values, Reads (refuseItems i count values)
      (throw (refusal exitCode message count values) : Preview (List Value)) := by
    intro values
    unfold refuseItems refusal Value.written
    split
    · change Reads (abort (i.abort? "error") _) _
      rw [guards.1]
      exact abort_reads guards.2 _
    · exact Performs.raise _
  cases values with
  | list items =>
    by_cases h : items.length = count
    · simp only [takeItems, listed, h, if_true]
      exact Reads.pure items
    · simp only [takeItems, listed, h, if_false]
      exact refuses _
  | _ => exact refuses _

theorem decodeArgs_eq {count : Nat} (args : i.args = [name]) (resolves : env.resolve name = data)
    (counted : argumentCount i = .ok count) :
    decodeArgs i env =
      Value.list <$> (guarded i ofValue (decode data) >>= takeItems i count) := by
  simp only [decodeArgs, counted, Run.liftM_ok, firstArg, args, resolves, pure_bind, map_eq_pure_bind,
    bind_assoc]

theorem decodeArgs_reads {count : Nat} (op : i.op = .decodeArgs) (args : i.args = [name])
    (resolves : env.resolve name = data) (counted : argumentCount i = .ok count)
    (guards : Guards exitCode message i) :
    machine.StepReads load save params env i (fun _ => decoding exitCode message count data)
      fun items => (.list items, env) := by
  refine ⟨by simp [op], _, ?_, Performs.bind (guarded_reads guards ofValue (decode data))
    fun values _ => takeItems_reads guards count values⟩
  simp only [apply, op, decodeArgs_eq args resolves counted, map_eq_pure_bind, bind_assoc, pure_bind]

theorem loadState_stepReads {loaded : Preview Value} (op : i.op = .loadState)
    (loads : Reads load loaded) :
    machine.StepReads load save params env i loaded fun state => env.hold state := by
  refine ⟨by simp [op], load, ?_, loads⟩
  simp only [apply, op, map_eq_pure_bind]

/-- What a method gives for arguments, and the records after it. -/
def answer (machine : Machine) (method : String) (args : List Value) :
    OnRecords Value :=
  match machine.methods.lookup method with
  | some standIn => standIn args
  | none => throw (.noStandIn method)

theorem call_reads {method : String} (op : i.op = .call)
    (named : i.meta? "method" = some (.text method)) (given : env.spread i.args = .ok values) :
    machine.StepReads load save params env i
      (fun _ => (machine.answer method values env.records).mapError .raised)
      fun found => (found.1, { env with records := found.2 }) := by
  refine ⟨by simp [op], _, ?_, Reads.lift (machine.answer method values env.records)⟩
  simp only [apply, op, callMethod, named, given, answer, Run.liftM_ok, pure_bind,
    map_eq_pure_bind]
  cases machine.methods.lookup method <;> rfl

theorem runSteps_ret_nil (op : i.op = .ret) (args : i.args = []) :
    machine.runSteps load save params env (i :: rest) = pure .null := by
  simp only [runSteps, op, if_true, args]

theorem runSteps_ret (op : i.op = .ret) (args : i.args = [name])
    (found : env.find? name = some value) :
    machine.runSteps load save params env (i :: rest) = pure (env.records.settle value) := by
  simp only [runSteps, op, if_true, args, found]

theorem storePut_apply (data : Bytes) (sandbox : Sandbox) :
    Sandbox.storePut dagCborCodec data blake2b256 digestSize sandbox =
      match sandbox.store.put dagCborCodec data with
      | .ok (cid, store) => (.ok cid, { sandbox with store := store })
      | .error fault => (.error (.store fault), sandbox) := by
  unfold Sandbox.storePut
  rw [Run.bind_apply, Run.get_apply]
  cases h : sandbox.store.put dagCborCodec data blake2b256 digestSize with
  | error fault => simp only [h]; rfl
  | ok found => simp only [h]; rfl

theorem apply_putBlock {data : Bytes} (op : i.op = .putBlock) (args : i.args = [name])
    (resolves : env.resolve name = .bytes data) (codec : blockCodec i = dagCborCodec)
    (hash : blockHash i = .ok (blake2b256 : Int))
    (size : blockDigestSize i = .ok (digestSize : Int)) :
    machine.apply load save params env i =
      (do
        let cid ← attempt (Sandbox.storePut dagCborCodec data) >>= guarded i ofStore
        pure (.cid cid, env)) := by
  simp only [apply, op, putBlock, firstArg, args, resolves, codec, hash, size, pure_bind,
    bind_assoc]
  change (do
    let result ← attempt (Sandbox.storePut dagCborCodec data)
    let cid ← guarded i ofStore result
    pure (Value.cid cid)) >>= (fun value => pure (value, env)) = _
  simp only [bind_assoc, pure_bind]

theorem apply_setRoot (op : i.op = .setRoot) (args : i.args = [name])
    (resolves : env.resolve name = .cid cid) :
    machine.apply load save params env i =
      (do
        attempt (Sandbox.setRoot (.cid cid)) >>= guarded i ofSyscall
        pure (.null, env)) := by
  simp only [apply, op, firstArg, args, resolves, pure_bind, bind_assoc]

theorem setRoot_apply (cid : Cid) (sandbox : Sandbox) :
    Sandbox.setRoot (.cid cid) sandbox =
      if sandbox.store.contains cid then (.ok (), { sandbox with root := some (.cid cid) })
      else (.error (.syscall (.notStored cid.text)), sandbox) := by
  cases h : sandbox.store.contains cid <;>
    simp [Sandbox.setRoot, Run.bind_apply, h]

theorem attempt_guarded_ok {value : α} (ran : run sandbox = (.ok value, after)) :
    (attempt run >>= guarded i expected) sandbox = (.ok value, after) := by
  simp only [Run.bind_apply, Run.attempt_apply, ran, guarded, Run.pure_apply]

theorem attempt_guarded_error {stop : Stop} (ran : run sandbox = (.error stop, after)) :
    (attempt run >>= guarded i expected) sandbox = guarded i expected (.error stop) after := by
  simp only [Run.bind_apply, Run.attempt_apply, ran]

/-- The address of a block and the store that has it. -/
def rooted (cid : Cid) : Preview (Cid × Store) := fun sandbox =>
  orAbort illegalState "failed to set root cid" ofSyscall
    (if sandbox.store.contains cid then .ok (cid, sandbox.store)
      else .error (.syscall (.notStored cid.text)))

theorem runSteps_setRoot {j : Instruction} (op : i.op = .setRoot) (args : i.args = [name])
    (found : env.find? name = some (.cid cid)) (records : env.records = [])
    (spec : i.abort? "error" = some ⟨illegalState, "failed to set root cid", true⟩)
    (other : name ≠ i.id) (opRet : j.op = .ret) (argsRet : j.args = [name]) :
    Performs (machine.runSteps load save params env [i, j]) (rooted cid)
      fun saved => (.cid saved.1, some saved) := by
  have resolves : env.resolve name = .cid cid := by
    rw [Env.resolve_eq found, records, Records.settle_nil]
  have returns : machine.runSteps load save params (env.assign i.id .null) [j] =
      pure (.cid cid) := by
    rw [runSteps_ret opRet argsRet (by rw [Env.find?_assign, if_neg other, found]),
      Env.assign_records, records, Records.settle_nil]
  refine ⟨fun sandbox => ?_, fun agrees => by simp only [rooted, agrees.store]⟩
  rw [runSteps, if_neg (by simp [op]), apply_setRoot op args resolves, bind_assoc, Run.bind_apply,
    rooted]
  have ran := setRoot_apply cid sandbox
  cases h : sandbox.store.contains cid with
  | true =>
    rw [h, if_pos rfl] at ran
    rw [attempt_guarded_ok ran]
    refine ⟨[i.op.name ++ ":" ++ i.id], ?_, fun _ failed => by cases failed⟩
    simp only [returns, Run.bind_apply, Run.note_apply, Run.pure_apply, if_true]
    rfl
  | false =>
    rw [h, if_neg (by simp)] at ran
    obtain ⟨lines, guard, recorded⟩ :=
      (guarded_reads ⟨spec, rfl⟩ ofSyscall (.error (.syscall (.notStored cid.text)) :
        Except Stop Unit)).outcome sandbox
    rw [attempt_guarded_error ran, guard]
    exact ⟨lines, rfl, fun _ failed => by cases failed; exact recorded _ rfl⟩

/-- The address of the block of a state and the store that has it. -/
def stored (data : Bytes) : Preview (Cid × Store) := fun sandbox =>
  (orAbort serializationFailure "failed to store initial state" ofStore
    ((sandbox.store.put dagCborCodec data).mapError .store)).bind fun (cid, store) =>
      rooted cid { sandbox with store := store }

/-- Storing a block and setting the root to it are done together or not at all: a store that does
not keep the block is left as it is, and no root is set to it. -/
theorem runSteps_store {j k : Instruction} {data : Bytes} (opPut : i.op = .putBlock)
    (argsPut : i.args = [name]) (resolves : env.resolve name = .bytes data)
    (records : env.records = []) (codec : blockCodec i = dagCborCodec)
    (hash : blockHash i = .ok (blake2b256 : Int))
    (size : blockDigestSize i = .ok (digestSize : Int))
    (specPut : i.abort? "error" =
      some ⟨serializationFailure, "failed to store initial state", true⟩) (opSet : j.op = .setRoot)
    (argsSet : j.args = [i.id])
    (specSet : j.abort? "error" = some ⟨illegalState, "failed to set root cid", true⟩)
    (other : i.id ≠ j.id) (opRet : k.op = .ret) (argsRet : k.args = [i.id]) :
    Performs (machine.runSteps load save params env [i, j, k]) (stored data)
      fun saved => (.cid saved.1, some saved) := by
  refine ⟨fun sandbox => ?_, fun agrees => by simp only [stored, rooted, agrees.store]⟩
  rw [runSteps, if_neg (by simp [opPut]),
    apply_putBlock opPut argsPut resolves codec hash size, bind_assoc, Run.bind_apply, stored]
  have ran := storePut_apply data sandbox
  cases put : sandbox.store.put dagCborCodec data with
  | error fault =>
    rw [put] at ran
    obtain ⟨lines, guard, recorded⟩ :=
      (guarded_reads ⟨specPut, rfl⟩ ofStore (.error (.store fault) : Except Stop Cid)).outcome
        sandbox
    rw [attempt_guarded_error ran, guard]
    exact ⟨lines, rfl, fun _ failed => by cases failed; exact recorded _ rfl⟩
  | ok found =>
    obtain ⟨cid, store⟩ := found
    rw [put] at ran
    rw [attempt_guarded_ok ran]
    have sets : Performs (machine.runSteps load save params (env.assign i.id (.cid cid)) [j, k])
        (rooted cid) fun saved => (.cid saved.1, some saved) :=
      runSteps_setRoot opSet argsSet (Env.find?_assign_self _ _ _) records specSet other opRet
        argsRet
    have noted : Performs (Sandbox.note (i.op.name ++ ":" ++ i.id) >>= fun _ =>
        machine.runSteps load save params (env.assign i.id (.cid cid)) [j, k])
        (rooted cid) fun saved => (.cid saved.1, some saved) := sets.note_bind
    obtain ⟨lines, ranSet, recorded⟩ := noted.outcome { sandbox with store := store }
    refine ⟨lines, ?_, recorded⟩
    simp only [pure_bind, ranSet, orAbort, Except.mapError, Except.bind]
    cases kept : store.contains cid with
    | true => simp only [rooted, kept, if_true]; rfl
    | false =>
      obtain rfl | rfl := (Store.put_eq_ok put).2
      · rw [Store.contains_insert] at kept
        cases kept
      · rfl

end Reading

end Sequence

end Machine

end ActorGlue
