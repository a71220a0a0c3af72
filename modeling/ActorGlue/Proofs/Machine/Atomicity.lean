import ActorGlue.Proofs.Machine.Invocation
import ActorGlue.Proofs.Outcome

/-!
# Invocations are done as a whole or not at all

An invocation that stops early leaves nothing behind but lines in the log. One that succeeds
changes the root and the store only for an entry point that changes the state, and adds a block
only for one that declares a result.
-/

namespace ActorGlue

/-- The first case that a method selects. -/
def Glue.DispatchTable.selected? (table : Glue.DispatchTable) (method : Value) :
    Option Glue.Case :=
  method.toInt?.bind table.case?

theorem Glue.case?_lowerActor (actor : Actor) (symbol : String) (number : Int) :
    (Glue.lowerActor actor symbol).case? number =
      (actor.entryPoint? number).map fun entry => ⟨entry, Glue.lowerEntry entry actor.name⟩ := by
  rw [Glue.DispatchTable.case?, Glue.lowerActor, List.find?_map]
  rfl

/-- A step breaks off a run with an abort of its own, which is never that of an unknown method
number, or with a failure that is no abort. -/
def Breakdown.ByStep : Breakdown → Prop
  | .aborted exitCode _ => exitCode ≠ unhandledMessage
  | .raised stop => ∀ exitCode message, stop ≠ .abort exitCode message

variable {data : Bytes} {saved : Cid × Store} {value : Value} {result : Option Bytes}
  {receiver : Option Value} {records : Records} {exitCode : Int} {breakdown : Breakdown}
  {before : Sandbox}

namespace Machine

open Glue
variable (sandbox : Sandbox) {outcome : Outcome}

/-- An invocation gets as far as the call of the method, on the receiver if there is one, and this
call comes to the given answer. -/
def Calls (machine : Machine) (entry : EntryPoint) (params : Int) (sandbox : Sandbox)
    (receiver : Option Value) (answer : Except Stop (Value × Records)) : Prop :=
  ∃ arguments records, sentArguments entry params sandbox = .ok arguments ∧
    machine.receiver entry sandbox = .ok (receiver, records) ∧
    machine.answer entry.method (receiver.toList ++ arguments) records = answer

/-- A state is saved: the root is the address of its bytes, and the store has at most gained the
block of these bytes. -/
def Saves (before after : Sandbox) (state : Value) : Prop :=
  ∃ data cid, Cbor.encode state = .ok data ∧ Cid.ofBlock dagCborCodec data = .ok cid ∧
    after.root = some (.cid cid) ∧ after.store.contains cid ∧
    (after.store = before.store ∨ after.store = before.store.insert cid data)

/-- The root and the store stay as they are. -/
def KeepsState (before after : Sandbox) : Prop :=
  after.root = before.root ∧ after.store = before.store

/-- A result is added: a block with its bytes, under an id that no block had. -/
def AddsResult (before after : Sandbox) (id : Nat) (value : Value) : Prop :=
  ∃ data, Cbor.encode value = .ok data ∧ after.blocks = before.blocks.add data ∧
    id = before.nextBlockId ∧ id ≠ 0 ∧ before.block? id = none ∧ after.block? id = some data

section Evaluation

variable {machine : Machine} {entry : EntryPoint} {params : Int} {sandbox : Sandbox}

theorem stored_eq_ok (h : stored data sandbox = .ok saved) :
    Cid.ofBlock dagCborCodec data = .ok saved.1 ∧ saved.2.contains saved.1 ∧
      (saved.2 = sandbox.store ∨ saved.2 = sandbox.store.insert saved.1 data) := by
  unfold stored at h
  cases put : sandbox.store.put dagCborCodec data with
  | error fault => rw [put] at h; cases h
  | ok found =>
    obtain ⟨cid, store⟩ := found
    rw [put] at h
    change orAbort _ _ _ (if store.contains cid then .ok (cid, store) else _) = .ok saved at h
    rw [orAbort_eq_ok] at h
    split at h
    · cases h
      exact ⟨(Store.put_eq_ok put).1, by assumption, (Store.put_eq_ok put).2.symm⟩
    · cases h

theorem savedState_eq_ok {state : Value} (h : machine.savedState state sandbox = .ok saved) :
    Saves sandbox (sandbox.commit (some saved)) state := by
  unfold savedState at h
  cases hi : machine.interface with
  | none => rw [hi] at h; cases h
  | some interface =>
    simp only [hi, Preview.bind_eq_ok, orAbort_eq_ok, encoded, mapError_eq_ok] at h
    obtain ⟨data, encodes, stores⟩ := h
    obtain ⟨addressed, contained, kept⟩ := stored_eq_ok stores
    exact ⟨data, saved.1, encodes, addressed, rfl, contained, kept⟩

theorem encodedResult_eq_ok (h : encodedResult entry value sandbox = .ok result) :
    if entry.returns then ∃ data, Cbor.encode value = .ok data ∧ result = some data
    else result = none := by
  unfold encodedResult at h
  split at h
  · simp only [Preview.bind_eq_ok, orAbort_eq_ok, encoded, mapError_eq_ok] at h
    obtain ⟨data, encodes, told⟩ := h
    cases told
    rw [if_pos (by assumption)]
    exact ⟨data, encodes, rfl⟩
  · cases h
    rw [if_neg (by assumption)]

theorem receiver_eq_ok (h : machine.receiver entry sandbox = .ok (receiver, records)) :
    receiver.isSome = entry.mutability.loadsState := by
  unfold Machine.receiver at h
  split at h
  · simp only [Preview.bind_eq_ok] at h
    obtain ⟨state, _, told⟩ := h
    cases told
    simp [*]
  · cases h
    simp [*]

theorem concluded_eq_ok (received : receiver.isSome = entry.mutability.loadsState)
    (h : machine.concluded entry result records receiver sandbox = .ok outcome) :
    outcome.result = result ∧
      if entry.mutability = .write then
        ∃ held saved, receiver = some held ∧ outcome.saved = some saved ∧
          Saves sandbox (sandbox.commit (some saved)) (records.settle held)
      else outcome.saved = none := by
  cases receiver with
  | none =>
    cases h
    refine ⟨rfl, ?_⟩
    rw [if_neg]
    intro writes
    simp [writes, Mutability.loadsState] at received
  | some held =>
    have decides : entry.mutability.savesState = true ↔ entry.mutability = .write := by
      cases entry.mutability <;> simp [Mutability.savesState]
    cases writes : entry.mutability.savesState with
    | true =>
      simp only [concluded, writes, if_true, Preview.bind_eq_ok] at h
      obtain ⟨saved, saves, told⟩ := h
      cases told
      rw [if_pos (decides.mp writes)]
      exact ⟨rfl, held, saved, rfl, rfl, savedState_eq_ok saves⟩
    | false =>
      simp only [concluded, writes, Bool.false_eq_true, if_false] at h
      cases h
      rw [if_neg (by simp [← decides, writes])]
      exact ⟨rfl, rfl⟩

/-- The outcome of an invocation tells what its method answered: the result is encoded if it is
declared, and the receiver is saved if the entry point changes the state. -/
theorem evaluate_eq_ok (h : machine.evaluate entry params sandbox = .ok outcome) :
    ∃ receiver value records,
      machine.Calls entry params sandbox receiver (.ok (value, records)) ∧
      (if entry.returns then
        ∃ data, Cbor.encode (records.settle value) = .ok data ∧ outcome.result = some data
      else outcome.result = none) ∧
      if entry.mutability = .write then
        ∃ held saved, receiver = some held ∧ outcome.saved = some saved ∧
          Saves sandbox (sandbox.commit (some saved)) (records.settle held)
      else outcome.saved = none := by
  unfold evaluate at h
  simp only [Preview.bind_eq_ok, mapError_eq_ok] at h
  obtain ⟨arguments, sent, ⟨receiver, held⟩, received, ⟨value, records⟩, answered, result, encodes,
    concludes⟩ := h
  obtain ⟨rfl, saves⟩ := concluded_eq_ok (receiver_eq_ok received) concludes
  exact ⟨receiver, value, records, ⟨arguments, held, sent, received, answered⟩,
    encodedResult_eq_ok encodes, saves⟩

end Evaluation

/-- A result that is not an abort. -/
def NoAbort {α : Type} (result : Except Stop α) : Prop :=
  ∀ exitCode message, result ≠ .error (.abort exitCode message)

/-- All aborts are made by the steps of the run itself. -/
def AbortsByStep {α : Type} (preview : Preview α) : Prop :=
  ∀ sandbox breakdown, preview sandbox = .error breakdown → breakdown.ByStep

namespace AbortsByStep

variable {α β : Type}

theorem bind {preview : Preview α} {next : α → Preview β} (first : AbortsByStep preview)
    (second : ∀ value, AbortsByStep (next value)) : AbortsByStep (preview >>= next) := by
  intro sandbox breakdown breaks
  obtain breaks | ⟨value, -, breaks⟩ := Preview.bind_eq_error.mp breaks
  · exact first sandbox breakdown breaks
  · exact second value sandbox breakdown breaks

theorem pure (value : α) : AbortsByStep (Pure.pure value) := by
  intro sandbox breakdown breaks
  cases breaks

theorem raise {stop : Stop} (never : ∀ exitCode message, stop ≠ .abort exitCode message) :
    AbortsByStep (throw (.raised stop) : Preview α) := by
  intro sandbox breakdown breaks
  cases breaks
  exact never

theorem abort (other : exitCode ≠ unhandledMessage) (message : String) :
    AbortsByStep (throw (.aborted exitCode message) : Preview α) := by
  intro sandbox breakdown breaks
  cases breaks
  exact other

theorem orAbort {result : Sandbox → Except Stop α} (never : ∀ sandbox, NoAbort (result sandbox))
    (other : exitCode ≠ unhandledMessage) (message : String) (expected : Stop → Bool) :
    AbortsByStep fun sandbox => Machine.orAbort exitCode message expected (result sandbox) := by
  intro sandbox breakdown breaks
  change Machine.orAbort exitCode message expected (result sandbox) = _ at breaks
  cases h : result sandbox with
  | ok value => rw [h] at breaks; cases breaks
  | error stop =>
    rw [h, Machine.orAbort] at breaks
    obtain rfl := Except.error.inj breaks
    split
    · exact other
    · rintro code text rfl
      exact never sandbox code text h

end AbortsByStep

namespace NoAbort

variable {α β ε : Type}

theorem mapError {f : ε → Stop} (never : ∀ fault exitCode message, f fault ≠ .abort exitCode message)
    (result : Except ε α) : NoAbort (result.mapError f) := by
  intro exitCode message same
  cases result with
  | ok value => cases same
  | error fault => exact never fault exitCode message (Except.error.inj same)

theorem bind {result : Except Stop α} {next : α → Except Stop β} (first : NoAbort result)
    (second : ∀ value, NoAbort (next value)) : NoAbort (result >>= next) := by
  intro exitCode message
  cases result with
  | error stop => exact fun same => first exitCode message (by cases same; rfl)
  | ok value => exact second value exitCode message

theorem decode (value : Value) : NoAbort (decode value) :=
  (mapError (by simp) _).bind fun _ => mapError (by simp) _

theorem encoded (value : Value) : NoAbort (encoded value) :=
  mapError (by simp) _

theorem decodeRecord (cls : Option RecordClass) (value : Value) :
    NoAbort (decodeRecord cls value) := by
  refine (decode value).bind fun found => ?_
  cases found <;> cases cls
  all_goals first
    | exact mapError (by simp) _
    | intro exitCode message same
      cases same

theorem getRoot : NoAbort (Sandbox.getRoot sandbox).1 := by
  intro exitCode message
  cases h : sandbox.root <;> simp [Sandbox.getRoot, Run.bind_apply, h]

/-- A reason that is no abort is none either if the value that it shows cannot be written. -/
theorem showing (value : Value) {reason : String → Stop}
    (never : ∀ text exitCode message, reason text ≠ .abort exitCode message) :
    NoAbort (.error (.showing value reason) : Except Stop α) := by
  intro exitCode message same
  have stops := Except.error.inj same
  unfold Stop.showing at stops
  split at stops
  · exact never _ _ _ stops
  · cases stops

theorem storeGet (address : Value) (sandbox : Sandbox) :
    NoAbort (Sandbox.storeGet address sandbox).1 := by
  cases address with
  | cid cid => exact fun exitCode message same => by cases same
  | _ => exact showing _ (by simp)

theorem getBlock (id : Int) (sandbox : Sandbox) : NoAbort (Sandbox.getBlock id sandbox).1 := by
  cases h : sandbox.block? id with
  | some data => simp [NoAbort, Sandbox.getBlock, Run.bind_apply, h]
  | none =>
    simp only [Sandbox.getBlock, Run.bind_apply, Run.get_apply, h, Run.throw_apply]
    exact showing _ (by simp)

end NoAbort

section Provenance

variable (machine : Machine) (entry : EntryPoint)

theorem abortsByStep_sentArguments (params : Int) : AbortsByStep (sentArguments entry params) := by
  have refused : ∀ count values, AbortsByStep (throw
      (refusal serializationFailure "failed to deserialize params" count values) :
        Preview (List Value)) := by
    intro count values
    unfold refusal
    split
    · exact AbortsByStep.abort (by decide) _
    · exact AbortsByStep.raise (by simp)
  have listed : ∀ values, AbortsByStep fun _ =>
      listed serializationFailure "failed to deserialize params" entry.arguments.length values := by
    intro values
    cases values with
    | list items =>
      simp only [Machine.listed]
      split
      · exact AbortsByStep.pure items
      · exact refused _ _
    | _ => exact refused _ _
  unfold sentArguments
  split
  · exact AbortsByStep.pure []
  · refine (AbortsByStep.orAbort (NoAbort.getBlock params) (by decide) _ _).bind fun data => ?_
    exact (AbortsByStep.orAbort (fun _ => NoAbort.decode (.bytes data)) (by decide) _ _).bind listed

theorem abortsByStep_storedState : AbortsByStep machine.storedState := by
  unfold storedState
  split
  · exact AbortsByStep.raise (by simp)
  · refine (AbortsByStep.orAbort NoAbort.getRoot (by decide) _ _).bind fun root => ?_
    refine AbortsByStep.bind ?_ fun data => ?_
    · refine (AbortsByStep.orAbort (NoAbort.storeGet root) (by decide) _ _).bind fun found => ?_
      cases found with
      | some data => exact AbortsByStep.pure data
      | none => exact AbortsByStep.abort (by decide) _
    · refine (AbortsByStep.orAbort (fun _ => NoAbort.decodeRecord _ _) (by decide) _ _).bind ?_
      exact fun record => AbortsByStep.pure _

theorem abortsByStep_receiver : AbortsByStep (machine.receiver entry) := by
  unfold receiver
  split
  · exact machine.abortsByStep_storedState.bind fun state => AbortsByStep.pure _
  · exact AbortsByStep.pure _

theorem abortsByStep_encodedResult (value : Value) : AbortsByStep (encodedResult entry value) := by
  unfold encodedResult
  split
  · refine (AbortsByStep.orAbort (fun _ => NoAbort.encoded value) (by decide) _ _).bind ?_
    exact fun data => AbortsByStep.pure _
  · exact AbortsByStep.pure _

theorem abortsByStep_rooted (cid : Cid) : AbortsByStep (rooted cid) := by
  refine AbortsByStep.orAbort (fun sandbox exitCode message => ?_) (by decide) _ _
  split <;> simp

theorem abortsByStep_stored (data : Bytes) : AbortsByStep (stored data) := by
  intro sandbox breakdown breaks
  unfold stored at breaks
  cases put : sandbox.store.put dagCborCodec data with
  | ok found =>
    rw [put] at breaks
    exact abortsByStep_rooted found.1 _ breakdown breaks
  | error fault =>
    rw [put] at breaks
    obtain rfl := Except.error.inj breaks
    split
    · exact (by decide : serializationFailure ≠ unhandledMessage)
    · exact fun exitCode message => Stop.noConfusion

theorem abortsByStep_savedState (state : Value) : AbortsByStep (machine.savedState state) := by
  unfold savedState
  split
  · exact AbortsByStep.raise (by simp)
  · refine (AbortsByStep.orAbort (fun _ => NoAbort.encoded state) (by decide) _ _).bind ?_
    exact abortsByStep_stored

theorem abortsByStep_concluded (result : Option Bytes) (records : Records)
    (receiver : Option Value) : AbortsByStep (machine.concluded entry result records receiver) := by
  unfold concluded
  split
  · split
    · exact (machine.abortsByStep_savedState _).bind fun saved => AbortsByStep.pure _
    · exact AbortsByStep.pure _
  · exact AbortsByStep.pure _

/-- An invocation is broken off by one of its steps, or by its method. -/
theorem evaluate_eq_error {params : Int} {sandbox : Sandbox}
    (h : machine.evaluate entry params sandbox = .error breakdown) :
    breakdown.ByStep ∨ ∃ stop receiver, breakdown = .raised stop ∧
      machine.Calls entry params sandbox receiver (.error stop) := by
  unfold evaluate at h
  rw [Preview.bind_eq_error] at h
  obtain breaks | ⟨arguments, sent, h⟩ := h
  · exact .inl (abortsByStep_sentArguments entry params sandbox breakdown breaks)
  rw [Preview.bind_eq_error] at h
  obtain breaks | ⟨⟨receiver, held⟩, received, h⟩ := h
  · exact .inl (machine.abortsByStep_receiver entry sandbox breakdown breaks)
  rw [Preview.bind_eq_error] at h
  obtain breaks | ⟨⟨value, records⟩, _, h⟩ := h
  · change (machine.answer entry.method (receiver.toList ++ arguments) held).mapError
      Breakdown.raised = .error breakdown at breaks
    cases answered : machine.answer entry.method (receiver.toList ++ arguments) held with
    | ok found => rw [answered] at breaks; cases breaks
    | error stop =>
      rw [answered] at breaks
      cases breaks
      exact .inr ⟨stop, receiver, rfl, arguments, held, sent, received, answered⟩
  have concludes := (abortsByStep_encodedResult entry (records.settle value)).bind fun result =>
    machine.abortsByStep_concluded entry result records receiver
  exact .inl (concludes sandbox breakdown h)

/-- An abort that no step of the invocation makes is the answer of its method. -/
theorem calls_of_raised_abort {params : Int} {sandbox : Sandbox} {message : Option String}
    (h : machine.evaluate entry params sandbox = .error (.raised (.abort exitCode message))) :
    ∃ receiver, machine.Calls entry params sandbox receiver (.error (.abort exitCode message)) := by
  obtain byStep | ⟨stop, receiver, same, calls⟩ := machine.evaluate_eq_error entry h
  · exact absurd rfl (byStep exitCode message)
  · cases same
    exact ⟨receiver, calls⟩

end Provenance

section Dispatch

variable {machine : Machine} {program : Program} {symbol : String} {table : DispatchTable}
variable {method : Value} {case : Case} {params : Int}

/-- A method selects the case of the entry point that the actor has for it. -/
theorem selected_eq (tabled : (lower program symbol).table = some table) (method : Value) :
    table.selected? method = (method.toInt?.bind table.actor.entryPoint?).map fun entry =>
      ⟨entry, lowerEntry entry table.actor.name⟩ := by
  obtain ⟨actor, _, rfl⟩ := Option.map_eq_some_iff.mp tabled
  cases number : method.toInt? with
  | none => simp [DispatchTable.selected?, number]
  | some number' =>
    rw [DispatchTable.selected?, number, Option.bind_some, case?_lowerActor]
    rfl

/-- The block of a case is that of its entry point. -/
theorem block_of_selected (tabled : (lower program symbol).table = some table)
    (selected : table.selected? method = some case) :
    case.block = lowerEntry case.entry table.actor.name := by
  rw [selected_eq tabled] at selected
  obtain ⟨entry, _, rfl⟩ := Option.map_eq_some_iff.mp selected
  rfl

/-- The id of the block of a result; zero if there is none. -/
def Outcome.id (outcome : Outcome) (sandbox : Sandbox) : Nat :=
  if outcome.result.isSome then sandbox.nextBlockId else 0

/-- The sandbox in which a method was invoked. -/
def invoked (sandbox : Sandbox) (method : Value) : Sandbox :=
  { sandbox with methodNumber := method }

theorem invoked_agrees (method : Value) : (invoked sandbox method).Agrees sandbox :=
  ⟨rfl, rfl, rfl⟩

/-- The sandbox after the result of an invocation was added, if there is one. -/
def withResult (sandbox : Sandbox) (result : Option Bytes) : Sandbox :=
  { sandbox with blocks := sandbox.blocks.addAll result.toList }

theorem nextBlockId_ne_zero : sandbox.nextBlockId ≠ 0 :=
  sandbox.blocks.next_pos.ne'

/-- A result is found under the id that was next. -/
theorem block?_withResult (data : Bytes) :
    (withResult sandbox (some data)).block? (sandbox.nextBlockId : Nat) = some data :=
  (sandbox.blocks.get?_add data _).trans (if_pos rfl)

theorem addsResult_withResult {after : Sandbox} (kept : after.blocks = before.blocks)
    (told : outcome.result = some data) (encodes : Cbor.encode value = .ok data) :
    AddsResult before (withResult after outcome.result) (outcome.id before) value := by
  have named : outcome.id before = before.nextBlockId := by simp [Outcome.id, told]
  have next : before.nextBlockId = after.nextBlockId := by
    rw [Sandbox.nextBlockId, Sandbox.nextBlockId, kept]
  refine ⟨data, encodes, by rw [told, ← kept]; rfl, named, ?_, ?_, ?_⟩
  · rw [named]
    exact nextBlockId_ne_zero before
  · rw [named]
    exact before.blocks.get?_next
  · rw [named, next, told, block?_withResult]

theorem deliver_value (outcome : Outcome) (sandbox : Sandbox) :
    deliver outcome.value sandbox =
      (.ok (outcome.id sandbox), withResult sandbox outcome.result) := by
  obtain ⟨result, saved⟩ := outcome
  cases result with
  | some data => rfl
  | none =>
    rfl

/-- Dispatch runs the block of the selected entry point and delivers its value. -/
theorem dispatch_eq (tabled : (lower program symbol).table = some table)
    (selected : table.selected? method = some case) (params : Int) (sandbox : Sandbox) :
    machine.dispatch table method params sandbox =
      (machine.execute (lowerEntry case.entry table.actor.name) [] params >>= deliver)
        (invoked sandbox method) := by
  have chosen : method.toInt?.bind table.case? = some case := selected
  rw [← block_of_selected tabled selected, dispatch, Run.bind_apply, Run.modify_apply]
  simp only [chosen]
  rfl

/-- Dispatch breaks off where the selected entry point does. -/
theorem dispatch_of_breakdown (tabled : (lower program symbol).table = some table)
    (runs : machine.RunsOver (lower program symbol)) (selected : table.selected? method = some case)
    {sandbox : Sandbox}
    (evaluated : machine.evaluate case.entry params sandbox = .error breakdown) :
    ∃ lines, machine.dispatch table method params sandbox =
      (.error breakdown.stop, (invoked sandbox method).noted lines) ∧
      breakdown.RecordedIn lines := by
  have performs := execute_performs runs case.entry table.actor.name params
  obtain ⟨lines, ran, recorded⟩ := performs.outcome (invoked sandbox method)
  rw [performs.steady (invoked_agrees sandbox method), evaluated] at ran recorded
  refine ⟨lines, ?_, recorded breakdown rfl⟩
  rw [dispatch_eq tabled selected, Run.bind_apply, ran]

/-- Dispatch puts the outcome of the selected entry point in place. -/
theorem dispatch_of_outcome (tabled : (lower program symbol).table = some table)
    (runs : machine.RunsOver (lower program symbol)) (selected : table.selected? method = some case)
    {sandbox : Sandbox} (evaluated : machine.evaluate case.entry params sandbox = .ok outcome) :
    ∃ lines, machine.dispatch table method params sandbox =
      (.ok (outcome.id sandbox),
        withResult (((invoked sandbox method).commit outcome.saved).noted lines)
          outcome.result) := by
  have performs := execute_performs runs case.entry table.actor.name params
  obtain ⟨lines, ran, _⟩ := performs.outcome (invoked sandbox method)
  rw [performs.steady (invoked_agrees sandbox method), evaluated] at ran
  refine ⟨lines, ?_⟩
  have next : outcome.id (((invoked sandbox method).commit outcome.saved).noted lines) =
      outcome.id sandbox := by
    cases outcome.saved <;> rfl
  rw [dispatch_eq tabled selected, Run.bind_apply, ran, ← next]
  exact deliver_value outcome _

/-- A method number that no case has is an abort, and nothing else is done. -/
theorem dispatch_unselected (unselected : table.selected? method = none) (params : Int)
    (sandbox : Sandbox) :
    machine.dispatch table method params sandbox =
      (.error (.abort unhandledMessage (some "unrecognized method")),
        (invoked sandbox method).noted [Breakdown.line unhandledMessage]) := by
  have chosen : method.toInt?.bind table.case? = none := unselected
  rw [dispatch, Run.bind_apply, Run.modify_apply]
  simp only [chosen]
  rfl

/-- Nothing has changed but the log, which ends with the exit code of an abort unless the abort is
the answer of the method itself. -/
def Undone (machine : Machine) (table : DispatchTable) (method : Value) (params : Int)
    (before after : Sandbox) (stop : Stop) : Prop :=
  KeepsState before after ∧ after.blocks = before.blocks ∧
    after.nextBlockId = before.nextBlockId ∧
    ∀ exitCode message, stop = .abort exitCode message →
      after.log.getLast? = some ("ABORT:" ++ toString exitCode) ∨
      ∃ case receiver, table.selected? method = some case ∧
        machine.Calls case.entry params before receiver (.error stop)

/-- The method of the selected entry point has been called. What it left of its receiver is saved
if the entry point changes the state, and its result is added if one is declared. -/
def Done (machine : Machine) (table : DispatchTable) (method : Value) (params : Int)
    (before after : Sandbox) (id : Nat) : Prop :=
  ∃ case receiver value records, table.selected? method = some case ∧
    machine.Calls case.entry params before receiver (.ok (value, records)) ∧
    (if case.entry.mutability = .write then
      ∃ held, receiver = some held ∧ Saves before after (records.settle held)
    else KeepsState before after) ∧
    if case.entry.returns then AddsResult before after id (records.settle value)
    else after.blocks = before.blocks ∧ id = 0

/-- What a run breaks off with, and the lines of the log that it adds, leave everything undone. -/
theorem undone_of_breakdown (selected : table.selected? method = some case) {lines : List String}
    (evaluated : machine.evaluate case.entry params before = .error breakdown)
    (recorded : breakdown.RecordedIn lines) :
    machine.Undone table method params before ((invoked before method).noted lines)
      breakdown.stop := by
  refine ⟨⟨rfl, rfl⟩, rfl, rfl, fun exitCode message same => ?_⟩
  cases breakdown with
  | aborted code text =>
    cases same
    have last : lines.getLast? = some (Breakdown.line exitCode) := recorded
    rw [Sandbox.noted_log, List.getLast?_append, last]
    exact .inl rfl
  | raised stop =>
    obtain rfl : stop = .abort exitCode message := same
    obtain ⟨receiver, calls⟩ := machine.calls_of_raised_abort case.entry evaluated
    exact .inr ⟨case, receiver, selected, calls⟩

/-- An outcome that is put in place is done. -/
theorem done_of_outcome (selected : table.selected? method = some case)
    (evaluated : machine.evaluate case.entry params before = .ok outcome) (lines : List String) :
    machine.Done table method params before
      (withResult (((invoked before method).commit outcome.saved).noted lines) outcome.result)
      (outcome.id before) := by
  obtain ⟨receiver, value, records, calls, encodes, saves⟩ := evaluate_eq_ok evaluated
  refine ⟨case, receiver, value, records, selected, calls, ?_, ?_⟩
  · split
    · rw [if_pos (by assumption)] at saves
      obtain ⟨held, saved, received, told, saves⟩ := saves
      rw [told]
      exact ⟨held, received, saves⟩
    · rw [if_neg (by assumption)] at saves
      rw [saves]
      exact ⟨rfl, rfl⟩
  · split
    · rw [if_pos (by assumption)] at encodes
      obtain ⟨data, encodes, told⟩ := encodes
      exact addsResult_withResult (by cases outcome.saved <;> rfl) told encodes
    · rw [if_neg (by assumption)] at encodes
      rw [Outcome.id, encodes]
      exact ⟨by cases outcome.saved <;> rfl, rfl⟩

/-- Dispatch is done as a whole or not at all, and the log only grows. -/
theorem dispatch_done_or_undone (tabled : (lower program symbol).table = some table)
    (runs : machine.RunsOver (lower program symbol)) (method : Value) (params : Int)
    (before : Sandbox) :
    ∃ result after, machine.dispatch table method params before = (result, after) ∧
      before.log <+: after.log ∧
      (∀ stop, result = .error stop →
        machine.Undone table method params before after stop) ∧
      ∀ id, result = .ok id → machine.Done table method params before after id := by
  cases selected : table.selected? method with
  | none =>
      refine ⟨_, _, dispatch_unselected selected params before, List.prefix_append _ _, ?_, ?_⟩
      · intro stop stopped
        cases stopped
        refine ⟨⟨rfl, rfl⟩, rfl, rfl, fun exitCode message same => .inl ?_⟩
        cases same
        simp [Breakdown.line]
      · intro id succeeded
        cases succeeded
  | some case =>
      cases evaluated : machine.evaluate case.entry params before with
      | error breakdown =>
          obtain ⟨lines, ran, recorded⟩ := dispatch_of_breakdown tabled runs selected evaluated
          refine ⟨_, _, ran, List.prefix_append _ _, ?_, ?_⟩
          · intro stop stopped
            cases stopped
            exact undone_of_breakdown selected evaluated recorded
          · intro id succeeded
            cases succeeded
      | ok outcome =>
          obtain ⟨lines, ran⟩ := dispatch_of_outcome tabled runs selected evaluated
          refine ⟨_, _, ran, ?_, ?_, ?_⟩
          · cases outcome.saved <;> exact List.prefix_append _ _
          · intro stop stopped
            cases stopped
          · intro id succeeded
            cases succeeded
            exact done_of_outcome selected evaluated lines

end Dispatch

/-- A counter with a method that adds to it. -/
def counterProgram : Program :=
  { states := [⟨"Counter", "Counter", [⟨"count", "u64"⟩], .dagCbor⟩]
    actor := some ⟨"Counter", .methodNumber,
      [⟨"add", ⟨2, by decide⟩, .write, true, [⟨"amount", false, "u64"⟩]⟩]⟩ }

/-- The machine of the counter; the stand-in gives back what it is called with. -/
def counterMachine : Machine :=
  { interface := (lower counterProgram invokeSymbol).interfaces.head?
    stateClass := some ⟨"Counter", ["count"]⟩
    methods := [("add", fun arguments => pure (.list arguments))] }

theorem counterMachine_runsOver :
    counterMachine.RunsOver (lower counterProgram invokeSymbol) := by
  intro interface found
  exact List.mem_of_mem_head? found

/-- A counter with a state and with a block of arguments. -/
def counterSandbox : Sandbox :=
  (counterMachine.saveState (.record "Counter" [("count", .int 7)])
    (Sandbox.putBlock [0x81, 0x05] {}).2).2

/-- Arguments that decode well do not help a counter without a state. With one, the state is saved
again and the result is added. -/
theorem dispatch_done_or_undone_counter :
    ∃ table after done, (lower counterProgram invokeSymbol).table = some table ∧
      counterMachine.RunsOver (lower counterProgram invokeSymbol) ∧
      counterMachine.dispatch table (.int 2) 1 (Sandbox.putBlock [0x81, 0x05] {}).2 =
        (.error (.abort illegalState
          (some "failed to get root: IllegalOperation: actor has no state root")), after) ∧
      counterMachine.Undone table (.int 2) 1 (Sandbox.putBlock [0x81, 0x05] {}).2 after
        (.abort illegalState
          (some "failed to get root: IllegalOperation: actor has no state root")) ∧
      counterMachine.dispatch table (.int 2) 1 counterSandbox = (.ok 2, done) ∧
      counterMachine.Done table (.int 2) 1 counterSandbox done 2 := by
  have runs := counterMachine_runsOver
  obtain ⟨result, after, ran, _, undone, _⟩ := dispatch_done_or_undone rfl runs (.int 2) 1
    (Sandbox.putBlock [0x81, 0x05] {}).2
  obtain rfl : result = .error (.abort illegalState
      (some "failed to get root: IllegalOperation: actor has no state root")) :=
    (congrArg Prod.fst ran).symm.trans rfl
  obtain ⟨result, stored, ranStored, _, _, done⟩ := dispatch_done_or_undone rfl runs (.int 2) 1
    counterSandbox
  have returned : result.toOption = some 2 :=
    (congrArg (·.1.toOption) ranStored).symm.trans (by decide +kernel)
  cases result with
  | error stop => cases returned
  | ok id =>
    cases returned
    exact ⟨_, after, stored, rfl, runs, ran, undone _ rfl, ranStored, done _ rfl⟩

end Machine

end ActorGlue
