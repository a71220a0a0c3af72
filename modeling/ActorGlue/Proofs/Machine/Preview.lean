import Mathlib
import ActorGlue.Machine.Basic

/-!
# Previews of runs

Most steps of a block read the sandbox and change nothing in it but the log. What such a run comes
to can be told beforehand from the sandbox alone: its preview is a value, or the reason why the run
breaks off. A preview also tells an abort by a step of the block, which the log records, from a
failure that merely passes through.
-/

namespace ActorGlue

variable (sandbox : Sandbox)

namespace Sandbox

variable (lines : List String)

/-- The sandbox with lines added to its log. -/
def noted (sandbox : Sandbox) (lines : List String) : Sandbox :=
  { sandbox with log := sandbox.log ++ lines }

@[simp] theorem noted_root :
    (sandbox.noted lines).root = sandbox.root := rfl

@[simp] theorem noted_store :
    (sandbox.noted lines).store = sandbox.store := rfl

@[simp] theorem noted_blocks :
    (sandbox.noted lines).blocks = sandbox.blocks := rfl

@[simp] theorem noted_log :
    (sandbox.noted lines).log = sandbox.log ++ lines := rfl

@[simp] theorem noted_nil : sandbox.noted [] = sandbox := by
  simp [noted]

@[simp] theorem noted_noted (first second : List String) :
    (sandbox.noted first).noted second = sandbox.noted (first ++ second) := by
  simp [noted]

/-- The sandbox after a state was saved, if one was: its address is the root, and the store is the
one that has its block. -/
def commit (sandbox : Sandbox) : Option (Cid × Store) → Sandbox
  | none => sandbox
  | some (cid, store) => { sandbox with root := some (.cid cid), store := store }

@[simp] theorem commit_none : sandbox.commit none = sandbox := rfl

/-- Two sandboxes differ at most in the log and the method number. -/
structure Agrees (first second : Sandbox) : Prop where
  store : first.store = second.store
  root : first.root = second.root
  blocks : first.blocks = second.blocks

theorem noted_agrees : (sandbox.noted lines).Agrees sandbox :=
  ⟨rfl, rfl, rfl⟩

theorem commit_noted (saved : Option (Cid × Store)) (lines : List String) :
    (sandbox.noted lines).commit saved = (sandbox.commit saved).noted lines := by
  cases saved <;> rfl

end Sandbox

namespace Run

variable {α β : Type}

/-- A sequence of runs goes on where the first one ends, unless that one stopped. -/
theorem bind_apply (run : Run α) (next : α → Run β) (sandbox : Sandbox) :
    (run >>= next) sandbox =
      match run sandbox with
      | (.ok value, after) => next value after
      | (.error stop, after) => (.error stop, after) := by
  change StateT.bind run (ExceptT.bindCont next) sandbox = _
  rcases h : run sandbox with ⟨_ | _, after⟩ <;>
    simp only [StateT.bind, h, ExceptT.bindCont, bind, pure, StateT.pure]

@[simp] theorem pure_apply (value : α) (sandbox : Sandbox) :
    (pure value : Run α) sandbox = (.ok value, sandbox) := rfl

@[simp] theorem throw_apply (stop : Stop) (sandbox : Sandbox) :
    (throw stop : Run α) sandbox = (.error stop, sandbox) := rfl

@[simp] theorem get_apply :
    (get : Run Sandbox) sandbox = (.ok sandbox, sandbox) := rfl

@[simp] theorem modify_apply (change : Sandbox → Sandbox) (sandbox : Sandbox) :
    (modify change : Run PUnit) sandbox = (.ok ⟨⟩, change sandbox) := rfl

@[simp] theorem liftM_apply (result : Except Stop α) (sandbox : Sandbox) :
    (liftM result : Run α) sandbox = (result, sandbox) := by
  cases result <;> rfl

theorem liftM_ok (value : α) : (liftM (.ok value : Except Stop α) : Run α) = pure value := rfl

@[simp] theorem attempt_apply (run : Run α) (sandbox : Sandbox) :
    Machine.attempt run sandbox = (.ok (run sandbox).1, (run sandbox).2) := rfl

@[simp] theorem note_apply (line : String) (sandbox : Sandbox) :
    Sandbox.note line sandbox = (.ok ⟨⟩, sandbox.noted [line]) := rfl

end Run

/-- Why a run breaks off: one of its steps aborts it, or a failure that no step expects comes out
as it is. -/
inductive Breakdown where
  | aborted (exitCode : Int) (message : String)
  | raised (stop : Stop)

namespace Breakdown

/-- What a run that breaks off stops with. -/
def stop : Breakdown → Stop
  | .aborted exitCode message => .abort exitCode (some message)
  | .raised stop => stop

/-- The line that records an abort. -/
def line (exitCode : Int) : String :=
  "ABORT:" ++ toString exitCode

/-- The lines end with the record of the abort, if a step aborted the run. -/
def RecordedIn : Breakdown → List String → Prop
  | .aborted exitCode _, lines => lines.getLast? = some (line exitCode)
  | .raised _, _ => True

theorem RecordedIn.append {breakdown : Breakdown} {lines : List String}
    (recorded : breakdown.RecordedIn lines) (before : List String) :
    breakdown.RecordedIn (before ++ lines) := by
  cases breakdown with
  | raised _ => trivial
  | aborted exitCode _ =>
    have last : lines.getLast? = some (line exitCode) := recorded
    change (before ++ lines).getLast? = some (line exitCode)
    rw [List.getLast?_append, last, Option.some_or]

end Breakdown

/-- What a run comes to, told from the sandbox it starts in. -/
abbrev Preview := ReaderT Sandbox (Except Breakdown)

theorem Preview.bind_apply {α β : Type} (preview : Preview α) (next : α → Preview β)
    (sandbox : Sandbox) :
    (preview >>= next) sandbox = (preview sandbox).bind fun value => next value sandbox := rfl

theorem Preview.bind_eq_ok {α β : Type} {preview : Preview α} {next : α → Preview β}
    {sandbox : Sandbox} {found : β} :
    (preview >>= next) sandbox = .ok found ↔
      ∃ value, preview sandbox = .ok value ∧ next value sandbox = .ok found := by
  rw [Preview.bind_apply]
  cases preview sandbox <;> simp [Except.bind]

theorem Preview.bind_eq_error {α β : Type} {preview : Preview α} {next : α → Preview β}
    {sandbox : Sandbox} {breakdown : Breakdown} :
    (preview >>= next) sandbox = .error breakdown ↔ preview sandbox = .error breakdown ∨
      ∃ value, preview sandbox = .ok value ∧ next value sandbox = .error breakdown := by
  rw [Preview.bind_apply]
  cases preview sandbox <;> simp [Except.bind]

/-- A run breaks off where the preview does, with nothing changed but the log. Otherwise `done`
tells from what the preview found the value of the run and the state that it saved, if any. The
preview depends neither on the log nor on the method number. -/
structure Performs {α γ : Type} (run : Run α) (preview : Preview γ)
    (done : γ → α × Option (Cid × Store)) : Prop where
  outcome : ∀ sandbox, ∃ lines,
    run sandbox =
      (match preview sandbox with
        | .ok found => (.ok (done found).1, (sandbox.commit (done found).2).noted lines)
        | .error breakdown => (.error breakdown.stop, sandbox.noted lines)) ∧
      ∀ breakdown, preview sandbox = .error breakdown → breakdown.RecordedIn lines
  steady : ∀ {first second : Sandbox}, first.Agrees second → preview first = preview second

/-- A run comes to what the preview says, and changes nothing but the log. -/
abbrev Reads {α : Type} (run : Run α) (preview : Preview α) : Prop :=
  Performs run preview fun value => (value, none)

namespace Performs

variable {α β γ : Type} {done : γ → β × Option (Cid × Store)}

/-- After a run that reads, another run goes on as if it had started in the same sandbox. It has
to be known only after values that the first run can come to. -/
theorem bind {run : Run α} {preview : Preview α} {next : α → Run β} {nextPreview : α → Preview γ}
    (first : Reads run preview)
    (second : ∀ value, (∃ sandbox, preview sandbox = .ok value) →
      Performs (next value) (nextPreview value) done) :
    Performs (run >>= next) (preview >>= nextPreview) done := by
  have opened := Preview.bind_apply preview nextPreview
  constructor
  · intro sandbox
    obtain ⟨lines, ran, recorded⟩ := first.outcome sandbox
    rw [Run.bind_apply, ran, opened]
    cases h : preview sandbox with
    | error breakdown =>
      exact ⟨lines, rfl, fun _ same => by cases same; exact recorded breakdown h⟩
    | ok value =>
      have performs := second value ⟨sandbox, h⟩
      obtain ⟨more, ranNext, recordedNext⟩ := performs.outcome (sandbox.noted lines)
      rw [performs.steady (sandbox.noted_agrees lines)] at ranNext recordedNext
      refine ⟨lines ++ more, ?_, fun breakdown failed => ?_⟩
      · simp only [Except.bind, Sandbox.commit_none]
        rw [ranNext]
        simp only [Sandbox.commit_noted, Sandbox.noted_noted]
      · exact (recordedNext breakdown failed).append lines
  · intro one other agrees
    rw [opened, opened, first.steady agrees]
    cases h : preview other with
    | error breakdown => rfl
    | ok value => exact (second value ⟨other, h⟩).steady agrees

/-- A line in the log does not show in the preview. -/
theorem note_bind {line : String} {next : Unit → Run β} {preview : Preview γ}
    (performs : Performs (next ()) preview done) :
    Performs (Sandbox.note line >>= next) preview done := by
  refine ⟨fun sandbox => ?_, performs.steady⟩
  obtain ⟨lines, ran, recorded⟩ := performs.outcome (sandbox.noted [line])
  rw [performs.steady (sandbox.noted_agrees [line])] at ran recorded
  refine ⟨[line] ++ lines, ?_, fun breakdown failed => (recorded breakdown failed).append _⟩
  rw [Run.bind_apply, Run.note_apply]
  simp only [ran, Sandbox.commit_noted, Sandbox.noted_noted]

/-- A value that is returned after the run in place of its own. -/
theorem note_pure {run : Run α} {preview : Preview γ} {made : γ → α × Option (Cid × Store)}
    (performs : Performs run preview made) (line : String) (value : β) :
    Performs (run >>= fun _ => Sandbox.note line >>= fun _ => pure value) preview
      fun found => (value, (made found).2) := by
  refine ⟨fun sandbox => ?_, performs.steady⟩
  obtain ⟨lines, ran, recorded⟩ := performs.outcome sandbox
  rw [Run.bind_apply, ran]
  cases h : preview sandbox with
  | error breakdown =>
    exact ⟨lines, rfl, fun _ failed => by cases failed; exact recorded _ h⟩
  | ok found =>
    refine ⟨lines ++ [line], ?_, fun _ failed => by cases failed⟩
    simp only [Run.bind_apply, Run.note_apply, Run.pure_apply, Sandbox.noted_noted]

/-- What a preview finds can be told in other words. -/
theorem map {run : Run β} {found : Type} {preview : Preview found} {told : found → γ}
    (performs : Performs run preview fun value => done (told value)) :
    Performs run (preview >>= fun value => pure (told value)) done := by
  have opened : ∀ sandbox, (preview >>= fun value => pure (told value)) sandbox =
      (preview sandbox).bind fun value => .ok (told value) :=
    Preview.bind_apply preview fun value => Pure.pure (told value)
  refine ⟨fun sandbox => ?_, fun agrees => by rw [opened, opened, performs.steady agrees]⟩
  obtain ⟨lines, ran, recorded⟩ := performs.outcome sandbox
  rw [ran, opened]
  cases h : preview sandbox with
  | error breakdown =>
    exact ⟨lines, rfl, fun _ failed => by cases failed; exact recorded _ h⟩
  | ok value => exact ⟨lines, rfl, fun _ failed => by cases failed⟩

theorem pure (found : γ) (unsaved : (done found).2 = none) :
    Performs (pure (done found).1) (pure found) done := by
  refine ⟨fun sandbox => ⟨[], ?_, fun _ failed => by cases failed⟩, fun _ => rfl⟩
  change _ = (Except.ok (done found).1, (sandbox.commit (done found).2).noted [])
  rw [unsaved, Sandbox.commit_none, Sandbox.noted_nil]
  rfl

theorem raise (stop : Stop) : Performs (throw stop) (throw (.raised stop)) done := by
  refine ⟨fun sandbox => ⟨[], ?_, fun breakdown failed => ?_⟩, fun _ => rfl⟩
  · simp only [Sandbox.noted_nil]
    rfl
  · cases failed
    trivial

end Performs

namespace Reads

variable {α β : Type}

theorem pure (value : α) : Reads (pure value) (pure value) :=
  @Performs.pure α α (fun value => (value, none)) value rfl

/-- A result that the sandbox has no part in. -/
theorem lift (result : Except Stop α) :
    Reads (liftM result : Run α) (fun _ => result.mapError .raised) := by
  cases result with
  | ok value => exact pure value
  | error stop => exact Performs.raise stop

end Reads

end ActorGlue
