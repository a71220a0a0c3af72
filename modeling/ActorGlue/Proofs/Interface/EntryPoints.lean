import ActorGlue.Proofs.Expansion.Reports
import ActorGlue.Proofs.Outcome

/-!
# Which methods are entry points

A method declares an entry point if it has no generic parameters, everyone may see it, it has a
binding, and each of its parameters behind the receiver is a name with a decodable type. Otherwise
it fails at the first of these conditions. An actor has the entry points of all its exported
methods, or it fails with the failures of all of them.
-/

namespace ActorGlue

variable {diagnostic : Diagnostic}

section Definitions

/-- The argument that a parameter declares. Its pattern is a name; a reference is taken for the
value, and a pattern behind the name does not count. -/
inductive MethodInput.Declares : MethodInput Span → Argument → Prop where
  | typed {input : TypedInput Span} {argument : Argument} {place : Span} {byRef : Bool}
      {inside : Option String}
      (pattern : input.pattern = .ident place argument.name argument.mutable byRef inside)
      (decodable : input.ty.Decodable) (type : argument.type = input.ty.render) :
      (MethodInput.typed input).Declares argument

/-- Why a parameter declares nothing. -/
inductive MethodInput.Fails : MethodInput Span → Diagnostic → Prop where
  | receiver {self : Receiver Span} :
      (MethodInput.receiver self).Fails (.atSpan .argumentReceiver self.place)
  | pattern {input : TypedInput Span} {place : Span} {text : String}
      (other : input.pattern = .other place text) :
      (MethodInput.typed input).Fails (.atSpan .argumentPattern place)
  | type {input : TypedInput Span} {place : Span} {name : String} {mutable byRef : Bool}
      {inside : Option String} {rejection : TypeRejection Span}
      (pattern : input.pattern = .ident place name mutable byRef inside)
      (blames : input.ty.Blames rejection) :
      (MethodInput.typed input).Fails (.atSpan rejection.fault rejection.place)

/-- The method has no generic parameters, and everyone may see it. -/
structure Method.Open (method : Method Span) : Prop where
  generics : method.generics.params = []
  visible : ∃ place, method.visibility = .everyone place

/-- The entry point that a method declares. -/
structure Method.Declares (method : Method Span) (marks : Annotation) (entry : EntryPoint) :
    Prop where
  isOpen : method.Open
  binding : marks.binding? = some (.number entry.binding)
  name : entry.method = method.name
  mutability : entry.mutability = method.mutability
  returns : entry.returns = method.output.isSome
  arguments : List.Forall₂ MethodInput.Declares method.arguments entry.arguments

/-- The first of the conditions on an entry point that a method does not meet. -/
inductive Method.Fails (method : Method Span) (dispatch : Dispatch) (marks : Annotation) :
    Diagnostic → Prop where
  | generics (some : method.generics.params ≠ []) : method.Fails dispatch marks
      (.atSpan (.entryPointGenerics method.name) (method.generics.place.getD ⟨0, 0⟩))
  | visibility (generics : method.generics.params = [])
      (hidden : ∀ place, method.visibility ≠ .everyone place) : method.Fails dispatch marks
      (.atSpan (.entryPointPrivate method.name) method.place)
  | binding (isOpen : method.Open) (missing : marks.binding? = none) : method.Fails dispatch marks
      (.atSpan (.missingBinding method.name) method.place)
  | argument {binding : Binding} {diagnostic : Diagnostic} (isOpen : method.Open)
      (bound : marks.binding? = some binding)
      (fails : FirstBad (fun input => ∃ argument, input.Declares argument) MethodInput.Fails
        method.arguments diagnostic) : method.Fails dispatch marks diagnostic
  | shape {word : String} {arguments : List Argument} (isOpen : method.Open)
      (bound : marks.binding? = some (.word word))
      (declares : List.Forall₂ MethodInput.Declares method.arguments arguments) :
      method.Fails dispatch marks
        (.atSpan (.bindingMismatch method.name dispatch.bindingShape) method.place)

/-- A member that is an exported method, with the attribute that exports it. -/
def Member.exported? : Member Span → Option (Method Span × Attribute Span)
  | .method found => found.exportAttribute?.map (found, ·)
  | .other _ => none

/-- What comes of the exported methods among the members, one after the other: each of them gives
an entry point or a failure. -/
def Member.Outcomes (text : List Char) (dispatch : Dispatch) (members : List (Member Span)) :
    List (Except Diagnostic EntryPoint) → Prop :=
  List.Forall₂ (fun exported outcome => exported.1.exported text dispatch exported.2 = .ok outcome)
    (members.filterMap Member.exported?)

/-- The failures among what came of the exported methods. -/
def failuresOf : List (Except Diagnostic EntryPoint) → List Diagnostic
  | [] => []
  | .ok _ :: rest => failuresOf rest
  | .error failure :: rest => failure :: failuresOf rest

/-- The entry points among what came of the exported methods. -/
def entriesOf : List (Except Diagnostic EntryPoint) → List EntryPoint
  | [] => []
  | .ok entry :: rest => entry :: entriesOf rest
  | .error _ :: rest => entriesOf rest

end Definitions

section Arguments

/-! ## Arguments -/

theorem Ty.settles_descriptor (ty : Ty Span) :
    Settles ty.descriptor (fun text => ty.Decodable ∧ text = ty.render) ty.Blames := by
  constructor
  · intro text
    rw [Ty.descriptor_eq_ok, ty.judges_check.passes]
  · intro rejection
    rw [Ty.descriptor_eq_error, ty.judges_check.finds]

theorem MethodInput.settles_argument (input : MethodInput Span) :
    Settles input.argument input.Declares input.Fails := by
  cases input with
  | receiver self =>
    apply Settles.error
    · rintro argument ⟨⟩
    · intro diagnostic
      constructor
      · rintro ⟨⟩
        rfl
      · rintro rfl
        exact .receiver
  | typed input =>
    cases pattern : input.pattern with
    | other place text =>
      rw [MethodInput.argument, pattern]
      apply Settles.error
      · rintro argument ⟨same⟩
        cases pattern.symm.trans same
      · intro diagnostic
        constructor
        · rintro (_ | other | same)
          · cases pattern.symm.trans other
            rfl
          · cases pattern.symm.trans same
        · rintro rfl
          exact .pattern pattern
    | ident place name mutable byRef inside =>
      have split : (MethodInput.typed input).argument =
          (input.ty.descriptor.map (⟨name, mutable, ·⟩)).mapError
            fun rejection => .atSpan rejection.fault rejection.place := by
        rw [MethodInput.argument, pattern]
        cases input.ty.descriptor <;> rfl
      rw [split]
      apply input.ty.settles_descriptor.map.mapError.congr
      · intro argument
        constructor
        · rintro ⟨_, ⟨decodable, rfl⟩, rfl⟩
          exact .typed pattern decodable rfl
        · rintro ⟨same, decodable, type⟩
          cases pattern.symm.trans same
          exact ⟨_, ⟨decodable, type⟩, rfl⟩
      · intro diagnostic
        constructor
        · rintro ⟨rejection, blames, rfl⟩
          exact .type pattern blames
        · rintro (_ | other | ⟨-, blames⟩)
          · cases pattern.symm.trans other
          · exact ⟨_, blames, rfl⟩

variable {α β ε : Type} {f : α → Except ε β} {gives : α → β → Prop} {fails : α → ε → Prop}

/-- Values that are computed one after the other fail at the first one that does. -/
theorem settles_mapM (settles : ∀ value, Settles (f value) (gives value) (fails value))
    (values : List α) : Settles (values.mapM f) (List.Forall₂ gives values)
      (FirstBad (fun value => ∃ result, gives value result) fails values) := by
  induction values with
  | nil =>
    apply Settles.ok
    · simp
    · exact not_firstBad_nil
  | cons value values ih =>
    rw [List.mapM_cons]
    have later (result : β) (_ : gives value result) :
        Settles (values.mapM f >>= fun results => pure (result :: results))
          (fun results => ∃ others, List.Forall₂ gives values others ∧ results = result :: others)
          (FirstBad (fun value => ∃ result, gives value result) fails values) :=
      ih.map
    apply ((settles value).bind later).congr
    · intro results
      rw [List.forall₂_cons_left_iff]
      constructor
      · rintro ⟨result, given, others, all, rfl⟩
        exact ⟨result, others, given, all, rfl⟩
      · rintro ⟨result, others, given, all, rfl⟩
        exact ⟨result, given, others, all, rfl⟩
    · intro fault
      rw [firstBad_cons, exists_and_right]

end Arguments

section Methods

/-! ## Methods -/

variable {method : Method Span} {dispatch : Dispatch} {marks : Annotation}

theorem Visibility.isPublic_iff {visibility : Visibility Span} :
    visibility.isPublic ↔ ∃ place, visibility = .everyone place := by
  cases visibility <;> simp [Visibility.isPublic]

theorem Method.entryPoint_generics (some : method.generics.params ≠ []) :
    method.entryPoint dispatch marks = .error
      (.atSpan (.entryPointGenerics method.name) (method.generics.place.getD ⟨0, 0⟩)) := by
  have refused : method.generics.params.isEmpty = false := by simpa using some
  simp only [Method.entryPoint, Generics.refuse, refused]
  rfl

theorem Method.entryPoint_hidden (generics : method.generics.params = [])
    (hidden : ∀ place, method.visibility ≠ .everyone place) :
    method.entryPoint dispatch marks =
      .error (.atSpan (.entryPointPrivate method.name) method.place) := by
  have refused : method.visibility.isPublic = false := by
    rw [← Bool.not_eq_true, Visibility.isPublic_iff, not_exists]
    exact hidden
  simp only [Method.entryPoint, Generics.refuse, generics, refused]
  rfl

theorem Method.Open.entryPoint_eq (isOpen : method.Open) :
    method.entryPoint dispatch marks = match marks.binding? with
      | none => .error (.atSpan (.missingBinding method.name) method.place)
      | some binding => method.arguments.mapM (·.argument) >>= fun arguments =>
        match binding with
        | .number number =>
          .ok ⟨method.name, number, method.mutability, method.output.isSome, arguments⟩
        | .word _ => .error
            (.atSpan (.bindingMismatch method.name dispatch.bindingShape) method.place) := by
  have admitted : method.visibility.isPublic = true := Visibility.isPublic_iff.mpr isOpen.visible
  simp only [Method.entryPoint, Generics.refuse, isOpen.generics, admitted]
  cases marks.binding? with
  | none => rfl
  | some binding => cases binding <;> rfl

/-- What an open method fails with: its binding is missing, or an argument is bad, or its binding
has another shape. -/
theorem Method.Open.fails_iff (isOpen : method.Open) :
    method.Fails dispatch marks diagnostic ↔
      (marks.binding? = none ∧
        diagnostic = .atSpan (.missingBinding method.name) method.place) ∨
      (∃ binding, marks.binding? = some binding) ∧ FirstBad
        (fun input => ∃ argument, input.Declares argument) MethodInput.Fails method.arguments
        diagnostic ∨
      ∃ word, marks.binding? = some (.word word) ∧
        ∃ arguments, List.Forall₂ MethodInput.Declares method.arguments arguments ∧
          diagnostic =
            .atSpan (.bindingMismatch method.name dispatch.bindingShape) method.place := by
  constructor
  · intro fails
    cases fails with
    | generics some => exact absurd isOpen.generics some
    | visibility _ hidden =>
      obtain ⟨place, visible⟩ := isOpen.visible
      exact absurd visible (hidden place)
    | binding _ missing => exact .inl ⟨missing, rfl⟩
    | argument _ bound fails => exact .inr (.inl ⟨⟨_, bound⟩, fails⟩)
    | shape _ bound declares => exact .inr (.inr ⟨_, bound, _, declares, rfl⟩)
  · rintro (⟨missing, rfl⟩ | ⟨⟨binding, bound⟩, fails⟩ | ⟨word, bound, arguments, declares, rfl⟩)
    · exact .binding isOpen missing
    · exact .argument isOpen bound fails
    · exact .shape isOpen bound declares

theorem Method.Open.settles_entryPoint (isOpen : method.Open) :
    Settles (method.entryPoint dispatch marks) (method.Declares marks)
      (method.Fails dispatch marks) := by
  have arguments := settles_mapM MethodInput.settles_argument method.arguments
  rw [isOpen.entryPoint_eq]
  cases bound : marks.binding? with
  | none =>
    apply Settles.error
    · intro entry declares
      cases bound.symm.trans declares.binding
    · intro diagnostic
      simp [isOpen.fails_iff, bound]
  | some binding =>
    cases binding with
    | number number =>
      apply arguments.map.congr
      · intro entry
        constructor
        · rintro ⟨_, declares, rfl⟩
          exact ⟨isOpen, bound, rfl, rfl, rfl, declares⟩
        · rintro ⟨-, same, name, mutability, returns, declares⟩
          cases bound.symm.trans same
          refine ⟨_, declares, ?_⟩
          rw [← name, ← mutability, ← returns]
      · intro diagnostic
        simp [isOpen.fails_iff, bound]
    | word word =>
      have mismatched (results : List Argument)
          (_ : List.Forall₂ MethodInput.Declares method.arguments results) :=
        Settles.fail EntryPoint (Diagnostic.atSpan
          (.bindingMismatch method.name dispatch.bindingShape) method.place)
      apply (arguments.bind mismatched).congr
      · intro entry
        constructor
        · rintro ⟨_, -, ⟨⟩⟩
        · intro declares
          cases bound.symm.trans declares.binding
      · intro diagnostic
        simp [isOpen.fails_iff, bound]

theorem Method.settles_entryPoint (method : Method Span) (dispatch : Dispatch)
    (marks : Annotation) :
    Settles (method.entryPoint dispatch marks) (method.Declares marks)
      (method.Fails dispatch marks) := by
  by_cases isOpen : method.Open
  · exact isOpen.settles_entryPoint
  · -- A method that is not open declares nothing, and no later condition is looked at.
    have never (entry : EntryPoint) : ¬method.Declares marks entry := fun declares =>
      isOpen declares.isOpen
    by_cases generics : method.generics.params = []
    · have hidden : ∀ place, method.visibility ≠ .everyone place := by
        intro place visible
        exact isOpen ⟨generics, place, visible⟩
      rw [Method.entryPoint_hidden generics hidden]
      refine .error never fun diagnostic => ⟨?_, ?_⟩
      · intro fails
        cases fails with
        | generics some => exact absurd generics some
        | visibility => rfl
        | binding isOpen' | argument isOpen' | shape isOpen' => exact absurd isOpen' isOpen
      · rintro rfl
        exact .visibility generics hidden
    · rw [Method.entryPoint_generics generics]
      refine .error never fun diagnostic => ⟨?_, ?_⟩
      · intro fails
        cases fails with
        | generics => rfl
        | visibility none => exact absurd none generics
        | binding isOpen' | argument isOpen' | shape isOpen' => exact absurd isOpen' isOpen
      · rintro rfl
        exact .generics generics

end Methods

section Actors

/-! ## Actors -/

variable {text : List Char} {dispatch : Dispatch} {member : Member Span}
  {members : List (Member Span)} {outcomes : List (Except Diagnostic EntryPoint)}
variable {method : Method Span} {marks : Annotation} {a : Attribute Span}
  {failures : List Diagnostic}

theorem Member.outcomes_skip (skipped : member.exported? = none) :
    Member.Outcomes text dispatch (member :: members) outcomes ↔
      Member.Outcomes text dispatch members outcomes := by
  rw [Member.Outcomes, Member.Outcomes, List.filterMap_cons_none skipped]

theorem Member.outcomes_cons (exported : member.exported? = some (method, a)) :
    Member.Outcomes text dispatch (member :: members) outcomes ↔ ∃ outcome others,
      method.exported text dispatch a = .ok outcome ∧
        Member.Outcomes text dispatch members others ∧ outcomes = outcome :: others := by
  rw [Member.Outcomes, List.filterMap_cons_some exported, List.forall₂_cons_left_iff]
  rfl

theorem Member.exports_eq (all : Member.Outcomes text dispatch members outcomes) :
    Member.exports text dispatch members = .ok (entriesOf outcomes, failuresOf outcomes) := by
  induction members generalizing outcomes with
  | nil =>
    cases all
    rfl
  | cons member members ih =>
    cases member with
    | other item => exact ih ((Member.outcomes_skip rfl).mp all)
    | method method =>
      rw [Member.exports_method]
      cases found : method.exportAttribute? with
      | none => exact ih ((Member.outcomes_skip (by simp [Member.exported?, found])).mp all)
      | some a =>
        have exported : (Member.method method).exported? = some (method, a) := by
          simp [Member.exported?, found]
        obtain ⟨outcome, others, given, rest, rfl⟩ := (Member.outcomes_cons exported).mp all
        dsimp only
        rw [given, ih rest]
        cases outcome <;> rfl

/-- An exported method whose annotation has tokens gives something. -/
theorem Method.exists_exported (tokenized : a.Tokenized text) :
    ∃ outcome, method.exported text dispatch a = .ok outcome := by
  have reports := Attribute.exportAnnotation_reports tokenized
  unfold Method.exported
  split
  · exact ⟨_, rfl⟩
  · exact ⟨_, rfl⟩
  · rename_i halted
    exact (reports _ halted).elim

theorem Member.exists_outcomes
    (tokenized : ∀ member ∈ members, ∀ a ∈ member.attributes, a.Tokenized text) :
    ∃ outcomes, Member.Outcomes text dispatch members outcomes := by
  induction members with
  | nil => exact ⟨[], .nil⟩
  | cons member members ih =>
    obtain ⟨own, others⟩ := List.forall_mem_cons.mp tokenized
    obtain ⟨outcomes, all⟩ := ih others
    cases exported : member.exported? with
    | none => exact ⟨outcomes, (Member.outcomes_skip exported).mpr all⟩
    | some found =>
      obtain ⟨method, a⟩ := found
      have among : a ∈ member.attributes := by
        cases member with
        | other item => cases exported
        | method own =>
          obtain ⟨_, found, same⟩ := Option.map_eq_some_iff.mp exported
          cases same
          exact List.mem_of_find?_eq_some found
      obtain ⟨outcome, given⟩ := Method.exists_exported (own a among)
      exact ⟨outcome :: outcomes,
        (Member.outcomes_cons exported).mpr ⟨outcome, outcomes, given, all, rfl⟩⟩

theorem leavesAll_of_isFault (all : ∀ failure ∈ failures, failure.IsFault) :
    (Diagnostic.leavesAll failures).map .leaf = failures := by
  induction failures with
  | nil => simp [Diagnostic.leavesAll]
  | cons failure failures ih =>
    obtain ⟨⟨fault, place, rfl⟩, others⟩ := List.forall_mem_cons.mp all
    simp [Diagnostic.leavesAll, Diagnostic.leaves, Diagnostic.ofFault, ih others]

theorem leaves_ofList (one : Diagnostic.ofList failures = some diagnostic) :
    diagnostic.leaves = Diagnostic.leavesAll failures := by
  cases failures with
  | nil => cases one
  | cons first others =>
    cases others with
    | nil =>
      cases one
      simp [Diagnostic.leavesAll]
    | cons next others =>
      cases one
      simp [Diagnostic.leavesAll, Diagnostic.leaves]

/-- The actor of a block without generic parameters for a plain name depends on what comes of the
exported methods only. -/
theorem ImplItem.actor_eq {item : ImplItem Span} {name : String} {place spot : Span}
    (generics : item.generics.params = [])
    (plain : item.selfTy = .path (.mk place .relative [.mk spot name .absent]))
    (all : Member.Outcomes text marks.dispatch item.members outcomes) :
    item.actor text marks = match Diagnostic.ofList (failuresOf outcomes) with
      | some diagnostic => .error (.reported diagnostic)
      | none => .ok ⟨name, marks.dispatch, entriesOf outcomes⟩ := by
  have admitted : item.generics.refuse .actorGenerics = .ok () := by
    simp [Generics.refuse, generics]
  have named : item.typeName = .ok name := by
    rw [ImplItem.typeName, plain]
  rw [ImplItem.actor, admitted, named, Member.exports_eq all]
  simp only [Except.mapError, bind, Except.bind]
  cases Diagnostic.ofList (failuresOf outcomes) <;> rfl

theorem failuresOf_ok (entries : List EntryPoint) : failuresOf (entries.map .ok) = [] := by
  induction entries with
  | nil => rfl
  | cons entry entries ih => exact ih

theorem entriesOf_ok (entries : List EntryPoint) : entriesOf (entries.map .ok) = entries := by
  induction entries with
  | nil => rfl
  | cons entry entries ih => exact congrArg (entry :: ·) ih

theorem eq_map_ok (none : failuresOf outcomes = []) : outcomes = (entriesOf outcomes).map .ok := by
  induction outcomes with
  | nil => rfl
  | cons outcome outcomes ih =>
    cases outcome with
    | ok entry => exact congrArg (Except.ok entry :: ·) (ih none)
    | error failure => cases none

theorem ofList_eq_none : Diagnostic.ofList failures = none ↔ failures = [] := by
  cases failures with
  | nil => simp [Diagnostic.ofList]
  | cons first others => cases others <;> simp [Diagnostic.ofList]

end Actors

/-- A method declares an entry point exactly if it meets all conditions on entry points, and the
entry point has its parameters behind the receiver for arguments, in order. Otherwise it fails with
the first condition that is not met. The actor of an implementation block for a plain name has the
entry points of all exported methods in their order, if each of these declares one. Otherwise it
fails with the messages of all those that fail, in the same order. -/
theorem entry_points_checked (marks : Annotation) :
    (∀ (method : Method Span) (dispatch : Dispatch),
      (∀ entry, method.entryPoint dispatch marks = .ok entry ↔ method.Declares marks entry) ∧
      ∀ diagnostic, method.entryPoint dispatch marks = .error diagnostic ↔
        method.Fails dispatch marks diagnostic) ∧
    ∀ (text : List Char) (item : ImplItem Span) (name : String) (place spot : Span),
      parseItem text = .ok (.impl item) → item.generics.params = [] →
      item.selfTy = .path (.mk place .relative [.mk spot name .absent]) →
      ∃ outcomes, Member.Outcomes text marks.dispatch item.members outcomes ∧
        (∀ actor, item.actor text marks = .ok actor ↔
          ∃ entries, outcomes = entries.map .ok ∧ actor = ⟨name, marks.dispatch, entries⟩) ∧
        ∀ failure, item.actor text marks = .error failure → ∃ diagnostic,
          failure = .reported diagnostic ∧ diagnostic.leaves.map .leaf = failuresOf outcomes := by
  constructor
  · intro method dispatch
    have settles := method.settles_entryPoint dispatch marks
    exact ⟨settles.ok_iff, settles.error_iff⟩
  · intro text item name place spot parsed generics plain
    have tokenized := parseItem_tokenized parsed
    obtain ⟨outcomes, all⟩ : ∃ outcomes, Member.Outcomes text marks.dispatch item.members outcomes :=
      Member.exists_outcomes tokenized
    refine ⟨outcomes, all, ?_⟩
    rw [ImplItem.actor_eq generics plain all]
    cases one : Diagnostic.ofList (failuresOf outcomes) with
    | none =>
        have complete := eq_map_ok (ofList_eq_none.mp one)
        constructor
        · intro actor
          constructor
          · rintro ⟨⟩
            exact ⟨_, complete, rfl⟩
          · rintro ⟨entries, rfl, rfl⟩
            rw [entriesOf_ok]
        · rintro failure ⟨⟩
    | some diagnostic =>
        constructor
        · intro actor
          constructor
          · rintro ⟨⟩
          · rintro ⟨entries, rfl, rfl⟩
            rw [failuresOf_ok] at one
            cases one
        · rintro failure ⟨⟩
          refine ⟨diagnostic, rfl, ?_⟩
          obtain ⟨_, _, exports, faults⟩ := Member.exports_report marks.dispatch tokenized
          cases (Member.exports_eq all).symm.trans exports
          rw [leaves_ofList one]
          exact leavesAll_of_isFault faults

/-- The implementation block that an item is. -/
def Item.block? : Item Span → Option (ImplItem Span)
  | .impl block => some block
  | _ => none

theorem exists_block_of_any {text : List Char} {test : ImplItem Span → Bool}
    (passes : (parseItem text).toOption.any fun item => item.block?.any test) :
    ∃ block, parseItem text = .ok (.impl block) ∧ test block := by
  obtain ⟨item, parsed, passes⟩ := exists_ok_of_any passes
  cases item with
  | struct found => cases passes
  | impl block => exact ⟨block, parsed, passes⟩
  | other found => cases passes

theorem Ty.eq_path_of_plainName? {ty : Ty Span} {name : String} (plain : ty.plainName? = some name) :
    ∃ place spot, ty = .path (.mk place .relative [.mk spot name .absent]) := by
  unfold Ty.plainName? at plain
  split at plain
  · cases plain
    exact ⟨_, _, rfl⟩
  · cases plain

/-- A block with three exported methods: the second one is hidden, and the third one has no
binding. -/
theorem entry_points_checked_three : ∃ text item diagnostic outcomes,
    text = ("impl A \x7b #[fvm_export(binding = 1)] pub fn f(x: u64) \x7b\x7d " ++
      "#[fvm_export(binding = 2)] fn g() \x7b\x7d #[fvm_export()] pub fn h() \x7b\x7d \x7d").toList ∧
    parseItem text = .ok (.impl item) ∧ item.generics.params = [] ∧
    Member.Outcomes text .methodNumber item.members outcomes ∧
    item.actor text ⟨.actor, []⟩ = .error (.reported diagnostic) ∧
    diagnostic.leaves.map .leaf = failuresOf outcomes := by
  obtain ⟨text, source⟩ : ∃ text : List Char, text =
      ("impl A \x7b #[fvm_export(binding = 1)] pub fn f(x: u64) \x7b\x7d " ++
        "#[fvm_export(binding = 2)] fn g() \x7b\x7d #[fvm_export()] pub fn h() \x7b\x7d \x7d").toList :=
    ⟨_, rfl⟩
  have passes : (parseItem text).toOption.any fun item => item.block?.any fun block =>
      block.generics.params.isEmpty && block.selfTy.plainName? = some "A" &&
        (block.actor text ⟨.actor, []⟩).toOption.isNone := by
    rw [source]
    decide +kernel
  obtain ⟨item, parsed, passes⟩ := exists_block_of_any passes
  simp only [Bool.and_eq_true, List.isEmpty_iff, decide_eq_true_eq] at passes
  obtain ⟨⟨generics, plain⟩, fails⟩ := passes
  obtain ⟨place, spot, plain⟩ := Ty.eq_path_of_plainName? plain
  obtain ⟨outcomes, all, -, messages⟩ :=
    (entry_points_checked ⟨.actor, []⟩).2 text item "A" place spot parsed generics plain
  cases result : item.actor text ⟨.actor, []⟩ with
  | ok actor =>
      rw [result] at fails
      cases fails
  | error failure =>
      obtain ⟨diagnostic, rfl, messages⟩ := messages failure result
      exact ⟨text, item, diagnostic, outcomes, source, parsed, generics, all, result, messages⟩

/-- A name that is taken by reference is an argument like any other. -/
theorem reference_argument_declared : ∃ text item,
    text = "impl A \x7b #[fvm_export(binding = 1)] pub fn f(&self, ref x: u64) \x7b\x7d \x7d".toList ∧
    parseItem text = .ok (.impl item) ∧ item.actor text ⟨.actor, []⟩ = .ok
      ⟨"A", .methodNumber, [⟨"f", ⟨1, by decide⟩, .view, false, [⟨"x", false, "u64"⟩]⟩]⟩ := by
  obtain ⟨text, source⟩ : ∃ text : List Char, text =
      "impl A \x7b #[fvm_export(binding = 1)] pub fn f(&self, ref x: u64) \x7b\x7d \x7d".toList :=
    ⟨_, rfl⟩
  have passes : (parseItem text).toOption.any fun item => item.block?.any fun block =>
      (block.actor text ⟨.actor, []⟩).toOption.any (· =
        ⟨"A", .methodNumber, [⟨"f", ⟨1, by decide⟩, .view, false, [⟨"x", false, "u64"⟩]⟩]⟩) := by
    rw [source]
    decide +kernel
  obtain ⟨item, parsed, passes⟩ := exists_block_of_any passes
  obtain ⟨actor, declared, same⟩ := exists_ok_of_any passes
  rw [decide_eq_true_eq] at same
  exact ⟨text, item, source, parsed, same ▸ declared⟩

end ActorGlue
