import ActorGlue.Glue.Emit
import ActorGlue.Glue.Lower

/-!
# What is declared is written

The text of every state, and of every actor with whatever entry points, exists: each step that they
are lowered to is one that is written where it stands.
-/

namespace ActorGlue.Glue

section Arguments

/-- What an argument is called in a case. -/
def localName (argument : Argument) : String :=
  "arg_" ++ dropRawMark argument.name

/-- How an argument is bound in a case. -/
def localPattern (argument : Argument) : String :=
  (if argument.mutable then "mut " else "") ++ localName argument

theorem mapM_map_ok {α β γ ε : Type} {f : α → β} {g : β → Except ε γ} {h : α → γ}
    (each : ∀ x, g (f x) = .ok (h x)) (items : List α) :
    (items.map f).mapM g = .ok (items.map h) := by
  induction items with
  | nil => rfl
  | cons item rest ih =>
    rw [List.map_cons, List.mapM_cons, each, ih]
    rfl

theorem argumentTexts_documents (arguments : List Argument) :
    argumentTexts (.list (arguments.map (·.document))) =
      .ok (arguments.map localName, arguments.map localPattern,
        arguments.map fun argument => .text argument.type) := by
  have names := mapM_map_ok (f := Argument.document) (h := localName)
    (g := fun item => do return "arg_" ++ dropRawMark (← (← item.fieldOf "name").textOf))
    (fun argument => rfl) arguments
  have marks := mapM_map_ok (f := Argument.document)
    (h := fun argument => if argument.mutable then "mut " else "")
    (g := fun item => do return if (← item.fieldOf "mutable").isPresent then "mut " else "")
    (fun argument => rfl) arguments
  have types := mapM_map_ok (f := Argument.document) (h := fun argument => .text argument.type)
    (g := (·.fieldOf "type")) (fun argument => rfl) arguments
  have patterns : (arguments.map fun argument => if argument.mutable then "mut " else "").zipWith
      (· ++ ·) (arguments.map localName) = arguments.map localPattern := by
    rw [List.zipWith_map, List.zipWith_self]
    rfl
  unfold argumentTexts Document.itemsOf
  simp only [bind, Except.bind] at names marks types ⊢
  rw [names]
  dsimp only
  rw [marks]
  dsimp only
  rw [types, patterns]
  rfl

theorem joinable_texts (index : Nat) (arguments : List Argument) :
    Document.joinable index (arguments.map fun argument => .text argument.type) =
      .ok (arguments.map (·.type)) := by
  induction arguments generalizing index with
  | nil => rfl
  | cons argument rest ih =>
    rw [List.map_cons, Document.joinable, ih]
    rfl

theorem typesText_documents (arguments : List Argument) :
    typesText (arguments.map fun argument => .text argument.type) =
      .ok (tupleText (arguments.map (·.type))) := by
  rcases arguments with _ | ⟨first, _ | ⟨second, rest⟩⟩
  · rfl
  · rfl
  · have joined := joinable_texts 0 (first :: second :: rest)
    simp only [typesText, List.map_cons] at joined ⊢
    rw [joined]
    rfl

end Arguments

section Cases

variable {sdk stateType : String} {entry : EntryPoint}

theorem mapError_ok {ε ε' α : Type} (f : ε → ε') (value : α) :
    (Except.ok value).mapError f = .ok value :=
  rfl

/-- The step that decodes arguments binds them. -/
theorem caseLines_decodeArgs (arguments : List Argument) (names : List (String × CaseName))
    (id : String) : ∃ lines names', caseLines sdk stateType names
      ⟨⟨.decodeArgs, [resultName 0], [("arguments", .list (arguments.map (·.document)))],
        onError serializationFailure "failed to deserialize params"⟩, id⟩ =
      .ok (("let " ++ (tupleText (arguments.map localPattern) ++ ": " ++
          tupleText (arguments.map (·.type))) ++ " = match " ++
          (sdk ++ "::encoding::from_slice(&" ++ resultName 0 ++ ")") ++ " \x7b") :: lines, names') := by
  have documents : Instruction.metaOf ⟨⟨.decodeArgs, [resultName 0],
      [("arguments", .list (arguments.map (·.document)))],
      onError serializationFailure "failed to deserialize params"⟩, id⟩ "arguments" =
      .ok (.list (arguments.map (·.document))) := rfl
  simp only [caseLines, documents, argumentTexts_documents, typesText_documents, mapError_ok, bind,
    Except.bind]
  exact ⟨_, _, rfl⟩

/-- Every step of an entry point is written. -/
theorem exists_caseLines {step : Step} (member : step ∈ entrySteps entry stateType)
    (names : List (String × CaseName)) (id : String) :
    ∃ lines names', caseLines sdk stateType names ⟨step, id⟩ = .ok (lines, names') := by
  simp only [entrySteps, List.mem_append, List.mem_singleton] at member
  rcases member with ((((arguments | load) | rfl) | encode) | save) | rfl
  · rw [argumentSteps] at arguments
    split at arguments
    · cases arguments
    · simp only [List.mem_cons, List.not_mem_nil, or_false] at arguments
      rcases arguments with rfl | rfl
      · exact ⟨_, _, rfl⟩
      · obtain ⟨lines, names', made⟩ := caseLines_decodeArgs entry.arguments names id
        exact ⟨_, _, made⟩
  · rw [loadStateSteps] at load
    split at load
    · obtain rfl := List.mem_singleton.mp load
      exact ⟨_, _, rfl⟩
    · cases load
  · exact ⟨_, _, rfl⟩
  · split at encode
    · obtain rfl := List.mem_singleton.mp encode
      exact ⟨_, _, rfl⟩
    · cases encode
  · split at save
    · obtain rfl := List.mem_singleton.mp save
      exact ⟨_, _, rfl⟩
    · cases save
  · exact ⟨_, _, rfl⟩

/-- If each instruction is written, so is the body, and the lines of each stand in it. -/
theorem exists_caseBodyLines {instructions : List Instruction}
    (each : ∀ i ∈ instructions, ∀ names, ∃ lines names',
      caseLines sdk stateType names i = .ok (lines, names'))
    (names : List (String × CaseName)) :
    ∃ body, caseBodyLines sdk stateType names instructions = .ok body ∧
      ∀ i ∈ instructions, ∃ names lines names',
        caseLines sdk stateType names i = .ok (lines, names') ∧ lines ⊆ body := by
  induction instructions generalizing names with
  | nil => exact ⟨[], rfl, nofun⟩
  | cons i rest ih =>
    obtain ⟨here, there⟩ := List.forall_mem_cons.mp each
    obtain ⟨lines, names', made⟩ := here names
    obtain ⟨others, made', holds⟩ := ih there names'
    refine ⟨lines ++ others, ?_, List.forall_mem_cons.mpr ⟨?_, fun j member => ?_⟩⟩
    · simp only [caseBodyLines, made, made', bind, Except.bind]
      rfl
    · exact ⟨names, lines, names', made, List.subset_append_left _ _⟩
    · obtain ⟨known, found, after, written, inside⟩ := holds j member
      exact ⟨known, found, after, written, List.subset_append_of_subset_right _ inside⟩

/-- The body of an entry point is written, and the lines of each instruction stand in it. -/
theorem exists_entryBody (sdk : String) (entry : EntryPoint) (stateType : String) :
    ∃ body, caseBodyLines sdk stateType [] (lowerEntry entry stateType).instructions = .ok body ∧
      ∀ i ∈ (lowerEntry entry stateType).instructions, ∃ names lines names',
        caseLines sdk stateType names i = .ok (lines, names') ∧ lines ⊆ body := by
  apply exists_caseBodyLines
  refine List.forall_mem_map.mpr fun found member names => ?_
  exact exists_caseLines (List.fst_mem_of_mem_zipIdx member) names _

end Cases

section Items

variable (sdk item : String)

theorem exists_emitState (state : StateStruct) :
    ∃ text, emitState sdk item (lowerState state) = .ok text :=
  ⟨_, rfl⟩

theorem exists_emitActor (actor : Actor) (symbol : String) :
    ∃ text, emitActor sdk item (lowerActor actor symbol) = .ok text := by
  have cases : ∃ cases, (lowerActor actor symbol).cases.mapM (emitCase sdk actor.name) =
      .ok cases := by
    rw [lowerActor]
    induction actor.entryPoints with
    | nil => exact ⟨[], rfl⟩
    | cons entry rest ih =>
      obtain ⟨body, made, -⟩ := exists_entryBody sdk entry actor.name
      obtain ⟨others, made'⟩ := ih
      rw [List.map_cons, List.mapM_cons, made', emitCase, made]
      exact ⟨_, rfl⟩
  obtain ⟨cases, made⟩ := cases
  have made : (lowerActor actor symbol).cases.mapM
    (emitCase sdk (lowerActor actor symbol).actor.name) = .ok cases := made
  simp only [emitActor, emitDispatchTable, made, bind, Except.bind]
  exact ⟨_, rfl⟩

end Items

end ActorGlue.Glue
