import ActorGlue.Glue.Source
import ActorGlue.Proofs.Glue.Outcomes
import ActorGlue.Proofs.Parse.Generated

/-!
# The text of dispatch

The function that dispatches to the entry points of an actor is written for every actor whose names
are words and whose argument types are read as a whole, and its body is balanced. Every step that an
entry point is lowered to gives lines that close what they open.
-/

namespace ActorGlue

open Scan

/-- The name of the argument is a word, and its type is read as a whole. -/
structure Argument.Written (argument : Argument) : Prop where
  name : IsWord argument.name
  type : Whole argument.type

/-- The names of the entry point are words, and its argument types are read as a whole. -/
structure EntryPoint.Written (entry : EntryPoint) : Prop where
  method : IsWord entry.method
  arguments : ∀ argument ∈ entry.arguments, argument.Written

/-- The names of the actor are words, and its argument types are read as a whole. -/
structure Actor.Written (actor : Actor) : Prop where
  name : IsWord actor.name
  entryPoints : ∀ entry ∈ actor.entryPoints, entry.Written

namespace Glue

section Arguments

variable {argument : Argument}

theorem isWord_localName (written : argument.Written) : IsWord (localName argument) := by
  have parts : ∀ c ∈ (dropRawMark argument.name).toList, isWordPart c := by
    unfold dropRawMark
    rcases written.name.parts with plain | ⟨rest, text, parts⟩
    · split
      · rename_i rest same
        rw [same] at plain
        exact absurd (plain '#' (by simp)) (by decide)
      · exact plain
    · rw [text]
      simpa using parts
  have text : (localName argument).toList =
      'a' :: (['r', 'g', '_'] ++ (dropRawMark argument.name).toList) := by simp [localName]
  have mark : ∀ c ∈ ['r', 'g', '_'], isWordPart c := List.all_eq_true.mp (by decide)
  exact .of_parts (by decide) text (List.forall_mem_append.mpr ⟨mark, parts⟩)

theorem whole_localPattern (written : argument.Written) : Whole (localPattern argument) := by
  have word : Whole (localName argument) := .of_word (isWord_localName written)
  unfold localPattern
  split_ifs
  · exact .after_settled (settled_of_fixed (by decide +kernel)) word
  · exact .after_settled (.empty []) word

end Arguments

section Steps

/-- The names of a case stand for texts that are read as a whole. -/
def NamesWhole (names : List (String × CaseName)) : Prop :=
  ∀ name locals, (name, .locals locals) ∈ names → ∀ item ∈ locals, Whole item

theorem NamesWhole.resolve {names : List (String × CaseName)} (known : NamesWhole names)
    {arg : String} {locals : List String} (found : resolve names arg = some (.locals locals)) :
    ∀ item ∈ locals, Whole item := by
  unfold Glue.resolve at found
  split at found
  · rename_i name same
    obtain rfl := Option.some.inj found
    obtain ⟨before, after, rfl, -⟩ := List.lookup_eq_some_iff.mp same
    exact known arg locals (by simp)
  · split_ifs at found
    cases found

/-- The texts that a name passes on. -/
def CaseName.passed : CaseName → List String
  | .locals names => names
  | .state => []

theorem NamesWhole.passed {names : List (String × CaseName)} (known : NamesWhole names)
    (args : List String) :
    ∀ item ∈ (args.filterMap (Glue.resolve names)).flatMap CaseName.passed, Whole item := by
  intro item member
  obtain ⟨name, found, inside⟩ := List.mem_flatMap.mp member
  obtain ⟨arg, -, resolved⟩ := List.mem_filterMap.mp found
  cases name with
  | locals names => exact known.resolve resolved item inside
  | state => cases inside

theorem whole_callText {names : List (String × CaseName)} (known : NamesWhole names)
    {stateType method : String} (type : IsWord stateType) (word : IsWord method)
    (args : List String) : Whole (callText names stateType method args) := by
  have target : Whole (if (args.filterMap (resolve names)).contains .state then
      "state." ++ method else stateType ++ "::" ++ method) := by
    split_ifs
    · have word' : IsWord "state" := ⟨'s', ['t', 'a', 't', 'e'], rfl, rfl⟩
      have same : "state." = "state" ++ "." := by decide
      rw [same]
      exact .member (.of_word word') word
    · rw [String.append_assoc]
      refine Whole.append (.of_word type) (isEnd_append (by decide) _) ?_
      exact .after_settled (settled_colons []) (.of_word word)
  have arguments := settled_applied (by decide +kernel : fixed? "(" [] = some [")"])
    (whole_intercalate_commas (known.passed args))
  unfold callText
  dsimp only
  simp only [String.append_assoc] at arguments target ⊢
  exact (target.settled (isEnd_append (by decide) _) arguments).whole

/-- The steps of entry points whose names are words and whose types are read as a whole. -/
inductive CaseStep : Step → Prop where
  | fetchParams :
      CaseStep ⟨.fetchParams, [], [], onError serializationFailure "failed to receive params"⟩
  | decodeArgs {block : String} {arguments : List Argument} (word : IsWord block)
      (written : ∀ argument ∈ arguments, argument.Written) :
      CaseStep ⟨.decodeArgs, [block], [("arguments", .list (arguments.map (·.document)))],
        onError serializationFailure "failed to deserialize params"⟩
  | loadState (state : String) (mutable : Bool) :
      CaseStep ⟨.loadState, [], [("state", .text state), ("mutable", .bool mutable)], []⟩
  | call {method : String} (word : IsWord method) (args : List String) (receiver state : String)
      (returns : Bool) :
      CaseStep ⟨.call, args, [("method", .text method), ("receiver", .text receiver),
        ("returns", .bool returns), ("state", .text state)], []⟩
  | encodeResult {result : String} (word : IsWord result) :
      CaseStep ⟨.encodeResult, [result], [],
        onError serializationFailure "failed to serialize return value"⟩
  | saveState (args : List String) (metadata : List (String × Document)) :
      CaseStep ⟨.saveState, args, metadata, []⟩
  | ret {args : List String} (words : ∀ arg ∈ args, IsWord arg) : CaseStep ⟨.ret, args, [], []⟩

variable {names : List (String × CaseName)} {stateType id : String}

/-- The lines of a step close what they open. -/
theorem CaseStep.lines {step : Step} (isStep : CaseStep step) (known : NamesWhole names)
    (type : IsWord stateType) (word : IsWord id) :
    ∃ lines names', caseLines sdkName stateType names ⟨step, id⟩ = .ok (lines, names') ∧
      Lines lines [] [] ∧ NamesWhole names' := by
  have typed : Whole stateType := .of_word type
  cases isStep with
  | fetchParams =>
    have expr : Whole (sdkName ++ "::syscall::message::params_raw(params_pointer)") :=
      (settled_of_fixed (by decide +kernel)).whole
    obtain ⟨lines, made, goes⟩ := lines_matchResult "(_, raw)" "raw"
      ⟨serializationFailure, "failed to receive params", true⟩ (.of_word word) expr
      (by decide +kernel) (by decide +kernel)
    refine ⟨lines, names, ?_, goes, known⟩
    simp only [caseLines, abortOf_onError, bind, Except.bind, made]
    rfl
  | @decodeArgs block arguments word' written =>
    have expr : Whole (sdkName ++ "::encoding::from_slice(&" ++ block ++ ")") :=
      (settled_applied (by decide +kernel) (.of_word word')).whole
    have bound : Whole (tupleText (arguments.map localPattern) ++ ": " ++
        tupleText (arguments.map (·.type))) := by
      have patterns := settled_tupleText (List.forall_mem_map.mpr fun argument member =>
        whole_localPattern (written argument member))
      have types := settled_tupleText (List.forall_mem_map.mpr fun argument member =>
        (written argument member).type)
      have colon : Settled ": " [] [] := settled_of_fixed (by decide +kernel)
      exact ((patterns.append colon).append types).whole
    obtain ⟨lines, made, goes⟩ := lines_matchResult "args" "args"
      ⟨serializationFailure, "failed to deserialize params", true⟩ bound expr
      (by decide +kernel) (by decide +kernel)
    refine ⟨lines, (id, .locals (arguments.map localName)) :: names, ?_, goes, ?_⟩
    · have documents : Instruction.metaOf ⟨⟨.decodeArgs, [block],
          [("arguments", .list (arguments.map (·.document)))],
          onError serializationFailure "failed to deserialize params"⟩, id⟩ "arguments" =
          .ok (.list (arguments.map (·.document))) := rfl
      simp only [caseLines, abortOf_onError, documents, argumentTexts_documents, Except.mapError,
        Instruction.firstArg, typesText_documents, bind, Except.bind, made]
      rfl
    · intro name locals member
      rcases List.mem_cons.mp member with same | member
      · obtain ⟨-, same⟩ := Prod.mk.inj same
        obtain rfl := CaseName.locals.inj same
        exact List.forall_mem_map.mpr fun argument member =>
          .of_word (isWord_localName (written argument member))
      · exact known name locals member
  | loadState state mutable =>
    have binding : Settled ("let " ++ (if mutable then "mut state" else "state") ++ ": ") [] [] := by
      cases mutable <;> exact settled_of_fixed (by decide +kernel)
    have equal : Settled " = <" [] [] := settled_of_fixed (by decide +kernel)
    have last : Settled (" as " ++ sdkName ++ "::state::StateObject>::load();" ++ "\n") [] [] :=
      settled_of_fixed (by decide +kernel)
    refine ⟨_, (id, .state) :: names, rfl, .single ?_, ?_⟩
    · have line := binding.append (typed.settled (isEnd_append (by decide) _)
        (equal.append (typed.settled (isEnd_append (isEnd_append (isEnd_append (by decide) _) _) _)
          last)))
      simp only [String.append_assoc] at line ⊢
      exact line
    · intro name locals member
      rcases List.mem_cons.mp member with same | member
      · cases same
      · exact known name locals member
  | @call method word' args receiver state returns =>
    have call := whole_callText known type word' args
    have last : Settled (";" ++ "\n") [] [] := settled_of_fixed (by decide +kernel)
    have line := call.settled (by decide) last
    refine ⟨[if returns then "let " ++ id ++ " = " ++ callText names stateType method args ++ ";"
      else callText names stateType method args ++ ";"], names, rfl, .single ?_, known⟩
    cases returns with
    | false =>
      simp only [Bool.false_eq_true, if_false, String.append_assoc]
      exact line
    | true =>
      have equal : Settled " = " [] [] := settled_of_fixed (by decide +kernel)
      have line := settled_around (show fixed? "let " [] = some [] by decide +kernel) word
        (isEnd_append (by decide) _) (equal.append line)
      simp only [if_true, String.append_assoc] at line ⊢
      exact line
  | @encodeResult result word' =>
    have expr : Whole (sdkName ++ "::encoding::RawBytes::serialize(&" ++ result ++ ")") :=
      (settled_applied (by decide +kernel) (.of_word word')).whole
    obtain ⟨lines, made, goes⟩ := lines_matchResult "bytes" "bytes"
      ⟨serializationFailure, "failed to serialize return value", true⟩ (.of_word word) expr
      (by decide +kernel) (by decide +kernel)
    refine ⟨lines, names, ?_, goes, known⟩
    simp only [caseLines, abortOf_onError, Instruction.firstArg, bind, Except.bind, made]
    rfl
  | saveState args metadata =>
    have last : Settled (" as " ++ sdkName ++ "::state::StateObject>::save(&state);" ++ "\n") []
        [] := settled_of_fixed (by decide +kernel)
    have line := settled_around (show fixed? "<" [] = some [] by decide +kernel) type
      (isEnd_append (isEnd_append (isEnd_append (by decide) _) _) _) last
    refine ⟨_, names, rfl, .single ?_, known⟩
    simp only [String.append_assoc] at line ⊢
    exact line
  | @ret args words =>
    refine ⟨_, names, rfl, .single ?_, known⟩
    cases args with
    | nil =>
      have line : Settled ("None" ++ "\n") [] [] := settled_of_fixed (by decide +kernel)
      exact line
    | cons arg rest =>
      exact (settled_applied (by decide +kernel) (.of_word (words arg (by simp)))).append
        (settled_break [])

theorem lines_caseBodyLines {instructions : List Instruction} (type : IsWord stateType)
    (steps : ∀ i ∈ instructions, CaseStep i.toStep ∧ IsWord i.id) (known : NamesWhole names) :
    ∃ lines, caseBodyLines sdkName stateType names instructions = .ok lines ∧
      Lines lines [] [] := by
  induction instructions generalizing names with
  | nil => exact ⟨[], rfl, .nil []⟩
  | cons i rest ih =>
    obtain ⟨⟨isStep, word⟩, steps⟩ := List.forall_mem_cons.mp steps
    obtain ⟨lines, names', made, goes, known⟩ := isStep.lines known type word
    obtain ⟨others, made', goes'⟩ := ih steps known
    refine ⟨lines ++ others, ?_, goes.append goes'⟩
    have made : caseLines sdkName stateType names i = .ok (lines, names') := made
    simp only [caseBodyLines, made, made', bind, Except.bind]
    rfl

end Steps

section Cases

/-- Every step of an entry point is one of the steps that give lines. -/
theorem caseStep_of_mem {entry : EntryPoint} (written : entry.Written) (stateType : String) :
    ∀ step ∈ entrySteps entry stateType, CaseStep step := by
  have arguments : ∀ step ∈ argumentSteps entry, CaseStep step := by
    unfold argumentSteps
    split_ifs
    · simp
    · refine List.forall_mem_cons.mpr ⟨.fetchParams, List.forall_mem_singleton.mpr ?_⟩
      exact .decodeArgs (isWord_resultName 0) written.arguments
  have load : ∀ step ∈ loadStateSteps entry stateType, CaseStep step := by
    unfold loadStateSteps
    split_ifs
    · exact List.forall_mem_singleton.mpr (.loadState _ _)
    · simp
  unfold entrySteps
  simp only [List.forall_mem_append, List.forall_mem_singleton]
  refine ⟨⟨⟨⟨⟨arguments, load⟩, .call written.method _ _ _ _⟩, ?_⟩, ?_⟩, .ret ?_⟩
  · split_ifs
    · exact List.forall_mem_singleton.mpr (.encodeResult (isWord_resultName _))
    · simp
  · split_ifs
    · exact List.forall_mem_singleton.mpr (.saveState _ _)
    · simp
  · exact List.forall_mem_map.mpr fun _ _ => isWord_resultName _

theorem lines_emitCase {entry : EntryPoint} (written : entry.Written) {stateType : String}
    (type : IsWord stateType) :
    ∃ lines, emitCase sdkName stateType ⟨entry, lowerEntry entry stateType⟩ = .ok lines ∧
      Lines lines [] [] := by
  have steps : ∀ i ∈ (lowerEntry entry stateType).instructions,
      CaseStep i.toStep ∧ IsWord i.id := by
    refine List.forall_mem_map.mpr fun found member => ?_
    exact ⟨caseStep_of_mem written stateType _ (List.fst_mem_of_mem_zipIdx member),
      isWord_resultName _⟩
  have none : NamesWhole [] := fun _ _ member => absurd member List.not_mem_nil
  obtain ⟨body, made, goes⟩ := lines_caseBodyLines type steps none
  have opens : Settled (toString entry.binding.value ++ " => \x7b" ++ "\n") [] ["\x7d"] := by
    have last : Settled (" => \x7b" ++ "\n") [] ["\x7d"] := settled_of_fixed (by decide +kernel)
    rw [String.append_assoc]
    exact (Whole.toString _).settled (by decide) last
  refine ⟨_, by rw [emitCase, made]; rfl, .enclosed opens goes ?_⟩
  exact settled_of_fixed (by decide +kernel)

theorem lines_cases {entries : List EntryPoint} (written : ∀ entry ∈ entries, entry.Written)
    {stateType : String} (type : IsWord stateType) :
    ∃ cases, (entries.map fun entry => (⟨entry, lowerEntry entry stateType⟩ : Case)).mapM
        (emitCase sdkName stateType) = .ok cases ∧ Lines cases.flatten [] [] := by
  induction entries with
  | nil => exact ⟨[], rfl, .nil []⟩
  | cons entry rest ih =>
    obtain ⟨first, others⟩ := List.forall_mem_cons.mp written
    obtain ⟨lines, made, goes⟩ := lines_emitCase first type
    obtain ⟨cases, made', goes'⟩ := ih others
    refine ⟨lines :: cases, ?_, goes.append goes'⟩
    rw [List.map_cons, List.mapM_cons, made, made']
    rfl

end Cases

section Function

/-- The marks of the function that dispatches. -/
def dispatchMarks : List String :=
  ["#[no_mangle]", "#[allow(unused_variables)]"]

/-- The line that opens the function that dispatches. -/
def dispatchHead : String :=
  "pub fn " ++ invokeSymbol ++ "(params_pointer: u32) -> u32 \x7b"

/-- The function that dispatches is written with a balanced body. -/
theorem emitDispatchTable_ok {actor : Actor} (written : actor.Written) :
    ∃ body, emitDispatchTable sdkName (lowerActor actor invokeSymbol) =
        .ok (ended (dispatchMarks ++ dispatchHead :: body) ++ "\x7d") ∧ Lines body [] [] := by
  obtain ⟨cases, made, goes⟩ := lines_cases written.entryPoints written.name
  obtain ⟨unhandled, called, settled⟩ :=
    abortCall_ok (show unhandledAbort.isPlain by decide +kernel) false
  obtain ⟨unstored, called', settled'⟩ :=
    abortCall_ok (show resultAbort.isPlain by decide +kernel) true
  have unmatched := settled_outcome (show fixed? "_ => " [] = some [] by decide +kernel) settled
  have failed :=
    settled_outcome (show fixed? "Err(err) => " [] = some [] by decide +kernel) settled'
  have choice : Lines (enclosed
      ("let ret: Option<" ++ sdkName ++ "::encoding::RawBytes> = match " ++ sdkName ++
        "::syscall::message::method_number() \x7b")
      (cases.flatten ++ ["_ => " ++ unhandled ++ ","]) "\x7d;") [] [] :=
    .enclosed (settled_of_fixed (by decide +kernel)) (goes.append (.single unmatched))
      (settled_of_fixed (by decide +kernel))
  have stored : Lines (enclosed
      ("Some(v) => match " ++ sdkName ++ "::syscall::ipld::put_block(" ++ sdkName ++
        "::encoding::DAG_CBOR, v.bytes()) \x7b")
      ["Ok(id) => id,", "Err(err) => " ++ unstored ++ ","] "\x7d,") [] [] :=
    .enclosed (settled_of_fixed (by decide +kernel))
      ⟨[], settled_of_fixed (by decide +kernel), .single failed⟩
      (settled_of_fixed (by decide +kernel))
  have result : Lines (enclosed "match ret \x7b"
      (["None => " ++ sdkName ++ "::syscall::NO_DATA_BLOCK_ID,"] ++ enclosed
        ("Some(v) => match " ++ sdkName ++ "::syscall::ipld::put_block(" ++ sdkName ++
          "::encoding::DAG_CBOR, v.bytes()) \x7b")
        ["Ok(id) => id,", "Err(err) => " ++ unstored ++ ","] "\x7d,")) [] [] :=
    .enclosed (settled_of_fixed (by decide +kernel))
      ⟨[], settled_of_fixed (by decide +kernel), stored⟩ (settled_of_fixed (by decide +kernel))
  refine ⟨_, ?_, (choice.append result).indent⟩
  rw [← intercalate_ended]
  replace made : (lowerActor actor invokeSymbol).cases.mapM
    (emitCase sdkName (lowerActor actor invokeSymbol).actor.name) = .ok cases := made
  simp only [emitDispatchTable, made, called, called', bind, Except.bind]
  rfl

/-- The text of dispatch is read as one function. -/
theorem reads_dispatch {actor : Actor} (written : actor.Written) :
    ∃ text lexemes, emitDispatchTable sdkName (lowerActor actor invokeSymbol) = .ok text ∧
      Reads text.toList lexemes [] ∧ lexemes[0]?.any (·.is "#") ∧
      ∃ found, Parse.item lexemes = .ok (.other found, []) ∧ found.kind = "fn" ∧
        found.name = some invokeSymbol := by
  obtain ⟨body, made, goes⟩ := emitDispatchTable_ok written
  obtain ⟨blocks, marks, first, -⟩ :=
    Parse.exists_of_marksFit (show Parse.marksFit (ended dispatchMarks) by decide +kernel)
  have head : settled? (dispatchHead ++ "\n").toList = some [⟨.ident, "pub"⟩, ⟨.ident, "fn"⟩,
      ⟨.ident, invokeSymbol⟩, ⟨.punct, "("⟩, ⟨.ident, "params_pointer"⟩, ⟨.punct, ":"⟩,
      ⟨.ident, "u32"⟩, ⟨.punct, ")"⟩, ⟨.punct, "->"⟩, ⟨.ident, "u32"⟩, ⟨.punct, "\x7b"⟩] := by
    decide +kernel
  have last : settled? "\x7d".toList = some [⟨.punct, "\x7d"⟩] := by decide +kernel
  obtain ⟨inner, reads, balanced⟩ := goes.settled ("\x7d".toList ++ [])
  have function := reads_append (reads_settled head _) (reads_append reads (reads_settled last []))
  obtain ⟨found, taken, kind, name⟩ := @Parse.item_of_function invokeSymbol blocks
    [⟨.ident, "params_pointer"⟩, ⟨.punct, ":"⟩, ⟨.ident, "u32"⟩] [⟨.punct, "->"⟩, ⟨.ident, "u32"⟩]
    inner (fun _ => rfl) rfl (by decide) balanced
  have text : ended (dispatchMarks ++ dispatchHead :: body) ++ "\x7d" =
      ended dispatchMarks ++ (dispatchHead ++ "\n" ++ (ended body ++ "\x7d")) := by
    simp only [ended_append, ended, String.append_assoc]
  rw [text] at made
  refine ⟨_, _, made, reads_append (marks _) function, ?_, found, ?_, kind, name⟩
  · obtain ⟨hash, rest, is, whole⟩ := Parse.head_of_any first
    rw [whole]
    simpa using is
  · simpa only [Parse.functionLexemes, List.cons_append, List.nil_append] using taken

end Function

end Glue

end ActorGlue
