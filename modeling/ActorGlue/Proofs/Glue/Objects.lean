import ActorGlue.Proofs.Glue.Outcomes
import ActorGlue.Proofs.Parse.Methods

/-!
# The text of state objects

The implementation that loads and saves a state is written for every state, and it is read back as
an implementation for the name of the state, with the methods that load and save it. Every step that
loads or saves a state gives lines that close what they open, so the bodies of both methods are
balanced.
-/

namespace ActorGlue

open Scan Parse

namespace Glue

section Steps

/-- The steps that load or save a state, with words for the results they use. -/
inductive StateStep : Step → Prop where
  | getRoot : StateStep ⟨.getRoot, [], [], onError illegalState "failed to get root"⟩
  | getBlock {root : String} (word : IsWord root) :
      StateStep ⟨.getBlock, [root], [],
        ("missing", ⟨illegalState, "state does not exist", false⟩) ::
          onError illegalState "failed to get state"⟩
  | decodeState {block : String} (word : IsWord block) (metadata : List (String × Document)) :
      StateStep ⟨.decodeState, [block], metadata,
        onError serializationFailure "failed to deserialize state"⟩
  | encodeState (args : List String) (metadata : List (String × Document)) :
      StateStep ⟨.encodeState, args, metadata,
        onError serializationFailure "failed to serialize state"⟩
  | putBlock {bytes : String} (word : IsWord bytes) :
      StateStep ⟨.putBlock, [bytes], [("codec", .nat dagCborCodec), ("hash", .nat blake2b256),
        ("digest_size", .nat digestSize)],
        onError serializationFailure "failed to store initial state"⟩
  | setRoot {cid : String} (word : IsWord cid) :
      StateStep ⟨.setRoot, [cid], [], onError illegalState "failed to set root cid"⟩
  | ret {value : String} (word : IsWord value) : StateStep ⟨.ret, [value], [], []⟩

variable {id missing failed : String}

/-- The function that gets a block aborts without one. -/
theorem lines_getter (absent : Settled missing [] []) (bad : Settled failed [] []) :
    Lines (enclosed
      ("fn get_block<S: " ++ sdkName ++ "::encoding::CborStore>(store: &S, cid: &" ++ sdkName ++
        "::cid::Cid) -> Vec<u8> \x7b")
      (enclosed "match store.get(cid) \x7b"
        ["Ok(Some(block)) => block,", "Ok(None) => " ++ missing ++ ",",
          "Err(err) => " ++ failed ++ ","])) [] [] := by
  have none := settled_outcome (show fixed? "Ok(None) => " [] = some [] by decide +kernel) absent
  have error := settled_outcome (show fixed? "Err(err) => " [] = some [] by decide +kernel) bad
  have closes : Settled ("\x7d" ++ "\n") ["\x7d"] [] := settled_of_fixed (by decide +kernel)
  refine Lines.enclosed (settled_of_fixed (by decide +kernel)) ?_ closes
  refine Lines.enclosed (settled_of_fixed (by decide +kernel)) ?_ closes
  exact ⟨[], settled_of_fixed (by decide +kernel), [], none, .single error⟩

/-- The call that puts a block is spread over some lines. -/
theorem lines_putter (word : IsWord id) {bytes : String} (word' : IsWord bytes)
    (bad : Settled failed [] []) :
    Lines (enclosed ("let " ++ id ++ " = match " ++ sdkName ++ "::syscall::ipld::put(")
        [sdkName ++ "::cid::Code::Blake2b256.into(),", "32" ++ ",",
          sdkName ++ "::encoding::DAG_CBOR,", bytes ++ ".as_slice(),"]
        ") \x7b" ++
      indent ["Ok(cid) => cid,", "Err(err) => " ++ failed ++ ","] ++ ["\x7d;"]) [] [] := by
  have opens : Settled ("let " ++ id ++ " = match " ++ sdkName ++ "::syscall::ipld::put(" ++ "\n")
      [] [")"] := by
    have back : Settled (" = match " ++ sdkName ++ "::syscall::ipld::put(" ++ "\n") [] [")"] :=
      settled_of_fixed (by decide +kernel)
    have line := settled_around (show fixed? "let " [] = some [] by decide +kernel) word
      (isEnd_append (isEnd_append (isEnd_append (by decide) _) _) _) back
    simp only [String.append_assoc] at line ⊢
    exact line
  have slice : Settled (bytes ++ ".as_slice()," ++ "\n") [] [] := by
    have called : Settled ("()," ++ "\n") [] [] := settled_of_fixed (by decide +kernel)
    have member := Whole.member (.of_word word') (⟨'a', _, rfl, rfl⟩ : IsWord "as_slice")
    have line := member.settled (isEnd_append (by decide) _) called
    have text : ".as_slice()," = "." ++ "as_slice" ++ "()," := by decide
    rw [text]
    simp only [String.append_assoc] at line ⊢
    exact line
  have args : Lines [sdkName ++ "::cid::Code::Blake2b256.into(),", "32" ++ ",",
      sdkName ++ "::encoding::DAG_CBOR,", bytes ++ ".as_slice(),"] [] [] :=
    ⟨[], settled_of_fixed (by decide +kernel), [], settled_of_fixed (by decide +kernel), [],
      settled_of_fixed (by decide +kernel), .single slice⟩
  have turns : Settled (") \x7b" ++ "\n") [")"] ["\x7d"] := settled_of_fixed (by decide +kernel)
  have error := settled_outcome (show fixed? "Err(err) => " [] = some [] by decide +kernel) bad
  have arms : Lines ["Ok(cid) => cid,", "Err(err) => " ++ failed ++ ","] [] [] :=
    ⟨[], settled_of_fixed (by decide +kernel), .single error⟩
  have closes : Settled ("\x7d;" ++ "\n") ["\x7d"] [] := settled_of_fixed (by decide +kernel)
  have call := (Lines.between opens args turns).append (arms.indent.outer ["\x7d"])
  exact call.append (.single closes)

/-- The lines of a step close what they open. -/
theorem StateStep.lines {step : Step} (isStep : StateStep step) (word : IsWord id) :
    ∃ lines, stateLines sdkName ⟨step, id⟩ = .ok lines ∧ Lines lines [] [] := by
  cases isStep with
  | getRoot =>
    have expr : Whole (sdkName ++ "::syscall::sself::root()") :=
      (settled_of_fixed (by decide +kernel)).whole
    exact lines_matchResult "root" "root" ⟨illegalState, "failed to get root", true⟩
      (.of_word word) expr (by decide +kernel) (by decide +kernel)
  | @getBlock root word' =>
    obtain ⟨missing, called, absent⟩ := abortCall_ok
      (show Abort.isPlain ⟨illegalState, "state does not exist", false⟩ by decide +kernel) false
    obtain ⟨failed, called', bad⟩ := abortCall_ok
      (show Abort.isPlain ⟨illegalState, "failed to get state", true⟩ by decide +kernel) true
    have closes : Settled (");" ++ "\n") [")"] [] := settled_of_fixed (by decide +kernel)
    have got : Settled (" = get_block(&" ++ sdkName ++ "::state::cbor::CborBlockstore, &" ++
        root ++ (");" ++ "\n")) [] [] :=
      settled_around (by decide +kernel) word' (by decide) closes
    have line := settled_around (show fixed? "let " [] = some [] by decide +kernel) word
      (isEnd_append (isEnd_append (isEnd_append (isEnd_append (by decide) _) _) _) _) got
    have ends : Settled ("let " ++ id ++ " = get_block(&" ++ sdkName ++
        "::state::cbor::CborBlockstore, &" ++ root ++ ");" ++ "\n") [] [] := by
      simp only [String.append_assoc] at line ⊢
      exact line
    refine ⟨_, ?_, (lines_getter absent bad).append (.single ends)⟩
    have absence : Instruction.abortOf ⟨⟨.getBlock, [root], [], ("missing", ⟨illegalState,
      "state does not exist", false⟩) :: onError illegalState "failed to get state"⟩, id⟩
      "missing" = .ok ⟨illegalState, "state does not exist", false⟩ := rfl
    have failure : Instruction.abortOf ⟨⟨.getBlock, [root], [], ("missing", ⟨illegalState,
      "state does not exist", false⟩) :: onError illegalState "failed to get state"⟩, id⟩ =
      .ok ⟨illegalState, "failed to get state", true⟩ := rfl
    simp only [stateLines, absence, failure, Instruction.firstArg, bind, Except.bind, called,
      called']
    rfl
  | @decodeState block word' metadata =>
    have expr : Whole (sdkName ++ "::encoding::from_slice(&" ++ block ++ ")") :=
      (settled_applied (by decide +kernel) (.of_word word')).whole
    have self : Whole ": Self" := by
      have colon : Settled ": " [] [] := settled_of_fixed (by decide +kernel)
      exact .after_settled colon (.of_word (⟨'S', _, rfl, rfl⟩ : IsWord "Self"))
    exact lines_matchResult "state" "state"
      ⟨serializationFailure, "failed to deserialize state", true⟩
      ((Whole.of_word word).append (by decide) self) expr (by decide +kernel) (by decide +kernel)
  | encodeState args metadata =>
    have expr : Whole (sdkName ++ "::encoding::to_vec(self)") :=
      (settled_of_fixed (by decide +kernel)).whole
    exact lines_matchResult "bytes" "bytes"
      ⟨serializationFailure, "failed to serialize state", true⟩ (.of_word word) expr
      (by decide +kernel) (by decide +kernel)
  | @putBlock bytes word' =>
    obtain ⟨failed, called, bad⟩ := abortCall_ok (show Abort.isPlain
      ⟨serializationFailure, "failed to store initial state", true⟩ by decide +kernel) true
    refine ⟨_, ?_, lines_putter word word' bad⟩
    simp only [stateLines, abortOf_onError, Instruction.firstArg, bind, Except.bind, called]
    rfl
  | @setRoot cid word' =>
    obtain ⟨failed, called, bad⟩ := abortCall_ok (show Abort.isPlain
      ⟨illegalState, "failed to set root cid", true⟩ by decide +kernel) true
    have turns : Settled (") \x7b" ++ "\n") [")"] ["\x7d"] := settled_of_fixed (by decide +kernel)
    have opens : Settled ("if let Err(err) = " ++ sdkName ++ "::syscall::sself::set_root(&" ++
        cid ++ (") \x7b" ++ "\n")) [] ["\x7d"] :=
      settled_around (by decide +kernel) word' (by decide) turns
    have line : Settled (failed ++ ";" ++ "\n") [] [] := by
      rw [String.append_assoc]
      exact bad.append (settled_of_fixed (by decide +kernel))
    have closes : Settled ("\x7d" ++ "\n") ["\x7d"] [] := settled_of_fixed (by decide +kernel)
    rw [← String.append_assoc] at opens
    refine ⟨_, ?_, .enclosed opens (.single line) closes⟩
    simp only [stateLines, abortOf_onError, Instruction.firstArg, bind, Except.bind, called]
    rfl
  | ret word' =>
    exact ⟨_, rfl, .single ((Whole.of_word word').settled (by decide) (settled_break []))⟩

theorem stateStep_of_load (state : StateStruct) : ∀ step ∈ loadSteps state, StateStep step := by
  simp only [loadSteps, List.forall_mem_cons]
  exact ⟨.getRoot, .getBlock (isWord_resultName 0), .decodeState (isWord_resultName 1) _,
    .ret (isWord_resultName 2), by simp⟩

theorem stateStep_of_save (state : StateStruct) : ∀ step ∈ saveSteps state, StateStep step := by
  simp only [saveSteps, List.forall_mem_cons]
  exact ⟨.encodeState _ _, .putBlock (isWord_resultName 0), .setRoot (isWord_resultName 1),
    .ret (isWord_resultName 1), by simp⟩

theorem lines_instructions {instructions : List Instruction}
    (all : ∀ i ∈ instructions, StateStep i.toStep ∧ IsWord i.id) :
    ∃ found, instructions.mapM (stateLines sdkName) = .ok found ∧ Lines found.flatten [] [] := by
  induction instructions with
  | nil => exact ⟨[], rfl, .nil []⟩
  | cons i rest ih =>
    obtain ⟨⟨isStep, word⟩, others⟩ := List.forall_mem_cons.mp all
    obtain ⟨lines, made, goes⟩ := isStep.lines word
    obtain ⟨found, made', goes'⟩ := ih others
    refine ⟨lines :: found, ?_, goes.append goes'⟩
    have made : stateLines sdkName i = .ok lines := made
    rw [List.mapM_cons, made, made']
    rfl

/-- The lines of a block that loads or saves a state close what they open. -/
theorem lines_stateBlockLines (name : String) {steps : List Step}
    (all : ∀ step ∈ steps, StateStep step) :
    ∃ lines, stateBlockLines sdkName (.ofSteps name steps) = .ok lines ∧ Lines lines [] [] := by
  have known : ∀ i ∈ (Block.ofSteps name steps).instructions,
      StateStep i.toStep ∧ IsWord i.id := by
    refine List.forall_mem_map.mpr fun found member => ?_
    exact ⟨all _ (List.fst_mem_of_mem_zipIdx member), isWord_resultName _⟩
  obtain ⟨found, made, goes⟩ := lines_instructions known
  exact ⟨found.flatten, by rw [stateBlockLines, made]; rfl, goes⟩

end Steps

section Objects

/-- The line that opens the method that saves a state. -/
def saveHead : String :=
  "fn save(&self) -> " ++ sdkName ++ "::cid::Cid \x7b"

/-- The text of the implementation that loads and saves a state, with the lines of both bodies. -/
def objectText (name : String) (load save : List String) : String :=
  "impl " ++ sdkName ++ "::state::StateObject for " ++ (name ++
    (" \x7b\n    fn load() -> Self \x7b\n" ++ (ended load ++
      (ended ["    \x7d", "", "    " ++ saveHead] ++ (ended save ++
        (ended ["    \x7d"] ++ "\x7d"))))))

theorem emitStateObject_ok (state : StateStruct) :
    ∃ load save, emitStateObject sdkName (lowerState state) =
        .ok (objectText state.exportName load save) ∧ Lines load [] [] ∧ Lines save [] [] := by
  obtain ⟨load, loads, goes⟩ :=
    lines_stateBlockLines (state.name ++ "::load") (stateStep_of_load state)
  obtain ⟨save, saves, goes'⟩ :=
    lines_stateBlockLines (state.name ++ "::save") (stateStep_of_save state)
  refine ⟨indent (indent load), indent (indent save), ?_, goes.indent.indent, goes'.indent.indent⟩
  let head := "impl " ++ sdkName ++ "::state::StateObject for " ++ state.exportName ++ " \x7b"
  let body := enclosed "fn load() -> Self \x7b" load ++ [""] ++ enclosed saveHead save
  have made : emitStateObject sdkName (lowerState state) =
      .ok ("\n".intercalate (head :: indent body ++ ["\x7d"])) := by
    replace loads : stateBlockLines sdkName (lowerState state).load = .ok load := loads
    replace saves : stateBlockLines sdkName (lowerState state).save = .ok save := saves
    simp only [emitStateObject, loads, saves, bind, Except.bind]
    rfl
  have lines : head :: indent body = [head, "    fn load() -> Self \x7b"] ++ indent (indent load) ++
      ["    \x7d", "", "    " ++ saveHead] ++ indent (indent save) ++ ["    \x7d"] := by
    have some : saveHead ≠ "" := by decide
    simp [body, enclosed, indent, some]
  have first : " \x7b\n    fn load() -> Self \x7b\n" =
      " \x7b" ++ ("\n" ++ ("    fn load() -> Self \x7b" ++ ("\n" ++ ""))) := by decide
  rw [made, lines, intercalate_ended, objectText, first]
  simp only [ended_append, ended, head, String.append_assoc]

/-- The lexemes of the implementation that loads and saves a state. -/
def objectLexemes (name : String) (load save : List Lexeme) : List Lexeme :=
  ⟨.ident, "impl"⟩ :: (wordLexemes sdkName ["state", "StateObject"] ++
    ⟨.ident, "for"⟩ :: ⟨.ident, name⟩ :: ⟨.punct, "\x7b"⟩ ::
      (methodLexemes "load" [] (wordLexemes "Self" []) load ++
        (methodLexemes "save" [⟨.punct, "&"⟩, ⟨.ident, "self"⟩]
          (wordLexemes sdkName ["cid", "Cid"]) save ++ [⟨.punct, "\x7d"⟩])))

/-- The text of a state object is read as its lexemes, with balanced bodies. -/
theorem reads_objectText {name : String} (word : IsWord name) {load save : List String}
    (goes : Lines load [] []) (goes' : Lines save [] []) (ahead : List Char) :
    ∃ inner inner', Balanced inner ∧ Balanced inner' ∧
      Reads (objectText name load save).toList (objectLexemes name inner inner') ahead := by
  have front : settled? ("impl " ++ sdkName ++ "::state::StateObject for ").toList =
      some (⟨.ident, "impl"⟩ :: (wordLexemes sdkName ["state", "StateObject"] ++
        [⟨.ident, "for"⟩])) := by decide +kernel
  have loads : settled? " \x7b\n    fn load() -> Self \x7b\n".toList =
      some [⟨.punct, "\x7b"⟩, ⟨.ident, "fn"⟩, ⟨.ident, "load"⟩, ⟨.punct, "("⟩, ⟨.punct, ")"⟩,
        ⟨.punct, "->"⟩, ⟨.ident, "Self"⟩, ⟨.punct, "\x7b"⟩] := by decide +kernel
  have saves : settled? (ended ["    \x7d", "", "    " ++ saveHead]).toList =
      some (⟨.punct, "\x7d"⟩ :: ⟨.ident, "fn"⟩ :: ⟨.ident, "save"⟩ :: ⟨.punct, "("⟩ ::
        ⟨.punct, "&"⟩ :: ⟨.ident, "self"⟩ :: ⟨.punct, ")"⟩ :: ⟨.punct, "->"⟩ ::
          (wordLexemes sdkName ["cid", "Cid"] ++ [⟨.punct, "\x7b"⟩])) := by decide +kernel
  have last : settled? (ended ["    \x7d"] ++ "\x7d").toList =
      some [⟨.punct, "\x7d"⟩, ⟨.punct, "\x7d"⟩] := by decide +kernel
  obtain ⟨inner', reads', balanced'⟩ :=
    goes'.settled ((ended ["    \x7d"] ++ "\x7d").toList ++ ahead)
  obtain ⟨inner, reads, balanced⟩ := goes.settled
    ((ended ["    \x7d", "", "    " ++ saveHead] ++ (ended save ++
      (ended ["    \x7d"] ++ "\x7d"))).toList ++ ahead)
  refine ⟨inner, inner', balanced, balanced', ?_⟩
  have behind :=
    reads_append (reads_settled saves _) (reads_append reads' (reads_settled last ahead))
  have body := reads_append (reads_settled loads _) (reads_append reads behind)
  have seals : isEnd " \x7b\n    fn load() -> Self \x7b\n" := by decide
  have ends := ends_of_isEnd (isEnd_append seals
    (ended load ++ (ended ["    \x7d", "", "    " ++ saveHead] ++ (ended save ++
      (ended ["    \x7d"] ++ "\x7d"))))) ahead
  have called : Reads name.toList [⟨.ident, name⟩] _ := reads_token word (by simp) ends
  have whole := reads_append (reads_settled front _) (reads_append called body)
  simpa only [objectText, objectLexemes, methodLexemes, wordLexemes, List.append_assoc,
    List.cons_append, List.nil_append] using whole

end Objects

end Glue

/-- The implementation makes the named type a state object: it has the methods that load and save
it. -/
structure ImplItem.IsStateObject {σ : Type} (name : String) (found : ImplItem σ) : Prop where
  trait : found.trait.map (·.map fun _ => ()) = some (.ofWords [sdkName, "state", "StateObject"])
  selfTy : found.selfTy.map (fun _ => ()) = .path (.ofWords [name])
  members : ∃ load save, found.members = [.method load, .method save] ∧ load.name = "load" ∧
    save.name = "save"

theorem ImplItem.IsStateObject.map {σ τ : Type} {name : String} {found : ImplItem σ}
    (object : found.IsStateObject name) (place : σ → τ) :
    (found.map place).IsStateObject name := by
  obtain ⟨load, save, members, loads, saves⟩ := object.members
  constructor
  · rw [← object.trait]
    simp [ImplItem.map, Function.comp_def, TyPath.map_map]
  · rw [← object.selfTy]
    simp [ImplItem.map, Ty.map_map]
  · refine ⟨load.map place, save.map place, ?_, loads, saves⟩
    simp [ImplItem.map, members, Member.map]

namespace Glue

/-- A state object is read as an implementation for the name of the state. -/
theorem item_of_object {name : String} (word : IsWord name) (plain : name ∉ typeWords)
    {load save : List Lexeme} (balanced : Balanced load) (balanced' : Balanced save) :
    ∃ found, item (objectLexemes name load save) = .ok (.impl found, []) ∧
      found.IsStateObject name := by
  have path : ∀ word ∈ [sdkName, "state", "StateObject"], IsWord word := by
    simp only [List.forall_mem_cons]
    exact ⟨⟨_, _, rfl, rfl⟩, ⟨_, _, rfl, rfl⟩, ⟨_, _, rfl, rfl⟩, by simp⟩
  have address : ∀ word ∈ [sdkName, "cid", "Cid"], IsWord word := by
    simp only [List.forall_mem_cons]
    exact ⟨⟨_, _, rfl, rfl⟩, ⟨_, _, rfl, rfl⟩, ⟨_, _, rfl, rfl⟩, by simp⟩
  have self : ∀ word ∈ ["Self"], IsWord word :=
    List.forall_mem_singleton.mpr ⟨_, _, rfl, rfl⟩
  let saves := methodLexemes "save" [⟨.punct, "&"⟩, ⟨.ident, "self"⟩]
    (wordLexemes sdkName ["cid", "Cid"]) save ++ [⟨.punct, "\x7d"⟩]
  obtain ⟨saver, read', named'⟩ := @member_of_words sdkName "save" ["cid", "Cid"]
    [⟨.punct, "\x7d"⟩] [⟨.punct, "&"⟩, ⟨.ident, "self"⟩] save
    (fun ahead => ⟨_, inputs_self ahead⟩) (by decide) address balanced'
  obtain ⟨loader, read, named⟩ := @member_of_words "Self" "load" [] saves [] load
    (fun ahead => ⟨_, inputs_none ahead⟩) (by decide) self balanced
  have members : Repeats memberStep (methodLexemes "load" [] (wordLexemes "Self" []) load ++ saves)
      [.method loader, .method saver] [⟨.punct, "\x7d"⟩] := by
    refine repeats_members read (by rfl) (by simp [methodLexemes]; omega) ?_
    exact repeats_members read' (by rfl) (by simp [saves, methodLexemes]) repeats_noMember
  obtain ⟨found, taken, same, trait, selfTy⟩ := item_of_words (by decide) plain path word
    (implBody_of_members (by rfl) members)
  exact ⟨found, taken, trait, selfTy, loader, saver, same, named, named'⟩

end Glue

end ActorGlue
