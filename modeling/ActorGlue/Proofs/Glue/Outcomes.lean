import ActorGlue.Glue.Lower
import ActorGlue.Proofs.Glue.Text
import ActorGlue.Proofs.Token.Literal

/-!
# Outcomes of steps

The result of a step is named by a word. The call that aborts is written for every abort whose exit
code has a name and whose message needs no escapes, and it closes what it opens. So do the lines
that bind the good outcome of an expression and abort on the bad one.
-/

namespace ActorGlue

open Scan

namespace Glue

theorem isWord_resultName (index : Nat) : IsWord (resultName index) := by
  have text : (resultName index).toList = 'g' :: (toString index).toList := by simp [resultName]
  refine .of_parts (by decide) text fun c member => ?_
  rw [Nat.toString_eq_ofList_toDigits, String.toList_ofList] at member
  simp [isWordPart, Nat.isDigit_of_mem_toDigits (by decide) le_rfl member]

section Calls

theorem settled_literal (text : String) (owed : List String) :
    Settled (Text.literal text) owed owed := by
  intro ahead
  have plain : Lexeme.isDelimiter ⟨.str, Text.literal text⟩ = false := by
    simp [Lexeme.isDelimiter, Lexeme.closer?, Lexeme.isCloser, Lexeme.isPunctOf]
  exact @Goes.of_plain ahead ⟨.str, Text.literal text⟩ (reads_literal text ahead) plain owed

theorem isWord_exitCodeName {code : Int} {name : String} (named : exitCodeName? code = some name) :
    IsWord name := by
  unfold exitCodeName? at named
  split_ifs at named <;> obtain rfl := Option.some.inj named <;> exact ⟨'U', _, rfl, rfl⟩

/-- What needs no escapes is written between quotes as it is. -/
theorem literal_of_plain {text : String} (plain : ∀ c ∈ text.toList, Text.escapeChar c = [c]) :
    Text.literal text = "\"" ++ text ++ "\"" := by
  have same : Text.escape text.toList = text.toList := by
    rw [Text.escape, List.flatMap_congr plain, List.flatMap_singleton']
  apply String.toList_injective
  simp [Text.literal, same]

/-- The call with an exit code and the text of a message. -/
theorem settled_abort {name message : String} (word : IsWord name)
    (settled : Settled message [] []) :
    Settled (sdkName ++ "::syscall::vm::abort(" ++ sdkName ++ "::shared::error::ExitCode::" ++
      name ++ ".value(), " ++ message ++ ")") [] [] := by
  have sdk : IsWord sdkName := ⟨'f', _, rfl, rfl⟩
  have shared : IsWord "shared" := ⟨'s', _, rfl, rfl⟩
  have error : IsWord "error" := ⟨'e', _, rfl, rfl⟩
  have codes : IsWord "ExitCode" := ⟨'E', _, rfl, rfl⟩
  have value : IsWord "value" := ⟨'v', _, rfl, rfl⟩
  have path : Whole ("::".intercalate [sdkName, "shared", "error", "ExitCode", name]) := by
    refine whole_intercalate (settled_colons []) (by decide) ?_
    simp only [List.forall_mem_cons]
    exact ⟨.of_word sdk, .of_word shared, .of_word error, .of_word codes, .of_word word, by simp⟩
  have opens : Settled (sdkName ++ "::syscall::vm::abort(") [] [")"] :=
    settled_of_fixed (by decide +kernel)
  have called : Settled "(), " [")"] [")"] := settled_of_fixed (by decide +kernel)
  have closes : Settled ")" [")"] [] := settled_of_fixed (by decide +kernel)
  have text := opens.append ((path.member value).settled (isEnd_append (by decide) _)
    (called.append ((settled.outer [")"]).append closes)))
  have colons : "::shared::error::ExitCode::" =
      "::" ++ "shared" ++ "::" ++ "error" ++ "::" ++ "ExitCode" ++ "::" := by decide
  have calls : ".value(), " = "." ++ "value" ++ "(), " := by decide
  rw [colons, calls]
  simp only [String.intercalate_cons_cons, String.intercalate_singleton, String.append_assoc]
    at text ⊢
  exact text

/-- The exit code of the abort has a name, and its message needs no escapes. -/
def Abort.isPlain (abort : Abort) : Bool :=
  (exitCodeName? abort.exitCode).isSome && abort.message.toList.all fun c => Text.escapeChar c = [c]

variable {abort : Abort}

/-- The call of a plain abort closes what it opens. -/
theorem abortCall_ok (plain : abort.isPlain) (withError : Bool) :
    ∃ call, abortCall sdkName abort withError = .ok call ∧ Settled call [] [] := by
  simp only [Abort.isPlain, Bool.and_eq_true, List.all_eq_true, decide_eq_true_eq] at plain
  obtain ⟨known, plain⟩ := plain
  obtain ⟨name, named⟩ := Option.isSome_iff_exists.mp known
  simp only [abortCall, named, Except.ok.injEq, exists_eq_left']
  apply settled_abort (isWord_exitCodeName named)
  have detail : ": \x7b:?\x7d".toList.all fun c => Text.escapeChar c = [c] := by decide
  split_ifs
  · have detailed : Text.literal (abort.message ++ ": \x7b:?\x7d") =
        "\"" ++ (abort.message ++ ": \x7b:?\x7d") ++ "\"" := by
      refine literal_of_plain fun c member => ?_
      rw [String.toList_append, List.mem_append] at member
      rcases member with member | member
      · exact plain c member
      · exact of_decide_eq_true (List.all_eq_true.mp detail c member)
    have front : Settled "Some(format!(" [] [")", ")"] := settled_of_fixed (by decide +kernel)
    have back : Settled ", err).as_str())" [")", ")"] [] := settled_of_fixed (by decide +kernel)
    have text := front.append ((settled_literal (abort.message ++ ": \x7b:?\x7d") _).append back)
    have opening : "Some(format!(\"" = "Some(format!(" ++ "\"" := by decide
    have closing : ": \x7b:?\x7d\", err).as_str())" =
        ": \x7b:?\x7d" ++ "\"" ++ ", err).as_str())" := by decide
    rw [detailed] at text
    rw [opening, closing]
    simp only [String.append_assoc] at text ⊢
    exact text
  · exact settled_applied (by decide +kernel) (settled_literal abort.message []).whole

/-- The line of an outcome that aborts closes what it opens. -/
theorem settled_outcome {outcome call : String} (opens : fixed? outcome [] = some [])
    (settled : Settled call [] []) : Settled (outcome ++ call ++ "," ++ "\n") [] [] := by
  have last : Settled ("," ++ "\n") [] [] := settled_of_fixed (by decide +kernel)
  rw [String.append_assoc]
  exact ((settled_of_fixed opens).append settled).append last

end Calls

theorem abortOf_onError (op : Op) (args : List String) (metadata : List (String × Document))
    (code : Int) (message id : String) :
    Instruction.abortOf ⟨⟨op, args, metadata, onError code message⟩, id⟩ =
      .ok ⟨code, message, true⟩ :=
  rfl

/-- The lines that bind the good outcome of an expression close what they open. -/
theorem lines_matchResult {binding expr : String} (pattern value : String) (abort : Abort)
    (bound : Whole binding) (whole : Whole expr)
    (good : fixed? ("Ok(" ++ pattern ++ ") => " ++ value ++ "," ++ "\n") [] = some [])
    (plain : abort.isPlain) :
    ∃ lines, matchResult sdkName binding expr pattern value abort = .ok lines ∧
      Lines lines [] [] := by
  obtain ⟨call, called, settled⟩ := abortCall_ok plain true
  have bad := settled_outcome (show fixed? "Err(err) => " [] = some [] by decide +kernel) settled
  have opens : Settled ("let " ++ binding ++ " = match " ++ expr ++ " \x7b" ++ "\n") []
      ["\x7d"] := by
    have start : Settled "let " [] [] := settled_of_fixed (by decide +kernel)
    have middle : Settled " = match " [] [] := settled_of_fixed (by decide +kernel)
    have last : Settled (" \x7b" ++ "\n") [] ["\x7d"] := settled_of_fixed (by decide +kernel)
    simp only [String.append_assoc]
    exact start.append (bound.settled (isEnd_append (by decide) _)
      (middle.append (whole.settled (by decide) last)))
  have arms : Lines ["Ok(" ++ pattern ++ ") => " ++ value ++ ",", "Err(err) => " ++ call ++ ","]
      [] [] := ⟨[], settled_of_fixed good, .single bad⟩
  refine ⟨_, by rw [matchResult, called]; rfl, .enclosed opens arms ?_⟩
  exact settled_of_fixed (by decide +kernel)

end Glue

end ActorGlue
