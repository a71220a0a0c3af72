import ActorGlue.Proofs.Expansion.Files
import ActorGlue.Proofs.Parse.Generated
import ActorGlue.Proofs.Token.Literal

/-!
# Directives

The errors of a diagnostic are rendered as a file of directives. The file is read back: it has one
directive for each error, in order, and the string in the directive stands for the position and the
message of the error.
-/

namespace ActorGlue

open Parse

/-- The item is a directive to fail a compilation, and the one string in its text stands for the
message. -/
structure Item.Directs (text : List Char) (message : String) (item : Item Span) : Prop where
  invocation : ∃ found, item = .other found ∧ found.kind = "macro" ∧
    found.name = some "compile_error"
  literal : ∃ tokens token, tokenize (item.place.slice text) = .ok tokens ∧
    tokens.filter (·.kind = .str) = [token] ∧ Annotation.textValue? token.toLexeme = some message

/-- What the directive of an error says. -/
def Leaf.told (leaf : Leaf) (source : Option (List Char)) : String :=
  leaf.positionText source ++ leaf.message

def directiveLexemes (message : String) : List Lexeme :=
  [⟨.ident, "compile_error"⟩, ⟨.punct, "!"⟩, ⟨.punct, "\x7b"⟩, ⟨.str, Text.literal message⟩,
    ⟨.punct, "\x7d"⟩]

section Tokens

open Scan

theorem reads_directive (leaf : Leaf) (source : Option (List Char)) (ahead : List Char) :
    Reads (leaf.directive source).toList (directiveLexemes (leaf.told source)) ahead := by
  have opening : settled? "compile_error ! \x7b ".toList =
      some [⟨.ident, "compile_error"⟩, ⟨.punct, "!"⟩, ⟨.punct, "\x7b"⟩] := by decide +kernel
  have closing : settled? " \x7d".toList = some [⟨.punct, "\x7d"⟩] := by decide +kernel
  have text : leaf.directive source =
      "compile_error ! \x7b " ++ Text.literal (leaf.told source) ++ " \x7d" := rfl
  have lexemes : directiveLexemes (leaf.told source) =
      [⟨.ident, "compile_error"⟩, ⟨.punct, "!"⟩, ⟨.punct, "\x7b"⟩] ++
        [⟨.str, Text.literal (leaf.told source)⟩] ++ [⟨.punct, "\x7d"⟩] := rfl
  rw [text, lexemes, String.toList_append, String.toList_append]
  exact ((reads_settled opening _).append (reads_literal _ _)).append (reads_settled closing ahead)

/-- The lexemes of what is rendered are those of its directives. -/
theorem reads_directives (leaves : List Leaf) (source : Option (List Char)) (ahead : List Char) :
    Reads (" ".intercalate (leaves.map (·.directive source))).toList
      ((leaves.map (·.told source)).flatMap directiveLexemes) ahead := by
  induction leaves with
  | nil => exact .nil ahead
  | cons leaf leaves ih =>
    cases leaves with
    | nil => simpa using reads_directive leaf source ahead
    | cons next leaves =>
      have blank := reads_blank (show Text.isBlank ' ' by decide)
      simp only [List.map_cons, String.intercalate_cons_cons, String.toList_append,
        List.flatMap_cons] at ih ⊢
      rw [List.append_assoc]
      exact (reads_directive leaf source _).append ((blank _).append ih)

end Tokens

section Items

variable {message : String} {rest : List Lexeme}

/-- The braces of an invocation end it in front of what is no semicolon. -/
theorem bodyStep_of_invocation {inside : List Lexeme} (balanced : Balanced inside)
    (free : rest[0]?.any (·.is ";") = false) :
    bodyStep "macro" (⟨.punct, "\x7b"⟩ :: (inside ++ ⟨.punct, "\x7d"⟩ :: rest)) =
      .ok (([], false), rest) := by
  rw [bodyStep_cons, bodyStepAt, if_neg (by decide), if_pos (by decide), bodyBraces,
    bind_of_ok (group_of_balanced (by decide) (by decide) balanced rest), if_pos rfl, eat_bind,
    if_neg (by simp [free])]
  rfl

theorem balanced_literal (message : String) : Balanced [⟨.str, Text.literal message⟩] := by
  rw [Balanced, owe_cons, owing_of_plain (by simp [Lexeme.isDelimiter, Lexeme.closer?,
    Lexeme.isCloser, Lexeme.isPunctOf])]
  rfl

theorem itemBody_of_directive (message : String) (free : rest[0]?.any (·.is ";") = false) :
    itemBody "macro" (directiveLexemes message ++ rest) = .ok ((), rest) := by
  have braces := bodyStep_of_invocation (balanced_literal message) free
  have repeats : Repeats (bodyStep "macro") (directiveLexemes message ++ rest) [] rest :=
    @repeats_plain "macro" _ rest [⟨.ident, "compile_error"⟩, ⟨.punct, "!"⟩] (by decide)
      (.last braces)
  rw [itemBody, bind_of_ok (many_eq_ok_iff.mpr repeats)]
  rfl

/-- A directive is read as an item in front of what is no semicolon. -/
theorem item_of_directive (message : String) (free : rest[0]?.any (·.is ";") = false) :
    item (directiveLexemes message ++ rest) =
      .ok (.other ⟨⟨rest.length + 5, rest.length⟩, [], .inherited, "macro",
        some "compile_error"⟩, rest) := by
  obtain ⟨body, same⟩ : ∃ body, directiveLexemes message ++ rest =
      ⟨.ident, "compile_error"⟩ :: ⟨.punct, "!"⟩ :: body := ⟨_, rfl⟩
  have size : (directiveLexemes message ++ rest).length = rest.length + 5 := by
    simp only [directiveLexemes, List.cons_append, List.nil_append, List.length_cons]
  have bare : attributes false (directiveLexemes message ++ rest) =
      .ok ([], directiveLexemes message ++ rest) :=
    @Block.attributes_all (directiveLexemes message ++ rest) [] (by rw [same]; rfl)
  have seen : visibility (directiveLexemes message ++ rest) =
      .ok (.inherited, directiveLexemes message ++ rest) := by
    rw [same, visibility, get_bind]
    rfl
  have other : otherItem (rest.length + 5) [] .inherited (directiveLexemes message ++ rest) =
      .ok (⟨⟨rest.length + 5, rest.length⟩, [], .inherited, "macro", some "compile_error"⟩,
        rest) := by
    refine otherItem_eq_ok.mpr ⟨[], ⟨.ident, "compile_error"⟩, ⟨.punct, "!"⟩ :: body, ?_, ?_⟩
    · rw [same]
      rfl
    · have kind : itemKind [] ⟨.ident, "compile_error"⟩ (⟨.punct, "!"⟩ :: body) =
          ("macro", some "compile_error") := rfl
      rw [otherRest, kind]
      dsimp only
      rw [if_neg (by decide), if_pos (by decide), bind_of_ok (itemBody_of_directive message free)]
      rfl
  rw [item_apply (by simp [same]), size, bind_of_ok bare, bind_of_ok seen]
  rw [same] at other ⊢
  rw [itemRest_cons, if_neg (by decide), if_neg (by simp [startsImpl, Lexeme.isIdent, Lexeme.is]),
    bind_of_ok other]
  rfl

theorem directives_free (messages : List String) {text : String} (other : text ≠ "compile_error") :
    (messages.flatMap directiveLexemes)[0]?.any (·.is text) = false := by
  cases messages with
  | nil => rfl
  | cons message messages => simp [directiveLexemes, Lexeme.is, other.symm]

end Items

/-- The text of an extent that ends with a barrier has the lexemes of the extent. -/
theorem Source.tokenize_extent {source : Source} (read : Source.read source.text = .ok source)
    {outer inside rest : List Lexeme} {first last : Lexeme} (barrier : last.isBarrier)
    (whole : source.lexemes = outer ++ first :: (inside ++ last :: rest)) :
    ∃ tokens, tokenize ((source.span ⟨inside.length + 2 + rest.length, rest.length⟩).slice
        source.text) = .ok tokens ∧ tokens.map (·.toLexeme) = first :: (inside ++ [last]) := by
  obtain ⟨before, opening, middle, closing, after, tokens, rfl, rfl, rfl, span⟩ :=
    Source.tokens_around whole
  obtain ⟨found, tokenized, shifted⟩ :=
    tokenize_through barrier (tokens ▸ (Source.read_eq_ok.mp read).1)
  refine ⟨found, by rw [span]; exact tokenized, ?_⟩
  rw [← lexemes_shift found opening.start, ← shifted]
  simp

/-- A directive in a source is an item with its message. -/
theorem Source.directs {source : Source} (read : Source.read source.text = .ok source)
    {outer rest : List Lexeme} {message : String}
    (whole : source.lexemes = outer ++ (directiveLexemes message ++ rest))
    {value : OtherItem Extent} (place : value.place = ⟨rest.length + 5, rest.length⟩)
    (kind : value.kind = "macro") (name : value.name = some "compile_error") :
    ((Item.other value).map source.span).Directs source.text message := by
  have barrier : Lexeme.isBarrier ⟨.punct, "\x7d"⟩ := by decide
  obtain ⟨found, tokenized, lexemes⟩ := @Source.tokenize_extent source read outer
    [⟨.punct, "!"⟩, ⟨.punct, "\x7b"⟩, ⟨.str, Text.literal message⟩] rest _ _ barrier whole
  have strings : (found.filter (·.kind = .str)).map (·.toLexeme) =
      [⟨.str, Text.literal message⟩] := by
    have filtered : (found.filter (·.kind = .str)).map (·.toLexeme) =
        (found.map (·.toLexeme)).filter (·.kind = .str) := by
      rw [List.filter_map]
      rfl
    rw [filtered, lexemes]
    rfl
  obtain ⟨token, only, literal⟩ := List.map_eq_singleton_iff.mp strings
  refine ⟨⟨_, rfl, kind, name⟩, found, token, ?_, only, ?_⟩
  · have span : ((Item.other value).map source.span).place = source.span value.place := rfl
    rw [span, place, Nat.add_comm]
    exact tokenized
  · rw [literal]
    exact Annotation.textValue?_literal message

/-- Directives in a source are read as items, each with its message. -/
theorem repeats_directives {source : Source} (read : Source.read source.text = .ok source)
    {outer : List Lexeme} {messages : List String}
    (whole : source.lexemes = outer ++ messages.flatMap directiveLexemes) :
    ∃ values, Repeats fileStep (messages.flatMap directiveLexemes) values [] ∧
      List.Forall₂ (fun message value => (value.map source.span).Directs source.text message)
        messages values := by
  induction messages generalizing outer with
  | nil => exact ⟨[], repeats_noItem, .nil⟩
  | cons message messages ih =>
    rw [List.flatMap_cons] at whole ⊢
    obtain ⟨values, repeats, directs⟩ := @ih (outer ++ directiveLexemes message) (by simp [whole])
    have taken := item_of_directive message (directives_free messages (by decide))
    refine ⟨_, repeats_items taken ?_ repeats, .cons ?_ directs⟩
    · simp only [List.length_append]
      have some : 0 < (directiveLexemes message).length := Nat.succ_pos _
      omega
    · exact Source.directs read whole rfl rfl rfl

/-- What a diagnostic is rendered as is read back as its directives. -/
theorem Diagnostic.parseFile_render (diagnostic : Diagnostic) (source : Option (List Char)) :
    ∃ items, parseFile (diagnostic.render source).toList = .ok items ∧
      List.Forall₂ (fun leaf item => Item.Directs (diagnostic.render source).toList
        (leaf.told source) item) diagnostic.errors items := by
  have reads := reads_directives diagnostic.errors source []
  obtain ⟨tokens, tokenized, lexemes⟩ := Scan.reads_iff_tokenize.mp reads
  let file : Source := ⟨(diagnostic.render source).toList, tokens.toArray⟩
  have read : Source.read file.text = .ok file := Source.read_eq_ok.mpr ⟨tokenized, rfl⟩
  have whole : file.lexemes = [] ++ (diagnostic.errors.map (·.told source)).flatMap directiveLexemes := by
    simpa [Source.lexemes, file] using lexemes
  obtain ⟨values, repeats, directs⟩ := repeats_directives read whole
  have parsed : Parse.file file.lexemes = .ok (values, []) := by
    rw [whole]
    exact file_of_items (innerAttributes_of_free (directives_free _ (by decide))) repeats
  refine ⟨values.map (·.map file.span), ?_, ?_⟩
  · exact parseFile_of_ok read parsed
  · rw [List.forall₂_map_right_iff]
    rw [List.forall₂_map_left_iff] at directs
    exact directs

end ActorGlue
