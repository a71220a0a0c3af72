import ActorGlue.Parse.Source
import ActorGlue.Proofs.Parse.Balance
import ActorGlue.Proofs.Parse.Rows

/-!
# Files and items that are put together

Items that are read one after the other make up a file. A function is read whatever its name is and
whatever its body holds, if that is balanced.
-/

namespace ActorGlue

open Parse

variable {values : List (Item Extent)} {text word name : String} {inside : List Lexeme}

namespace Parse

section Files

variable {ahead left rest : List Lexeme}

theorem repeats_items {value : Item Extent} (read : item ahead = .ok (value, left))
    (shorter : left.length < ahead.length) (more : Repeats fileStep left values []) :
    Repeats fileStep ahead (value :: values) [] := by
  have some : ahead.isEmpty = false := by
    cases ahead with
    | nil => simp at shorter
    | cons lexeme rest => rfl
  have taken : fileStep ahead = .ok (([value], true), left) := by
    rw [fileStep, get_bind]
    simp only [some, Bool.false_eq_true, if_false]
    rw [bind_of_ok read]
    rfl
  exact .next taken shorter more

theorem repeats_noItem : Repeats fileStep [] [] [] :=
  .last rfl

theorem file_of_items {found : List (Attribute Extent)}
    (inner : attributes true ahead = .ok (found, rest)) (items : Repeats fileStep rest values []) :
    file ahead = .ok (values, []) :=
  (bind_of_ok inner).trans (many_eq_ok_iff.mpr items)

theorem innerStep_of_calm (calm : ahead[1]?.any (·.is "!") = false) :
    attributeStep true ahead = .ok (([], false), ahead) := by
  rw [attributeStep, at?_bind, at?_bind, calm]
  simp [pure_apply]

/-- Without an exclamation mark in the second place there are no inner attributes. -/
theorem innerAttributes_of_calm (calm : ahead[1]?.any (·.is "!") = false) :
    attributes true ahead = .ok ([], ahead) := by
  rw [attributes, many_eq_ok_iff]
  exact .last (innerStep_of_calm calm)

/-- Without the mark of an attribute there are no inner attributes. -/
theorem innerAttributes_of_free (free : ahead[0]?.any (·.is "#") = false) :
    attributes true ahead = .ok ([], ahead) := by
  rw [attributes, many_eq_ok_iff]
  refine .last ?_
  rw [attributeStep, at?_bind, free]
  rfl

/-- The inner attributes among blocks are the first of them. -/
theorem innerAttributes_of_blocks (blocks : List Block)
    (ends : rest[0]?.any (·.is "#") = false) :
    ∃ dropped kept found, blocks = dropped ++ kept ∧
      attributes true (Block.all blocks ++ rest) = .ok (found, Block.all kept ++ rest) := by
  simp only [attributes, many_eq_ok_iff]
  induction blocks with
  | nil =>
    refine ⟨[], [], [], rfl, .last ?_⟩
    rw [attributeStep, at?_bind, Block.all, List.flatMap_nil, List.nil_append, ends]
    rfl
  | cons block blocks ih =>
    have whole : Block.all (block :: blocks) ++ rest =
        block.hash :: (block.inside ++ block.closer :: (Block.all blocks ++ rest)) := by
      simp [Block.all, Block.lexemes]
    cases bang : (Block.all (block :: blocks) ++ rest)[1]?.any (·.is "!") with
    | false => exact ⟨[], block :: blocks, [], rfl, .last (innerStep_of_calm bang)⟩
    | true =>
      obtain ⟨dropped, kept, found, rfl, repeats⟩ := ih
      have taken : attributeStep true (Block.all (block :: (dropped ++ kept)) ++ rest) =
          .ok (([block.attr.map (Stretch.extent (Block.all (dropped ++ kept) ++ rest).length)],
            true), Block.all (dropped ++ kept) ++ rest) := by
        rw [attributeStep, at?_bind, at?_bind, bang, whole]
        simp only [List.getElem?_cons_zero, Option.any_some, block.begins, Bool.not_true,
          Bool.false_or, Bool.and_self, if_true]
        rw [bind_of_ok (block.reads _)]
        rfl
      refine ⟨block :: dropped, kept, _, rfl, .next taken ?_ repeats⟩
      rw [whole]
      simp only [List.length_cons, List.length_append]
      omega

section Marks

/-- The text is written for attributes alone, and the first of them is no inner one. -/
def marksFit (text : String) : Bool :=
  (Scan.settled? text.toList).any fun lexemes =>
    lexemes[0]?.any (·.is "#") && lexemes[1]?.any (!·.is "!") &&
      (attributes false lexemes).toOption.any (·.2.isEmpty)

/-- Fixed attributes are blocks. -/
theorem exists_of_marksFit (fits : marksFit text) :
    ∃ blocks : List Block, (∀ ahead, Scan.Reads text.toList (Block.all blocks) ahead) ∧
      (Block.all blocks)[0]?.any (·.is "#") ∧ (Block.all blocks)[1]?.any (!·.is "!") := by
  unfold marksFit at fits
  cases settled : Scan.settled? text.toList with
  | none => simp [settled] at fits
  | some lexemes =>
    simp only [settled, Option.any_some, Bool.and_eq_true] at fits
    obtain ⟨⟨first, second⟩, fits⟩ := fits
    have reads := Scan.reads_settled settled
    cases read : attributes false lexemes with
    | error complaint => simp [read, Except.toOption] at fits
    | ok result =>
      obtain ⟨found, left⟩ := result
      obtain rfl : left = [] := by simpa [read, Except.toOption] using fits
      obtain ⟨blocks, whole, -⟩ := Block.exists_of_attributes (reads []).isScanned read
      obtain rfl : lexemes = Block.all blocks := by simpa using whole
      exact ⟨blocks, reads, first, second⟩

end Marks

end Files

end Parse

theorem parseFile_of_ok {source : Source} {text : List Char} {left : List Lexeme}
    (read : Source.read text = .ok source) (parsed : file source.lexemes = .ok (values, left)) :
    parseFile text = .ok (values.map (·.map source.span)) := by
  simp only [parseFile, read, Source.run, parsed, bind, Except.bind, pure, Except.pure]

/-- What begins no word is no word. -/
theorem Lexeme.IsScanned.is_of_scanned (scanned : Lexeme.IsScanned ⟨.ident, word⟩)
    (other : text.toList.head?.any Scan.isWordStart = false) :
    Lexeme.is ⟨.ident, word⟩ text = false := by
  have apart : word ≠ text := by
    rintro rfl
    rw [scanned rfl] at other
    cases other
  simp [Lexeme.is, apart]

namespace Parse

section Words

variable {rest : List Lexeme}

/-- Nothing goes on with a path of plain words. -/
def endsPath (ahead : List Lexeme) : Bool :=
  !ahead[0]?.any fun lexeme =>
    lexeme.is "::" || lexeme.is "<" || lexeme.is "(" || lexeme.is "!" || lexeme.is "+"

theorem endsPath_iff : endsPath rest = true ↔ rest[0]?.any (·.is "::") = false ∧
    rest[0]?.any (·.is "<") = false ∧ rest[0]?.any (·.is "(") = false ∧
    rest[0]?.any (·.is "!") = false ∧ rest[0]?.any (·.is "+") = false := by
  unfold endsPath
  cases rest[0]? with
  | none => simp
  | some lexeme => simp [and_assoc]

theorem segment_of_word (g : Grammar) (word : String)
    (colons : (rest[0]?.any (·.is "::") && rest[1]?.any (·.is "<")) = false)
    (angle : rest[0]?.any (·.is "<") = false) (round : rest[0]?.any (·.is "(") = false) :
    segment g (⟨.ident, word⟩ :: rest) =
      .ok (.mk ⟨rest.length + 1, rest.length⟩ word .absent, rest) := by
  have named : expectIdent "a path segment" (⟨.ident, word⟩ :: rest) = .ok (word, rest) := rfl
  have plain : turbofish rest = .ok ((), rest) := by
    rw [turbofish, at?_bind, at?_bind, colons]
    rfl
  have absent : segmentArgs g word rest = .ok (.absent, rest) := by
    rw [segmentArgs, at?_bind, at?_bind, angle, round]
    rfl
  rw [Parse.segment, mark_bind, bind_of_ok named, bind_of_ok plain, bind_of_ok absent]
  rfl

theorem pathHead_of_word (g : Grammar) (scanned : Lexeme.IsScanned ⟨.ident, word⟩) :
    pathHead g (⟨.ident, word⟩ :: rest) = .ok (.relative, ⟨.ident, word⟩ :: rest) := by
  have noAngle : Lexeme.is ⟨.ident, word⟩ "<" = false := scanned.is_of_scanned (by decide)
  have noColons : Lexeme.is ⟨.ident, word⟩ "::" = false := scanned.is_of_scanned (by decide)
  rw [pathHead, mark_bind, eat_bind, if_neg (by simp [noAngle])]
  simp only [Bool.false_eq_true, if_false]
  rw [eat_bind, if_neg (by simp [noColons])]
  rfl

/-- The words with which a type begins that is no path of plain words. -/
def typeWords : List String :=
  ["_", "impl", "dyn", "fn", "unsafe", "extern", "for", "mut", "const", "where", "as"]

theorem tyLayer_of_word (g : Grammar) (sum : Bool) (plain : word ∉ typeWords) :
    tyLayer g sum (⟨.ident, word⟩ :: rest) = pathTy g sum (⟨.ident, word⟩ :: rest) := by
  have noMark : ∀ text, Lexeme.isPunct ⟨.ident, word⟩ text = false := by simp [Lexeme.isPunct]
  simp only [typeWords, List.mem_cons, List.not_mem_nil, or_false, not_or] at plain
  rw [tyLayer, get_bind]
  simp [noMark, Lexeme.isIdent, startsBareFn, fnWords, startsPath, plain]

end Words

section Functions

variable {kind : String} {rest left : List Lexeme}

theorem bodyStep_of_plain {lexeme : Lexeme} (plain : lexeme.isDelimiter = false)
    (more : lexeme.isPunct ";" = false) :
    bodyStep kind (lexeme :: rest) = .ok (([], true), rest) := by
  simp only [Lexeme.isDelimiter, Bool.or_eq_false_iff] at plain
  have noBrace : lexeme.isPunct "\x7b" = false := by
    by_contra brace
    simp only [Lexeme.isPunct, Bool.not_eq_false, Bool.and_eq_true, decide_eq_true_eq] at brace
    rw [Lexeme.closer?, if_pos brace.1, brace.2] at plain
    exact absurd plain.1 (by decide)
  rw [bodyStep_cons, bodyStepAt]
  simp only [more, noBrace, plain, Bool.false_eq_true, if_false, skip_bind]
  rfl

theorem repeats_plain {lexemes : List Lexeme}
    (plain : ∀ lexeme ∈ lexemes, lexeme.isDelimiter = false ∧ lexeme.isPunct ";" = false)
    (more : Repeats (bodyStep kind) rest [] left) :
    Repeats (bodyStep kind) (lexemes ++ rest) [] left := by
  induction lexemes with
  | nil => exact more
  | cons lexeme lexemes ih =>
    obtain ⟨here, behind⟩ := List.forall_mem_cons.mp plain
    exact .next (bodyStep_of_plain here.1 here.2) (by simp) (ih behind)

theorem bodyStep_of_parens (balanced : Balanced inside) :
    bodyStep kind (⟨.punct, "("⟩ :: (inside ++ ⟨.punct, ")"⟩ :: rest)) =
      .ok (([], true), rest) := by
  rw [bodyStep_cons, bodyStepAt, if_neg (by decide), if_neg (by decide), if_pos (by decide),
    bind_of_ok (group_of_balanced (by decide) (by decide) balanced rest)]
  rfl

theorem bodyStep_of_braces (balanced : Balanced inside) (noMacro : kind ≠ "macro") :
    bodyStep kind (⟨.punct, "\x7b"⟩ :: (inside ++ ⟨.punct, "\x7d"⟩ :: rest)) =
      .ok (([], false), rest) := by
  rw [bodyStep_cons, bodyStepAt, if_neg (by decide), if_pos (by decide), bodyBraces,
    bind_of_ok (group_of_balanced (by decide) (by decide) balanced rest)]
  simp only [noMacro, if_false]
  rfl

/-- The lexemes of a public function from its visibility on. -/
def functionLexemes (name : String) (params output body : List Lexeme) : List Lexeme :=
  ⟨.ident, "pub"⟩ :: ⟨.ident, "fn"⟩ :: ⟨.ident, name⟩ :: ⟨.punct, "("⟩ ::
    (params ++ ⟨.punct, ")"⟩ :: (output ++ ⟨.punct, "\x7b"⟩ :: (body ++ [⟨.punct, "\x7d"⟩])))

/-- A function with balanced parameters and a balanced body is an item. -/
theorem item_of_function (blocks : List Block) {params output body : List Lexeme}
    (scanned : Lexeme.IsScanned ⟨.ident, name⟩) (balanced : Balanced params)
    (plain : ∀ lexeme ∈ output, lexeme.isDelimiter = false ∧ lexeme.isPunct ";" = false)
    (balanced' : Balanced body) :
    ∃ found, item (Block.all blocks ++ functionLexemes name params output body) =
      .ok (.other found, []) ∧ found.kind = "fn" ∧ found.name = some name := by
  let rest : List Lexeme := ⟨.ident, name⟩ :: ⟨.punct, "("⟩ ::
    (params ++ ⟨.punct, ")"⟩ :: (output ++ ⟨.punct, "\x7b"⟩ :: (body ++ [⟨.punct, "\x7d"⟩])))
  let ahead := Block.all blocks ++ functionLexemes name params output body
  have noBang : Lexeme.is ⟨.ident, name⟩ "!" = false := scanned.is_of_scanned (by decide)
  have attributed : attributes false ahead = .ok (Block.placed _ blocks, _) :=
    @Block.attributes_all (functionLexemes name params output body) blocks (by rfl)
  have seen : visibility (functionLexemes name params output body) =
      .ok (.everyone ⟨rest.length + 2, rest.length + 1⟩, ⟨.ident, "fn"⟩ :: rest) := by
    rw [functionLexemes, visibility, get_bind]
    rfl
  have kind : itemKind [] ⟨.ident, "fn"⟩ rest = ("fn", some name) := by
    simp [itemKind, rest, noBang, Lexeme.isPunct]
  have taken : itemBody "fn" (⟨.ident, "fn"⟩ :: rest) = .ok ((), []) := by
    have repeats : Repeats (bodyStep "fn") (⟨.ident, "fn"⟩ :: rest) [] [] := by
      refine @repeats_plain "fn" (⟨.punct, "("⟩ :: _) [] [⟨.ident, "fn"⟩, ⟨.ident, name⟩] ?_ ?_
      · simp [Lexeme.isDelimiter, Lexeme.closer?, Lexeme.isCloser, Lexeme.isPunctOf, Lexeme.isPunct]
      · refine .next (bodyStep_of_parens balanced) (by simp; omega) (repeats_plain plain ?_)
        exact .last (bodyStep_of_braces balanced' (by decide))
    rw [itemBody, bind_of_ok (many_eq_ok_iff.mpr repeats)]
    rfl
  have other : ∀ attributes visibility,
      otherItem ahead.length attributes visibility (⟨.ident, "fn"⟩ :: rest) =
        .ok (⟨⟨ahead.length, 0⟩, attributes, visibility, "fn", some name⟩, []) := by
    intro attributes visibility
    refine otherItem_eq_ok.mpr ⟨[], ⟨.ident, "fn"⟩, rest, rfl, ?_⟩
    rw [otherRest, kind]
    dsimp only
    rw [if_neg (by decide), if_pos (by decide), bind_of_ok taken]
    rfl
  have read : item ahead = .ok (.other ⟨⟨ahead.length, 0⟩, Block.placed
      (functionLexemes name params output body).length blocks,
      .everyone ⟨rest.length + 2, rest.length + 1⟩, "fn", some name⟩, []) := by
    rw [item_apply (by simp [ahead, functionLexemes]), bind_of_ok attributed, bind_of_ok seen,
      itemRest_cons, if_neg (by decide), if_neg (by simp [startsImpl, rest, Lexeme.isIdent]),
      bind_of_ok (other _ _)]
    rfl
  exact ⟨_, read, rfl, rfl⟩

end Functions

end Parse

end ActorGlue
