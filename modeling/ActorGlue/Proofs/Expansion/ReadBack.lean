import ActorGlue.Proofs.Expansion.Files
import ActorGlue.Proofs.Glue.Declared
import ActorGlue.Proofs.Glue.Objects

/-!
# Expansions are read back

The source of an expansion is a file again. A payload is read back as the declared structure, a
state as the declared structure and the implementation that loads and saves it, and an actor as the
declared implementation block and the function that dispatches to it. The last token of an item is a
barrier, so the item is read in front of the generated text as it is by itself.
-/

namespace ActorGlue

open Parse Scan

section Bare

variable {σ τ : Type}

/-- The item without its places and without the attributes in front of it. -/
def Item.bare (item : Item σ) : Item Unit :=
  (item.map fun _ => ()).withHead () []

theorem Item.bare_map (item : Item σ) (f : σ → τ) : (item.map f).bare = item.bare := by
  rw [bare, map_map]
  rfl

theorem Item.exists_struct {item : Item σ} {found : StructItem τ}
    (same : item.bare = (Item.struct found).bare) :
    ∃ own, item = .struct own ∧ own.name = found.name := by
  cases item with
  | struct own => exact ⟨own, rfl, congrArg StructItem.name (Item.struct.inj same)⟩
  | impl own => cases same
  | other own => cases same

theorem Item.exists_impl {item : Item σ} {found : ImplItem τ}
    (same : item.bare = (Item.impl found).bare) : ∃ own, item = .impl own := by
  cases item with
  | struct own => cases same
  | impl own => exact ⟨own, rfl⟩
  | other own => cases same

theorem Item.bare_withHead (item : Item σ) (place : σ) (attributes : List (Attribute σ)) :
    (item.withHead place attributes).bare = item.bare := by
  cases item <;> rfl

end Bare

section Files

variable {text : List Char} {item : Item Span}

theorem parseFile_of_reads {lexemes : List Lexeme} {values : List (Item Extent)}
    (reads : Reads text lexemes []) (parsed : Parse.file lexemes = .ok (values, [])) :
    ∃ place : Extent → Span, parseFile text = .ok (values.map (·.map place)) := by
  obtain ⟨tokens, tokenized, rfl⟩ := reads_iff_tokenize.mp reads
  let source : Source := ⟨text, tokens.toArray⟩
  have read : Source.read source.text = .ok source := Source.read_eq_ok.mpr ⟨tokenized, rfl⟩
  exact ⟨source.span, parseFile_of_ok read (by simpa [Source.lexemes, source] using parsed)⟩

theorem Source.reads {source : Source} (read : Source.read text = .ok source) :
    Reads text source.lexemes [] :=
  reads_iff_tokenize.mpr ⟨_, (Source.read_eq_ok.mp read).1, rfl⟩

/-- How the text of an item stands in front of other lexemes: behind any blocks it is the same
item. -/
theorem parseItem_inside (parsed : parseItem text = .ok item) {other : List Lexeme}
    (calm : other[0]?.any (·.is "!") = false) (free : other[0]?.any (·.is ";") = false) :
    ∃ blocks inside stop, Reads (Text.trim text) (Block.all blocks ++ (inside ++ [stop])) [] ∧
      (inside ++ stop :: other)[0]?.any (·.is "#") = false ∧
      ∀ kept, ∃ value, Parse.item (Block.all kept ++ (inside ++ stop :: other)) =
        .ok (value, other) ∧ value.bare = item.bare := by
  obtain ⟨source, value, read, rfl, found, rfl⟩ := parseItem_eq_ok parsed
  have reads := Source.reads read
  obtain ⟨blocks, inside, stop, body, barrier, whole, same, ends, again⟩ :=
    @item_elsewhere source.lexemes value [] other reads.isScanned rfl calm free found
  refine ⟨blocks, inside, stop, ?_, ?_, fun kept => ⟨_, again kept, ?_⟩⟩
  · rw [whole, ← List.append_assoc] at reads
    rw [← List.append_assoc]
    exact reads.trim barrier
  · cases inside <;> simpa using ends
  · rw [same]
    simp only [Item.bare_withHead, Item.bare_map]

/-- Behind an item and an empty line the text goes on. -/
theorem reads_paragraph {lexemes others : List Lexeme} {behind : String}
    (reads : Reads text lexemes []) (reads' : Reads behind.toList others []) :
    Reads (String.ofList text ++ "\n" ++ ("" ++ "\n" ++ behind)).toList (lexemes ++ others) [] := by
  have blank := reads_blank (show Text.isBlank '\n' by decide)
  have whole : (String.ofList text ++ "\n" ++ ("" ++ "\n" ++ behind)).toList =
      text ++ (['\n'] ++ (['\n'] ++ behind.toList)) := by
    simp
  rw [whole]
  exact (reads.line _).append ((blank _).append ((blank _).append (by simpa using reads')))

/-- An item behind fixed marks and in front of other items is the first item of a file. -/
theorem file_of_marked {marks blocks : List Block} {inside other : List Lexeme} {stop : Lexeme}
    {value : Item Extent} {values : List (Item Extent)}
    (outer : (Block.all marks)[1]?.any (!·.is "!"))
    (read : Parse.item (Block.all (marks ++ blocks) ++ (inside ++ stop :: other)) =
      .ok (value, other))
    (more : Repeats fileStep other values []) :
    Parse.file (Block.all marks ++ (Block.all blocks ++ (inside ++ [stop])) ++ other) =
      .ok (value :: values, []) := by
  have whole : Block.all marks ++ (Block.all blocks ++ (inside ++ [stop])) ++ other =
      Block.all (marks ++ blocks) ++ (inside ++ stop :: other) := by
    simp [Block.all_append]
  have calm : (Block.all (marks ++ blocks) ++ (inside ++ stop :: other))[1]?.any (·.is "!") =
      false := by
    cases second : (Block.all marks)[1]? with
    | none => simp [second] at outer
    | some lexeme =>
      obtain ⟨within, -⟩ := List.getElem?_eq_some_iff.mp second
      rw [Block.all_append, List.append_assoc, List.getElem?_append_left within, second]
      simpa [second] using outer
  rw [whole]
  exact file_of_items (innerAttributes_of_calm calm)
    (repeats_items read (by simp only [List.length_append, List.length_cons]; omega) more)

end Files

section Items

variable {text : List Char} {item : Item Span}

theorem exists_markers : ∃ markers : List Block,
    (∀ ahead, Reads (Glue.deriveMarkers sdkName ++ "\n").toList (Block.all markers) ahead) ∧
      (Block.all markers)[1]?.any (!·.is "!") := by
  obtain ⟨markers, reads, -, outer⟩ := exists_of_marksFit
    (show marksFit (Glue.deriveMarkers sdkName ++ "\n") by decide +kernel)
  exact ⟨markers, reads, outer⟩

/-- A payload is read back as the declared structure. -/
theorem parseFile_payload (parsed : parseItem text = .ok item) :
    ∃ found, parseFile (Glue.emitPayload sdkName (String.ofList (Text.trim text))).toList =
      .ok [found] ∧ found.bare = item.bare := by
  obtain ⟨markers, marks, outer⟩ := exists_markers
  obtain ⟨blocks, inside, stop, reads, -, again⟩ := @parseItem_inside text item parsed [] rfl rfl
  obtain ⟨value, taken, same⟩ := again (markers ++ blocks)
  have file := file_of_marked outer taken repeats_noItem
  have source : Reads (Glue.emitPayload sdkName (String.ofList (Text.trim text))).toList
      (Block.all markers ++ (Block.all blocks ++ (inside ++ [stop])) ++ []) [] := by
    rw [List.append_nil, Glue.emitPayload, String.intercalate_cons_cons,
      String.intercalate_singleton]
    exact reads_append (marks _) (by simpa using reads)
  obtain ⟨place, found⟩ := parseFile_of_reads source file
  exact ⟨value.map place, found, by rw [Item.bare_map, same]⟩

/-- A state is read back as the declared structure and the implementation that loads and saves
it. -/
theorem parseFile_state (parsed : parseItem text = .ok item) {state : StateStruct}
    (word : IsWord state.exportName) (plain : state.exportName ∉ typeWords) :
    ∃ source found object,
      Glue.emitState sdkName (String.ofList (Text.trim text)) (Glue.lowerState state) =
        .ok source ∧
      parseFile source.toList = .ok [found, .impl object] ∧ found.bare = item.bare ∧
      object.IsStateObject state.exportName := by
  obtain ⟨load, save, made, goes, goes'⟩ := Glue.emitStateObject_ok state
  obtain ⟨inner, inner', balanced, balanced', behind⟩ := Glue.reads_objectText word goes goes' []
  obtain ⟨object, taken', isObject⟩ := Glue.item_of_object word plain balanced balanced'
  obtain ⟨markers, marks, outer⟩ := exists_markers
  obtain ⟨blocks, inside, stop, reads, -, again⟩ := @parseItem_inside text item parsed
    (Glue.objectLexemes state.exportName inner inner') rfl rfl
  obtain ⟨value, taken, same⟩ := again (markers ++ blocks)
  have file := file_of_marked outer taken
    (repeats_items taken' (by simp [Glue.objectLexemes]) repeats_noItem)
  have source := reads_append (marks _) (reads_paragraph reads behind)
  rw [← List.append_assoc] at source
  obtain ⟨place, found⟩ := parseFile_of_reads source file
  refine ⟨_, value.map place, object.map place, ?_, found, by rw [Item.bare_map, same],
    isObject.map place⟩
  simp only [Glue.emitState, made, bind, Except.bind, String.intercalate_cons_cons,
    String.intercalate_singleton]
  rfl

/-- An actor is read back as the declared implementation block and the function that dispatches. -/
theorem parseFile_actor (parsed : parseItem text = .ok item) {actor : Actor}
    (written : actor.Written) :
    ∃ source found function,
      Glue.emitActor sdkName (String.ofList (Text.trim text))
        (Glue.lowerActor actor invokeSymbol) = .ok source ∧
      parseFile source.toList = .ok [found, .other function] ∧ found.bare = item.bare ∧
      function.kind = "fn" ∧ function.name = some invokeSymbol := by
  obtain ⟨dispatch, lexemes, made, behind, first, function, taken', kind, name⟩ :=
    Glue.reads_dispatch written
  obtain ⟨hash, rest, is, rfl⟩ := head_of_any first
  have other : ∀ mark, "#" ≠ mark → (hash :: rest)[0]?.any (·.is mark) = false := by
    intro mark apart
    simp only [Lexeme.is, Bool.and_eq_true, decide_eq_true_eq] at is
    simp [Lexeme.is, is.2, apart]
  obtain ⟨blocks, inside, stop, reads, ends, again⟩ := @parseItem_inside text item parsed
    (hash :: rest) (other "!" (by decide)) (other ";" (by decide))
  -- The inner attributes at the front belong to the file.
  obtain ⟨dropped, kept, inner, rfl, attributed⟩ := innerAttributes_of_blocks blocks ends
  obtain ⟨value, taken, same⟩ := again kept
  have file := file_of_items attributed (repeats_items taken
    (by simp only [List.length_append, List.length_cons]; omega)
    (repeats_items taken' (by simp) repeats_noItem))
  have source := reads_paragraph reads behind
  have whole : Block.all (dropped ++ kept) ++ (inside ++ [stop]) ++ (hash :: rest) =
      Block.all (dropped ++ kept) ++ (inside ++ stop :: hash :: rest) := by simp
  rw [whole] at source
  obtain ⟨place, found⟩ := parseFile_of_reads source file
  refine ⟨_, value.map place, function.map place, ?_, found, by rw [Item.bare_map, same], kind,
    name⟩
  simp only [Glue.emitActor, made, bind, Except.bind, String.intercalate_cons_cons,
    String.intercalate_singleton]
  rfl

end Items

section Expansions

/-- The items that the expansion of an item for a target is read back as. The declared item is read
as it is, but for its place and the attributes in front of it. -/
def Item.ReadBack (item : Item Span) : Target → List (Item Span) → Prop
  | .payload, items => ∃ found, items = [.struct found] ∧ (Item.struct found).bare = item.bare
  | .state, items => ∃ found object, items = [.struct found, .impl object] ∧
      (Item.struct found).bare = item.bare ∧ object.IsStateObject found.name
  | .actor, items => ∃ found function, items = [.impl found, .other function] ∧
      (Item.impl found).bare = item.bare ∧ function.kind = "fn" ∧
      function.name = some invokeSymbol
  | .method, _ => False

variable {text : List Char} {marks : Annotation} {program : Program} {expansion : Expansion}

theorem Declaration.source_of_expand {naming : Naming} {item : Span} {declaration : Declaration}
    (h : declaration.expand naming program text item = .ok expansion) :
    expansion.source = declaration.source naming (String.ofList (Text.trim text)) := by
  unfold Declaration.expand at h
  split at h
  · cases h
  · cases h
    rfl

theorem parseItem_sound {item : Item Span} (parsed : parseItem text = .ok item) :
    ∃ (place : Extent → Span) (value : Item Extent), item = value.map place ∧
      Known.sound.item value := by
  obtain ⟨source, value, read, rfl, found, rfl⟩ := parseItem_eq_ok parsed
  exact ⟨source.span, value, rfl, (item_sound (Source.reads read).isToken).holds found⟩

variable {item : Item Span} {declaration : Declaration}

theorem readBack_payload (parsed : parseItem text = .ok item)
    (declared : item.declaration text marks .payload = some (.ok declaration)) :
    ∃ items, parseFile (declaration.source {} (String.ofList (Text.trim text))).toList =
      .ok items ∧ item.ReadBack .payload items := by
  cases item with
  | struct found =>
    simp only [Item.declaration, Option.some.injEq, mapError_eq_ok, map_eq_ok] at declared
    obtain ⟨payload, -, rfl⟩ := declared
    obtain ⟨again, read, same⟩ := parseFile_payload parsed
    obtain ⟨own, rfl, -⟩ := Item.exists_struct same
    exact ⟨_, read, own, rfl, same⟩
  | impl found => cases declared
  | other found => cases declared

theorem readBack_state (parsed : parseItem text = .ok item)
    (declared : item.declaration text marks .state = some (.ok declaration))
    (plain : ∀ found, item = .struct found → found.name ∉ typeWords) :
    ∃ items, parseFile (declaration.source {} (String.ofList (Text.trim text))).toList =
      .ok items ∧ item.ReadBack .state items := by
  cases item with
  | struct found =>
    simp only [Item.declaration, Option.some.injEq, mapError_eq_ok, map_eq_ok] at declared
    obtain ⟨state, declares, rfl⟩ := declared
    obtain ⟨_, -, declares⟩ := exists_of_bind_ok declares
    cases declares
    obtain ⟨place, value, same, sound⟩ := parseItem_sound parsed
    have word : IsWord found.name := by
      cases value <;> cases same
      exact sound.2.1
    obtain ⟨source, again, object, made, read, same, isObject⟩ := @parseFile_state text _ parsed
      ⟨found.name, found.name, found.publicFields, marks.codec⟩ word (plain found rfl)
    obtain ⟨own, rfl, name⟩ := Item.exists_struct same
    refine ⟨_, ?_, own, object, rfl, same, name ▸ isObject⟩
    simp only [Declaration.source, Declaration.emit, made]
    exact read
  | impl found => cases declared
  | other found => cases declared

theorem readBack_actor (parsed : parseItem text = .ok item)
    (declared : item.declaration text marks .actor = some (.ok declaration))
    (free : item.exportsTrait = false) :
    ∃ items, parseFile (declaration.source {} (String.ofList (Text.trim text))).toList =
      .ok items ∧ item.ReadBack .actor items := by
  cases item with
  | struct found => cases declared
  | other found => cases declared
  | impl found =>
    simp only [Item.declaration, Option.some.injEq, map_eq_ok] at declared
    obtain ⟨actor, declares, rfl⟩ := declared
    obtain ⟨place, value, same, sound⟩ := parseItem_sound parsed
    have written : actor.Written := by
      cases value <;> cases same
      exact ImplItem.actor_written sound free declares
    obtain ⟨source, again, function, made, read, same, kind, name⟩ :=
      parseFile_actor parsed written
    obtain ⟨own, rfl⟩ := Item.exists_impl same
    refine ⟨_, ?_, own, function, rfl, same, kind, name⟩
    simp only [Declaration.source, Declaration.emit, made]
    exact read

end Expansions

/-- The source of every expansion is read back: a payload as the declared structure, a state as the
declared structure and the implementation that makes it a state object, and an actor as the declared
implementation block and the function that dispatches to it. The name of the structure may be no
word that other types begin with, and no exported argument may name a self type as some trait. -/
theorem expansions_read_back {program : Program} {target : Target} {marks text : List Char}
    {expansion : Expansion}
    (expanded : (expandItem {} program target marks text).result = .ok expansion)
    (plain : ∀ found, parseItem text = .ok (.struct found) → found.name ∉ typeWords)
    (free : ∀ item, parseItem text = .ok item → item.exportsTrait = false) :
    ∃ item items, parseItem text = .ok item ∧ parseFile expansion.source.toList = .ok items ∧
      item.ReadBack target items := by
  obtain ⟨_, item, declaration, parsed, declared, expands⟩ := expandItem_eq_ok expanded
  rw [Declaration.source_of_expand expands]
  refine ⟨item, ?_⟩
  simp only [parsed, true_and]
  cases target with
  | payload => exact readBack_payload parsed declared
  | state =>
    apply readBack_state parsed declared
    rintro found rfl
    exact plain found parsed
  | actor => exact readBack_actor parsed declared (free item parsed)
  | method => cases declared

/-- An actor with an exported method that takes a tuple and gives a result. -/
def setterText : String :=
  "impl S \x7b #[fvm_export(binding = 1)] pub fn r#set(&mut self, mut at: (u8, [u8; 2])) -> u8 " ++
    "\x7b at.0 \x7d \x7d // S"

theorem expansions_read_back_setter :
    ∃ expansion items, (expandItem {} {} .actor [] setterText.toList).result = .ok expansion ∧
      parseFile expansion.source.toList = .ok items ∧
      ∃ found function, items = [.impl found, .other function] ∧
        function.name = some invokeSymbol := by
  have fits : (parseItem setterText.toList).toOption.all fun item =>
      !item.exportsTrait && !item.members.isEmpty := by decide +kernel
  have expands : (expandItem {} {} .actor [] setterText.toList).result.toOption.isSome := by
    decide +kernel
  have plain : ∀ found, parseItem setterText.toList = .ok (.struct found) →
      found.name ∉ typeWords := by
    intro found parsed
    simp [parsed, Except.toOption, Item.members] at fits
  have free : ∀ item, parseItem setterText.toList = .ok item → item.exportsTrait = false := by
    intro item parsed
    rw [parsed, Except.toOption, Option.all_some, Bool.and_eq_true] at fits
    simpa using fits.1
  cases result : (expandItem {} {} .actor [] setterText.toList).result with
  | error failure => simp [result, Except.toOption] at expands
  | ok expansion =>
      obtain ⟨item, items, -, read, found, function, same, -, -, name⟩ :=
        expansions_read_back result plain free
      exact ⟨expansion, items, rfl, read, found, function, same, name⟩

end ActorGlue
