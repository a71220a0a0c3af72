import ActorGlue.Proofs.Expansion.Declarations

/-!
# Expanding the items of a file

Two files with the same lexemes are expanded alike: item by item they declare the same or fail
with diagnostics that agree. Applied to one file twice, this says that expanding the items of a
file never stops, and that all diagnostics have their places in the file.
-/

namespace ActorGlue

open Parse

/-- A result that is given and passes a test. -/
theorem exists_ok_of_any {ε α : Type} {result : Except ε α} {test : α → Bool}
    (h : result.toOption.any test) : ∃ value, result = .ok value ∧ test value := by
  cases result with
  | error failure => cases h
  | ok value => exact ⟨value, rfl, h⟩

variable {text : List Char} {place : Place} {size wider size' : Nat} {a : Attribute Extent}
  {σ τ : Type} {marks : Annotation} {head head' : Span} {values : List (Item Extent)}

section Relocation

variable {item gap : Span} {start : Nat}

theorem toFile_mono {first second : Int} (le : first ≤ second) :
    toFile start gap first ≤ toFile start gap second := by
  unfold toFile
  split_ifs <;> omega

theorem length_cutText (starts : item.start ≤ gap.start) (gaps : gap.start ≤ gap.stop)
    (stops : gap.stop ≤ item.stop) (fits : item.stop ≤ text.length) :
    (cutText text item gap).length = (gap.start - item.start) + (item.stop - gap.stop) := by
  simp only [cutText, Span.slice, List.length_append, List.length_drop, List.length_take]
  omega

theorem Place.Fits.relocate (fits : place.Fits size) (starts : item.start ≤ gap.start)
    (gaps : gap.start ≤ gap.stop) (stops : gap.stop ≤ item.stop)
    (small : size = (gap.start - item.start) + (item.stop - gap.stop)) (wide : item.stop ≤ wider) :
    Place.Fits wider ⟨toFile item.start gap place.start, toFile item.start gap place.stop⟩ := by
  obtain ⟨lower, order, upper⟩ := fits
  refine ⟨?_, toFile_mono order, ?_⟩
  · simp only [toFile]
    split_ifs <;> omega
  · simp only [toFile]
    split_ifs <;> omega

mutual

theorem Diagnostic.leaves_relocate (move : Int → Int) : (diagnostic : Diagnostic) →
    (diagnostic.relocate move).leaves = diagnostic.leaves.map (Leaf.relocate move)
  | .leaf message => by simp [Diagnostic.relocate, Diagnostic.leaves]
  | .several first others => by
    simp [Diagnostic.relocate, Diagnostic.leaves, Diagnostic.leaves_relocate move first,
      Diagnostic.leavesAll_relocateAll move others]

theorem Diagnostic.leavesAll_relocateAll (move : Int → Int) : (diagnostics : List Diagnostic) →
    Diagnostic.leavesAll (Diagnostic.relocateAll move diagnostics) =
      (Diagnostic.leavesAll diagnostics).map (Leaf.relocate move)
  | [] => by simp [Diagnostic.relocateAll, Diagnostic.leavesAll]
  | diagnostic :: rest => by
    simp [Diagnostic.relocateAll, Diagnostic.leavesAll,
      Diagnostic.leaves_relocate move diagnostic, Diagnostic.leavesAll_relocateAll move rest]

end

theorem Diagnostic.Agrees.relocate {wider' : Nat} {move move' : Int → Int}
    {diagnostic diagnostic' : Diagnostic} (agrees : diagnostic.Agrees size size' diagnostic')
    (moves : ∀ place : Place, place.Fits size →
      Place.Fits wider ⟨move place.start, move place.stop⟩)
    (moves' : ∀ place : Place, place.Fits size' →
      Place.Fits wider' ⟨move' place.start, move' place.stop⟩) :
    (diagnostic.relocate move).Agrees wider wider' (diagnostic'.relocate move') := by
  unfold Diagnostic.Agrees
  rw [Diagnostic.leaves_relocate, Diagnostic.leaves_relocate, List.forall₂_map_left_iff,
    List.forall₂_map_right_iff]
  refine List.Forall₂.imp ?_ agrees
  rintro ⟨message, place, severity, code⟩ ⟨_, place', _, _⟩ ⟨rfl, rfl, rfl, lawful, places⟩
  refine ⟨rfl, rfl, rfl, lawful, ?_⟩
  cases places with
  | none => exact .none
  | some fits => exact .some ⟨moves _ fits.1, moves' _ fits.2⟩

end Relocation

namespace Cut

variable {source : Source} {ahead left : List Lexeme} {value : Item Extent}
  {frame : Frame ahead left value} {kept later : List Block} {cut : Block}
  (c : Cut source frame kept cut later)

theorem length_text : c.text.length =
    ((frame.gap source cut later).start - (source.span value.place).start) +
      ((source.span value.place).stop - (frame.gap source cut later).stop) :=
  length_cutText c.starts c.gaps c.stops c.fits

theorem relocate_fits (fits : place.Fits c.text.length) :
    Place.Fits source.text.length
      ⟨toFile (source.span value.place).start (frame.gap source cut later) place.start,
        toFile (source.span value.place).start (frame.gap source cut later) place.stop⟩ :=
  fits.relocate c.starts c.gaps c.stops c.length_text c.fits

theorem body_fits (s : Stretch frame.inside.length) :
    (c.rest.span (s.extent 1)).toPlace.Fits c.text.length := by
  have place := c.after (c.inner s)
  simp only [c.extent_inner, Span.shift] at place
  obtain ⟨same, behind, order, within⟩ := place
  rw [same] at behind order within
  simp only at behind order within
  have length := c.length_text
  refine ⟨Int.natCast_nonneg _, ?_, ?_⟩
  · simp only [Span.toPlace]
    omega
  · have gaps := c.gaps
    have starts := c.starts
    simp only [Span.toPlace]
    omega

end Cut

/-- A span from one token of a text to another one lies in the text. -/
theorem Source.span_fits {source : Source} (read : Source.read source.text = .ok source)
    {extent : Extent} (order : extent.after < extent.before)
    (within : extent.before ≤ source.lexemes.length) :
    (source.span extent).toPlace.Fits source.text.length := by
  obtain ⟨h, -⟩ := Source.read_eq_ok.mp read
  obtain ⟨before, after⟩ := extent
  have spaced := spaced_of_tokenize h
  have length : source.lexemes.length = source.tokens.toList.length := List.length_map _
  have whole : source.tokens.toList = [] ++ (source.tokens.toList ++ []) := by simp
  have bounds := Source.span_bounds whole spaced
    (⟨before, after, within, order⟩ : Stretch source.lexemes.length) length.le
  simp only [Stretch.extent, List.length_nil, Nat.add_zero] at bounds
  refine ⟨Int.natCast_nonneg _, ?_, ?_⟩ <;> simp only [Span.toPlace] <;> omega

namespace Cut

variable {source : Source} {ahead left : List Lexeme} {value : Item Extent}
  {frame : Frame ahead left value} {kept later : List Block} {cut : Block}
  (c : Cut source frame kept cut later)

theorem text_eq : c.rest.text = c.text :=
  (Source.read_eq_ok.mp c.read).2

theorem itself_marked : (frame.itself (kept ++ later)).Marked c.rest.lexemes :=
  item_marked.holds (by rw [c.lexemes]; exact frame.alone (kept ++ later))

theorem head_fits : (c.rest.span (frame.itself (kept ++ later)).place).toPlace.Fits
    c.text.length := by
  have read : Source.read c.rest.text = .ok c.rest := by
    rw [c.text_eq]
    exact c.read
  rw [← c.text_eq]
  refine Source.span_fits read ?_ ?_
  · rw [Frame.itself, Item.place_withHead]
    simp
  · rw [Frame.itself, Item.place_withHead, c.lexemes]
    simp [Nat.add_assoc]

end Cut

/-- Two sources with the same lexemes. -/
structure Twins where
  source : Source
  source' : Source
  read : Source.read source.text = .ok source
  read' : Source.read source'.text = .ok source'
  lexemes : source.lexemes = source'.lexemes

namespace Twins

/-- A source and itself. -/
def refl {source : Source} (read : Source.read source.text = .ok source) : Twins :=
  ⟨source, source, read, read, rfl⟩

variable (t : Twins)

/-- Diagnostics of the two sources that agree. -/
abbrev Agrees : Diagnostic → Diagnostic → Prop :=
  Diagnostic.Agrees t.source.text.length t.source'.text.length

/-- Failures in the two sources that agree. -/
abbrev Fails : Failure → Failure → Prop :=
  Failure.Agrees t.source.text.length t.source'.text.length

variable {t}

/-- The arguments of an attribute in delimiters have the same tokens in both sources. -/
theorem tokenized (marked : a.Marked t.source.lexemes) {group : Extent}
    (list : a.input = .list group) : ∃ tokens tokens',
      tokenize ((t.source.span group).inside.slice t.source.text) = .ok tokens ∧
        tokenize ((t.source'.span group).inside.slice t.source'.text) = .ok tokens' ∧
        tokens.map (·.toLexeme) = tokens'.map (·.toLexeme) ∧
        (t.source.span group).inside.start +
          ((t.source.span group).inside.slice t.source.text).length ≤ t.source.text.length ∧
        (t.source'.span group).inside.start +
          ((t.source'.span group).inside.slice t.source'.text).length ≤ t.source'.text.length := by
  obtain ⟨inside, found⟩ := (marked group list).tokenized
  obtain ⟨tokens, h, lexemes, fits⟩ := found t.source t.read rfl
  obtain ⟨tokens', h', lexemes', fits'⟩ := found t.source' t.read' t.lexemes.symm
  exact ⟨tokens, tokens', h, h', lexemes.trans lexemes'.symm, fits, fits'⟩

theorem itemMarks (marked : a.Marked t.source.lexemes) (order : a.place.after < a.place.before)
    (within : a.place.before ≤ t.source.lexemes.length) (target : Target) :
    Agree t.Fails Annotation.Same ( Attribute.itemAnnotation t.source.text (a.map t.source.span) target)
      ( Attribute.itemAnnotation t.source'.text (a.map t.source'.span) target) := by
  have fits := Source.span_fits t.read order within
  have fits' := Source.span_fits t.read' order (by rwa [← t.lexemes])
  cases input : a.input with
  | word =>
    simp only [Attribute.map, Attribute.itemAnnotation, input, AttributeInput.map]
    have empty : tokenize [] = .ok [] := rfl
    exact Annotation.read_agree target empty empty rfl (Int.ofNat_le.mp fits.upper)
      (Int.ofNat_le.mp fits'.upper)
  | value content =>
    simp only [Attribute.map, Attribute.itemAnnotation, input, AttributeInput.map]
    refine .error (.cons ⟨rfl, rfl, rfl, ?_, .some ⟨fits, fits'⟩⟩ .nil)
    rintro code ⟨⟩
  | list group =>
    simp only [Attribute.map, Attribute.itemAnnotation, input, AttributeInput.map]
    obtain ⟨tokens, tokens', h, h', same, fits, fits'⟩ := tokenized marked input
    exact Annotation.read_agree target h h' same fits fits'

end Twins

/-- Two expansions that declare the same. -/
structure Expansion.Same (expansion expansion' : Expansion) : Prop where
  program : expansion.program = expansion'.program
  module : expansion.module = expansion'.module
  warnings : expansion.warnings = expansion'.warnings
  warned : ∃ declaration : Declaration, expansion.warnings = declaration.warnings

theorem Item.members_map (f : σ → τ) (item : Item σ) :
    (item.map f).members = item.members.map (·.map f) := by
  cases item <;> rfl

theorem Item.members_withHead (item : Item σ) (place : σ) (attributes : List (Attribute σ)) :
    (item.withHead place attributes).members = item.members := by
  cases item <;> rfl

theorem Member.attributes_map (f : σ → τ) (member : Member σ) :
    (member.map f).attributes = member.attributes.map (·.map f) := by
  cases member <;> rfl

/-- The expansion of an item that declares something, with a program it is added to. -/
def Declaration.expand (naming : Naming) (program : Program) (text : List Char) (item : Span)
    (declaration : Declaration) : Except Failure Expansion :=
  match program.add declaration with
  | .error fault => .error (fault.toFailure item)
  | .ok program =>
    .ok ⟨declaration.source naming (String.ofList (Text.trim text)), program,
      declaration.module naming.symbol, declaration.warnings⟩

theorem expandAnnotated_result (naming : Naming) (program : Program) (marks : Annotation)
    {item : Item Span} (parsed : parseItem text = .ok item) :
    (expandAnnotated naming program marks text).result =
      match item.declaration text marks marks.target with
      | none => .error ((DeclarationFault.notForItems marks.target).toFailure item.place)
      | some declared => declared >>= fun declaration =>
        declaration.expand naming program text item.place := by
  simp only [expandAnnotated, parsed, Program.declare]
  match item.declaration text marks marks.target with
  | none => rfl
  | some (.error failure) => rfl
  | some (.ok declaration) =>
    simp only [bind, Except.bind, Declaration.expand]
    cases program.add declaration <;> rfl

theorem Annotation.target_of_read {target : Target} {offset : Int}
    (h : Annotation.read text target offset = .ok marks) : marks.target = target := by
  unfold Annotation.read at h
  split at h
  · cases h
  · cases h
  · split at h
    · cases h
    · cases h
      rfl

/-- An item that is expanded has been read, and what it declares is expanded. -/
theorem expandItem_eq_ok {naming : Naming} {program : Program} {target : Target}
    {given : List Char} {expansion : Expansion}
    (h : (expandItem naming program target given text).result = .ok expansion) :
    ∃ marks item declaration, parseItem text = .ok item ∧
      item.declaration text marks target = some (.ok declaration) ∧
      declaration.expand naming program text item.place = .ok expansion := by
  unfold expandItem at h
  cases read : Annotation.read given target 0 with
  | error failure =>
    rw [read] at h
    cases h
  | ok marks =>
    rw [read] at h
    cases parsed : parseItem text with
    | error failure =>
      simp only [expandAnnotated, parsed] at h
      cases h
    | ok item =>
      rw [expandAnnotated_result naming program marks parsed, Annotation.target_of_read read] at h
      cases declared : item.declaration text marks target with
      | none =>
        rw [declared] at h
        cases h
      | some result =>
        rw [declared] at h
        cases result with
        | error failure => cases h
        | ok declaration => exact ⟨marks, item, declaration, rfl, declared, h⟩

/-- A fault that is no failure of the item itself is reported for all of it. -/
theorem DeclarationFault.toFailure_agrees (fits : head.toPlace.Fits size)
    (fits' : head'.toPlace.Fits size') {fault : DeclarationFault}
    (general : ∀ failure, fault ≠ .failed failure) :
    Failure.Agrees size size' (fault.toFailure head) (fault.toFailure head') := by
  have agree : ∀ message : String, (Diagnostic.error message head.toPlace).Agrees size size'
      (.error message head'.toPlace) := by
    intro message
    refine .cons ⟨rfl, rfl, rfl, ?_, .some ⟨fits, fits'⟩⟩ .nil
    rintro code ⟨⟩
  cases fault with
  | failed failure => exact absurd rfl (general failure)
  | notForItems target => exact agree _
  | secondActor first => exact agree _

theorem Declaration.expand_agree (naming : Naming) (program : Program) {text' : List Char}
    (fits : head.toPlace.Fits text.length) (fits' : head'.toPlace.Fits text'.length)
    (declaration : Declaration) :
    Agree (Failure.Agrees text.length text'.length) Expansion.Same
      (declaration.expand naming program text head)
      (declaration.expand naming program text' head') := by
  unfold Declaration.expand
  cases added : program.add declaration with
  | ok program => exact .ok ⟨rfl, rfl, rfl, declaration, rfl⟩
  | error fault =>
    refine .error (DeclarationFault.toFailure_agrees fits fits' ?_)
    rintro failure rfl
    unfold Program.add at added
    split at added
    · cases added
    · cases added
    · split at added <;> cases added

section Cuts

variable {t : Twins} {ahead left : List Lexeme} {value : Item Extent}
  {frame : Frame ahead left value} {kept later : List Block} {cut : Block}
  (c : Cut t.source frame kept cut later) (c' : Cut t.source' frame kept cut later)

/-- What is left of an item in two sources are sources with the same lexemes. -/
def Cut.twins : Twins where
  source := c.rest
  source' := c'.rest
  read := by
    obtain ⟨h, same⟩ := Source.read_eq_ok.mp c.read
    exact Source.read_eq_ok.mpr ⟨same ▸ h, rfl⟩
  read' := by
    obtain ⟨h, same⟩ := Source.read_eq_ok.mp c'.read
    exact Source.read_eq_ok.mpr ⟨same ▸ h, rfl⟩
  lexemes := c.lexemes.trans c'.lexemes.symm

/-- The body of an item in what is left of it in two sources. -/
def Cut.placement : Placement (Stretch frame.inside.length) where
  text := c.text
  text' := c'.text
  place := c.rest.span ∘ Stretch.extent 1
  place' := c'.rest.span ∘ Stretch.extent 1
  fits := c.body_fits
  fits' := c'.body_fits

theorem Cut.reads : ∀ member ∈ frame.body.members, ∀ a ∈ member.attributes,
    (c.placement c').Reads a := by
  intro member found a among group list
  have marked : (a.map (Stretch.extent 1)).Marked c.rest.lexemes := by
    refine c.itself_marked.members (member.map (Stretch.extent 1)) ?_ _ ?_
    · rw [Frame.itself, Item.members_withHead, Item.members_map]
      exact List.mem_map_of_mem found
    · rw [Member.attributes_map]
      exact List.mem_map_of_mem among
  have list' : (a.map (Stretch.extent 1)).input = .list (group.extent 1) := by
    rw [Attribute.map, list]
    rfl
  have read := Twins.tokenized (t := c.twins c') marked list'
  simp only [Cut.twins, c.text_eq, c'.text_eq] at read
  exact read

theorem Cut.expandAnnotated (naming : Naming) (program : Program) {marks' : Annotation}
    (same : marks.Same marks') :
    Agree (Failure.Agrees c.text.length c'.text.length) Expansion.Same
      (ActorGlue.expandAnnotated naming program marks c.text).result
      (ActorGlue.expandAnnotated naming program marks' c'.text).result := by
  have declared := (c.placement c').declaration frame.body same (c.reads c') c.head_fits c'.head_fits
    ((Block.placed (frame.inside.length + 1) (kept ++ later)).map (·.map c.rest.span))
    ((Block.placed (frame.inside.length + 1) (kept ++ later)).map (·.map c'.rest.span)) marks.target
  have item := frame.itself_map c.rest.span (kept ++ later)
  have item' := frame.itself_map c'.rest.span (kept ++ later)
  rw [expandAnnotated_result naming program marks c.parses,
    expandAnnotated_result naming program marks' c'.parses, ← same.target, Item.place_map,
    Item.place_map]
  simp only [Cut.placement, ← item, ← item'] at declared
  revert declared
  generalize ((frame.itself (kept ++ later)).map c.rest.span).declaration c.text marks
    marks.target = found
  generalize ((frame.itself (kept ++ later)).map c'.rest.span).declaration c'.text marks'
    marks.target = found'
  rintro (⟨agree⟩ | _)
  · refine agree.bind ?_
    rintro declaration _ rfl
    exact declaration.expand_agree naming program c.head_fits c'.head_fits
  · exact .error (DeclarationFault.toFailure_agrees c.head_fits c'.head_fits (by simp))

end Cuts

/-- The failure with every offset mapped. -/
def Failure.relocate (move : Int → Int) : Failure → Failure
  | .reported diagnostic => .reported (diagnostic.relocate move)
  | .halted halt => .halted halt

theorem expandInFile_eq (naming : Naming) (program : Program) (text : List Char) (item : Span)
    (a : Attribute Span) (target : Target) :
    expandInFile naming program text item a target =
      a.itemAnnotation text target >>= fun marks =>
        (expandAnnotated naming program marks (cutText text item a.place)).result.mapError
          (Failure.relocate (toFile item.start a.place)) := by
  refine bind_congr fun marks => ?_
  match (expandAnnotated naming program marks (cutText text item a.place)).result with
  | .ok expansion => rfl
  | .error (.reported diagnostic) => rfl
  | .error (.halted halt) => rfl

theorem Twins.expandInFile {t : Twins} (naming : Naming) (program : Program)
    {outer ahead left : List Lexeme} {value : Item Extent} {frame : Frame ahead left value}
    {kept later : List Block} {cut : Block} (whole : t.source.lexemes = outer ++ ahead)
    (read : item ahead = .ok (value, left)) (split : frame.blocks = kept ++ cut :: later)
    (target : Target) :
    Agree t.Fails Expansion.Same
      (ActorGlue.expandInFile naming program t.source.text (t.source.span value.place)
        ((frame.mark cut later).map t.source.span) target)
      (ActorGlue.expandInFile naming program t.source'.text (t.source'.span value.place)
        ((frame.mark cut later).map t.source'.span) target) := by
  obtain ⟨c⟩ := exists_cut t.read whole split
  obtain ⟨c'⟩ := exists_cut t.read' (t.lexemes ▸ whole) split
  have marked : (frame.mark cut later).Marked t.source.lexemes := by
    refine ((item_marked.holds read).own _ (frame.mark_mem split)).mono ?_
    exact ⟨outer, whole.symm⟩
  have place : (frame.mark cut later).place = ⟨cut.inside.length + 2 + ((Block.all later).length +
      frame.behind), (Block.all later).length + frame.behind⟩ := Block.place_extent _ _
  have within : (frame.mark cut later).place.before ≤ t.source.lexemes.length := by
    have length := congrArg List.length frame.whole
    rw [split] at length
    simp only [Block.all_append, Block.all_cons, List.length_append, Block.length_lexemes,
      List.length_cons] at length
    rw [place, whole, List.length_append, Frame.behind]
    simp only
    omega
  rw [expandInFile_eq, expandInFile_eq]
  refine (Twins.itemMarks marked (by rw [place]; simp) within target).bind ?_
  intro marks marks' same
  refine (c.expandAnnotated c' naming program same).mapError ?_
  intro failure failure' fails
  cases failure with
  | halted halt => cases failure' <;> exact fails.elim
  | reported diagnostic =>
    cases failure' with
    | halted halt => exact fails.elim
    | reported diagnostic' =>
      exact Diagnostic.Agrees.relocate fails (fun _ => c.relocate_fits) fun _ =>
        c'.relocate_fits

/-- What two files contribute: the same program, and diagnostics that agree. -/
structure SameItems (t : Twins) (found found' : List String × List Diagnostic × Program) :
    Prop where
  diagnostics : List.Forall₂ t.Agrees found.2.1 found'.2.1
  program : found.2.2 = found'.2.2

theorem Declaration.warnings_agree (size size' : Nat) (declaration : Declaration) :
    List.Forall₂ (Diagnostic.Agrees size size') declaration.warnings declaration.warnings := by
  refine List.forall₂_same.mpr fun diagnostic member => ?_
  cases declaration with
  | state declared => cases member
  | payload declared => cases member
  | actor declared =>
    obtain ⟨collision, -, rfl⟩ := List.mem_map.mp member
    refine .cons ⟨rfl, rfl, rfl, ?_, .none⟩ .nil
    rintro code ⟨⟩

theorem Twins.expandItems {t : Twins} (naming : Naming) {outer ahead : List Lexeme}
    (whole : t.source.lexemes = outer ++ ahead) (row : Row ahead values) (program : Program) :
    Agree (fun _ _ => False) (SameItems t)
      (ActorGlue.expandItems naming t.source.text program (values.map (·.map t.source.span)))
      (ActorGlue.expandItems naming t.source'.text program
        (values.map (·.map t.source'.span))) := by
  induction row generalizing outer program with
  | nil => exact .ok ⟨.nil, rfl⟩
  | @cons ahead left value values read frame row ih =>
    obtain ⟨front, same⟩ := Shrinks.suffix read
    have next : t.source.lexemes = (outer ++ front) ++ left := by
      rw [whole, ← same, List.append_assoc]
    replace ih := ih next
    simp only [List.map_cons]
    rcases Block.split_target frame.blocks with
      none | ⟨kept, cut, later, target, split, before, here⟩
    · simp only [ActorGlue.expandItems, frame.marked?_of_none none]
      refine (ih program).bind ?_
      rintro ⟨chunks, diagnostics, program⟩ ⟨chunks', diagnostics', _⟩ ⟨agree, rfl⟩
      exact .ok ⟨agree, rfl⟩
    · simp only [ActorGlue.expandItems, frame.marked?_of_some split before here,
        Item.place_map]
      have expanded := Twins.expandInFile naming program whole read split target
      revert expanded
      generalize ActorGlue.expandInFile naming program t.source.text (t.source.span value.place)
        ((frame.mark cut later).map t.source.span) target = result
      generalize ActorGlue.expandInFile naming program t.source'.text
        (t.source'.span value.place) ((frame.mark cut later).map t.source'.span) target = result'
      rintro (@⟨expansion, expansion', same⟩ | @⟨failure, failure', fails⟩)
      · obtain ⟨declaration, warned⟩ := same.warned
        simp only [← same.program, ← same.warnings]
        refine (ih expansion.program).bind ?_
        rintro ⟨chunks, diagnostics, program⟩ ⟨chunks', diagnostics', _⟩ ⟨agree, rfl⟩
        refine .ok ⟨List.rel_append ?_ agree, rfl⟩
        rw [warned]
        exact declaration.warnings_agree _ _
      · match failure, failure' with
        | .reported diagnostic, .reported diagnostic' =>
          refine (ih program).bind ?_
          rintro ⟨chunks, diagnostics, program⟩ ⟨chunks', diagnostics', _⟩ ⟨agree, rfl⟩
          exact .ok ⟨.cons fails agree, rfl⟩

/-- An item of a row is read in a frame where it stands. -/
theorem Row.exists_of_mem {lexemes outer ahead : List Lexeme} (whole : lexemes = outer ++ ahead)
    (row : Row ahead values) {value : Item Extent} (member : value ∈ values) :
    ∃ outer ahead left, lexemes = outer ++ ahead ∧ item ahead = .ok (value, left) ∧
      Nonempty (Frame ahead left value) := by
  induction row generalizing outer with
  | nil => cases member
  | @cons ahead left first values taken frame row ih =>
    rcases List.mem_cons.mp member with rfl | member
    · exact ⟨outer, ahead, left, whole, taken, ⟨frame⟩⟩
    · obtain ⟨front, same⟩ := Shrinks.suffix taken
      have next : lexemes = (outer ++ front) ++ left := by
        rw [whole, ← same, List.append_assoc]
      exact ih next member

/-- A text that is a file: its lexemes are inner attributes and a row of items. -/
theorem parseFile_eq_ok {items : List (Item Span)} (h : parseFile text = .ok items) :
    ∃ (source : Source) (prelude : List Block) (ahead : List Lexeme) (values : List (Item Extent)),
      Source.read text = .ok source ∧ source.text = text ∧
        source.lexemes = Block.all prelude ++ ahead ∧ (∀ block ∈ prelude, block.isInner) ∧
        Row ahead values ∧ items = values.map (·.map source.span) := by
  unfold parseFile at h
  cases read : Source.read text with
  | error failure =>
    rw [read] at h
    cases h
  | ok source =>
    obtain ⟨tokenized, same⟩ := Source.read_eq_ok.mp read
    rw [read] at h
    simp only [bind, Except.bind, Source.run] at h
    cases ran : file source.lexemes with
    | error complaint =>
      rw [ran] at h
      cases h
    | ok found =>
      obtain ⟨values, left⟩ := found
      rw [ran] at h
      have scanned : ∀ lexeme ∈ source.lexemes, lexeme.IsScanned := by
        intro lexeme member
        obtain ⟨token, among, rfl⟩ := List.mem_map.mp member
        exact isScanned_of_tokenize tokenized token among
      obtain ⟨prelude, ahead, whole, inner, -, row⟩ := file_eq_ok scanned ran
      exact ⟨source, prelude, ahead, values, rfl, same, whole, inner, row,
        (Except.ok.inj h).symm⟩

end ActorGlue
