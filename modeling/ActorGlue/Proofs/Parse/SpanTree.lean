import ActorGlue.Proofs.Expansion.Files
import ActorGlue.Proofs.Parse.ItemNesting
import ActorGlue.Proofs.Token.Partition
import ActorGlue.Tree.Document

/-!
# Spans form a tree

The nodes of every tree that is read lie nested on the tokens of the text, and the items of a file
one behind the other. A text that cannot be read has an error with a place in it.
-/

namespace ActorGlue

open Parse

/-- The span is not empty, and it begins and ends with tokens. -/
def Span.OnTokens (tokens : List Token) (span : Span) : Prop :=
  span.start < span.stop ∧ (∃ token ∈ tokens, token.start = span.start) ∧
    ∃ token ∈ tokens, token.stop = span.stop

/-- The span lies in the text. -/
def Span.InText (text : List Char) (span : Span) : Prop :=
  span.start ≤ span.stop ∧ span.stop ≤ text.length

/-- All nodes of a tree are nested and lie on tokens. -/
def Outline.Nested (text : List Char) (tokens : List Token) (tree : Outline Span) : Prop :=
  ∀ node ∈ tree.preorder, node.Fits (fun span => String.ofList (span.slice text)) ∧
    ∀ place ∈ node.place, place.OnTokens tokens

/-- The arguments of an attribute lie in it, and its document has them as they stand there. -/
def Attribute.Quotes (text : List Char) (a : Attribute Span) : Prop :=
  ∀ args ∈ a.input.summary.2, args.Inside a.place ∧
    ∃ fields, a.document text = .object fields ∧ ("args_span", args.document) ∈ fields ∧
      ("args_text", .text (String.ofList (args.slice text))) ∈ fields

/-- What is complained about lexemes of the source: a trait is one of the types that were read. -/
def Source.Concerns (source : Source) (ahead : List Lexeme) : Complaint → Prop
  | .notTraitPath extent => source.Covers ahead.length 0 (source.span extent)
  | .endless => True
  | complaint => complaint.Located ahead.length

variable {error : ParseError} {ahead : List Lexeme} {values : List (Item Extent)} {text : List Char}

section Tokens

/-! ## The tokens of a source -/

variable {source : Source}

theorem Source.startAt_cases (source : Source) (ahead : Nat) :
    (∃ i : Fin source.tokens.toList.length, i.val = source.tokens.size - ahead ∧
        source.startAt ahead = (source.tokens.toList.get i).start) ∨
      source.tokens.size ≤ source.tokens.size - ahead ∧ source.startAt ahead = source.size := by
  rw [Source.startAt, ← Array.getElem?_toList]
  cases found : source.tokens.toList[source.tokens.size - ahead]? with
  | none => exact .inr ⟨List.getElem?_eq_none_iff.mp found, rfl⟩
  | some token =>
    obtain ⟨bound, rfl⟩ := List.getElem?_eq_some_iff.mp found
    exact .inl ⟨⟨_, bound⟩, rfl, rfl⟩

theorem Source.stopAt_cases (source : Source) (ahead : Nat) :
    (∃ i : Fin source.tokens.toList.length, i.val + 1 = source.tokens.size - ahead ∧
        source.stopAt ahead = (source.tokens.toList.get i).stop) ∨
      source.tokens.size - ahead = 0 ∧ source.stopAt ahead = 0 := by
  rw [Source.stopAt]
  cases left : source.tokens.size - ahead with
  | zero => exact .inr ⟨rfl, rfl⟩
  | succ index =>
    have bound : index < source.tokens.toList.length := by
      rw [Array.length_toList]
      omega
    refine .inl ⟨⟨index, bound⟩, rfl, ?_⟩
    simp only [← Array.getElem?_toList, List.getElem?_eq_getElem bound, List.get_eq_getElem]

variable (spaced : Spaced 0 source.tokens.toList source.size)
include spaced

theorem Source.ordered_of_spaced : source.Ordered := by
  have proper := fun i => spaced.start_lt_stop (le_refl i)
  have apart := List.pairwise_iff_get.mp spaced.pairwise
  have rises : ∀ {i j : Fin source.tokens.toList.length}, i.val ≤ j.val →
      (source.tokens.toList.get i).start ≤ (source.tokens.toList.get j).start ∧
        (source.tokens.toList.get i).stop ≤ (source.tokens.toList.get j).stop := by
    intro i j le
    rcases (show i ≤ j from le).eq_or_lt with rfl | lt
    · exact ⟨le_rfl, le_rfl⟩
    · have between := apart i j lt
      have first := (proper i).1
      have second := (proper j).1
      omega
  have size := source.tokens.length_toList
  constructor
  · intro later earlier le
    rcases source.startAt_cases earlier with ⟨i, here, starts⟩ | ⟨past, starts⟩ <;>
      rcases source.startAt_cases later with ⟨j, there, starts'⟩ | ⟨past', starts'⟩ <;>
      rw [starts, starts']
    · exact (rises (by omega)).1
    · exact (proper i).1.le.trans (proper i).2
    · omega
  · intro later earlier le
    rcases source.stopAt_cases earlier with ⟨i, here, stops⟩ | ⟨none, stops⟩ <;>
      rcases source.stopAt_cases later with ⟨j, there, stops'⟩ | ⟨none', stops'⟩ <;>
      rw [stops, stops']
    · exact (rises (by omega)).2
    · omega
    · exact Nat.zero_le _
  · intro later earlier le
    rcases source.stopAt_cases earlier with ⟨i, here, stops⟩ | ⟨none, stops⟩ <;>
      rcases source.startAt_cases later with ⟨j, there, starts⟩ | ⟨past, starts⟩ <;>
      rw [stops, starts]
    · exact apart i j (show i.val < j.val by omega)
    · exact (proper i).2
    · exact Nat.zero_le _
    · exact Nat.zero_le _

theorem Source.spanToEnd_inText (ahead : Nat) : (source.spanToEnd ahead).InText source.text := by
  refine ⟨?_, le_rfl⟩
  rcases source.startAt_cases ahead with ⟨i, -, starts⟩ | ⟨-, starts⟩ <;>
    rw [Source.spanToEnd, starts]
  have bounds := spaced.start_lt_stop (le_refl i)
  exact bounds.1.le.trans bounds.2

theorem Source.Covers.onTokens {left : Nat} {span : Span}
    (covers : source.Covers source.tokens.size left span) :
    span.OnTokens source.tokens.toList ∧ span.stop ≤ source.size := by
  obtain ⟨before, after, rfl, proper, le, -⟩ := covers
  have size := source.tokens.length_toList
  rcases source.startAt_cases before with ⟨i, here, starts⟩ | ⟨past, -⟩
  · rcases source.stopAt_cases after with ⟨j, there, stops⟩ | ⟨none, -⟩
    · have bounds := spaced.start_lt_stop (show i ≤ j from (by omega : i.val ≤ j.val))
      rw [Source.span, starts, stops]
      exact ⟨⟨bounds.1, ⟨_, List.get_mem .., rfl⟩, _, List.get_mem .., rfl⟩, bounds.2⟩
    · omega
  · omega

/-- What a parser complains about has a place in the text. -/
theorem Source.failure_inText {complaint : Complaint}
    (concerns : source.Concerns source.lexemes complaint)
    (h : source.failure complaint = .rejected error) : error.span.InText source.text := by
  have size : source.lexemes.length = source.tokens.size := by
    rw [Source.lexemes, List.length_map, Array.length_toList]
  have next : ∀ {ahead}, ahead ≤ source.lexemes.length → 0 < ahead →
      (source.spanAt ahead).InText source.text := by
    intro ahead le some
    have covers : source.Covers source.tokens.size 0 (source.spanAt ahead) :=
      ⟨ahead, ahead - 1, rfl, by omega, size ▸ le, Nat.zero_le _⟩
    have bounds := covers.onTokens spaced
    exact ⟨bounds.1.1.le, bounds.2⟩
  cases complaint with
  | unexpected wanted found ahead =>
    cases found with
    | none =>
      cases h
      exact ⟨le_rfl, le_rfl⟩
    | some found =>
      cases h
      exact next concerns.1 (concerns.2 rfl)
  | mismatched closer ahead =>
    cases h
    exact next concerns.1 concerns.2
  | unclosed opener ahead =>
    cases h
    exact spanToEnd_inText spaced ahead
  | notTraitPath extent =>
    cases h
    have covers : source.Covers source.tokens.size 0 (source.span extent) := size ▸ concerns
    have bounds := covers.onTokens spaced
    exact ⟨bounds.1.1.le, bounds.2⟩
  | endless => cases h

end Tokens

section Trees

/-! ## Trees on tokens -/

variable {source : Source}

theorem Lays.nested {left : Nat} {tree : Outline Span}
    (spaced : Spaced 0 source.tokens.toList source.size)
    (lays : Lays source source.tokens.size left [tree]) :
    tree.Nested source.text source.tokens.toList := by
  intro node found
  have member : node ∈ Outline.preorderAll [tree] :=
    Outline.mem_preorderAll.mpr ⟨tree, List.mem_cons_self, found⟩
  refine ⟨lays.fits node member, fun place here => ?_⟩
  exact ((lays.covers node member place here).onTokens spaced).1

theorem Attribute.document_args (text : List Char) {a : Attribute Span} {args : Span}
    (found : args ∈ a.input.summary.2) :
    ∃ fields, a.document text = .object fields ∧ ("args_span", args.document) ∈ fields ∧
      ("args_text", .text (String.ofList (args.slice text))) ∈ fields := by
  unfold Attribute.document
  generalize a.input.summary = summary at found ⊢
  obtain ⟨kind, given⟩ := summary
  obtain rfl : given = some args := found
  exact ⟨_, rfl, by simp [Document.option], by simp [Span.textDocument]⟩

theorem Attribute.Holds.quotes [source.Ordered] {a : Attribute Extent} (holds : a.Holds) :
    (a.map source.span).Quotes source.text := by
  intro args found
  have inside : args.Inside (source.span a.place) := by
    obtain ⟨place, qualifier, name, inner, input⟩ := a
    cases input with
    | word => cases found
    | list group =>
      have bounds := holds group rfl
      cases found
      have starts : source.startAt place.before ≤ source.startAt group.before :=
        Source.Ordered.starts bounds.1
      have stops : source.stopAt group.after ≤ source.stopAt place.after :=
        Source.Ordered.stops bounds.2
      exact ⟨starts.trans (Nat.le_succ _), (Nat.sub_le _ _).trans stops⟩
    | value content =>
      obtain ⟨extent, rfl, rfl⟩ := Option.map_eq_some_iff.mp found
      have bounds := holds extent rfl
      exact ⟨Source.Ordered.starts bounds.1, Source.Ordered.stops bounds.2⟩
  exact ⟨inside, document_args source.text found⟩

section Attributes

variable {σ τ : Type} (f : σ → τ)

theorem MethodInput.attributes_map (input : MethodInput σ) :
    (input.map f).attributes = input.attributes.map (·.map f) := by
  cases input <;> rfl

theorem Member.allAttributes_map (member : Member σ) :
    (member.map f).allAttributes = member.allAttributes.map (·.map f) := by
  cases member with
  | method m =>
    simp [Member.map, Method.map, Member.allAttributes, List.map_flatMap, List.flatMap_map,
      MethodInput.attributes_map]
  | other m => rfl

theorem Item.allAttributes_map (item : Item σ) :
    (item.map f).allAttributes = item.allAttributes.map (·.map f) := by
  cases item with
  | struct s =>
    simp [Item.map, StructItem.map, Item.allAttributes, List.map_flatMap, List.flatMap_map,
      Field.map]
  | impl i =>
    simp [Item.map, ImplItem.map, Item.allAttributes, List.map_flatMap, List.flatMap_map,
      Member.allAttributes_map]
  | other i => rfl

end Attributes

/-- The tree of an item lies nested on tokens, and its attributes have their arguments as they
stand in the text. -/
def Item.Grounded (text : List Char) (tokens : List Token) (item : Item Span) : Prop :=
  (item.outline fun span => String.ofList (span.slice text)).Nested text tokens ∧
    ∀ a ∈ item.allAttributes, a.Quotes text

theorem Parse.item_grounded [source.Ordered] (spaced : Spaced 0 source.tokens.toList source.size)
    {left : List Lexeme} {value : Item Extent} (within : ahead.length ≤ source.tokens.size)
    (h : item ahead = .ok (value, left)) :
    (value.map source.span).Grounded source.text source.tokens.toList := by
  have lays := (item_draws source ahead).gives h
  refine ⟨(lays.widen within le_rfl).nested spaced, ?_⟩
  rw [Item.allAttributes_map]
  intro a member
  obtain ⟨own, found, rfl⟩ := List.mem_map.mp member
  exact (item_holds.holds h own found).quotes

end Trees

section Files

/-! ## Rows of items -/

variable {source : Source} [source.Ordered]

theorem Row.apart (row : Row ahead values) :
    (values.map (·.map source.span)).Pairwise fun one other => one.place.Before other.place := by
  induction row with
  | nil => exact .nil
  | @cons ahead left value values read frame rest ih =>
    refine .cons (fun other member => ?_) ih
    obtain ⟨later, found, rfl⟩ := List.mem_map.mp member
    obtain ⟨outer, start, stop, whole, -, ⟨next⟩⟩ := rest.exists_of_mem left.nil_append.symm found
    rw [Item.place_map, Item.place_map, frame.place, next.place]
    exact Source.Ordered.apart (whole ▸ (List.suffix_append _ _).length_le)

/-- Each of the lexemes of a row is in one of its items. -/
theorem Row.exists_item (row : Row ahead values) {behind : Nat} (within : behind < ahead.length) :
    ∃ value ∈ values, behind < value.place.before ∧ value.place.after ≤ behind := by
  induction row with
  | nil => cases within
  | @cons ahead left value values read frame rest ih =>
    by_cases later : behind < left.length
    · obtain ⟨other, found, bounds⟩ := ih later
      exact ⟨other, List.mem_cons_of_mem _ found, bounds⟩
    · refine ⟨value, List.mem_cons_self, ?_⟩
      rw [frame.place]
      exact ⟨within, Nat.le_of_not_lt later⟩

theorem Source.token_inside {front behind : List Token} {token : Token} {extent : Extent}
    (same : source.tokens.toList = front ++ token :: behind) (begins : behind.length < extent.before)
    (ends : extent.after ≤ behind.length) : token.span.Inside (source.span extent) := by
  have starts : source.startAt extent.before ≤ source.startAt (behind.length + 1) :=
    Source.Ordered.starts begins
  have stops : source.stopAt behind.length ≤ source.stopAt extent.after :=
    Source.Ordered.stops ends
  rw [Source.startAt_of same] at starts
  rw [Source.stopAt_of same] at stops
  exact ⟨starts, stops⟩

end Files

section Errors

/-! ## Errors -/

variable {source : Source}

instance : Allows source.Concerns where
  located {ahead complaint} here := by
    cases complaint with
    | endless => trivial
    | notTraitPath => exact here.elim
    | _ => exact here
  suffix {left ahead complaint} behind concerns := by
    have le := behind.length_le
    cases complaint with
    | unexpected | mismatched => exact ⟨concerns.1.trans le, concerns.2⟩
    | unclosed => exact Nat.le_trans concerns le
    | notTraitPath => exact Source.Covers.widen concerns le le_rfl
    | endless => trivial

instance {α : Type} (step : Parser (List α × Bool)) : Advances source.Concerns step where
  shorter never _ := absurd trivial never

instance [source.Ordered] (negative : Bool) : Complains source.Concerns (implTypes negative) where
  within {ahead complaint} h := by
    rcases bind_eq_error.mp h with early | ⟨first, middle, read, late⟩
    · exact Complains.within early
    · have lays := (ty_draws source false ahead).gives read
      have covers := lays.top List.mem_cons_self _ (Ty.place_outline source.span first)
      have behind := Shrinks.suffix read
      simp only [implTarget, eat_bind, Bool.false_eq_true, if_true, if_false] at late
      split_ifs at late
      · cases first with
        | path path =>
          have typed : Complains source.Concerns (traitAndType (.path path)) := by
            unfold traitAndType; infer_instance
          exact Allows.suffix ((List.drop_suffix ..).trans behind) (typed.within late)
        | _ =>
          cases late
          exact covers.widen le_rfl (Nat.zero_le _)
      · exact Allows.suffix behind (Complains.within late)
      · cases late

theorem Source.spaced_of_read {source : Source} (read : Source.read text = .ok source) :
    Spaced 0 source.tokens.toList source.size := by
  obtain ⟨tokenized, rfl⟩ := Source.read_eq_ok.mp read
  exact spaced_of_tokenize tokenized

/-- A text is read with a parser, and a lexeme that is left over may be an error. -/
theorem span_of_read_error {α β : Type} {parser : Parser α}
    {next : Source → α × List Lexeme → Except ParseFailure β}
    (complains : ∀ source : Source, source.Ordered → Complains source.Concerns parser)
    (trailing : ∀ {source result error}, next source result = .error (.rejected error) →
      ∃ ahead, error.span = Source.spanToEnd source ahead)
    (h : (do
      let source ← Source.read text
      let result ← source.run parser
      next source result) = .error (.rejected error)) : error.span.InText text := by
  cases read : Source.read text with
  | error failure =>
    rw [read] at h
    cases h
    cases scanned : tokenize text with
    | ok tokens =>
      rw [Source.read, scanned] at read
      cases read
    | error other =>
      rw [Source.read, scanned] at read
      cases read
      exact span_of_tokenize_error scanned
  | ok source =>
    have spaced := Source.spaced_of_read read
    have ordered := Source.ordered_of_spaced spaced
    obtain ⟨-, rfl⟩ := Source.read_eq_ok.mp read
    rw [read] at h
    cases ran : source.run parser with
    | ok result =>
      have ended : next source result = .error (.rejected error) := by
        simpa only [bind, Except.bind, ran] using h
      obtain ⟨ahead, same⟩ := trailing ended
      rw [same]
      exact Source.spanToEnd_inText spaced ahead
    | error failure =>
      have failed : failure = .rejected error := by
        simpa only [bind, Except.bind, ran, Except.error.injEq] using h
      rw [failed, Source.run] at ran
      cases found : parser source.lexemes with
      | ok result => simp only [found, reduceCtorEq] at ran
      | error complaint =>
        have concerns := (complains source ordered).within found
        simp only [found, Except.error.injEq] at ran
        exact Source.failure_inText spaced concerns ran

end Errors

/-- Trees lie nested on the tokens of the text that they are read from. The items of a file follow
each other and hold every token behind the inner attributes at its beginning. Errors have a place
in the text. -/
theorem spans_form_tree (text : List Char) :
    (∀ item, parseItem text = .ok item → ∃ tokens, tokenize text = .ok tokens ∧
      item.Grounded text tokens) ∧
    (∀ items, parseFile text = .ok items → ∃ (prelude : List Block) (front rest : List Token),
      tokenize text = .ok (front ++ rest) ∧ (∀ block ∈ prelude, block.isInner) ∧
      front.map (·.toLexeme) = Block.all prelude ∧
      items.Pairwise (fun one other => one.place.Before other.place) ∧
      (∀ item ∈ items, item.Grounded text (front ++ rest)) ∧
      ∀ token ∈ rest, ∃ item ∈ items, token.span.Inside item.place) ∧
    ∀ error, parseItem text = .error (.rejected error) ∨ parseFile text = .error (.rejected error) ∨
        parseType text = .error (.rejected error) → error.span.InText text := by
  refine ⟨fun item h => ?_, fun items h => ?_, fun error h => ?_⟩
  · obtain ⟨source, value, read, rfl, parsed, rfl⟩ := parseItem_eq_ok h
    have spaced := Source.spaced_of_read read
    have ordered := Source.ordered_of_spaced spaced
    refine ⟨_, (Source.read_eq_ok.mp read).1, item_grounded spaced ?_ parsed⟩
    rw [Source.lexemes, List.length_map, Array.length_toList]
  · obtain ⟨source, prelude, ahead, values, read, rfl, whole, inner, row, rfl⟩ := parseFile_eq_ok h
    have spaced := Source.spaced_of_read read
    have ordered := Source.ordered_of_spaced spaced
    obtain ⟨front, rest, split, same, rfl⟩ := List.map_eq_append_iff.mp whole
    have size := congrArg List.length split
    rw [Array.length_toList, List.length_append] at size
    refine ⟨prelude, front, rest, split ▸ (Source.read_eq_ok.mp read).1, inner, same, row.apart,
      ?_, fun token member => ?_⟩
    · rw [← split]
      intro item member
      obtain ⟨value, found, rfl⟩ := List.mem_map.mp member
      obtain ⟨outer, ahead, left, all, parsed, -⟩ := row.exists_of_mem (List.nil_append _).symm found
      have length := congrArg List.length all
      simp only [List.length_map, List.length_append] at length
      exact item_grounded spaced (by omega) parsed
    · obtain ⟨before, behind, rfl⟩ := List.append_of_mem member
      have within : behind.length < ((before ++ token :: behind).map (·.toLexeme)).length := by
        simp only [List.length_map, List.length_append, List.length_cons]
        omega
      obtain ⟨value, found, begins, ends⟩ := row.exists_item within
      refine ⟨_, List.mem_map_of_mem found, ?_⟩
      rw [Item.place_map]
      exact Source.token_inside (split.trans (List.append_assoc ..).symm) begins ends
  · rcases h with h | h | h
    · refine span_of_read_error (fun source _ => inferInstance) (fun {source result error} h => ?_) h
      obtain ⟨item, _ | ⟨lexeme, rest⟩⟩ := result <;> cases h
      exact ⟨_, rfl⟩
    · refine span_of_read_error (fun source _ => inferInstance) (fun {source result error} h => ?_) h
      cases h
    · refine span_of_read_error (fun source _ => inferInstance) (fun {source result error} h => ?_) h
      obtain ⟨item, _ | ⟨lexeme, rest⟩⟩ := result <;> cases h
      exact ⟨_, rfl⟩

/-- A block with an attribute that has arguments, a file with an inner attribute and two items, and
a type that does not end. -/
theorem spans_form_tree_method :
    (∃ item tokens, parseItem "impl A \x7b #[b(1)] fn f(&self, x: (u8, C)) \x7b\x7d \x7d".toList =
        .ok item ∧ item.allAttributes.isEmpty = false ∧
      item.Grounded "impl A \x7b #[b(1)] fn f(&self, x: (u8, C)) \x7b\x7d \x7d".toList tokens) ∧
    (∃ items, parseFile "#![a] struct B; fn c() \x7b\x7d".toList = .ok items ∧ items.length = 2 ∧
      items.Pairwise fun one other => one.place.Before other.place) ∧
    ∃ error, parseType "(u8".toList = .error (.rejected error) ∧ error.span.InText "(u8".toList := by
  have fits : (parseItem
      "impl A \x7b #[b(1)] fn f(&self, x: (u8, C)) \x7b\x7d \x7d".toList).toOption.any
        fun item => !item.allAttributes.isEmpty := by decide +kernel
  have two : (parseFile "#![a] struct B; fn c() \x7b\x7d".toList).toOption.any
      fun items => items.length = 2 := by decide +kernel
  refine ⟨?_, ?_, ?_⟩
  · obtain ⟨item, parsed, some⟩ := exists_ok_of_any fits
    obtain ⟨tokens, -, grounded⟩ := (spans_form_tree _).1 item parsed
    exact ⟨item, tokens, parsed, (Bool.not_eq_true' _).mp some, grounded⟩
  · obtain ⟨items, parsed, pair⟩ := exists_ok_of_any two
    obtain ⟨-, -, -, -, -, -, apart, -⟩ := (spans_form_tree _).2.1 items parsed
    exact ⟨items, parsed, of_decide_eq_true pair, apart⟩
  · have fails : parseType "(u8".toList =
        .error (.rejected ⟨.unexpectedEnd "')' to close tuple type", ⟨3, 3⟩⟩) := by
      rfl
    exact ⟨_, fails, (spans_form_tree _).2.2 _ (.inr (.inr fails))⟩

end ActorGlue
