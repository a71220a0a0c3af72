import ActorGlue.Expansion
import ActorGlue.Proofs.Parse.Rows

/-!
# Placing extents in a text

An extent of the last of some lexemes is placed by their tokens alone. Cutting an attribute out of
an item keeps the tokens before it and those behind it, so every other extent of the item is
placed in the text that is left as it is in the whole text, but for a shift.
-/

namespace ActorGlue

open Parse

/-- The span moved by an offset. -/
def Span.shift (span : Span) (offset : Nat) : Span :=
  ⟨span.start + offset, span.stop + offset⟩

variable {tokens front middle : List Token} {token : Token} {text : List Char} {outer : List Lexeme}

namespace Stretch

variable {size : Nat}

/-- The characters from the first to the last token of a stretch. -/
def spanIn (stretch : Stretch size) (tokens : List Token) (fits : size ≤ tokens.length) : Span :=
  ⟨(tokens.get ⟨tokens.length - stretch.before, by
      have := stretch.shorter; have := stretch.within; omega⟩).start,
    (tokens.get ⟨tokens.length - (stretch.after + 1), by
      have := stretch.shorter; have := stretch.within; omega⟩).stop⟩

theorem spanIn_shift (stretch : Stretch size) {moved : List Token} {offset : Nat}
    (same : moved = tokens.map (·.shift offset)) (fits : size ≤ tokens.length)
    (fits' : size ≤ moved.length) :
    stretch.spanIn moved fits' = (stretch.spanIn tokens fits).shift offset := by
  subst same
  simp [spanIn, Span.shift, Token.shift]

theorem spanIn_bounds {offset stop : Nat} (stretch : Stretch size) (fits : size ≤ tokens.length)
    (spaced : Spaced offset tokens stop) :
    offset ≤ (stretch.spanIn tokens fits).start ∧
      (stretch.spanIn tokens fits).start < (stretch.spanIn tokens fits).stop ∧
      (stretch.spanIn tokens fits).stop ≤ stop := by
  have order : tokens.length - stretch.before ≤ tokens.length - (stretch.after + 1) := by
    have := stretch.shorter
    omega
  exact ⟨spaced.start_le _, spaced.start_lt_stop order⟩

end Stretch

/-- The tokens of a stretch place its extent, whatever stands before and behind them. -/
theorem Source.span_extent {source : Source} {behind : List Token} {size : Nat}
    (same : source.tokens.toList = front ++ (middle ++ behind)) (stretch : Stretch size)
    (fits : size ≤ middle.length) :
    source.span (stretch.extent behind.length) = stretch.spanIn middle fits := by
  have within := stretch.within
  have shorter := stretch.shorter
  have length : source.tokens.size = front.length + (middle.length + behind.length) := by
    rw [← Array.length_toList, same, List.length_append, List.length_append]
  have peek : ∀ index, (h : index < middle.length) →
      source.tokens[front.length + index]? = some (middle.get ⟨index, h⟩) := by
    intro index h
    rw [← Array.getElem?_toList, same, List.getElem?_append_right (Nat.le_add_right _ _),
      Nat.add_sub_cancel_left, List.getElem?_append_left h, List.getElem?_eq_getElem h]
    rfl
  have first : source.tokens.size - (stretch.before + behind.length) =
      front.length + (middle.length - stretch.before) := by
    omega
  have last : source.tokens.size - (stretch.after + behind.length) =
      front.length + (middle.length - (stretch.after + 1)) + 1 := by
    omega
  simp only [Source.span, Source.startAt, Source.stopAt, Stretch.extent, Stretch.spanIn, first,
    last, peek _ (show middle.length - stretch.before < middle.length by omega),
    peek _ (show middle.length - (stretch.after + 1) < middle.length by omega)]

/-- Two sources that share a row of tokens but for a shift place its stretches with that shift. -/
theorem Source.span_shift {source rest : Source} {behind front' middle' behind' : List Token}
    {offset size : Nat} (tokens : source.tokens.toList = front ++ (middle ++ behind))
    (tokens' : rest.tokens.toList = front' ++ (middle' ++ behind'))
    (moved : middle = middle'.map (·.shift offset)) (stretch : Stretch size)
    (fits : size ≤ middle.length) :
    source.span (stretch.extent behind.length) =
      (rest.span (stretch.extent behind'.length)).shift offset := by
  have fits' : size ≤ middle'.length := by simpa [moved] using fits
  rw [Source.span_extent tokens stretch fits, Source.span_extent tokens' stretch fits']
  exact stretch.spanIn_shift moved fits' fits

theorem Source.span_bounds {source : Source} {behind : List Token} {low high size : Nat}
    (tokens : source.tokens.toList = front ++ (middle ++ behind)) (spaced : Spaced low middle high)
    (stretch : Stretch size) (fits : size ≤ middle.length) :
    low ≤ (source.span (stretch.extent behind.length)).start ∧
      (source.span (stretch.extent behind.length)).start <
        (source.span (stretch.extent behind.length)).stop ∧
      (source.span (stretch.extent behind.length)).stop ≤ high := by
  rw [Source.span_extent tokens stretch fits]
  exact stretch.spanIn_bounds fits spaced

theorem Source.startAt_of {source : Source} {behind : List Token}
    (same : source.tokens.toList = front ++ token :: behind) :
    source.startAt (behind.length + 1) = token.start := by
  have length : source.tokens.size = front.length + (behind.length + 1) := by
    rw [← Array.length_toList, same, List.length_append, List.length_cons]
  rw [Source.startAt, length, Nat.add_sub_cancel, ← Array.getElem?_toList, same,
    List.getElem?_append_right le_rfl, Nat.sub_self, List.getElem?_cons_zero]

theorem Source.stopAt_of {source : Source} {behind : List Token}
    (same : source.tokens.toList = front ++ token :: behind) :
    source.stopAt behind.length = token.stop := by
  have length : source.tokens.size = front.length + 1 + behind.length := by
    rw [← Array.length_toList, same, List.length_append, List.length_cons]
    omega
  simp only [Source.stopAt, length, Nat.add_sub_cancel, ← Array.getElem?_toList, same,
    List.getElem?_append_right (le_refl front.length), Nat.sub_self, List.getElem?_cons_zero]

theorem Source.read_eq_ok {source : Source} :
    Source.read text = .ok source ↔
      tokenize text = .ok source.tokens.toList ∧ source.text = text := by
  obtain ⟨own, tokens⟩ := source
  simp only [Source.read]
  cases tokenize text with
  | error failure => simp [bind, Except.bind]
  | ok found =>
    simp only [bind, Except.bind, pure, Except.pure, Except.ok.injEq, Source.mk.injEq]
    constructor
    · rintro ⟨rfl, rfl⟩
      exact ⟨rfl, rfl⟩
    · rintro ⟨rfl, rfl⟩
      exact ⟨rfl, rfl⟩

/-- An attribute covers all that it was read from. -/
theorem Parse.oneAttribute_place {ahead left : List Lexeme} {a : Attribute Extent}
    (h : oneAttribute ahead = .ok (a, left)) : a.place = ⟨ahead.length, left.length⟩ := by
  rw [oneAttribute, mark_bind, skip_bind, attributeRest] at h
  obtain ⟨_, _, -, h⟩ := bind_eq_ok.mp h
  obtain ⟨_, _, -, h⟩ := bind_eq_ok.mp h
  rw [extentFrom_bind] at h
  obtain ⟨rfl, rfl⟩ := Prod.mk.inj (Except.ok.inj h)
  rfl

namespace Block

theorem place_extent (block : Block) (behind : Nat) :
    block.attr.place.extent behind = ⟨block.inside.length + 2 + behind, behind⟩ := by
  have place := oneAttribute_place (block.reads [])
  simp only [Attribute.map, Stretch.extent, List.length_cons, List.length_append, List.length_nil,
    Extent.mk.injEq, Nat.add_zero] at place
  simp only [Stretch.extent, Extent.mk.injEq]
  omega

@[simp]
theorem length_lexemes (block : Block) : block.lexemes.length = block.inside.length + 2 := by
  simp [lexemes]

@[simp]
theorem all_nil : all [] = [] :=
  rfl

@[simp]
theorem all_cons (block : Block) (blocks : List Block) :
    all (block :: blocks) = block.lexemes ++ all blocks :=
  rfl

@[simp]
theorem all_append (first second : List Block) : all (first ++ second) = all first ++ all second :=
  List.flatMap_append

/-- Several blocks end with a barrier. -/
theorem all_eq_nil_or (blocks : List Block) :
    all blocks = [] ∨ ∃ init barrier, all blocks = init ++ [barrier] ∧ barrier.isBarrier := by
  rcases List.eq_nil_or_concat blocks with rfl | ⟨first, last, rfl⟩
  · exact .inl rfl
  · refine .inr ⟨all first ++ last.hash :: last.inside, last.closer, ?_, last.closes⟩
    simp [lexemes]

end Block

namespace Frame

variable {ahead left : List Lexeme} {value : Item Extent} (frame : Frame ahead left value)

/-- The number of lexemes behind the blocks of an item. -/
def behind : Nat :=
  frame.inside.length + (left.length + 1)

/-- The place of an attribute of an item with other blocks between them. -/
def gap (source : Source) (cut : Block) (later : List Block) : Span :=
  source.span (cut.attr.place.extent ((Block.all later).length + frame.behind))

end Frame

/-- The source that is left of an item when one of its attributes is cut out. -/
structure Cut (source : Source) {ahead left : List Lexeme} {value : Item Extent}
    (frame : Frame ahead left value) (kept : List Block) (cut : Block) (later : List Block) where
  rest : Source
  read : Source.read (cutText source.text (source.span value.place)
    (frame.gap source cut later)) = .ok rest
  lexemes : rest.lexemes = Block.all (kept ++ later) ++ (frame.inside ++ [frame.stop])
  starts : (source.span value.place).start ≤ (frame.gap source cut later).start
  gaps : (frame.gap source cut later).start ≤ (frame.gap source cut later).stop
  stops : (frame.gap source cut later).stop ≤ (source.span value.place).stop
  fits : (source.span value.place).stop ≤ source.text.length
  before : ∀ s : Stretch (Block.all kept).length,
    let place := source.span (s.extent ((Block.all (cut :: later)).length + frame.behind))
    place = (rest.span (s.extent ((Block.all later).length + (frame.inside.length + 1)))).shift
        (source.span value.place).start ∧
      place.start < place.stop ∧ place.stop ≤ (frame.gap source cut later).start
  after : ∀ s : Stretch ((Block.all later).length + frame.inside.length),
    let place := source.span (s.extent (left.length + 1))
    place = (rest.span (s.extent 1)).shift ((source.span value.place).start +
        ((frame.gap source cut later).stop - (frame.gap source cut later).start)) ∧
      (frame.gap source cut later).stop ≤ place.start ∧ place.start < place.stop ∧
      place.stop ≤ (source.span value.place).stop

theorem Item.place_withHead {σ : Type} (item : Item σ) (place : σ)
    (attributes : List (Attribute σ)) : (item.withHead place attributes).place = place := by
  cases item <;> rfl

theorem Frame.place {ahead left : List Lexeme} {value : Item Extent}
    (frame : Frame ahead left value) : value.place = ⟨ahead.length, left.length⟩ := by
  rw [frame.reads, Item.place_withHead]

/-- The tokens of an item around one of its attributes, with those before and behind the item. -/
structure Segments (source : Source) {ahead left : List Lexeme} {value : Item Extent}
    (frame : Frame ahead left value) (kept : List Block) (cut : Block) (later : List Block) where
  (outer front hidden back body tail : List Token)
  (opener closer last : Token)
  tokens : source.tokens.toList =
    outer ++ (front ++ opener :: (hidden ++ closer :: (back ++ body ++ last :: tail)))
  fronts : front.map (·.toLexeme) = Block.all kept
  opens : opener.toLexeme = cut.hash
  hides : hidden.map (·.toLexeme) = cut.inside
  closes : closer.toLexeme = cut.closer
  backs : back.map (·.toLexeme) = Block.all later
  bodies : body.map (·.toLexeme) = frame.inside
  ends : last.toLexeme = frame.stop
  tails : tail.map (·.toLexeme) = left

section Segments

variable {source : Source} {ahead left : List Lexeme} {value : Item Extent}
  {frame : Frame ahead left value} {kept later : List Block} {cut : Block}

theorem exists_segments (whole : source.lexemes = outer ++ ahead)
    (split : frame.blocks = kept ++ cut :: later) :
    Nonempty (Segments source frame kept cut later) := by
  rw [Source.lexemes, frame.whole, split] at whole
  simp only [Block.all_append, Block.all_cons, Block.lexemes, List.append_assoc, List.cons_append,
    List.nil_append] at whole
  obtain ⟨outer, _, tokens, -, same⟩ := List.map_eq_append_iff.mp whole
  obtain ⟨front, _, rfl, fronts, same⟩ := List.map_eq_append_iff.mp same
  obtain ⟨opener, _, rfl, opens, same⟩ := List.map_eq_cons_iff.mp same
  obtain ⟨hidden, _, rfl, hides, same⟩ := List.map_eq_append_iff.mp same
  obtain ⟨closer, _, rfl, closes, same⟩ := List.map_eq_cons_iff.mp same
  obtain ⟨back, _, rfl, backs, same⟩ := List.map_eq_append_iff.mp same
  obtain ⟨body, _, rfl, bodies, same⟩ := List.map_eq_append_iff.mp same
  obtain ⟨last, tail, rfl, ends, tails⟩ := List.map_eq_cons_iff.mp same
  exact ⟨⟨outer, front, hidden, back, body, tail, opener, closer, last, by simpa using tokens,
    fronts, opens, hides, closes, backs, bodies, ends, tails⟩⟩

namespace Segments

variable (segments : Segments source frame kept cut later)

theorem length_front : segments.front.length = (Block.all kept).length := by
  simpa using congrArg List.length segments.fronts

theorem length_hidden : segments.hidden.length = cut.inside.length := by
  simpa using congrArg List.length segments.hides

theorem length_back : segments.back.length = (Block.all later).length := by
  simpa using congrArg List.length segments.backs

theorem length_body : segments.body.length = frame.inside.length := by
  simpa using congrArg List.length segments.bodies

theorem length_tail : segments.tail.length = left.length := by
  simpa using congrArg List.length segments.tails

/-- The tokens of the item and those behind it. -/
def coming : List Token :=
  segments.front ++ segments.opener ::
    (segments.hidden ++ segments.closer ::
      (segments.back ++ segments.body ++ segments.last :: segments.tail))

/-- Where the item begins. -/
def start : Nat :=
  (segments.front.head?.map (·.start)).getD segments.opener.start

theorem length_coming (split : frame.blocks = kept ++ cut :: later) :
    segments.coming.length = ahead.length := by
  have whole := congrArg List.length frame.whole
  rw [split] at whole
  simp only [Block.all_append, Block.all_cons, List.length_append, Block.length_lexemes,
    List.length_cons] at whole
  simp only [Segments.coming, List.length_append, List.length_cons, length_front, length_hidden,
    length_back, length_body, length_tail]
  omega

theorem item_span (split : frame.blocks = kept ++ cut :: later) :
    source.span value.place = ⟨segments.start, segments.last.stop⟩ := by
  have stops : source.stopAt left.length = segments.last.stop := by
    have tokens : source.tokens.toList = (segments.outer ++ (segments.front ++ segments.opener ::
        (segments.hidden ++ segments.closer :: (segments.back ++ segments.body)))) ++
          segments.last :: segments.tail := by
      rw [segments.tokens]
      simp
    rw [← segments.length_tail, Source.stopAt_of tokens]
  have starts : source.startAt ahead.length = segments.start := by
    have tokens : source.tokens.toList = segments.outer ++ segments.coming := segments.tokens
    rw [← segments.length_coming split]
    unfold Segments.coming Segments.start at *
    cases front : segments.front with
    | nil | cons token rest =>
      rw [front] at tokens
      exact Source.startAt_of tokens
  rw [frame.place, Source.span, starts, stops]

theorem gap_span : frame.gap source cut later = ⟨segments.opener.start, segments.closer.stop⟩ := by
  have behind : (segments.back ++ segments.body ++ segments.last :: segments.tail).length =
      (Block.all later).length + frame.behind := by
    simp [Frame.behind, length_back, length_body, length_tail]
  have fromOpener : source.tokens.toList = (segments.outer ++ segments.front) ++ segments.opener ::
      (segments.hidden ++ segments.closer ::
        (segments.back ++ segments.body ++ segments.last :: segments.tail)) := by
    rw [segments.tokens]
    simp
  have toCloser : source.tokens.toList = (segments.outer ++ (segments.front ++
      segments.opener :: segments.hidden)) ++ segments.closer ::
        (segments.back ++ segments.body ++ segments.last :: segments.tail) := by
    rw [segments.tokens]
    simp
  have starts := Source.startAt_of fromOpener
  have stops := Source.stopAt_of toCloser
  rw [List.length_append, List.length_cons, behind, length_hidden] at starts
  rw [behind] at stops
  have ahead : cut.inside.length + ((Block.all later).length + frame.behind + 1) + 1 =
      cut.inside.length + 2 + ((Block.all later).length + frame.behind) := by
    omega
  rw [Frame.gap, Block.place_extent, Source.span, stops, ← starts, ahead]

/-- The segments stand in a row. -/
theorem spaced {size : Nat} (spaced : Spaced 0 source.tokens.toList size) :
    Spaced segments.start segments.front segments.opener.start ∧
      segments.opener.start ≤ segments.closer.stop ∧
      Spaced segments.closer.stop (segments.back ++ segments.body) segments.last.start ∧
      segments.last.start < segments.last.stop ∧ segments.last.stop ≤ size := by
  rw [segments.tokens] at spaced
  obtain ⟨_, -, spaced⟩ := spaced.split
  obtain ⟨_, front, opener, opens, spaced⟩ := spaced.split
  obtain ⟨_, hidden, closer, closes, spaced⟩ := spaced.split
  obtain ⟨_, body, last, ends, tail⟩ := spaced.split
  have start : Spaced segments.start segments.front segments.opener.start := by
    unfold Segments.start
    cases same : segments.front with
    | nil => exact le_refl segments.opener.start
    | cons token rest =>
      rw [same] at front
      exact ⟨le_refl _, front.2.1, front.2.2.widen opener⟩
  exact ⟨start, opens.le.trans (hidden.le_size.trans (closer.trans closes.le)), body.widen last,
    ends, tail.le_size⟩

theorem front_ends : segments.front = [] ∨
    ∃ init barrier, segments.front = init ++ [barrier] ∧ barrier.isBarrier := by
  rcases Block.all_eq_nil_or kept with none | ⟨init, barrier, some, isBarrier⟩
  · rw [← segments.fronts, List.map_eq_nil_iff] at none
    exact .inl none
  · rw [← segments.fronts] at some
    obtain ⟨init, final, same, -, single⟩ := List.map_eq_append_iff.mp some
    obtain ⟨token, rfl, rfl⟩ := List.map_eq_singleton_iff.mp single
    exact .inr ⟨init, token, same, isBarrier⟩

end Segments

theorem lexemes_shift (tokens : List Token) (offset : Nat) :
    (tokens.map (·.shift offset)).map (·.toLexeme) = tokens.map (·.toLexeme) := by
  rw [List.map_map]
  rfl

theorem exists_cut (h : Source.read text = .ok source) (whole : source.lexemes = outer ++ ahead)
    (split : frame.blocks = kept ++ cut :: later) : Nonempty (Cut source frame kept cut later) := by
  obtain ⟨h, rfl⟩ := Source.read_eq_ok.mp h
  obtain ⟨segments⟩ := exists_segments whole split
  have item := segments.item_span split
  have gap := segments.gap_span
  obtain ⟨front, hidden, body, last, fits⟩ := segments.spaced (spaced_of_tokenize h)
  rw [segments.tokens] at h
  obtain ⟨front', rest', cutTokens, frontMoved, restMoved⟩ :=
    tokenize_cut h rfl segments.front_ends (by rw [segments.ends]; exact frame.barrier)
  obtain ⟨body', last', rfl, bodyMoved, lastMoved⟩ := List.map_eq_append_iff.mp restMoved.symm
  refine ⟨⟨⟨_, (front' ++ (body' ++ last')).toArray⟩, Source.read_eq_ok.mpr ⟨?_, rfl⟩, ?_, ?_, ?_,
    ?_, ?_, ?_, ?_⟩⟩
  · rw [item, gap]
    exact cutTokens
  · have fronts := segments.fronts
    have bodies : (segments.back ++ segments.body).map (·.toLexeme) =
        Block.all later ++ frame.inside := by
      rw [List.map_append, segments.backs, segments.bodies]
    have ends : [segments.last].map (·.toLexeme) = [frame.stop] := by
      rw [List.map_singleton, segments.ends]
    rw [frontMoved, lexemes_shift] at fronts
    rw [← bodyMoved, lexemes_shift] at bodies
    rw [← lastMoved, lexemes_shift] at ends
    simp [Source.lexemes, fronts, bodies, ends]
  · rw [item, gap]
    exact front.le_size
  · rw [gap]
    exact hidden
  · rw [item, gap]
    exact body.le_size.trans last.le
  · rw [item]
    exact fits
  · intro s
    have tokens : source.tokens.toList = segments.outer ++ (segments.front ++
        (segments.opener :: (segments.hidden ++ segments.closer :: (segments.back ++
          segments.body ++ segments.last :: segments.tail)))) := segments.tokens
    have behind : (segments.opener :: (segments.hidden ++ segments.closer :: (segments.back ++
        segments.body ++ segments.last :: segments.tail))).length =
          (Block.all (cut :: later)).length + frame.behind := by
      simp only [List.length_cons, List.length_append, segments.length_hidden,
        segments.length_back, segments.length_body, segments.length_tail, Block.all_cons,
        Block.length_lexemes, Frame.behind]
      omega
    have behind' : (body' ++ last').length =
        (Block.all later).length + (frame.inside.length + 1) := by
      have lengths := congrArg List.length restMoved
      simp only [List.length_append, segments.length_back, segments.length_body,
        List.length_singleton, List.length_map] at lengths
      rw [List.length_append, ← lengths, Nat.add_assoc]
    have fits := segments.length_front.ge
    rw [← behind, ← behind', item, gap]
    have bounds := Source.span_bounds tokens front s fits
    exact ⟨Source.span_shift tokens (List.nil_append _).symm frontMoved s fits, bounds.2⟩
  · intro s
    have tokens : source.tokens.toList = (segments.outer ++ (segments.front ++ segments.opener ::
        (segments.hidden ++ [segments.closer]))) ++ ((segments.back ++ segments.body) ++
          segments.last :: segments.tail) := by
      rw [segments.tokens]
      simp
    have fits : (Block.all later).length + frame.inside.length ≤
        (segments.back ++ segments.body).length := by
      rw [List.length_append, segments.length_back, segments.length_body]
    have behind : (segments.last :: segments.tail).length = left.length + 1 := by
      rw [List.length_cons, segments.length_tail]
    have behind' : last'.length = 1 := by simpa using congrArg List.length lastMoved
    rw [← behind, ← behind', item, gap]
    have bounds := Source.span_bounds tokens body s fits
    exact ⟨Source.span_shift tokens rfl bodyMoved.symm s fits, bounds.1, bounds.2.1,
      bounds.2.2.trans last.le⟩

end Segments

end ActorGlue
