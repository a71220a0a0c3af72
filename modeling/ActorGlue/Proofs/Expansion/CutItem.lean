import ActorGlue.Proofs.Parse.Placing

/-!
# Cutting an annotation out of an item

The text of an annotated item without its annotation is read again as the same item: nothing but
the annotation is missing, every other node covers the same text, and its place in the whole text
is found from its place in the text that is left.
-/

namespace ActorGlue

open Parse

/-- What an attribute block announces. -/
def Block.target? (block : Block) : Option Target :=
  Target.itemOfName? block.attr.name

theorem Block.split_target (blocks : List Block) :
    (∀ block ∈ blocks, block.target? = none) ∨
      ∃ kept cut later target, blocks = kept ++ cut :: later ∧
        (∀ block ∈ kept, block.target? = none) ∧ cut.target? = some target := by
  induction blocks with
  | nil => exact .inl (by simp)
  | cons block blocks ih =>
    cases found : block.target? with
    | some target => exact .inr ⟨[], block, blocks, target, rfl, by simp, found⟩
    | none =>
      rcases ih with all | ⟨kept, cut, later, target, rfl, before, here⟩
      · exact .inl (by simpa [found] using all)
      · exact .inr ⟨block :: kept, cut, later, target, rfl, by simpa [found] using before, here⟩

theorem Block.placed_append (behind : Nat) (first second : List Block) :
    placed behind (first ++ second) =
      placed ((all second).length + behind) first ++ placed behind second := by
  induction first with
  | nil => rfl
  | cons block first ih =>
    simp only [List.cons_append, placed, ih, all_append, List.length_append, Nat.add_assoc]

variable {blocks : List Block} {σ τ : Type}

theorem Block.findSome?_placed (place : Extent → Span)
    (none : ∀ block ∈ blocks, block.target? = none) (behind : Nat) :
    (((placed behind blocks).map (·.map place)).findSome? fun found =>
      (Target.itemOfName? found.name).map fun target => (found, target)) = .none := by
  induction blocks with
  | nil => rfl
  | cons block blocks ih =>
    have here : Target.itemOfName? block.attr.name = .none := none block (by simp)
    rw [placed, List.map_cons, List.findSome?_cons]
    simp only [Attribute.map, here, Option.map_none]
    exact ih fun block member => none block (by simp [member])

theorem Item.attributes_withHead (item : Item σ) (place : σ) (attributes : List (Attribute σ)) :
    (item.withHead place attributes).attributes = attributes := by
  cases item <;> rfl

theorem Item.attributes_map (f : σ → τ) (item : Item σ) :
    (item.map f).attributes = item.attributes.map (·.map f) := by
  cases item <;> rfl

theorem Item.place_map (f : σ → τ) (item : Item σ) : (item.map f).place = f item.place := by
  cases item <;> rfl

theorem Item.withHead_map (f : σ → τ) (item : Item σ) (place : σ)
    (attributes : List (Attribute σ)) :
    (item.withHead place attributes).map f =
      (item.map f).withHead (f place) (attributes.map (·.map f)) := by
  cases item <;> rfl

theorem Item.withHead_withHead (item : Item σ) (place place' : σ)
    (attributes attributes' : List (Attribute σ)) :
    (item.withHead place' attributes').withHead place attributes =
      item.withHead place attributes := by
  cases item <;> rfl

/-- An attribute of an item, in front of all that is behind it. -/
def Frame.mark {ahead left : List Lexeme} {value : Item Extent} (frame : Frame ahead left value)
    (cut : Block) (later : List Block) : Attribute Extent :=
  cut.attr.map (Stretch.extent ((Block.all later).length + frame.behind))

section Frames

variable {source : Source} {ahead left : List Lexeme} {value : Item Extent}
  (frame : Frame ahead left value) {kept later : List Block}

include frame

theorem Frame.attributes : value.attributes = Block.placed frame.behind frame.blocks := by
  exact (congrArg Item.attributes frame.reads).trans (Item.attributes_withHead _ _ _)

theorem Frame.mark_mem {cut : Block} (split : frame.blocks = kept ++ cut :: later) :
    frame.mark cut later ∈ value.attributes := by
  rw [frame.attributes, split, Block.placed_append, Block.placed]
  exact List.mem_append_right _ List.mem_cons_self

theorem Frame.marked?_of_none (none : ∀ block ∈ frame.blocks, block.target? = none) :
    (value.map source.span).marked? = .none := by
  rw [Item.marked?, Item.attributes_map, frame.attributes]
  exact Block.findSome?_placed source.span none frame.behind

theorem Frame.marked?_of_some {cut : Block} {target : Target}
    (split : frame.blocks = kept ++ cut :: later) (before : ∀ block ∈ kept, block.target? = none)
    (here : cut.target? = some target) :
    (value.map source.span).marked? = some ((frame.mark cut later).map source.span, target) := by
  have here : Target.itemOfName? cut.attr.name = some target := here
  rw [Item.marked?, Item.attributes_map, frame.attributes, split, Block.placed_append,
    List.map_append, List.findSome?_append, Block.findSome?_placed source.span before,
    Option.none_or, Block.placed, List.map_cons, List.findSome?_cons]
  simp only [Frame.mark, Attribute.map, here, Option.map_some]

/-- The annotation of an item is one of its blocks. -/
theorem Frame.exists_of_marked {a : Attribute Span} {target : Target}
    (marked : (value.map source.span).marked? = some (a, target)) :
    ∃ kept cut later, frame.blocks = kept ++ cut :: later ∧
      a = (frame.mark cut later).map source.span := by
  rcases Block.split_target frame.blocks with none | ⟨kept, cut, later, _, split, before, here⟩
  · rw [frame.marked?_of_none none] at marked
    cases marked
  · rw [frame.marked?_of_some split before here] at marked
    cases marked
    exact ⟨kept, cut, later, split, rfl⟩

end Frames

namespace Stretch

/-- The stretch with more lexemes before it and behind it. -/
def embed {size wider : Nat} (stretch : Stretch size) (behind : Nat)
    (fits : size + behind ≤ wider) : Stretch wider :=
  ⟨stretch.before + behind, stretch.after + behind, by have := stretch.within; omega,
    by have := stretch.shorter; omega⟩

theorem extent_embed {size wider : Nat} (stretch : Stretch size) (inner behind : Nat)
    (fits : size + inner ≤ wider) :
    (stretch.embed inner fits).extent behind = stretch.extent (inner + behind) := by
  simp only [extent, embed, Nat.add_assoc]

end Stretch

theorem Block.placed_map_congr {γ : Type} {place place' : Extent → γ} {behind behind' : Nat}
    (agree : ∀ s : Stretch (all blocks).length,
      place (s.extent behind) = place' (s.extent behind')) :
    (placed behind blocks).map (·.map place) = (placed behind' blocks).map (·.map place') := by
  induction blocks with
  | nil => rfl
  | cons block blocks ih =>
    have head : place ∘ Stretch.extent ((all blocks).length + behind) =
        place' ∘ (Stretch.extent ((all blocks).length + behind') :
          Stretch (block.inside.length + 2) → Extent) := by
      funext s
      have here := agree (s.embed (all blocks).length (by simp))
      rwa [Stretch.extent_embed, Stretch.extent_embed] at here
    have tail := ih fun s => by
      have here := agree (s.embed 0 (by simp))
      rwa [Stretch.extent_embed, Stretch.extent_embed, Nat.zero_add, Nat.zero_add] at here
    simp only [placed, List.map_cons, Attribute.map_map, head, tail]

theorem Span.getElem?_slice (start stop : Nat) (text : List Char) (index : Nat) :
    (Span.slice ⟨start, stop⟩ text)[index]? =
      if start + index < stop then text[start + index]? else none := by
  rw [Span.slice, List.getElem?_drop, List.getElem?_take]

theorem getElem?_cutText {text : List Char} {item gap : Span}
    (starts : item.start ≤ gap.start) (fits : gap.start ≤ text.length) (index : Nat) :
    (cutText text item gap)[index]? =
      if index < gap.start - item.start then text[item.start + index]?
      else if gap.stop + (index - (gap.start - item.start)) < item.stop then
        text[gap.stop + (index - (gap.start - item.start))]?
      else none := by
  have length : (Span.slice ⟨item.start, gap.start⟩ text).length = gap.start - item.start := by
    simp only [Span.slice, List.length_drop, List.length_take]
    omega
  rw [cutText, List.getElem?_append, length, Span.getElem?_slice, Span.getElem?_slice]
  by_cases before : index < gap.start - item.start
  · rw [if_pos before, if_pos before, if_pos (by omega)]
  · rw [if_neg before, if_neg before]

theorem Span.slice_cut_after {text : List Char} {item gap span : Span}
    (starts : item.start ≤ gap.start) (gaps : gap.start ≤ gap.stop)
    (fits : gap.start ≤ text.length)
    (behind : gap.stop ≤ (span.shift (item.start + (gap.stop - gap.start))).start)
    (within : (span.shift (item.start + (gap.stop - gap.start))).stop ≤ item.stop) :
    span.slice (cutText text item gap) =
      (span.shift (item.start + (gap.stop - gap.start))).slice text := by
  simp only [Span.shift] at behind within ⊢
  apply List.ext_getElem?
  intro index
  rw [Span.getElem?_slice, Span.getElem?_slice, getElem?_cutText starts fits]
  have same : gap.stop + (span.start + index - (gap.start - item.start)) =
      span.start + (item.start + (gap.stop - gap.start)) + index := by
    omega
  by_cases inside : span.start + index < span.stop
  · rw [if_pos inside, if_neg (by omega), if_pos (by omega), if_pos (by omega), same]
  · rw [if_neg inside, if_neg (by omega)]

theorem Span.slice_cut_before {text : List Char} {item gap span : Span}
    (starts : item.start ≤ gap.start) (fits : gap.start ≤ text.length)
    (within : (span.shift item.start).stop ≤ gap.start) :
    span.slice (cutText text item gap) = (span.shift item.start).slice text := by
  simp only [Span.shift] at within ⊢
  apply List.ext_getElem?
  intro index
  rw [Span.getElem?_slice, Span.getElem?_slice, getElem?_cutText starts fits]
  have same : item.start + (span.start + index) = span.start + item.start + index := by
    omega
  by_cases inside : span.start + index < span.stop
  · rw [if_pos inside, if_pos (by omega), if_pos (by omega), same]
  · rw [if_neg inside, if_neg (by omega)]

/-- The place of a span of the text that is left, with both ends moved into the whole text. -/
def placeInFile (start : Nat) (gap span : Span) : Place :=
  ⟨toFile start gap span.start, toFile start gap span.stop⟩

theorem placeInFile_of_behind {item gap span : Span} (gaps : gap.start ≤ gap.stop)
    (behind : gap.stop ≤ (span.shift (item.start + (gap.stop - gap.start))).start)
    (order : span.start ≤ span.stop) :
    placeInFile item.start gap span =
      (span.shift (item.start + (gap.stop - gap.start))).toPlace := by
  simp only [Span.shift] at behind
  have moved : ∀ offset : Nat, span.start ≤ offset → toFile item.start gap offset =
      ((offset + (item.start + (gap.stop - gap.start)) : Nat) : Int) := by
    intro offset le
    rw [toFile, if_pos (by omega)]
    omega
  rw [placeInFile, moved _ le_rfl, moved _ order]
  rfl

/-- The item that a frame gives by itself behind some blocks. -/
def Frame.itself {ahead left : List Lexeme} {value : Item Extent} (frame : Frame ahead left value)
    (blocks : List Block) : Item Extent :=
  (frame.body.map (Stretch.extent 1)).withHead
    ⟨(Block.all blocks).length + (frame.inside.length + 1), 0⟩
    (Block.placed (frame.inside.length + 1) blocks)

section Maps

variable {ahead left : List Lexeme} {value : Item Extent} (frame : Frame ahead left value)
  {γ : Type} (f : Extent → γ)

theorem Frame.map_eq : value.map f =
    (frame.body.map (f ∘ Stretch.extent (left.length + 1))).withHead (f value.place)
      (value.attributes.map (·.map f)) := by
  rw [frame.place, frame.attributes]
  refine (congrArg (Item.map f) frame.reads).trans ?_
  rw [Item.withHead_map, Item.map_map]
  rfl

theorem Frame.itself_map (blocks : List Block) : (frame.itself blocks).map f =
    (frame.body.map (f ∘ Stretch.extent 1)).withHead (f (frame.itself blocks).place)
      ((Block.placed (frame.inside.length + 1) blocks).map (·.map f)) := by
  rw [Frame.itself, Item.withHead_map, Item.map_map, Item.place_withHead]

end Maps

theorem parseItem_of_read {text : List Char} {source : Source} {value : Item Extent}
    (read : Source.read text = .ok source) (h : item source.lexemes = .ok (value, [])) :
    parseItem text = .ok (value.map source.span) := by
  simp only [parseItem, read, Source.run, h, bind, Except.bind, pure, Except.pure]

theorem parseItem_eq_ok {text : List Char} {item : Item Span} (h : parseItem text = .ok item) :
    ∃ (source : Source) (value : Item Extent), Source.read text = .ok source ∧ source.text = text ∧
      Parse.item source.lexemes = .ok (value, []) ∧ item = value.map source.span := by
  unfold parseItem at h
  cases read : Source.read text with
  | error failure => rw [read] at h; cases h
  | ok source =>
    rw [read] at h
    simp only [bind, Except.bind, Source.run] at h
    cases found : Parse.item source.lexemes with
    | error complaint => rw [found] at h; cases h
    | ok result =>
      obtain ⟨value, _ | ⟨lexeme, rest⟩⟩ := result
      · rw [found] at h
        cases h
        exact ⟨source, value, rfl, (Source.read_eq_ok.mp read).2, found, rfl⟩
      · rw [found] at h
        cases h

/-- An item of a text read again from what is left without one of its attributes: nothing but the
attribute is missing, every other node covers the same characters, and below the item itself its
place in the text is found from its place in what is left. -/
structure ReadAgain (text : List Char) (item : Item Span) (a : Attribute Span)
    (again : Item Span) : Prop where
  parsed : parseItem (cutText text item.place a.place) = .ok again
  covers : ∃ before after, item.attributes = before ++ a :: after ∧
    again.map (Span.slice · (cutText text item.place a.place)) =
      (item.map (Span.slice · text)).withHead (again.place.slice (cutText text item.place a.place))
        ((before ++ after).map (·.map (Span.slice · text)))
  places : item.map Span.toPlace =
    (again.map (placeInFile item.place.start a.place)).withHead item.place.toPlace
      (item.attributes.map (·.map Span.toPlace))

namespace Cut

variable {source : Source} {ahead left : List Lexeme} {value : Item Extent}
  {frame : Frame ahead left value} {kept later : List Block} {cut : Block}
  (c : Cut source frame kept cut later)

/-- What is left of the text of the item. -/
abbrev text (_ : Cut source frame kept cut later) : List Char :=
  cutText source.text (source.span value.place) (frame.gap source cut later)

theorem parses : parseItem c.text = .ok ((frame.itself (kept ++ later)).map c.rest.span) :=
  parseItem_of_read c.read (by rw [c.lexemes]; exact frame.alone (kept ++ later))

theorem slice_after (s : Stretch ((Block.all later).length + frame.inside.length)) :
    (c.rest.span (s.extent 1)).slice c.text =
      (source.span (s.extent (left.length + 1))).slice source.text := by
  have place := c.after s
  have fits := c.gaps.trans (c.stops.trans c.fits)
  simp only [place.1] at place ⊢
  exact Span.slice_cut_after c.starts c.gaps fits place.2.1 place.2.2.2

theorem slice_before (s : Stretch (Block.all kept).length) :
    (c.rest.span (s.extent ((Block.all later).length + (frame.inside.length + 1)))).slice c.text =
      (source.span (s.extent ((Block.all (cut :: later)).length + frame.behind))).slice
        source.text := by
  have place := c.before s
  have fits := c.gaps.trans (c.stops.trans c.fits)
  simp only [place.1] at place ⊢
  exact Span.slice_cut_before c.starts fits place.2.2

theorem placed_after (s : Stretch ((Block.all later).length + frame.inside.length)) :
    placeInFile (source.span value.place).start (frame.gap source cut later)
        (c.rest.span (s.extent 1)) =
      (source.span (s.extent (left.length + 1))).toPlace := by
  have place := c.after s
  simp only [place.1] at place ⊢
  refine placeInFile_of_behind c.gaps place.2.1 ?_
  have order := place.2.2.1
  simp only [Span.shift] at order
  omega

theorem attributes_slice :
    (Block.placed (frame.inside.length + 1) (kept ++ later)).map
        (·.map ((Span.slice · c.text) ∘ c.rest.span)) =
      ((Block.placed ((Block.all (cut :: later)).length + frame.behind) kept).map
        (·.map source.span) ++ (Block.placed frame.behind later).map (·.map source.span)).map
          (·.map (Span.slice · source.text)) := by
  have before : (Block.placed ((Block.all later).length + (frame.inside.length + 1)) kept).map
        (·.map ((Span.slice · c.text) ∘ c.rest.span)) =
      (Block.placed ((Block.all (cut :: later)).length + frame.behind) kept).map
        (·.map ((Span.slice · source.text) ∘ source.span)) :=
    Block.placed_map_congr fun s => c.slice_before s
  have after : (Block.placed (frame.inside.length + 1) later).map
        (·.map ((Span.slice · c.text) ∘ c.rest.span)) =
      (Block.placed frame.behind later).map
        (·.map ((Span.slice · source.text) ∘ source.span)) := by
    refine Block.placed_map_congr fun s => ?_
    have same := c.slice_after (s.embed frame.inside.length le_rfl)
    rwa [Stretch.extent_embed, Stretch.extent_embed] at same
  rw [Block.placed_append, List.map_append, before, after, List.map_append]
  simp only [List.map_map, Function.comp_def, Attribute.map_map]

/-- A stretch of the body as one of all that is behind the annotation. -/
def inner (_ : Cut source frame kept cut later) (s : Stretch frame.inside.length) :
    Stretch ((Block.all later).length + frame.inside.length) :=
  s.embed 0 (by omega)

theorem extent_inner (s : Stretch frame.inside.length) (behind : Nat) :
    (c.inner s).extent behind = s.extent behind := by
  rw [inner, Stretch.extent_embed, Nat.zero_add]

theorem body_slice :
    frame.body.map ((((Span.slice · c.text) ∘ c.rest.span)) ∘ Stretch.extent 1) =
      frame.body.map (((Span.slice · source.text) ∘ source.span) ∘
        Stretch.extent (left.length + 1)) := by
  refine congrArg (Item.map · frame.body) (funext fun s => ?_)
  simp only [Function.comp_apply, ← c.extent_inner]
  exact c.slice_after (c.inner s)

theorem body_placed :
    frame.body.map ((placeInFile (source.span value.place).start (frame.gap source cut later) ∘
        c.rest.span) ∘ Stretch.extent 1) =
      frame.body.map ((Span.toPlace ∘ source.span) ∘ Stretch.extent (left.length + 1)) := by
  refine congrArg (Item.map · frame.body) (funext fun s => ?_)
  simp only [Function.comp_apply, ← c.extent_inner]
  exact c.placed_after (c.inner s)

theorem readAgain (split : frame.blocks = kept ++ cut :: later) :
    ReadAgain source.text (value.map source.span) ((frame.mark cut later).map source.span)
      ((frame.itself (kept ++ later)).map c.rest.span) := by
  refine ⟨?_, ⟨(Block.placed ((Block.all (cut :: later)).length + frame.behind) kept).map
    (·.map source.span), (Block.placed frame.behind later).map (·.map source.span), ?_, ?_⟩, ?_⟩
  · rw [Item.place_map]
    exact c.parses
  · rw [Item.attributes_map, frame.attributes, split, Block.placed_append, List.map_append,
      Block.placed, List.map_cons, Frame.mark]
  · rw [Item.place_map, Item.map_map, Item.map_map, frame.map_eq, Item.withHead_withHead,
      frame.itself_map]
    exact congr (congr (congrArg _ (by rw [Item.place_map]; rfl)) c.attributes_slice) c.body_slice
  · rw [Item.place_map, Item.map_map, Item.map_map, frame.map_eq, frame.itself_map,
      Item.withHead_withHead]
    exact congr (congr rfl (by rw [Item.attributes_map, List.map_map]; simp [Function.comp_def]))
      c.body_placed.symm

end Cut

end ActorGlue
