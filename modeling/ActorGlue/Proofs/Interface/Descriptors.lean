import ActorGlue.Proofs.Glue.Binding
import ActorGlue.Proofs.Parse.Placing
import ActorGlue.Proofs.Parse.Regularity
import ActorGlue.Proofs.Parse.Spelled

/-!
# Descriptors are read back

The text that describes a type whose values can be decoded is read as that type, so a type is known
by its descriptor, and what annotates the arguments in the case of an entry point is the tuple of
their types. Two things have to hold of the type: the traits that it names have the same form, and
no two tokens in the length of an array become one token when the length is joined.
-/

namespace ActorGlue

open Parse

section Lengths

/-! ## The tokens of a length -/

/-- The lexemes between the end of the element of an array and the end of the array, without the
semicolon and the bracket. -/
def lengthAt (tokens : List Token) (elem array : Span) : List Lexeme :=
  ((tokens.filter fun token => elem.stop ≤ token.start && token.stop ≤ array.stop).map
    (·.toLexeme)).tail.dropLast

/-- The lexemes of the length that a type has among the tokens, if it is an array. -/
def Ty.lengthIn (tokens : List Token) : Ty Span → List Lexeme
  | .array place elem _ => lengthAt tokens elem.place place
  | _ => []

variable {offset size : Nat} {tokens : List Token}

/-- Where tokens are cut in two, the place that they stop at parts them. -/
theorem Source.stopAt_parts (source : Source) {front behind : List Token}
    (same : source.tokens.toList = front ++ behind) (spaced : Spaced offset (front ++ behind) size) :
    (∀ token ∈ front, token.stop ≤ source.stopAt behind.length) ∧
      ∀ token ∈ behind, source.stopAt behind.length ≤ token.start := by
  have length : source.tokens.size = front.length + behind.length := by
    rw [← Array.length_toList, same, List.length_append]
  obtain rfl | ⟨others, last, rfl⟩ := List.eq_nil_or_concat' front
  · have start : source.stopAt behind.length = 0 := by
      simp only [Source.stopAt, length, List.length_nil, Nat.zero_add, Nat.sub_self]
    rw [start]
    exact ⟨List.forall_mem_nil _, fun token _ => Nat.zero_le _⟩
  · have index : source.tokens.size - behind.length = others.length + 1 := by
      rw [length, List.length_append, List.length_singleton]
      omega
    have found : source.tokens[others.length]? = some last := by
      rw [← Array.getElem?_toList, same]
      simp
    have stops : source.stopAt behind.length = last.stop := by
      simp only [Source.stopAt, index, found]
    obtain ⟨inFront, -, across⟩ := List.pairwise_append.mp spaced.pairwise
    have wide := (spaced.start_of_mem (show last ∈ others ++ [last] ++ behind by simp)).2
    rw [stops]
    constructor
    · intro token member
      rcases List.mem_append.mp member with member | member
      · have before := (List.pairwise_append.mp inFront).2.2 token member last List.mem_cons_self
        omega
      · rw [List.mem_singleton.mp member]
    · intro token member
      exact across last (by simp) token member

/-- Tokens between two places where tokens are cut are kept, and no others. -/
theorem filter_between {low high : Nat} {front middle behind : List Token}
    (spaced : Spaced offset (front ++ (middle ++ behind)) size)
    (before : ∀ token ∈ front, token.stop ≤ low) (starts : ∀ token ∈ middle, low ≤ token.start)
    (stops : ∀ token ∈ middle, token.stop ≤ high) (after : ∀ token ∈ behind, high ≤ token.start) :
    (front ++ (middle ++ behind)).filter
      (fun token => low ≤ token.start && token.stop ≤ high) = middle := by
  have noFront : front.filter (fun token => low ≤ token.start && token.stop ≤ high) = [] := by
    refine List.filter_eq_nil_iff.mpr fun token member => ?_
    have stops := before token member
    have wide := (spaced.start_of_mem (List.mem_append_left _ member)).2
    simp only [Bool.and_eq_true, decide_eq_true_eq]
    omega
  have noBehind : behind.filter (fun token => low ≤ token.start && token.stop ≤ high) = [] := by
    refine List.filter_eq_nil_iff.mpr fun token member => ?_
    have starts := after token member
    have wide := (spaced.start_of_mem
      (List.mem_append_right _ (List.mem_append_right _ member))).2
    simp only [Bool.and_eq_true, decide_eq_true_eq]
    omega
  have all : middle.filter (fun token => low ≤ token.start && token.stop ≤ high) = middle := by
    refine List.filter_eq_self.mpr fun token member => ?_
    simp only [Bool.and_eq_true, decide_eq_true_eq]
    exact ⟨starts token member, stops token member⟩
  rw [List.filter_append, List.filter_append, noFront, noBehind, all, List.append_nil,
    List.nil_append]

/-- The lexemes that an array has between its element and its end are the tokens of its length. -/
theorem lengthAt_of_located {text : List Char} (read : tokenize text = .ok tokens)
    {elem array : Extent} {length : String}
    (located : Located (tokens.map (·.toLexeme)) elem array length) :
    let source := Source.mk text tokens.toArray
    let lexemes := lengthAt tokens (source.span elem) (source.span array)
    Tokens lexemes ∧ Balanced lexemes ∧ lexemes ≠ [] ∧ length = Lexeme.join lexemes := by
  intro source lexemes
  obtain ⟨front, semicolon, inside, close, back, whole, after, ends, balanced, some, joined⟩ := located
  have isToken := (Scan.reads_iff_tokenize.mpr ⟨tokens, read, rfl⟩).isToken
  -- The tokens are split as their lexemes are.
  obtain ⟨before, others, rfl, -, rest⟩ := List.map_eq_append_iff.mp whole
  obtain ⟨opening, others, rfl, -, rest⟩ := List.map_eq_cons_iff.mp rest
  obtain ⟨middle, others, rfl, held, rest⟩ := List.map_eq_append_iff.mp rest
  obtain ⟨closing, last, rfl, -, rfl⟩ := List.map_eq_cons_iff.mp rest
  subst held
  have spaced := spaced_of_tokenize read
  have regroup : before ++ opening :: (middle ++ closing :: last) =
      before ++ (opening :: (middle ++ [closing]) ++ last) := by simp
  have elemStop : (source.span elem).stop =
      source.stopAt (opening :: (middle ++ [closing]) ++ last).length := by
    rw [Source.span, after]
    simp
  have arrayStop : (source.span array).stop = source.stopAt last.length := by
    rw [Source.span, ends, List.length_map]
  rw [regroup] at spaced
  have atElem := source.stopAt_parts regroup spaced
  have atArray := source.stopAt_parts (regroup.trans (List.append_assoc _ _ _).symm)
    ((List.append_assoc before _ last).symm ▸ spaced)
  have kept : lexemes = middle.map (·.toLexeme) := by
    have between := filter_between spaced atElem.1
      (fun token member => atElem.2 token (List.mem_append_left _ member))
      (fun token member => atArray.1 token (List.mem_append_right _ member)) atArray.2
    simp only [lexemes, lengthAt, elemStop, arrayStop, regroup]
    rw [between]
    simp
  rw [kept]
  refine ⟨fun lexeme member => isToken lexeme ?_, balanced, some, joined⟩
  simp only [List.map_append, List.map_cons]
  simp [member]

end Lengths

section Described

/-! ## Described types -/

/-- The text is a type, and the type has a descriptor. Every trait that is named in the type passes
the check of types, and no length of an array in it has marks side by side that become one mark. -/
structure Describes (text : List Char) (ty : Ty Span) (descriptor : String) : Prop where
  parsed : parseType text = .ok ty
  described : ty.descriptor = .ok descriptor
  traits : ty.Every fun part => ∀ trait ∈ part.trait?, (Ty.path trait).check = .ok ()
  lengths : ∀ tokens, tokenize text = .ok tokens →
    ty.Every fun part => Lexeme.Apart (part.lengthIn tokens)

variable {σ τ : Type}

theorem Ty.check_of_shape {ty : Ty σ} {other : Ty τ} (same : ty.shape = other.shape)
    (checked : ty.check = .ok ()) : other.check = .ok () := by
  have passes : ty.shape.check = .ok () := Ty.check_map_eq_ok.mpr checked
  rw [same] at passes
  exact Ty.check_map_eq_ok.mp passes

/-- Types of the same shape have the same descriptor. -/
theorem Ty.descriptor_of_shape {ty : Ty σ} {other : Ty τ} {descriptor : String}
    (same : ty.shape = other.shape) (described : ty.descriptor = .ok descriptor) :
    other.descriptor = .ok descriptor := by
  obtain ⟨checked, rfl⟩ := Ty.descriptor_eq_ok.mp described
  refine Ty.descriptor_eq_ok.mpr ⟨Ty.check_of_shape same checked, ?_⟩
  have texts := congrArg Ty.render same
  simpa [Ty.shape] using texts

/-- A described type is the placing of a proper one. -/
theorem Describes.exists_proper {text : List Char} {ty : Ty Span} {descriptor : String}
    (describes : Describes text ty descriptor) : ∃ found : Ty Extent, found.Proper ∧ found.Begins ∧
      found.shape = ty.shape ∧ found.render = descriptor := by
  obtain ⟨tokens, found, read, parsed, rfl⟩ := parseType_eq_ok_iff.mp describes.parsed
  obtain ⟨checked, rfl⟩ := Ty.descriptor_eq_ok.mp describes.described
  have isToken := (Scan.reads_iff_tokenize.mpr ⟨tokens, read, rfl⟩).isToken
  have layers := tells_grammar isToken ((tokens.map (·.toLexeme)).length + 1)
  have told := (layers.ty List.suffix_rfl).gives parsed
  refine ⟨found, fun part within => ⟨?_, ?_⟩, told.begins, (Ty.shape_map _ found).symm,
    (Ty.render_map _ found).symm⟩
  · -- The traits are checked where the text places them.
    have decodable : found.Decodable := found.judges_check.passes.mp (Ty.check_map_eq_ok.mp checked)
    refine decodable.every (fun inner inside trait named => ?_) part within
    have passes := describes.traits _ (inside.map _) (trait.map _)
      (by rw [Ty.trait?_map, named]; rfl)
    exact (Ty.path trait).judges_check.passes.mp (Ty.check_map_eq_ok.mp passes)
  · refine (told.settled part within).mono ?_
    rintro place elem length rfl located
    obtain ⟨tokens', balanced, some, joined⟩ := lengthAt_of_located read located
    have apart := describes.lengths tokens read _ (within.map _)
    rw [Ty.map, Ty.lengthIn, Ty.place_map] at apart
    exact ⟨_, tokens', balanced, apart, some, joined⟩

theorem Ty.proper_tuple {elems : List (Ty σ)} (place : σ)
    (all : ∀ elem ∈ elems, elem.Proper ∧ elem.Begins) : (Ty.tuple place elems).Proper := by
  refine Ty.every_iff.mpr ⟨⟨.tuple fun elem member => ?_, fun elem member => ?_⟩,
    fun elem member => ?_⟩
  · exact ((all elem member).1 elem .whole).1
  · exact (all elem member).2
  · exact (all elem member).1

/-- The annotation of described arguments is read as the tuple of their types. -/
theorem parseType_annotation {arguments : List Argument} {declared : List (Ty Span)}
    (each : List.Forall₂ (fun argument ty => ∃ text, Describes text ty argument.type) arguments
      declared) : ∃ tuple, parseType (Glue.annotation arguments).toList = .ok tuple ∧
        tuple.shape = .tuple () (declared.map Ty.shape) := by
  have proper : ∃ founds : List (Ty Extent), (∀ found ∈ founds, found.Proper ∧ found.Begins) ∧
      founds.map Ty.shape = declared.map Ty.shape ∧
      founds.map Ty.render = arguments.map (·.type) := by
    induction each with
    | nil => exact ⟨[], List.forall_mem_nil _, rfl, rfl⟩
    | cons first _ ih =>
      obtain ⟨text, describes⟩ := first
      obtain ⟨found, proper, begins, shape, render⟩ := describes.exists_proper
      obtain ⟨founds, all, shapes, renders⟩ := ih
      refine ⟨found :: founds, List.forall_mem_cons.mpr ⟨⟨proper, begins⟩, all⟩, ?_, ?_⟩
      · rw [List.map_cons, List.map_cons, shape, shapes]
      · rw [List.map_cons, List.map_cons, render, renders]
  obtain ⟨founds, all, shapes, renders⟩ := proper
  obtain ⟨tuple, parsed, shape⟩ :=
    parseType_render (Ty.proper_tuple (⟨0, 0⟩ : Extent) all) (by simp [Ty.Begins, Ty.firstWord?])
  rw [Ty.render_tuple, Ty.renderAll_eq, renders] at parsed
  refine ⟨tuple, parsed, ?_⟩
  rw [shape, Ty.shape, Ty.map, Ty.mapAll_eq_map]
  exact congrArg (Ty.tuple ()) shapes

end Described

/-- The descriptor of a type is read as the type and describes what is read. So types with the same
descriptor are the same but for their places, and the line that binds the arguments of an entry
point has the tuple of their types in it. -/
theorem descriptors_read_back {text : List Char} {ty : Ty Span} {descriptor : String}
    (describes : Describes text ty descriptor) :
    (∃ again, parseType descriptor.toList = .ok again ∧ again.shape = ty.shape ∧
      again.descriptor = .ok descriptor) ∧
    (∀ text' ty', Describes text' ty' descriptor → ty'.shape = ty.shape) ∧
    ∀ (entry : EntryPoint) (stateType : String) (declared : List (Ty Span)),
      entry.arguments ≠ [] → List.Forall₂
        (fun argument ty => ∃ text, Describes text ty argument.type) entry.arguments declared →
      (∃ lines, Glue.emitCase sdkName stateType ⟨entry, Glue.lowerEntry entry stateType⟩ =
        .ok lines ∧ "    " ++ Glue.bindingLine entry.arguments ∈ lines) ∧
      ∃ tuple, parseType (Glue.annotation entry.arguments).toList = .ok tuple ∧
        tuple.shape = .tuple () (declared.map Ty.shape) := by
  have back {text : List Char} {ty : Ty Span} (describes : Describes text ty descriptor) :
      ∃ again, parseType descriptor.toList = .ok again ∧ again.shape = ty.shape := by
    obtain ⟨found, proper, begins, shape, rfl⟩ := describes.exists_proper
    obtain ⟨again, parsed, same⟩ := parseType_render proper begins
    exact ⟨again, parsed, same.trans shape⟩
  obtain ⟨again, parsed, same⟩ := back describes
  refine ⟨⟨again, parsed, same, Ty.descriptor_of_shape same.symm describes.described⟩, ?_, ?_⟩
  · intro text' ty' describes'
    obtain ⟨again', parsed', same'⟩ := back describes'
    obtain rfl := Except.ok.inj (parsed.symm.trans parsed')
    exact same'.symm.trans same
  · intro entry stateType declared some each
    exact ⟨Glue.emitCase_binds entry stateType some, parseType_annotation each⟩

/-- A type that names a trait, and whose length has other blanks in the descriptor than in the
text. -/
theorem descriptors_read_back_array : ∃ ty,
    Describes "[<T as A::<u8>>::B;N-1]".toList ty "[<T as A<u8>>::B; N - 1]" ∧
    (∃ again, parseType "[<T as A<u8>>::B; N - 1]".toList = .ok again ∧ again.shape = ty.shape) ∧
    ∃ tuple, parseType (Glue.annotation [⟨"x", false, "[<T as A<u8>>::B; N - 1]"⟩,
      ⟨"y", true, "[<T as A<u8>>::B; N - 1]"⟩]).toList = .ok tuple ∧
      tuple.shape = .tuple () [ty.shape, ty.shape] := by
  let word (start stop : Nat) (name : String) (args : SegmentArgs Span) : TyPath Span :=
    .mk ⟨start, stop⟩ .relative [.mk ⟨start, stop⟩ name args]
  let inner : Ty Span := .path (word 11 13 "u8" .absent)
  let trait := word 7 14 "A" (.angle ⟨10, 14⟩ [.type ⟨11, 13⟩ inner])
  let self : Ty Span := .path (word 2 3 "T" .absent)
  let elem : Ty Span := .path (.mk ⟨1, 18⟩ (.selfAs ⟨1, 15⟩ self trait) [.mk ⟨17, 18⟩ "B" .absent])
  let whole : Ty Span := .array ⟨0, 23⟩ elem "N - 1"
  have parts {holds : Ty Span → Prop}
      (all : ∀ part ∈ [whole, elem, self, .path trait, inner], holds part) : whole.Every holds := by
    simp only [List.forall_mem_cons] at all
    obtain ⟨onWhole, onElem, onSelf, onTrait, onInner, -⟩ := all
    have innerEvery : inner.Every holds := Ty.every_iff.mpr ⟨onInner, List.forall_mem_nil _⟩
    have selfEvery : self.Every holds := Ty.every_iff.mpr ⟨onSelf, List.forall_mem_nil _⟩
    have traitEvery : (Ty.path trait).Every holds :=
      Ty.every_iff.mpr ⟨onTrait, List.forall_mem_singleton.mpr innerEvery⟩
    have elemEvery : elem.Every holds := Ty.every_iff.mpr ⟨onElem,
      List.forall_mem_cons.mpr ⟨selfEvery, List.forall_mem_singleton.mpr traitEvery⟩⟩
    exact Ty.every_iff.mpr ⟨onWhole, List.forall_mem_singleton.mpr elemEvery⟩
  have describes : Describes "[<T as A::<u8>>::B;N-1]".toList whole
      "[<T as A<u8>>::B; N - 1]" := by
    refine ⟨by cbv, by cbv, parts ?_, fun tokens read => parts ?_⟩
    · have named : elem.trait? = some trait := rfl
      have checked : (Ty.path trait).check = .ok () := rfl
      have none {part : Ty Span} (unnamed : part.trait? = none) :
          ∀ trait ∈ part.trait?, (Ty.path trait).check = .ok () := by simp [unnamed]
      simp only [List.forall_mem_cons]
      exact ⟨none rfl, by simp [named, checked], none rfl, none rfl, none rfl,
        List.forall_mem_nil _⟩
    · have found : (tokenize "[<T as A::<u8>>::B;N-1]".toList).map (whole.lengthIn ·) =
          .ok [.word "N", .sign "-", ⟨.int, "1"⟩] := by cbv
      rw [read] at found
      have lengths : whole.lengthIn tokens = [.word "N", .sign "-", ⟨.int, "1"⟩] :=
        Except.ok.inj found
      have apart : Lexeme.Apart (whole.lengthIn tokens) := by
        rw [lengths]
        simp [Lexeme.Apart, Lexeme.merges]
      simp only [List.forall_mem_cons]
      exact ⟨apart, .nil, .nil, .nil, .nil, List.forall_mem_nil _⟩
  obtain ⟨⟨again, parsed, same, -⟩, -, binds⟩ := descriptors_read_back describes
  let entry : EntryPoint := ⟨"m", ⟨1, by decide⟩, .pure, false, [⟨"x", false, "[<T as A<u8>>::B; N - 1]"⟩,
    ⟨"y", true, "[<T as A<u8>>::B; N - 1]"⟩]⟩
  have bound := binds entry "S" [whole, whole] (List.cons_ne_nil _ _)
    (.cons ⟨_, describes⟩ (.cons ⟨_, describes⟩ .nil))
  exact ⟨whole, describes, ⟨again, parsed, same⟩, bound.2⟩

end ActorGlue
