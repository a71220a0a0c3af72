import ActorGlue.Proofs.Glue.Text
import ActorGlue.Proofs.Parse.Generated
import ActorGlue.Proofs.Tree.Parts

/-!
# The lexemes of a type

A type is spelled by lexemes: one for each of its names and marks, and for the length of an array
those that its text has in front of the closing bracket. The text of a regular type is read as the
lexemes that spell the type.
-/

namespace ActorGlue

open Parse Scan

section Regular

/-! ## Regular types -/

variable {σ : Type}

/-- The word that a path begins with, if it begins with one. -/
def TyPath.firstWord? : TyPath σ → Option String
  | .mk _ .relative (.mk _ ident _ :: _) => some ident
  | _ => none

/-- The word that a type begins with, if it is a path that begins with one. -/
def Ty.firstWord? : Ty σ → Option String
  | .path found => found.firstWord?
  | _ => none

/-- The type does not begin with a word that begins another kind of type. -/
def Ty.Begins (ty : Ty σ) : Prop :=
  ∀ word ∈ ty.firstWord?, word ∉ typeWords

/-- The words that are constants among the arguments in angle brackets. -/
def truthWords : List String := ["true", "false"]

/-- An argument in angle brackets is read as what it is: a type does not begin like a constant, and
a name that is bound is no constant. -/
def GenericArg.Regular : GenericArg σ → Prop
  | .type _ ty => ty.Begins ∧ ∀ word ∈ ty.firstWord?, word ∉ truthWords
  | .binding _ name ty => IsWord name ∧ name ∉ truthWords ∧ ty.Begins
  | _ => True

/-- The name of a segment is a word, and its arguments are regular. -/
def Segment.Regular : Segment σ → Prop
  | .mk place ident args => IsWord ident ∧
      ∀ arg ∈ (Segment.mk place ident args).angleArgs, arg.Regular

/-- A type is read as what it is, apart from the types inside of it and with a property of the
lengths of arrays and of the places of their elements and of themselves. -/
def Ty.Regular (isLength : σ → σ → String → Prop) : Ty σ → Prop
  | .path (.mk _ head segments) => segments ≠ [] ∧ (∀ ty ∈ head.self?, ty.Begins) ∧
      ∀ segment ∈ segments, segment.Regular
  | .array place elem length => elem.Begins ∧ isLength elem.place place length
  | .paren _ elem => elem.Begins
  | .tuple _ elems => ∀ elem ∈ elems, elem.Begins
  | _ => True

theorem Ty.Regular.mono {isLength isLength' : σ → σ → String → Prop} {ty : Ty σ}
    (regular : ty.Regular isLength)
    (holds : ∀ place elem length, ty = .array place elem length →
      isLength elem.place place length → isLength' elem.place place length) :
    ty.Regular isLength' := by
  cases ty with
  | array place elem length => exact ⟨regular.1, holds place elem length rfl regular.2⟩
  | path found =>
    obtain ⟨place, head, segments⟩ := found
    exact regular
  | _ => exact regular

/-- The text is a join of balanced tokens. -/
def IsJoin (text : String) : Prop :=
  ∃ lexemes, Tokens lexemes ∧ Balanced lexemes ∧ text = Lexeme.join lexemes

/-- The type and all types inside of it are regular. -/
abbrev Ty.Sound (ty : Ty σ) : Prop :=
  ty.Every (·.Regular fun _ _ => IsJoin)

/-- The text is a join of balanced tokens that it keeps apart. -/
def IsLength (text : String) : Prop :=
  ∃ lexemes, Tokens lexemes ∧ Balanced lexemes ∧ Lexeme.Apart lexemes ∧ lexemes ≠ [] ∧
    text = Lexeme.join lexemes

/-- The type can be decoded, and the type and all types inside of it are regular. -/
def Ty.Proper (ty : Ty σ) : Prop :=
  ty.Every fun part => part.Decodable ∧ part.Regular fun _ _ => IsLength

end Regular

section Lexemes

/-! ## Spelling -/

/-- A mark. -/
abbrev Lexeme.sign (text : String) : Lexeme :=
  ⟨.punct, text⟩

abbrev Lexeme.word (text : String) : Lexeme :=
  ⟨.ident, text⟩

/-- The lexemes of a text in front of a closing bracket. -/
def lengthLexemes (text : String) : List Lexeme :=
  (((tokenize (text ++ "]").toList).toOption.getD []).map (·.toLexeme)).dropLast

variable {σ : Type}

mutual

/-- The lexemes that spell a type whose values can be decoded. -/
def Ty.lexemes : Ty σ → List Lexeme
  | .path found => found.lexemes
  | .array _ elem length =>
    .sign "[" :: (elem.lexemes ++ .sign ";" :: (lengthLexemes length ++ [.sign "]"]))
  | .paren _ elem => .sign "(" :: (elem.lexemes ++ [.sign ")"])
  | .tuple _ [elem] => .sign "(" :: (elem.lexemes ++ [.sign ",", .sign ")"])
  | .tuple _ elems =>
    .sign "(" :: ([Lexeme.sign ","].intercalate (Ty.lexemesAll elems) ++ [.sign ")"])
  | _ => []

/-- The lexemes of several types. -/
def Ty.lexemesAll : List (Ty σ) → List (List Lexeme)
  | [] => []
  | ty :: rest => ty.lexemes :: Ty.lexemesAll rest

/-- The lexemes that spell a path. -/
def TyPath.lexemes : TyPath σ → List Lexeme
  | .mk _ head segments =>
    head.lexemes ++ [Lexeme.sign "::"].intercalate (Segment.lexemesAll segments)

/-- The lexemes that spell how a path begins, through the colons that end it. -/
def PathHead.lexemes : PathHead σ → List Lexeme
  | .relative => []
  | .rooted => [.sign "::"]
  | .self _ ty => .sign "<" :: (ty.lexemes ++ [.sign ">", .sign "::"])
  | .selfAs _ ty trait =>
    .sign "<" :: (ty.lexemes ++ .word "as" :: (trait.lexemes ++ [.sign ">", .sign "::"]))

/-- The lexemes that spell a segment. -/
def Segment.lexemes : Segment σ → List Lexeme
  | .mk _ ident args => .word ident :: args.lexemes

/-- The lexemes of several segments. -/
def Segment.lexemesAll : List (Segment σ) → List (List Lexeme)
  | [] => []
  | first :: rest => first.lexemes :: Segment.lexemesAll rest

/-- The lexemes that spell the arguments of a segment. -/
def SegmentArgs.lexemes : SegmentArgs σ → List Lexeme
  | .angle _ args =>
    .sign "<" :: ([Lexeme.sign ","].intercalate (GenericArg.lexemesAll args) ++ [.sign ">"])
  | _ => []

/-- The lexemes that spell an argument in angle brackets. -/
def GenericArg.lexemes : GenericArg σ → List Lexeme
  | .type _ ty => ty.lexemes
  | .binding _ name ty => .word name :: .sign "=" :: ty.lexemes
  | _ => []

/-- The lexemes of several arguments. -/
def GenericArg.lexemesAll : List (GenericArg σ) → List (List Lexeme)
  | [] => []
  | arg :: rest => arg.lexemes :: GenericArg.lexemesAll rest

end

theorem Ty.lexemesAll_eq (types : List (Ty σ)) : Ty.lexemesAll types = types.map Ty.lexemes := by
  induction types with
  | nil => rfl
  | cons ty rest ih => rw [Ty.lexemesAll, ih, List.map_cons]

theorem Segment.lexemesAll_eq (segments : List (Segment σ)) :
    Segment.lexemesAll segments = segments.map Segment.lexemes := by
  induction segments with
  | nil => rfl
  | cons segment rest ih => rw [Segment.lexemesAll, ih, List.map_cons]

theorem GenericArg.lexemesAll_eq (args : List (GenericArg σ)) :
    GenericArg.lexemesAll args = args.map GenericArg.lexemes := by
  induction args with
  | nil => rfl
  | cons arg rest ih => rw [GenericArg.lexemesAll, ih, List.map_cons]

end Lexemes

section Writing

/-! ## Reading the text of a type -/

/-- The text is read as the lexemes in front of anything. -/
def Fixed (text : String) (lexemes : List Lexeme) : Prop :=
  ∀ ahead, Reads text.toList lexemes ahead

/-- The text is read as the lexemes in front of what it does not go on with. -/
def Written (text : String) (lexemes : List Lexeme) : Prop :=
  ∀ ahead, Ends ahead → Reads text.toList lexemes ahead

variable {first second : String} {lexemes others : List Lexeme}

theorem fixed_of_settled {text : String} (settled : settled? text.toList = some lexemes) :
    Fixed text lexemes :=
  reads_settled settled

theorem fixed_colons : Fixed "::" [.sign "::"] := by
  intro ahead
  have isToken : Lexeme.IsToken (.sign "::") := ⟨':', [':'], rfl, rfl⟩
  refine reads_mark isToken rfl (fun c _ => ?_) (by simp)
  simp [goesOn, compoundMarks, List.isPrefixOf]

theorem Fixed.written (fixed : Fixed first lexemes) : Written first lexemes :=
  fun ahead _ => fixed ahead

theorem Fixed.append (fixed : Fixed first lexemes) (fixed' : Fixed second others) :
    Fixed (first ++ second) (lexemes ++ others) :=
  fun ahead => reads_append (fixed _) (fixed' ahead)

theorem Fixed.then (fixed : Fixed first lexemes) (written : Written second others) :
    Written (first ++ second) (lexemes ++ others) :=
  fun ahead ends => reads_append (fixed _) (written ahead ends)

theorem Written.fixed (written : Written first lexemes) (isEnd : isEnd second)
    (fixed : Fixed second others) : Fixed (first ++ second) (lexemes ++ others) :=
  fun ahead => reads_append (written _ (ends_of_isEnd isEnd ahead)) (fixed ahead)

theorem Written.append (written : Written first lexemes) (isEnd : isEnd second)
    (written' : Written second others) : Written (first ++ second) (lexemes ++ others) :=
  fun ahead ends => reads_append (written _ (ends_of_isEnd isEnd ahead)) (written' ahead ends)

theorem written_word {name : String} (word : IsWord name) : Written name [.word name] :=
  fun _ ends => reads_token word (by simp) ends

/-- Texts with a separator between them. -/
theorem written_intercalate {α : Type} {separator : String} {between : List Lexeme}
    (fixed : Fixed separator between) (isEnd : isEnd separator) {text : α → String}
    {spelled : α → List Lexeme} {items : List α}
    (each : ∀ item ∈ items, Written (text item) (spelled item)) :
    Written (separator.intercalate (items.map text)) (between.intercalate (items.map spelled)) := by
  induction items with
  | nil => exact fun ahead _ => .nil ahead
  | cons item rest ih =>
    obtain ⟨first, others⟩ := List.forall_mem_cons.mp each
    cases rest with
    | nil => simpa using first
    | cons next rest =>
      have joined := first.append (isEnd_append isEnd _) (fixed.then (ih others))
      rw [List.map_cons, List.map_cons, String.intercalate_cons_cons, String.append_assoc,
        List.map_cons, List.map_cons, List.intercalate_cons_cons, List.append_assoc]
      exact joined

theorem written_commas {α : Type} {text : α → String} {spelled : α → List Lexeme} {items : List α}
    (each : ∀ item ∈ items, Written (text item) (spelled item)) :
    Written (", ".intercalate (items.map text)) ([Lexeme.sign ","].intercalate (items.map spelled)) :=
  written_intercalate (fixed_of_settled (by decide +kernel)) (by decide) each

/-- A text between two fixed ones. -/
theorem Written.between {front inner back : String} {opening : Lexeme} {closing : List Lexeme}
    (written : Written inner lexemes) (opens : Fixed front [opening]) (ends : isEnd back)
    (closes : Fixed back closing) :
    Fixed (front ++ inner ++ back) (opening :: (lexemes ++ closing)) := by
  rw [String.append_assoc]
  exact opens.append (written.fixed ends closes)

theorem fixed_less : Fixed "<" [.sign "<"] :=
  fixed_of_settled (by decide +kernel)

theorem fixed_greater : Fixed ">" [.sign ">"] :=
  fixed_of_settled (by decide +kernel)

theorem fixed_open : Fixed "(" [.sign "("] :=
  fixed_of_settled (by decide +kernel)

theorem fixed_close : Fixed ")" [.sign ")"] :=
  fixed_of_settled (by decide +kernel)

end Writing

section Render

variable {σ : Type}

theorem Ty.render_tuple (place : σ) (elems : List (Ty σ)) :
    (Ty.tuple place elems).render = Glue.tupleText (Ty.renderAll elems) := by
  rcases elems with _ | ⟨first, _ | ⟨second, rest⟩⟩
  · rfl
  · rfl
  · rw [Ty.render] <;> simp [Ty.renderAll, Glue.tupleText]

theorem Ty.renderAll_eq (types : List (Ty σ)) : Ty.renderAll types = types.map Ty.render := by
  induction types with
  | nil => rfl
  | cons ty rest ih => rw [Ty.renderAll, ih, List.map_cons]

theorem Segment.renderAll_eq (segments : List (Segment σ)) :
    Segment.renderAll segments = segments.map Segment.render := by
  induction segments with
  | nil => rfl
  | cons segment rest ih => rw [Segment.renderAll, ih, List.map_cons]

theorem GenericArg.renderAll_eq (args : List (GenericArg σ)) :
    GenericArg.renderAll args = args.map GenericArg.render := by
  induction args with
  | nil => rfl
  | cons arg rest ih => rw [GenericArg.renderAll, ih, List.map_cons]

theorem fixed_join {lexemes : List Lexeme} (tokens : Tokens lexemes) :
    Fixed (Lexeme.join lexemes ++ "]") (Lexeme.fuse lexemes ++ [.sign "]"]) := by
  have closes : Fixed "]" [.sign "]"] := fixed_of_settled (by decide +kernel)
  exact fun ahead => reads_append (Lexeme.reads_join tokens ahead) (closes ahead)

theorem lengthLexemes_join {lexemes : List Lexeme} (tokens : Tokens lexemes) :
    lengthLexemes (Lexeme.join lexemes) = Lexeme.fuse lexemes := by
  obtain ⟨found, read, same⟩ := reads_iff_tokenize.mp (fixed_join tokens [])
  rw [lengthLexemes, read]
  simp [same, Except.toOption]

theorem IsJoin.fixed {length : String} (isJoin : IsJoin length) :
    Fixed (length ++ "]") (lengthLexemes length ++ [.sign "]"]) := by
  obtain ⟨lexemes, tokens, -, rfl⟩ := isJoin
  rw [lengthLexemes_join tokens]
  exact fixed_join tokens

/-- The text of a type is read as the lexemes that spell it. -/
def Ty.Spelt (ty : Ty σ) : Prop :=
  Written ty.render ty.lexemes

theorem PathHead.fixed_render {head : PathHead σ} (self : ∀ ty ∈ head.self?, ty.Spelt)
    (traits : ∀ trait ∈ head.trait?, (Ty.path trait).Spelt) : Fixed head.render head.lexemes := by
  have closes : Fixed ">::" [.sign ">", .sign "::"] := fixed_greater.append fixed_colons
  cases head with
  | relative => exact fun ahead => .nil ahead
  | rooted => exact fixed_colons
  | self place ty => exact (self ty rfl).between fixed_less (by decide) closes
  | selfAs place ty trait =>
    have seen : Fixed (" as " ++ trait.render ++ ">::")
        (.word "as" :: (trait.lexemes ++ [.sign ">", .sign "::"])) :=
      (traits trait rfl).between (fixed_of_settled (by decide +kernel)) (by decide) closes
    have whole := (self ty rfl).between fixed_less
      (isEnd_append (isEnd_append (by decide) _) _) seen
    simpa only [PathHead.render, PathHead.lexemes, String.append_assoc] using whole

theorem GenericArg.written_render {arg : GenericArg σ} (decodable : arg.Decodable)
    (regular : arg.Regular) (inner : ∀ ty ∈ arg.type?, ty.Spelt) :
    Written arg.render arg.lexemes := by
  cases decodable with
  | type inside => exact inner _ rfl
  | @binding place name ty inside =>
    rw [GenericArg.render, GenericArg.lexemes, String.append_assoc]
    have equal : Fixed " = " [.sign "="] := fixed_of_settled (by decide +kernel)
    exact (written_word regular.1).append (isEnd_append (by decide) _) (equal.then (inner ty rfl))

theorem Segment.written_render {segment : Segment σ} (decodable : segment.Decodable)
    (regular : segment.Regular)
    (inner : ∀ arg ∈ segment.angleArgs, ∀ ty ∈ arg.type?, ty.Spelt) :
    Written segment.render segment.lexemes := by
  cases decodable with
  | @plain place ident =>
    rw [Segment.render, SegmentArgs.render, String.append_empty]
    exact written_word regular.1
  | @angle place spot ident args inside =>
    rw [Segment.render, Segment.lexemes, SegmentArgs.render, SegmentArgs.lexemes,
      GenericArg.renderAll_eq, GenericArg.lexemesAll_eq]
    have each := written_commas fun arg member =>
      GenericArg.written_render (inside arg member) (regular.2 arg member) (inner arg member)
    have angles := each.between fixed_less (by decide) fixed_greater
    exact (written_word regular.1).append (isEnd_append (isEnd_append (by decide) _) _)
      angles.written

theorem TyPath.written_render {path : TyPath σ} (decodable : (Ty.path path).Decodable)
    {isLength : σ → σ → String → Prop} (regular : (Ty.path path).Regular isLength)
    (inner : ∀ ty ∈ path.inner, ty.Spelt) : Written path.render path.lexemes := by
  obtain ⟨place, head, segments⟩ := path
  obtain ⟨-, self, regular⟩ := regular
  obtain ⟨headed, inside⟩ : head.Decodable ∧ ∀ segment ∈ segments, segment.Decodable := by
    cases decodable with
    | path headed inside => exact ⟨headed, inside⟩
  rw [TyPath.render, TyPath.lexemes, Segment.renderAll_eq, Segment.lexemesAll_eq]
  refine Fixed.then (PathHead.fixed_render ?_ ?_) (written_intercalate fixed_colons (by decide) ?_)
  · exact fun ty own => inner ty (TyPath.mem_inner.mpr (.inl own))
  · exact fun trait own => inner _ (TyPath.mem_inner.mpr (.inr (.inl ⟨trait, own, rfl⟩)))
  · intro segment member
    refine Segment.written_render (inside segment member) (regular segment member) ?_
    exact fun arg isArg ty held =>
      inner ty (TyPath.mem_inner.mpr (.inr (.inr ⟨segment, member, arg, isArg, held⟩)))

theorem Ty.spelt_of_sound (ty : Ty σ) (every : ty.Every Ty.Decodable) (sound : ty.Sound) :
    ty.Spelt := by
  induction ty using Ty.inner_induction with
  | step ty ih =>
    obtain ⟨decodable, everyInner⟩ := Ty.every_iff.mp every
    obtain ⟨regular, soundInner⟩ := Ty.every_iff.mp sound
    have inner (next : Ty σ) (member : next ∈ ty.inner) : next.Spelt :=
      ih next member (everyInner next member) (soundInner next member)
    cases decodable with
    | path headed inside => exact TyPath.written_render (.path headed inside) regular inner
    | @array place elem length inside =>
      have semicolon : Fixed "; " [.sign ";"] := fixed_of_settled (by decide +kernel)
      have whole := (inner elem List.mem_cons_self).between
        (fixed_of_settled (by decide +kernel : settled? "[".toList = some [.sign "["]))
        (isEnd_append (by decide) _) (semicolon.append regular.2.fixed)
      simp only [Ty.Spelt, Ty.render, String.append_assoc] at whole ⊢
      exact whole.written
    | paren inside =>
      exact ((inner _ List.mem_cons_self).between fixed_open (by decide) fixed_close).written
    | @tuple place elems inside =>
      rw [Ty.Spelt, Ty.render_tuple, Ty.renderAll_eq]
      rcases elems with _ | ⟨first, _ | ⟨second, rest⟩⟩
      · exact (fixed_open.append fixed_close).written
      · have comma : Fixed ",)" [.sign ",", .sign ")"] := fixed_of_settled (by decide +kernel)
        exact ((inner first List.mem_cons_self).between fixed_open (by decide) comma).written
      · have commas := (written_commas inner).between fixed_open (by decide) fixed_close
        rw [Ty.lexemes, Ty.lexemesAll_eq]
        · exact commas.written
        · simp

theorem Ty.Proper.spelt {ty : Ty σ} (proper : ty.Proper) : ty.Spelt := by
  refine ty.spelt_of_sound (fun part within => (proper part within).1) fun part within => ?_
  refine (proper part within).2.mono ?_
  rintro _ _ _ - ⟨lexemes, tokens, balanced, -, -, joined⟩
  exact ⟨lexemes, tokens, balanced, joined⟩

end Render

end ActorGlue
