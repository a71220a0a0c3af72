import ActorGlue.Proofs.Parse.Ending
import ActorGlue.Proofs.Parse.Spelled

/-!
# Implementations that are put together

A method whose body is balanced and whose result is a path of plain words is a member, and members
that are read one after the other make up the body of an implementation block. With such a body, an
implementation of a trait for a type that is one word is an item.
-/

namespace ActorGlue

open Parse

/-- A path of plain words. -/
def TyPath.ofWords (words : List String) : TyPath Unit :=
  .mk () .relative (words.map fun word => .mk () word .absent)

/-- The lexemes of a path of plain words. -/
def wordLexemes (first : String) : List String → List Lexeme
  | [] => [⟨.ident, first⟩]
  | next :: others => ⟨.ident, first⟩ :: ⟨.punct, "::"⟩ :: wordLexemes next others

theorem wordLexemes_head (first : String) (others : List String) (rest : List Lexeme) :
    ∃ tail, wordLexemes first others ++ rest = ⟨.ident, first⟩ :: tail := by
  cases others <;> exact ⟨_, rfl⟩

theorem TyPath.lexemes_ofWords (first : String) (others : List String) :
    (TyPath.ofWords (first :: others)).lexemes = wordLexemes first others := by
  rw [ofWords, TyPath.lexemes, PathHead.lexemes, List.nil_append, Segment.lexemesAll_eq]
  induction others generalizing first with
  | nil => rfl
  | cons next others ih =>
    rw [wordLexemes, ← ih, List.map_cons, List.map_cons, List.map_cons, List.map_cons,
      List.intercalate_cons_cons]
    rfl

theorem TyPath.inner_ofWords (words : List String) : (TyPath.ofWords words).inner = [] := by
  simp [ofWords, inner, PathHead.self?, PathHead.trait?, Segment.angleArgs]

theorem TyPath.proper_ofWords {words : List String} (some : words ≠ [])
    (isWord : ∀ word ∈ words, IsWord word) : (Ty.path (.ofWords words)).Proper := by
  refine Ty.every_iff.mpr ⟨⟨.path .relative ?_, by simpa using some, by simp [PathHead.self?], ?_⟩, ?_⟩
  · intro segment member
    obtain ⟨word, -, rfl⟩ := List.mem_map.mp member
    exact .plain
  · intro segment member
    obtain ⟨word, among, rfl⟩ := List.mem_map.mp member
    exact ⟨isWord word among, by simp [Segment.angleArgs]⟩
  · simp [Ty.inner, TyPath.inner_ofWords]

namespace Parse

variable {first name : String} {others : List String} {rest : List Lexeme}

/-- A path of plain words is a type. -/
theorem ty_of_words (sum : Bool) (plain : first ∉ typeWords)
    (words : ∀ word ∈ first :: others, IsWord word) (ends : endsPath rest) :
    ∃ path, ty sum (wordLexemes first others ++ rest) = .ok (.path path, rest) ∧
      path.map (fun _ => ()) = .ofWords (first :: others) := by
  have short : (Ty.path (.ofWords (first :: others))).lexemes.length <
      (wordLexemes first others ++ rest).length + 1 := by
    rw [Ty.lexemes, TyPath.lexemes_ofWords, List.length_append]
    omega
  have known := known_of_proper _ (TyPath.proper_ofWords (List.cons_ne_nil _ _) words) short
  obtain ⟨found, read, same⟩ := known.rereads.type (by rintro word ⟨⟩; exact plain) sum rest ends
  rw [Ty.lexemes, TyPath.lexemes_ofWords] at read
  have shape : (TyPath.ofWords (first :: others)).map (fun _ => ()) = .ofWords (first :: others) := by
    simp [TyPath.ofWords, TyPath.map, PathHead.map, Segment.map, SegmentArgs.map]
  cases found with
  | path path => exact ⟨path, read, (Ty.path.inj same).trans shape⟩
  | _ => cases same

/-- The lexemes of a method with a result. -/
def methodLexemes (name : String) (params output body : List Lexeme) : List Lexeme :=
  ⟨.ident, "fn"⟩ :: ⟨.ident, name⟩ :: ⟨.punct, "("⟩ ::
    (params ++ ⟨.punct, ")"⟩ :: ⟨.punct, "->"⟩ ::
      (output ++ ⟨.punct, "\x7b"⟩ :: (body ++ [⟨.punct, "\x7d"⟩])))

section Methods

variable {before : Nat} {attributes : List (Attribute Extent)} {visibility : Visibility Extent}
  {qualifiers : List String} {params body : List Lexeme}

theorem methodBody_of_balanced (balanced : Balanced body) :
    methodBody (⟨.punct, "\x7b"⟩ :: (body ++ ⟨.punct, "\x7d"⟩ :: rest)) = .ok ((), rest) := by
  have closed := group_of_balanced (by decide : Lexeme.closer? ⟨.punct, "\x7b"⟩ = some "\x7d")
    (by decide : Lexeme.isCloser ⟨.punct, "\x7d"⟩) balanced rest
  rw [methodBody, at?_bind, if_pos (by rfl), bind_of_ok closed]
  rfl

theorem generics_of_free {ahead : List Lexeme} (free : ahead[0]?.any (·.is "<") = false) :
    generics ahead = .ok (Generics.mk none [] "", ahead) := by
  rw [generics, mark_bind, eat_bind, if_neg (by simp [free])]
  rfl

variable (read : ∀ ahead, ∃ inputs, separated "," (at? ")") methodInput
    (params ++ ⟨.punct, ")"⟩ :: ahead) = .ok (inputs, ⟨.punct, ")"⟩ :: ahead))
  (plain : first ∉ typeWords)
  (words : ∀ word ∈ first :: others, IsWord word) (balanced : Balanced body)
include read plain words balanced

/-- A method without generic parameters, whose result is a path of plain words. -/
theorem method_of_words : ∃ found, method before attributes visibility qualifiers
      (methodLexemes name params (wordLexemes first others) body ++ rest) = .ok (found, rest) ∧
    found.name = name := by
  let behind := ⟨.punct, "\x7b"⟩ :: (body ++ ⟨.punct, "\x7d"⟩ :: rest)
  let result := ⟨.punct, "->"⟩ :: (wordLexemes first others ++ behind)
  have whole : methodLexemes name params (wordLexemes first others) body ++ rest =
      ⟨.ident, "fn"⟩ :: ⟨.ident, name⟩ :: ⟨.punct, "("⟩ :: (params ++ ⟨.punct, ")"⟩ :: result) := by
    simp [methodLexemes, result, behind]
  obtain ⟨inputs, takes⟩ := read result
  obtain ⟨path, typed, -⟩ := @ty_of_words first others behind true plain words
    (by simp [behind, endsPath, Lexeme.is])
  have named : expectIdent "a method name" (⟨.ident, name⟩ :: ⟨.punct, "("⟩ ::
      (params ++ ⟨.punct, ")"⟩ :: result)) = .ok (name, ⟨.punct, "("⟩ ::
        (params ++ ⟨.punct, ")"⟩ :: result)) := rfl
  have bare := @generics_of_free (⟨.punct, "("⟩ :: (params ++ ⟨.punct, ")"⟩ :: result))
    (by simp [Lexeme.is])
  have gives : output? ty result = .ok (some (.path path), behind) := by
    rw [output?, eat_bind, if_pos (by rfl)]
    exact bind_of_ok typed
  have noClause : whereClause (Generics.mk none [] "") behind =
      .ok (Generics.mk none [] "", behind) := by
    rw [whereClause, eat_bind]
    rfl
  refine ⟨⟨⟨before, rest.length⟩, attributes, visibility, name, Generics.mk none [] "", inputs,
    some (.path path), qualifiers⟩, ?_, rfl⟩
  rw [whole, Parse.method, expect_bind, if_pos (by rfl), List.drop_succ_cons, List.drop_zero,
    bind_of_ok named, bind_of_ok bare, expect_bind, if_pos (by rfl), List.drop_succ_cons,
    List.drop_zero, bind_of_ok takes, expect_bind, if_pos (by rfl), List.drop_succ_cons,
    List.drop_zero, bind_of_ok gives, bind_of_ok noClause,
    bind_of_ok (methodBody_of_balanced balanced)]
  rfl

/-- Such a method is a member. -/
theorem member_of_words :
    ∃ found, member (methodLexemes name params (wordLexemes first others) body ++ rest) =
      .ok (.method found, rest) ∧ found.name = name := by
  let ahead := methodLexemes name params (wordLexemes first others) body ++ rest
  obtain ⟨found, taken, named⟩ := @method_of_words first name others rest ahead.length []
    .inherited [] params body read plain words balanced
  have bare : Parse.attributes false ahead = .ok ([], ahead) :=
    @Block.attributes_all ahead [] (by rfl)
  have seen : Parse.visibility ahead = .ok (.inherited, ahead) := by
    rw [Parse.visibility, get_bind]
    rfl
  have last : memberRest ahead.length [] .inherited ahead = .ok (.method found, rest) := by
    have none : qualifierCount ahead = 0 := rfl
    rw [memberRest, get_bind, none, at?_bind, if_pos (by rfl), skip_bind, List.drop_zero]
    exact bind_of_ok taken
  refine ⟨found, ?_, named⟩
  rw [Parse.member, mark_bind, bind_of_ok bare, bind_of_ok seen, eat_bind,
    if_neg (by simp [ahead, methodLexemes, Lexeme.is])]
  exact last

end Methods

section Parameters

/-- A method without parameters. -/
theorem inputs_none (ahead : List Lexeme) :
    separated "," (at? ")") methodInput (⟨.punct, ")"⟩ :: ahead) =
      .ok ([], ⟨.punct, ")"⟩ :: ahead) := by
  rw [separated, many_eq_ok_iff]
  exact .last rfl

/-- A method with a reference to the receiver. -/
theorem inputs_self (ahead : List Lexeme) :
    separated "," (at? ")") methodInput
        ([⟨.punct, "&"⟩, ⟨.ident, "self"⟩] ++ ⟨.punct, ")"⟩ :: ahead) =
      .ok ([.receiver ⟨⟨ahead.length + 3, ahead.length + 1⟩, [], true, false, none, none⟩],
        ⟨.punct, ")"⟩ :: ahead) := by
  rfl

end Parameters

section Members

variable {ahead left : List Lexeme} {value : Member Extent} {values : List (Member Extent)}

theorem repeats_members (read : member ahead = .ok (value, left))
    (opens : ahead[0]?.any (·.is "\x7d") = false) (shorter : left.length < ahead.length)
    (more : Repeats memberStep left values rest) :
    Repeats memberStep ahead (value :: values) rest := by
  have some : ahead.isEmpty = false := by
    cases ahead with
    | nil => simp at shorter
    | cons lexeme others => rfl
  have taken : memberStep ahead = .ok (([value], true), left) := by
    rw [memberStep, at?_bind, opens]
    simp only [Bool.false_eq_true, if_false, get_bind, some]
    rw [bind_of_ok read]
    rfl
  exact .next taken shorter more

theorem repeats_noMember :
    Repeats memberStep (⟨.punct, "\x7d"⟩ :: left) [] (⟨.punct, "\x7d"⟩ :: left) :=
  .last rfl

/-- Members that are read one after the other are the body of an implementation block. -/
theorem implBody_of_members (free : ahead[0]?.any (·.is "#") = false)
    (members : Repeats memberStep ahead values left) :
    implBody (⟨.punct, "\x7b"⟩ :: ahead) = .ok (values, left) := by
  rw [implBody, expect_bind, if_pos (by rfl), List.drop_succ_cons, List.drop_zero,
    bind_of_ok (innerAttributes_of_free free)]
  exact many_eq_ok_iff.mpr members

end Members

section Implementations

variable {members : List (Member Extent)} {inside left : List Lexeme}
  (plain : first ∉ typeWords) (plain' : name ∉ typeWords)
  (words : ∀ word ∈ first :: others, IsWord word) (word : IsWord name)
  (read : implBody (⟨.punct, "\x7b"⟩ :: inside) = .ok (members, ⟨.punct, "\x7d"⟩ :: left))
include plain plain' words word read

/-- An implementation of a trait for a type that is one word, in front of its last brace. -/
theorem implFront_of_words :
    ∃ trait self, implFront (⟨.ident, "impl"⟩ :: (wordLexemes first others ++
        ⟨.ident, "for"⟩ :: ⟨.ident, name⟩ :: ⟨.punct, "\x7b"⟩ :: inside)) =
          .ok ((false, Generics.mk none [] "", (some trait, .path self), false, members),
            ⟨.punct, "\x7d"⟩ :: left) ∧
      trait.map (fun _ => ()) = .ofWords (first :: others) ∧
      self.map (fun _ => ()) = .ofWords [name] := by
  obtain ⟨trait, named, traitWords⟩ := @ty_of_words first others
    (⟨.ident, "for"⟩ :: ⟨.ident, name⟩ :: ⟨.punct, "\x7b"⟩ :: inside) false plain words
    (by simp [endsPath, Lexeme.is])
  obtain ⟨self, typed, selfWord⟩ := @ty_of_words name [] (⟨.punct, "\x7b"⟩ :: inside) false plain'
    (by simpa using word) (by simp [endsPath, Lexeme.is])
  obtain ⟨tail, head⟩ : ∃ tail, wordLexemes first others ++ _ = ⟨.ident, first⟩ :: tail :=
    wordLexemes_head first others (⟨.ident, "for"⟩ :: ⟨.ident, name⟩ :: ⟨.punct, "\x7b"⟩ :: inside)
  have here := Scan.isScanned_of_isToken (words first List.mem_cons_self)
  have noAngle : Lexeme.is ⟨.ident, first⟩ "<" = false := here.is_of_scanned (by decide)
  have noBang : Lexeme.is ⟨.ident, first⟩ "!" = false := here.is_of_scanned (by decide)
  have generic : implGenerics (⟨.ident, first⟩ :: tail) =
      .ok (Generics.mk none [] "", ⟨.ident, first⟩ :: tail) := by
    rw [implGenerics, at?_bind, peekAt_bind]
    simp [noAngle, pure_apply]
  have target : implTypes false (⟨.ident, first⟩ :: tail) =
      .ok ((some trait, .path self), ⟨.punct, "\x7b"⟩ :: inside) := by
    rw [← head, implTypes, bind_of_ok named, implTarget, eat_bind]
    exact bind_of_ok typed
  have bare : whereClause (Generics.mk none [] "") (⟨.punct, "\x7b"⟩ :: inside) =
      .ok (Generics.mk none [] "", ⟨.punct, "\x7b"⟩ :: inside) := by
    rw [whereClause, eat_bind]
    rfl
  refine ⟨trait, self, ?_, traitWords, selfWord⟩
  rw [implFront, head, eat_bind, if_neg (by simp [Lexeme.is]), eat_bind,
    if_neg (by simp [Lexeme.is]), expect_bind, if_pos (by simp [Lexeme.is]),
    List.drop_succ_cons, List.drop_zero, bind_of_ok generic, at?_bind, kindAt?_bind]
  simp only [List.getElem?_cons_zero, Option.any_some, noBang, Bool.false_and]
  rw [skip_bind]
  simp only [Bool.false_eq_true, if_false, List.drop_zero]
  rw [bind_of_ok target, bind_of_ok bare, bind_of_ok read]
  rfl

/-- An implementation of a trait for a type that is one word is an item. -/
theorem item_of_words :
    ∃ found, item (⟨.ident, "impl"⟩ :: (wordLexemes first others ++
        ⟨.ident, "for"⟩ :: ⟨.ident, name⟩ :: ⟨.punct, "\x7b"⟩ :: inside)) =
          .ok (.impl found, left) ∧
      found.members = members ∧
      found.trait.map (·.map fun _ => ()) = some (.ofWords (first :: others)) ∧
      found.selfTy.map (fun _ => ()) = .path (.ofWords [name]) := by
  obtain ⟨trait, self, front, traitWords, selfWord⟩ :=
    implFront_of_words plain plain' words word read
  generalize wordLexemes first others ++ _ = body at front ⊢
  refine ⟨⟨⟨body.length + 1, left.length⟩, [], Generics.mk none [] "", .path self, some trait, false,
    false, members⟩, ?_, rfl, by simp [traitWords], by simp [Ty.map, selfWord]⟩
  have bare : Parse.attributes false (⟨.ident, "impl"⟩ :: body) =
      .ok ([], ⟨.ident, "impl"⟩ :: body) :=
    @Block.attributes_all _ [] (by simp [Lexeme.is])
  have seen : visibility (⟨.ident, "impl"⟩ :: body) = .ok (.inherited, ⟨.ident, "impl"⟩ :: body) := by
    rw [visibility, get_bind]
    rfl
  rw [item_apply (List.cons_ne_nil _ _), bind_of_ok bare, bind_of_ok seen, itemRest_cons,
    if_neg (by decide), if_pos (by rfl), List.length_cons]
  refine bind_of_ok ?_
  rw [implItem, bind_of_ok front, expect_bind]
  rfl

end Implementations

end Parse

end ActorGlue
