import ActorGlue.Proofs.Tree.Spelling

/-!
# The text of types

The text of a sound type is read as a whole again if its values can be decoded and no path in it
names a self type as some trait: the trait of such a path is not checked, so it may hold anything.
-/

namespace ActorGlue

variable {σ : Type}

section Traits

mutual

/-- A path in the type names a self type as some trait. Only the parts of types whose values can be
decoded are looked at. -/
def Ty.namesTrait : Ty σ → Bool
  | .path (.mk _ head segments) => head.namesTrait || Segment.anyNamesTrait segments
  | .array _ elem _ => elem.namesTrait
  | .paren _ elem => elem.namesTrait
  | .tuple _ elems => Ty.anyNamesTrait elems
  | _ => false

/-- One of the types names a trait. -/
def Ty.anyNamesTrait : List (Ty σ) → Bool
  | [] => false
  | ty :: rest => ty.namesTrait || Ty.anyNamesTrait rest

def PathHead.namesTrait : PathHead σ → Bool
  | .self _ ty => ty.namesTrait
  | .selfAs .. => true
  | _ => false

/-- The arguments of one of the segments name a trait. -/
def Segment.anyNamesTrait : List (Segment σ) → Bool
  | [] => false
  | .mk _ _ args :: rest => args.namesTrait || Segment.anyNamesTrait rest

/-- The arguments of a segment name a trait. -/
def SegmentArgs.namesTrait : SegmentArgs σ → Bool
  | .angle _ args => GenericArg.anyNamesTrait args
  | _ => false

/-- An argument in angle brackets names a trait. -/
def GenericArg.namesTrait : GenericArg σ → Bool
  | .type _ ty => ty.namesTrait
  | .binding _ _ ty => ty.namesTrait
  | _ => false

/-- One of the arguments in angle brackets names a trait. -/
def GenericArg.anyNamesTrait : List (GenericArg σ) → Bool
  | [] => false
  | arg :: rest => arg.namesTrait || GenericArg.anyNamesTrait rest

end

theorem Ty.anyNamesTrait_eq (types : List (Ty σ)) :
    Ty.anyNamesTrait types = types.any Ty.namesTrait := by
  induction types with
  | nil => rfl
  | cons ty rest ih => rw [Ty.anyNamesTrait, ih, List.any_cons]

theorem GenericArg.anyNamesTrait_eq (args : List (GenericArg σ)) :
    GenericArg.anyNamesTrait args = args.any GenericArg.namesTrait := by
  induction args with
  | nil => rfl
  | cons arg rest ih => rw [GenericArg.anyNamesTrait, ih, List.any_cons]

theorem Segment.anyNamesTrait_eq (segments : List (Segment σ)) :
    Segment.anyNamesTrait segments = segments.any (·.angleArgs.any GenericArg.namesTrait) := by
  induction segments with
  | nil => rfl
  | cons segment rest ih =>
    obtain ⟨place, ident, _ | ⟨_, args⟩ | _⟩ := segment <;>
      simp only [Segment.anyNamesTrait, SegmentArgs.namesTrait, ih, List.any_cons,
        Segment.angleArgs, List.any_nil, GenericArg.anyNamesTrait_eq]

/-- A type that names no trait has none, and the types right inside of it name none. -/
theorem Ty.inner_of_plain {ty : Ty σ} (plain : ty.namesTrait = false) :
    ty.trait? = none ∧ ∀ next ∈ ty.inner, next.namesTrait = false := by
  cases ty with
  | path found =>
    obtain ⟨place, head, segments⟩ := found
    rw [Ty.namesTrait, Bool.or_eq_false_iff, Segment.anyNamesTrait_eq] at plain
    obtain ⟨headed, segmented⟩ := plain
    have traitless : head.trait? = none := by
      cases head with
      | selfAs => cases headed
      | _ => rfl
    refine ⟨traitless, fun next member => ?_⟩
    have member : next ∈ (TyPath.mk place head segments).inner := member
    obtain own | ⟨trait, seen, -⟩ | ⟨segment, isSegment, arg, isArg, held⟩ :=
      TyPath.mem_inner.mp member
    · cases head with
      | self => cases own; exact headed
      | selfAs => cases headed
      | _ => cases own
    · rw [traitless] at seen
      cases seen
    · simp only [List.any_eq_false, Bool.not_eq_true] at segmented
      have quiet := segmented segment isSegment arg isArg
      cases arg <;> cases held <;> exact quiet
  | array place elem length | paren place elem =>
    exact ⟨rfl, List.forall_mem_singleton.mpr plain⟩
  | tuple place elems =>
    rw [Ty.namesTrait, Ty.anyNamesTrait_eq, List.any_eq_false] at plain
    exact ⟨rfl, fun next member => by simpa using plain next member⟩
  | _ => exact ⟨rfl, List.forall_mem_nil _⟩

theorem Ty.every_of_plain {ty part : Ty σ} (plain : ty.namesTrait = false)
    (within : part.Within ty) : part.trait? = none := by
  induction within with
  | whole => exact (Ty.inner_of_plain plain).1
  | inner member _ ih => exact ih ((Ty.inner_of_plain plain).2 _ member)

end Traits

section Balance

/-! ## The lexemes of a type are balanced -/

theorem IsJoin.balanced {length : String} (isJoin : IsJoin length) :
    Balanced (lengthLexemes length) := by
  obtain ⟨lexemes, tokens, balanced, rfl⟩ := isJoin
  rw [lengthLexemes_join tokens, Balanced, ← owe_delimiters, Lexeme.delimiters_fuse, owe_delimiters]
  exact balanced

theorem PathHead.balanced_lexemes {head : PathHead σ}
    (self : ∀ ty ∈ head.self?, Balanced ty.lexemes)
    (traits : ∀ trait ∈ head.trait?, Balanced trait.lexemes) : Balanced head.lexemes := by
  have closes : Balanced [.sign ">", .sign "::"] := by decide
  cases head with
  | relative => rfl
  | rooted => exact (by decide : Balanced [.sign "::"])
  | self place ty => exact .plain_cons (by decide) ((self ty rfl).append closes)
  | selfAs place ty trait =>
    exact .plain_cons (by decide)
      ((self ty rfl).append (.plain_cons (by decide) ((traits trait rfl).append closes)))

theorem Segment.balanced_lexemes {segment : Segment σ}
    (inner : ∀ arg ∈ segment.angleArgs, ∀ ty ∈ arg.type?, Balanced ty.lexemes) :
    Balanced segment.lexemes := by
  have each : ∀ arg ∈ segment.angleArgs, Balanced arg.lexemes := by
    intro arg member
    cases arg with
    | type place ty => exact inner _ member ty rfl
    | binding place name ty =>
      exact .plain_cons rfl (.plain_cons (by decide) (inner _ member ty rfl))
    | _ => rfl
  obtain ⟨place, ident, _ | ⟨_, args⟩ | _⟩ := segment
  · exact .plain_cons rfl rfl
  · rw [Segment.lexemes, SegmentArgs.lexemes, GenericArg.lexemesAll_eq]
    have commas : Balanced ([Lexeme.sign ","].intercalate (args.map GenericArg.lexemes)) :=
      .intercalate (by decide) (List.forall_mem_map.mpr each)
    exact .plain_cons rfl (.plain_cons (by decide) (commas.append (by decide)))
  · exact .plain_cons rfl rfl

theorem Ty.balanced_lexemes {ty : Ty σ} (sound : ty.Sound) : Balanced ty.lexemes := by
  induction ty using Ty.inner_induction with
  | step ty ih =>
    obtain ⟨regular, others⟩ := Ty.every_iff.mp sound
    have inner (next : Ty σ) (member : next ∈ ty.inner) : Balanced next.lexemes :=
      ih next member (others next member)
    cases ty with
    | path found =>
      obtain ⟨place, head, segments⟩ := found
      replace inner : ∀ next ∈ (TyPath.mk place head segments).inner, Balanced next.lexemes := inner
      rw [Ty.lexemes, TyPath.lexemes, Segment.lexemesAll_eq]
      refine .append (PathHead.balanced_lexemes ?_ ?_) (.intercalate (by decide) ?_)
      · exact fun ty own => inner ty (TyPath.mem_inner.mpr (.inl own))
      · exact fun trait own => inner _ (TyPath.mem_inner.mpr (.inr (.inl ⟨trait, own, rfl⟩)))
      · refine List.forall_mem_map.mpr fun segment member => Segment.balanced_lexemes ?_
        exact fun arg isArg ty held =>
          inner ty (TyPath.mem_inner.mpr (.inr (.inr ⟨segment, member, arg, isArg, held⟩)))
    | array place elem length =>
      have inside := (inner elem List.mem_cons_self).append
        (.plain_cons (by decide : (Lexeme.sign ";").isDelimiter = false) regular.2.balanced)
      simpa [Ty.lexemes] using
        inside.enclosed (by decide : Lexeme.closer? (.sign "[") = some "]") (by decide)
    | paren place elem => exact (inner elem List.mem_cons_self).enclosed (by decide) (by decide)
    | tuple place elems =>
      rcases elems with _ | ⟨first, _ | ⟨second, rest⟩⟩
      · exact (by decide : Balanced [.sign "(", .sign ")"])
      · have inside := (inner first List.mem_cons_self).append
          (by decide : Balanced [.sign ","])
        simpa [Ty.lexemes] using
          inside.enclosed (by decide : Lexeme.closer? (.sign "(") = some ")") (by decide)
      · rw [Ty.lexemes, Ty.lexemesAll_eq]
        · refine .enclosed (.intercalate (by decide) ?_) (by decide) (by decide)
          exact List.forall_mem_map.mpr inner
        · simp
    | _ => rfl

end Balance

/-- The text of a sound type that names no trait is read as a whole if its values can be decoded. -/
theorem Ty.whole_render {ty : Ty σ} (sound : ty.Sound) (decodable : ty.Decodable)
    (plain : ∀ part : Ty σ, part.Within ty → part.trait? = none) : Whole ty.render := by
  have every : ty.Every Ty.Decodable := by
    refine decodable.every fun part within trait named => ?_
    rw [plain part within] at named
    cases named
  exact fun ahead ends =>
    ⟨ty.lexemes, ty.spelt_of_sound every sound ahead ends, Ty.balanced_lexemes sound⟩

end ActorGlue
