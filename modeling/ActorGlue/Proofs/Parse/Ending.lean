import ActorGlue.Proofs.Parse.ImplWindow

/-!
# What parsers complain about

A parser complains about one of the lexemes ahead or about their end, about a trait that is not
named by a path, or about a repetition that does not end. That happens only if a step goes on
without taking a lexeme. For every repetition but one the step takes a lexeme whenever it goes on.
The exception is a member of an implementation block that begins with a closing parenthesis or
bracket and an exclamation mark behind it. So on lexemes without these two next to each other the
parser of items ends.
-/

namespace ActorGlue.Parse

variable {ahead : List Lexeme} (before : Nat) {fits : List Lexeme → Prop} {complaint : Complaint}
  {wanted text kind : String} {condition : Prop} {distance : Nat} {start rest : List Lexeme}
  {stops qualifiers : List String} {sum negative : Bool} {lexeme : Lexeme} {value : Member Extent}

/-- The complaint is about one of that many lexemes, or about their end. -/
def Complaint.Located (size : Nat) : Complaint → Prop
  | .unexpected _ found ahead => ahead ≤ size ∧ (found.isSome → 0 < ahead)
  | .mismatched _ ahead => ahead ≤ size ∧ 0 < ahead
  | .unclosed _ ahead => ahead ≤ size
  | .notTraitPath _ | .endless => False

/-- What may be complained about lexemes: whatever is about one of them or their end, and whatever
may be complained about the last of them. -/
class Allows (allowed : List Lexeme → Complaint → Prop) : Prop where
  located : ∀ {ahead : List Lexeme} {complaint : Complaint}, complaint.Located ahead.length →
    allowed ahead complaint
  suffix : ∀ {left ahead : List Lexeme} {complaint : Complaint}, left <:+ ahead →
    allowed left complaint → allowed ahead complaint

/-- The parser complains about what it may. -/
class Complains {α : Type} (allowed : List Lexeme → Complaint → Prop) (parser : Parser α) :
    Prop where
  within : ∀ {ahead : List Lexeme} {complaint : Complaint}, parser ahead = .error complaint →
    allowed ahead complaint

/-- Unless a repetition may go on for ever, its step takes a lexeme whenever it goes on. -/
class Advances {α : Type} (allowed : List Lexeme → Complaint → Prop)
    (step : Parser (List α × Bool)) : Prop where
  shorter : ∀ {ahead left : List Lexeme} {items : List α}, ¬allowed ahead .endless →
    step ahead = .ok ((items, true), left) → left.length < ahead.length

/-- What holds of lexemes holds of the last of them. -/
class Inherits (fits : List Lexeme → Prop) : Prop where
  suffix : ∀ {left ahead : List Lexeme}, left <:+ ahead → fits ahead → fits left

instance : Inherits fun _ => True where
  suffix _ _ := trivial

/-- What may be complained about lexemes if they fit. -/
def Among (fits : List Lexeme → Prop) (allowed : List Lexeme → Complaint → Prop)
    (ahead : List Lexeme) (complaint : Complaint) : Prop :=
  fits ahead → allowed ahead complaint

instance [Inherits fits] {allowed : List Lexeme → Complaint → Prop} [Allows allowed] :
    Allows (Among fits allowed) where
  located here _ := Allows.located here
  suffix behind may fit := Allows.suffix behind (may (Inherits.suffix behind fit))

theorem Complains.of_fits {α : Type} {allowed : List Lexeme → Complaint → Prop} {parser : Parser α}
    [complains : Complains (Among fits allowed) parser] {ahead : List Lexeme} (fit : fits ahead)
    (h : parser ahead = .error complaint) : allowed ahead complaint :=
  complains.within h fit

/-- Everything but that a repetition goes on for ever. -/
def Ending (_ : List Lexeme) (complaint : Complaint) : Prop :=
  complaint ≠ .endless

instance : Allows Ending where
  located := by
    rintro _ _ here rfl
    exact here
  suffix _ may := may

/-- The parser ends on all lexemes that fit. -/
abbrev Ends {α : Type} (fits : List Lexeme → Prop) (parser : Parser α) : Prop :=
  Complains (Among fits Ending) parser

theorem Ends.ends {α : Type} {parser : Parser α} [Ends fits parser] {ahead : List Lexeme}
    (fit : fits ahead) : parser ahead ≠ .error .endless :=
  fun h => (Complains.of_fits fit h : Ending ahead .endless) rfl

section Runs

variable {α β : Type} {allowed : List Lexeme → Complaint → Prop} {ahead : List Lexeme}
  {parser : Parser α} {next : α → Parser β}

theorem bind_eq_error :
    (parser >>= next) ahead = .error complaint ↔ parser ahead = .error complaint ∨
      ∃ found middle, parser ahead = .ok (found, middle) ∧ next found middle = .error complaint := by
  change (parser ahead).bind (fun found => next found.1 found.2) = _ ↔ _
  cases parser ahead with
  | error complaint => simp [Except.bind]
  | ok found =>
    obtain ⟨first, rest⟩ := found
    simp [Except.bind]

theorem refuse_located (h : (refuse wanted : Parser α) ahead = .error complaint) :
    complaint.Located ahead.length := by
  cases h
  refine ⟨le_rfl, fun found => ?_⟩
  cases ahead with
  | nil => cases found
  | cons => exact Nat.succ_pos _

instance complains_pure (value : α) : Complains allowed (pure value : Parser α) where
  within h := by cases h

instance complains_get : Complains allowed (get : Parser (List Lexeme)) where
  within h := by cases h

instance complains_skip (count : Nat) : Complains allowed (skip count) where
  within h := by cases h

instance complains_ite [Decidable condition] (yes no : Parser α) [Complains allowed yes]
    [Complains allowed no] : Complains allowed (if condition then yes else no) := by
  split <;> infer_instance

variable [Allows allowed]

instance complains_bind [Complains allowed parser] [Shrinks parser]
    [∀ value, Complains allowed (next value)] :
    Complains allowed (parser >>= next) where
  within h := by
    rcases bind_eq_error.mp h with first | ⟨found, middle, first, second⟩
    · exact Complains.within first
    · exact Allows.suffix (Shrinks.suffix first) (Complains.within second)

instance (priority := low) complains_option (parser : Parser (Option Lexeme))
    [Complains allowed parser] [Shrinks parser] (next : Option Lexeme → Parser α)
    [Complains allowed (next none)] [∀ lexeme, Complains allowed (next (some lexeme))] :
    Complains allowed (parser >>= next) := by
  refine @complains_bind _ _ _ _ _ _ inferInstance inferInstance fun first => ?_
  cases first <;> infer_instance

instance (priority := low) complains_list (parser : Parser (List Lexeme))
    [Complains allowed parser] [Shrinks parser] (next : List Lexeme → Parser α)
    [Complains allowed (next [])] [∀ lexeme rest, Complains allowed (next (lexeme :: rest))] :
    Complains allowed (parser >>= next) := by
  refine @complains_bind _ _ _ _ _ _ inferInstance inferInstance fun ahead => ?_
  cases ahead <;> infer_instance

instance complains_refuse : Complains allowed (refuse wanted : Parser α) where
  within h := Allows.located (refuse_located h)

instance : Complains allowed mark := by unfold mark; infer_instance

instance : Complains allowed (peekAt distance) := by unfold peekAt; infer_instance

instance : Complains allowed peek := by unfold peek; infer_instance

instance : Complains allowed (at? text distance) := by
  unfold at?; infer_instance

instance (kind : Token.Kind) : Complains allowed (kindAt? kind distance) := by
  unfold kindAt?; infer_instance

instance (before : Nat) : Complains allowed (extentFrom before) := by
  unfold extentFrom; infer_instance

instance : Complains allowed (readSince start) := by
  unfold readSince; infer_instance

instance : Complains allowed (eat text) := by unfold eat; infer_instance

instance : Complains allowed (expect text wanted) := by
  unfold expect; infer_instance

instance : Complains allowed (advance wanted) where
  within {ahead complaint} h := by
    cases ahead with
    | nil => exact Allows.located (refuse_located h)
    | cons first rest => cases h

instance : Complains allowed (expectIdent wanted) where
  within {ahead complaint} h := by
    cases ahead with
    | nil => exact Allows.located (refuse_located h)
    | cons first rest =>
      rw [expectIdent, get_bind] at h
      dsimp only at h
      split_ifs at h
      · cases h
      · exact Allows.located (refuse_located h)

instance : Complains allowed group where
  within {ahead complaint} h := by
    cases ahead with
    | nil => exact Allows.located (refuse_located h)
    | cons opener rest =>
      cases opens : opener.closer? with
      | none =>
        simp only [group, get_bind, opens] at h
        exact Allows.located (refuse_located h)
      | some closer =>
        obtain ⟨split, ends⟩ := exists_groupEnds closer [] rest
        rw [group_of_ends opens ends] at h
        cases ends with
        | closed => cases h
        | wrong =>
          cases h
          exact Allows.located ⟨by simp; omega, Nat.succ_pos _⟩
        | missing =>
          cases h
          exact Allows.located (Nat.le_refl _)

instance : Complains allowed angleGroup where
  within {ahead complaint} h := by
    rw [angleGroup, at?_bind] at h
    split_ifs at h
    · simp only [get_bind] at h
      cases split : splitAngles 0 ahead with
      | some found => rw [split] at h; cases h
      | none =>
        rw [split] at h
        cases h
        exact Allows.located ⟨Nat.zero_le _, fun found => by cases found⟩
    · exact Allows.located (refuse_located h)

end Runs

section Repetitions

/-! ## Repetitions -/

variable {α β : Type} {allowed : List Lexeme → Complaint → Prop} [Allows allowed]
  {step yes : Parser (List α × Bool)} {items : List α}

section Loops

variable {σ : Type} {step : σ → Parser (List α × Option σ)}
  [∀ state, Complains allowed (step state)] [∀ state, Shrinks (step state)]
  (advances : ∀ {state next ahead left items}, ¬allowed ahead .endless →
    step state ahead = .ok ((items, some next), left) → left.length < ahead.length)
include advances

/-- A loop complains about what its steps do, if they take a lexeme whenever they go on or the loop
may go on for ever. -/
theorem loopUpTo_complains {whole ahead : List Lexeme} {fuel : Nat} {state : σ}
    (behind : ahead <:+ whole) (enough : ¬allowed whole .endless → ahead.length < fuel)
    (h : loopUpTo step fuel state ahead = .error complaint) : allowed whole complaint := by
  induction fuel generalizing state ahead with
  | zero =>
    cases h
    by_contra never
    exact absurd (enough never) (Nat.not_lt_zero _)
  | succ fuel ih =>
    rw [loopUpTo] at h
    rcases bind_eq_error.mp h with first | ⟨⟨items, _ | next⟩, middle, first, second⟩
    · exact Allows.suffix behind (Complains.within first)
    · cases second
    · rcases bind_eq_error.mp second with again | ⟨_, _, _, last⟩
      · refine ih ((Shrinks.suffix first).trans behind) (fun never => ?_) again
        have shorter := advances (mt (Allows.suffix behind) never) first
        have room := enough never
        omega
      · cases last

theorem loop_complains (state : σ) : Complains allowed (loop step state) where
  within {ahead complaint} h := by
    have h : loopUpTo step (ahead.length + 1) state ahead = .error complaint := h
    exact loopUpTo_complains advances List.suffix_rfl (fun _ => Nat.lt_succ_self _) h

end Loops

instance complains_many [Complains allowed step] [Shrinks step] [Advances allowed step] :
    Complains allowed (many step) := by
  have steps : ∀ state, Complains allowed (manyStep step state) := by
    intro state
    unfold manyStep
    infer_instance
  refine @loop_complains _ allowed _ _ (manyStep step) _ _ ?_ ()
  intro state next ahead left items never taken
  exact Advances.shorter never (manyStep_eq_ok taken)

instance advances_of_progresses [Progresses step] :
    Advances allowed step where
  shorter _ taken := Progresses.shorter taken

instance advances_last : Advances allowed (pure (items, false)) where
  shorter _ taken := by cases taken

instance advances_bind (parser : Parser β) (next : β → Parser (List α × Bool)) [Shrinks parser]
    [∀ value, Advances allowed (next value)] : Advances allowed (parser >>= next) where
  shorter never taken := by
    obtain ⟨found, middle, first, second⟩ := bind_eq_ok.mp taken
    have behind := Shrinks.suffix first
    have shorter := Advances.shorter (mt (Allows.suffix behind) never) second
    exact Nat.lt_of_lt_of_le shorter behind.length_le

instance advances_ite [Decidable condition] {no : Parser (List α × Bool)} [Advances allowed yes]
    [Advances allowed no] : Advances allowed (if condition then yes else no) := by
  split <;> infer_instance

/-- Going on after a separator takes the separator. -/
instance advances_eat :
    Advances allowed (do return (items, ← eat text)) where
  shorter {ahead left found} _ taken := by
    rw [eat_bind] at taken
    split_ifs at taken with here
    · obtain ⟨first, rest, -, rfl⟩ := head_of_any here
      cases taken
      simp
    · cases taken

instance advances_if_eat [Shrinks yes] :
    Advances allowed (eat text >>= fun found => if found then yes else pure (items, false)) where
  shorter {ahead left found} _ taken := by
    simp only [eat_bind, Bool.false_eq_true, if_true, if_false] at taken
    split_ifs at taken with here
    · obtain ⟨first, rest, -, rfl⟩ := head_of_any here
      have behind := (Shrinks.suffix taken).length_le
      simp only [List.drop_one, List.tail_cons, List.length_cons] at behind ⊢
      omega
    · cases taken

instance complains_separated (separator : String) (done : Parser Bool) (item : Parser α)
    [Shrinks done] [Shrinks item] [Complains allowed done] [Complains allowed item] :
    Complains allowed (separated separator done item) := by
  unfold separated separatedStep; infer_instance

theorem collectStep_complains (stops : List String) (angles : Bool) (depth : Nat) :
    Complains allowed (collectStep stops angles depth) := by unfold collectStep; infer_instance

instance (angles : Bool) : Complains allowed (collectUntil stops angles) := by
  have steps := @collectStep_complains allowed _ stops angles
  refine @loop_complains _ allowed _ _ (collectStep stops angles) _ _ ?_ 0
  intro depth next ahead left found _ taken
  obtain ⟨⟨rfl, -⟩, takes⟩ := collectStep_eq_ok taken
  have some := List.length_pos_of_ne_nil (takes rfl)
  rw [List.length_append]
  omega

end Repetitions

section Types

/-! ## Types -/

/-- Fewer lexemes than the given number. -/
def Fewer (limit : Nat) (ahead : List Lexeme) : Prop :=
  ahead.length < limit

instance (limit : Nat) : Inherits (Fewer limit) where
  suffix behind fit := Nat.lt_of_le_of_lt behind.length_le fit

/-- What may be complained about fewer lexemes than the given number. -/
abbrev Below (limit : Nat) (allowed : List Lexeme → Complaint → Prop) :
    List Lexeme → Complaint → Prop :=
  Among (Fewer limit) allowed

/-- The nested parsers of a grammar complain about what they may, if there are fewer lexemes than
the given number. -/
class Grammar.Complains (allowed : outParam (List Lexeme → Complaint → Prop))
    (limit : outParam Nat) (g : Grammar) : Prop where
  ty : ∀ sum, Parse.Complains (Below limit allowed) (g.ty sum)
  path : Parse.Complains (Below limit allowed) g.path
  bound : Parse.Complains (Below limit allowed) g.bound

variable {allowed : List Lexeme → Complaint → Prop} [Allows allowed] {limit : Nat}

instance : Complains allowed atBound := by unfold atBound; infer_instance

instance (bound : Parser (Bound Extent)) [Shrinks bound] [Complains allowed bound] :
    Complains allowed (bounds bound sum) := by
  unfold bounds boundStep; infer_instance

instance (ty : Parser (Ty Extent)) [Shrinks ty] [Complains allowed ty] :
    Complains allowed (output? ty) := by
  unfold output?; infer_instance

instance : Complains allowed fnLifetimes := by unfold fnLifetimes; infer_instance

instance : Complains allowed fnConvention := by unfold fnConvention; infer_instance

instance : Complains allowed turbofish := by unfold turbofish; infer_instance

instance : Complains allowed forLifetimes := by unfold forLifetimes; infer_instance

instance : Complains allowed lifetime? := by unfold lifetime?; infer_instance

instance : Complains allowed verbatimTy := by unfold verbatimTy; dsimp only; infer_instance

variable (g : Grammar) [shrink : g.Shrink] [nested : g.Complains allowed limit]

instance : Complains (Below limit allowed) (g.ty sum) := nested.ty sum

instance : Complains (Below limit allowed) g.path := nested.path

instance : Complains (Below limit allowed) g.bound := nested.bound

set_option synthInstance.maxSize 2000 in
instance : Complains (Below limit allowed) (angleArg g) := by unfold angleArg; infer_instance

set_option synthInstance.maxSize 2000 in
instance : Complains (Below limit allowed) (angleArgs g) := by unfold angleArgs; infer_instance

set_option synthInstance.maxSize 2000 in
instance : Complains (Below limit allowed) (callArgs g) := by unfold callArgs; infer_instance

instance : Complains (Below limit allowed) (segmentArgs g ident) := by
  unfold segmentArgs; infer_instance

instance : Complains (Below limit allowed) (tupleRest g) := by unfold tupleRest; infer_instance

section Layers

variable {α β : Type}

/-- After a parser that takes a lexeme there are fewer lexemes left. -/
theorem complains_after {parser : Parser α} {next : α → Parser β} [Shrinks parser]
    [Progresses parser] [Complains (Below (limit + 1) allowed) parser]
    (rest : ∀ value, Complains (Below limit allowed) (next value)) :
    Complains (Below (limit + 1) allowed) (parser >>= next) where
  within {ahead complaint} h fit := by
    rcases bind_eq_error.mp h with first | ⟨found, middle, first, second⟩
    · exact Complains.of_fits fit first
    · have shorter := Progresses.shorter first
      have fit : ahead.length < limit + 1 := fit
      have may := (rest found).within second (show middle.length < limit by omega)
      exact Allows.suffix (Shrinks.suffix first) may

/-- Behind a mark that is taken there are fewer lexemes left. -/
theorem complains_eat {yes no : Parser α} (taken : Complains (Below limit allowed) yes)
    (passed : Complains (Below (limit + 1) allowed) no) :
    Complains (Below (limit + 1) allowed)
      (eat text >>= fun found => if found then yes else no) where
  within {ahead complaint} h fit := by
    simp only [eat_bind, Bool.false_eq_true, if_true, if_false] at h
    split_ifs at h with here
    · obtain ⟨first, rest, -, rfl⟩ := head_of_any here
      have fit : (first :: rest).length < limit + 1 := fit
      have may := taken.within h (show rest.length < limit by simpa using fit)
      exact Allows.suffix (List.suffix_cons _ _) may
    · exact passed.within h fit

/-- Without the first lexeme there are fewer lexemes left. -/
theorem complains_skip_one {next : Nat → Parser α}
    (rest : ∀ before, Complains (Below limit allowed) (next before)) {ahead : List Lexeme}
    (fit : Fewer limit ahead)
    (h : (do
      let before ← mark
      skip 1
      next before : Parser α) (lexeme :: ahead) = .error complaint) :
    allowed (lexeme :: ahead) complaint :=
  Allows.suffix (List.suffix_cons _ _) ((rest _).within h fit)

omit [Allows allowed] in
/-- A choice complains about what both of its branches do. -/
theorem complains_choice [Decidable condition] {yes no : Parser α} {ahead : List Lexeme}
    (h : (if condition then yes else no) ahead = .error complaint)
    (taken : yes ahead = .error complaint → allowed ahead complaint)
    (passed : no ahead = .error complaint → allowed ahead complaint) : allowed ahead complaint := by
  split at h
  · exact taken h
  · exact passed h

end Layers

instance : Complains (Below (limit + 1) allowed) (segment g) := by
  unfold segment
  refine @complains_bind _ _ _ _ _ _ inferInstance inferInstance fun before => ?_
  exact complains_after fun ident => inferInstance

set_option synthInstance.maxSize 2000 in
instance : Complains (Below (limit + 1) allowed) (pathHead g) := by
  unfold pathHead
  refine @complains_bind _ _ _ _ _ _ inferInstance inferInstance fun before => ?_
  exact complains_eat inferInstance inferInstance

instance : Complains (Below (limit + 1) allowed) (segmentStep g) := by
  unfold segmentStep; infer_instance

instance : Complains (Below (limit + 1) allowed) (pathLayer g) := by unfold pathLayer; infer_instance

instance : Complains (Below (limit + 1) allowed) (boundRest g before) := by
  unfold boundRest
  exact complains_eat inferInstance inferInstance

instance : Complains (Below (limit + 1) allowed) (boundLayer g) := by unfold boundLayer; infer_instance

instance : Complains (Below limit allowed) (bareInput g) := by unfold bareInput; dsimp only; infer_instance

set_option synthInstance.maxSize 2000 in
instance : Complains (Below (limit + 1) allowed) (fnTail g start) := by
  unfold fnTail
  exact complains_after fun _ => inferInstance

set_option synthInstance.maxSize 2000 in
instance : Complains (Below (limit + 1) allowed) (bareFn g) := by
  unfold bareFn; infer_instance

set_option synthInstance.maxSize 2000 in
instance : Complains (Below (limit + 1) allowed) (plusTail g) := by unfold plusTail; infer_instance

set_option synthInstance.maxSize 2000 in
instance : Complains (Below (limit + 1) allowed) (pathTy g sum) := by unfold pathTy; infer_instance

set_option synthInstance.maxSize 2000 in
/-- The types that begin with a mark or a word of their own take it first. -/
instance : Complains (Below (limit + 1) allowed) (tyLayer g sum) where
  within {ahead complaint} h fit := by
    rw [tyLayer, get_bind] at h
    cases ahead with
    | nil => exact Complains.of_fits fit h
    | cons lexeme rest =>
      have shorter : Fewer limit rest := by simpa [Fewer] using fit
      have wide : Fewer (limit + 1) rest := Nat.lt_succ_of_lt shorter
      have behind := List.suffix_cons lexeme rest
      refine complains_choice h (complains_skip_one (fun before => inferInstance) shorter) fun h => ?_
      refine complains_choice h (complains_skip_one (fun before => inferInstance) shorter) fun h => ?_
      refine complains_choice h (complains_skip_one (fun before => inferInstance) shorter) fun h => ?_
      refine complains_choice h (complains_skip_one (fun before => inferInstance) shorter) fun h => ?_
      refine complains_choice h (Complains.of_fits fit) fun h => ?_
      refine complains_choice h (Complains.of_fits fit) fun h => ?_
      -- Behind the word of a sum of bounds the bounds are read by a layer of their own.
      refine complains_choice h (fun h => Allows.suffix behind ?_) fun h => ?_
      · rw [skip_bind] at h
        exact Complains.of_fits wide h
      refine complains_choice h (fun h => Allows.suffix behind ?_) fun h => ?_
      · rw [skip_bind] at h
        exact Complains.of_fits wide h
      exact Complains.of_fits fit h

theorem grammar_complains (depth : Nat) : (grammar depth).Complains allowed depth := by
  induction depth with
  | zero =>
    have never : ∀ {α : Type} (parser : Parser α), Complains (Below 0 allowed) parser := fun _ =>
      ⟨fun _ fit => absurd fit (Nat.not_lt_zero _)⟩
    exact ⟨fun _ => never _, never _, never _⟩
  | succ depth ih => exact ⟨fun sum => inferInstanceAs (Complains _ (tyLayer _ sum)),
      inferInstanceAs (Complains _ (pathLayer _)), inferInstanceAs (Complains _ (boundLayer _))⟩

theorem grammar_ends (depth : Nat) : (grammar depth).Complains Ending depth :=
  grammar_complains depth

/-- Types are read to an end whatever the lexemes are. -/
instance : Complains allowed (ty sum) where
  within {ahead _} h :=
    ((grammar_complains (ahead.length + 1)).ty sum).within h (Nat.lt_succ_self _)

end Types

section Items

/-! ## Items -/
variable {left : List Lexeme}

/-- Nowhere does an exclamation mark follow a closing parenthesis or bracket. -/
def Calm (lexemes : List Lexeme) : Prop :=
  lexemes.IsChain fun lexeme next => ¬(lexeme.isPunctOf [")", "]"] ∧ next.is "!")

instance (lexemes : List Lexeme) : Decidable (Calm lexemes) :=
  inferInstanceAs (Decidable (lexemes.IsChain _))

instance : Inherits Calm where
  suffix behind calm := calm.suffix behind

variable {allowed : List Lexeme → Complaint → Prop} [Allows allowed]

instance : Complains allowed pathWords := by unfold pathWords; infer_instance

instance : Complains allowed wordPath := by unfold wordPath; infer_instance

set_option synthInstance.maxSize 2000 in
instance : Complains allowed attributeInput := by unfold attributeInput; infer_instance

instance : Complains allowed attributeFront := by unfold attributeFront; infer_instance

instance : Complains allowed (attributeRest before) := by unfold attributeRest; infer_instance

instance : Complains allowed oneAttribute := by unfold oneAttribute; infer_instance

instance : Progresses (attributeRest before) := by unfold attributeRest; infer_instance

instance : Progresses oneAttribute := by unfold oneAttribute; infer_instance

instance (innerOnly : Bool) : Complains allowed (attributeStep innerOnly) := by
  unfold attributeStep; infer_instance

instance (innerOnly : Bool) : Advances allowed (attributeStep innerOnly) := by
  unfold attributeStep; infer_instance

instance (innerOnly : Bool) : Complains allowed (attributes innerOnly) := by
  unfold attributes; infer_instance

set_option synthInstance.maxSize 2000 in
instance : Complains allowed visibility := by unfold visibility; infer_instance

variable (before : Nat) (attributes : List (Attribute Extent)) (visibility : Visibility Extent)

set_option synthInstance.maxSize 2000 in
instance : Complains allowed paramRest := by unfold paramRest; infer_instance

instance : Complains allowed genericParam := by unfold genericParam; infer_instance

instance : Complains allowed generics := by unfold generics; infer_instance

instance (found : Generics Extent) : Complains allowed (whereClause found) := by
  unfold whereClause; infer_instance

instance : Complains allowed (fieldName named) := by unfold fieldName; infer_instance

instance : Complains allowed (field named) := by unfold field; infer_instance

set_option synthInstance.maxSize 2000 in
instance (generics : Generics Extent) : Complains allowed (structBody generics) := by
  unfold structBody; infer_instance

instance : Complains allowed structFront := by unfold structFront; infer_instance

instance : Complains allowed (structItem before attributes visibility) := by
  unfold structItem; infer_instance

instance : Complains allowed (otherPattern before) := by
  unfold otherPattern; dsimp only; infer_instance

instance (name : String) (mutable byRef : Bool) :
    Complains allowed (namedPattern before name mutable byRef) := by
  unfold namedPattern; infer_instance

instance : Complains allowed pattern := by unfold pattern; infer_instance

instance : Complains allowed (atSelf distance) := by unfold atSelf; infer_instance

set_option synthInstance.maxSize 2000 in
instance {start : Nat} : Complains allowed (plainInput start before attributes lexeme) := by
  unfold plainInput; dsimp only; infer_instance

instance {start : Nat} : Complains allowed (inputRest start attributes) := by
  unfold inputRest; infer_instance

instance : Complains allowed methodInput := by unfold methodInput; infer_instance

instance : Complains allowed methodBody := by unfold methodBody; infer_instance

set_option synthInstance.maxSize 2000 in
instance : Complains allowed (method before attributes visibility qualifiers) := by
  unfold method; infer_instance

instance : Progresses (method before attributes visibility qualifiers) := by
  unfold method; infer_instance

instance : Complains allowed memberBraces := by unfold memberBraces; infer_instance

set_option synthInstance.maxSize 2000 in
instance : Complains allowed otherMember := by unfold otherMember; infer_instance

instance : Complains allowed (memberRest before attributes visibility) := by
  unfold memberRest; infer_instance

instance : Complains allowed member := by unfold member; infer_instance

/-- What collects nothing stands at a stop or at a closing delimiter. -/
theorem stops_of_collectUntil (h : collectUntil stops false (lexeme :: rest) = .ok ([], left)) :
    lexeme.isPunctOf stops ∨ lexeme.isCloser := by
  by_contra apart
  simp only [not_or, Bool.not_eq_true] at apart
  have shorter := Window.length_of_collectUntil h apart.1 apart.2
  simp [(collectUntil_eq_ok h).1] at shorter

/-- The end of an invocation takes the semicolon or the braces it stands at. -/
theorem invocationEnd_shorter (stop : lexeme.isPunctOf [";", "\x7b"])
    (h : (do
      memberBraces
      let _ ← eat ";"
      return "macro" : Parser String) (lexeme :: rest) = .ok (kind, left)) :
    left.length < (lexeme :: rest).length := by
  simp only [Lexeme.isPunctOf, Bool.and_eq_true, decide_eq_true_eq, List.contains_eq_mem,
    List.mem_cons, List.not_mem_nil, or_false] at stop
  obtain ⟨punct, semicolon | brace⟩ := stop
  · have passed : memberBraces (lexeme :: rest) = .ok ((), lexeme :: rest) := by
      rw [memberBraces, at?_bind, if_neg (by simp [Lexeme.is, semicolon])]
      rfl
    rw [bind_of_ok passed, eat_bind, if_pos (by simp [Lexeme.is, punct, semicolon])] at h
    cases h
    simp
  · have braces : memberBraces (lexeme :: rest) =
        (do let _ ← group : Parser Unit) (lexeme :: rest) := by
      rw [memberBraces, at?_bind, if_pos (by simp [Lexeme.is, punct, brace])]
    obtain ⟨_, middle, taken, behind⟩ := bind_eq_ok.mp h
    rw [braces] at taken
    exact Nat.lt_of_le_of_lt (Shrinks.suffix behind).length_le (Progresses.shorter taken)

/-- A closing delimiter of a block of members that are calm is the brace of the block, or no
exclamation mark follows it. -/
theorem not_invokes_of_closer (calm : Calm (lexeme :: rest)) (inside : lexeme.is "\x7d" = false)
    (closes : lexeme.isCloser) :
    (decide (lexeme.text = "macro") || rest[0]?.any (·.is "!")) = false := by
  simp only [Lexeme.isCloser, Lexeme.isPunctOf, Bool.and_eq_true, decide_eq_true_eq,
    List.contains_eq_mem, List.mem_cons, List.not_mem_nil, or_false] at closes
  obtain ⟨punct, text⟩ := closes
  have other : lexeme.text ≠ "\x7d" := by
    rintro brace
    simp [Lexeme.is, punct, brace] at inside
  have closer : lexeme.isPunctOf [")", "]"] := by
    simp only [other, or_false] at text
    simp [Lexeme.isPunctOf, punct, text]
  have plain : lexeme.text ≠ "macro" := by
    rcases text with text | text | text <;> rw [text] <;> decide
  cases rest with
  | nil => simp [plain]
  | cons next rest =>
    have quiet : ¬(lexeme.isPunctOf [")", "]"] ∧ next.is "!") := (List.isChain_cons_cons.mp calm).1
    simpa [plain] using fun bang => quiet ⟨closer, bang⟩

theorem otherMember_shorter (calm : Calm ahead) (inside : ahead[0]?.any (·.is "\x7d") = false)
    (h : otherMember ahead = .ok (kind, left)) : left.length < ahead.length := by
  rw [otherMember, peek_bind, at?_bind] at h
  split_ifs at h with invokes
  · obtain ⟨found, middle, collected, ended⟩ := bind_eq_ok.mp h
    obtain ⟨rfl, -⟩ := collectUntil_eq_ok collected
    cases found with
    | cons lexeme found =>
      have behind := (Shrinks.suffix ended).length_le
      simp only [List.cons_append, List.length_cons, List.length_append]
      omega
    | nil =>
      cases middle with
      | nil => simp at invokes
      | cons lexeme rest =>
        rcases stops_of_collectUntil collected with stop | closes
        · exact invocationEnd_shorter stop ended
        · have quiet := not_invokes_of_closer calm (by simpa using inside) closes
          simp only [List.nil_append, List.getElem?_cons_zero, Option.any_some,
            List.getElem?_cons_succ, Option.isSome_some, Bool.true_and] at invokes
          rw [quiet] at invokes
          cases invokes
  · exact Progresses.shorter h

theorem memberRest_shorter {before : Nat} {attributes : List (Attribute Extent)}
    {visibility : Visibility Extent} (calm : Calm ahead)
    (inside : ahead[0]?.any (·.is "\x7d") = false)
    (h : memberRest before attributes visibility ahead = .ok (value, left)) :
    left.length < ahead.length := by
  rw [memberRest, get_bind, at?_bind] at h
  split_ifs at h
  · exact Progresses.shorter h
  · obtain ⟨kind, middle, taken, ended⟩ := bind_eq_ok.mp h
    have behind := (Shrinks.suffix ended).length_le
    have shorter := otherMember_shorter calm inside taken
    omega

/-- Before the brace that ends them, a member of calm lexemes takes a lexeme. -/
theorem member_shorter (calm : Calm ahead) (inside : ahead[0]?.any (·.is "\x7d") = false)
    (h : member ahead = .ok (value, left)) : left.length < ahead.length := by
  rw [member, mark_bind] at h
  obtain ⟨attributes, first, marked, h⟩ := bind_eq_ok.mp h
  obtain ⟨visibility, second, seen, h⟩ := bind_eq_ok.mp h
  obtain ⟨found, third, eaten, h⟩ := bind_eq_ok.mp h
  have behind : third <:+ ahead :=
    (Shrinks.suffix eaten).trans ((Shrinks.suffix seen).trans (Shrinks.suffix marked))
  rcases behind.length_le.lt_or_eq with shorter | same
  · exact Nat.lt_of_le_of_lt (Shrinks.suffix h).length_le shorter
  · obtain rfl := behind.eq_of_length same
    exact memberRest_shorter calm inside h

instance : Complains allowed memberStep := by unfold memberStep; infer_instance

instance : Advances (Among Calm Ending) memberStep where
  shorter {ahead left items} never taken := by
    have calm : Calm ahead := by
      by_contra other
      exact never fun calm => absurd calm other
    rw [memberStep, at?_bind] at taken
    split_ifs at taken with closes
    · cases taken
    · rw [get_bind] at taken
      split_ifs at taken
      · cases taken
      · obtain ⟨value, middle, read, same⟩ := bind_eq_ok.mp taken
        cases same
        exact member_shorter calm (by simpa using closes) read

instance [Inherits fits] (first : Ty Extent) : Ends fits (traitAndType first) := by
  have refused : ∀ extent, Ends fits (throw (.notTraitPath extent) :
      Parser (Option (TyPath Extent) × Ty Extent)) := by
    refine fun extent => ⟨fun h _ => ?_⟩
    cases h
    rintro ⟨⟩
  cases first <;> unfold traitAndType <;> infer_instance

instance [Inherits fits] : Ends fits (implTypes negative) := by
  unfold implTypes implTarget; infer_instance

instance : Complains allowed (bodyBraces kind) := by
  unfold bodyBraces; dsimp only; infer_instance

instance : Progresses (bodyBraces kind) := by
  unfold bodyBraces; dsimp only; infer_instance

instance : Complains allowed (bodyStep kind) where
  within {ahead complaint} h := by
    cases ahead with
    | nil => exact Allows.located (refuse_located h)
    | cons lexeme rest =>
      rw [bodyStep_cons, bodyStepAt] at h
      split_ifs at h
      · cases h
      · exact Complains.within h
      · exact Complains.within h
      · cases h
        exact Allows.located ⟨le_rfl, Nat.succ_pos _⟩
      · cases h

/-- A step through the body of an item takes a lexeme, also the last one. -/
instance : Progresses (bodyStep kind) where
  shorter {ahead left found} taken := by
    cases ahead with
    | nil => cases taken
    | cons lexeme rest =>
      rw [bodyStep_cons, bodyStepAt] at taken
      split_ifs at taken
      · cases taken
        simp
      · exact Progresses.shorter taken
      · exact Progresses.shorter taken
      · cases taken
      · cases taken
        simp

instance : Complains allowed (itemBody kind) := by unfold itemBody; infer_instance

theorem splitQualifiers_suffix (passed ahead : List Lexeme) :
    (splitQualifiers passed ahead).2 <:+ ahead := by
  induction ahead generalizing passed with
  | nil => exact List.suffix_rfl
  | cons lexeme rest ih =>
    rw [splitQualifiers]
    split
    · exact (ih _).trans (List.suffix_cons _ _)
    · exact List.suffix_rfl

instance : Complains allowed (otherItem before attributes visibility) where
  within {ahead complaint} h := by
    rw [otherItem, get_bind] at h
    have split := splitQualifiers_suffix [] ahead
    rcases found : splitQualifiers [] ahead with ⟨passed, _ | ⟨keyword, rest⟩⟩
    · rw [found] at h
      exact Allows.located (refuse_located h)
    · rw [found] at h split
      refine complains_choice h Complains.within fun h => complains_choice h Complains.within ?_
      intro h
      cases h
      exact Allows.located ⟨split.length_le, fun _ => Nat.succ_pos _⟩

/-! Blocks may have members that do not end, and traits that are not paths. -/

variable [Advances allowed memberStep] [∀ negative, Complains allowed (implTypes negative)]

instance : Complains allowed members :=
  inferInstanceAs (Complains allowed (many memberStep))

instance : Complains allowed implGenerics := by unfold implGenerics; infer_instance

instance : Complains allowed implBody := by unfold implBody; infer_instance

set_option synthInstance.maxSize 2000 in
instance : Complains allowed implFront := by unfold implFront; infer_instance

instance : Complains allowed (implItem before attributes) := by
  unfold implItem; infer_instance

instance : Complains allowed (itemRest before attributes visibility) := by
  unfold itemRest; infer_instance

/-- Where no exclamation mark follows a closing parenthesis or bracket, items are read to an
end. -/
instance : Complains allowed item where
  within {ahead complaint} h := by
    cases ahead with
    | nil => exact Allows.located (refuse_located h)
    | cons lexeme rest =>
      rw [item_apply (List.cons_ne_nil _ _)] at h
      exact Complains.within h

end Items

end ActorGlue.Parse
