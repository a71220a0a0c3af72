import ActorGlue.Proofs.Tree.Spelling

/-!
# Types that are read are regular

Whatever the parser reads as a type ends where the parser stops, begins with no word that begins
another kind of type, and is regular, with all types inside of it. The lexemes of the length of an
array stand between its element and its end.
-/

namespace ActorGlue

open Parse

/-- The length of an array is a join of balanced lexemes, and these stand behind the element and in
front of the end of the array, each time with one more lexeme between. -/
def Located (all : List Lexeme) (elem array : Extent) (length : String) : Prop :=
  ∃ front semicolon lexemes close back, all = front ++ semicolon :: (lexemes ++ close :: back) ∧
    elem.after = (semicolon :: (lexemes ++ close :: back)).length ∧ array.after = back.length ∧
      Balanced lexemes ∧ lexemes ≠ [] ∧ length = Lexeme.join lexemes

/-- The type and all types inside of it are regular where they stand among the lexemes. -/
abbrev Ty.Settled (all : List Lexeme) (ty : Ty Extent) : Prop :=
  ty.Every (·.Regular (Located all))

namespace Parse

variable {ty : Ty Extent}

/-- What is known of a type that was read from lexemes among others. -/
structure Told (all ahead left : List Lexeme) (ty : Ty Extent) : Prop where
  stops : ty.place.after = left.length
  begins : ty.Begins
  first : ∀ word ∈ ty.firstWord?, ∃ tail, ahead = .word word :: tail
  settled : ty.Settled all

/-- What is known of all types and paths that a grammar reads. -/
structure Tells (all : List Lexeme) (g : Grammar) : Prop where
  ty : ∀ {sum : Bool} {ahead : List Lexeme}, ahead <:+ all →
    Reads ahead (g.ty sum) (Told all ahead)
  path : Yields all g.path fun path => (Ty.path path).Settled all

/-- What is known of an argument in angle brackets. -/
def ArgTold (all : List Lexeme) (arg : GenericArg Extent) : Prop :=
  arg.Regular ∧ ∀ ty ∈ arg.type?, ty.Settled all

/-- What is known of a segment. -/
def SegmentTold (all : List Lexeme) (segment : Segment Extent) : Prop :=
  segment.Regular ∧ ∀ arg ∈ segment.angleArgs, ∀ ty ∈ arg.type?, ty.Settled all

variable {all ahead left : List Lexeme} {g : Grammar} [g.Shrink]

theorem settled_of_inner (regular : ty.Regular (Located all))
    (inner : ∀ next ∈ ty.inner, next.Settled all) : ty.Settled all :=
  Ty.every_iff.mpr ⟨regular, inner⟩

/-- A type that begins with a mark is told by the types inside of it. -/
theorem told_of_inner (word : ty.firstWord? = none) (stops : ty.place.after = left.length)
    (regular : ty.Regular (Located all)) (inner : ∀ next ∈ ty.inner, next.Settled all) :
    Told all ahead left ty := by
  constructor
  · exact stops
  · simp [Ty.Begins, word]
  · simp [word]
  · exact settled_of_inner regular inner

/-- A type without types inside of it, into which nothing looks that decodes values. -/
theorem Told.leaf (word : ty.firstWord? = none) (stops : ty.place.after = left.length)
    (regular : ty.Regular (Located all)) (inner : ty.inner = []) : Told all ahead left ty :=
  told_of_inner word stops regular (by simp [inner])

theorem ArgTold.other {arg : GenericArg Extent} (regular : arg.Regular) (other : arg.type? = none) :
    ArgTold all arg :=
  ⟨regular, by simp [other]⟩

section Leaves

/-! ## Types without types inside of them -/

variable {here : List Lexeme}

theorem referenceTy_tells : Reads here (referenceTy g) (Told all ahead) := by
  rw [Parse.referenceTy]
  iterate 5 refine .past fun _ _ _ => ?_
  exact .extentFrom (.pure (.leaf rfl rfl trivial rfl))

theorem pointerTy_tells : Reads here (pointerTy g) (Told all ahead) := by
  iterate 3 refine .past fun _ _ _ => ?_
  refine .ite (fun _ => ?_) fun _ => .past fun _ _ _ => .ite (fun _ => ?_) fun _ => .refuse
  · exact .past fun _ _ _ => .extentFrom (.pure (.leaf rfl rfl trivial rfl))
  · exact .past fun _ _ _ => .extentFrom (.pure (.leaf rfl rfl trivial rfl))

theorem bareFn_tells : Reads here (bareFn g) (Told all ahead) := by
  rw [Parse.bareFn]
  iterate 4 refine .past fun _ _ _ => ?_
  unfold fnTail
  iterate 5 refine .past fun _ _ _ => ?_
  exact .extentFrom (.get (.pure (.leaf rfl rfl trivial rfl)))

theorem verbatimTy_tells : Reads here verbatimTy (Told all ahead) := by
  refine .mark (.past fun _ _ _ => .ite (fun _ => .refuse) fun _ => ?_)
  exact .extentFrom (.pure (.leaf rfl rfl trivial rfl))

end Leaves

section Told

/-! ## What is read as a type -/

variable (tokens : Tokens all) (tells : Tells all g)

include tokens tells

theorem angleArg_yields : Yields all (angleArg g) (ArgTold all) := by
  refine ⟨fun {ahead} behind => .mark (.peek ?_)⟩
  cases ahead with
  | nil => exact .refuse
  | cons lexeme rest =>
    have isToken := tokens lexeme (behind.mem List.mem_cons_self)
    refine .ite (fun _ => .skip fun _ _ => ?_) fun _ => .ite (fun _ => .past fun _ _ _ => ?_) ?_
    · exact .extentFrom (.pure (.other trivial rfl))
    · exact .extentFrom (.pure (.other trivial rfl))
    refine fun _ => .ite (fun _ => .skip fun _ _ => ?_) fun isTruth => .at? ?_
    · exact .extentFrom (.pure (.other trivial rfl))
    have plain : lexeme.kind = .ident → lexeme.text ∉ truthWords := by
      intro word
      simpa [Lexeme.isIdent, word, truthWords] using isTruth
    refine .ite (fun binds => ?_) fun _ => .at? (.ite (fun _ => .skip fun _ _ => ?_) fun _ => ?_)
    · simp only [Bool.and_eq_true, decide_eq_true_eq] at binds
      have suffix := (List.drop_suffix 2 _).trans behind
      refine .of_eq (skip_bind ..) ((tells.ty suffix).follow fun middle ty _ told => ?_)
      refine .extentFrom (.pure ⟨⟨isWord_of_ident isToken binds.1, plain binds.1, told.begins⟩, ?_⟩)
      rintro _ ⟨⟩
      exact told.settled
    · exact .past fun _ _ _ => .extentFrom (.pure (.other trivial rfl))
    · refine (tells.ty behind).follow fun middle ty _ told => .pure ⟨⟨told.begins, ?_⟩, ?_⟩
      · intro word first
        obtain ⟨tail, same⟩ := told.first word first
        cases same
        exact plain rfl
      · rintro _ ⟨⟩
        exact told.settled

theorem segmentArgs_yields (ident : String) : Yields all (segmentArgs g ident) fun args =>
    ∀ place, ∀ arg ∈ (Segment.mk place ident args).angleArgs, ArgTold all arg := by
  refine .behind fun _ => .behind fun _ => .ite ?_ (.ite ?_ ?_)
  · refine .behind fun _ => .behind fun _ => ?_
    refine (Yields.separated (angleArg_yields tokens tells)).bind fun args told => ?_
    exact .behind fun _ => .behind fun _ => .pure fun _ => told
  · iterate 6 refine .behind fun _ => ?_
    exact .pure fun _ => List.forall_mem_nil _
  · exact .pure fun _ => List.forall_mem_nil _

/-- A segment begins with its name. -/
theorem segment_tells (behind : ahead <:+ all) : Reads ahead (segment g) fun _ segment =>
    (∃ place ident args tail, segment = .mk place ident args ∧ ahead = .word ident :: tail) ∧
      SegmentTold all segment := by
  rw [Parse.segment]
  have named : Reads ahead (expectIdent "a path segment") fun rest ident =>
      ahead = .word ident :: rest ∧ IsWord ident := by
    refine ⟨fun h => ?_⟩
    obtain ⟨lexeme, word, rfl, rfl⟩ := expectIdent_eq_ok h
    refine ⟨?_, isWord_of_ident (tokens lexeme (behind.mem List.mem_cons_self)) word⟩
    obtain ⟨kind, text⟩ := lexeme
    cases word
    rfl
  refine .mark (named.follow fun rest ident _ known => ?_)
  obtain ⟨rfl, word⟩ := known
  have args : Yields all (turbofish >>= fun _ => segmentArgs g ident) fun args =>
      ∀ place, ∀ arg ∈ (Segment.mk place ident args).angleArgs, ArgTold all arg :=
    .behind fun _ => segmentArgs_yields tokens tells ident
  rw [← bind_assoc]
  refine (args.reads ((List.suffix_cons _ _).trans behind)).follow fun left args _ each => ?_
  refine .extentFrom (.pure ⟨⟨_, _, _, rest, rfl, rfl⟩, ⟨word, fun arg member => ?_⟩, ?_⟩)
  · exact (each _ arg member).1
  · exact fun arg member => (each _ arg member).2

/-- The segments of a path, of which the first begins where the path does. -/
theorem segments_tell (behind : ahead <:+ all) :
    Reads ahead (many (segmentStep g)) fun _ segments =>
      (∃ place ident args others tail, segments = .mk place ident args :: others ∧
        ahead = .word ident :: tail) ∧ ∀ segment ∈ segments, SegmentTold all segment := by
  have step : ∀ {ahead}, ahead <:+ all → Reads ahead (segmentStep g) fun _ taken =>
      ∃ place ident args tail, taken.1 = [.mk place ident args] ∧ ahead = .word ident :: tail ∧
        SegmentTold all (.mk place ident args) := by
    intro ahead behind
    refine (segment_tells tokens tells behind).follow fun middle segment _ told => ?_
    obtain ⟨⟨place, ident, args, tail, rfl, begins⟩, regular⟩ := told
    refine .past fun _ _ _ => .past fun _ _ _ => .ite (fun _ => .skip fun _ _ => ?_) fun _ => ?_
    · exact .pure ⟨place, ident, args, tail, rfl, begins, regular⟩
    · exact .pure ⟨place, ident, args, tail, rfl, begins, regular⟩
  refine ⟨fun h => ?_⟩
  rw [many_eq_ok_iff] at h
  induction h with
  | last taken =>
    obtain ⟨place, ident, args, tail, same, begins, told⟩ := (step behind).gives taken
    obtain rfl : _ = [_] := same
    exact ⟨⟨place, ident, args, [], tail, rfl, begins⟩, List.forall_mem_singleton.mpr told⟩
  | next taken _ _ ih =>
    obtain ⟨place, ident, args, tail, same, begins, told⟩ := (step behind).gives taken
    obtain rfl : _ = [_] := same
    refine ⟨⟨place, ident, args, _, tail, rfl, begins⟩, List.forall_mem_cons.mpr ⟨told, ?_⟩⟩
    exact (ih ((Shrinks.suffix taken).trans behind)).2

omit tokens in
theorem pathHead_tells (behind : ahead <:+ all) : Reads ahead (pathHead g) fun left head =>
    (head = .relative → left = ahead) ∧ (∀ ty ∈ head.self?, ty.Begins ∧ ty.Settled all) ∧
      ∀ trait ∈ head.trait?, (Ty.path trait).Settled all := by
  refine .mark (.eat_cons (fun lexeme rest same => ?_) (.eat (fun _ _ => .pure ?_) (.pure ?_)))
  · have suffix := (same ▸ List.suffix_cons lexeme rest : rest <:+ ahead).trans behind
    refine (tells.ty suffix).tracked.follow fun middle ty _ told => .eat_cons ?_ ?_
    · rintro lexeme named rfl
      have seen := (List.suffix_cons lexeme named).trans (told.1.trans suffix)
      refine (tells.path.reads seen).follow fun last trait _ trusted => .past fun _ _ _ => ?_
      refine .extentFrom (.past fun _ _ _ => .pure ⟨by simp, ?_, ?_⟩)
      · rintro _ ⟨⟩
        exact ⟨told.2.begins, told.2.settled⟩
      · rintro _ ⟨⟩
        exact trusted
    · refine .past fun _ _ _ => .extentFrom (.past fun _ _ _ => .pure ⟨by simp, ?_, ?_⟩)
      · rintro _ ⟨⟩
        exact ⟨told.2.begins, told.2.settled⟩
      · simp [PathHead.trait?]
  · exact ⟨by simp, by simp [PathHead.self?], by simp [PathHead.trait?]⟩
  · exact ⟨fun _ => rfl, by simp [PathHead.self?], by simp [PathHead.trait?]⟩

theorem pathLayer_tells (behind : ahead <:+ all) : Reads ahead (pathLayer g) fun left path =>
    path.place.after = left.length ∧
      (∀ word ∈ path.firstWord?, ∃ tail, ahead = .word word :: tail) ∧
        (Ty.path path).Settled all := by
  rw [Parse.pathLayer]
  refine .mark ((pathHead_tells tells behind).tracked.follow fun middle head _ known => ?_)
  obtain ⟨suffix, relative, self, traits⟩ := known
  refine (segments_tell tokens tells (suffix.trans behind)).follow fun left segments _ known => ?_
  obtain ⟨⟨place, ident, args, others, tail, rfl, begins⟩, each⟩ := known
  refine .extentFrom (.pure ⟨rfl, fun word starts => ?_, settled_of_inner ⟨List.cons_ne_nil _ _,
    fun ty held => (self ty held).1, fun segment member => (each segment member).1⟩ ?_⟩)
  · cases head with
    | relative =>
      cases starts
      exact ⟨tail, by rw [← relative rfl, begins]⟩
    | _ => cases starts
  · intro ty member
    have member : ty ∈ (TyPath.mk ⟨ahead.length, left.length⟩ head
        (.mk place ident args :: others)).inner := member
    obtain own | ⟨trait, seen, rfl⟩ | ⟨segment, isSegment, arg, isArg, held⟩ :=
      TyPath.mem_inner.mp member
    · exact (self ty own).2
    · exact traits trait seen
    · exact (each segment isSegment).2 arg isArg ty held

/-- A path is a type if its first word begins no other kind of type. -/
theorem pathTy_tells {sum : Bool} (behind : ahead <:+ all)
    (plain : ∀ word tail, ahead = .word word :: tail → word ∉ typeWords) :
    Reads ahead (pathTy g sum) (Told all ahead) := by
  refine .get ((pathLayer_tells tokens tells behind).follow fun middle path _ known => ?_)
  obtain ⟨stops, first, settled⟩ := known
  refine .at? (.peekAt (.ite (fun _ => ?_) fun _ => .at? (.ite (fun _ => ?_) fun _ => ?_)))
  · refine .past fun _ _ _ => .past fun _ _ _ => .extentFrom (.get (.pure ?_))
    exact .leaf rfl rfl trivial rfl
  · exact .past fun _ _ _ => .extentFrom (.pure (.leaf rfl rfl trivial rfl))
  · refine .pure ⟨stops, fun word starts => ?_, first, settled⟩
    obtain ⟨tail, same⟩ := first word starts
    exact plain word tail same

omit tokens in
theorem tupleRest_yields :
    Yields all (tupleRest g) fun found => ∀ ty ∈ found, ty.Begins ∧ ty.Settled all := by
  have each : Yields all (g.ty true) fun ty => ty.Begins ∧ ty.Settled all :=
    ⟨fun behind => (tells.ty behind).mono fun told => ⟨told.begins, told.settled⟩⟩
  exact .behind fun _ => .ite (.separated each) (.pure (List.forall_mem_nil _))

omit tokens in
theorem parenTy_tells (behind : ahead <:+ all) : Reads ahead (parenTy g) (Told all ahead) := by
  rw [Parse.parenTy]
  have suffix := (List.drop_suffix 1 ahead).trans behind
  refine .mark (.of_eq (skip_bind ..) (.eat (fun _ _ => .extentFrom (.pure ?_)) ?_))
  · exact told_of_inner rfl rfl (List.forall_mem_nil _) (List.forall_mem_nil _)
  · refine (tells.ty suffix).tracked.follow fun middle first _ told => .eat (fun _ _ => ?_) ?_
    · refine .extentFrom (.pure (told_of_inner rfl rfl told.2.begins ?_))
      exact fun next member => List.mem_singleton.mp member ▸ told.2.settled
    · refine ((tupleRest_yields tells).reads (told.1.trans suffix)).follow
        fun _ others _ more => .past fun _ _ _ => .extentFrom (.pure ?_)
      have all := List.forall_mem_cons.mpr ⟨⟨told.2.begins, told.2.settled⟩, more⟩
      exact told_of_inner rfl rfl (fun next member => (all next member).1)
        fun next member => (all next member).2

omit tokens in
/-- The lexemes of the length of an array are found behind its element. -/
theorem bracketTy_tells (behind : ahead <:+ all) :
    Reads ahead (bracketTy g) (Told all ahead) := by
  have suffix := (List.drop_suffix 1 ahead).trans behind
  refine .mark (.of_eq (skip_bind ..) ?_)
  refine (tells.ty suffix).tracked.follow fun middle elem _ known => .eat (fun _ _ => ?_) ?_
  · exact .extentFrom (.pure (told_of_inner rfl rfl trivial (List.forall_mem_nil _)))
  · obtain ⟨⟨front, whole⟩, told⟩ := known.imp_left fun found => found.trans suffix
    have parted : Reads middle (expect ";" "';' or ']' in array type") fun inside _ =>
      ∃ semicolon, middle = semicolon :: inside := ⟨fun h => by
        obtain ⟨semicolon, -, same⟩ := expect_eq_ok h
        exact ⟨semicolon, same⟩⟩
    refine parted.follow fun inside _ _ opened => ?_
    obtain ⟨semicolon, rfl⟩ := opened
    have collected : Reads inside (collectUntil ["]"]) fun last length =>
        inside = length ++ last ∧ Balanced length := ⟨collectUntil_eq_ok⟩
    refine collected.follow fun last length _ known => .ite (fun _ => .refuse) fun some => ?_
    obtain ⟨rfl, balanced⟩ := known
    have closed : Reads last (expect "]") fun left _ => ∃ close, last = close :: left := ⟨fun h => by
        obtain ⟨close, -, same⟩ := expect_eq_ok h
        exact ⟨close, same⟩⟩
    refine closed.follow fun left _ _ ended => .extentFrom (.pure ?_)
    obtain ⟨close, rfl⟩ := ended
    have located : Located all elem.place ⟨ahead.length, left.length⟩ (Lexeme.join length) :=
      ⟨front, semicolon, length, close, left, whole.symm, told.stops, rfl, balanced,
        by simpa using some, rfl⟩
    refine told_of_inner rfl rfl ⟨told.begins, located⟩ ?_
    exact fun next member => List.mem_singleton.mp member ▸ told.settled

theorem tyLayer_tells {sum : Bool} (behind : ahead <:+ all) :
    Reads ahead (tyLayer g sum) (Told all ahead) := by
  refine .get ?_
  cases ahead with
  | nil => exact .refuse
  | cons lexeme rest =>
    refine .ite (fun _ => parenTy_tells tells behind) fun _ => ?_
    refine .ite (fun _ => bracketTy_tells tells behind) fun _ => ?_
    refine .ite (fun _ => referenceTy_tells) fun _ => .ite (fun _ => pointerTy_tells) fun _ => ?_
    refine .ite (fun _ => .skip fun _ _ => ?_) fun _ => ?_
    · exact .extentFrom (.pure (.leaf rfl rfl trivial rfl))
    refine .ite (fun _ => .skip fun _ _ => ?_) fun noInfer => ?_
    · exact .extentFrom (.pure (.leaf rfl rfl trivial rfl))
    refine .ite (fun _ => .skip fun _ _ => .past fun _ _ _ => ?_) fun noImpl => ?_
    · exact .extentFrom (.pure (.leaf rfl rfl trivial rfl))
    refine .ite (fun _ => .skip fun _ _ => .past fun _ _ _ => ?_) fun noDyn => ?_
    · exact .extentFrom (.pure (.leaf rfl rfl trivial rfl))
    refine .ite (fun _ => bareFn_tells) fun noFn => .ite (fun _ => .past fun _ _ _ => ?_) ?_
    · exact .extentFrom (.pure (.leaf rfl rfl trivial rfl))
    refine fun noFor => .ite (fun isPath => ?_) fun _ => verbatimTy_tells
    refine pathTy_tells tokens tells behind ?_
    rintro word tail ⟨⟩
    simp [Lexeme.isIdent, Lexeme.isPunct, startsBareFn, startsPath, Lexeme.isPunctOf,
      fnWords] at noInfer noImpl noDyn noFn noFor isPath
    simp only [typeWords, List.mem_cons, List.not_mem_nil, or_false, not_or]
    exact ⟨noInfer, noImpl, noDyn, noFn.1.1, noFn.1.2.1, noFn.1.2.2, noFor, isPath⟩

omit [g.Shrink] tells in
/-- Every grammar reads regular types from tokens. -/
theorem tells_grammar (depth : Nat) : Tells all (grammar depth) := by
  induction depth with
  | zero => exact ⟨fun _ => .throw, .throw⟩
  | succ depth ih =>
    exact ⟨tyLayer_tells tokens ih,
      ⟨fun behind => (pathLayer_tells tokens ih behind).mono fun known => known.2.2⟩⟩

end Told

end Parse

end ActorGlue
