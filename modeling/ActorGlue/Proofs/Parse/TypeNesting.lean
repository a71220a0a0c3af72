import ActorGlue.Proofs.Parse.Reading

/-!
# Types are nested

Every parser of the type grammar reads trees that are nested in the lexemes it takes, if the nested
parsers do; so the grammar does with any number of layers.
-/

namespace ActorGlue

/-- The outline of a type at its place in the source. -/
abbrev Ty.drawn (source : Source) (ty : Ty Extent) : Outline Span :=
  (ty.map source.span).outline

namespace Parse

variable (source : Source)

/-- The trees of the value that is read lie in the lexemes it was read from. -/
def Draws {α : Type} (parser : Parser α) (trees : α → List (Outline Span)) : Prop :=
  ∀ ahead, Reads ahead parser fun left value =>
    Lays source ahead.length left.length (trees value)

/-- The nested parsers of a grammar read nested trees. -/
structure Grammar.Draw (g : Grammar) : Prop where
  ty : ∀ sum, Draws source (g.ty sum) fun ty => [ty.drawn source]
  path : Draws source g.path fun path => [(path.map source.span).outline]
  bound : Draws source g.bound fun bound => [(bound.map source.span).outline]

variable [source.Ordered]

section Parts

variable {source} {α : Type}

theorem draws_separated {separator : String} {done : Parser Bool} [Shrinks done]
    {item : Parser α} [Shrinks item] {tree : α → Outline Span}
    (each : Draws source item fun value => [tree value]) :
    Draws source (separated separator done item) fun values => values.map tree :=
  Reads.separated (lays_chains source tree) each

theorem bounds_draws {bound : Parser (Bound Extent)} [Shrinks bound]
    (each : Draws source bound fun value => [(value.map source.span).outline]) (sum : Bool) :
    Draws source (bounds bound sum) fun bounds =>
      Bound.outlineAll (Bound.mapAll source.span bounds) := by
  have steps : Draws source (many do
      unless ← atBound do return ([], false)
      let value ← bound
      if sum then return ([value], ← eat "+") else return ([value], false))
      fun values => values.map fun bound => (bound.map source.span).outline := by
    refine Reads.many (lays_chains source _) fun ahead => .past fun before _ front => ?_
    refine .ite (fun _ => ?_) fun _ => .pure fun _ => .nil
    refine (each before).follow fun middle value _ lays => .ite (fun _ => ?_) fun _ => ?_
    · exact .past fun left _ back => .pure fun _ => lays.widen front back
    · exact .pure fun _ => lays.widen front le_rfl
  intro ahead
  refine (steps ahead).follow fun left found _ lays => .ite (fun _ => .refuse) fun _ => .pure ?_
  simpa only [Bound.outlineAll_map] using lays

omit [source.Ordered] in
theorem output_draws {ty : Parser (Ty Extent)} [Shrinks ty]
    (each : Draws source ty fun ty => [ty.drawn source]) :
    Draws source (output? ty) fun ty => Ty.outline? (Ty.map? source.span ty) := by
  refine fun ahead => .eat (fun rest shorter => ?_) (.pure .nil)
  exact (each rest).follow fun left value _ lays => .pure (lays.widen shorter.le le_rfl)

end Parts

section Layer

variable {source} {g : Grammar} [g.Shrink] (nested : g.Draw source)
variable {ahead : List Lexeme}

include nested

theorem angleArg_draws : Draws source (angleArg g) fun arg => [(arg.map source.span).outline] := by
  intro ahead
  refine .mark (.peek ?_)
  cases ahead with
  | nil => exact .refuse
  | cons lexeme rest =>
    have some : 0 < (lexeme :: rest).length := Nat.succ_pos _
    refine .ite (fun _ => ?_) fun _ => .ite (fun const => ?_) fun _ => ?_
    · exact .skip fun left taken => .extentFrom (.pure (.leaf rfl (by omega)))
    · -- An expression begins with a lexeme that is not a stop, so it takes one.
      have expression : Reads (lexeme :: rest) (collectUntil [",", ">"]) fun left _ =>
          left.length < (lexeme :: rest).length :=
        ⟨fun h => Window.length_of_collectUntil h (Window.stops_const const)
          (Window.closer_const const)⟩
      exact expression.follow fun left expr _ shorter => .extentFrom (.pure (.leaf rfl shorter))
    refine .ite (fun _ => ?_) fun _ => ?_
    · exact .skip fun left taken => .extentFrom (.pure (.leaf rfl (by omega)))
    · refine .at? (.ite (fun _ => ?_) fun _ => .at? (.ite (fun _ => ?_) fun _ => ?_))
      · refine .skip fun middle taken => ?_
        refine (nested.ty true middle).follow fun left ty behind lays => ?_
        exact .extentFrom (.pure (lays.node rfl (by omega) le_rfl (by omega)))
      · refine .skip fun middle taken => ?_
        refine (bounds_draws nested.bound true middle).follow fun left found behind lays => ?_
        exact .extentFrom (.pure (lays.node rfl (by omega) le_rfl (by omega)))
      · refine (nested.ty true _).follow fun left ty behind lays => .pure ?_
        exact lays.wrap rfl (Ty.place_outline _ ty)

theorem angleArgs_draws :
    Draws source (angleArgs g) fun args => (args.map source.span).outline := by
  intro ahead
  refine .mark (.takes fun rest _ opens => ?_)
  refine (draws_separated (angleArg_draws nested) rest).follow fun middle args behind lays => ?_
  refine .takes fun left _ closes => .extentFrom (.pure ?_)
  simp only [SegmentArgs.map, SegmentArgs.outline, GenericArg.outlineAll_map]
  exact lays.node rfl opens.le closes.le (by omega)

theorem callArgs_draws : Draws source (callArgs g) fun args => (args.map source.span).outline := by
  intro ahead
  refine .mark (.takes fun rest _ opens => ?_)
  refine (draws_separated (nested.ty true) rest).follow fun middle inputs behind lays => ?_
  refine .takes fun behind' _ closes => ?_
  refine (output_draws (nested.ty false) behind').follow fun left output back result => ?_
  refine .extentFrom (.pure ?_)
  simp only [SegmentArgs.map, SegmentArgs.outline, Ty.outlineAll_map]
  have both := lays.append (result.widen closes.le le_rfl) behind (by omega)
  exact both.node rfl opens.le le_rfl (by omega)

theorem segmentArgs_draws (ident : String) :
    Draws source (segmentArgs g ident) fun args => (args.map source.span).outline := by
  intro ahead
  refine .at? (.at? (.ite (fun _ => ?_) fun _ => .ite (fun _ => ?_) fun _ => .pure .nil))
  · exact angleArgs_draws nested ahead
  · exact callArgs_draws nested ahead

theorem segment_draws :
    Draws source (segment g) fun segment => [(segment.map source.span).outline] := by
  rw [Parse.segment]
  intro ahead
  refine .mark (.takes fun named ident taken => .past fun rest _ behind => ?_)
  refine (segmentArgs_draws nested ident rest).follow fun left args back lays => ?_
  exact .extentFrom (.pure (lays.node rfl (by omega) le_rfl (by omega)))

theorem pathHead_draws : Draws source (pathHead g) fun head => (head.map source.span).outline := by
  intro ahead
  refine .mark (.eat (fun rest opens => ?_) (.eat (fun _ _ => .pure .nil) (.pure .nil)))
  refine (nested.ty true rest).follow fun middle ty behind lays => .eat (fun named taken => ?_) ?_
  · refine (nested.path named).follow fun last trait back inner => ?_
    refine .takes fun closed _ closes => .extentFrom (.takes fun left _ colons => .pure ?_)
    have both := lays.append (inner.widen taken.le le_rfl) behind (by omega)
    exact .widen (both.node rfl opens.le closes.le (by omega)) le_rfl colons.le
  · refine .takes fun closed _ closes => .extentFrom (.takes fun left _ colons => .pure ?_)
    exact .widen (lays.node rfl opens.le closes.le (by omega)) le_rfl colons.le

theorem pathLayer_draws :
    Draws source (pathLayer g) fun path => [(path.map source.span).outline] := by
  have segments : Draws source (many (segmentStep g)) fun segments =>
      segments.map fun segment => (segment.map source.span).outline := by
    refine Reads.many (lays_chains source _) fun ahead => ?_
    refine (segment_draws nested ahead).follow fun middle value _ lays => ?_
    refine .past fun first _ front => .past fun left _ back => .ite (fun _ => ?_) fun _ => ?_
    · exact .skip fun last taken => .pure fun _ => lays.widen le_rfl (by omega)
    · exact .pure fun _ => lays.widen le_rfl (by omega)
  intro ahead
  refine .mark ((pathHead_draws nested ahead).follow fun middle head behind lays => ?_)
  refine (segments middle).shorter.follow fun left found _ row => .extentFrom (.pure ?_)
  simp only [TyPath.map, TyPath.outline, Segment.outlineAll_map]
  exact ((lays.append row.2 behind row.1.le).perm List.perm_append_comm).node rfl le_rfl le_rfl
    (by omega)

theorem boundRest_draws (ahead : List Lexeme) :
    Reads ahead (boundRest g ahead.length) fun left bound =>
      Lays source ahead.length left.length [(bound.map source.span).outline] := by
  refine .eat (fun rest opens => ?_) (.past fun first _ front => .past fun rest _ back => ?_)
  · refine (nested.bound rest).follow fun middle inner _ lays => .takes fun left _ closes => ?_
    exact .pure (lays.widen opens.le closes.le)
  · refine (pathLayer_draws nested rest).shorter.follow fun left path _ lays => ?_
    exact .extentFrom (.pure (lays.2.node rfl (by omega) le_rfl (by omega)))

theorem boundLayer_draws :
    Draws source (boundLayer g) fun bound => [(bound.map source.span).outline] := by
  intro ahead
  cases ahead with
  | nil =>
    have same : boundLayer g [] = boundRest g 0 [] := by
      rw [boundLayer, mark_bind, peek_bind]
      rfl
    exact .of_eq same (boundRest_draws nested [])
  | cons lexeme rest =>
    refine .of_eq (boundLayer_cons g lexeme rest) (.ite (fun _ => .skip fun left taken => ?_) ?_)
    · exact .extentFrom (.pure (.leaf rfl (by simp [taken])))
    · exact fun _ => boundRest_draws nested (lexeme :: rest)

omit [source.Ordered] [g.Shrink] in
theorem bareInput_draws : Draws source (bareInput g) fun ty => [ty.drawn source] := by
  intro ahead
  refine .past fun first _ front => .at? (.ite (fun _ => .skip fun middle taken => ?_) fun _ => ?_)
  · exact (nested.ty true middle).mono fun lays => lays.widen (by omega) le_rfl
  · exact (nested.ty true first).mono fun lays => lays.widen front le_rfl

theorem fnTail_draws {start : List Lexeme} (front : ahead.length ≤ start.length) :
    Reads ahead (fnTail g start) fun left ty =>
      Lays source start.length left.length [ty.drawn source] := by
  refine .takes fun word _ taken => .takes fun rest _ opens => ?_
  refine (draws_separated (bareInput_draws nested) rest).follow fun middle inputs behind lays => ?_
  refine .takes fun closed _ closes => ?_
  refine (output_draws (nested.ty false) closed).follow fun left output back result => ?_
  refine .extentFrom (.past fun left' _ back' => .pure ?_)
  simp only [Ty.drawn, Ty.map, Ty.outline, Ty.outlineAll_map]
  have both := lays.append (result.widen closes.le le_rfl) behind (by omega)
  exact .widen (both.node rfl (by omega) le_rfl (by omega)) le_rfl back'

theorem bareFn_draws : Draws source (bareFn g) fun ty => [ty.drawn source] := by
  rw [Parse.bareFn]
  refine fun ahead => .get (.past fun first _ front => .past fun second _ middle => ?_)
  exact .past fun third _ back => fnTail_draws nested (by omega)

theorem tupleRest_draws : Draws source (tupleRest g) fun types =>
      types.map (Ty.drawn source) := by
  refine fun ahead => .eat (fun rest taken => ?_) (.pure .nil)
  exact (draws_separated (nested.ty true) rest).mono fun lays => lays.widen taken.le le_rfl

theorem parenTy_draws (some : 0 < ahead.length) :
    Reads ahead (parenTy g) fun left ty =>
      Lays source ahead.length left.length [ty.drawn source] := by
  rw [Parse.parenTy]
  refine .mark (.skip fun inside opens => .eat (fun left closes => ?_) ?_)
  · exact .extentFrom (.pure (Lays.nil.node rfl le_rfl le_rfl (by omega)))
  · refine (nested.ty true inside).follow fun middle first behind lays => ?_
    refine .eat (fun left closes => ?_) ?_
    · exact .extentFrom (.pure (lays.node rfl (by omega) closes.le (by omega)))
    · refine (tupleRest_draws nested middle).follow fun last others back row => ?_
      refine .takes fun left _ closes => .extentFrom (.pure ?_)
      simp only [Ty.drawn, Ty.map, Ty.outline, Ty.outlineAll_map]
      exact (lays.append row behind back).node rfl (by omega) closes.le (by omega)

theorem bracketTy_draws (some : 0 < ahead.length) :
    Reads ahead (bracketTy g) fun left ty =>
      Lays source ahead.length left.length [ty.drawn source] := by
  refine .mark (.skip fun inside opens => ?_)
  refine (nested.ty true inside).follow fun middle elem behind lays => ?_
  refine .eat (fun left closes => ?_) ?_
  · exact .extentFrom (.pure (lays.node rfl (by omega) closes.le (by omega)))
  · refine .takes fun rest _ taken => .past fun last length back => ?_
    refine .ite (fun _ => .refuse) fun _ => .takes fun left _ closes => .extentFrom (.pure ?_)
    exact lays.node rfl (by omega) (by omega) (by omega)

theorem referenceTy_draws (some : 0 < ahead.length) :
    Reads ahead (referenceTy g) fun left ty =>
      Lays source ahead.length left.length [ty.drawn source] := by
  rw [Parse.referenceTy]
  refine .mark (.skip fun first taken => .past fun second _ front => .past fun third _ back => ?_)
  refine (nested.ty false third).follow fun left elem behind lays => .extentFrom (.pure ?_)
  exact lays.node rfl (by omega) le_rfl (by omega)

theorem pointerTy_draws (some : 0 < ahead.length) :
    Reads ahead (pointerTy g) fun left ty =>
      Lays source ahead.length left.length [ty.drawn source] := by
  refine .mark (.skip fun first taken => .past fun second _ front => ?_)
  have rest : ∀ third : List Lexeme, third.length ≤ second.length → ∀ mutable,
      Reads third (do
        let elem ← g.ty false
        return .pointer (← extentFrom ahead.length) elem mutable : Parser (Ty Extent))
        fun left ty =>
      Lays source ahead.length left.length [ty.drawn source] := by
    intro third back mutable
    refine (nested.ty false third).follow fun left elem behind lays => .extentFrom (.pure ?_)
    exact lays.node rfl (by omega) le_rfl (by omega)
  refine .ite (fun _ => rest second le_rfl _) fun _ => .eat (fun third taken => ?_) ?_
  · exact rest third taken.le _
  · exact .past fun third _ back => rest third back _

theorem plusTail_draws : Draws source (plusTail g) fun bounds =>
      bounds.map fun bound => (bound.map source.span).outline := by
  refine Reads.many (lays_chains source _) fun ahead => ?_
  refine .eat (fun rest taken => ?_) (.pure fun _ => .nil)
  refine .past fun first _ front => .ite (fun _ => ?_) fun _ => .pure fun _ => .nil
  refine (boundLayer_draws nested first).follow fun left bound behind lays => .pure fun _ => ?_
  exact lays.widen (by omega) le_rfl

theorem pathTy_draws (sum : Bool) : Draws source (pathTy g sum) fun ty => [ty.drawn source] := by
  intro ahead
  refine .get ((pathLayer_draws nested ahead).shorter.follow fun middle path _ lays => ?_)
  refine .at? (.peekAt (.ite (fun _ => ?_) fun _ => .at? (.ite (fun _ => ?_) fun _ => ?_)))
  · refine .skip fun rest taken => .takes fun closed _ closes => .extentFrom ?_
    refine .past fun left _ back => .pure ?_
    exact .widen (lays.2.node rfl le_rfl (by omega) (by omega)) le_rfl back
  · refine (plusTail_draws nested middle).follow fun left others back row => .extentFrom (.pure ?_)
    simp only [Ty.drawn, Ty.map, Ty.outline, Bound.outlineAll_map, List.map_cons]
    have first : Lays source ahead.length middle.length
        [((Bound.trait path.place path false "").map source.span).outline] :=
      lays.2.wrap rfl (TyPath.place_outline _ path)
    exact (first.append row (by omega) back).node rfl le_rfl le_rfl (by omega)
  · refine .pure ?_
    simp only [Ty.drawn, Ty.map, Ty.outline]
    exact lays.2

omit nested in
theorem verbatimTy_draws : Draws source verbatimTy fun ty => [ty.drawn source] := by
  intro ahead
  refine .mark ((collectUntil_reads _ _ ahead).follow fun left found _ same => ?_)
  refine .ite (fun _ => .refuse) fun some => .extentFrom (.pure (.leaf rfl ?_))
  have taken : 0 < found.length := by simpa [List.length_pos_iff] using some
  rw [same, List.length_append]
  omega

theorem tyLayer_draws (sum : Bool) : Draws source (tyLayer g sum) fun ty => [ty.drawn source] := by
  intro ahead
  refine .get ?_
  cases ahead with
  | nil => exact .refuse
  | cons lexeme rest =>
    have some : 0 < (lexeme :: rest).length := Nat.succ_pos _
    have bounded := bounds_draws (boundLayer_draws nested) sum
    refine .ite (fun _ => parenTy_draws nested some) fun _ => ?_
    refine .ite (fun _ => bracketTy_draws nested some) fun _ => ?_
    refine .ite (fun _ => referenceTy_draws nested some) fun _ => ?_
    refine .ite (fun _ => pointerTy_draws nested some) fun _ => ?_
    refine .ite (fun _ => .skip fun left taken => ?_) fun _ => ?_
    · exact .extentFrom (.pure (.leaf rfl (by omega)))
    refine .ite (fun _ => .skip fun left taken => ?_) fun _ => ?_
    · exact .extentFrom (.pure (.leaf rfl (by omega)))
    refine .ite (fun _ => .skip fun middle taken => ?_) fun _ => ?_
    · refine (bounded middle).follow fun left found back lays => ?_
      exact .extentFrom (.pure (lays.node rfl (by omega) le_rfl (by omega)))
    refine .ite (fun _ => .skip fun middle taken => ?_) fun _ => ?_
    · refine (bounded middle).follow fun left found back lays => ?_
      exact .extentFrom (.pure (lays.node rfl (by omega) le_rfl (by omega)))
    refine .ite (fun _ => bareFn_draws nested _) fun _ => .ite (fun _ => ?_) fun _ => ?_
    · refine (bounded _).shorter.follow fun left found _ lays => ?_
      exact .extentFrom (.pure (lays.2.node rfl le_rfl le_rfl lays.1))
    exact .ite (fun _ => pathTy_draws nested sum _) fun _ => verbatimTy_draws _

end Layer

theorem grammar_draw (depth : Nat) : (grammar depth).Draw source := by
  induction depth with
  | zero =>
    exact ⟨fun sum ahead => .throw, fun ahead => .throw,
      fun ahead => .throw⟩
  | succ depth ih => exact ⟨tyLayer_draws ih, pathLayer_draws ih, boundLayer_draws ih⟩

theorem ty_draws (sum : Bool) : Draws source (ty sum) fun ty => [ty.drawn source] :=
  fun ahead => .mark ((grammar_draw source _).ty sum ahead)

end Parse

end ActorGlue
