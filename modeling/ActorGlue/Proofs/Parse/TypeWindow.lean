import ActorGlue.Proofs.Parse.Window
import ActorGlue.Proofs.Tree.Map

/-!
# Types in a window

Every parser of the type grammar reads the same type in front of both continuations of a window.
The nested parsers are assumed to do so on fewer lexemes, and one layer of the grammar carries it
over to the next.
-/

namespace ActorGlue

variable {left : List Lexeme} {lexeme : Lexeme} {ident text : String} {before : Nat}
  {bound : Parser (Bound Extent)} {sum : Bool} {α X : Type} {value : Ty Extent}

namespace Parse

variable (g : Grammar) {ahead : List Lexeme}

theorem boundLayer_cons (lexeme : Lexeme) (rest : List Lexeme) :
    boundLayer g (lexeme :: rest) = (
      if lexeme.kind = .lifetime then do
        skip 1
        return .lifetime (← extentFrom (lexeme :: rest).length) lexeme.text
      else boundRest g (lexeme :: rest).length : Parser (Bound Extent)) (lexeme :: rest) := by
  rw [boundLayer, mark_bind, peek_bind]
  rfl

instance [g.Shrink] : Progresses (boundRest g before) := by
  unfold boundRest; infer_instance

instance [g.Shrink] : Progresses (boundLayer g) where
  shorter {ahead left value} h := by
    cases ahead with
    | nil =>
      have rest : boundRest g 0 [] = .ok (value, left) := by
        rw [← h, boundLayer, mark_bind, peek_bind]
        rfl
      exact Progresses.shorter rest
    | cons lexeme rest =>
      rw [boundLayer_cons] at h
      split_ifs at h
      · cases h
        simp
      · exact Progresses.shorter h

/-- Bounds begin with a bound. -/
theorem bounds_eq_ok [Shrinks bound] {found : List (Bound Extent)}
    (h : bounds bound sum ahead = .ok (found, left)) :
    ∃ value middle, bound ahead = .ok (value, middle) ∧ left <:+ middle := by
  have step : ∀ {items more middle}, boundStep bound sum ahead = .ok ((items, more), middle) →
      (items = [] ∧ more = false) ∨
        ∃ value after, bound ahead = .ok (value, after) ∧ middle <:+ after := by
    intro items more middle taken
    rw [boundStep, atBound, bind_assoc, peek_bind, pure_bind] at taken
    split at taken
    · obtain ⟨value, after, ran, rest⟩ := bind_eq_ok.mp taken
      exact .inr ⟨value, after, ran, Shrinks.suffix rest⟩
    · cases taken
      exact .inl ⟨rfl, rfl⟩
  rw [bounds] at h
  obtain ⟨found, after, repeated, ended⟩ := bind_eq_ok.mp h
  have behind : left <:+ after := Shrinks.suffix ended
  cases many_eq_ok_iff.mp repeated with
  | last taken =>
    obtain ⟨rfl, -⟩ | ⟨value, middle, ran, inner⟩ := step taken
    · cases ended
    · exact ⟨value, middle, ran, behind.trans inner⟩
  | next taken _ rest =>
    obtain ⟨-, more⟩ | ⟨value, middle, ran, inner⟩ := step taken
    · cases more
    · exact ⟨value, middle, ran,
        behind.trans ((Shrinks.suffix (many_eq_ok_iff.mpr rest)).trans inner)⟩

instance [Shrinks bound] [Progresses bound] :
    Progresses (bounds bound sum) where
  shorter h := by
    obtain ⟨value, middle, ran, behind⟩ := bounds_eq_ok h
    exact Nat.lt_of_le_of_lt behind.length_le (Progresses.shorter ran)

/-- What skips a lexeme takes it. -/
theorem length_of_skip {next : Unit → Parser α} [Shrinks (next ())] {rest : List Lexeme} {value : α}
    (h : (skip 1 >>= next) (lexeme :: rest) = .ok (value, left)) :
    left.length < (lexeme :: rest).length :=
  Nat.lt_succ_of_le (Shrinks.suffix (show next () rest = _ from h)).length_le

theorem length_of_ite {condition : Prop} [Decidable condition] {yes no : Parser α} {value : α}
    (h : (if condition then yes else no) ahead = .ok (value, left))
    (pos : yes ahead = .ok (value, left) → left.length < ahead.length)
    (neg : no ahead = .ok (value, left) → left.length < ahead.length) :
    left.length < ahead.length := by
  split at h
  · exact pos h
  · exact neg h

instance [g.Shrink] (before : List Lexeme) : Progresses (fnTail g before) := by
  unfold fnTail; infer_instance

instance [g.Shrink] : Progresses (bareFn g) := by
  rw [Parse.bareFn]; infer_instance

instance [g.Shrink] : Progresses (pathTy g sum) := by
  unfold pathTy; infer_instance

theorem length_of_verbatimTy (h : verbatimTy ahead = .ok (value, left)) :
    left.length < ahead.length := by
  rw [verbatimTy, mark_bind] at h
  obtain ⟨found, middle, taken, last⟩ := bind_eq_ok.mp h
  rw [(collectUntil_eq_ok taken).1]
  cases found with
  | nil => cases last
  | cons first others =>
    cases last
    simp only [List.cons_append, List.length_cons, List.length_append]
    omega

instance [g.Shrink] : Progresses (tyLayer g sum) where
  shorter {ahead left value} h := by
    cases ahead with
    | nil => cases h
    | cons lexeme rest =>
      rw [tyLayer, get_bind] at h
      refine length_of_ite h (fun h => ?_) fun h => ?_
      · rw [Parse.parenTy, mark_bind] at h
        exact length_of_skip h
      refine length_of_ite h (fun h => ?_) fun h => ?_
      · rw [bracketTy, mark_bind] at h
        exact length_of_skip h
      refine length_of_ite h (fun h => ?_) fun h => ?_
      · rw [Parse.referenceTy, mark_bind] at h
        exact length_of_skip h
      refine length_of_ite h (fun h => ?_) fun h => ?_
      · rw [pointerTy, mark_bind] at h
        exact length_of_skip h
      refine length_of_ite h length_of_skip fun h => ?_
      refine length_of_ite h length_of_skip fun h => ?_
      refine length_of_ite h length_of_skip fun h => ?_
      refine length_of_ite h length_of_skip fun h => ?_
      refine length_of_ite h Progresses.shorter fun h => ?_
      refine length_of_ite h Progresses.shorter fun h => ?_
      exact length_of_ite h Progresses.shorter length_of_verbatimTy

instance : Progresses (ty sum) where
  shorter {ahead left value} h := by
    rw [ty, mark_bind] at h
    exact Progresses.shorter (show tyLayer (grammar ahead.length) sum ahead = _ from h)

end Parse

namespace Window

open Parse

section Readings

variable (w : Window)

instance : Reading w (Ty Extent) (Ty w.Place) := ⟨Ty.map w.leftExtent, Ty.map w.rightExtent⟩

instance : Reading w (TyPath Extent) (TyPath w.Place) :=
  ⟨TyPath.map w.leftExtent, TyPath.map w.rightExtent⟩

instance : Reading w (PathHead Extent) (PathHead w.Place) :=
  ⟨PathHead.map w.leftExtent, PathHead.map w.rightExtent⟩

instance : Reading w (Segment Extent) (Segment w.Place) :=
  ⟨Segment.map w.leftExtent, Segment.map w.rightExtent⟩

instance : Reading w (SegmentArgs Extent) (SegmentArgs w.Place) :=
  ⟨SegmentArgs.map w.leftExtent, SegmentArgs.map w.rightExtent⟩

instance : Reading w (GenericArg Extent) (GenericArg w.Place) :=
  ⟨GenericArg.map w.leftExtent, GenericArg.map w.rightExtent⟩

instance : Reading w (Bound Extent) (Bound w.Place) :=
  ⟨Bound.map w.leftExtent, Bound.map w.rightExtent⟩

end Readings

variable {w : Window} {ahead : List Lexeme}

@[simp]
theorem isEmpty_here [Reading w α X] (found : List X) :
    (w.here found : List α).isEmpty = found.isEmpty :=
  List.isEmpty_map

@[simp]
theorem isEmpty_there [Reading w α X] (found : List X) :
    (w.there found : List α).isEmpty = found.isEmpty :=
  List.isEmpty_map

attribute [local simp] here there Reading.here Reading.there GenericArg.map SegmentArgs.map
  TyPath.map Ty.map Bound.map

theorem Sim.atBound : w.Agree Parse.atBound Parse.atBound ahead := by
  rw [Agree, Parse.atBound, peek_bind, peek_bind, left_head, right_head]
  exact .pure _ rfl rfl

theorem Sim.looksAt : w.Agree (Parse.at? text 0) (Parse.at? text 0) ahead := by
  rw [Agree, Parse.at?, peekAt_bind, peekAt_bind, left_head, right_head]
  exact .pure _ rfl rfl

theorem Sim.turbofish : w.Agree Parse.turbofish Parse.turbofish ahead := by
  rw [Agree, Parse.turbofish, at?_bind, at?_bind, at?_bind, at?_bind,
    left_both (stop_is (by decide)) fun second => second.any (·.is "<")]
  exact .ite (fun _ => .skip fun _ _ => .pure () rfl rfl) fun _ => .pure () rfl rfl

theorem Sim.forLifetimes : w.Agree Parse.forLifetimes Parse.forLifetimes ahead := by
  rw [Agree, Parse.forLifetimes, at?_bind, at?_bind, at?_bind, at?_bind,
    left_both (stop_is (by decide)) fun second => second.any (·.is "<")]
  refine .ite (fun _ => .skip fun _ _ => ?_) fun _ => .pure "" rfl rfl
  exact .bind .angleGroup fun group _ _ _ => .pure (Lexeme.join group) rfl rfl

theorem Sim.lifetime? : w.Agree Parse.lifetime? Parse.lifetime? ahead := by
  unfold Parse.lifetime?
  refine .kindAt? (Nat.zero_le _) fun _ => .ite (fun _ => ?_) fun _ => .pure none rfl rfl
  exact .advance fun lexeme _ _ => .pure (some lexeme.text) rfl rfl

theorem Sim.fnLifetimes : w.Agree Parse.fnLifetimes Parse.fnLifetimes ahead := by
  unfold Parse.fnLifetimes
  refine .eat (fun _ _ => ?_) (.pure () rfl rfl)
  exact .bind .angleGroup fun _ _ _ _ => .pure () rfl rfl

theorem Sim.fnConvention : w.Agree Parse.fnConvention Parse.fnConvention ahead := by
  unfold Parse.fnConvention
  refine .eat (fun _ _ => ?_) (.pure () rfl rfl)
  refine .kindAt? (Nat.zero_le _) fun _ => .ite (fun _ => ?_) fun _ => .pure () rfl rfl
  exact .skip fun _ _ => .pure () rfl rfl

theorem Sim.bounds {bound' : Parser (Bound Extent)} [Shrinks bound]
    (sim : ∀ before, before.length ≤ ahead.length → w.Agree bound bound' before) :
    w.Agree (Parse.bounds bound sum) (Parse.bounds bound' sum) ahead := by
  unfold Parse.bounds
  refine .bind (.repeated fun before fits => ?_) fun found after _ _ => ?_
  · refine .bind .atBound fun starts after shorter _ => ?_
    refine .ite (fun _ => ?_) fun _ => .pure ([], false) rfl rfl
    refine .bind (sim after (shorter.trans fits)) fun x last _ _ => ?_
    refine .ite (fun _ => ?_) fun _ => .pure ([x], false) rfl rfl
    exact .eat (fun _ _ => .pure ([x], true) rfl rfl) (.pure ([x], false) rfl rfl)
  · simp only [isEmpty_here, isEmpty_there]
    exact .ite (fun _ => .of_error) fun _ => .pure found rfl rfl

theorem Sim.output? {ty ty' : Parser (Ty Extent)} [Shrinks ty]
    (sim : ∀ before, before.length ≤ ahead.length → w.Agree ty ty' before) :
    w.Agree (Parse.output? ty) (Parse.output? ty') ahead := by
  unfold Parse.output?
  refine .eat (fun rest fewer => ?_) (.pure none rfl rfl)
  refine .bind (sim rest fewer.le) fun ty _ _ _ => .pure (some ty) rfl rfl

/-- Collecting takes a lexeme that does not stop it. -/
theorem length_of_collectUntil {stops : List String} {rest found : List Lexeme}
    (h : Parse.collectUntil stops false (lexeme :: rest) = .ok (found, left))
    (goes : lexeme.isPunctOf stops = false) (inner : lexeme.isCloser = false) :
    left.length < (lexeme :: rest).length := by
  rw [Parse.collectUntil, Parse.loop, mark_bind, Parse.loopUpTo] at h
  obtain ⟨⟨items, next⟩, middle, taken, ran⟩ := bind_eq_ok.mp h
  obtain ⟨⟨same, -⟩, some⟩ := collectStep_eq_ok taken
  have goesOn : next.isSome := by
    rw [Parse.collectStep, peek_bind] at taken
    simp only [List.getElem?_cons_zero, goes, inner, Bool.and_false, Bool.false_and,
      Bool.false_eq_true, if_false] at taken
    split_ifs at taken
    · obtain ⟨_, _, _, taken⟩ := bind_eq_ok.mp taken
      cases taken
      rfl
    · cases taken
      rfl
  have long := congrArg List.length same
  have pos := List.length_pos_of_ne_nil (some goesOn)
  have le : left.length ≤ middle.length := by
    cases next with
    | none => cases goesOn
    | some next => exact (Shrinks.suffix ran).length_le
  simp only [List.length_append] at long
  omega

theorem stops_const (starts : startsConst lexeme) : lexeme.isPunctOf [",", ">"] = false := by
  simp only [startsConst, Lexeme.isPunctOf] at starts ⊢
  grind

theorem closer_const (starts : startsConst lexeme) : lexeme.isCloser = false := by
  simp only [startsConst, Lexeme.isCloser, Lexeme.isPunctOf] at starts ⊢
  grind

/-- The nested parsers of two grammars agree where fewer lexemes are ahead. -/
structure Nested (w : Window) (g g' : Grammar) (limit : Nat) : Prop where
  ty : ∀ sum ahead, ahead.length < limit → w.Agree (g.ty sum) (g'.ty sum) ahead
  path : ∀ ahead, ahead.length < limit → w.Agree g.path g'.path ahead
  bound : ∀ ahead, ahead.length < limit → w.Agree g.bound g'.bound ahead

section Layers

variable {g g' : Grammar} [g.Shrink] {limit : Nat} (nested : w.Nested g g' limit)
  (inside : limit ≤ w.size)

include nested inside

theorem Sim.angleArg (fits : ahead.length < limit) :
    w.Agree (Parse.angleArg g) (Parse.angleArg g') ahead := by
  have plain : w.Agree (do let ty ← g.ty true; return .type ty.place ty : Parser (GenericArg Extent))
      (do let ty ← g'.ty true; return .type ty.place ty : Parser (GenericArg Extent)) ahead :=
    .bind (nested.ty true ahead fits) fun ty after _ _ =>
      .pure (GenericArg.type ty.place ty) (by simp) (by simp)
  unfold Parse.angleArg
  rw [Agree, mark_bind, mark_bind, peek_bind, peek_bind]
  cases ahead with
  | nil =>
    have quiet : startsConst w.stop = false := by
      have apart : w.stop.isPunctOf ["-", "\x7b"] = false := stop_isPunctOf (by decide)
      simp [startsConst, stop_kind, apart]
    simpa [Agree, stop_kind, quiet, at?_bind] using plain
  | cons lexeme rest =>
    have within := fits.le.trans inside
    change w.Agree (if lexeme.kind = .lifetime then _ else _ : Parser _)
      (if lexeme.kind = .lifetime then _ else _ : Parser _) (lexeme :: rest)
    refine .ite (fun _ => .skip fun _ one => ?_) fun _ => ?_
    · exact .extentFrom within (by omega) fun place =>
        .pure (GenericArg.lifetime place lexeme.text) rfl rfl
    refine .ite (fun starts => ?_) fun _ => ?_
    · refine .bind .collectUntil fun expr after _ taken => ?_
      rw [left_cons] at taken
      have shorter := length_of_collectUntil taken (stops_const starts) (closer_const starts)
      simp only [List.length_cons, length_left] at shorter
      exact .extentFrom within (by simp; omega) fun place =>
        .pure (GenericArg.const place (Lexeme.join expr)) rfl rfl
    refine .ite (fun _ => .skip fun _ one => ?_) fun _ => ?_
    · exact .extentFrom within (by omega) fun place =>
        .pure (GenericArg.const place lexeme.text) rfl rfl
    refine .at? (by simp) fun equals => .ite (fun _ => .skip fun rest two => ?_) fun _ => ?_
    · refine .bind (nested.ty true rest (by omega)) fun ty after shorter _ => ?_
      exact .extentFrom within (by omega) fun place =>
        .pure (GenericArg.binding place lexeme.text ty) rfl rfl
    refine .at? (by simp) fun colon => .ite (fun _ => .skip fun rest two => ?_) fun _ => plain
    refine .bind (.bounds fun before le => nested.bound before (by omega))
      fun found after shorter _ => ?_
    exact .extentFrom within (by omega) fun place =>
      .pure (GenericArg.constraint place lexeme.text found) (by simp) (by simp)

variable (fits : ahead.length ≤ limit)

include fits

theorem Sim.angleArgs : w.Agree (Parse.angleArgs g) (Parse.angleArgs g') ahead := by
  unfold Parse.angleArgs
  rw [Agree, mark_bind, mark_bind]
  refine .expect fun rest fewer => ?_
  refine .bind (.separated (fun _ => .looksAt) fun before le =>
    .angleArg nested inside (by omega)) fun args after shorter _ => ?_
  refine .expect fun last fewer' => ?_
  exact .extentFrom (by omega) (by omega) fun place =>
    .pure (SegmentArgs.angle place args) (by simp) (by simp)

theorem Sim.callArgs : w.Agree (Parse.callArgs g) (Parse.callArgs g') ahead := by
  unfold Parse.callArgs
  rw [Agree, mark_bind, mark_bind]
  refine .expect fun rest fewer => ?_
  refine .bind (.separated (fun _ => .looksAt) fun before le =>
    nested.ty true before (by omega)) fun inputs after shorter _ => ?_
  refine .expect fun last fewer' => ?_
  refine .bind (.output? fun before le => nested.ty false before (by omega))
    fun output final le _ => ?_
  exact .extentFrom (by omega) (by omega) fun place =>
    .pure (SegmentArgs.call place inputs output) (by simp; rfl) (by simp; rfl)

theorem Sim.segmentArgs :
    w.Agree (Parse.segmentArgs g ident) (Parse.segmentArgs g' ident) ahead := by
  unfold Parse.segmentArgs
  refine .at? (Nat.zero_le _) fun _ => .at? (Nat.zero_le _) fun _ => ?_
  refine .ite (fun _ => .angleArgs nested inside fits) fun _ => ?_
  exact .ite (fun _ => .callArgs nested inside fits) fun _ => .pure SegmentArgs.absent rfl rfl

theorem Sim.segment : w.Agree (Parse.segment g) (Parse.segment g') ahead := by
  rw [Agree, Parse.segment, Parse.segment, mark_bind, mark_bind]
  refine .expectIdent fun word rest fewer => ?_
  refine .bind .turbofish fun _ after shorter _ => ?_
  refine .bind (.segmentArgs nested inside (by omega)) fun args last le _ => ?_
  exact .extentFrom (by omega) (by omega) fun place => .pure (Segment.mk place word args) rfl rfl

theorem Sim.pathHead : w.Agree (Parse.pathHead g) (Parse.pathHead g') ahead := by
  unfold Parse.pathHead
  rw [Agree, mark_bind, mark_bind]
  refine .eat (fun rest fewer => ?_) (.eat (fun _ _ => .pure PathHead.rooted rfl rfl)
    (.pure PathHead.relative rfl rfl))
  refine .bind (nested.ty true rest (by omega)) fun ty after shorter _ => ?_
  refine .eat (fun rest fewer => ?_) (.expect fun rest fewer => ?_)
  · refine .bind (nested.path rest (by omega)) fun path last le _ => ?_
    refine .expect fun rest fewer => ?_
    refine .extentFrom (by omega) (by omega) fun place => ?_
    exact .expect fun _ _ => .pure (PathHead.selfAs place ty path) rfl rfl
  · refine .extentFrom (by omega) (by omega) fun place => ?_
    exact .expect fun _ _ => .pure (PathHead.self place ty) rfl rfl

theorem Sim.pathLayer : w.Agree (Parse.pathLayer g) (Parse.pathLayer g') ahead := by
  unfold Parse.pathLayer
  rw [Agree, mark_bind, mark_bind]
  refine .bind (.pathHead nested inside fits) fun head after le _ => ?_
  refine .bind (.repeated fun before le' => ?_) fun segments last _ taken => ?_
  · refine .bind (.segment nested inside (by omega)) fun segment after _ _ => ?_
    rw [Agree, at?_bind, at?_bind, kindAt?_bind, kindAt?_bind,
      left_both (stop_is (by decide)) fun second => second.any (·.kind = .ident)]
    exact .ite (fun _ => .skip fun _ _ => .pure ([segment], true) rfl rfl)
      fun _ => .pure ([segment], false) rfl rfl
  · have shorter := shorter_of_ok taken
    exact .extentFrom (by omega) (by omega) fun place =>
      .pure (TyPath.mk place head segments) (by simp) (by simp)

omit fits in
theorem Sim.boundRest {before : List Lexeme} (within : before.length ≤ w.size)
    (le : ahead.length ≤ before.length) (fits : ahead.length ≤ limit) :
    w.Agree (Parse.boundRest g (w.left before).length)
      (Parse.boundRest g' (w.right before).length) ahead := by
  unfold Parse.boundRest
  refine .eat (fun rest fewer => ?_) ?_
  · refine .bind (nested.bound rest (by omega)) fun bound after _ _ => ?_
    exact .expect fun _ _ => .pure bound rfl rfl
  · refine .bind .ate fun optional rest fewer _ => ?_
    refine .bind .forLifetimes fun lifetimes after shorter _ => ?_
    refine .bind (.pathLayer nested inside (by omega)) fun path last _ taken => ?_
    have progress := shorter_of_ok taken
    exact .extentFrom within (by omega) fun place =>
      .pure (Bound.trait place path optional lifetimes) rfl rfl

theorem Sim.boundLayer : w.Agree (Parse.boundLayer g) (Parse.boundLayer g') ahead := by
  have within := fits.trans inside
  have rest := Sim.boundRest nested inside within le_rfl fits
  cases ahead with
  | nil =>
    rw [Agree, left_nil, right_nil, boundLayer_cons, boundLayer_cons, stop_kind]
    exact rest
  | cons lexeme after =>
    rw [Agree, left_cons, right_cons, boundLayer_cons, boundLayer_cons, ← left_cons, ← right_cons]
    refine .ite (fun _ => ?_) fun _ => rest
    exact .skip fun _ one => .extentFrom within (by omega) fun place =>
      .pure (Bound.lifetime place lexeme.text) rfl rfl

omit inside fits in
theorem Sim.bareInput (fits : ahead.length < limit) :
    w.Agree (Parse.bareInput g) (Parse.bareInput g') ahead := by
  unfold Parse.bareInput
  dsimp only
  rw [Agree, kindAt?_bind, kindAt?_bind, at?_bind, at?_bind,
    left_both (by simp [stop_kind]) fun second => second.any (·.is ":")]
  refine .ite (fun _ => .skip fun rest two => ?_) fun _ => nested.ty true ahead fits
  exact nested.ty true rest (by omega)

omit fits in
theorem Sim.fnTail {start : List Lexeme} (within : start.length ≤ limit)
    (le : ahead.length ≤ start.length) :
    w.Agree (Parse.fnTail g (w.left start)) (Parse.fnTail g' (w.right start)) ahead := by
  unfold Parse.fnTail
  refine .expect fun first fewer => .expect fun second fewer' => ?_
  have ends : ∀ before, w.Sim
      ((do if ← Parse.at? ")" then return true else Parse.eat "..." : Parser Bool) (w.left before))
      ((do if ← Parse.at? ")" then return true else Parse.eat "..." : Parser Bool)
        (w.right before)) := fun before =>
    .at? (Nat.zero_le _) fun _ => .ite (fun _ => .pure true rfl rfl) fun _ => .ate
  refine .bind (.separated ends fun before _ => .bareInput nested (by omega))
    fun inputs after shorter _ => ?_
  refine .expect fun rest fewer'' => ?_
  refine .bind (.output? fun before _ => nested.ty false before (by omega))
    fun output last _ _ => ?_
  refine .extentFrom (by omega) (by omega) fun place => .readSince ?_
  exact .pure (Ty.bareFn place inputs output
    (Lexeme.join (start.take (start.length - last.length)))) (by simp; rfl) (by simp; rfl)

theorem Sim.bareFn : w.Agree (Parse.bareFn g) (Parse.bareFn g') ahead := by
  rw [Agree, Parse.bareFn, Parse.bareFn, get_bind, get_bind]
  refine .bind .fnLifetimes fun _ first le _ => .bind .ate fun _ second le' _ => ?_
  refine .bind .fnConvention fun _ third le'' _ => ?_
  exact .fnTail nested inside fits (by omega)

theorem Sim.parenTy : w.Agree (Parse.parenTy g) (Parse.parenTy g') ahead := by
  rw [Agree, Parse.parenTy, Parse.parenTy, mark_bind, mark_bind]
  refine .skip fun inner one => ?_
  refine .eat (fun rest fewer => ?_) ?_
  · exact .extentFrom (by omega) (by omega) fun place => .pure (Ty.tuple place []) rfl rfl
  refine .bind (nested.ty true inner (by omega)) fun first after le _ => ?_
  refine .eat (fun rest fewer => ?_) ?_
  · exact .extentFrom (by omega) (by omega) fun place => .pure (Ty.paren place first) rfl rfl
  have others : w.Agree (Parse.tupleRest g) (Parse.tupleRest g') after := by
    unfold Parse.tupleRest
    refine .eat (fun rest fewer => ?_) (.pure [] rfl rfl)
    exact .separated (fun _ => .looksAt) fun before _ => nested.ty true before (by omega)
  refine .bind others fun others last _ _ => ?_
  refine .expect fun rest fewer => ?_
  exact .extentFrom (by omega) (by omega) fun place =>
    .pure (Ty.tuple place (first :: others)) (by simp) (by simp)

set_option synthInstance.maxSize 2000 in
theorem Sim.bracketTy : w.Agree (Parse.bracketTy g) (Parse.bracketTy g') ahead := by
  unfold Parse.bracketTy
  dsimp only
  rw [Agree, mark_bind, mark_bind]
  refine .skip fun inner one => ?_
  refine .bind (nested.ty true inner (by omega)) fun elem after le _ => ?_
  refine .eat (fun rest fewer => ?_) (.expect fun rest fewer => ?_)
  · exact .extentFrom (by omega) (by omega) fun place => .pure (Ty.slice place elem) rfl rfl
  · refine .bind .collectUntil fun length last fewer' _ => .ite (fun _ => .of_error) fun _ => ?_
    refine .expect fun final fewer'' => ?_
    exact .extentFrom (by omega) (by omega) fun place =>
      .pure (Ty.array place elem (Lexeme.join length)) rfl rfl

theorem Sim.referenceTy : w.Agree (Parse.referenceTy g) (Parse.referenceTy g') ahead := by
  rw [Agree, Parse.referenceTy, Parse.referenceTy, mark_bind, mark_bind]
  refine .skip fun inner one => .bind .lifetime? fun lifetime after le _ => ?_
  refine .bind .ate fun mutable rest fewer _ => ?_
  refine .bind (nested.ty false rest (by omega)) fun elem last _ _ => ?_
  exact .extentFrom (by omega) (by omega) fun place =>
    .pure (Ty.reference place elem lifetime mutable) rfl rfl

theorem Sim.pointerTy : w.Agree (Parse.pointerTy g) (Parse.pointerTy g') ahead := by
  unfold Parse.pointerTy
  dsimp only
  rw [Agree, mark_bind, mark_bind]
  refine .skip fun inner one => ?_
  have elem : ∀ mutable rest, rest.length < ahead.length → w.Agree (do
        let elem ← g.ty false
        return .pointer (← Parse.extentFrom (w.left ahead).length) elem mutable :
        Parser (Ty Extent)) (do
        let elem ← g'.ty false
        return .pointer (← Parse.extentFrom (w.right ahead).length) elem mutable :
        Parser (Ty Extent)) rest := fun mutable rest fewer =>
    .bind (nested.ty false rest (by omega)) fun elem last _ _ =>
      .extentFrom (by omega) (by omega) fun place => .pure (Ty.pointer place elem mutable) rfl rfl
  exact .eat (fun rest _ => elem true rest (by omega))
    (.eat (fun rest _ => elem false rest (by omega)) .of_error)

theorem Sim.plusTail : w.Agree (Parse.plusTail g) (Parse.plusTail g') ahead := by
  unfold Parse.plusTail
  refine .repeated fun before le => ?_
  refine .eat (fun rest fewer => ?_) (.pure ([], false) rfl rfl)
  refine .bind .atBound fun _ after fewer _ => .ite (fun _ => ?_) fun _ => .pure ([], true) rfl rfl
  exact .bind (.boundLayer nested inside (by omega)) fun bound _ _ _ =>
    .pure ([bound], true) rfl rfl

theorem Sim.pathTy : w.Agree (Parse.pathTy g sum) (Parse.pathTy g' sum) ahead := by
  unfold Parse.pathTy
  rw [Agree, get_bind, get_bind]
  refine .bind (.pathLayer nested inside fits) fun path after _ taken => ?_
  have shorter := shorter_of_ok taken
  rw [Agree, at?_bind, at?_bind, peekAt_bind, peekAt_bind,
    left_both (stop_is (by decide)) fun second =>
      second.any fun lexeme => (Lexeme.closerOf? lexeme.text).isSome]
  refine .ite (fun _ => .skip fun rest one => ?_) fun _ => ?_
  · refine .bind .group fun _ last le _ => ?_
    refine .extentFrom (by omega) (by omega) fun place => .readSince ?_
    exact .pure (Ty.invocation place path
      (Lexeme.join (ahead.take (ahead.length - last.length)))) rfl rfl
  refine .at? (Nat.zero_le _) fun _ => .ite (fun _ => ?_) fun _ => .pure (Ty.path path) rfl rfl
  refine .bind (.plusTail nested inside (by omega)) fun others last le _ => ?_
  exact .extentFrom (by omega) (by omega) fun place =>
    .pure (Ty.traitObject place (Bound.trait path.place path false "" :: others) false) (by simp)
      (by simp)

end Layers

theorem Sim.verbatimTy (within : ahead.length ≤ w.size) :
    w.Agree Parse.verbatimTy Parse.verbatimTy ahead := by
  unfold Parse.verbatimTy
  dsimp only
  rw [Agree, mark_bind, mark_bind]
  refine .bind .collectUntil fun found after _ taken => .ite (fun _ => .of_error) fun some => ?_
  have shorter := shorter_of_collected taken some
  exact .extentFrom within shorter fun place =>
    .pure (Ty.verbatim place (Lexeme.join found)) rfl rfl

section ForFn

/-! ## Lifetimes before a function pointer type

Whether a type that begins with lifetimes is a function pointer type depends on what follows the
angle brackets. If they end behind the barrier, so does the type. -/

/-- Angle brackets that begin inside of the window end there too, or else behind the barrier. -/
theorem bindsFn_cases (rest : List Lexeme) :
    bindsFn (w.left rest) = bindsFn (w.right rest) ∨
      ∀ found left, splitAngles 0 (w.left rest) = some (found, left) →
        left.length ≤ w.tail.length := by
  by_cases short : ∀ found left, splitAngles 0 (w.left rest) = some (found, left) →
      left.length ≤ w.tail.length
  · exact .inr short
  push Not at short
  obtain ⟨found, left, split, long⟩ := short
  obtain ⟨same, -, again⟩ := splitAngles_eq_some split
  have behind : left <:+ w.left rest := ⟨found, same.symm⟩
  have above : w.left [] <:+ left :=
    List.suffix_of_suffix_length_le ⟨rest, rfl⟩ behind (by simpa using long)
  obtain ⟨after, rfl, -⟩ := exists_left above behind
  rw [← left_append, left_inj] at same
  subst same
  refine .inl ?_
  rw [bindsFn, bindsFn, split, right_append, again]
  cases after <;> rfl

theorem is_of_isIdent (word : lexeme.isIdent text) : lexeme.is text := by
  simp_all [Lexeme.isIdent, Lexeme.is]

/-- Taking the lifetimes of a function pointer type takes the angle brackets. -/
theorem fnLifetimes_eq_ok {rest : List Lexeme} (word : lexeme.is "for")
    (h : Parse.fnLifetimes (lexeme :: rest) = .ok ((), left)) :
    ∃ found, Parse.angleGroup rest = .ok (found, left) := by
  rw [Parse.fnLifetimes, eat_bind] at h
  simp only [List.getElem?_cons_zero, Option.any_some, word, if_true, List.drop_succ_cons,
    List.drop_zero] at h
  obtain ⟨found, middle, ran, same⟩ := bind_eq_ok.mp h
  cases same
  exact ⟨found, ran⟩

/-- So does taking the lifetimes of a bound. -/
theorem forLifetimes_eq_ok {rest : List Lexeme} {value : String} (word : lexeme.is "for")
    (angle : rest.head?.any (·.is "<"))
    (h : Parse.forLifetimes (lexeme :: rest) = .ok (value, left)) :
    ∃ found, Parse.angleGroup rest = .ok (found, left) := by
  rw [Parse.forLifetimes, at?_bind, at?_bind] at h
  rw [List.head?_eq_getElem?] at angle
  simp only [List.getElem?_cons_zero, List.getElem?_cons_succ, Option.any_some, word, angle,
    Bool.and_true, if_true, skip_bind, List.drop_succ_cons, List.drop_zero] at h
  obtain ⟨found, middle, ran, same⟩ := bind_eq_ok.mp h
  cases same
  exact ⟨found, ran⟩

variable {g g' : Grammar} [g.Shrink] {lexeme : Lexeme} {rest : List Lexeme}

theorem bareFn_of_for (word : lexeme.isIdent "for")
    (h : Parse.bareFn g (lexeme :: rest) = .ok (value, left)) :
    ∃ found middle, Parse.angleGroup rest = .ok (found, middle) ∧ left <:+ middle := by
  rw [Parse.bareFn, get_bind] at h
  obtain ⟨_, middle, ran, tail⟩ := bind_eq_ok.mp h
  obtain ⟨found, ran⟩ := fnLifetimes_eq_ok (is_of_isIdent word) ran
  exact ⟨found, middle, ran, Shrinks.suffix tail⟩

theorem boundLayer_of_for {value : Bound Extent} (word : lexeme.isIdent "for")
    (angle : rest.head?.any (·.is "<"))
    (h : Parse.boundLayer g (lexeme :: rest) = .ok (value, left)) :
    ∃ found middle, Parse.angleGroup rest = .ok (found, middle) ∧ left <:+ middle := by
  have text : lexeme.text = "for" := by simp_all [Lexeme.isIdent]
  have kind : lexeme.kind ≠ .lifetime := by simp_all [Lexeme.isIdent]
  have other : ∀ text, "for" ≠ text → lexeme.is text = false := by
    intro text ne
    simp [Lexeme.is, *]
  rw [boundLayer_cons, if_neg kind, Parse.boundRest, eat_bind] at h
  simp only [List.getElem?_cons_zero, Option.any_some, other "(" (by decide), Bool.false_eq_true,
    if_false, eat_bind, other "?" (by decide)] at h
  obtain ⟨_, middle, ran, tail⟩ := bind_eq_ok.mp h
  obtain ⟨found, ran⟩ := forLifetimes_eq_ok (is_of_isIdent word) angle ran
  exact ⟨found, middle, ran, Shrinks.suffix tail⟩

/-- If the angle brackets end behind the barrier, the first run does not stop inside. -/
theorem Sim.of_angles {first second : Except Complaint (Ty Extent × List Lexeme)}
    (short : ∀ found left, splitAngles 0 (w.left rest) = some (found, left) →
      left.length ≤ w.tail.length)
    (taken : ∀ value left, first = .ok (value, left) →
      ∃ found middle, Parse.angleGroup (w.left rest) = .ok (found, middle) ∧ left <:+ middle) :
    w.Sim first second := by
  refine .of_short fun value left ran => ?_
  obtain ⟨found, middle, angles, behind⟩ := taken value left ran
  exact behind.length_le.trans (short found middle (angleGroup_eq_ok.mp angles).2)

theorem startsBareFn_cases (lexeme : Lexeme) (rest : List Lexeme) :
    startsBareFn (w.left (lexeme :: rest)) = startsBareFn (w.right (lexeme :: rest)) ∨
      (lexeme.isIdent "for" ∧ (w.left rest).head?.any (·.is "<")) ∧
        ∀ found left, splitAngles 0 (w.left rest) = some (found, left) →
          left.length ≤ w.tail.length := by
  have heads : (w.right rest).head? = (w.left rest).head? := by
    rw [List.head?_eq_getElem?, List.head?_eq_getElem?, left_head, right_head]
  rw [left_cons, right_cons, startsBareFn, startsBareFn, heads]
  rcases bindsFn_cases rest with same | short
  · exact .inl (by rw [same])
  by_cases word : lexeme.isIdent "for" ∧ (w.left rest).head?.any (·.is "<")
  · exact .inr ⟨word, short⟩
  · refine .inl ?_
    simp only [Lexeme.isIdent] at word
    grind

end ForFn

section TypeLayer

variable {g g' : Grammar} [g.Shrink] {limit : Nat} (nested : w.Nested g g' limit)
  (inside : limit ≤ w.size)

include nested inside

theorem Sim.tyLayer (fits : ahead.length ≤ limit) :
    w.Agree (Parse.tyLayer g sum) (Parse.tyLayer g' sum) ahead := by
  have within := fits.trans inside
  cases ahead with
  | nil =>
    have words : startsPath w.stop = false := by
      have apart : w.stop.isPunctOf ["<", "::"] = false := stop_isPunctOf (by decide)
      simp [startsPath, apart, stop_kind]
    unfold Parse.tyLayer
    rw [Agree, get_bind, get_bind]
    simp only [left_nil, right_nil, words, startsBareFn, stop_kind, stop_isIdent,
      stop_isPunct (by decide : barriers.contains "(" = false),
      stop_isPunct (by decide : barriers.contains "[" = false),
      stop_isPunct (by decide : barriers.contains "&" = false),
      stop_isPunct (by decide : barriers.contains "*" = false),
      stop_isPunct (by decide : barriers.contains "!" = false),
      stop_isPunct (by decide : barriers.contains "?" = false), reduceCtorEq, decide_false,
      Bool.false_and, Bool.or_self, Bool.false_eq_true, if_false]
    exact Sim.verbatimTy within
  | cons lexeme rest =>
    have bounds : ∀ before, before.length ≤ (lexeme :: rest).length →
        w.Agree (Parse.bounds (Parse.boundLayer g) sum) (Parse.bounds (Parse.boundLayer g') sum)
          before :=
      fun _ le => .bounds fun before le' => .boundLayer nested inside (by omega)
    change w.Sim ((if lexeme.isPunct "(" then _ else _ : Parser _) (w.left (lexeme :: rest)))
      ((if lexeme.isPunct "(" then _ else _ : Parser _) (w.right (lexeme :: rest)))
    refine .ite (fun _ => .parenTy nested inside fits) fun _ => ?_
    refine .ite (fun _ => .bracketTy nested inside fits) fun _ => ?_
    refine .ite (fun _ => .referenceTy nested inside fits) fun _ => ?_
    refine .ite (fun _ => .pointerTy nested inside fits) fun _ => ?_
    refine .ite (fun _ => .skip fun _ one => ?_) fun _ => ?_
    · exact .extentFrom within (by omega) fun place => .pure (Ty.never place) rfl rfl
    refine .ite (fun _ => .skip fun _ one => ?_) fun _ => ?_
    · exact .extentFrom within (by omega) fun place => .pure (Ty.infer place) rfl rfl
    refine .ite (fun _ => .skip fun rest one => ?_) fun _ => ?_
    · refine .bind (bounds rest (by omega)) fun found after le _ => ?_
      exact .extentFrom within (by omega) fun place =>
        .pure (Ty.implTrait place found) (by simp) (by simp)
    refine .ite (fun _ => .skip fun rest one => ?_) fun _ => ?_
    · refine .bind (bounds rest (by omega)) fun found after le _ => ?_
      exact .extentFrom within (by omega) fun place =>
        .pure (Ty.traitObject place found true) (by simp) (by simp)
    rcases startsBareFn_cases lexeme rest with same | ⟨⟨word, angle⟩, short⟩
    · rw [same]
      refine .ite (fun _ => .bareFn nested inside fits) fun _ => ?_
      refine .ite (fun _ => ?_) fun _ => ?_
      · refine .bind (bounds _ le_rfl) fun found after _ taken => ?_
        have shorter := shorter_of_ok taken
        exact .extentFrom within shorter fun place =>
          .pure (Ty.traitObject place found false) (by simp) (by simp)
      · exact .ite (fun _ => .pathTy nested inside fits) fun _ => .verbatimTy within
    · refine .of_angles short fun value left ran => ?_
      by_cases starts : startsBareFn (w.left (lexeme :: rest))
      · rw [if_pos starts] at ran
        exact bareFn_of_for word ran
      · rw [if_neg starts, word, Bool.true_or, if_pos rfl] at ran
        obtain ⟨found, after, ran, last⟩ := bind_eq_ok.mp ran
        obtain ⟨bound, middle, ran, behind⟩ := bounds_eq_ok ran
        obtain ⟨angles, final, ran, inner⟩ := boundLayer_of_for word angle ran
        exact ⟨angles, final, ran, (Shrinks.suffix last).trans (behind.trans inner)⟩

end TypeLayer

/-- Layers of the grammar agree if the second grammar has enough of them for the lexemes. -/
theorem nested_grammar (depth : Nat) {limit layers : Nat} (enough : limit ≤ layers)
    (inside : limit ≤ w.size + 1) : w.Nested (grammar depth) (grammar layers) limit := by
  induction limit generalizing depth layers with
  | zero =>
    exact ⟨fun _ _ short => absurd short (Nat.not_lt_zero _),
      fun _ short => absurd short (Nat.not_lt_zero _),
      fun _ short => absurd short (Nat.not_lt_zero _)⟩
  | succ limit ih =>
    obtain ⟨layers, rfl⟩ := Nat.exists_eq_add_of_lt enough
    cases depth with
    | zero => exact ⟨fun _ _ _ => .of_error, fun _ _ => .of_error, fun _ _ => .of_error⟩
    | succ depth =>
      have nested := ih depth (Nat.le_add_right limit layers) (by omega)
      have room : limit ≤ w.size := by omega
      exact ⟨fun sum ahead fits => .tyLayer nested room (Nat.le_of_lt_succ fits),
        fun ahead fits => .pathLayer nested room (Nat.le_of_lt_succ fits),
        fun ahead fits => .boundLayer nested room (Nat.le_of_lt_succ fits)⟩

theorem Sim.ty (within : ahead.length ≤ w.size) : w.Agree (Parse.ty sum) (Parse.ty sum) ahead := by
  have enough : ahead.length + 1 ≤ (w.right ahead).length + 1 := by rw [length_right]; omega
  rw [Agree, Parse.ty, mark_bind, mark_bind]
  exact (nested_grammar _ enough (by omega)).ty sum ahead (Nat.lt_succ_self _)

end Window

end ActorGlue
