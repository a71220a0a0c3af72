import ActorGlue.Proofs.Parse.ItemWindow

/-!
# Implementation blocks in a window

Methods and the other members of an implementation block are read the same way in front of
anything that does not make an invocation of the barrier.
-/

namespace ActorGlue

namespace Window

open Parse

variable {w : Window} {ahead : List Lexeme}

theorem Sim.methodBody : w.Agree Parse.methodBody Parse.methodBody ahead := by
  unfold Parse.methodBody
  refine .at? (Nat.zero_le _) fun _ => .ite (fun _ => ?_) fun _ => ?_
  · exact .bind .group fun _ _ _ _ => .pure () rfl rfl
  · rw [← bind_pure (Parse.expect ";" _)]
    exact .expect fun _ _ => .pure () rfl rfl

set_option synthInstance.maxSize 2000 in
theorem Sim.method {before : List Lexeme} {attributes : List (Attribute w.Place)}
    {visibility : Visibility w.Place} {qualifiers : List String} (within : before.length ≤ w.size)
    (le : ahead.length ≤ before.length) :
    w.Agree (Parse.method (w.left before).length (w.here attributes) (w.here visibility) qualifiers)
      (Parse.method (w.right before).length (w.there attributes) (w.there visibility) qualifiers) ahead := by
  rw [Parse.method, Parse.method]
  refine .expect fun rest fewer => .expectIdent fun name rest' fewer' => ?_
  refine .bind (.generics (by omega)) fun generics after le' _ => ?_
  refine .expect fun rest' fewer'' => ?_
  refine .bind (.separated (fun _ => .looksAt) fun before _ => .methodInput (by omega))
    fun inputs after shorter _ => ?_
  refine .expect fun rest' shorter' => ?_
  refine .bind (.output? fun before _ => .ty (by omega)) fun output after _ _ => ?_
  refine .bind (.whereClause generics) fun generics after' _ _ => ?_
  refine .bind .methodBody fun _ last _ _ => ?_
  exact .extentFrom within (by omega) fun place =>
    .pure (Method.mk place attributes visibility name generics inputs output qualifiers)
      rfl rfl

/-- The qualifiers of a method are counted the same way in both runs. -/
theorem qualifierCount_left (ahead : List Lexeme) :
    qualifierCount (w.left ahead) = qualifierCount (w.right ahead) ∧
      qualifierCount (w.right ahead) ≤ ahead.length := by
  have barrier : ∀ rest, qualifierCount (w.stop :: rest) = 0 := by
    intro rest
    rw [qualifierCount.eq_def]
    simp [stop_kind]
  induction ahead using qualifierCount.induct with
  | case1 => simp [barrier]
  | case2 lexeme rest word ih =>
    have one : ∀ rest, qualifierCount (lexeme :: rest) = 1 + qualifierCount rest := by
      intro rest
      rw [qualifierCount.eq_def]
      simp only [if_pos word]
    rw [left_cons, right_cons, one, one, ih.1, List.length_cons]
    exact ⟨rfl, by omega⟩
  | case3 lexeme word found =>
    have kind : w.stop.kind ≠ .str := by simp [stop_kind]
    simp [qualifierCount, found, kind, barrier]
  | case4 lexeme word found next after text ih =>
    have two : ∀ rest, qualifierCount (lexeme :: next :: rest) = 2 + qualifierCount rest := by
      intro rest
      rw [qualifierCount.eq_def]
      simp only [if_neg word, if_pos found, if_pos text]
    simp only [left_cons, right_cons, two, ih.1, List.length_cons]
    exact ⟨trivial, by omega⟩
  | case5 lexeme word found next after text ih =>
    have one : ∀ rest,
        qualifierCount (lexeme :: next :: rest) = 1 + qualifierCount (next :: rest) := by
      intro rest
      rw [qualifierCount.eq_def]
      simp only [if_neg word, if_pos found, if_neg text]
    simp only [left_cons, right_cons] at ih
    simp only [left_cons, right_cons, one, ih.1, List.length_cons] at ih ⊢
    exact ⟨trivial, by omega⟩
  | case6 lexeme rest word found =>
    have none : ∀ rest, qualifierCount (lexeme :: rest) = 0 := by
      intro rest
      rw [qualifierCount.eq_def]
      simp only [if_neg word, if_neg found]
    rw [left_cons, right_cons, none, none]
    exact ⟨rfl, Nat.zero_le _⟩

/-- Nothing behind the barrier makes an invocation of it. -/
def Calm (w : Window) : Prop :=
  w.tail[0]?.any (·.is "!") = false ∧ w.other[0]?.any (·.is "!") = false

theorem Sim.memberBraces : w.Agree Parse.memberBraces Parse.memberBraces ahead := by
  unfold Parse.memberBraces
  refine .at? (Nat.zero_le _) fun _ => .ite (fun _ => ?_) fun _ => .pure () rfl rfl
  exact .bind .group fun _ _ _ _ => .pure () rfl rfl

theorem Sim.otherMember (calm : w.Calm) : w.Agree Parse.otherMember Parse.otherMember ahead := by
  have bang : (w.left ahead)[1]?.any (·.is "!") = (w.right ahead)[1]?.any (·.is "!") := by
    cases ahead with
    | nil => exact calm.1.trans calm.2.symm
    | cons lexeme rest => rw [left_peek (by simp), right_peek (by simp)]
  unfold Parse.otherMember
  rw [Agree, peek_bind, peek_bind, left_head, right_head, at?_bind, at?_bind, bang]
  refine .ite (fun _ => ?_) fun _ => ?_
  · refine .bind .collectUntil fun _ after _ _ => .bind .memberBraces fun _ after' _ _ => ?_
    exact .eat (fun _ _ => .pure "macro" rfl rfl) (.pure "macro" rfl rfl)
  · refine .bind .collectUntil fun _ after _ _ => .expect fun _ _ => ?_
    exact .pure _ rfl rfl

/-- A member that takes a lexeme is read the same way in both runs. -/
theorem memberRest_right {start after : List Lexeme} {attributes : List (Attribute w.Place)}
    {visibility : Visibility w.Place} {value : Member Extent} (calm : w.Calm)
    (within : start.length ≤ w.size) (le : ahead.length ≤ start.length)
    (ran : memberRest (w.left start).length (w.here attributes) (w.here visibility)
      (w.left ahead) = .ok (value, w.left after))
    (shorter : after.length < start.length) :
    ∃ x, value = w.here x ∧ memberRest (w.right start).length (w.there attributes)
      (w.there visibility) (w.right ahead) = .ok (w.there x, w.right after) := by
  obtain ⟨same, fits⟩ := qualifierCount_left (w := w) ahead
  rw [memberRest, get_bind, at?_bind, same, left_peek fits] at ran
  rw [memberRest, get_bind, at?_bind, right_peek fits]
  generalize qualifierCount (w.right ahead) = count at *
  split_ifs at ran ⊢
  · have take : (w.left ahead).take count = ahead.take count := List.take_append_of_le_length fits
    have take' : (w.right ahead).take count = ahead.take count :=
      List.take_append_of_le_length fits
    rw [take] at ran
    rw [take']
    refine Sim.skip (fun _ more => ?_) value after ran
    exact .bind (.method within (by omega)) fun method _ _ _ =>
      .pure (Member.method method) rfl rfl
  · obtain ⟨kind, last, -, taken, ran, again⟩ := (Sim.otherMember calm).split_bind ran
    obtain ⟨rfl, same⟩ := Prod.mk.inj (Except.ok.inj ran)
    obtain rfl := left_inj.mp same
    refine ⟨.other ⟨⟨start.length, last.length, within, shorter⟩, attributes, kind⟩, ?_, ?_⟩
    · simp only [length_left]
      rfl
    · rw [bind_of_ok again, extentFrom_bind, length_right, length_right]
      rfl

theorem member_right {after : List Lexeme} {value : Member Extent} (calm : w.Calm)
    (within : ahead.length ≤ w.size) (ran : member (w.left ahead) = .ok (value, w.left after))
    (shorter : after.length < ahead.length) :
    ∃ x, value = w.here x ∧ member (w.right ahead) = .ok (w.there x, w.right after) := by
  rw [Parse.member, mark_bind] at ran ⊢
  obtain ⟨attributes, first, le, -, ran, again⟩ := (Sim.attributes within).split_bind ran
  obtain ⟨visibility, second, le', -, ran, again'⟩ :=
    (Sim.visibility (le.trans within)).split_bind ran
  obtain ⟨_, third, le'', -, ran, again''⟩ := Sim.ate.split_bind ran
  rw [bind_of_ok again, bind_of_ok again', bind_of_ok again'']
  exact memberRest_right calm within (by omega) ran shorter

theorem Sim.members (calm : w.Calm) (within : ahead.length ≤ w.size) :
    w.Agree Parse.members Parse.members ahead := by
  unfold Parse.members
  refine .many fun before after items more le ran shorter => ?_
  rw [memberStep, at?_bind, left_head] at ran
  rw [memberStep, at?_bind, right_head]
  split_ifs at ran ⊢
  · obtain ⟨same, stays⟩ := Prod.mk.inj (Except.ok.inj ran)
    obtain ⟨rfl, rfl⟩ := Prod.mk.inj same
    obtain rfl := left_inj.mp stays
    exact ⟨[], rfl, rfl⟩
  · have full : (w.left before).isEmpty = false := by simp [left]
    have full' : (w.right before).isEmpty = false := by simp [right]
    rw [get_bind] at ran ⊢
    simp only [full, full', Bool.false_eq_true, if_false] at ran ⊢
    obtain ⟨member, left, taken, same⟩ := bind_eq_ok.mp ran
    cases same
    obtain ⟨x, rfl, taken'⟩ := member_right calm (le.trans within) taken (shorter rfl)
    exact ⟨[x], rfl, bind_of_ok taken'⟩

theorem Sim.implBody (calm : w.Calm) (within : ahead.length ≤ w.size) :
    w.Agree Parse.implBody Parse.implBody ahead := by
  unfold Parse.implBody
  refine .expect fun rest fewer => ?_
  exact .bind (.attributes (by omega)) fun _ after le _ => .members calm (by omega)

theorem Sim.implGenerics (within : ahead.length ≤ w.size) :
    w.Agree Parse.implGenerics Parse.implGenerics ahead := by
  unfold Parse.implGenerics
  rw [Agree, at?_bind, at?_bind, peekAt_bind, peekAt_bind,
    left_both (stop_is (by decide)) fun second => !second.any (·.isPunct "<")]
  exact .ite (fun _ => .generics within) fun _ => .pure (Generics.mk none [] "") rfl rfl

theorem Sim.traitAndType {first : Ty w.Place} (within : ahead.length ≤ w.size) :
    w.Agree (Parse.traitAndType (w.here first)) (Parse.traitAndType (w.there first)) ahead := by
  cases first with
  | path path =>
    change w.Sim ((Parse.ty false >>= fun ty => Pure.pure (some (w.here path), ty)) _)
      ((Parse.ty false >>= fun ty => Pure.pure (some (w.there path), ty)) _)
    exact .bind (.ty within) fun ty _ _ _ => .pure (some path, ty) rfl rfl
  | _ => exact .of_error

theorem Sim.implTarget {negative : Bool} {first : Ty w.Place} (within : ahead.length ≤ w.size) :
    w.Agree (Parse.implTarget negative (w.here first))
      (Parse.implTarget negative (w.there first)) ahead := by
  unfold Parse.implTarget
  refine .eat (fun rest fewer => .traitAndType (by omega)) ?_
  simp only [Bool.false_eq_true, if_false]
  exact .ite (fun _ => .of_error) fun _ => .pure (none, first) rfl rfl

theorem Sim.implTypes {negative : Bool} (within : ahead.length ≤ w.size) :
    w.Agree (Parse.implTypes negative) (Parse.implTypes negative) ahead := by
  unfold Parse.implTypes
  exact .bind (.ty within) fun first _ fewer _ => .implTarget (by omega)

set_option synthInstance.maxSize 2000 in
theorem Sim.implFront (calm : w.Calm) (within : ahead.length ≤ w.size) :
    w.Agree Parse.implFront Parse.implFront ahead := by
  unfold Parse.implFront
  refine .bind .ate fun _ first le _ => .bind .ate fun markedUnsafe second le' _ => ?_
  refine .expect fun rest fewer => ?_
  refine .bind (.implGenerics (by omega)) fun generics third le'' _ => ?_
  rw [Agree, at?_bind, at?_bind, kindAt?_bind, kindAt?_bind,
    left_both (stop_is (by decide)) fun second => second.any (·.kind = .ident)]
  generalize ((w.right third)[0]?.any (·.is "!") &&
    (w.right third)[1]?.any (·.kind = .ident)) = negative
  refine .skip fun _ more => ?_
  refine .bind (.implTypes (by omega)) fun target fourth fewer' _ => ?_
  refine .bind (.whereClause generics) fun generics fifth fewer'' _ => ?_
  exact .bind (.implBody calm (by omega)) fun members _ _ _ =>
    .pure (markedUnsafe, generics, target, negative, members) rfl rfl

end Window

end ActorGlue
