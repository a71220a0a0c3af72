import ActorGlue.Proofs.Parse.Progress
import ActorGlue.Proofs.Token.Joined

/-!
# Balanced lexemes

Lexemes that owe nothing at their end and never too little before it are what a group may hold, and
what the parser collects. They are the well nested ones, in which every delimiter has its partner
and groups do not cross.
-/

namespace ActorGlue

variable {close : Lexeme}

/-- All lexemes are tokens. -/
def Tokens (lexemes : List Lexeme) : Prop :=
  ∀ lexeme ∈ lexemes, lexeme.IsToken

/-- Every delimiter has its partner, and groups do not cross. -/
inductive WellNested : List Lexeme → Prop
  | nil : WellNested []
  | plain {lexeme : Lexeme} {rest : List Lexeme} :
      lexeme.isDelimiter = false → WellNested rest → WellNested (lexeme :: rest)
  | group {opener close : Lexeme} {inside rest : List Lexeme} :
      opener.closer? = some close.text → close.isCloser → WellNested inside → WellNested rest →
      WellNested (opener :: (inside ++ close :: rest))

section Owing

variable {owed after : List String} {lexeme : Lexeme} {lexemes : List Lexeme}

theorem owing_of_plain (plain : lexeme.isDelimiter = false) : lexeme.owing owed = some owed := by
  simp only [Lexeme.isDelimiter, Bool.or_eq_false_iff, Option.isSome_eq_false_iff,
    Option.isNone_iff_eq_none] at plain
  simp [Lexeme.owing, plain]

/-- Only delimiters change what is owed. -/
theorem owe_delimiters (owed : List String) (lexemes : List Lexeme) :
    owe owed (delimiters lexemes) = owe owed lexemes := by
  induction lexemes generalizing owed with
  | nil => rfl
  | cons lexeme rest ih =>
    cases delimiter : lexeme.isDelimiter with
    | true =>
      rw [delimiters, List.filter_cons_of_pos delimiter, owe_cons, owe_cons]
      exact congrArg _ (funext ih)
    | false =>
      rw [delimiters, List.filter_cons_of_neg (by simp [delimiter]), owe_cons,
        owing_of_plain delimiter, Option.bind_some]
      exact ih owed

theorem Balanced.plain_cons (plain : lexeme.isDelimiter = false) (balanced : Balanced lexemes) :
    Balanced (lexeme :: lexemes) := by
  rw [Balanced, owe_cons, owing_of_plain plain, Option.bind_some]
  exact balanced

theorem Balanced.intercalate {between : List Lexeme} (separates : Balanced between)
    {lists : List (List Lexeme)} (each : ∀ list ∈ lists, Balanced list) :
    Balanced (between.intercalate lists) := by
  induction lists with
  | nil => rfl
  | cons list rest ih =>
    obtain ⟨first, others⟩ := List.forall_mem_cons.mp each
    cases rest with
    | nil => simpa using first
    | cons next rest =>
      rw [List.intercalate_cons_cons]
      exact (first.append separates).append (ih others)

end Owing

theorem wellNested_iff_balanced {lexemes : List Lexeme} :
    WellNested lexemes ↔ Balanced lexemes := by
  constructor
  · intro nested
    induction nested with
    | nil => rfl
    | plain plain _ ih => exact .plain_cons plain ih
    | group opens closes _ _ ih ih' => simpa using (ih.enclosed opens closes).append ih'
  · intro balanced
    induction size : lexemes.length using Nat.strong_induction_on generalizing lexemes with
    | _ size ih =>
      subst size
      cases lexemes with
      | nil => exact .nil
      | cons lexeme rest =>
        rw [Balanced, owe_cons] at balanced
        obtain ⟨next, first, pays⟩ := Option.bind_eq_some_iff.mp balanced
        cases opens : lexeme.closer? with
        | some closer =>
          obtain rfl : [closer] = next := Option.some.inj ((owing_of_opener opens).symm.trans first)
          obtain ⟨inside, close, after, rfl, inner, closes, rfl, outer⟩ := Parse.exists_close pays
          exact .group opens closes (ih _ (by simp) inner rfl)
            (ih _ (by simp; omega) outer rfl)
        | none =>
          have plain : lexeme.isDelimiter = false := by
            by_contra closes
            simp_all [Lexeme.isDelimiter, Lexeme.owing]
          obtain rfl : [] = next := Option.some.inj ((owing_of_plain plain).symm.trans first)
          exact .plain plain (ih _ (by simp) pays rfl)

namespace Parse

/-- A step through balanced lexemes takes one of them or a group, and leaves balanced ones. -/
theorem collectStep_of_balanced {lexeme : Lexeme} {lexemes : List Lexeme} (closes : close.isCloser)
    (balanced : Balanced (lexeme :: lexemes)) (rest : List Lexeme) :
    ∃ taken left, lexeme :: lexemes = taken ++ left ∧ taken ≠ [] ∧ Balanced left ∧
      collectStep [close.text] false 0 (lexeme :: lexemes ++ rest) =
        .ok ((taken, some 0), left ++ rest) := by
  have goes (open_ : lexeme.isCloser = false) : lexeme.isPunctOf [close.text] = false := by
    simp only [Lexeme.isCloser, Lexeme.isPunctOf, Bool.and_eq_true, Bool.and_eq_false_iff,
      decide_eq_true_eq, decide_eq_false_iff_not, List.contains_eq_mem, List.mem_singleton] at *
    exact open_.imp_right fun missing same => missing (same ▸ closes.2)
  rw [List.cons_append, collectStep, peek_bind]
  simp only [List.getElem?_cons_zero]
  cases wellNested_iff_balanced.mpr balanced with
  | plain plain nested =>
    simp only [Lexeme.isDelimiter, Bool.or_eq_false_iff] at plain
    refine ⟨[lexeme], lexemes, rfl, by simp, wellNested_iff_balanced.mp nested, ?_⟩
    simp [goes plain.2, plain]
    rfl
  | @group _ last inside after opens closes' inner outer =>
    have open_ : lexeme.isCloser = false := by
      by_contra closes
      rw [Lexeme.closer?_of_closer (by simpa using closes)] at opens
      cases opens
    refine ⟨lexeme :: (inside ++ [last]), after, by simp, by simp,
      wellNested_iff_balanced.mp outer, ?_⟩
    have grouped := group_of_balanced opens closes' (wellNested_iff_balanced.mp inner)
      (after ++ rest)
    simp only [goes open_, opens, Bool.and_false, Bool.false_eq_true, if_false,
      Option.isSome_some, if_true, List.append_assoc, List.cons_append]
    rw [bind_of_ok grouped]
    rfl

/-- Balanced lexemes are collected up to a closing delimiter. -/
theorem collectUntil_of_balanced {lexemes : List Lexeme} (closes : close.isCloser)
    (balanced : Balanced lexemes) (rest : List Lexeme) :
    collectUntil [close.text] false (lexemes ++ close :: rest) = .ok (lexemes, close :: rest) := by
  have loops (fuel : Nat) (lexemes : List Lexeme) (balanced : Balanced lexemes)
      (enough : lexemes.length < fuel) :
      loopUpTo (collectStep [close.text] false) fuel 0 (lexemes ++ close :: rest) =
        .ok (lexemes, close :: rest) := by
    induction fuel generalizing lexemes with
    | zero => omega
    | succ fuel ih =>
      rw [loopUpTo]
      cases lexemes with
      | nil =>
        have stops : close.isPunctOf [close.text] := by
          simp only [Lexeme.isCloser, Lexeme.isPunctOf, Bool.and_eq_true,
            decide_eq_true_eq] at closes ⊢
          exact ⟨closes.1, by simp⟩
        have taken : collectStep [close.text] false 0 (close :: rest) =
            .ok (([], none), close :: rest) := by
          rw [collectStep, peek_bind]
          simp [stops]
          rfl
        rw [List.nil_append, bind_of_ok taken]
        rfl
      | cons lexeme lexemes =>
        obtain ⟨taken, left, same, some, balanced, step⟩ :=
          collectStep_of_balanced closes balanced (close :: rest)
        have shorter : left.length < fuel := by
          have lengths := congrArg List.length same
          have positive := List.length_pos_of_ne_nil some
          simp only [List.length_append, List.length_cons] at lengths enough
          omega
        rw [bind_of_ok step, same]
        exact bind_of_ok (ih left balanced shorter)
  refine loops _ lexemes balanced ?_
  simp only [List.length_append]
  omega

end Parse

end ActorGlue
