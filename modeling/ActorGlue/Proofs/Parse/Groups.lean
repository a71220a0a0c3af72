import ActorGlue.Proofs.Outcome
import ActorGlue.Proofs.Parse.Balance
import ActorGlue.Proofs.Parse.Placing

/-!
# Groups are matched brackets

A group is an opening delimiter with its closer at the end and well nested lexemes between them. A
source text is split at its groups, and nowhere else; where a group does not end, the closer that
does not fit is reported, or else the opening delimiter.
-/

namespace ActorGlue

/-- An opening delimiter with its closer at the end, and what is between them is well nested. -/
def IsGroup (lexemes : List Lexeme) : Prop :=
  ∃ opener inside close, lexemes = opener :: (inside ++ [close]) ∧
    opener.closer? = some close.text ∧ close.isCloser ∧ WellNested inside

/-- Behind an opening delimiter with the closer `first`, lexemes that close nothing further out end
with a closer that does not fit the innermost open group. -/
def ClosesWrong (first : String) (before : List Lexeme) (wrong : Lexeme) : Prop :=
  ∃ owed, owe [] before = some owed ∧ wrong.isCloser ∧ (owed ++ [first]).head? ≠ some wrong.text

/-- Exactly the groups are split off. -/
theorem Parse.group_eq_ok_iff {ahead taken left : List Lexeme} :
    Parse.group ahead = .ok (taken, left) ↔ ahead = taken ++ left ∧ IsGroup taken := by
  constructor
  · intro split
    obtain ⟨opener, inside, close, same, rfl, opens, closes, balanced⟩ := exists_of_group split
    exact ⟨by simp [same],
      opener, inside, close, rfl, opens, closes, wellNested_iff_balanced.mpr balanced⟩
  · rintro ⟨same, opener, inside, close, rfl, opens, closes, nested⟩
    rw [same, ← group_of_balanced opens closes (wellNested_iff_balanced.mp nested) left]
    simp

/-- A literal does not count, whatever brackets are in its text. -/
theorem wellNested_literal {literal : Lexeme} (other : literal.kind ≠ .punct)
    (before after : List Lexeme) :
    WellNested (before ++ literal :: after) ↔ WellNested (before ++ after) := by
  have plain : literal.isDelimiter = false := by
    simp [Lexeme.isDelimiter, Lexeme.closer?, Lexeme.isCloser, Lexeme.isPunctOf, other]
  simp only [wellNested_iff_balanced, Balanced, owe_append, owe_cons, owing_of_plain plain,
    Option.bind_some]

/-- Splitting off a group of a source text matches brackets. It succeeds exactly if the lexemes
ahead begin with a group, takes that group, and there is only one. Otherwise the first closer that
does not fit is reported at its place; if there is none, the opening delimiter is, up to the end of
the text. Literals do not count. -/
theorem groups_match_brackets {text : List Char} {source : Source}
    (read : Source.read text = .ok source) {front behind : List Token} {opening : Token}
    (cut : source.tokens.toList = front ++ opening :: behind) {closer : String}
    (opens : opening.closer? = some closer) :
    let ahead := (opening :: behind).map (·.toLexeme)
    let outcome := (Parse.group ahead).mapError source.failure
    (∀ taken left, outcome = .ok (taken, left) ↔ ahead = taken ++ left ∧ IsGroup taken) ∧
    (∀ taken other, IsGroup taken → IsGroup other → taken <+: ahead → other <+: ahead →
      taken = other) ∧
    (∀ inside wrong after, behind = inside ++ wrong :: after →
      ClosesWrong closer (inside.map (·.toLexeme)) wrong.toLexeme →
      outcome = .error (.rejected ⟨.unbalanced wrong.text, wrong.span⟩)) ∧
    ((∀ taken, taken <+: ahead → ¬IsGroup taken) →
      (∀ inside wrong after, behind = inside ++ wrong :: after →
        ¬ClosesWrong closer (inside.map (·.toLexeme)) wrong.toLexeme) →
      outcome = .error (.rejected ⟨.unbalanced opening.text, ⟨opening.start, text.length⟩⟩)) ∧
    ∀ literal : Lexeme, literal.kind ≠ .punct → ∀ before after,
      WellNested (before ++ literal :: after) ↔ WellNested (before ++ after) := by
  intro ahead outcome
  have accepted : ∀ taken left, outcome = .ok (taken, left) ↔
      ahead = taken ++ left ∧ IsGroup taken := by
    intro taken left
    rw [mapError_eq_ok]
    exact Parse.group_eq_ok_iff
  refine ⟨accepted, ?_, ?_, ?_, fun literal other => wellNested_literal other⟩
  · rintro taken other grouped grouped' ⟨left, same⟩ ⟨left', same'⟩
    have split := (accepted taken left).mpr ⟨same.symm, grouped⟩
    rw [(accepted other left').mpr ⟨same'.symm, grouped'⟩] at split
    cases split
    rfl
  · rintro inside wrong after rfl ⟨owed, owes, closes, unfit⟩
    have tokens : source.tokens.toList = (front ++ opening :: inside) ++ wrong :: after := by
      rw [cut, List.append_assoc, List.cons_append]
    have failed : Parse.group ahead =
        .error (.mismatched wrong.text ((after.map (·.toLexeme)).length + 1)) := by
      simp only [ahead, List.map_cons, List.map_append]
      exact Parse.group_of_ends opens (.wrong owes closes unfit)
    have place : source.spanAt (after.length + 1) = wrong.span := by
      rw [Source.spanAt, Source.span, Source.startAt_of tokens, Nat.add_sub_cancel,
        Source.stopAt_of tokens]
      rfl
    simp only [outcome, failed, Except.mapError, Source.failure, List.length_map, place]
  · intro closed wrong
    have failed : Parse.group ahead =
        .error (.unclosed opening.text ((behind.map (·.toLexeme)).length + 1)) := by
      obtain ⟨split, ends⟩ := Parse.exists_groupEnds closer [] (behind.map (·.toLexeme))
      have found := Parse.group_of_ends opens ends
      generalize same : behind.map (·.toLexeme) = lexemes at ends found
      cases ends with
      | closed =>
        have whole := (accepted _ _).mp (mapError_eq_ok.mpr (by simpa [ahead, same] using found))
        exact absurd whole.2 (closed _ ⟨_, whole.1.symm⟩)
      | wrong owes closes unfit =>
        obtain ⟨inside, others, rfl, rfl, ended⟩ := List.map_eq_append_iff.mp same
        obtain ⟨bad, after, rfl, rfl, rfl⟩ := List.map_eq_cons_iff.mp ended
        exact absurd ⟨_, owes, closes, unfit⟩ (wrong inside bad after rfl)
      | missing => simpa [ahead, same] using found
    have size : source.size = text.length := by
      rw [Source.size, (Source.read_eq_ok.mp read).2]
    simp only [outcome, failed, Except.mapError, Source.failure, Source.spanToEnd, List.length_map,
      Source.startAt_of cut, size]

/-- A bracket that is closed by the wrong one, with a group inside that has a bracket in a text. -/
theorem groups_match_brackets_text :
    let tokens : List Token := [⟨⟨.punct, "("⟩, 0, 1⟩, ⟨⟨.punct, "["⟩, 1, 2⟩,
      ⟨⟨.str, "\")\""⟩, 2, 5⟩, ⟨⟨.punct, "]"⟩, 5, 6⟩, ⟨⟨.punct, "\x7d"⟩, 6, 7⟩]
    let source : Source := ⟨"([\")\"]\x7d".toList, tokens.toArray⟩
    Source.read "([\")\"]\x7d".toList = .ok source ∧
    (Parse.group (source.lexemes.drop 1)).mapError source.failure =
      .ok ([⟨.punct, "["⟩, ⟨.str, "\")\""⟩, ⟨.punct, "]"⟩], [⟨.punct, "\x7d"⟩]) ∧
    (Parse.group source.lexemes).mapError source.failure =
      .error (.rejected ⟨.unbalanced "\x7d", ⟨6, 7⟩⟩) := by
  intro tokens source
  have read : Source.read "([\")\"]\x7d".toList = .ok source :=
    Source.read_eq_ok.mpr ⟨by decide +kernel, rfl⟩
  have atFirst : tokens = [] ++ ⟨⟨.punct, "("⟩, 0, 1⟩ :: tokens.drop 1 := rfl
  have atSecond : tokens = tokens.take 1 ++ ⟨⟨.punct, "["⟩, 1, 2⟩ :: tokens.drop 2 := rfl
  refine ⟨read, ?_, ?_⟩
  · obtain ⟨accepted, -⟩ := groups_match_brackets read atSecond rfl
    exact (accepted _ _).mpr ⟨rfl, _, _, _, rfl, rfl, rfl, .plain rfl .nil⟩
  · obtain ⟨-, -, wrong, -⟩ := groups_match_brackets read atFirst rfl
    exact wrong (tokens.tail.take 3) ⟨⟨.punct, "\x7d"⟩, 6, 7⟩ [] rfl
      ⟨[], by decide, rfl, by decide⟩

end ActorGlue
