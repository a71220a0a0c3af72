import ActorGlue.Parse.Basic
import Mathlib.Tactic.SplitIfs

/-!
# Matching brackets

Lexemes change the closers that are owed: an opening delimiter adds its closer and a closing one
pays the innermost. Behind an opening delimiter there are three cases: its group is closed, or a
closer comes first that does not fit the innermost open group, or the lexemes end. Splitting off a
group tells them apart.
-/

namespace ActorGlue

/-- The closers owed after a lexeme, the innermost first; none if it closes what is not open. -/
def Lexeme.owing (owed : List String) (lexeme : Lexeme) : Option (List String) :=
  match lexeme.closer? with
  | some closer => some (closer :: owed)
  | none =>
    if !lexeme.isCloser then some owed
    else
      match owed with
      | closer :: outer => if lexeme.text = closer then some outer else none
      | [] => none

/-- The closers owed after several lexemes. -/
def owe (owed : List String) (lexemes : List Lexeme) : Option (List String) :=
  lexemes.foldlM Lexeme.owing owed

/-- Every group that the lexemes open they close, and no other one. -/
def Balanced (lexemes : List Lexeme) : Prop :=
  owe [] lexemes = some []

instance (lexemes : List Lexeme) : Decidable (Balanced lexemes) :=
  inferInstanceAs (Decidable (owe [] lexemes = some []))

section Owing

variable {owed after : List String} {lexeme close : Lexeme} {lexemes : List Lexeme}

/-- What is owed further out stays owed. -/
theorem owing_append (h : lexeme.owing owed = some after) (outer : List String) :
    lexeme.owing (owed ++ outer) = some (after ++ outer) := by
  unfold Lexeme.owing at h ⊢
  split at h
  · obtain rfl := Option.some.inj h
    rfl
  · split_ifs at h ⊢ with plain
    · obtain rfl := Option.some.inj h
      rfl
    · cases owed with
      | nil => cases h
      | cons closer rest =>
        simp only [List.cons_append] at h ⊢
        split_ifs at h ⊢
        obtain rfl := Option.some.inj h
        rfl

theorem owe_cons : owe owed (lexeme :: lexemes) = (lexeme.owing owed).bind (owe · lexemes) :=
  List.foldlM_cons

theorem owe_append (first second : List Lexeme) :
    owe owed (first ++ second) = (owe owed first).bind (owe · second) :=
  List.foldlM_append

theorem owe_outer (h : owe owed lexemes = some after) (outer : List String) :
    owe (owed ++ outer) lexemes = some (after ++ outer) := by
  induction lexemes generalizing owed with
  | nil =>
    obtain rfl := Option.some.inj h
    rfl
  | cons lexeme rest ih =>
    rw [owe_cons] at h ⊢
    obtain ⟨middle, first, rest⟩ := Option.bind_eq_some_iff.mp h
    rw [owing_append first, Option.bind_some]
    exact ih rest

theorem Balanced.owe (balanced : Balanced lexemes) (owed : List String) :
    owe owed lexemes = some owed :=
  owe_outer balanced owed

theorem Balanced.append {first second : List Lexeme} (balanced : Balanced first)
    (balanced' : Balanced second) : Balanced (first ++ second) := by
  rw [Balanced, owe_append, balanced, Option.bind_some, balanced']

theorem Lexeme.closer?_of_closer (closes : lexeme.isCloser) : lexeme.closer? = none := by
  simp only [Lexeme.isCloser, Lexeme.isPunctOf, Bool.and_eq_true, decide_eq_true_eq,
    List.contains_eq_mem, List.mem_cons, List.not_mem_nil, or_false] at closes
  obtain ⟨punct, text⟩ := closes
  rw [Lexeme.closer?, if_pos punct]
  obtain text | text | text := text <;> rw [text] <;> rfl

theorem owing_of_opener {closer : String} (opens : lexeme.closer? = some closer) :
    lexeme.owing owed = some (closer :: owed) := by
  simp [Lexeme.owing, opens]

theorem owing_of_closer {closer : String} (closes : lexeme.isCloser) :
    lexeme.owing (closer :: owed) = if lexeme.text = closer then some owed else none := by
  simp [Lexeme.owing, Lexeme.closer?_of_closer closes, closes]

/-- Only a closer that does not fit the innermost open group is refused. -/
theorem owing_eq_none : lexeme.owing owed = none ↔
    lexeme.isCloser ∧ owed.head? ≠ some lexeme.text := by
  cases opens : lexeme.closer? with
  | some closer =>
    have open_ : ¬lexeme.isCloser := fun closes => by
      rw [Lexeme.closer?_of_closer closes] at opens
      cases opens
    simp [owing_of_opener opens, open_]
  | none =>
    cases closes : lexeme.isCloser <;> cases owed <;>
      simp [Lexeme.owing, opens, closes, eq_comm]

theorem Balanced.enclosed {opener : Lexeme} (balanced : Balanced lexemes)
    (opens : opener.closer? = some close.text) (closes : close.isCloser) :
    Balanced (opener :: (lexemes ++ [close])) := by
  rw [Balanced, owe_cons, owing_of_opener opens, Option.bind_some, owe_append, balanced.owe,
    Option.bind_some, owe_cons, owing_of_closer closes, if_pos rfl]
  rfl

end Owing

namespace Parse

variable {closer : String} {owed left : List String} {inside rest : List Lexeme}

/-- How lexemes end the group that is open in front of them, with others open inside of it, and
what is then split off. -/
inductive GroupEnds (closer : String) (owed : List String) :
    List Lexeme → Except GroupFault (List Lexeme × List Lexeme) → Prop
  | closed {inside after : List Lexeme} {close : Lexeme} : owe owed inside = some [] →
      close.isCloser → close.text = closer →
      GroupEnds closer owed (inside ++ close :: after) (.ok (inside ++ [close], after))
  | wrong {left : List String} {inside after : List Lexeme} {wrong : Lexeme} :
      owe owed inside = some left → wrong.isCloser → (left ++ [closer]).head? ≠ some wrong.text →
      GroupEnds closer owed (inside ++ wrong :: after)
        (.error (.mismatched wrong.text (after.length + 1)))
  | missing {left : List String} {rest : List Lexeme} : owe owed rest = some left →
      GroupEnds closer owed rest (.error .unclosed)

theorem exists_groupEnds (closer : String) (owed : List String) (rest : List Lexeme) :
    ∃ split, GroupEnds closer owed rest split := by
  induction rest generalizing owed with
  | nil => exact ⟨_, .missing rfl⟩
  | cons lexeme rest ih =>
    cases step : lexeme.owing owed with
    | some next =>
      have later {lexemes : List Lexeme} : owe owed (lexeme :: lexemes) = owe next lexemes := by
        rw [owe_cons, step, Option.bind_some]
      obtain ⟨split, ends⟩ := ih next
      cases ends with
      | closed pays closes fits =>
        rw [← List.cons_append]
        exact ⟨_, .closed (later.trans pays) closes fits⟩
      | wrong pays closes wrongly =>
        rw [← List.cons_append]
        exact ⟨_, .wrong (later.trans pays) closes wrongly⟩
      | missing pays => exact ⟨_, .missing (later.trans pays)⟩
    | none =>
      obtain ⟨closes, unfit⟩ := owing_eq_none.mp step
      rw [← List.nil_append (lexeme :: rest)]
      cases owed with
      | nil =>
        by_cases fits : lexeme.text = closer
        · exact ⟨_, .closed rfl closes fits⟩
        · exact ⟨_, .wrong rfl closes (by simpa [eq_comm] using fits)⟩
      | cons innermost outer => exact ⟨_, .wrong rfl closes unfit⟩

theorem splitOwed_nil (rest : List Lexeme) : splitOwed [] rest = .ok ([], rest) := by
  cases rest <;> rfl

/-- Splitting off goes on with what is owed after the next lexeme. -/
theorem splitOwed_cons (owed : List String) (closer : String) (lexeme : Lexeme)
    (rest : List Lexeme) : splitOwed (owed ++ [closer]) (lexeme :: rest) =
      match lexeme.owing (owed ++ [closer]) with
      | some next => (splitOwed next rest).map fun split => (lexeme :: split.1, split.2)
      | none => .error (.mismatched lexeme.text (rest.length + 1)) := by
  obtain ⟨innermost, outer, same⟩ := List.exists_cons_of_ne_nil
    (List.append_ne_nil_of_right_ne_nil owed (List.cons_ne_nil closer []))
  simp only [same, splitOwed, Lexeme.owing]
  cases lexeme.closer? with
  | some inner => rfl
  | none => dsimp only; split_ifs <;> rfl

/-- Lexemes that close no group further out are passed over. -/
theorem splitOwed_append (pays : owe owed inside = some left) (closer : String)
    (rest : List Lexeme) : splitOwed (owed ++ [closer]) (inside ++ rest) =
      (splitOwed (left ++ [closer]) rest).map fun split => (inside ++ split.1, split.2) := by
  induction inside generalizing owed with
  | nil =>
    obtain rfl := Option.some.inj pays
    rw [List.nil_append]
    cases splitOwed (owed ++ [closer]) rest <;> rfl
  | cons lexeme inside ih =>
    rw [owe_cons] at pays
    obtain ⟨middle, first, pays⟩ := Option.bind_eq_some_iff.mp pays
    rw [List.cons_append, splitOwed_cons, owing_append first]
    dsimp only
    rw [ih pays]
    cases splitOwed (left ++ [closer]) rest <;> rfl

theorem GroupEnds.splitOwed_eq {split : Except GroupFault (List Lexeme × List Lexeme)}
    (ends : GroupEnds closer owed rest split) : splitOwed (owed ++ [closer]) rest = split := by
  cases ends with
  | @closed inside after close pays closes fits =>
    rw [splitOwed_append pays, splitOwed_cons, List.nil_append, owing_of_closer closes, if_pos fits]
    dsimp only
    rw [splitOwed_nil]
    rfl
  | wrong pays closes unfit =>
    rw [splitOwed_append pays, splitOwed_cons, owing_eq_none.mpr ⟨closes, unfit⟩]
    rfl
  | @missing left _ pays =>
    have split := splitOwed_append pays closer []
    rw [List.append_nil] at split
    rw [split]
    cases left <;> rfl

/-- What pays for an open group closes it, and what stands behind is balanced. -/
theorem exists_close (pays : owe [closer] rest = some []) :
    ∃ inside close after, rest = inside ++ close :: after ∧ Balanced inside ∧ close.isCloser ∧
      close.text = closer ∧ Balanced after := by
  have outer {lexemes : List Lexeme} {left : List String} (owes : owe [] lexemes = some left) :
      owe [closer] lexemes = some (left ++ [closer]) := owe_outer owes [closer]
  obtain ⟨split, ends⟩ := exists_groupEnds closer [] rest
  cases ends with
  | @closed inside after close balanced closes fits =>
    rw [owe_append, outer balanced, Option.bind_some, List.nil_append, owe_cons,
      owing_of_closer closes, if_pos fits, Option.bind_some] at pays
    exact ⟨inside, close, after, rfl, balanced, closes, fits, pays⟩
  | wrong owes closes unfit =>
    rw [owe_append, outer owes, Option.bind_some, owe_cons,
      owing_eq_none.mpr ⟨closes, unfit⟩] at pays
    cases pays
  | missing owes =>
    rw [outer owes] at pays
    simp at pays

end Parse

end ActorGlue
