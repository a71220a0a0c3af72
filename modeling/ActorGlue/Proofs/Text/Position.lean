import ActorGlue.Text.Position
import Mathlib.Algebra.GroupWithZero.Nat
import Mathlib.Order.Monotone.Basic
import Mathlib.Order.Lattice.Nat

/-!
# Offsets and positions

A text is cut into lines at its newlines. The offsets into the text are in correspondence with the
places on its lines, the place behind the last character of a line among them: an offset is the
length of the lines before it with their newlines, and what stands before it on its own line. The
correspondence keeps the order, so offsets and positions are told apart alike.
-/

namespace ActorGlue.Text

/-- The lines of a text, without the newlines between them. -/
def lines (text : List Char) : List (List Char) :=
  text.splitOn '\n'

/-- Where the line of an index begins: behind the lines before it and their newlines. -/
def lineStart (text : List Char) (index : Nat) : Nat :=
  (((lines text).take index).map (·.length + 1)).sum

namespace Position

/-- The position stands on a line of the text, or right behind it. -/
def IsIn (position : Position) (text : List Char) : Prop :=
  ∃ index line, (lines text)[index]? = some line ∧ position.line = index + 1 ∧
    1 ≤ position.column ∧ position.column ≤ line.length + 1

/-- One position comes before another one: on an earlier line, or further left on the same. -/
def Before (first second : Position) : Prop :=
  first.line < second.line ∨ first.line = second.line ∧ first.column < second.column

/-- The number of characters before a position of a text. -/
def offset (text : List Char) (position : Position) : Nat :=
  lineStart text (position.line - 1) + position.column - 1

end Position

section Reading

/-- The position after reading one more character. -/
def Position.advance (position : Position) (c : Char) : Position :=
  if c = '\n' then ⟨position.line + 1, 1⟩ else ⟨position.line, position.column + 1⟩

theorem lastNewline_snoc (text : List Char) (c : Char) :
    lastNewline (text ++ [c]) = if c = '\n' then (text.length : Int) else lastNewline text := by
  rw [lastNewline, lastNewline, List.reverse_append, List.reverse_singleton,
    List.singleton_append, List.findIdx?_cons]
  by_cases newline : c = '\n'
  · simp [newline]
  · cases text.reverse.findIdx? (· = '\n') with
    | none => simp [newline]
    | some back =>
      simp only [newline, decide_false, Bool.false_eq_true, if_false, Option.map_some,
        List.length_append, List.length_singleton]
      omega

/-- To count newlines and to search the last one is to read character by character. -/
theorem foldl_advance (text : List Char) : lastNewline text < text.length ∧
    text.foldl Position.advance ⟨1, 1⟩ =
      ⟨text.count '\n' + 1, (text.length - lastNewline text).toNat⟩ := by
  induction text using List.reverseRecOn with
  | nil => exact ⟨by decide, rfl⟩
  | append_singleton text c ih =>
    obtain ⟨found, read⟩ := ih
    rw [List.foldl_append, read, lastNewline_snoc, List.foldl_cons, List.foldl_nil,
      Position.advance, List.length_append, List.length_singleton, List.count_append]
    by_cases newline : c = '\n'
    · simp [newline]
    · simp only [newline, if_false, Position.mk.injEq]
      rw [List.count_singleton, if_neg (by simpa using newline)]
      omega

/-- The position of an offset is where the text before it was read to. -/
theorem position_eq (text : List Char) (offset : Int) :
    position text offset = (text.take offset.toNat).foldl Position.advance ⟨1, 1⟩ := by
  have cut : text.take (max 0 (min offset text.length)).toNat = text.take offset.toNat := by
    rw [List.take_eq_take_iff]
    omega
  have length : ((text.take offset.toNat).length : Int) = max 0 (min offset text.length) := by
    rw [List.length_take]
    omega
  simp only [position, cut]
  rw [(foldl_advance _).2, length]

end Reading

section Lines

variable {text : List Char} {index : Nat} {line : List Char}

theorem lines_newline (text : List Char) : lines ('\n' :: text) = [] :: lines text := by
  rw [lines, List.splitOn, List.splitOnP_cons_eq_if_modifyHead, if_pos (by decide)]
  rfl

theorem exists_lines_cons {c : Char} (differs : c ≠ '\n') (text : List Char) :
    ∃ first others, lines text = first :: others ∧ lines (c :: text) = (c :: first) :: others := by
  obtain ⟨first, others, cut⟩ := List.exists_cons_of_ne_nil (List.splitOn_ne_nil '\n' text)
  refine ⟨first, others, cut, ?_⟩
  rw [lines, List.splitOn, List.splitOnP_cons_eq_if_modifyHead, if_neg (by simpa using differs)]
  exact congrArg (List.modifyHead (c :: ·)) cut

theorem sum_lines (text : List Char) :
    ((lines text).map (·.length + 1)).sum = text.length + 1 := by
  induction text with
  | nil => rfl
  | cons c rest ih =>
    by_cases newline : c = '\n'
    · rw [newline, lines_newline, List.map_cons, List.sum_cons, ih, List.length_cons,
        List.length_nil]
      omega
    · obtain ⟨first, others, before, after⟩ := exists_lines_cons newline rest
      rw [before] at ih
      rw [after]
      simp only [List.map_cons, List.sum_cons, List.length_cons] at ih ⊢
      omega

theorem lineStart_succ (found : (lines text)[index]? = some line) :
    lineStart text (index + 1) = lineStart text index + (line.length + 1) := by
  simp [lineStart, List.take_add_one, found]

theorem lineStart_mono (text : List Char) : Monotone (lineStart text) := by
  apply monotone_nat_of_le_succ
  intro index
  simp [lineStart, List.take_add_one]

theorem lineStart_le (text : List Char) (index : Nat) : lineStart text index ≤ text.length + 1 := by
  calc lineStart text index
      ≤ lineStart text (max index (lines text).length) := lineStart_mono text (le_max_left _ _)
    _ = ((lines text).map (·.length + 1)).sum := by
        rw [lineStart, List.take_of_length_le (le_max_right _ _)]
    _ = text.length + 1 := sum_lines text

end Lines

section Offsets

variable {text : List Char} {p q : Position}

/-- Reading from anywhere, every offset is a place on one of the lines; the first of them goes on
from the column that reading starts at. -/
theorem exists_place {text : List Char} {offset : Nat} (within : offset ≤ text.length) :
    ∃ index line column, (lines text)[index]? = some line ∧ column ≤ line.length ∧
      lineStart text index + column = offset ∧
      ∀ start : Position, (text.take offset).foldl Position.advance start =
        ⟨start.line + index, (if index = 0 then start.column else 1) + column⟩ := by
  induction text generalizing offset with
  | nil =>
    obtain rfl : offset = 0 := by simpa using within
    exact ⟨0, [], 0, rfl, le_rfl, rfl, fun start => rfl⟩
  | cons c rest ih =>
    cases offset with
    | zero =>
      obtain ⟨first, others, cut⟩ := List.exists_cons_of_ne_nil (List.splitOn_ne_nil '\n' (c :: rest))
      exact ⟨0, first, 0, by rw [lines, cut]; rfl, Nat.zero_le _, rfl, fun start => rfl⟩
    | succ offset =>
      obtain ⟨index, line, column, found, short, same, read⟩ := ih (Nat.le_of_succ_le_succ within)
      by_cases newline : c = '\n'
      · subst newline
        refine ⟨index + 1, line, column, by rw [lines_newline]; exact found, short, ?_, ?_⟩
        · rw [← same, lineStart, lineStart, lines_newline, List.take_succ_cons, List.map_cons,
            List.sum_cons, List.length_nil]
          omega
        · intro start
          rw [List.take_succ_cons, List.foldl_cons, read, Position.advance, if_pos rfl]
          simp only [ite_self, Nat.add_eq_zero_iff, one_ne_zero, and_false, if_false,
            Position.mk.injEq, and_true]
          omega
      · obtain ⟨first, others, before, after⟩ := exists_lines_cons newline rest
        rw [lineStart, before] at same
        rw [before] at found
        cases index with
        | zero =>
          obtain rfl := Option.some.inj found
          refine ⟨0, c :: first, column + 1, by rw [after]; rfl, Nat.succ_le_succ short, ?_, ?_⟩
          · rw [← same]
            rfl
          · intro start
            rw [List.take_succ_cons, List.foldl_cons, read, Position.advance, if_neg newline]
            simp only [if_true, Position.mk.injEq, true_and]
            omega
        | succ index =>
          refine ⟨index + 1, line, column, by rw [after]; exact found, short, ?_, ?_⟩
          · rw [← same, lineStart, after]
            simp only [List.take_succ_cons, List.map_cons, List.sum_cons, List.length_cons]
            omega
          · intro start
            rw [List.take_succ_cons, List.foldl_cons, read, Position.advance, if_neg newline]
            simp

/-- The position of an offset is one of the text, with that offset. -/
theorem position_of_le {offset : Nat} (within : offset ≤ text.length) :
    (position text offset).IsIn text ∧ (position text offset).offset text = offset := by
  obtain ⟨index, line, column, found, short, same, read⟩ := exists_place within
  have placed : position text offset = ⟨index + 1, column + 1⟩ := by
    rw [position_eq, Int.toNat_natCast, read]
    simp [Nat.add_comm]
  rw [placed]
  exact ⟨⟨index, line, found, rfl, by simp, by simpa using short⟩, same⟩

theorem Position.offset_lt_of_before (inside : p.IsIn text) (inside' : q.IsIn text)
    (before : p.Before q) : p.offset text < q.offset text := by
  obtain ⟨index, line, found, number, positive, short⟩ := inside
  obtain ⟨index', line', -, number', positive', -⟩ := inside'
  simp only [Position.offset, number, number', Nat.add_sub_cancel]
  rcases before with above | ⟨level, left⟩
  · have further : lineStart text (index + 1) ≤ lineStart text index' :=
      lineStart_mono text (by omega)
    rw [lineStart_succ found] at further
    omega
  · obtain rfl : index = index' := by omega
    omega

theorem Position.before_or_eq_or_before (p q : Position) : p.Before q ∨ p = q ∨ q.Before p := by
  obtain ⟨line, column⟩ := p
  obtain ⟨line', column'⟩ := q
  simp only [Position.Before, Position.mk.injEq]
  omega

/-- Positions of a text with the same offset are the same. -/
theorem Position.eq_of_offset_eq (inside : p.IsIn text) (inside' : q.IsIn text)
    (same : p.offset text = q.offset text) : p = q := by
  rcases p.before_or_eq_or_before q with before | equal | before
  · exact absurd same (offset_lt_of_before inside inside' before).ne
  · exact equal
  · exact absurd same (offset_lt_of_before inside' inside before).ne'

/-- The offset of a position lies in the text, and has that position. -/
theorem Position.position_offset (inside : p.IsIn text) :
    p.offset text ≤ text.length ∧ position text (p.offset text) = p := by
  have within : p.offset text ≤ text.length := by
    obtain ⟨index, line, found, number, positive, short⟩ := inside
    have bound := lineStart_le text (index + 1)
    rw [lineStart_succ found] at bound
    rw [Position.offset, number, Nat.add_sub_cancel]
    omega
  obtain ⟨inside', same⟩ := position_of_le within
  exact ⟨within, eq_of_offset_eq inside' inside same⟩

end Offsets

/-- Offsets and positions are in order preserving correspondence. The position of an offset into a
text stands on one of its lines, or right behind it, and the lines before it with their newlines
and what stands to the left make up the offset; every such position is that of one offset. Later
offsets have later positions, and an offset outside the text has the position of the nearest
end. -/
theorem positions_correspond (text : List Char) :
    (∀ offset : Nat, offset ≤ text.length →
      (position text offset).IsIn text ∧ (position text offset).offset text = offset) ∧
    (∀ p : Position, p.IsIn text →
      p.offset text ≤ text.length ∧ position text (p.offset text) = p) ∧
    (∀ i j : Nat, i ≤ text.length → j ≤ text.length →
      (position text i = position text j → i = j) ∧
      (i < j → (position text i).Before (position text j))) ∧
    ∀ offset : Int, (offset ≤ 0 → position text offset = position text 0) ∧
      (text.length ≤ offset → position text offset = position text text.length) := by
  refine ⟨?_, ?_, ?_, ?_⟩
  · intro offset within
    exact position_of_le within
  · intro p inside
    exact Position.position_offset inside
  · intro i j within within'
    obtain ⟨inside, same⟩ := position_of_le within
    obtain ⟨inside', same'⟩ := position_of_le within'
    refine ⟨?_, ?_⟩
    · intro equal
      rw [← same, ← same', equal]
    · intro less
      rcases (position text i).before_or_eq_or_before (position text j) with before | equal | before
      · exact before
      · rw [equal, same'] at same
        omega
      · have later := Position.offset_lt_of_before inside' inside before
        omega
  · intro offset
    refine ⟨?_, ?_⟩
    · intro early
      rw [position_eq, position_eq, Int.toNat_of_nonpos early]
      rfl
    · intro late
      rw [position_eq, position_eq, Int.toNat_natCast, List.take_length,
        List.take_of_length_le (by omega)]

/-- On two lines, one of them empty, the offset behind the newline is the start of the second. -/
theorem positions_correspond_break :
    position ['a', '\n'] 1 = ⟨1, 2⟩ ∧ position ['a', '\n'] 2 = ⟨2, 1⟩ ∧
      (position ['a', '\n'] 1).Before (position ['a', '\n'] 2) ∧
      position ['a', '\n'] 7 = position ['a', '\n'] 2 := by
  obtain ⟨-, -, ordered, ends⟩ := positions_correspond ['a', '\n']
  refine ⟨rfl, rfl, ?_, ?_⟩
  · exact (ordered 1 2 (by decide) (by decide)).2 (by decide)
  · exact (ends 7).2 (by decide)

end ActorGlue.Text
