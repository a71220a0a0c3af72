import ActorGlue.Annotation
import ActorGlue.Proofs.Token.Written

/-!
# Literals that are written

A text that is written as a literal is one string token in front of anything, and the value of the
token is the text. Writing escapes a character by a backslash and one more character, so the scanner
passes over both of them and the reader gives the character back.
-/

namespace ActorGlue

namespace Text

/-- A character is written as itself, if it is neither a backslash nor a quote, or as an escape that
stands for it. -/
theorem escapeChar_cases (c : Char) :
    (c ≠ '\\' ∧ c ≠ '"' ∧ escapeChar c = [c]) ∨
      ∃ d, escapeChar c = ['\\', d] ∧ ∀ rest, readEscape (d :: rest) = ([c], 1) := by
  unfold escapeChar
  split_ifs with backslash quote newline tab
  · exact .inr ⟨'\\', rfl, fun rest => by subst backslash; rfl⟩
  · exact .inr ⟨'"', rfl, fun rest => by subst quote; rfl⟩
  · exact .inr ⟨'n', rfl, fun rest => by subst newline; rfl⟩
  · exact .inr ⟨'t', rfl, fun rest => by subst tab; rfl⟩
  · exact .inl ⟨backslash, quote, rfl⟩

theorem escape_cons (c : Char) (content : List Char) :
    escape (c :: content) = escapeChar c ++ escape content :=
  rfl

/-- What is written between quotes is read back. -/
theorem unescape_escape (content : List Char) : unescape (escape content) = content := by
  induction content with
  | nil => rfl
  | cons c content ih =>
    rw [unescape] at ih ⊢
    rw [escape_cons]
    rcases escapeChar_cases c with ⟨plain, -, same⟩ | ⟨d, same, read⟩
    · simp [same, unescapeFrom, plain, ih]
    · simp [same, unescapeFrom, read, ih]

/-- A literal has the text it was written for as its value. -/
theorem literalValue_literal (text : String) :
    literalValue (literal text).toList = text.toList := by
  have written : (literal text).toList = '"' :: (escape text.toList ++ ['"']) := by simp [literal]
  rw [written, literalValue]
  · simp [unescape_escape]
  · simp

end Text

namespace Scan

/-- The quote that ends a literal is the first one that is not escaped. -/
theorem quotedWidth?_escape (content ahead : List Char) :
    quotedWidth? '"' (Text.escape content ++ '"' :: ahead) =
      some ((Text.escape content).length + 1) := by
  induction content with
  | nil => rfl
  | cons c content ih =>
    rw [Text.escape_cons]
    rcases Text.escapeChar_cases c with ⟨plain, other, same⟩ | ⟨d, same, -⟩
    · rw [same, List.singleton_append, List.cons_append, quotedWidth?_plain plain, if_neg other, ih]
      rfl
    · rw [same]
      simp [quotedWidth?, ih]

/-- A literal is cut off in front of anything. -/
theorem isCut_literal (text : String) (ahead : List Char) :
    Piece.IsCut ⟨some .str, (Text.literal text).toList⟩ ahead := by
  refine ⟨'"', Text.escape text.toList ++ ['"'], by simp [Text.literal], ?_⟩
  have width := quotedWidth?_escape text.toList ahead
  have quoted : ∀ body, cut '"' body =
      closeLiteral .str "string literal" 1 1 (quotedWidth? '"' body) := fun _ => rfl
  rw [quoted, List.append_assoc, List.singleton_append, width]
  simp [closeLiteral]

theorem reads_literal (text : String) (ahead : List Char) :
    Reads (Text.literal text).toList [⟨.str, Text.literal text⟩] ahead :=
  @reads_of_isCut ⟨.str, Text.literal text⟩ ahead (isCut_literal text ahead)

end Scan

/-- The token of a literal stands for the text it was written for. -/
theorem Annotation.textValue?_literal (text : String) :
    textValue? ⟨.str, Text.literal text⟩ = some text := by
  have quote : (Text.literal text).toList.head? ≠ some 'b' := by simp [Text.literal]
  simp [textValue?, quote, Text.literalValue_literal]

end ActorGlue
