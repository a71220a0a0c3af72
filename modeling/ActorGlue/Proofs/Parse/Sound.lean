import ActorGlue.Proofs.Parse.Regularity

/-!
# Sound items

The names and the types of an item that is read from tokens are sound.
-/

namespace ActorGlue

open Parse

namespace Parse

variable {all : List Lexeme} (tokens : Tokens all)

include tokens

theorem peekAt_yields (distance : Nat) :
    Yields all (peekAt distance) fun found =>
      ∀ lexeme ∈ found, lexeme.kind = .ident → IsWord lexeme.text := by
  refine ⟨fun behind => .peekAt (.pure fun lexeme member word => ?_)⟩
  exact isWord_of_ident (tokens lexeme (behind.mem (List.mem_of_getElem? member))) word

theorem expectIdent_yields {wanted : String} : Yields all (expectIdent wanted) IsWord := by
  refine ⟨fun behind => ⟨fun h => ?_⟩⟩
  obtain ⟨lexeme, word, rfl, rfl⟩ := expectIdent_eq_ok h
  exact isWord_of_ident (tokens lexeme (behind.mem List.mem_cons_self)) word

theorem isJoin_of_located {elem array : Extent} {length : String}
    (located : Located all elem array length) : IsJoin length := by
  obtain ⟨front, semicolon, lexemes, close, back, rfl, -, -, balanced, -, joined⟩ := located
  exact ⟨lexemes, fun lexeme member => tokens lexeme (by simp [member]), balanced, joined⟩

theorem ty_yields (sum : Bool) : Yields all (ty sum) Ty.Sound := by
  refine ⟨fun behind => .mark (((tells_grammar tokens _).ty behind).mono fun told => ?_)⟩
  refine fun part within => (told.settled part within).mono fun _ _ _ _ located => ?_
  exact isJoin_of_located tokens located

end Parse

/-- Names are words, and types are sound. -/
def Known.sound : Known :=
  ⟨fun _ => True, IsWord, Ty.Sound⟩

/-- The names and the types of an item that is read from tokens are sound. -/
theorem Parse.item_sound {all : List Lexeme} (tokens : Tokens all) :
    Yields all item Known.sound.item :=
  item_yields
    ⟨.any, fun _ => expectIdent_yields tokens, peekAt_yields tokens, ty_yields tokens⟩

end ActorGlue
