import ActorGlue.Glue.Source
import ActorGlue.Interface.Declaration

/-!
# Expansion

An annotated item is expanded into itself with the text generated for it. In a file every
annotated item is expanded on its own: one that fails is replaced by the directives of its
diagnostics, and the others are not affected.
-/

namespace ActorGlue

/-- The names that generated text uses. -/
structure Naming where
  sdk : String := sdkName
  symbol : String := invokeSymbol
  deriving DecidableEq, Repr

/-- The expansion of one item. -/
structure Expansion where
  source : String
  program : Program
  module : Glue.Module
  warnings : List Diagnostic

/-- The warning about a shared method number. -/
def Collision.warning (collision : Collision) : Diagnostic :=
  .warning ("binding " ++ toString collision.binding.value ++ " is shared by " ++
    ", ".intercalate collision.methods ++ "; '" ++ collision.methods.headD "" ++
    "' is dispatched")

/-- The glue of one declaration. -/
def Declaration.module (symbol : String) : Declaration → Glue.Module
  | .state declared => ⟨[Glue.lowerState declared], none⟩
  | .payload _ => ⟨[], none⟩
  | .actor declared => ⟨[], some (Glue.lowerActor declared symbol)⟩

/-- The text generated for a declaration around the text of its item. -/
def Declaration.emit (naming : Naming) (item : String) : Declaration → Glue.Emit String
  | .state declared => Glue.emitState naming.sdk item (Glue.lowerState declared)
  | .payload _ => .ok (Glue.emitPayload naming.sdk item)
  | .actor declared =>
      Glue.emitActor naming.sdk item (Glue.lowerActor declared naming.symbol)

theorem Declaration.emit_isSome (naming : Naming) (item : String) (declaration : Declaration) :
    (declaration.emit naming item).toOption.isSome := by
  cases declaration with
  | state declared =>
    obtain ⟨text, made⟩ := Glue.exists_emitState naming.sdk item declared
    rw [Declaration.emit, made]
    rfl
  | payload declared => rfl
  | actor declared =>
    obtain ⟨text, made⟩ := Glue.exists_emitActor naming.sdk item declared naming.symbol
    rw [Declaration.emit, made]
    rfl

/-- The text generated for a declaration, which there always is. -/
def Declaration.source (naming : Naming) (item : String) (declaration : Declaration) : String :=
  (declaration.emit naming item).toOption.get (declaration.emit_isSome naming item)

/-- The warnings about a declaration. -/
def Declaration.warnings : Declaration → List Diagnostic
  | .actor declared => declared.collisions.map (·.warning)
  | _ => []

/-- The failure of a fault of a declaration, which is reported for the whole item unless it has a
place of its own. -/
def DeclarationFault.toFailure (fault : DeclarationFault) (item : Span) : Failure :=
  match fault with
  | .failed failure => failure
  | .notForItems _ | .secondActor _ =>
      .reported (.error (fault.message?.getD "") item.toPlace)

/-- Expands an item with an annotation that has been read, and adds it to a program. -/
def expandAnnotated (naming : Naming) (program : Program) (marks : Annotation)
    (text : List Char) : Noted (Except Failure Expansion) :=
  match parseItem text with
  | .error failure => ⟨[], .error failure.toFailure⟩
  | .ok item =>
      let declared := program.declare text item marks.target marks
      ⟨declared.notes,
        match declared.result with
        | .error fault => .error (fault.toFailure item.place)
        | .ok (program, declaration) =>
            .ok ⟨declaration.source naming (String.ofList (Text.trim text)), program,
              declaration.module naming.symbol, declaration.warnings⟩⟩

/-- Expands an item with the text of its annotation. -/
def expandItem (naming : Naming) (program : Program) (target : Target)
    (marks text : List Char) : Noted (Except Failure Expansion) :=
  match Annotation.read marks target 0 with
  | .error failure => ⟨[], .error failure⟩
  | .ok marks => expandAnnotated naming program marks text

/-- The text that takes the place of an item: its expansion, or the directives of its failure.
Failures of the annotation are placed in the text of the annotation, which may be absent, and all
others in the text of the item. -/
def expand (naming : Naming) (target : Target) (marks : Option (List Char))
    (text : List Char) : Except Halt String :=
  match Annotation.read (marks.getD []) target 0 with
  | .error (.halted halt) => .error halt
  | .error (.reported diagnostic) => .ok (diagnostic.render marks)
  | .ok read =>
      match (expandAnnotated naming {} read text).result with
      | .error (.halted halt) => .error halt
      | .error (.reported diagnostic) => .ok (diagnostic.render text)
      | .ok expansion => .ok expansion.source

structure FileExpansion where
  source : String
  program : Program
  diagnostics : List Diagnostic

/-- No diagnostic is an error. -/
def FileExpansion.ok (expansion : FileExpansion) : Bool :=
  !expansion.diagnostics.any (·.hasErrors)

/-- The annotation of an item: the first attribute that names a target. -/
def Item.marked? (item : Item Span) : Option (Attribute Span × Target) :=
  item.attributes.findSome? fun found =>
    (Target.itemOfName? found.name).map fun target => (found, target)

/-- An offset in an item without its annotation as an offset in the file. -/
def toFile (start : Nat) (cut : Span) (offset : Int) : Int :=
  start + offset + (if cut.start - start ≤ offset then (cut.stop - cut.start : Nat) else 0)

/-- The text of an item without its annotation. -/
def cutText (text : List Char) (item cut : Span) : List Char :=
  Span.slice ⟨item.start, cut.start⟩ text ++ Span.slice ⟨cut.stop, item.stop⟩ text

/-- Reads the annotation of an item where it stands in a file. -/
def Attribute.itemAnnotation (text : List Char) (a : Attribute Span) (target : Target) :
    Except Failure Annotation :=
  match a.input with
  | .word => Annotation.read [] target a.place.stop
  | .list group => Annotation.read (group.inside.slice text) target group.inside.start
  | .value _ =>
      .error (.reported (.error
        ("expected attribute arguments in parentheses: #[" ++ a.name ++ "(...)]")
        a.place.toPlace))

/-- Expands an annotated item of a file; places are those of the file. -/
def expandInFile (naming : Naming) (program : Program) (text : List Char) (item : Span)
    (a : Attribute Span) (target : Target) : Except Failure Expansion := do
  let marks ← a.itemAnnotation text target
  match (expandAnnotated naming program marks (cutText text item a.place)).result with
  | .ok expansion => return expansion
  | .error (.reported diagnostic) =>
      throw (.reported (diagnostic.relocate (toFile item.start a.place)))
  | .error (.halted halt) => throw (.halted halt)

/-- What the items of a file contribute, after a program: their texts, the diagnostics, and the
program with their declarations. -/
def expandItems (naming : Naming) (text : List Char) :
    Program → List (Item Span) → Except Halt (List String × List Diagnostic × Program)
  | program, [] => .ok ([], [], program)
  | program, item :: rest =>
      match item.marked? with
      | none => do
          let (chunks, diagnostics, program) ← expandItems naming text program rest
          return (String.ofList (item.place.slice text) :: chunks, diagnostics, program)
      | some (a, target) =>
          match expandInFile naming program text item.place a target with
          | .error (.halted halt) => .error halt
          | .error (.reported diagnostic) => do
              let (chunks, diagnostics, program) ← expandItems naming text program rest
              return (diagnostic.render text :: chunks, diagnostic :: diagnostics, program)
          | .ok expansion => do
              let (chunks, diagnostics, program) ←
                expandItems naming text expansion.program rest
              return (expansion.source :: chunks, expansion.warnings ++ diagnostics, program)

/-- Expands every annotated item of a file. -/
def expandFile (naming : Naming) (text : List Char) : Except Halt FileExpansion :=
  match parseFile text with
  | .error (.halted halt) => .error halt
  | .error (.rejected error) =>
      let diagnostic := Diagnostic.ofParseError error
      .ok ⟨diagnostic.render text, {}, [diagnostic]⟩
  | .ok items => do
      let (chunks, diagnostics, program) ← expandItems naming text {} items
      return ⟨"\n\n".intercalate chunks ++ "\n", program, diagnostics⟩

end ActorGlue
