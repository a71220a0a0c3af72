import ActorGlue.Document.Basic
import ActorGlue.Text.Literal
import ActorGlue.Text.Position
import ActorGlue.Token.Scan

/-!
# Diagnostics

A diagnostic is one message or a nonempty group of diagnostics. Its errors can be rendered as
directives that fail a compilation, and all of it as lines for a reader.
-/

namespace ActorGlue

/-- How serious a message is. -/
inductive Severity where
  | error
  | warning
  deriving DecidableEq, Repr

/-- The word for a severity. -/
def Severity.name : Severity → String
  | .error => "error"
  | .warning => "warning"

/-- A place that a message is about. It may lie outside the text it is shown with. -/
structure Place where
  start : Int
  stop : Int
  deriving DecidableEq, Repr

/-- The place that a span covers. -/
def Span.toPlace (span : Span) : Place :=
  ⟨span.start, span.stop⟩

/-- The place moved by an offset. -/
def Place.shift (place : Place) (offset : Int) : Place :=
  ⟨place.start + offset, place.stop + offset⟩

/-- One message. -/
structure Leaf where
  message : String
  place : Option Place := none
  severity : Severity := .error
  code : Option Code := none
  deriving DecidableEq, Repr

/-- The message with both ends of its place mapped. -/
def Leaf.relocate (move : Int → Int) (message : Leaf) : Leaf :=
  { message with place := message.place.map fun place => ⟨move place.start, move place.stop⟩ }

/-- One message or several diagnostics together. -/
inductive Diagnostic where
  | leaf (message : Leaf)
  | several (first : Diagnostic) (others : List Diagnostic)

namespace Diagnostic

def ofFault (fault : Fault) (place : Option Place) : Diagnostic :=
  .leaf ⟨fault.message, place, .error, some fault.code⟩

def atSpan (fault : Fault) (span : Span) : Diagnostic :=
  ofFault fault span.toPlace

/-- An error without a code. -/
def error (message : String) (place : Option Place) : Diagnostic :=
  .leaf ⟨message, place, .error, none⟩

/-- A warning without a code. -/
def warning (message : String) : Diagnostic :=
  .leaf ⟨message, none, .warning, none⟩

def ofParseError (error : ParseError) : Diagnostic :=
  atSpan error.fault error.span

/-- All of the given diagnostics as one; there is none for an empty list. -/
def ofList : List Diagnostic → Option Diagnostic
  | [] => none
  | [only] => some only
  | first :: others => some (.several first others)

/-- Why parts do not make up a diagnostic. -/
inductive BuildFault where
  | noChildren
  | messageOfGroup
  | noMessage
  | unfit (kind : String)
  deriving DecidableEq, Repr

/-- The wording of a build fault. -/
def BuildFault.message : BuildFault → String
  | .noChildren => "aggregate diagnostic requires at least one child"
  | .messageOfGroup => "aggregate diagnostic cannot carry its own message"
  | .noMessage => "leaf diagnostic requires a message"
  | .unfit kind => "cannot build a diagnostic from " ++ kind

/-- A diagnostic from its parts: children without a message or place, or a message. -/
def build (message : Option String) (place : Option Place)
    (children : Option (List Diagnostic)) : Except BuildFault Diagnostic :=
  match children, message with
  | some [], _ => .error .noChildren
  | some (first :: others), none =>
      if place.isSome then .error .messageOfGroup else .ok (.several first others)
  | some (_ :: _), some _ => .error .messageOfGroup
  | none, some message => .ok (.leaf ⟨message, place, .error, none⟩)
  | none, none => .error .noMessage

def isGroup : Diagnostic → Bool
  | .leaf _ => false
  | .several .. => true

mutual

/-- The messages of a diagnostic in order. -/
def leaves : Diagnostic → List Leaf
  | .leaf message => [message]
  | .several first others => first.leaves ++ leavesAll others

/-- The messages of several diagnostics in order. -/
def leavesAll : List Diagnostic → List Leaf
  | [] => []
  | diagnostic :: rest => diagnostic.leaves ++ leavesAll rest

end

/-- The first message. -/
def firstLeaf : Diagnostic → Leaf
  | .leaf message => message
  | .several first _ => first.firstLeaf

/-- The text of the first message. -/
def firstMessage (diagnostic : Diagnostic) : String :=
  diagnostic.firstLeaf.message

/-- The messages that are errors. -/
def errors (diagnostic : Diagnostic) : List Leaf :=
  diagnostic.leaves.filter (·.severity = .error)

/-- The messages that are warnings. -/
def warnings (diagnostic : Diagnostic) : List Leaf :=
  diagnostic.leaves.filter (·.severity = .warning)

/-- Some message is an error. -/
def hasErrors (diagnostic : Diagnostic) : Bool :=
  !diagnostic.errors.isEmpty

mutual

/-- The diagnostic with every offset mapped. -/
def relocate (move : Int → Int) : Diagnostic → Diagnostic
  | .leaf message => .leaf (message.relocate move)
  | .several first others => .several (first.relocate move) (relocateAll move others)

/-- Several diagnostics with every offset mapped. -/
def relocateAll (move : Int → Int) : List Diagnostic → List Diagnostic
  | [] => []
  | diagnostic :: rest => diagnostic.relocate move :: relocateAll move rest

end

end Diagnostic

/-- The line and column of a message with their colons, if it has a place in a known text. -/
def Leaf.positionText (leaf : Leaf) (source : Option (List Char)) : String :=
  match leaf.place, source with
  | some place, some text =>
      let position := Text.position text place.start
      toString position.line ++ ":" ++ toString position.column ++ ": "
  | _, _ => ""

/-- The directive that fails a compilation with a message. -/
def Leaf.directive (leaf : Leaf) (source : Option (List Char)) : String :=
  "compile_error ! \x7b " ++ Text.literal (leaf.positionText source ++ leaf.message) ++ " \x7d"

/-- The line that shows a message to a reader. -/
def Leaf.describe (leaf : Leaf) (source : Option (List Char)) : String :=
  leaf.positionText source ++ leaf.severity.name ++ ": " ++ leaf.message

/-- One directive for each error. -/
def Diagnostic.render (diagnostic : Diagnostic) (source : Option (List Char)) : String :=
  " ".intercalate (diagnostic.errors.map (·.directive source))

/-- One line for each message. -/
def Diagnostic.describe (diagnostic : Diagnostic) (source : Option (List Char)) : String :=
  "\n".intercalate (diagnostic.leaves.map (·.describe source))

def Place.document (place : Place) : Document :=
  .list [.int place.start, .int place.stop]

def Leaf.document (leaf : Leaf) : Document :=
  .object [("message", .text leaf.message), ("span", .option (·.document) leaf.place),
    ("severity", .text leaf.severity.name), ("code", .option (fun code => .text code.name) leaf.code)]

mutual

def Diagnostic.document : Diagnostic → Document
  | .leaf message => message.document
  | .several first others =>
      .object [("children", .list (first.document :: Diagnostic.documents others))]

/-- The documents of several diagnostics. -/
def Diagnostic.documents : List Diagnostic → List Document
  | [] => []
  | diagnostic :: rest => diagnostic.document :: Diagnostic.documents rest

end

/-- The first message stands first. -/
theorem Diagnostic.leaves_eq_cons :
    (diagnostic : Diagnostic) → ∃ rest, diagnostic.leaves = diagnostic.firstLeaf :: rest
  | .leaf message => ⟨[], by simp [leaves, firstLeaf]⟩
  | .several first others => by
      obtain ⟨rest, h⟩ := leaves_eq_cons first
      exact ⟨rest ++ leavesAll others, by simp [leaves, firstLeaf, h]⟩

end ActorGlue
