import ActorGlue.Token.Join
import ActorGlue.Token.Scan

/-!
# Parsers over lexemes

A parser reads a list of lexemes and sees nothing of the layout of the source. A place is a mark:
the number of lexemes still ahead. A node covers an extent, the marks before and after it; only
when a parse is done are extents placed in the source.

Every repetition runs through `loop`, which gives up when it has run more often than there are
lexemes ahead.
-/

namespace ActorGlue

/-- The lexemes a node covers: how many were ahead before it and how many after it. -/
structure Extent where
  before : Nat
  after : Nat
  deriving DecidableEq, Repr

namespace Parse

/-- What a parser has to complain about, with the marks it concerns. -/
inductive Complaint where
  /-- Something was wanted where a lexeme stands, or where none is left. -/
  | unexpected (wanted : String) (found : Option String) (ahead : Nat)
  /-- A group is closed by the wrong delimiter. -/
  | mismatched (closer : String) (ahead : Nat)
  /-- A group is not closed. -/
  | unclosed (opener : String) (ahead : Nat)
  /-- A trait is named by something other than a path. -/
  | notTraitPath (extent : Extent)
  /-- A repetition makes no progress. -/
  | endless
  deriving DecidableEq, Repr

end Parse

/-- A parser reads from the lexemes ahead. -/
abbrev Parser := StateT (List Lexeme) (Except Parse.Complaint)

namespace Parse

/-- The lexeme at the given distance. -/
def peekAt (distance : Nat) : Parser (Option Lexeme) :=
  return (← get)[distance]?

/-- The next lexeme. -/
def peek : Parser (Option Lexeme) :=
  peekAt 0

/-- The given mark or word stands at the given distance. -/
def at? (text : String) (distance : Nat := 0) : Parser Bool :=
  return (← peekAt distance).any (·.is text)

/-- A lexeme of the given kind stands at the given distance. -/
def kindAt? (kind : Token.Kind) (distance : Nat := 0) : Parser Bool :=
  return (← peekAt distance).any (·.kind = kind)

/-- The current mark. -/
def mark : Parser Nat :=
  return (← get).length

/-- The extent from a mark to here. -/
def extentFrom (before : Nat) : Parser Extent :=
  return ⟨before, ← mark⟩

/-- Refuses the next lexeme, or the end, because something else was wanted. -/
def refuse {α : Type} (wanted : String) : Parser α := do
  let ahead ← get
  throw (.unexpected wanted (ahead.head?.map (·.text)) ahead.length)

/-- Takes the next lexeme. -/
def advance (wanted : String := "a token") : Parser Lexeme := do
  match ← get with
  | [] => refuse wanted
  | lexeme :: rest => set rest; return lexeme

/-- Drops the given number of lexemes. -/
def skip (count : Nat) : Parser Unit :=
  modify (·.drop count)

/-- Takes the given mark or word if it is next, and tells whether it was. -/
def eat (text : String) : Parser Bool := do
  if ← at? text then
    skip 1
    return true
  else return false

/-- Takes the given mark or word, which must be next. -/
def expect (text : String) (wanted : String := "'" ++ text ++ "'") : Parser Unit := do
  unless ← eat text do refuse wanted

/-- Takes a word, which must be next. -/
def expectIdent (wanted : String) : Parser String := do
  match ← get with
  | [] => refuse wanted
  | lexeme :: rest =>
      if lexeme.kind = .ident then
        set rest
        return lexeme.text
      else refuse wanted

/-- The lexemes read since the given ones were ahead. -/
def readSince (start : List Lexeme) : Parser (List Lexeme) :=
  return start.take (start.length - (← get).length)

/-- Repeats a step at most `fuel` times. A step yields items, and the state for another step
unless it was the last. -/
def loopUpTo {σ α : Type} (step : σ → Parser (List α × Option σ)) : Nat → σ → Parser (List α)
  | 0, _ => throw .endless
  | fuel + 1, state => do
      match ← step state with
      | (items, none) => return items
      | (items, some next) => return items ++ (← loopUpTo step fuel next)

/-- Repeats a step until it says it was the last. Every other one has to take a lexeme. -/
def loop {σ α : Type} (step : σ → Parser (List α × Option σ)) (state : σ) : Parser (List α) := do
  loopUpTo step ((← mark) + 1) state

/-- A step without a state, which says whether another one follows. -/
def manyStep {α : Type} (step : Parser (List α × Bool)) (_ : Unit) :
    Parser (List α × Option Unit) := do
  let (items, more) ← step
  return (items, if more then some () else none)

/-- Repeats a step without a state. -/
def many {α : Type} (step : Parser (List α × Bool)) : Parser (List α) :=
  loop (manyStep step) ()

/-- One step through items with a separator between them. -/
def separatedStep {α : Type} (separator : String) (done : Parser Bool) (item : Parser α) :
    Parser (List α × Bool) := do
  if ← done then return ([], false)
  let value ← item
  return ([value], ← eat separator)

/-- Items with a separator between them, and perhaps one at the end, up to where `done` holds. -/
def separated {α : Type} (separator : String) (done : Parser Bool) (item : Parser α) :
    Parser (List α) :=
  many (separatedStep separator done item)

/-- Why a group cannot be split off: a wrong closer with the lexemes ahead of it, or none. -/
inductive GroupFault where
  | mismatched (closer : String) (ahead : Nat)
  | unclosed
  deriving DecidableEq, Repr

/-- Splits off lexemes up to the last of the closers that are owed, the innermost first. -/
def splitOwed : List String → List Lexeme → Except GroupFault (List Lexeme × List Lexeme)
  | [], rest => .ok ([], rest)
  | _ :: _, [] => .error .unclosed
  | closer :: outer, lexeme :: rest =>
      let keep (result : Except GroupFault (List Lexeme × List Lexeme)) :=
        result.map fun split => (lexeme :: split.1, split.2)
      match lexeme.closer? with
      | some inner => keep (splitOwed (inner :: closer :: outer) rest)
      | none =>
          if !lexeme.isCloser then keep (splitOwed (closer :: outer) rest)
          else if lexeme.text = closer then keep (splitOwed outer rest)
          else .error (.mismatched lexeme.text (rest.length + 1))

/-- Takes a delimited group with its delimiters. -/
def group : Parser (List Lexeme) := do
  match ← get with
  | [] => refuse "a delimiter"
  | opener :: rest =>
      match opener.closer? with
      | none => refuse "a delimiter"
      | some closer =>
          match splitOwed [closer] rest with
          | .ok (inside, after) =>
              set after
              return opener :: inside
          | .error (.mismatched text ahead) => throw (.mismatched text ahead)
          | .error .unclosed => throw (.unclosed opener.text (rest.length + 1))

/-- One step of `collectUntil`; the state is the depth of angle brackets. -/
def collectStep (stops : List String) (angles : Bool) (depth : Nat) :
    Parser (List Lexeme × Option Nat) := do
  match ← peek with
  | none => return ([], none)
  | some lexeme =>
      if depth = 0 && lexeme.isPunctOf stops then return ([], none)
      else if lexeme.closer?.isSome then return (← group, some depth)
      else if lexeme.isCloser then return ([], none)
      else if angles && lexeme.isPunct "<" then return ([← advance], some (depth + 1))
      else if angles && lexeme.isPunct ">" then
        if depth = 0 then return ([], none) else return ([← advance], some (depth - 1))
      else return ([← advance], some depth)

/-- Takes lexemes and whole groups up to a stop outside all groups and, if asked to, outside
angle brackets. A closing delimiter stops too. -/
def collectUntil (stops : List String) (angles : Bool := false) : Parser (List Lexeme) :=
  loop (collectStep stops angles) 0

/-- Splits off lexemes through the angle bracket that closes the given number of open ones. -/
def splitAngles : Nat → List Lexeme → Option (List Lexeme × List Lexeme)
  | _, [] => none
  | depth, lexeme :: rest =>
      let keep (result : Option (List Lexeme × List Lexeme)) :=
        result.map fun split => (lexeme :: split.1, split.2)
      if lexeme.isPunct "<" then keep (splitAngles (depth + 1) rest)
      else if lexeme.isPunct ">" then
        if depth ≤ 1 then some ([lexeme], rest) else keep (splitAngles (depth - 1) rest)
      else keep (splitAngles depth rest)

/-- Takes a group in angle brackets with its brackets. -/
def angleGroup : Parser (List Lexeme) := do
  unless ← at? "<" do refuse "'<'"
  match splitAngles 0 (← get) with
  | some (inside, after) =>
      set after
      return inside
  | none =>
      set ([] : List Lexeme)
      refuse "a token"

end Parse

end ActorGlue
