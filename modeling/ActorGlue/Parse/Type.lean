import ActorGlue.Parse.Basic
import ActorGlue.Tree.Type

/-!
# Parsing types

The grammar of types is written as one layer over parsers for the types, paths and bounds nested
inside. A layer takes a lexeme before it asks for an inner parse, so one layer more than there are
lexemes ahead is enough for any type.
-/

namespace ActorGlue.Parse

/-- The parsers that nest. The flag of the first tells whether it may be a sum of bounds. -/
structure Grammar where
  ty : Bool → Parser (Ty Extent)
  path : Parser (TyPath Extent)
  bound : Parser (Bound Extent)

/-- A bound may begin with the lexeme. -/
def startsBound (lexeme : Lexeme) : Bool :=
  lexeme.kind = .lifetime || lexeme.isPunctOf ["?", "::", "("] ||
    (lexeme.kind = .ident && !(["where", "as"].contains lexeme.text))

/-- A bound may begin here. -/
def atBound : Parser Bool :=
  return (← peek).any startsBound

/-- One step through bounds. -/
def boundStep (bound : Parser (Bound Extent)) (sum : Bool) :
    Parser (List (Bound Extent) × Bool) := do
  unless ← atBound do return ([], false)
  let value ← bound
  if sum then return ([value], ← eat "+") else return ([value], false)

/-- Bounds with plus signs between them, or one bound if no sum is allowed. -/
def bounds (bound : Parser (Bound Extent)) (sum : Bool) : Parser (List (Bound Extent)) := do
  let found ← many (boundStep bound sum)
  if found.isEmpty then refuse "a trait bound" else return found

/-- The lexeme begins an expression among generic arguments. -/
def startsConst (lexeme : Lexeme) : Bool :=
  [Token.Kind.int, .float, .str, .char].contains lexeme.kind || lexeme.isPunctOf ["-", "\x7b"]

/-- One argument in angle brackets. -/
def angleArg (g : Grammar) : Parser (GenericArg Extent) := do
  let before ← mark
  match ← peek with
  | none => refuse "'>' to close generic arguments"
  | some lexeme =>
      if lexeme.kind = .lifetime then
        skip 1
        return .lifetime (← extentFrom before) lexeme.text
      else if startsConst lexeme then
        let expr ← collectUntil [",", ">"]
        return .const (← extentFrom before) (Lexeme.join expr)
      else if lexeme.isIdent "true" || lexeme.isIdent "false" then
        skip 1
        return .const (← extentFrom before) lexeme.text
      else if lexeme.kind = .ident && (← at? "=" 1) then
        skip 2
        let ty ← g.ty true
        return .binding (← extentFrom before) lexeme.text ty
      else if lexeme.kind = .ident && (← at? ":" 1) then
        skip 2
        let found ← bounds g.bound true
        return .constraint (← extentFrom before) lexeme.text found
      else
        let ty ← g.ty true
        return .type ty.place ty

/-- Arguments in angle brackets. -/
def angleArgs (g : Grammar) : Parser (SegmentArgs Extent) := do
  let before ← mark
  expect "<"
  let args ← separated "," (at? ">") (angleArg g)
  expect ">" "'>' to close generic arguments"
  return .angle (← extentFrom before) args

/-- The result type after an arrow, if there is one. -/
def output? (ty : Parser (Ty Extent)) : Parser (Option (Ty Extent)) := do
  if ← eat "->" then return some (← ty) else return none

/-- Arguments in parentheses, with the result type. -/
def callArgs (g : Grammar) : Parser (SegmentArgs Extent) := do
  let before ← mark
  expect "("
  let inputs ← separated "," (at? ")") (g.ty true)
  expect ")" "')' to close parenthesized arguments"
  let output ← output? (g.ty false)
  return .call (← extentFrom before) inputs output

/-- The text begins with an upper-case letter. -/
def startsUpper (text : String) : Bool :=
  text.toList.head?.any Char.isUpper

/-- The colons that may stand between a name and its arguments in angle brackets. -/
def turbofish : Parser Unit := do
  if (← at? "::") && (← at? "<" 1) then skip 1

/-- The arguments of a segment. Those in parentheses need a capitalized name. -/
def segmentArgs (g : Grammar) (ident : String) : Parser (SegmentArgs Extent) := do
  let angle ← at? "<"
  let round ← at? "("
  if angle then angleArgs g
  else if round && startsUpper ident then callArgs g
  else pure .absent

/-- One segment of a path. -/
def segment (g : Grammar) : Parser (Segment Extent) := do
  let before ← mark
  let ident ← expectIdent "a path segment"
  turbofish
  let args ← segmentArgs g ident
  return .mk (← extentFrom before) ident args

/-- How a path begins. -/
def pathHead (g : Grammar) : Parser (PathHead Extent) := do
  let before ← mark
  if ← eat "<" then
    let ty ← g.ty true
    if ← eat "as" then
      let trait ← g.path
      expect ">" "'>' to close qualified path"
      let place ← extentFrom before
      expect "::" "'::' after qualified path"
      return .selfAs place ty trait
    else
      expect ">" "'>' to close qualified path"
      let place ← extentFrom before
      expect "::" "'::' after qualified path"
      return .self place ty
  else if ← eat "::" then return .rooted
  else return .relative

/-- One step through the segments of a path. -/
def segmentStep (g : Grammar) : Parser (List (Segment Extent) × Bool) := do
  let value ← segment g
  if (← at? "::") && (← kindAt? .ident 1) then
    skip 1
    return ([value], true)
  else return ([value], false)

def pathLayer (g : Grammar) : Parser (TyPath Extent) := do
  let before ← mark
  let head ← pathHead g
  let segments ← many (segmentStep g)
  return .mk (← extentFrom before) head segments

/-- The lifetimes of a bound. -/
def forLifetimes : Parser String := do
  if (← at? "for") && (← at? "<" 1) then
    skip 1
    pure (Lexeme.join (← angleGroup))
  else pure ""

/-- A bound that is no lifetime. -/
def boundRest (g : Grammar) (before : Nat) : Parser (Bound Extent) := do
  if ← eat "(" then
    let inner ← g.bound
    expect ")"
    return inner
  else
    let optional ← eat "?"
    let lifetimes ← forLifetimes
    let path ← pathLayer g
    return .trait (← extentFrom before) path optional lifetimes

def boundLayer (g : Grammar) : Parser (Bound Extent) := do
  let before ← mark
  match ← peek with
  | none => boundRest g before
  | some lexeme =>
      if lexeme.kind = .lifetime then
        skip 1
        return .lifetime (← extentFrom before) lexeme.text
      else boundRest g before

/-- One input of a function pointer type, perhaps with a name. -/
def bareInput (g : Grammar) : Parser (Ty Extent) := do
  if (← kindAt? .ident) && (← at? ":" 1) then skip 2
  g.ty true

/-- The lifetimes of a function pointer type. -/
def fnLifetimes : Parser Unit := do
  if ← eat "for" then let _ ← angleGroup

/-- The calling convention of a function pointer type. -/
def fnConvention : Parser Unit := do
  if ← eat "extern" then
    if ← kindAt? .str then skip 1

/-- A function pointer type from its word on. -/
def fnTail (g : Grammar) (start : List Lexeme) : Parser (Ty Extent) := do
  expect "fn" "'fn' in function pointer type"
  expect "(" "'(' in function pointer type"
  let inputs ← separated "," (do if ← at? ")" then return true else eat "...") (bareInput g)
  expect ")" "')' in function pointer type"
  let output ← output? (g.ty false)
  return .bareFn (← extentFrom start.length) inputs output (Lexeme.join (← readSince start))

/-- A function pointer type. -/
def bareFn (g : Grammar) : Parser (Ty Extent) := do
  let start ← get
  fnLifetimes
  let _ ← eat "unsafe"
  fnConvention
  fnTail g start

/-- Words that begin a function pointer type. -/
def fnWords : List String := ["fn", "unsafe", "extern"]

/-- The lexemes after a group in angle brackets begin a function pointer type. -/
def bindsFn (ahead : List Lexeme) : Bool :=
  match splitAngles 0 ahead with
  | some (_, next :: _) => fnWords.contains next.text
  | _ => false

/-- A function pointer type begins with the lexemes. -/
def startsBareFn : List Lexeme → Bool
  | [] => false
  | lexeme :: rest =>
      lexeme.kind = .ident &&
        (fnWords.contains lexeme.text ||
          (lexeme.text = "for" && rest.head?.any (·.is "<") && bindsFn rest))

/-- What follows the first type of a tuple. -/
def tupleRest (g : Grammar) : Parser (List (Ty Extent)) := do
  if ← eat "," then separated "," (at? ")") (g.ty true) else pure []

/-- A parenthesized or tuple type. -/
def parenTy (g : Grammar) : Parser (Ty Extent) := do
  let before ← mark
  skip 1
  if ← eat ")" then return .tuple (← extentFrom before) []
  else
    let first ← g.ty true
    if ← eat ")" then return .paren (← extentFrom before) first
    else
      let others ← tupleRest g
      expect ")" "')' to close tuple type"
      return .tuple (← extentFrom before) (first :: others)

/-- A slice or array type. -/
def bracketTy (g : Grammar) : Parser (Ty Extent) := do
  let before ← mark
  skip 1
  let elem ← g.ty true
  if ← eat "]" then return .slice (← extentFrom before) elem
  expect ";" "';' or ']' in array type"
  let length ← collectUntil ["]"]
  if length.isEmpty then refuse "an array length"
  expect "]"
  return .array (← extentFrom before) elem (Lexeme.join length)

/-- The lifetime of a reference type. -/
def lifetime? : Parser (Option String) := do
  if ← kindAt? .lifetime then pure (some (← advance).text) else pure none

/-- A reference type. -/
def referenceTy (g : Grammar) : Parser (Ty Extent) := do
  let before ← mark
  skip 1
  let lifetime ← lifetime?
  let mutable ← eat "mut"
  let elem ← g.ty false
  return .reference (← extentFrom before) elem lifetime mutable

/-- A pointer type. -/
def pointerTy (g : Grammar) : Parser (Ty Extent) := do
  let before ← mark
  skip 1
  let mutable ← eat "mut"
  unless mutable do
    unless ← eat "const" do refuse "'const' or 'mut' in pointer type"
  let elem ← g.ty false
  return .pointer (← extentFrom before) elem mutable

/-- What follows the first path of a sum of bounds; empty places between plus signs are skipped. -/
def plusTail (g : Grammar) : Parser (List (Bound Extent)) :=
  many do
    unless ← eat "+" do return ([], false)
    if ← atBound then return ([← boundLayer g], true) else return ([], true)

/-- A path type, an invocation, or a sum of bounds that begins with a path. -/
def pathTy (g : Grammar) (sum : Bool) : Parser (Ty Extent) := do
  let start ← get
  let before := start.length
  let path ← pathLayer g
  if (← at? "!") && (← peekAt 1).any (fun lexeme => (Lexeme.closerOf? lexeme.text).isSome) then
    skip 1
    let _ ← group
    return .invocation (← extentFrom before) path (Lexeme.join (← readSince start))
  if sum && (← at? "+") then
    let others ← plusTail g
    return .traitObject (← extentFrom before) (.trait path.place path false "" :: others) false
  return .path path

/-- A type that no other rule reads, kept as text. -/
def verbatimTy : Parser (Ty Extent) := do
  let before ← mark
  let found ← collectUntil [",", ")", "]", ">", ";", "=", "\x7b", "\x7d"]
  if found.isEmpty then refuse "a type"
  return .verbatim (← extentFrom before) (Lexeme.join found)

/-- A path type may begin with the lexeme. -/
def startsPath (lexeme : Lexeme) : Bool :=
  lexeme.isPunctOf ["<", "::"] ||
    (lexeme.kind = .ident && !(["mut", "const", "where", "as"].contains lexeme.text))

/-- A type. -/
def tyLayer (g : Grammar) (sum : Bool) : Parser (Ty Extent) := do
  let ahead ← get
  let before := ahead.length
  match ahead with
  | [] => refuse "a type"
  | lexeme :: _ =>
      if lexeme.isPunct "(" then parenTy g
      else if lexeme.isPunct "[" then bracketTy g
      else if lexeme.isPunct "&" then referenceTy g
      else if lexeme.isPunct "*" then pointerTy g
      else if lexeme.isPunct "!" then
        skip 1
        return .never (← extentFrom before)
      else if lexeme.isIdent "_" then
        skip 1
        return .infer (← extentFrom before)
      else if lexeme.isIdent "impl" then
        skip 1
        let found ← bounds (boundLayer g) sum
        return .implTrait (← extentFrom before) found
      else if lexeme.isIdent "dyn" then
        skip 1
        let found ← bounds (boundLayer g) sum
        return .traitObject (← extentFrom before) found true
      else if startsBareFn ahead then bareFn g
      else if lexeme.isIdent "for" || lexeme.isPunct "?" then
        let found ← bounds (boundLayer g) sum
        return .traitObject (← extentFrom before) found false
      else if startsPath lexeme then pathTy g sum
      else verbatimTy

/-- The grammar with the given number of layers. -/
def grammar : Nat → Grammar
  | 0 => ⟨fun _ => throw .endless, throw .endless, throw .endless⟩
  | depth + 1 =>
      let inner := grammar depth
      ⟨tyLayer inner, pathLayer inner, boundLayer inner⟩

/-- A type; the flag tells whether it may be a sum of bounds. -/
def ty (sum : Bool := true) : Parser (Ty Extent) := do
  (grammar ((← mark) + 1)).ty sum

end ActorGlue.Parse
