import StyleCompiler.Source.Dialect
import StyleCompiler.Source.Token
import StyleCompiler.Tree

/-!
# Parsers

A parser reads from a cursor, which holds the current token and the text around it, so that text
can be read once more where a token means something else (regular expressions, templates, markup,
closing angle brackets). A parser either succeeds or does not; what is tried and fails leaves no
trace.

The nonterminals of the grammar call each other in circles. `Rules` holds those through which
every circle goes. The other parsers are plain functions of the rules. A circle ends because text
is read on the way: a rule calls another one through `Rules` only at a later place of the text
(`Parser.below`), and a repeated step goes on only if it has read something (`repeatFrom`).
-/

namespace StyleCompiler.Source

/-! ## State -/

/-- A place in the source text: the current token, the text from its first character on, the text
after it, and whether a line ended before it. `pending` says that an object literal was read
which holds `name = value` and so has to turn out to be a pattern. -/
structure Cursor where
  token : Token
  start : List Char
  rest : List Char
  newline : Bool
  pending : Bool := false

/-- How many characters are left from the current token on. -/
def Cursor.left (c : Cursor) : Nat := c.start.length

/-- What surrounds a place in the grammar. -/
structure Setting where
  dialect : Dialect
  inFunction : Bool := false
  awaits : Bool := true
  yields : Bool := false
  breakable : Bool := false
  continuable : Bool := false
  labels : List String := []
  noIn : Bool := false
  ambient : Bool := false
  superMember : Bool := false
  superCall : Bool := false
  arrowTypes : Bool := true
  plainType : Bool := false

/-- A parser. -/
abbrev Parser := ReaderT Setting (StateT Cursor Option)

/-- Read the token after a gap. -/
def tokenAfter (newline : Bool) (cs : List Char) (pending : Bool) : Cursor :=
  match skipGap newline cs with
  | some (newline, cs) =>
    let (token, rest) := readToken cs
    -- an arrow that closes a comment can only start a line
    let token := if newline && (dropStart? ['-', '-', '>'] cs).isSome then .invalid else token
    { token, start := cs, rest, newline, pending }
  | none => { token := .invalid, start := [], rest := [], newline, pending }

/-! ## Tokens -/

/-- Go to the next token. -/
def advance : Parser Unit := modify fun c => tokenAfter false c.rest c.pending

/-- The current token. -/
def current : Parser Token := return (← get).token

/-- Did a line end before the current token? -/
def atNewline : Parser Bool := return (← get).newline

/-- Succeed only if a condition holds. -/
def require (condition : Bool) : Parser Unit := if condition then pure () else failure

/-- Is the current token this sign? -/
def isSign (text : String) : Parser Bool := return (← get).token == .sign text

/-- Is the current token this word, written plainly? -/
def isWord (name : String) : Parser Bool := return (← get).token == .word name false

/-- Go past a sign if it is there. -/
def eatSign (text : String) : Parser Bool := do
  if ← isSign text then
    advance
    return true
  return false

/-- Go past a word if it is there. -/
def eatWord (name : String) : Parser Bool := do
  if ← isWord name then
    advance
    return true
  return false

/-- Go past a sign, which has to be there. -/
def expectSign (text : String) : Parser Unit := do
  require (← eatSign text)

/-- Go past a word, which has to be there. -/
def expectWord (name : String) : Parser Unit := do
  require (← eatWord name)

/-- Make the first character of a sign the whole token, if it is the given one. -/
def splitSign (first : Char) : Parser Unit := do
  match (← get).token, (← get).start with
  | .sign _, c :: rest =>
    if c = first then modify fun cursor => { cursor with token := .sign c.toString, rest }
  | _, _ => pure ()

/-- Go past an opening angle bracket. -/
def expectLeftAngle : Parser Unit := do
  splitSign '<'
  expectSign "<"

/-- Go past a closing angle bracket, also one that is part of a longer sign. -/
def expectRightAngle : Parser Unit := do
  splitSign '>'
  expectSign ">"

/-- Is a sign or a word there that ends a statement without a semicolon? -/
def atStatementEnd : Parser Bool := do
  return (← isSign ";") || (← isSign "\x7d") || (← current) == .eof || (← atNewline)

/-- Go past the end of a statement: a semicolon, or where none is needed. -/
def endStatement : Parser Unit := do
  unless ← eatSign ";" do
    require (← atStatementEnd)

/-! ## Trying -/

/-- The result of a parser, or nothing and no step if it does not succeed. -/
def attempt {α : Type} (p : Parser α) : Parser (Option α) := fun setting cursor =>
  match p setting cursor with
  | some (a, cursor) => some (some a, cursor)
  | none => some (none, cursor)

/-- The result of a parser, without a step. -/
def peek {α : Type} (p : Parser α) : Parser α := fun setting cursor =>
  match p setting cursor with
  | some (a, _) => some (a, cursor)
  | none => none

/-! ## Repetition -/

/-- Repeat a step from a place on while it gives something new. To go on it has to have read
something; a step that stays where it was does not succeed. -/
def repeatFrom {α : Type} (step : α → Parser (Option α)) (setting : Setting) (a : α)
    (cursor : Cursor) : Option (α × Cursor) :=
  match step a setting cursor with
  | some (some b, next) =>
    if next.left < cursor.left then repeatFrom step setting b next else none
  | some (none, next) => some (a, next)
  | none => none
termination_by cursor.left

/-- Repeat a step while it gives something new. -/
def repeatStep {α : Type} (start : α) (step : α → Parser (Option α)) : Parser α :=
  fun setting cursor => repeatFrom step setting start cursor

/-- Read items while a condition holds. -/
def manyWhile {α : Type} (more : Parser Bool) (item : Parser α) : Parser (List α) := do
  let items ← repeatStep [] fun items => do
    if ← more then return some ((← item) :: items)
    return none
  return items.reverse

/-- Read items set apart by commas up to a closing sign. A comma may stand before it. -/
def commaList {α : Type} (close : Parser Bool) (item : Parser α) : Parser (List α) := do
  let (items, _) ← repeatStep ([], true) fun (items, more) => do
    if !more || (← close) then return none
    let a ← item
    return some (a :: items, ← eatSign ",")
  require (← close)
  return items.reverse

/-- Read at least one item, set apart by a sign. -/
def separated {α : Type} (sep : String) (item : Parser α) : Parser (List α) := do
  let first ← item
  let items ← repeatStep [first] fun items => do
    if ← eatSign sep then return some ((← item) :: items)
    return none
  return items.reverse

/-! ## Names -/

/-- Go past any word and give it. -/
def anyWord : Parser String := do
  match ← current with
  | .word name _ => do
    advance
    return name
  | _ => failure

/-- Is the current token a word that can name a variable? `yield` and `await` never can. -/
def atVariable : Parser Bool := do
  match ← current with
  | .word name _ => return isVariableName name
  | _ => return false

/-- Go past the name of a variable that is read. -/
def variableName : Parser String := do
  require (← atVariable)
  anyWord

/-- Go past a name that is bound. -/
def boundName : Parser String := do
  match ← current with
  | .word name _ => do
    require (isBindableName name)
    advance
    return name
  | _ => failure

/-- Does the language have type annotations? -/
def hasTypes : Parser Bool := return (← read).dialect.types

/-- Does the language have markup? -/
def hasMarkup : Parser Bool := return (← read).dialect.markup

/-! ## Rules -/

/-- The nonterminals through which the circles of the grammar go.

* `assignment`: an expression without a comma at its top.
* `unary`: an operand of the binary operators.
* `construction`: what stands after `new`.
* `leftHand`: an operand with what is accessed in it and called of it.
* `statement`: a statement or a declaration.
* `binding`: a name or a pattern that is bound.
* `type`: a type.
* `element`: a markup element, up to but not past its last sign. -/
structure Rules where
  assignment : Parser Expr
  unary : Parser Expr
  construction : Parser Expr
  leftHand : Parser Expr
  statement : Parser Stmt
  binding : Parser Pattern
  type : Parser Unit
  element : Parser Unit

/-- A parser for the places with fewer than `n` characters left, made for the place where it is
called. Elsewhere it does not succeed. -/
def Parser.below {α : Type} (n : Nat) (p : (m : Nat) → m < n → Parser α) : Parser α :=
  fun setting cursor => if h : cursor.left < n then p cursor.left h setting cursor else none

/-- What a parser reads that may be a pattern, if it is none. -/
def valueOf (assignment : Parser Expr) : Parser Expr := do
  let outer := (← get).pending
  modify ({ · with pending := false })
  let e ← assignment
  require !(← get).pending
  modify ({ · with pending := outer })
  return e

/-- What a parser reads, several times with commas in between. -/
def expressionOf (assignment : Parser Expr) : Parser Expr := do
  match ← separated "," (valueOf assignment) with
  | [e] => return e
  | es => return .sequence es

/-- An expression without a comma at its top that is no pattern. -/
def Rules.value (r : Rules) : Parser Expr := valueOf r.assignment

/-- An expression. -/
def Rules.expression (r : Rules) : Parser Expr := expressionOf r.assignment

/-- Run a parser inside brackets, where `in` is an operator and arrow functions may have the
types of their results. -/
def nested {α : Type} (p : Parser α) : Parser α :=
  withReader ({ · with noIn := false, arrowTypes := true }) p

end StyleCompiler.Source
