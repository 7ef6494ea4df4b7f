import StyleCompiler.Source.Function
import StyleCompiler.Source.Markup
import StyleCompiler.Source.Target

/-!
# Expressions

From literals to assignments, loosest last. Parentheses and type assertions stay in the tree as
wrappers.
-/

namespace StyleCompiler.Source

/-! ## Arguments, arrays and objects -/

/-- An argument of a call. -/
def argument (r : Rules) : Parser Arg := do
  if ← eatSign "..." then return .spread (← r.value)
  return .plain (← r.value)

/-- The arguments of a call, in parentheses. -/
def arguments (r : Rules) : Parser (List Arg) := nested (do
  expectSign "("
  let args ← commaList (isSign ")") (argument r)
  expectSign ")"
  return args)

/-- An element of an array literal. -/
def arrayElement (r : Rules) : Parser Element := do
  if ← isSign "," then return .hole
  if ← eatSign "..." then return .arg (.spread (← r.assignment))
  return .arg (.plain (← r.assignment))

/-- An array literal. -/
def arrayLiteral (r : Rules) : Parser Expr := nested (do
  expectSign "["
  let elements ← commaList (isSign "]") (arrayElement r)
  expectSign "]"
  return .array elements)

/-- The property that a key starts, if it is no method with a word before the key. -/
def propertyTail (r : Rules) (isName : Bool) (key : Key) : Parser Property := do
  if ← eatSign ":" then return .keyValue key (← r.assignment)
  if (← isSign "(") || ((← hasTypes) && (← isSign "<")) then
    let (_, hasBody) ← insideMethod {} false (methodTail r .plain false)
    require hasBody
    return .method key
  match key with
  | .ident name => do
    require (isName && isVariableName name)
    if ← eatSign "=" then
      let e ← r.value
      modify ({ · with pending := true })
      return .assign name e
    return .shorthand name
  | _ => failure

/-- A method of an object literal, from its key on. -/
def objectMethod (r : Rules) (kind : FunctionKind) (role : MethodRole) : Parser Property := do
  let key ← propertyKey r
  let (patterns, hasBody) ← insideMethod kind false (methodTail r role false)
  require hasBody
  match role with
  | .plain => return .method key
  | .getter => return .getter key
  | .setter => return .setter key (patterns.getLast?.getD (.destructuring []))

/-- A property of an object literal. -/
def property (r : Rules) : Parser Property := do
  if ← eatSign "..." then return .spread (← r.assignment)
  if ← eatSign "*" then return ← objectMethod r { isGenerator := true } .plain
  if (← isModifier "async") && !(← peek (do advance; atNewline)) then
    advance
    let isGenerator ← eatSign "*"
    return ← objectMethod r { isAsync := true, isGenerator } .plain
  if ← eatModifier "get" then return ← objectMethod r {} .getter
  if ← eatModifier "set" then return ← objectMethod r {} .setter
  let isName := match ← current with
    | .word _ _ => true
    | _ => false
  let key ← propertyKey r
  propertyTail r isName key

/-- An object literal. -/
def objectLiteral (r : Rules) : Parser Expr := nested (do
  expectSign "\x7b"
  let properties ← commaList (isSign "\x7d") (property r)
  expectSign "\x7d"
  return .object properties)

/-! ## Operands -/

/-- A template that is a value: all of its escapes have to be valid. -/
def templateLiteral (r : Rules) : Parser Expr := do
  let (stretches, exprs) ← templateOf r.expression
  require (stretches.all (·.valid))
  return .template (stretches.map (·.quasi)) exprs

/-- A regular expression, read from its first slash on. -/
def regularExpression : Parser Expr := do
  match (← get).start with
  | '/' :: cs =>
    match readPattern false cs with
    | some (pattern, rest) =>
      let flags := rest.takeWhile isIdentifierPart
      require (validFlags flags)
      moveTo (rest.dropWhile isIdentifierPart)
      return .regex (String.ofList pattern) (String.ofList flags)
    | none => failure
  | _ => failure

/-- An expression in parentheses. -/
def parenthesized (r : Rules) : Parser Expr := nested (do
  expectSign "("
  let e ← r.expression
  expectSign ")"
  return .wrapped .paren e)

/-- Go past the current token with a value. -/
def literal (e : Expr) : Parser Expr := do
  advance
  return e

/-- An operand without what is accessed in it. -/
def primary (r : Rules) : Parser Expr := do
  match ← current with
  | .string text => literal (.str text)
  | .number value => literal (.num value)
  | .bigint digits => literal (.bigint digits)
  | .sign "(" => parenthesized r
  | .sign "[" => arrayLiteral r
  | .sign "\x7b" => objectLiteral r
  | .sign "`" => templateLiteral r
  | .sign "/" => regularExpression
  | .sign "/=" => regularExpression
  | .sign "<" => do
    require (← hasMarkup)
    elementRule r
    advance
    return .other
  | .hidden _ => do
    advance
    require ((← isWord "in") && !(← read).noIn)
    return .other
  | .word "this" false => literal .this
  | .word "null" false => literal .null
  | .word "true" false => literal (.bool true)
  | .word "false" false => literal (.bool false)
  | .word "class" false => do
    let _ ← classTail r false
    return .other
  | .word _ _ => do
    if ← atFunction then return ← functionExpression r
    return .ident (← variableName)
  | _ => failure

/-! ## Members and calls -/

/-- What follows a dot. -/
def dotSegment : Parser Segment := do
  match ← current with
  | .hidden name => do
    advance
    return .hidden name
  | _ => return .name (← anyWord)

/-- An index in brackets. -/
def indexSegment (r : Rules) : Parser Segment := nested (do
  expectSign "["
  let e ← r.expression
  expectSign "]"
  return .index e)

/-- A template with what it is handed to. -/
def taggedTemplate (r : Rules) (tag : Expr) : Parser Expr := do
  let (stretches, exprs) ← templateOf r.expression
  return .tagged tag (stretches.map (·.quasi)) exprs

/-- The signs with which an expression may start after type arguments would have ended. -/
def openingSigns : List String := ["[", "\x7b", "!", "~", "++", "--", "/", "/=", "@"]

/-- Can type arguments end before the current token? -/
def typeArgumentsEnd : Parser Bool := do
  match ← current with
  | .sign s =>
    if s = "(" || s = "`" then return true
    if s.startsWith "<" || s.startsWith ">" || s = "+" || s = "-" then return false
    if ← atNewline then return true
    return !openingSigns.contains s
  | .eof => return true
  | .word name _ => return (← atNewline) || ["in", "instanceof", "as", "satisfies"].contains name
  | _ => atNewline

/-- Type arguments of a call, if they are there and what follows does not contradict. -/
def callTypeArguments (r : Rules) : Parser Bool := do
  if !(← hasTypes) then return false
  if !((← isSign "<") || (← isSign "<<")) then return false
  let found ← attempt (do
    typeArguments r
    require (← typeArgumentsEnd))
  return found.isSome

/-- An operand and whether it is part of an optional chain. -/
structure Chain where
  expr : Expr
  optional : Bool := false

/-- The next link of a chain that is no call. -/
def memberLink (r : Rules) (chain : Chain) : Parser (Option Chain) := do
  let member (segment : Segment) : Chain :=
    { chain with
      expr := if chain.optional then .optionalMember chain.expr segment
        else .member chain.expr segment }
  if ← eatSign "." then return some (member (← dotSegment))
  if ← isSign "[" then return some (member (← indexSegment r))
  if ← isSign "`" then
    require !chain.optional
    return some { expr := ← taggedTemplate r chain.expr }
  if (← hasTypes) && (← isSign "!") && !(← atNewline) then
    advance
    return some { chain with expr := .wrapped .nonNull chain.expr }
  return none

/-- What follows the sign of an optional link. -/
def optionalLink (r : Rules) (e : Expr) : Parser Expr := do
  let _ ← callTypeArguments r
  if ← isSign "(" then return .optionalCall e (← arguments r)
  if ← isSign "[" then return .optionalMember e (← indexSegment r)
  require !(← isSign "`")
  return .optionalMember e (← dotSegment)

/-- The next link of a chain. -/
def link (r : Rules) (chain : Chain) : Parser (Option Chain) := do
  if ← eatSign "?." then return some { expr := ← optionalLink r chain.expr, optional := true }
  if ← isSign "(" then
    let args ← arguments r
    return some { chain with
      expr := if chain.optional then .optionalCall chain.expr args
        else .call (.expr chain.expr) args }
  if ← callTypeArguments r then
    if (← isSign "(") || (← isSign "`") then return some chain
    return some { expr := .other }
  memberLink r chain

/-- Access to the class that a class is derived from. -/
def superAccess (r : Rules) : Parser Expr := do
  expectWord "super"
  if ← isSign "(" then
    require (← read).superCall
    return .call .super (← arguments r)
  require (← read).superMember
  if ← eatSign "." then
    let _ ← dotSegment
  else
    let _ ← indexSegment r
  return .member .other (.name "")

/-- The import of a module while the program runs, or what is known about the own module. -/
def importAccess (r : Rules) : Parser Expr := do
  expectWord "import"
  if ← eatSign "." then
    expectWord "meta"
    return .other
  let args ← arguments r
  require !args.isEmpty
  return .call .importModule args

/-- What stands after `new`: what is constructed, and arguments if they are given. -/
def constructionRule (r : Rules) : Parser Expr := do
  if ← eatSign "." then
    expectWord "target"
    require (← read).inFunction
    return .other
  let callee ← (do
    if ← eatWord "new" then r.construction
    else if ← isWord "super" then
      require !(← peek (do advance; isSign "("))
      superAccess r
    else if ← isWord "import" then
      require (← peek (do advance; isSign "."))
      importAccess r
    else primary r)
  let chain ← repeatStep { expr := callee : Chain } (memberLink r)
  require !(← isSign "?.")
  let _ ← callTypeArguments r
  if ← isSign "(" then return .new chain.expr (← arguments r)
  return .new chain.expr []

/-- An operand with what is accessed in it and called of it. -/
def leftHandRule (r : Rules) : Parser Expr := do
  let first ← (do
    if ← isWord "new" then
      advance
      r.construction
    else if ← isWord "super" then superAccess r
    else if ← isWord "import" then importAccess r
    else primary r)
  return (← repeatStep { expr := first : Chain } (link r)).expr

/-! ## Operators -/

/-- The operator of one operand at the current token. -/
def unaryOperator? : Token → Option UnaryOp
  | .sign "-" => some .minus
  | .sign "+" => some .plus
  | .sign "!" => some .not
  | .sign "~" => some .complement
  | .word "typeof" false => some .typeof
  | .word "void" false => some .void
  | .word "delete" false => some .delete
  | _ => none

/-- Is an expression just a variable? -/
def isVariable : Expr → Bool
  | .ident _ => true
  | _ => false

/-- An assertion with the type in front. -/
def typeAssertion (r : Rules) : Parser Expr := do
  expectLeftAngle
  if ← eatWord "const" then
    expectRightAngle
    return .wrapped .asConst (← r.unary)
  anyType r
  expectRightAngle
  return .typeAssertion (← r.unary)

/-- An operand of the binary operators. -/
def unaryRule (r : Rules) : Parser Expr := do
  let token ← current
  if let some op := unaryOperator? token then
    advance
    let e ← r.unary
    require !(op == .delete && isVariable e)
    return .unary op e
  if token == .sign "++" || token == .sign "--" then
    advance
    require (isSimpleTarget (← r.unary))
    return .other
  if token == .word "await" false then
    require (← read).awaits
    advance
    return .await (← r.unary)
  if (← hasTypes) && !(← hasMarkup) && token == .sign "<" then return ← typeAssertion r
  let e ← leftHandRule r
  if ((← isSign "++") || (← isSign "--")) && !(← atNewline) then
    require (isSimpleTarget e)
    advance
    return .other
  return e

/-- Does an operator stand in front of an expression? -/
def isUnary : Expr → Bool
  | .unary _ _ => true
  | .await _ => true
  | .typeAssertion _ => true
  | _ => false

/-- Powers. A base has no operator in front. -/
def power (r : Rules) : Parser Expr := do
  let operands ← separated "**" (unaryRule r)
  require ((operands.dropLast).all fun e => !isUnary e)
  match operands.getLast? with
  | some e => return operands.dropLast.foldr (fun l e => .binary (.other "**") l e) e
  | none => failure

/-- The tree of an operator with its operands. -/
def binaryTree (symbol : String) (left right : Expr) : Expr :=
  .binary (if symbol = "+" then .add else .other symbol) left right

/-- Operands joined by some of the given signs, the left ones first. -/
def joinedBy (symbols : List String) (operand : Parser Expr) : Parser Expr := do
  let first ← operand
  repeatStep first fun left => do
    match ← current with
    | .sign s =>
      if symbols.contains s then
        advance
        return some (binaryTree s left (← operand))
      return none
    | _ => return none

/-- What follows `as` or `satisfies`. -/
def assertedType (r : Rules) (left : Expr) : Parser (Option Expr) := do
  if !(← hasTypes) || (← atNewline) then return none
  if ← eatWord "as" then
    if ← eatWord "const" then return some (.wrapped .asConst left)
    anyType r
    return some (.wrapped .asType left)
  if ← eatWord "satisfies" then
    anyType r
    return some (.wrapped .satisfies left)
  return none

/-- Comparisons and assertions of types. -/
def relation (r : Rules) (operand : Parser Expr) : Parser Expr := do
  let first ← operand
  repeatStep first fun left => do
    match ← current with
    | .sign s =>
      if ["<", ">", "<=", ">="].contains s then
        advance
        return some (binaryTree s left (← operand))
      return none
    | .word name false =>
      if name = "instanceof" || (name = "in" && !(← read).noIn) then
        advance
        return some (binaryTree name left (← operand))
      assertedType r left
    | _ => return none

/-- The operators that join bits and truth values, tightest first. -/
def logicalSigns : List (List String) :=
  [["==", "!=", "===", "!=="], ["&"], ["^"], ["|"]]

/-- The operands of the logical operators. -/
def bitwise (r : Rules) : Parser Expr :=
  let product := joinedBy ["*", "/", "%"] (power r)
  let sum := joinedBy ["+", "-"] product
  let shift := joinedBy ["<<", ">>", ">>>"] sum
  logicalSigns.foldl (fun operand symbols => joinedBy symbols operand) (relation r shift)

/-- Is an expression made by `&&` or `||`? -/
def isLogical : Expr → Bool
  | .binary (.other s) _ _ => s == "&&" || s == "||"
  | _ => false

/-- The logical operators. `??` does not mix with the others without parentheses. -/
def logical (r : Rules) : Parser Expr := do
  let operand := bitwise r
  let e ← joinedBy ["||"] (joinedBy ["&&"] operand)
  if !(← isSign "??") then return e
  require !isLogical e
  let e ← repeatStep e fun left => do
    if ← eatSign "??" then return some (binaryTree "??" left (← operand))
    return none
  require (!(← isSign "||") && !(← isSign "&&"))
  return e

/-- The branch of a conditional before its colon. -/
def thenBranch (r : Rules) : Parser Expr := do
  let e ← withReader ({ · with noIn := false }) r.value
  expectSign ":"
  return e

/-- A conditional expression. Where the branch before the colon can be read in two ways, an arrow
function in it gives way. -/
def conditional (r : Rules) : Parser Expr := do
  let test ← logical r
  if !(← eatSign "?") then return test
  let yes ← (do
    if !(← hasTypes) || !(← read).arrowTypes then return ← thenBranch r
    match ← attempt (thenBranch r) with
    | some e => return e
    | none => withReader ({ · with arrowTypes := false }) (thenBranch r))
  let no ← r.value
  return .conditional test yes no

/-! ## Arrow functions -/

/-- Go past an arrow, which stays on the line of the parameters. -/
def arrowSign : Parser Unit := do
  require !(← atNewline)
  expectSign "=>"

/-- Can the parameters of an arrow function start at the current parenthesis? -/
def atArrowParameters : Parser Bool := do
  if !(← isSign "(") then return false
  let types ← hasTypes
  peek (do
    advance
    match ← current with
    | .sign s => return [")", "...", "[", "\x7b"].contains s
    | .word _ _ => do
      advance
      match ← current with
      | .sign s => return [",", ")", "="].contains s || (types && [":", "?"].contains s)
      | _ => return false
    | _ => return false)

/-- The parameters of an arrow function in parentheses, with all that may stand around them, and
the arrow. -/
def arrowParameters (r : Rules) : Parser Unit := do
  optionalTypeParameters r
  require (← atArrowParameters)
  let _ ← parameters r false
  if (← read).arrowTypes then resultAnnotation r
  arrowSign

/-- The beginning of an arrow function up to its arrow. -/
def arrowHead (r : Rules) : Parser FunctionKind := do
  let isAsync ← (do
    if !(← isWord "async") then return false
    peek (do
      advance
      if ← atNewline then return false
      return (← atVariable) || (← isSign "(") || (← isSign "<")))
  if isAsync then advance
  match ← current with
  | .word _ _ => do
    let _ ← boundName
    arrowSign
  | _ => arrowParameters r
  return { isAsync }

/-- Can an arrow function start at the current token? -/
def atArrowHead : Parser Bool := do
  match ← current with
  | .word _ _ => return (← atVariable)
  | .sign "(" => atArrowParameters
  | .sign "<" => hasTypes
  | _ => return false

/-- The setting of the body of an arrow function. -/
def insideArrow {α : Type} (kind : FunctionKind) (p : Parser α) : Parser α :=
  withReader (fun s => { s.inside kind with yields := false, noIn := s.noIn }) p

/-- The body of an arrow function. -/
def arrowBody (r : Rules) (kind : FunctionKind) : Parser Expr := insideArrow kind (do
  if ← isSign "\x7b" then
    let _ ← withReader ({ · with noIn := false }) (braced r)
    return .other
  return .arrow (← r.value))

/-! ## Assignments -/

/-- The signs of assignments that compute. -/
def computingSigns : List String :=
  ["+=", "-=", "*=", "/=", "%=", "**=", "<<=", ">>=", ">>>=", "&=", "|=", "^=", "&&=", "||=",
    "??="]

/-- Handing a value out of a generator. -/
def yieldExpression (r : Rules) : Parser Expr := do
  expectWord "yield"
  if ← atNewline then return .other
  if ← eatSign "*" then
    let _ ← r.value
    return .other
  let ends ← (do
    match ← current with
    | .sign s => return [")", "]", "\x7d", ",", ";", ":"].contains s
    | .word "in" _ => return true
    | .word "of" _ => return true
    | .eof => return true
    | _ => return false)
  unless ends do
    let _ ← r.value
  return .other

/-- What follows the target of an assignment, if it is one. -/
def assignmentTail (r : Rules) (outer : Bool) (target : Expr) : Parser Expr := do
  match ← current with
  | .sign "=" => do
    require (isTarget target)
    modify ({ · with pending := outer })
    advance
    return .assign target (← r.value)
  | .sign s => do
    if computingSigns.contains s then
      require (isSimpleTarget target && !(← get).pending)
      advance
      let _ ← r.value
      modify ({ · with pending := outer })
      return .other
    modify fun c => { c with pending := outer || c.pending }
    return target
  | _ => do
    modify fun c => { c with pending := outer || c.pending }
    return target

/-- An expression without a comma at its top. -/
def assignmentRule (r : Rules) : Parser Expr := do
  if (← isWord "yield") && (← read).yields then return ← yieldExpression r
  if ← atArrowHead then
    if let some kind ← attempt (arrowHead r) then return ← arrowBody r kind
  let outer := (← get).pending
  modify ({ · with pending := false })
  let target ← conditional r
  assignmentTail r outer target

end StyleCompiler.Source
