import StyleCompiler.Source.Exchange

/-!
# Statements

Statements and declarations. Only declarations of variables keep their parts.
-/

namespace StyleCompiler.Source

/-! ## Variables -/

/-- The word that declares variables at the current token. -/
def varKind? : Token → Option VarKind
  | .word "const" false => some .const
  | .word "let" false => some .let
  | .word "var" false => some .var
  | _ => none

/-- Does a pattern have to be given a value where it is declared? -/
def needsValue (kind : VarKind) : Pattern → Bool
  | .name _ => kind == .const
  | .destructuring _ => true

/-- A declarator. The flag says whether its value may come from a loop instead. -/
def declarator (r : Rules) (kind : VarKind) (inLoop : Bool) : Parser Declarator := do
  let pattern ← r.binding
  if (← hasTypes) && !(← atNewline) && (← isSign "!") then
    advance
    require (← isSign ":")
  typeAnnotation r
  if ← eatSign "=" then return { pattern, init := some (← r.value) }
  let fromLoop := inLoop && ((← isWord "of") || (← isWord "in"))
  require (fromLoop || (← read).ambient || !needsValue kind pattern)
  return { pattern, init := none }

/-- The declarators of a declaration. -/
def declarators (r : Rules) (kind : VarKind) (inLoop : Bool) : Parser (List Declarator) :=
  separated "," (declarator r kind inLoop)

/-- A declaration of variables. -/
def variableDeclaration (r : Rules) (kind : VarKind) : Parser Stmt := do
  advance
  let ds ← declarators r kind false
  endStatement
  return .vars kind ds

/-! ## Control flow -/

/-- The words that start a declaration with a scope of its own. -/
def scopedWords : List String := ["const", "let", "class"]

/-- A statement that is no declaration. -/
def substatement (r : Rules) : Parser Stmt := do
  require !(← atFunction)
  match ← current with
  | .word name false => require !scopedWords.contains name
  | _ => pure ()
  r.statement

/-- A statement that is repeated. -/
def loopBody (r : Rules) : Parser Unit := do
  let _ ← withReader ({ · with breakable := true, continuable := true }) (substatement r)

/-- A condition in parentheses. -/
def condition (r : Rules) : Parser Unit := do
  expectSign "("
  let _ ← r.expression
  expectSign ")"

/-- A choice between statements. -/
def ifStatement (r : Rules) : Parser Unit := do
  expectWord "if"
  condition r
  let _ ← substatement r
  if ← eatWord "else" then
    let _ ← substatement r

/-- A loop with its condition first. -/
def whileStatement (r : Rules) : Parser Unit := do
  expectWord "while"
  condition r
  loopBody r

/-- A loop with its condition last. No semicolon is needed after it. -/
def doStatement (r : Rules) : Parser Unit := do
  expectWord "do"
  loopBody r
  expectWord "while"
  condition r
  let _ ← eatSign ";"

/-- An expression up to a sign, unless there is none. -/
def optionalExpression (r : Rules) (close : String) : Parser Unit := do
  unless ← isSign close do
    let _ ← r.expression
  expectSign close

/-- The rest of the head of a loop with a counter. -/
def counterHead (r : Rules) : Parser Unit := do
  expectSign ";"
  optionalExpression r ";"
  optionalExpression r ")"

/-- The rest of the head of a loop over something. -/
def iterationHead (r : Rules) (isAwait : Bool) : Parser Unit := do
  if ← eatWord "of" then
    let _ ← r.value
  else
    require !isAwait
    expectWord "in"
    let _ ← r.expression
  expectSign ")"

/-- Is the next word one that goes over something? -/
def atIteration : Parser Bool := return (← isWord "of") || (← isWord "in")

/-- The head of a loop that declares variables. -/
def declaringHead (r : Rules) (kind : VarKind) (isAwait : Bool) : Parser Unit := do
  advance
  let ds ← withReader ({ · with noIn := true }) (declarators r kind true)
  if ← atIteration then
    match ds with
    | [d] => do
      require d.init.isNone
      iterationHead r isAwait
    | _ => failure
  else
    require !isAwait
    counterHead r

/-- The head of a loop that starts with an expression. -/
def expressionHead (r : Rules) (isAwait : Bool) : Parser Unit := do
  let outer := (← get).pending
  modify ({ · with pending := false })
  let target ← withReader ({ · with noIn := true }) r.assignment
  if ← atIteration then
    require (isTarget target)
    modify ({ · with pending := outer })
    iterationHead r isAwait
  else
    require !(← get).pending
    modify ({ · with pending := outer })
    require !isAwait
    if ← eatSign "," then
      let _ ← withReader ({ · with noIn := true }) r.expression
    counterHead r

/-- A loop with its head in parentheses. -/
def forStatement (r : Rules) : Parser Unit := do
  expectWord "for"
  let isAwait ← eatWord "await"
  if isAwait then require (← read).awaits
  expectSign "("
  if ← isSign ";" then
    require !isAwait
    counterHead r
  else
    match varKind? (← current) with
    | some kind => declaringHead r kind isAwait
    | none => expressionHead r isAwait
  loopBody r

/-- One branch of a `switch`. The result says whether it is the default. -/
def switchCase (r : Rules) : Parser Bool := do
  let isDefault ← eatWord "default"
  unless isDefault do
    expectWord "case"
    let _ ← r.expression
  expectSign ":"
  let atEnd : Parser Bool :=
    return (← isWord "case") || (← isWord "default") || (← isSign "\x7d")
  let _ ← manyWhile (return !(← atEnd)) r.statement
  return isDefault

/-- A choice among values, with at most one default. -/
def switchStatement (r : Rules) : Parser Unit := do
  expectWord "switch"
  condition r
  expectSign "\x7b"
  let cases ← withReader ({ · with breakable := true })
    (manyWhile (return !(← isSign "\x7d")) (switchCase r))
  require ((cases.filter id).length ≤ 1)
  expectSign "\x7d"

/-- What is done when something was thrown. -/
def catchClause (r : Rules) : Parser Unit := do
  if ← eatSign "(" then
    let _ ← r.binding
    typeAnnotation r
    expectSign ")"
  let _ ← braced r

/-- A block with what is done when it fails and when it ends. -/
def tryStatement (r : Rules) : Parser Unit := do
  expectWord "try"
  let _ ← braced r
  let hasCatch ← eatWord "catch"
  if hasCatch then catchClause r
  let hasFinally ← eatWord "finally"
  if hasFinally then
    let _ ← braced r
  require (hasCatch || hasFinally)

/-- Leaving a function. -/
def returnStatement (r : Rules) : Parser Unit := do
  expectWord "return"
  require (← read).inFunction
  unless ← atStatementEnd do
    let _ ← r.expression
  endStatement

/-- Throwing a value. -/
def throwStatement (r : Rules) : Parser Unit := do
  expectWord "throw"
  require !(← atNewline)
  let _ ← r.expression
  endStatement

/-- Leaving a loop, or its round. A label has to be in sight. -/
def jumpStatement (word : String) (allowed : Bool) : Parser Unit := do
  expectWord word
  require allowed
  if !(← atNewline) && (← atVariable) then
    let label ← anyWord
    require ((← read).labels.contains label)
  endStatement

/-- A statement with a label that is not in use yet. It can be left. -/
def labelled (r : Rules) : Parser Unit := do
  let label ← variableName
  require !(← read).labels.contains label
  expectSign ":"
  let inside (s : Setting) : Setting :=
    { s with labels := label :: s.labels, breakable := true }
  let _ ← withReader inside (substatement r)

/-! ## Declarations of types -/

/-- Does a word follow the current token on the same line? -/
def wordFollows : Parser Bool := peek (do
  advance
  if ← atNewline then return false
  match ← current with
  | .word _ _ => return true
  | _ => return false)

/-- The members of an interface. -/
def interfaceDeclaration (r : Rules) : Parser Unit := do
  expectWord "interface"
  let name ← anyWord
  require (isTypeName name)
  optionalTypeParameters r
  if ← eatWord "extends" then
    let _ ← separated "," (do
      qualifiedName
      optionalTypeArguments r)
  typeMembers r

/-- A name for a type. -/
def aliasDeclaration (r : Rules) : Parser Unit := do
  expectWord "type"
  let name ← anyWord
  require (isTypeName name)
  optionalTypeParameters r
  expectSign "="
  anyType r
  endStatement

/-- Is a name for a type there? -/
def atAlias : Parser Bool := do
  if !(← isWord "type") || !(← wordFollows) then return false
  peek (do
    advance
    advance
    return (← isSign "=") || (← isSign "<"))

/-- A member of an enumeration. -/
def enumMember (r : Rules) : Parser Unit := do
  let key ← propertyKey r
  match key with
  | .ident _ => pure ()
  | .str _ => pure ()
  | .computed (.str _) => pure ()
  | _ => failure
  defaultValue r

/-- An enumeration. -/
def enumDeclaration (r : Rules) : Parser Unit := do
  expectWord "enum"
  let _ ← boundName
  expectSign "\x7b"
  let _ ← commaList (isSign "\x7d") (enumMember r)
  expectSign "\x7d"

/-- An item of a namespace, which may be exported. -/
def namespaceItem (r : Rules) : Parser Unit := do
  if ← isWord "export" then
    let _ ← exportItem r
  else if ← atImport then importItem
  else
    let _ ← r.statement

/-- The items of a namespace, in braces. -/
def namespaceBody (r : Rules) : Parser Unit := do
  expectSign "\x7b"
  let _ ← manyWhile (return !(← isSign "\x7d")) (namespaceItem r)
  expectSign "\x7d"

/-- A namespace, or what is known about a module. -/
def namespaceDeclaration (r : Rules) : Parser Unit := do
  match ← current with
  | .string _ => do
    advance
    if ← isSign "\x7b" then namespaceBody r else endStatement
  | _ => do
    let _ ← separated "." anyWord
    namespaceBody r

/-- Is a namespace there? -/
def atNamespace : Parser Bool := do
  if ← isWord "namespace" then return ← wordFollows
  if !(← isWord "module") then return false
  peek (do
    advance
    if ← atNewline then return false
    match ← current with
    | .word _ _ => return true
    | .string _ => return true
    | _ => return false)

/-- The words with which a declaration without a body starts. -/
def ambientWords : List String :=
  ["const", "let", "var", "function", "class", "enum", "namespace", "module", "global", "type",
    "interface", "abstract", "async"]

/-- Is something there that is only declared? -/
def atAmbient : Parser Bool := do
  if !(← isWord "declare") then return false
  peek (do
    advance
    if ← atNewline then return false
    match ← current with
    | .word name _ => return ambientWords.contains name
    | _ => return false)

/-- Something that is only declared. -/
def ambientDeclaration (r : Rules) : Parser Stmt := do
  expectWord "declare"
  withReader ({ · with ambient := true }) (do
    if (← isWord "global") && (← peek (do advance; isSign "\x7b")) then
      advance
      namespaceBody r
      return .other
    r.statement)

/-- A declaration of types, if one is there. -/
def typeDeclaration? (r : Rules) : Parser (Option Stmt) := do
  if ← atAmbient then return some (← ambientDeclaration r)
  if ← atAlias then
    aliasDeclaration r
    return some .other
  if (← isWord "interface") && (← wordFollows) then
    interfaceDeclaration r
    return some .other
  if ← isWord "enum" then
    enumDeclaration r
    return some .other
  if (← isWord "const") && (← peek (do advance; isWord "enum")) then
    advance
    enumDeclaration r
    return some .other
  if ← atNamespace then
    advance
    namespaceDeclaration r
    return some .other
  if (← isWord "abstract") && (← wordFollows) && (← peek (do advance; isWord "class")) then
    advance
    return some (← classDeclaration r true)
  return none

/-! ## Statements -/

/-- The words with which statements of their own form start. -/
def wordStatement? (r : Rules) (s : Setting) : String → Option (Parser Unit)
  | "if" => some (ifStatement r)
  | "for" => some (forStatement r)
  | "while" => some (whileStatement r)
  | "do" => some (doStatement r)
  | "switch" => some (switchStatement r)
  | "try" => some (tryStatement r)
  | "return" => some (returnStatement r)
  | "throw" => some (throwStatement r)
  | "break" => some (jumpStatement "break" s.breakable)
  | "continue" => some (jumpStatement "continue" s.continuable)
  | "debugger" => some (do advance; endStatement)
  | _ => none

/-- Is a label there? -/
def atLabel : Parser Bool := do
  if !(← atVariable) then return false
  peek (do advance; isSign ":")

/-- A statement or a declaration. -/
def statementRule (r : Rules) : Parser Stmt := do
  if ← isSign "\x7b" then return .block (← braced r)
  if ← eatSign ";" then return .empty
  if ← hasTypes then
    if let some stmt ← typeDeclaration? r then return stmt
  if ← atFunction then return ← functionDeclaration r
  if ← isWord "class" then return ← classDeclaration r false
  if let some kind := varKind? (← current) then return ← variableDeclaration r kind
  if let .word name false ← current then
    if let some p := wordStatement? r (← read) name then
      p
      return .other
  if ← atLabel then
    labelled r
    return .other
  let e ← expressionOf (assignmentRule r)
  endStatement
  return .expr e

end StyleCompiler.Source
