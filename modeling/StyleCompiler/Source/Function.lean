import StyleCompiler.Source.TypeAnnotation

/-!
# Functions and classes

Functions, methods and classes are read for their form; nothing inside them makes a style.
-/

namespace StyleCompiler.Source

/-! ## Functions -/

/-- How a function runs. -/
structure FunctionKind where
  isAsync : Bool := false
  isGenerator : Bool := false

/-- The setting of the parameters and the body of a function. -/
def Setting.inside (s : Setting) (kind : FunctionKind) : Setting :=
  { s with
    inFunction := true
    awaits := kind.isAsync
    yields := kind.isGenerator
    breakable := false
    continuable := false
    labels := []
    noIn := false
    arrowTypes := true
    plainType := false }

/-- Run a parser inside a function that is no method. -/
def insideFunction {α : Type} (kind : FunctionKind) (p : Parser α) : Parser α :=
  withReader (fun s => { s.inside kind with superMember := false, superCall := false }) p

/-- Run a parser inside a method. -/
def insideMethod {α : Type} (kind : FunctionKind) (superCall : Bool) (p : Parser α) : Parser α :=
  withReader (fun s => { s.inside kind with superMember := true, superCall }) p

/-- Statements in braces. -/
def braced (r : Rules) : Parser (List Stmt) := do
  expectSign "\x7b"
  let body ← manyWhile (return !(← isSign "\x7d")) r.statement
  expectSign "\x7d"
  return body

/-- The body of a function. Where there are types, it may be missing. -/
def functionBody (r : Rules) : Parser (Option (List Stmt)) := do
  if ← isSign "\x7b" then return some (← braced r)
  require (← hasTypes)
  endStatement
  return none

/-- Parameters, the type of the result and the body of a function. -/
def functionTail (r : Rules) : Parser (List Stmt) := do
  optionalTypeParameters r
  let _ ← parameters r false
  resultAnnotation r
  return (← functionBody r).getD []

/-- Go past `async`, if the word `function` follows it on the same line, and past `function` and
the star of a generator. -/
def functionHead : Parser FunctionKind := do
  let isAsync ← eatWord "async"
  if isAsync then require !(← atNewline)
  expectWord "function"
  let isGenerator ← eatSign "*"
  return { isAsync, isGenerator }

/-- Is a function there? -/
def atFunction : Parser Bool := do
  if ← isWord "function" then return true
  if !(← isWord "async") then return false
  peek (do
    advance
    return (← isWord "function") && !(← atNewline))

/-- A function declaration. -/
def functionDeclaration (r : Rules) : Parser Stmt := do
  let kind ← functionHead
  let name ← boundName
  return .function name (← insideFunction kind (functionTail r))

/-- A function expression, which needs no name but a body. -/
def functionExpression (r : Rules) : Parser Expr := do
  let kind ← functionHead
  insideFunction kind (do
    let _ ← attempt boundName
    optionalTypeParameters r
    let _ ← parameters r false
    resultAnnotation r
    let _ ← braced r)
  return .other

/-! ## Methods -/

/-- What a method does. -/
inductive MethodRole where
  | plain
  | getter
  | setter
deriving DecidableEq

/-- Does the number of parameters fit the role? A first parameter `this` does not count. -/
def fitsRole (role : MethodRole) (patterns : List Pattern) : Bool :=
  let patterns := match patterns with
    | .name "this" :: rest => rest
    | patterns => patterns
  match role with
  | .plain => true
  | .getter => patterns.isEmpty
  | .setter => patterns.length == 1

/-- Parameters and body of a method; gives the parameters and whether there is a body. -/
def methodTail (r : Rules) (role : MethodRole) (keeps : Bool) : Parser (List Pattern × Bool) := do
  optionalTypeParameters r
  let patterns ← parameters r keeps
  require (fitsRole role patterns)
  resultAnnotation r
  return (patterns, (← functionBody r).isSome)

/-! ## Classes -/

/-- The words that may stand before a member of a class. -/
def memberModifiers : List String :=
  ["declare", "public", "private", "protected", "static", "abstract", "override", "readonly",
    "accessor"]

/-- Go past the words before a member of a class and give them. -/
def skipMemberModifiers : Parser (List String) := do
  let types ← hasTypes
  repeatStep [] fun found => do
    match ← current with
    | .word name false =>
      let known := if types then memberModifiers.contains name else name == "static"
      if known && !found.contains name && (← isModifier name) then
        advance
        return some (name :: found)
      return none
    | _ => return none

/-- The key of a class member. -/
def memberKey (r : Rules) : Parser Key := do
  match ← current with
  | .hidden name => do
    require (name != "constructor")
    advance
    return .ident ("#" ++ name)
  | _ => propertyKey r

/-- Is this the key of the constructor? -/
def isConstructorKey : Key → Bool
  | .ident name => name == "constructor"
  | .str text => text == some "constructor"
  | _ => false

/-- Is this the key of the prototype? -/
def isPrototypeKey : Key → Bool
  | .ident name => name == "prototype"
  | .str text => text == some "prototype"
  | _ => false

/-- What is known about a class while its members are read. -/
structure ClassShape where
  isDerived : Bool
  isAbstract : Bool

/-- A field of a class, after its key. -/
def field (r : Rules) : Parser Unit := do
  typeAnnotation r
  insideMethod {} false (do
    if ← eatSign "=" then
      let _ ← r.value)
  endStatement

/-- A member of a class. The result says whether it is the constructor with its body. -/
def classMember (r : Rules) (shape : ClassShape) : Parser Bool := do
  if ← eatSign ";" then return false
  if (← isWord "static") && (← peek (do advance; isSign "\x7b")) then
    advance
    let _ ← withReader ({ · with inFunction := false }) <| insideMethod {} false (braced r)
    return false
  let types ← hasTypes
  let modifiers ← skipMemberModifiers
  let isStatic := modifiers.contains "static"
  let isAbstract := modifiers.contains "abstract"
  require (!isAbstract || shape.isAbstract)
  if types then
    if (← attempt (do indexSignature r; endMember)).isSome then return false
  let isAsync := (← isModifier "async") && !(← peek (do advance; atNewline))
  if isAsync then advance
  let isGenerator ← eatSign "*"
  let role ← (do
    if isAsync || isGenerator then return .plain
    if ← eatModifier "get" then return .getter
    if ← eatModifier "set" then return .setter
    return MethodRole.plain)
  let key ← memberKey r
  let isConstructor := isConstructorKey key && !isStatic
  require !(isStatic && isPrototypeKey key)
  if types then
    unless ← eatSign "?" do
      if !(← atNewline) then
        let _ ← eatSign "!"
  if (← isSign "(") || (types && (← isSign "<")) then
    require !(isConstructor && (isAsync || isGenerator || role != .plain))
    let kind : FunctionKind := { isAsync, isGenerator }
    let (_, hasBody) ← insideMethod kind (isConstructor && shape.isDerived)
      (methodTail r role isConstructor)
    require !(isAbstract && hasBody)
    return isConstructor && hasBody
  require (!isAsync && !isGenerator && role == .plain)
  require !isConstructorKey key
  field r
  return false

/-- The members of a class, in braces, with at most one constructor. -/
def classBody (r : Rules) (shape : ClassShape) : Parser Unit := do
  expectSign "\x7b"
  let constructors ← manyWhile (return !(← isSign "\x7d")) (classMember r shape)
  require ((constructors.filter id).length ≤ 1)
  expectSign "\x7d"

/-- A class from the word `class` on. It may go without a name. -/
def classTail (r : Rules) (isAbstract : Bool) : Parser (Option String) := do
  expectWord "class"
  let name ← attempt boundName
  optionalTypeParameters r
  let isDerived ← eatWord "extends"
  if isDerived then
    let _ ← r.leftHand
    optionalTypeArguments r
  if ← hasTypes then
    if ← eatWord "implements" then
      let _ ← separated "," (anyType r)
  classBody r { isDerived, isAbstract }
  return name

/-- A class declaration, which needs a name. -/
def classDeclaration (r : Rules) (isAbstract : Bool) : Parser Stmt := do
  let name ← classTail r isAbstract
  require name.isSome
  return .other

end StyleCompiler.Source
