import StyleCompiler.Source.Expression

/-!
# Imports and exports

The items with which a module takes from others and gives to them. An exported declaration stays
in the tree, since it may make a style.
-/

namespace StyleCompiler.Source

/-! ## Parts -/

/-- The name of a module. -/
def moduleName : Parser Unit := do
  match ← current with
  | .string _ => advance
  | _ => failure

/-- An attribute of an import. -/
def importAttribute : Parser Unit := do
  match ← current with
  | .word _ _ => advance
  | .string _ => advance
  | _ => failure
  expectSign ":"
  moduleName

/-- The attributes of an import, if there are any. -/
def importAttributes : Parser Unit := do
  if ← atNewline then return
  if (← isWord "with") || (← isWord "assert") then
    advance
    expectSign "\x7b"
    let _ ← commaList (isSign "\x7d") importAttribute
    expectSign "\x7d"

/-- The module that names come from, and the end of the item. -/
def fromClause : Parser Unit := do
  expectWord "from"
  moduleName
  importAttributes
  endStatement

/-- A name on the other side: a word or a string. -/
inductive ForeignName where
  | word (name : String)
  | text

/-- Go past the name of something exported. -/
def foreignName : Parser ForeignName := do
  match ← current with
  | .word name _ => do
    advance
    return .word name
  | .string text => do
    require text.isSome
    advance
    return .text
  | _ => failure

/-- Go past the word `type` before a name, if it is no name itself. -/
def skipTypeWord : Parser Unit := do
  if !(← hasTypes) || !(← isWord "type") then return
  let isModifierHere ← peek (do
    advance
    match ← current with
    | .string _ => return true
    | .word "as" _ => do
      -- `type as x` renames `type`, `type as` and `type as as x` import `as`
      advance
      match ← current with
      | .word "as" _ => do
        advance
        match ← current with
        | .word _ _ => return true
        | _ => return false
      | .word _ _ => return false
      | _ => return true
    | .word _ _ => return true
    | _ => return false)
  if isModifierHere then advance

/-- One of the names that are imported. -/
def importSpecifier : Parser Unit := do
  skipTypeWord
  let name ← foreignName
  if ← eatWord "as" then
    let _ ← boundName
  else
    match name with
    | .word name => require (isBindableName name)
    | .text => failure

/-- One of the names that are exported. The result says whether it can name a variable of the
module itself. -/
def exportSpecifier : Parser Bool := do
  skipTypeWord
  let name ← foreignName
  if ← eatWord "as" then
    let _ ← foreignName
  match name with
  | .word name => return isVariableName name
  | .text => return false

/-! ## Imports -/

/-- The names that are imported, in braces. -/
def importedNames : Parser Unit := do
  expectSign "\x7b"
  let _ ← commaList (isSign "\x7d") importSpecifier
  expectSign "\x7d"

/-- The name for all that is imported. -/
def importedNamespace : Parser Unit := do
  expectSign "*"
  expectWord "as"
  let _ ← boundName

/-- What `import name =` stands for. -/
def importAlias : Parser Unit := do
  expectSign "="
  if (← isWord "require") && (← peek (do advance; isSign "(")) then
    advance
    expectSign "("
    moduleName
    expectSign ")"
  else qualifiedName
  endStatement

/-- What is imported, from the first name on. -/
def importClause : Parser Unit := do
  if ← isSign "\x7b" then
    importedNames
    return ← fromClause
  if ← isSign "*" then
    importedNamespace
    return ← fromClause
  let _ ← boundName
  if (← hasTypes) && (← isSign "=") then return ← importAlias
  if ← eatSign "," then
    if ← isSign "\x7b" then importedNames else importedNamespace
  fromClause

/-- Is the word `type` there to say that only types are imported? -/
def atTypeOnly : Parser Bool := do
  if !(← hasTypes) || !(← isWord "type") then return false
  peek (do
    advance
    match ← current with
    | .sign s => return s = "\x7b" || s = "*"
    | .word "from" _ => do
      advance
      return (← isWord "from") || (← isSign "=")
    | .word _ _ => return true
    | _ => return false)

/-- An import. -/
def importItem : Parser Unit := do
  expectWord "import"
  match ← current with
  | .string _ => do
    moduleName
    importAttributes
    endStatement
  | _ => do
    if ← atTypeOnly then advance
    importClause

/-- Is an import there, and not an expression that starts with the same word? -/
def atImport : Parser Bool := do
  if !(← isWord "import") then return false
  return !(← peek (do advance; return (← isSign "(") || (← isSign ".")))

/-! ## Exports -/

/-- The names that are exported. Names of other modules may be any. -/
def exportedNames : Parser Item := do
  expectSign "\x7b"
  let own ← commaList (isSign "\x7d") exportSpecifier
  expectSign "\x7d"
  if ← isWord "from" then fromClause
  else
    require (own.all id)
    endStatement
  return .other

/-- All that another module exports. -/
def exportedAll : Parser Item := do
  expectSign "*"
  if ← eatWord "as" then
    let _ ← foreignName
  fromClause
  return .other

/-- What is exported as the default. -/
def exportedDefault (r : Rules) : Parser Item := do
  if ← atFunction then
    let kind ← functionHead
    let _ ← attempt boundName
    let _ ← insideFunction kind (functionTail r)
    return .other
  if ← isWord "class" then
    let _ ← classTail r false
    return .other
  if ← hasTypes then
    let next : Parser Bool := peek (do
      advance
      if ← atNewline then return false
      match ← current with
      | .word _ _ => return true
      | _ => return false)
    if (← isWord "abstract") && (← peek (do advance; isWord "class")) then
      advance
      let _ ← classTail r true
      return .other
    if (← isWord "interface") && (← next) then
      let _ ← r.statement
      return .other
  let e ← r.value
  endStatement
  return .exportDefault e

/-- The words with which an exported declaration starts. -/
def declarationWords : List String := ["const", "let", "var", "function", "class", "async"]

/-- The words with which an exported declaration starts where there are types. -/
def typedDeclarationWords : List String :=
  ["type", "interface", "enum", "namespace", "module", "declare", "abstract"]

/-- A declaration that is exported. -/
def exportedDeclaration (r : Rules) : Parser Item := do
  match ← current with
  | .word name false => do
    let types ← hasTypes
    require (declarationWords.contains name || (types && typedDeclarationWords.contains name))
    match ← r.statement with
    | .expr _ => failure
    | stmt => return .exported stmt
  | _ => failure

/-- An export. -/
def exportItem (r : Rules) : Parser Item := do
  expectWord "export"
  let types ← hasTypes
  if ← isSign "\x7b" then return ← exportedNames
  if ← isSign "*" then return ← exportedAll
  if ← eatWord "default" then return ← exportedDefault r
  if types then
    if ← eatSign "=" then
      let _ ← r.expression
      endStatement
      return .other
    if ← eatWord "as" then
      expectWord "namespace"
      let _ ← boundName
      endStatement
      return .other
    if ← isWord "import" then
      advance
      if ← atTypeOnly then advance
      let _ ← boundName
      importAlias
      return .other
    let typeList ← (do
      if !(← isWord "type") then return false
      peek (do advance; return (← isSign "\x7b") || (← isSign "*")))
    if typeList then
      advance
      if ← isSign "*" then return ← exportedAll
      return ← exportedNames
  exportedDeclaration r

end StyleCompiler.Source
