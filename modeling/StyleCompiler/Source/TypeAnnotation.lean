import StyleCompiler.Source.Binding
import StyleCompiler.Source.Template

/-!
# Types

Types are read and forgotten: they say nothing about styles.
-/

namespace StyleCompiler.Source

/-- Run a type parser where a conditional type may stand. -/
def anyType (r : Rules) : Parser Unit := withReader ({ · with plainType := false }) r.type

/-- Run a type parser where no conditional type may stand. -/
def plainType (r : Rules) : Parser Unit := withReader ({ · with plainType := true }) r.type

/-- The words with which a type may start although they are no names. -/
def typeWords : List String :=
  ["this", "void", "null", "true", "false", "typeof", "import", "new", "function"]

/-- Can a word be the name of a type? -/
def isTypeName (name : String) : Bool := !reservedWords.contains name || name == "this"

/-- Can a type start at the current token? -/
def atTypeStart : Parser Bool := do
  match ← current with
  | .word name _ => return !reservedWords.contains name || typeWords.contains name
  | .string _ => return true
  | .number _ => return true
  | .bigint _ => return true
  | .sign s => return ["\x7b", "[", "(", "<", "<<", "-", "`", "..."].contains s
  | _ => return false

/-! ## Parameters and arguments of types -/

/-- Go past the words before the name of a type parameter. -/
def skipVariance : Parser Unit := do
  let _ ← repeatStep () fun _ => do
    if (← isWord "const") || (← isWord "in") then
      advance
      return some ()
    if (← isWord "out") && (← peek (do advance; attempt anyWord)).isSome then
      advance
      return some ()
    return none

/-- A type parameter. -/
def typeParameter (r : Rules) : Parser Unit := do
  skipVariance
  let name ← anyWord
  require (isTypeName name)
  if ← eatWord "extends" then anyType r
  if ← eatSign "=" then anyType r

/-- The type parameters of a declaration, at least one. -/
def typeParameters (r : Rules) : Parser Unit := do
  expectLeftAngle
  let ps ← commaList (do splitSign '>'; isSign ">") (typeParameter r)
  require !ps.isEmpty
  expectRightAngle

/-- Type parameters, if there are any and the language has them. -/
def optionalTypeParameters (r : Rules) : Parser Unit := do
  if (← hasTypes) && (← isSign "<") then typeParameters r

/-- The type arguments of a use, at least one. -/
def typeArguments (r : Rules) : Parser Unit := do
  expectLeftAngle
  let _ ← separated "," (anyType r)
  expectRightAngle

/-- Type arguments on the same line, if there are any. -/
def optionalTypeArguments (r : Rules) : Parser Unit := do
  if (← hasTypes) && !(← atNewline) then
    if (← isSign "<") || (← isSign "<<") then typeArguments r

/-- A name with qualifiers. -/
def qualifiedName : Parser Unit := do
  let name ← anyWord
  require (isTypeName name)
  let _ ← repeatStep () fun _ => do
    if ← eatSign "." then
      let _ ← anyWord
      return some ()
    return none

/-! ## Results of functions -/

/-- What a function says about a parameter by returning. -/
def typePredicate (r : Rules) : Parser Unit := do
  let name ← anyWord
  require (isTypeName name)
  require !(← atNewline)
  expectWord "is"
  anyType r

/-- What a function says about a parameter by not failing. -/
def assertion (r : Rules) : Parser Unit := do
  expectWord "asserts"
  require !(← atNewline)
  let name ← anyWord
  require (isTypeName name && name != "is")
  if ← eatWord "is" then anyType r

/-- The type of the result of a function. -/
def resultType (r : Rules) : Parser Unit := do
  if (← attempt (assertion r)).isSome then return
  if (← attempt (typePredicate r)).isSome then return
  r.type

/-- The annotated type of a result, if one is given. -/
def resultAnnotation (r : Rules) : Parser Unit := do
  if ← hasTypes then
    if ← eatSign ":" then withReader ({ · with plainType := false }) (resultType r)

/-- Type parameters, parameters and the type of the result. -/
def signature (r : Rules) : Parser Unit := do
  optionalTypeParameters r
  let _ ← parameters r false
  resultAnnotation r

/-- The type of a function or of a constructor. -/
def functionType (r : Rules) : Parser Unit := do
  let _ ← eatWord "abstract"
  let _ ← eatWord "new"
  optionalTypeParameters r
  let _ ← parameters r false
  expectSign "=>"
  resultType r

/-! ## Object types -/

/-- The end of a member of an object type. -/
def endMember : Parser Unit := do
  unless ← eatSign "," do endStatement

/-- The index signature `[key: T]: T`, from its bracket on. -/
def indexSignature (r : Rules) : Parser Unit := do
  expectSign "["
  let _ ← variableName
  expectSign ":"
  anyType r
  expectSign "]"
  typeAnnotation r

/-- Is a word there as a modifier: does the name of a member follow it? -/
def isModifier (name : String) : Parser Bool := do
  if !(← isWord name) then return false
  peek (do
    advance
    match ← current with
    | .word _ _ => return true
    | .string _ => return true
    | .number _ => return true
    | .bigint _ => return true
    | .hidden _ => return true
    | .sign s => return s = "[" || s = "*"
    | _ => return false)

/-- Go past a modifier if it is there. -/
def eatModifier (name : String) : Parser Bool := do
  if ← isModifier name then
    advance
    return true
  return false

/-- Is the current token the beginning of parameters? -/
def atSignature : Parser Bool := return (← isSign "(") || (← isSign "<")

/-- A member of an object type. -/
def typeMember (r : Rules) : Parser Unit := do
  if ← atSignature then
    signature r
    return ← endMember
  if (← isWord "new") && (← peek (do advance; atSignature)) then
    advance
    signature r
    return ← endMember
  let _ ← eatModifier "readonly"
  if (← attempt (indexSignature r)).isSome then return ← endMember
  if (← isModifier "get") || (← isModifier "set") then
    advance
  let _ ← propertyKey r
  let _ ← eatSign "?"
  if ← atSignature then signature r else typeAnnotation r
  endMember

/-- The members of an object type or an interface, in braces. -/
def typeMembers (r : Rules) : Parser Unit := do
  expectSign "\x7b"
  let _ ← manyWhile (return !(← isSign "\x7d")) (typeMember r)
  expectSign "\x7d"

/-- The word `readonly` or a question mark, with a sign before it or without. -/
def mappedModifier (modifier : Parser Bool) : Parser Unit := do
  if (← isSign "+") || (← isSign "-") then
    advance
    require (← modifier)
  else
    let _ ← modifier

/-- A type with a member for each of a type's values. -/
def mappedType (r : Rules) : Parser Unit := do
  expectSign "\x7b"
  mappedModifier (eatWord "readonly")
  expectSign "["
  let _ ← anyWord
  expectWord "in"
  anyType r
  if ← eatWord "as" then anyType r
  expectSign "]"
  mappedModifier (eatSign "?")
  typeAnnotation r
  let _ ← eatSign ";"
  let _ ← eatSign ","
  expectSign "\x7d"

/-! ## Types -/

/-- An element of a tuple, with a name or without. -/
def tupleElement (r : Rules) : Parser Unit := do
  let _ ← eatSign "..."
  let named ← attempt (do
    let _ ← anyWord
    let _ ← eatSign "?"
    expectSign ":")
  anyType r
  if named.isNone then
    let _ ← eatSign "?"

/-- A type that refers to another module. -/
def importType (r : Rules) : Parser Unit := do
  expectWord "import"
  expectSign "("
  anyType r
  if ← eatSign "," then
    unless ← isSign ")" do
      let _ ← r.value
      let _ ← eatSign ","
  expectSign ")"
  if ← eatSign "." then qualifiedName
  optionalTypeArguments r

/-- A type without operators. -/
def primaryType (r : Rules) : Parser Unit := do
  match ← current with
  | .string _ => advance
  | .number _ => advance
  | .bigint _ => advance
  | .sign "-" => do
    advance
    match ← current with
    | .number _ => advance
    | .bigint _ => advance
    | _ => failure
  | .sign "`" => do
    let _ ← templateOf (anyType r)
  | .sign "(" => do
    advance
    anyType r
    expectSign ")"
  | .sign "[" => do
    advance
    let _ ← commaList (isSign "]") (tupleElement r)
    expectSign "]"
  | .sign "\x7b" => do
    unless (← attempt (mappedType r)).isSome do typeMembers r
  | .word "void" _ => advance
  | .word "null" _ => advance
  | .word "true" _ => advance
  | .word "false" _ => advance
  | .word "import" _ => importType r
  | .word "typeof" _ => do
    advance
    if ← isWord "import" then importType r
    else
      qualifiedName
      optionalTypeArguments r
  | .word _ _ => do
    qualifiedName
    optionalTypeArguments r
  | _ => failure

/-- A type with brackets after it. -/
def bracketType (r : Rules) : Parser Unit := do
  primaryType r
  let _ ← repeatStep () fun _ => do
    if (← isSign "[") && !(← atNewline) then
      advance
      unless ← isSign "]" do anyType r
      expectSign "]"
      return some ()
    return none

/-- Go past the words that make one type of another. -/
def skipTypeOperators : Parser Unit := do
  let _ ← repeatStep () fun _ => do
    let operator := (← isWord "keyof") || (← isWord "unique") || (← isWord "readonly")
    if operator && (← peek (do advance; atTypeStart)) then
      advance
      return some ()
    return none

/-- A type that is inferred, with a bound if one is given. -/
def inferType (r : Rules) : Parser Unit := do
  expectWord "infer"
  let _ ← anyWord
  let conditional := !(← read).plainType
  let _ ← attempt (do
    expectWord "extends"
    plainType r
    require !(conditional && (← isSign "?")))

/-- A type with operators before it. -/
def operatorType (r : Rules) : Parser Unit := do
  skipTypeOperators
  if (← isWord "infer") && (← peek (do advance; attempt anyWord)).isSome then inferType r
  else if (← attempt (peek (do let _ ← eatWord "abstract"; expectWord "new"))).isSome then
    functionType r
  else bracketType r

/-- Types joined by a sign, which may also stand first. -/
def joinedType (sign : String) (part : Parser Unit) : Parser Unit := do
  let _ ← eatSign sign
  let _ ← separated sign part

/-- A union of intersections. -/
def unionType (r : Rules) : Parser Unit := joinedType "|" (joinedType "&" (operatorType r))

/-- Is the type of a function there? -/
def atFunctionType : Parser Bool := do
  return (← isSign "<") || (← isWord "new") ||
    ((← isWord "abstract") && (← peek (do advance; isWord "new")))

/-- A type. -/
def typeRule (r : Rules) : Parser Unit := do
  if ← atFunctionType then return ← functionType r
  if ← isSign "(" then
    if (← attempt (functionType r)).isSome then return
  unionType r
  if !(← read).plainType && !(← atNewline) && (← isWord "extends") then
    advance
    plainType r
    expectSign "?"
    anyType r
    expectSign ":"
    anyType r

end StyleCompiler.Source
