import StyleCompiler.Source.Parser

/-!
# Bindings

Names and patterns that are bound, and the parameters of functions.
-/

namespace StyleCompiler.Source

/-- The key of a property, a class element or a pattern. -/
def propertyKey (r : Rules) : Parser Key := do
  match ← current with
  | .word name _ => do
    advance
    return .ident name
  | .string text => do
    advance
    return .str text
  | .number value => do
    advance
    return .num value
  | .bigint digits => do
    advance
    return .bigint digits
  | .sign "[" => do
    advance
    let e ← nested r.value
    expectSign "]"
    return .computed e
  | _ => failure

/-- The names that a pattern binds. -/
def patternNames : Pattern → List String
  | .name name => [name]
  | .destructuring names => names

/-- A default value, if one is given. -/
def defaultValue (r : Rules) : Parser Unit := do
  if ← eatSign "=" then
    let _ ← nested r.value

/-- Something bound, with a default value if one is given. -/
def bindingWithDefault (r : Rules) : Parser (List String) := do
  let pattern ← r.binding
  defaultValue r
  return patternNames pattern

/-- The rest of a pattern: nothing may follow it, not even a comma. -/
def restBinding (close : String) (target : Parser Pattern) : Parser (List String) := do
  let pattern ← target
  require (← isSign close)
  return patternNames pattern

/-- An element of an array pattern. -/
def arrayPatternElement (r : Rules) : Parser (List String) := do
  if ← isSign "," then return []
  if ← eatSign "..." then restBinding "]" r.binding
  else bindingWithDefault r

/-- A property of an object pattern. -/
def objectPatternProperty (r : Rules) : Parser (List String) := do
  if ← eatSign "..." then
    return ← restBinding "\x7d" (return .name (← boundName))
  let shorthand ← peek (do
    match ← attempt boundName with
    | some name => return if ← isSign ":" then none else some name
    | none => return none)
  match shorthand with
  | some name =>
    advance
    defaultValue r
    return [name]
  | none =>
    let _ ← propertyKey r
    expectSign ":"
    bindingWithDefault r

/-- A name or a pattern. -/
def bindingRule (r : Rules) : Parser Pattern := do
  if ← eatSign "[" then
    let names ← commaList (isSign "]") (arrayPatternElement r)
    expectSign "]"
    return .destructuring names.flatten
  if ← eatSign "\x7b" then
    let names ← commaList (isSign "\x7d") (objectPatternProperty r)
    expectSign "\x7d"
    return .destructuring names.flatten
  return .name (← boundName)

/-! ## Parameters -/

/-- A type annotation, if one is given and the language has them. -/
def typeAnnotation (r : Rules) : Parser Unit := do
  if ← hasTypes then
    if ← eatSign ":" then r.type

/-- The words that may stand before a parameter of a constructor. -/
def parameterModifiers : List String := ["public", "private", "protected", "readonly", "override"]

/-- Go past the words before a parameter that is kept as a member. -/
def skipParameterModifiers : Parser Unit := do
  let _ ← repeatStep () fun _ => do
    match ← current with
    | .word name false =>
      if !parameterModifiers.contains name then return none
      let more ← peek (do
        advance
        match ← current with
        | .word _ _ => return true
        | .sign s => return s = "\x7b" || s = "["
        | _ => return false)
      if more then
        advance
        return some ()
      return none
    | _ => return none

/-- A parameter. The flag in the result says that it takes the remaining arguments. -/
def parameter (r : Rules) (keeps : Bool) : Parser (Pattern × Bool) := do
  let types ← hasTypes
  if types && keeps then skipParameterModifiers
  if ← eatSign "..." then
    let pattern ← r.binding
    typeAnnotation r
    return (pattern, true)
  if types && (← isWord "this") then
    advance
    typeAnnotation r
    return (.name "this", false)
  let pattern ← r.binding
  if types then
    let _ ← eatSign "?"
  typeAnnotation r
  defaultValue r
  return (pattern, false)

/-- The parameters of a function, in parentheses. -/
def parameters (r : Rules) (keeps : Bool) : Parser (List Pattern) := do
  expectSign "("
  let (patterns, _) ← repeatStep ([], true) fun (patterns, more) => do
    if !more || (← isSign ")") then return none
    let (pattern, isRest) ← nested (parameter r keeps)
    if isRest then return some (pattern :: patterns, false)
    return some (pattern :: patterns, ← eatSign ",")
  expectSign ")"
  return patterns.reverse

end StyleCompiler.Source
