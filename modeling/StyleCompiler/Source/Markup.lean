import StyleCompiler.Source.TypeAnnotation

/-!
# Markup

Elements in expressions. Between the tags stands text, so the parser of an element stops at its
last sign and leaves it to the surroundings how to read on.
-/

namespace StyleCompiler.Source

/-- Make the token after a text the current one. -/
def moveTo (cs : List Char) : Parser Unit := modify fun c => tokenAfter false cs c.pending

/-- Go past a name, in which hyphens may stand, and give it. -/
def markupName : Parser String := do
  match (← get).token with
  | .word _ _ =>
    let isPart (c : Char) : Bool := isIdentifierPart c || c = '-'
    let text := (← get).start
    moveTo (text.dropWhile isPart)
    return String.ofList (text.takeWhile isPart)
  | _ => failure

/-- The name of an element: plain, with a namespace, or a member. -/
def elementName : Parser String := do
  let first ← markupName
  if ← eatSign ":" then return first ++ ":" ++ (← markupName)
  repeatStep first fun name => do
    if ← eatSign "." then return some (name ++ "." ++ (← markupName))
    return none

/-- The text of a quoted attribute, in which nothing is escaped, from its quote on. -/
def readAttribute : List Char → Option (List Char)
  | quote :: cs =>
    if quote = '"' || quote = '\'' then
      match cs.dropWhile (· != quote) with
      | _ :: rest => some rest
      | [] => none
    else none
  | [] => none

/-- The value of an attribute. The current token is the sign before it. -/
def attributeValue (r : Rules) : Parser Unit := do
  match skipGap false (← get).rest with
  | some (_, cs) =>
    match readAttribute cs with
    | some rest => moveTo rest
    | none =>
      advance
      if ← eatSign "\x7b" then
        let _ ← nested r.expression
        expectSign "\x7d"
      else
        require (← isSign "<")
        r.element
        advance
  | none => failure

/-- An attribute. -/
def markupAttribute (r : Rules) : Parser Unit := do
  if ← eatSign "\x7b" then
    expectSign "..."
    let _ ← nested r.value
    expectSign "\x7d"
  else
    let _ ← markupName
    if ← eatSign ":" then
      let _ ← markupName
    if ← isSign "=" then attributeValue r

/-- Read text between tags up to the next tag or interpolation. Closing signs have to be written
otherwise. -/
def readMarkupText : List Char → Option (List Char)
  | [] => none
  | c :: cs =>
    if c = '{' || c = '<' then some (c :: cs)
    else if c = '}' || c = '>' then none
    else readMarkupText cs

/-- An interpolation between tags, which may be empty. The current token is the one after its
brace; at the end it is the closing brace. -/
def markupHole (r : Rules) : Parser Unit := do
  unless ← isSign "\x7d" do
    if ← eatSign "..." then
      let _ ← nested r.value
    else
      let _ ← nested r.expression
  require (← isSign "\x7d")

/-- Read what stands between the tags of an element, and its closing tag up to its last sign. -/
def markupChildren (r : Rules) (name : String) : Parser Unit := do
  let _ ← repeatStep true fun more => do
    if !more then return none
    match readMarkupText (← get).rest with
    | some ('{' :: cs) => do
      moveTo cs
      markupHole r
      return some true
    | some cs => do
      moveTo cs
      if ← peek (do advance; isSign "/") then
        advance
        advance
        let closing ← (do
          splitSign '>'
          if ← isSign ">" then return ""
          elementName)
        require (closing == name)
        splitSign '>'
        require (← isSign ">")
        return some false
      r.element
      return some true
    | none => failure

/-- An element or a fragment, from its first angle bracket up to its last. -/
def elementRule (r : Rules) : Parser Unit := do
  expectSign "<"
  splitSign '>'
  if ← isSign ">" then return ← markupChildren r ""
  let name ← elementName
  optionalTypeArguments r
  let atEnd : Parser Bool := do
    splitSign '>'
    return (← isSign ">") || (← isSign "/")
  let _ ← manyWhile (return !(← atEnd)) (markupAttribute r)
  if ← eatSign "/" then
    splitSign '>'
    require (← isSign ">")
  else markupChildren r name

end StyleCompiler.Source
