import StyleCompiler.Source.Parser

/-!
# Templates

A template alternates stretches of text with interpolations, which hold expressions, or types
where the template is itself a type.
-/

namespace StyleCompiler.Source

/-- A stretch of template text. Text whose escapes are not valid has no meaning of its own. -/
structure Stretch where
  quasi : Quasi
  valid : Bool

/-- The stretch with the given source text. -/
def Stretch.ofText (raw : List Char) : Stretch :=
  let units := unescape? raw
  { quasi := { cooked := units.bind Utf16.text?, raw := String.ofList raw }
    valid := units.isSome }

/-- Read a stretch of text right after the current token. The flag says whether an interpolation
follows, whose first token is then the current one. -/
def stretch : Parser (Stretch × Bool) := do
  match readTemplate (← get).rest with
  | some (raw, ending, rest) =>
    modify fun c => tokenAfter false rest c.pending
    return (.ofText raw, ending == .interpolation)
  | none => failure

/-- Read a template from its opening quote on, given what an interpolation holds. -/
def templateOf {α : Type} (hole : Parser α) : Parser (List Stretch × List α) := do
  require (← isSign "`")
  let (first, more) ← stretch
  let (stretches, holes, _) ← repeatStep ([first], [], more) fun (stretches, holes, more) => do
    if !more then return none
    let a ← nested hole
    require (← isSign "\x7d")
    let (next, more) ← stretch
    return some (next :: stretches, a :: holes, more)
  return (stretches.reverse, holes.reverse)

end StyleCompiler.Source
