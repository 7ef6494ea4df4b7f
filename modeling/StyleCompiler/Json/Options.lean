import StyleCompiler.Json.Text
import StyleCompiler.Options

/-!
# Options as JSON

Options are an object with the member `indent`, which may be left out; other members are passed
over. A list of at most that one value will do as well. This is the form that `Deserialize` derives
for `CompileOptions`.
-/

namespace StyleCompiler

namespace Json

/-- Read the member of the given name: the indent, or nothing that matters. -/
def readOption (name : String) : Reader (Option String) := fun cs =>
  if name = "indent" then (readString cs).map fun (indent, rest) => (some indent, rest)
  else (skipAny cs).map fun (_, rest) => (none, rest)

/-- Options with the given indents, of which there may be at most one. -/
def ofIndents? : List String → Option Options
  | [] => some default
  | [indent] => some ⟨indent⟩
  | _ => none

/-- Read options. -/
def readOptions : Reader Options := fun cs =>
  match skipBlanks cs with
  | '{' :: rest => do
    let (members, rest) ← readObject readString readOption rest
    return (← ofIndents? (members.filterMap id), rest)
  | '[' :: rest => do
    let (indents, rest) ← readArray readString rest
    return (← ofIndents? indents, rest)
  | _ => none

end Json

/-- The options that a JSON text describes. -/
def Options.ofJson? (text : String) : Option Options := Json.readAll? Json.readOptions text

end StyleCompiler
