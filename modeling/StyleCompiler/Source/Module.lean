import StyleCompiler.Compile
import StyleCompiler.Source.Statement

/-!
# Modules

The grammar as a whole, and reading the text of a file.

`Module.ofSource` is `parse_module` and `compileSource` is `compile_source`. `Module.parse?` stands
for `parse_file_as_module`: a text with a recoverable error is no module either. `ParseError` is
`CompileError::Parse` without the wording of the parser, which would follow in `message`.
-/

namespace StyleCompiler.Source

/-- The rules for the places with fewer than `n` characters left. At such a place a rule calls the
others at later places only. -/
def grammar (n : Nat) : Rules :=
  { assignment := .below n fun m _ => assignmentRule (grammar m)
    unary := .below n fun m _ => unaryRule (grammar m)
    construction := .below n fun m _ => constructionRule (grammar m)
    leftHand := .below n fun m _ => leftHandRule (grammar m)
    statement := .below n fun m _ => statementRule (grammar m)
    binding := .below n fun m _ => bindingRule (grammar m)
    type := .below n fun m _ => typeRule (grammar m)
    element := .below n fun m _ => elementRule (grammar m) }
termination_by n

/-- An item of a module, given the rules for what follows its first token. -/
def item (r : Rules) : Parser Item := do
  if ← isWord "export" then return ← exportItem r
  if ← atImport then
    importItem
    return .other
  return .stmt (← statementRule r)

/-- The items of a module up to the end of the text. -/
def items : Parser (List Item) :=
  manyWhile (return (← current) != .eof) fun setting cursor =>
    item (grammar cursor.left) setting cursor

/-- The text without a byte order mark and without a first line for the shell. -/
def dropPreamble (cs : List Char) : List Char :=
  let cs := match cs with
    | '\ufeff' :: rest => rest
    | cs => cs
  match cs with
  | '#' :: '!' :: rest => skipLine rest
  | cs => cs

end StyleCompiler.Source

namespace StyleCompiler

/-- The module that a text describes, if it is written in the given language. -/
def Module.parse? (dialect : Source.Dialect) (text : String) : Option Module :=
  let cursor := Source.tokenAfter true (Source.dropPreamble text.toList) false
  (Source.items { dialect } cursor).map fun (items, _) => ⟨items⟩

/-- A text that is no module of the language of its file. -/
structure ParseError where
  file : String
deriving DecidableEq

/-- The wording of the error. -/
def ParseError.message (e : ParseError) : String := "failed to parse " ++ e.file ++ ": "

/-- The module in a file, whose name decides on the language. -/
def Module.ofSource (file text : String) : Except ParseError Module :=
  match Module.parse? (.ofFile file) text with
  | some m => .ok m
  | none => .error ⟨file⟩

/-- Compile the text of a file. -/
def compileSource (options : Options) (file text : String) : Except ParseError Compiled := do
  return compile options (← Module.ofSource file text)

end StyleCompiler
