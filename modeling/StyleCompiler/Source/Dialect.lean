/-!
# Dialects

The languages that a module may be written in. The ending of the file name decides: TypeScript
with or without markup, or else ECMAScript with markup. `Dialect.ofFile` is `syntax_for`.
-/

namespace StyleCompiler.Source

/-- A language: whether it has type annotations and whether it has markup in expressions. -/
structure Dialect where
  types : Bool
  markup : Bool
deriving DecidableEq, Repr

/-- Does a text end in the given way? -/
def endsWith (ending text : String) : Bool := ending.toList.isSuffixOf text.toList

/-- The language of a file. -/
def Dialect.ofFile (file : String) : Dialect :=
  if endsWith ".tsx" file then { types := true, markup := true }
  else if endsWith ".ts" file || endsWith ".mts" file || endsWith ".cts" file then
    { types := true, markup := false }
  else { types := false, markup := true }

end StyleCompiler.Source
