/-!
# Output paths

The stylesheet compiled from a module is written beside it: the last extension goes, then one
`.css` if the name still ends in it, and `.module.css` comes in their place.

`outputPath` is `derive_css_output_path`, with `cutLast?` for `rsplit_once` and `dropEnding` for
`strip_suffix`.
-/

namespace StyleCompiler

/-- Cut a text at the last occurrence of a character, which is dropped. -/
def cutLast? (sep : Char) : List Char → Option (List Char × List Char)
  | [] => none
  | c :: cs =>
    match cutLast? sep cs with
    | some (before, after) => some (c :: before, after)
    | none => if c = sep then some ([], cs) else none

/-- The text without the given ending, if it has it. -/
def dropEnding (ending text : List Char) : List Char :=
  if ending.isSuffixOf text then text.take (text.length - ending.length) else text

/-- The base name without its last extension and without one `.css` before that. -/
def stem (base : List Char) : List Char :=
  dropEnding ['.', 'c', 's', 's']
    (match cutLast? '.' base with
    | some (name, _) => name
    | none => base)

/-- The ending of every compiled stylesheet. -/
def moduleEnding : List Char := ['.', 'm', 'o', 'd', 'u', 'l', 'e', '.', 'c', 's', 's']

/-- The characters of the output path. -/
def outputChars (file : List Char) : List Char :=
  match cutLast? '/' file with
  | some (dir, base) => dir ++ '/' :: (stem base ++ moduleEnding)
  | none => stem file ++ moduleEnding

/-- Where the stylesheet compiled from a file is written. -/
def outputPath (file : String) : String := String.ofList (outputChars file.toList)

end StyleCompiler
