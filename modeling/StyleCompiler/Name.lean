/-!
# Names

How property names and contract paths are spelled in a stylesheet: camel case becomes hyphens and
lower case, and the variable at a dotted path becomes one custom property.

* `kebab` is `kebab_case` and `isCapital` is `is_upper`. A capital has one lower case, so `kebab`
  puts two characters in the place of one (`kebabChar`).
* `customProperty` is `custom_property_name`, and `varReference` is `var_reference`.
-/

namespace StyleCompiler

/-- The capitals that a name is broken at: those of ASCII and of the Latin-1 supplement. -/
def isCapital (c : Char) : Bool :=
  ('A' ≤ c && c ≤ 'Z') || ('\xC0' ≤ c && c ≤ '\xD6') || ('\xD8' ≤ c && c ≤ '\xDE')

/-- A capital in lower case: in both alphabets it stands 32 places further on. -/
def lowerCapital (c : Char) : Char := Char.ofNat (c.toNat + 32)

/-- The spelling of one character: a capital turns into a hyphen and its lower case. -/
def kebabChar (c : Char) : List Char :=
  if isCapital c then ['-', lowerCapital c] else [c]

/-- The hyphenated spelling of a name given by its characters. -/
def kebabChars (cs : List Char) : List Char := cs.flatMap kebabChar

/-- The hyphenated spelling of a name: `fontSize` is `font-size`. -/
def kebab (name : String) : String := String.ofList (kebabChars name.toList)

/-- The stretches between the separators; there is always at least one. -/
def splitAtChar (sep : Char) : List Char → List (List Char)
  | [] => [[]]
  | c :: cs =>
    if c = sep then [] :: splitAtChar sep cs
    else
      match splitAtChar sep cs with
      | [] => [[c]]
      | stretch :: rest => (c :: stretch) :: rest

/-- The custom property of a contract path: its segments, hyphenated and joined by hyphens. -/
def customProperty (path : String) : String :=
  String.ofList
    ('-' :: '-' :: List.intercalate ['-'] ((splitAtChar '.' path.toList).map kebabChars))

/-- The text that refers to the variable at a contract path. -/
def varReference (path : String) : String := "var(" ++ customProperty path ++ ")"

@[simp]
theorem kebabChars_nil : kebabChars [] = [] := rfl

@[simp]
theorem kebabChars_cons (c : Char) (cs : List Char) :
    kebabChars (c :: cs) = kebabChar c ++ kebabChars cs := rfl

@[simp]
theorem kebabChars_append (cs ds : List Char) :
    kebabChars (cs ++ ds) = kebabChars cs ++ kebabChars ds := by
  simp [kebabChars]

@[simp]
theorem toList_kebab (name : String) : (kebab name).toList = kebabChars name.toList := by
  simp [kebab]

end StyleCompiler
