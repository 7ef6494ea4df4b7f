import StyleCompiler.Source.Literal

/-!
# Tokens

The words, signs and literals of source text. A slash and a backquote are signs here: whether a
regular expression or a template follows is for the parser to say, which then reads on from the
text itself.
-/

namespace StyleCompiler.Source

/-- A token. A word knows whether it was written with escapes, since such a word is never a
keyword. A text that is no token is `invalid`. -/
inductive Token where
  | word (name : String) (escaped : Bool)
  | hidden (name : String)
  | number (value : Double)
  | bigint (digits : String)
  | string (text : Option String)
  | sign (text : String)
  | eof
  | invalid
deriving DecidableEq

/-! ## What stands between tokens -/

/-- Read over a block comment. The flag says whether a line ended in it. -/
def skipBlockComment (newline : Bool) : List Char → Option (Bool × List Char)
  | [] => none
  | '*' :: '/' :: cs => some (newline, cs)
  | c :: cs => skipBlockComment (newline || isLineBreak c) cs

/-- The rest of the text from the next line break on. -/
def skipLine (cs : List Char) : List Char := cs.dropWhile fun c => !isLineBreak c

theorem length_skipLine_le (cs : List Char) : (skipLine cs).length ≤ cs.length :=
  (List.dropWhile_suffix _).length_le

theorem length_le_of_skipBlockComment {newline newline' : Bool} {cs rest : List Char}
    (h : skipBlockComment newline cs = some (newline', rest)) : rest.length ≤ cs.length := by
  fun_induction skipBlockComment newline cs with
  | case1 => cases h
  | case2 newline cs =>
    obtain ⟨-, rfl⟩ := Prod.mk.inj (Option.some.inj h)
    simp only [List.length_cons]
    omega
  | case3 newline c cs _ ih =>
    exact Nat.le_succ_of_le (ih h)

/-- Read over blanks and comments. The flag says whether a line ended. An open comment leaves
nothing. -/
def skipGap (newline : Bool) (cs : List Char) : Option (Bool × List Char) :=
  match cs with
  | '/' :: '/' :: rest => skipGap newline (skipLine rest)
  | '/' :: '*' :: rest =>
    match h : skipBlockComment newline rest with
    | some (newline, after) =>
      have := length_le_of_skipBlockComment h
      skipGap newline after
    | none => none
  | c :: rest =>
    if isLineBreak c then skipGap true rest
    else if isBlank c then skipGap newline rest
    else some (newline, cs)
  | [] => some (newline, [])
termination_by cs.length
decreasing_by
  · have hline := length_skipLine_le rest
    simp only [List.length_cons]
    omega
  · simp only [List.length_cons]
    omega
  all_goals simp

/-! ## Words -/

/-- Add a character to a word that was read. -/
def consWord (c : Char) (w : List Char × Bool × List Char) : List Char × Bool × List Char :=
  (c :: w.1, w.2)

mutual

/-- Read the characters of a word. The flag says whether one of them was escaped. Nothing is read
if an escape is not valid. -/
def readWord (first : Bool) : List Char → Option (List Char × Bool × List Char)
  | [] => some ([], false, [])
  | '\\' :: 'u' :: '{' :: cs => readWordBraced first 0 cs
  | '\\' :: 'u' :: a :: b :: c :: d :: cs => do
    let code ← hexNumber? [a, b, c, d]
    let ch := Char.ofNat code
    if if first then isIdentifierStart ch else isIdentifierPart ch then
      let (name, _, rest) ← readWord false cs
      return (ch :: name, true, rest)
    else none
  | '\\' :: _ => none
  | c :: cs =>
    if if first then isIdentifierStart c else isIdentifierPart c then
      (readWord false cs).map (consWord c)
    else some ([], false, c :: cs)

/-- The same from inside the braces of an escape on. -/
def readWordBraced (first : Bool) (code : Nat) : List Char → Option (List Char × Bool × List Char)
  | [] => none
  | '}' :: cs => do
    let ch := Char.ofNat code
    if if first then isIdentifierStart ch else isIdentifierPart ch then
      let (name, _, rest) ← readWord false cs
      return (ch :: name, true, rest)
    else none
  | c :: cs => do
    let next := 16 * code + (← hexValue? c)
    if next ≤ maxCodePoint then readWordBraced first next cs else none

end

/-! ## Signs -/

/-- The signs, a longer one before each of its beginnings. -/
def signs : List (List Char) :=
  [">>>=", "...", "===", "!==", "**=", "<<=", ">>=", ">>>", "&&=", "||=", "??=", "=>", "==", "!=",
    "<=", ">=", "++", "--", "&&", "||", "??", "?.", "**", "<<", ">>", "+=", "-=", "*=", "/=", "%=",
    "&=", "|=", "^=", "\x7b", "\x7d", "(", ")", "[", "]", ";", ",", "<", ">", "+", "-", "*", "/",
    "%", "&", "|", "^", "!", "~", "?", ":", "=", ".", "@", "`"].map String.toList

/-- The text after a beginning, if it has it. -/
def dropStart? : List Char → List Char → Option (List Char)
  | [], cs => some cs
  | w :: ws, c :: cs => if w = c then dropStart? ws cs else none
  | _ :: _, [] => none

/-- Read the longest sign. A question mark with a number after its point is a sign of its own. -/
def readSign (cs : List Char) : Token × List Char :=
  match cs with
  | '?' :: '.' :: c :: rest =>
    if c.isDigit then (.sign "?", '.' :: c :: rest) else (.sign "?.", c :: rest)
  | '<' :: '!' :: '-' :: '-' :: _ => (.invalid, [])
  | _ =>
    match signs.findSome? fun s => (dropStart? s cs).map fun rest => (s, rest) with
    | some (s, rest) => (.sign (String.ofList s), rest)
    | none => (.invalid, [])

/-! ## Tokens -/

/-- Read the token that starts here and give the text after it. -/
def readToken (cs : List Char) : Token × List Char :=
  match cs with
  | [] => (.eof, [])
  | '#' :: rest =>
    match readWord true rest with
    | some (name, _, after) =>
      if name.isEmpty then (.invalid, []) else (.hidden (String.ofList name), after)
    | none => (.invalid, [])
  | c :: rest =>
    if isIdentifierStart c || c = '\\' then
      match readWord true cs with
      | some (name, escaped, after) => (.word (String.ofList name) escaped, after)
      | none => (.invalid, [])
    else if c.isDigit || (c = '.' && (rest.head?.any Char.isDigit)) then
      match readNumber cs with
      | some (.double value, after) => (.number value, after)
      | some (.bigint digits, after) => (.bigint digits, after)
      | none => (.invalid, [])
    else if c = '"' || c = '\'' then
      match readQuoted c rest with
      | some (text, after) =>
        match unescape? text with
        | some units => (.string (Utf16.text? units), after)
        | none => (.invalid, [])
      | none => (.invalid, [])
    else readSign cs

/-! ## Words with a meaning -/

/-- The words that are never names. -/
def reservedWords : List String :=
  ["break", "case", "catch", "class", "const", "continue", "debugger", "default", "delete", "do",
    "else", "enum", "export", "extends", "false", "finally", "for", "function", "if", "import",
    "in", "instanceof", "new", "null", "return", "super", "switch", "this", "throw", "true", "try",
    "typeof", "var", "void", "while", "with"]

/-- The words that are no names in a module. -/
def moduleWords : List String :=
  ["await", "implements", "interface", "let", "package", "private", "protected", "public",
    "static", "yield"]

/-- Can a word name a variable of a module? -/
def isVariableName (name : String) : Bool :=
  !reservedWords.contains name && !moduleWords.contains name

/-- Can a word be bound or assigned to? -/
def isBindableName (name : String) : Bool :=
  isVariableName name && name != "eval" && name != "arguments"

end StyleCompiler.Source
