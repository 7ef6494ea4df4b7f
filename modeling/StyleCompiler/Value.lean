import StyleCompiler.Tree
import StyleCompiler.Dimension
import StyleCompiler.Registry

/-!
# Values

What an expression says about the value of a property, and the text of that value when the
contract variables it refers to are known.

A member chain such as `vars.space['2x']` refers to the variable at a path. The path leaves out
the root if a contract is bound to it, and every segment that speaks of a theme or a contract.

* `Value` is `ValueShape`, its three kinds of literal apart, and `Part` is `TemplatePart`.
  `Value.ofExpr` is `ValueShape::classify` and `Value.ofTemplate` is `classify_template`, whose
  loop is `templateParts?`. `Quasi.text` is `quasi_text`.
* `Expr.chain?` is `member_path`, which also gives the chain of an identifier, its root alone. What
  a step adds is `Segment.text?`.
* `Registry.contractPath` is `contract_path`, `Registry.reference` is `resolve_reference`, and
  `Value.resolve` is `resolve_value`.
-/

namespace StyleCompiler

/-! ## Reading expressions -/

/-- The text of a string or number literal. -/
def Expr.literal? (e : Expr) : Option String :=
  match e.unwrap with
  | .str literal => some (literal.getD "")
  | .num x => some x.text
  | _ => none

/-- The text of a segment that is known. -/
def Segment.text? : Segment → Option String
  | .name n => some n
  | .index i => i.literal?
  | .hidden _ => none

/-- The names along a member chain, from an identifier on. -/
def Expr.chain? : Expr → Option (List String)
  | .ident n => some [n]
  | .wrapped _ inner => inner.chain?
  | .member base segment => do
    let chain ← base.chain?
    let text ← segment.text?
    return chain ++ [text]
  | _ => none

/-- A chain has a root. -/
theorem Expr.ne_nil_of_chain? {e : Expr} {segments : List String} (h : e.chain? = some segments) :
    segments ≠ [] := by
  fun_induction Expr.chain? e generalizing segments with
  | case1 name =>
    obtain rfl := Option.some.inj h
    exact List.cons_ne_nil _ _
  | case2 _ inner ih => exact ih h
  | case3 base segment _ =>
    obtain ⟨chain, _, h⟩ := Option.bind_eq_some_iff.mp h
    obtain ⟨text, _, h⟩ := Option.bind_eq_some_iff.mp h
    obtain rfl := Option.some.inj h
    exact List.append_ne_nil_of_right_ne_nil _ (List.cons_ne_nil _ _)
  | case4 => cases h

/-- The text of a stretch of a template: what it stands for, else its source text. -/
def Quasi.text (q : Quasi) : String := q.cooked.getD q.raw

/-- A part of a template value. -/
inductive Part where
  | text (text : String)
  | reference (segments : List String)
deriving DecidableEq, Repr

/-- The value of an interpolated expression. -/
def Part.ofExpr? (e : Expr) : Option Part :=
  match e.unwrap with
  | .member base segment => (Expr.member base segment).chain?.map .reference
  | .str literal => some (.text (literal.getD ""))
  | .num x => some (.text x.text)
  | _ => none

/-- The parts of a template: its stretches of text, empty ones left out, and what stands between
them. Expressions after the last stretch are passed over. -/
def templateParts? : List Quasi → List Expr → Option (List Part)
  | [], _ => some []
  | q :: qs, es =>
    let lead := if q.text = "" then [] else [Part.text q.text]
    match es with
    | [] => (templateParts? qs []).map (lead ++ ·)
    | e :: es => do
      let part ← Part.ofExpr? e
      let parts ← templateParts? qs es
      return lead ++ part :: parts

/-- What an expression says about a value. -/
inductive Value where
  | text (text : String)
  | number (value : Double)
  | null
  | object (properties : List Property)
  | reference (segments : List String)
  | template (parts : List Part)
  | unsupported

/-- The value of a template literal. -/
def Value.ofTemplate (quasis : List Quasi) (exprs : List Expr) : Value :=
  if exprs.isEmpty then .text (String.join (quasis.map Quasi.text))
  else
    match templateParts? quasis exprs with
    | some parts => .template parts
    | none => .unsupported

/-- What an expression says about a value. -/
def Value.ofExpr (e : Expr) : Value :=
  match e.unwrap with
  | .str literal => .text (literal.getD "")
  | .num x => .number x
  | .null => .null
  | .unary .minus operand =>
    match operand.unwrap with
    | .num x => .number x.neg
    | _ => .unsupported
  | .object properties => .object properties
  | .member base segment =>
    match (Expr.member base segment).chain? with
    | some segments => .reference segments
    | none => .unsupported
  | .template quasis exprs => .ofTemplate quasis exprs
  | _ => .unsupported

/-! ## References -/

/-- Does a word occur in a text? -/
def occursIn (word : List Char) : List Char → Bool
  | [] => word.isEmpty
  | c :: cs => word.isPrefixOf (c :: cs) || occursIn word cs

/-- Does a segment speak of a theme or a contract, in whatever case? -/
def namesContract (segment : String) : Bool :=
  let lower := segment.toList.map Char.toLower
  occursIn ['t', 'h', 'e', 'm', 'e'] lower ||
    occursIn ['c', 'o', 'n', 't', 'r', 'a', 'c', 't'] lower

/-- The segments after the name of a contract, if the first one is such a name. -/
def Registry.dropBinding (r : Registry) : List String → List String
  | root :: rest => if r.isBinding root then rest else root :: rest
  | [] => []

/-- The path that a reference means. -/
def Registry.contractPath (r : Registry) (segments : List String) : String :=
  ".".intercalate ((r.dropBinding segments).filter fun segment => !namesContract segment)

/-! ## The text of a value -/

/-- Why a property gets no value. -/
inductive SkipReason where
  | unresolved (path : String)
  | nestedObject
  | unsupported
deriving DecidableEq, Repr

/-- The text of a reference to a declared variable. -/
def Registry.reference (r : Registry) (segments : List String) : Except SkipReason String :=
  match r.resolve? (r.contractPath segments) with
  | some text => .ok text
  | none => .error (.unresolved (r.contractPath segments))

/-- The text of a part of a template. -/
def Part.resolve (r : Registry) : Part → Except SkipReason String
  | .text t => .ok t
  | .reference segments => r.reference segments

/-- The text of a template: that of its parts, unless one of them has none. -/
def resolveParts (r : Registry) : List Part → Except SkipReason String
  | [] => .ok ""
  | part :: parts => do
    let text ← part.resolve r
    let rest ← resolveParts r parts
    return text ++ rest

/-- The text of a value given for a property. -/
def Value.resolve (r : Registry) (property : String) : Value → Except SkipReason String
  | .text t => .ok t
  | .number x => .ok (dimension property x)
  | .null => .ok ""
  | .reference segments => r.reference segments
  | .template parts => resolveParts r parts
  | .object _ => .error .nestedObject
  | .unsupported => .error .unsupported

end StyleCompiler
