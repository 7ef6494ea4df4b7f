import StyleCompiler.Call
import StyleCompiler.Diagnostic
import StyleCompiler.Options
import StyleCompiler.Stylesheet

/-!
# Compilation

The calls of a module are compiled in order. Each yields a declaration and diagnostics, and
leaves the registry of contract variables for the next.

* A style reads the registry and leaves it as it is.
* A contract enters its name and declares each of its leaves as soon as the leaf has a text, so a
  later leaf may refer to an earlier one.
* A theme lays values over declared variables.

`Call.run` is `RuleParser::parse`, and `compile` is `compile_module`, whose loop is
`Session.advance`. The methods of `RuleParser` write rules and diagnostics as they go through an
object literal. Here what is written and what is reported are two functions of the entries:

* `entries` and `faults` are `properties`, and `Key.text?` is `prop_key`.
* `styleOf` and `styleReports` are `parse_style`, `groupsOf` and `groupsReports` are `parse_groups`.
  A rule that resolves is `ruleOf`; one that does not is reported as `skip` does.
* `runTheme` on `themeEntries` is `parse_theme`, with `theme_var` at each leaf. A leaf may refer to
  those before it, so this one keeps the registry as it goes.
* `Call.reject` is `reject`.
-/

namespace StyleCompiler

/-! ## Entries of an object literal -/

/-- The text of a key that is known. -/
def Key.text? : Key → Option String
  | .ident name => some name
  | .str text => some (text.getD "")
  | .num x => some x.text
  | .bigint _ => none
  | .computed _ => none

/-- The key and the value of a property, or why it is no entry. -/
def Property.entry : Property → Except PropertyFault (String × Expr)
  | .keyValue key value =>
    match key.text? with
    | some text => .ok (text, value)
    | none => .error .computedKey
  | .spread _ => .error .spread
  | _ => .error .notKeyValue

/-- The error of an outcome. -/
def errorOf? {ε α : Type} : Except ε α → Option ε
  | .error e => some e
  | .ok _ => none

/-- The entries of an object literal in order. -/
def entries (properties : List Property) : List (String × Expr) :=
  properties.filterMap fun p => p.entry.toOption

/-- Reports on the properties that are no entries, in order. They come before those on
entries. -/
def faults (name : String) (properties : List Property) : List Diagnostic :=
  properties.filterMap fun p => (errorOf? p.entry).map (.property name)

/-! ## Rules -/

/-- The rule of an entry, or the report that it is left out. -/
def ruleOf (r : Registry) (name : String) (entry : String × Expr) :
    Except Diagnostic (String × String) :=
  match (Value.ofExpr entry.2).resolve r entry.1 with
  | .ok text => .ok (kebab entry.1, text)
  | .error reason => .error (.omitted name entry.1 reason)

/-- The rules of entries in order. -/
def rulesOf (r : Registry) (name : String) (es : List (String × Expr)) : RuleSet :=
  OrderedMap.ofList (es.filterMap fun e => (ruleOf r name e).toOption)

/-- The reports on an entry that should be a rule. -/
def ruleReports (r : Registry) (name : String) (entry : String × Expr) : List Diagnostic :=
  (errorOf? (ruleOf r name entry)).toList

/-- The reports on an object literal whose entries should be rules. -/
def bodyReports (r : Registry) (name : String) (properties : List Property) : List Diagnostic :=
  faults name properties ++ (entries properties).flatMap (ruleReports r name)

/-! ## Groups -/

/-- The rules of one group, if it is an object literal. -/
def groupOf? (r : Registry) (name : String) (entry : String × Expr) : Option (String × RuleSet) :=
  match Value.ofExpr entry.2 with
  | .object body => some (entry.1, rulesOf r name (entries body))
  | _ => none

/-- The groups that a value describes, none if it is no object literal. -/
def groupsOf (r : Registry) (name : String) (value : Expr) : Groups :=
  match Value.ofExpr value with
  | .object properties => OrderedMap.ofList ((entries properties).filterMap (groupOf? r name))
  | _ => ∅

/-- The reports on one group. -/
def groupReports (r : Registry) (name : String) (entry : String × Expr) : List Diagnostic :=
  match Value.ofExpr entry.2 with
  | .object body => bodyReports r name body
  | _ => [.groupNotObject name entry.1]

/-- The reports on the groups under a key. -/
def groupsReports (r : Registry) (name key : String) (value : Expr) : List Diagnostic :=
  match Value.ofExpr value with
  | .object properties =>
    faults name properties ++ (entries properties).flatMap (groupReports r name)
  | _ => [.groupsNotObject name key]

/-! ## Styles -/

/-- The key of the selector groups of a style. -/
def selectorsKey : String := "selectors"

/-- The key of the media groups of a style. -/
def mediaKey : String := "@media"

/-- Does a key of a style hold groups? -/
def isGroupsKey (key : String) : Bool := key = selectorsKey || key = mediaKey

/-- The groups under a key of a style. The last entry with the key counts. -/
def groupsAt (r : Registry) (name key : String) (es : List (String × Expr)) : Groups :=
  match (es.filter fun e => e.1 = key).getLast? with
  | some (_, value) => groupsOf r name value
  | none => ∅

/-- The declaration of a style with the given object literal. -/
def styleOf (r : Registry) (name : String) (properties : List Property) : Declaration :=
  let es := entries properties
  { name
    kind := .style
    rules := rulesOf r name (es.filter fun e => !isGroupsKey e.1)
    selectors := groupsAt r name selectorsKey es
    media := groupsAt r name mediaKey es }

/-- The reports on an entry of a style. -/
def styleEntryReports (r : Registry) (name : String) (entry : String × Expr) : List Diagnostic :=
  if isGroupsKey entry.1 then groupsReports r name entry.1 entry.2 else ruleReports r name entry

/-- The reports on the object literal of a style. -/
def styleReports (r : Registry) (name : String) (properties : List Property) : List Diagnostic :=
  faults name properties ++ (entries properties).flatMap (styleEntryReports r name)

/-! ## Contracts and themes -/

/-- An entry of a contract or a theme: a variable with its path and the property name that
decides on its unit, or a report. -/
inductive ThemeEntry where
  | leaf (path property : String) (value : Expr)
  | report (diagnostic : Diagnostic)

/-- The variables under one entry: itself, or the entries of the object literal it maps to. -/
def themeEntriesAt (name : String) (entry : String × Expr) : List ThemeEntry :=
  match Value.ofExpr entry.2 with
  | .object inner =>
    (faults name inner).map .report ++
      (entries inner).map fun (key, value) => .leaf (entry.1 ++ "." ++ key) key value
  | _ => [.leaf entry.1 entry.1 entry.2]

/-- The entries of the object literal of a contract or a theme. -/
def themeEntries (name : String) (properties : List Property) : List ThemeEntry :=
  (faults name properties).map .report ++ (entries properties).flatMap (themeEntriesAt name)

/-- Enter the text of a variable: a contract declares it, a theme lays a value over it. -/
def Kind.enter (kind : Kind) (r : Registry) (path text : String) : Registry :=
  match kind with
  | .themeContract => r.declare path text
  | _ => (r.instantiate path text).1

/-- The outcome of the entries of a contract or a theme: the texts by path in the order in which
they were entered, the reports, and the registry that is left. -/
structure ThemeOutcome where
  texts : List (String × String)
  diagnostics : List Diagnostic
  registry : Registry

/-- Go through the entries of a contract or a theme. -/
def runTheme (kind : Kind) (name : String) : Registry → List ThemeEntry → ThemeOutcome
  | r, [] => { texts := [], diagnostics := [], registry := r }
  | r, .report d :: es =>
    let o := runTheme kind name r es
    { o with diagnostics := d :: o.diagnostics }
  | r, .leaf path property value :: es =>
    match (Value.ofExpr value).resolve r property with
    | .ok text =>
      let o := runTheme kind name (kind.enter r path text) es
      { o with texts := (path, text) :: o.texts }
    | .error reason =>
      let o := runTheme kind name r es
      { o with diagnostics := .omitted name path reason :: o.diagnostics }

/-- The rules of a contract or a theme: one custom property per text. -/
def themeRules (texts : List (String × String)) : RuleSet :=
  OrderedMap.ofList (texts.map fun (path, text) => (customProperty path, text))

/-! ## Calls -/

/-- What a call yields: a declaration, reports, and the registry for the next call. -/
structure Step where
  declaration : Declaration
  diagnostics : List Diagnostic
  registry : Registry

namespace Call

/-- A call of which nothing can be made yields an empty declaration and an error. -/
def reject (c : Call) (r : Registry) (why : Rejection) : Step :=
  { declaration := { name := c.name, kind := c.kind }
    diagnostics := [.rejected c.name c.kind why]
    registry := r }

/-- Compile a style. -/
def runStyle (c : Call) (r : Registry) : Step :=
  match c.firstArg? with
  | some (.object properties) =>
    { declaration := styleOf r c.name properties
      diagnostics := styleReports r c.name properties
      registry := r }
  | some (.array _) => c.reject r .composition
  | some _ => c.reject r .notObject
  | none => c.reject r .missingStyle

/-- Compile a contract or a theme with the given object literal. -/
def runEntries (c : Call) (r : Registry) (properties : List Property) : Step :=
  let o := runTheme c.kind c.name r (themeEntries c.name properties)
  { declaration := { name := c.name, kind := c.kind, rules := themeRules o.texts }
    diagnostics := o.diagnostics
    registry := o.registry }

/-- Compile a call. -/
def run (c : Call) (r : Registry) : Step :=
  match c.kind with
  | .style => c.runStyle r
  | .themeContract =>
    let r := r.registerBinding c.name
    match c.objectArg? with
    | some properties => c.runEntries r properties
    | none => c.reject r .missingContract
  | .themeInstance =>
    match c.objectArg? with
    | some properties => c.runEntries r properties
    | none => c.reject r .missingTheme

end Call

/-- The steps of calls, each from the registry that the one before left. -/
def runCalls : Registry → List Call → List Step
  | _, [] => []
  | r, c :: cs =>
    let step := c.run r
    step :: runCalls step.registry cs

/-! ## Modules -/

/-- The steps of a module. -/
def Module.steps (m : Module) : List Step := runCalls {} m.calls

/-- The state of a compilation between two calls. -/
structure Session where
  registry : Registry := {}
  sheet : Stylesheet := {}
  diagnostics : List Diagnostic := []

/-- Compile the next call. -/
def Session.advance (s : Session) (c : Call) : Session :=
  let step := c.run s.registry
  { registry := step.registry
    sheet := s.sheet.push step.declaration
    diagnostics := s.diagnostics ++ step.diagnostics }

/-- A compiled module. -/
structure Compiled where
  css : String
  declarations : List Declaration
  diagnostics : List Diagnostic

/-- Compile a module. -/
def compile (options : Options) (m : Module) : Compiled :=
  let s := m.calls.foldl Session.advance {}
  { css := s.sheet.css options.indent
    declarations := s.sheet.declarations
    diagnostics := s.diagnostics }

end StyleCompiler
