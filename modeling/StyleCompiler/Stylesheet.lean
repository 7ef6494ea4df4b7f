import StyleCompiler.Declaration

/-!
# Stylesheets

Declarations by name (`Stylesheet`) and their CSS text. The text is a sequence of blocks: for each
declaration its own rules, then one block per selector template, then one per media condition.
Every block ends in a line feed, and blocks are set apart by an empty line.

`renderBlock` is `render_block`, `renderDeclaration` is `render_declaration` and
`renderDeclarations` is `render_stylesheet`. A block is handed on as a text in a list where
`render_declaration` appends it to a buffer. `Stylesheet.css` is `Stylesheet::to_css`.
-/

namespace StyleCompiler

/-! ## Text of declarations -/

/-- A selector template with every `&` replaced by the given selector. -/
def instantiateTemplate (selector template : String) : String :=
  String.ofList (template.toList.flatMap fun c => if c = '&' then selector.toList else [c])

/-- Rules under a selector, every line set in by `margin` and each rule once more by `indent`. -/
def renderBlock (margin indent selector : String) (rules : RuleSet) : String :=
  margin ++ selector ++ " \x7b\n" ++
    String.join (rules.entries.map fun (property, value) =>
      margin ++ indent ++ property ++ ": " ++ value ++ ";\n") ++
    margin ++ "\x7d\n"

/-- The blocks of a declaration: its rules, also when there are none, then those of its selector
templates, then those of its media conditions. -/
def renderDeclaration (indent : String) (d : Declaration) : List String :=
  renderBlock "" indent d.classSelector d.rules ::
    (d.selectors.entries.map fun (template, rules) =>
        renderBlock "" indent (instantiateTemplate d.classSelector template) rules) ++
      d.media.entries.map fun (condition, rules) =>
        "@media " ++ condition ++ " \x7b\n" ++
          renderBlock indent indent d.classSelector rules ++ "\x7d\n"

/-- The CSS text of declarations as they are given. -/
def renderDeclarations (indent : String) (ds : List Declaration) : String :=
  "\n".intercalate (ds.flatMap (renderDeclaration indent))

/-! ## Stylesheets -/

/-- Declarations by name: a later one of the same name takes the place of the earlier one. -/
structure Stylesheet where
  byName : OrderedMap Declaration := ∅

namespace Stylesheet

/-- Add a declaration under its name. -/
def push (s : Stylesheet) (d : Declaration) : Stylesheet := ⟨s.byName.insert d.name d⟩

/-- The declaration of a name. -/
def get? (s : Stylesheet) (name : String) : Option Declaration := s.byName.get? name

/-- The declarations in order. -/
def declarations (s : Stylesheet) : List Declaration := s.byName.values

/-- The number of declarations. -/
def size (s : Stylesheet) : Nat := s.byName.size

/-- Is there no declaration? -/
def isEmpty (s : Stylesheet) : Bool := s.byName.isEmpty

/-- The CSS text. -/
def css (s : Stylesheet) (indent : String) : String := renderDeclarations indent s.declarations

end Stylesheet

end StyleCompiler
