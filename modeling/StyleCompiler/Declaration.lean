import StyleCompiler.OrderedMap

/-!
# Declarations

What one recognised binding of a module stands for: a named class with its rules, its selector
groups and its media groups.

`Kind` is `DeclarationKind`, with `Kind.ofCallee?` for `from_callee`. `Declaration.classSelector`
is `class_selector`, and `Declaration.isEmpty` is `is_empty`.
-/

namespace StyleCompiler

/-- The kinds of declaration. -/
inductive Kind where
  | style
  | themeContract
  | themeInstance
deriving DecidableEq, Repr

namespace Kind

/-- The function that a module calls to make a declaration of this kind. -/
def callee : Kind → String
  | .style => "style"
  | .themeContract => "createThemeContract"
  | .themeInstance => "createTheme"

/-- The kind that a called function makes. -/
def ofCallee? (name : String) : Option Kind :=
  if name = "style" then some .style
  else if name = "createThemeContract" then some .themeContract
  else if name = "createTheme" then some .themeInstance
  else none

/-- The name of the kind in data. -/
def label : Kind → String
  | .style => "Style"
  | .themeContract => "ThemeContract"
  | .themeInstance => "ThemeInstance"

/-- The kind with the given name in data. -/
def ofLabel? (label : String) : Option Kind :=
  if label = "Style" then some .style
  else if label = "ThemeContract" then some .themeContract
  else if label = "ThemeInstance" then some .themeInstance
  else none

@[simp]
theorem ofCallee?_callee (k : Kind) : ofCallee? k.callee = some k := by
  cases k <;> decide

@[simp]
theorem ofLabel?_label (k : Kind) : ofLabel? k.label = some k := by
  cases k <;> decide

end Kind

/-- Properties and their values, in order. -/
abbrev RuleSet := OrderedMap String

/-- Rule sets by selector template or by media condition, in order. -/
abbrev Groups := OrderedMap RuleSet

/-- A named class: its own rules, the rules of its selector templates, in which `&` stands for
the class, and its rules under media conditions. -/
structure Declaration where
  name : String
  kind : Kind
  rules : RuleSet := ∅
  selectors : Groups := ∅
  media : Groups := ∅
deriving DecidableEq

namespace Declaration

/-- The selector of the class. -/
def classSelector (d : Declaration) : String := "." ++ d.name

/-- Has the declaration no rule and no group? -/
def isEmpty (d : Declaration) : Bool :=
  d.rules.isEmpty && d.selectors.isEmpty && d.media.isEmpty

end Declaration

end StyleCompiler
