/-!
# Options

The settings of a compilation. `Options` is `CompileOptions` and `Options.defaultIndent` is
`DEFAULT_INDENT`. `Options.ofIndent?` makes options of `JsCompileOptions`, in which the indent may be
missing.
-/

namespace StyleCompiler

/-- How a stylesheet is written: the text that sets a rule in. -/
structure Options where
  indent : String
deriving DecidableEq

namespace Options

/-- Two spaces. -/
def defaultIndent : String := "  "

instance : Inhabited Options := ⟨⟨defaultIndent⟩⟩

/-- Options with the default in place of a setting that is not given. -/
def ofIndent? (indent : Option String) : Options := ⟨indent.getD defaultIndent⟩

/-- Are these the default options? -/
def isDefault (o : Options) : Bool := o.indent == defaultIndent

end Options

end StyleCompiler
