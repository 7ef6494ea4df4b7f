import StyleCompiler.Name
import StyleCompiler.Decimal.Text

/-!
# Dimensions

A bare number given for a property is a length in pixels, except for the properties whose numbers
are pure ratios.

`unitlessProperties` is `UNITLESS_PROPERTIES`, `isUnitless` is `is_unitless`, and `dimension` is
`format_numeric_value`.
-/

namespace StyleCompiler

/-- The properties, hyphenated, whose numbers take no unit. -/
def unitlessProperties : List String := ["line-height"]

/-- Do the numbers of this property take no unit? Both spellings of the name count. -/
def isUnitless (property : String) : Bool := unitlessProperties.contains (kebab property)

/-- The text of a number given for a property. -/
def dimension (property : String) (value : Double) : String :=
  if isUnitless property then value.text else value.text ++ "px"

end StyleCompiler
