import StyleCompiler.Declaration
import StyleCompiler.Value

/-!
# Diagnostics

What a compilation reports: the entries it left out, as warnings, and the calls it could make
nothing of, as errors. A diagnostic is its cause; level and wording follow from it.

`PropertyFault` has the cases that `properties` warns about, `Diagnostic.groupsNotObject` and
`Diagnostic.groupNotObject` those of `parse_groups`. `Diagnostic.omitted` is what `skip` records,
and `Diagnostic.rejected` what `reject` does. `SkipReason.message` is how a `SkipReason` is
displayed.
-/

namespace StyleCompiler

/-- How grave a diagnostic is. -/
inductive Level where
  | warning
  | error
deriving DecidableEq, Repr

/-- Why a property of an object literal is no entry. -/
inductive PropertyFault where
  | spread
  | notKeyValue
  | computedKey
deriving DecidableEq, Repr

/-- Why nothing can be made of a call. -/
inductive Rejection where
  | composition
  | notObject
  | missingStyle
  | missingContract
  | missingTheme
deriving DecidableEq, Repr

/-- The cause of a report. `name` is that of the declaration. -/
inductive Diagnostic where
  | property (name : String) (fault : PropertyFault)
  | groupsNotObject (name key : String)
  | groupNotObject (name key : String)
  | omitted (name entry : String) (reason : SkipReason)
  | rejected (name : String) (kind : Kind) (why : Rejection)
deriving DecidableEq, Repr

/-- The wording of a reason. -/
def SkipReason.message : SkipReason → String
  | .unresolved path =>
    if path = "" then "reference does not name a contract variable"
    else "unresolved theme contract reference `" ++ path ++ "`"
  | .nestedObject => "nested object is not allowed here"
  | .unsupported => "unsupported value expression"

/-- The wording of a rejection. -/
def Rejection.message : Rejection → String
  | .composition => "style composition from an array is not supported"
  | .notObject => "argument is not an object literal"
  | .missingStyle => "missing style object"
  | .missingContract => "missing contract object"
  | .missingTheme => "missing theme values object"

namespace Diagnostic

/-- A rejected call is an error, all else a warning. -/
def level : Diagnostic → Level
  | .rejected .. => .error
  | _ => .warning

/-- The wording of a report. -/
def message : Diagnostic → String
  | .property name .spread => "spread in `" ++ name ++ "` is not supported"
  | .property name .notKeyValue =>
    "only `key: value` properties are supported in `" ++ name ++ "`"
  | .property name .computedKey => "computed key in `" ++ name ++ "` is not supported"
  | .groupsNotObject name key =>
    "`" ++ key ++ "` in `" ++ name ++ "` must be an object literal"
  | .groupNotObject name key =>
    "`" ++ key ++ "` in `" ++ name ++ "` must map to an object literal"
  | .omitted name entry reason =>
    "`" ++ name ++ "." ++ entry ++ "`: " ++ reason.message ++ ", property omitted"
  | .rejected name kind why =>
    "`" ++ name ++ "` (" ++ kind.callee ++ "): " ++ why.message

end Diagnostic

end StyleCompiler
