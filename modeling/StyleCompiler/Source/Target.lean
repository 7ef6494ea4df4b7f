import StyleCompiler.Source.Token
import StyleCompiler.Tree

/-!
# Targets of assignments

An assignment is read as an expression first; what stands before its sign has to be something that
can be assigned to: a variable, a member, or a pattern made of such.
-/

namespace StyleCompiler.Source

/-- Can an expression be assigned a single value? -/
def isSimpleTarget : Expr → Bool
  | .ident name => isBindableName name
  | .member _ _ => true
  | .wrapped _ inner => isSimpleTarget inner
  | .typeAssertion inner => isSimpleTarget inner
  | _ => false

mutual

/-- Can an expression be assigned to, or be taken apart? -/
def isTarget : Expr → Bool
  | .ident name => isBindableName name
  | .member _ _ => true
  | .wrapped _ inner => isSimpleTarget inner
  | .typeAssertion inner => isSimpleTarget inner
  | .array elements => areElementTargets elements
  | .object properties => arePropertyTargets properties
  | _ => false

/-- The same with a default value. -/
def isTargetWithDefault : Expr → Bool
  | .assign target _ => isTarget target
  | .ident name => isBindableName name
  | .member _ _ => true
  | .wrapped _ inner => isSimpleTarget inner
  | .typeAssertion inner => isSimpleTarget inner
  | .array elements => areElementTargets elements
  | .object properties => arePropertyTargets properties
  | _ => false

/-- Can the elements of an array literal be assigned to? Only the last may take the rest. -/
def areElementTargets : List Element → Bool
  | [] => true
  | .hole :: rest => areElementTargets rest
  | .arg (.plain e) :: rest => isTargetWithDefault e && areElementTargets rest
  | .arg (.spread e) :: rest => isTarget e && rest.isEmpty

/-- Can the properties of an object literal be assigned to? Only the last may take the rest. -/
def arePropertyTargets : List Property → Bool
  | [] => true
  | .keyValue _ e :: rest => isTargetWithDefault e && arePropertyTargets rest
  | .shorthand name :: rest => isBindableName name && arePropertyTargets rest
  | .assign name _ :: rest => isBindableName name && arePropertyTargets rest
  | .spread e :: rest => isSimpleTarget e && rest.isEmpty
  | _ => false

end

end StyleCompiler.Source
