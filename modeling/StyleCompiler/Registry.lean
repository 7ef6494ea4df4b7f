import StyleCompiler.OrderedMap
import StyleCompiler.Name

/-!
# The registry of contract variables

The variables that theme contracts have declared so far, by path and in order, and the names that
contracts are bound to. A contract declares a variable with a placeholder; a theme may lay a value
over it; declaring it again takes the value away.

`Registry` is `ThemeContract` and `Variable` is `ContractVar`. The operations are its methods:
`resolve?` is `resolve`, `value?` is `value`, `size` is `len`, `registerBinding` is
`register_binding` and `isBinding` is `is_binding`; `declare`, `instantiate`, `contains` and `paths`
have the same names. An operation that changes the registry returns the changed one.
-/

namespace StyleCompiler

/-- A declared variable. -/
structure Variable where
  placeholder : String
  value : Option String := none
deriving DecidableEq

/-- Variables by path, and the names of contracts. -/
structure Registry where
  vars : OrderedMap Variable := ∅
  bindings : List String := []

namespace Registry

/-- Declare the variable at a path. -/
def declare (r : Registry) (path placeholder : String) : Registry :=
  { r with vars := r.vars.insert path { placeholder } }

/-- Lay a value over a declared variable. The flag says whether there was one. -/
def instantiate (r : Registry) (path value : String) : Registry × Bool :=
  match r.vars.get? path with
  | some v => ({ r with vars := r.vars.insert path { v with value := some value } }, true)
  | none => (r, false)

/-- Is the path declared? -/
def contains (r : Registry) (path : String) : Bool := r.vars.contains path

/-- The text that refers to the variable at a declared path. -/
def resolve? (r : Registry) (path : String) : Option String :=
  if r.contains path then some (varReference path) else none

/-- The value of a declared variable: the one laid over it, else its placeholder. -/
def value? (r : Registry) (path : String) : Option String :=
  (r.vars.get? path).map fun v => v.value.getD v.placeholder

/-- The declared paths in order. -/
def paths (r : Registry) : List String := r.vars.keys

/-- The number of declared paths. -/
def size (r : Registry) : Nat := r.vars.size

/-- Is nothing declared? -/
def isEmpty (r : Registry) : Bool := r.vars.isEmpty

/-- Note that a name is bound to a contract. -/
def registerBinding (r : Registry) (name : String) : Registry :=
  if name ∈ r.bindings then r else { r with bindings := r.bindings ++ [name] }

/-- Is the name bound to a contract? -/
def isBinding (r : Registry) (name : String) : Bool := r.bindings.contains name

end Registry

end StyleCompiler
