import StyleCompiler.Value
import StyleCompiler.Call

/-!
# Renaming a binding

To rename `v` to `w` in a module is to change two kinds of places: the bindings with this name, and
the identifier `v` where it is the root of a member access, under whatever wrappers. Segments, keys
and all other identifiers stay as they are.

* `Module.rename`: the module with the binding renamed.
* `Call.roots`: the roots of the member references in the arguments of a call, at every depth. An
  access whose segment is not known is no reference.
-/

namespace StyleCompiler

/-- The name `w` in the place of `v`. -/
def replaceName (v w name : String) : String := if name = v then w else name

/-! ## Renaming -/

/-- The variables bound, renamed. -/
def Pattern.rename (v w : String) : Pattern → Pattern
  | .name bound => .name (replaceName v w bound)
  | .destructuring names => .destructuring (names.map (replaceName v w))

mutual

/-- The expression with the roots of its member accesses renamed, at every depth. The flag says
whether the expression stands at the root of a member access. -/
def Expr.rename (v w : String) (root : Bool) : Expr → Expr
  | .str text => .str text
  | .num value => .num value
  | .null => .null
  | .bool value => .bool value
  | .bigint digits => .bigint digits
  | .regex pattern flags => .regex pattern flags
  | .ident name => .ident (if root then replaceName v w name else name)
  | .this => .this
  | .unary op operand => .unary op (operand.rename v w false)
  | .binary op left right => .binary op (left.rename v w false) (right.rename v w false)
  | .conditional test yes no =>
    .conditional (test.rename v w false) (yes.rename v w false) (no.rename v w false)
  | .assign target value => .assign (target.rename v w false) (value.rename v w false)
  | .sequence exprs => .sequence (renameExprs v w exprs)
  | .arrow body => .arrow (body.rename v w false)
  | .await operand => .await (operand.rename v w false)
  | .member object segment => .member (object.rename v w true) (segment.rename v w)
  | .optionalMember object segment => .optionalMember (object.rename v w false) (segment.rename v w)
  | .optionalCall callee args => .optionalCall (callee.rename v w false) (renameArgs v w args)
  | .call callee args => .call (callee.rename v w) (renameArgs v w args)
  | .new callee args => .new (callee.rename v w false) (renameArgs v w args)
  | .template quasis exprs => .template quasis (renameExprs v w exprs)
  | .tagged tag quasis exprs => .tagged (tag.rename v w false) quasis (renameExprs v w exprs)
  | .array elements => .array (renameElements v w elements)
  | .object properties => .object (renameProperties v w properties)
  | .wrapped wrapper inner => .wrapped wrapper (inner.rename v w root)
  | .typeAssertion inner => .typeAssertion (inner.rename v w false)
  | .other => .other

/-- What is accessed, with roots renamed. -/
def Segment.rename (v w : String) : Segment → Segment
  | .name name => .name name
  | .index index => .index (index.rename v w false)
  | .hidden name => .hidden name

/-- What is called, with roots renamed. -/
def Callee.rename (v w : String) : Callee → Callee
  | .expr callee => .expr (callee.rename v w false)
  | .super => .super
  | .importModule => .importModule

/-- The argument with roots renamed. -/
def Arg.rename (v w : String) : Arg → Arg
  | .plain value => .plain (value.rename v w false)
  | .spread value => .spread (value.rename v w false)

/-- The element of an array with roots renamed. -/
def Element.rename (v w : String) : Element → Element
  | .hole => .hole
  | .arg a => .arg (a.rename v w)

/-- The property with roots renamed. -/
def Property.rename (v w : String) : Property → Property
  | .keyValue key value => .keyValue (key.rename v w) (value.rename v w false)
  | .shorthand name => .shorthand name
  | .assign name value => .assign name (value.rename v w false)
  | .getter key => .getter (key.rename v w)
  | .setter key parameter => .setter (key.rename v w) (parameter.rename v w)
  | .method key => .method (key.rename v w)
  | .spread value => .spread (value.rename v w false)

/-- The key with roots renamed where it is computed. -/
def Key.rename (v w : String) : Key → Key
  | .ident name => .ident name
  | .str text => .str text
  | .num value => .num value
  | .bigint digits => .bigint digits
  | .computed key => .computed (key.rename v w false)

/-- The expressions with roots renamed. -/
def renameExprs (v w : String) : List Expr → List Expr
  | [] => []
  | e :: es => e.rename v w false :: renameExprs v w es

/-- The arguments with roots renamed. -/
def renameArgs (v w : String) : List Arg → List Arg
  | [] => []
  | a :: as => a.rename v w :: renameArgs v w as

/-- The elements with roots renamed. -/
def renameElements (v w : String) : List Element → List Element
  | [] => []
  | e :: es => e.rename v w :: renameElements v w es

/-- The properties with roots renamed. -/
def renameProperties (v w : String) : List Property → List Property
  | [] => []
  | p :: ps => p.rename v w :: renameProperties v w ps

end

/-- The declarator with its bindings and roots renamed. -/
def Declarator.rename (v w : String) (d : Declarator) : Declarator :=
  ⟨d.pattern.rename v w, d.init.map (Expr.rename v w false)⟩

mutual

/-- The statement with its bindings and roots renamed. -/
def Stmt.rename (v w : String) : Stmt → Stmt
  | .vars kind declarators => .vars kind (declarators.map (Declarator.rename v w))
  | .expr e => .expr (e.rename v w false)
  | .block body => .block (renameStmts v w body)
  | .empty => .empty
  | .function name body => .function (replaceName v w name) (renameStmts v w body)
  | .other => .other

/-- The statements with their bindings and roots renamed. -/
def renameStmts (v w : String) : List Stmt → List Stmt
  | [] => []
  | s :: ss => s.rename v w :: renameStmts v w ss

end

/-- The item with its bindings and roots renamed. -/
def Item.rename (v w : String) : Item → Item
  | .stmt s => .stmt (s.rename v w)
  | .exported s => .exported (s.rename v w)
  | .exportDefault e => .exportDefault (e.rename v w false)
  | .other => .other

/-- **The module with a binding renamed.** -/
def Module.rename (v w : String) (m : Module) : Module := ⟨m.items.map (Item.rename v w)⟩

/-- The call with its name and the roots in its arguments renamed. -/
def Call.rename (v w : String) (c : Call) : Call :=
  ⟨replaceName v w c.name, c.kind, c.args.map (Arg.rename v w)⟩

theorem renameExprs_eq_map (v w : String) (es : List Expr) :
    renameExprs v w es = es.map (Expr.rename v w false) := by
  induction es with
  | nil => rfl
  | cons e es ih => rw [renameExprs, List.map_cons, ih]

theorem renameArgs_eq_map (v w : String) (as : List Arg) :
    renameArgs v w as = as.map (Arg.rename v w) := by
  induction as with
  | nil => rfl
  | cons a as ih => rw [renameArgs, List.map_cons, ih]

theorem renameProperties_eq_map (v w : String) (ps : List Property) :
    renameProperties v w ps = ps.map (Property.rename v w) := by
  induction ps with
  | nil => rfl
  | cons p ps ih => rw [renameProperties, List.map_cons, ih]

/-! ## Roots -/

mutual

/-- The roots of the member references in an expression, at every depth. The flag says whether the
expression stands at the root of one. -/
def Expr.roots (root : Bool) : Expr → List String
  | .ident name => if root then [name] else []
  | .unary _ operand => operand.roots false
  | .binary _ left right => left.roots false ++ right.roots false
  | .conditional test yes no => test.roots false ++ yes.roots false ++ no.roots false
  | .assign target value => target.roots false ++ value.roots false
  | .sequence exprs => rootsExprs exprs
  | .arrow body => body.roots false
  | .await operand => operand.roots false
  | .member object segment => object.roots segment.text?.isSome ++ segment.roots
  | .optionalMember object segment => object.roots false ++ segment.roots
  | .optionalCall callee args => callee.roots false ++ rootsArgs args
  | .call callee args => callee.roots ++ rootsArgs args
  | .new callee args => callee.roots false ++ rootsArgs args
  | .template _ exprs => rootsExprs exprs
  | .tagged tag _ exprs => tag.roots false ++ rootsExprs exprs
  | .array elements => rootsElements elements
  | .object properties => rootsProperties properties
  | .wrapped _ inner => inner.roots root
  | .typeAssertion inner => inner.roots false
  | .str _ | .num _ | .null | .bool _ | .bigint _ | .regex _ _ | .this | .other => []

/-- The roots in what is accessed. -/
def Segment.roots : Segment → List String
  | .index index => index.roots false
  | .name _ | .hidden _ => []

/-- The roots in what is called. -/
def Callee.roots : Callee → List String
  | .expr callee => callee.roots false
  | .super | .importModule => []

/-- The roots in an argument. -/
def Arg.roots : Arg → List String
  | .plain value => value.roots false
  | .spread value => value.roots false

/-- The roots in an element of an array. -/
def Element.roots : Element → List String
  | .hole => []
  | .arg a => a.roots

/-- The roots in a property. -/
def Property.roots : Property → List String
  | .keyValue key value => key.roots ++ value.roots false
  | .shorthand _ => []
  | .assign _ value => value.roots false
  | .getter key => key.roots
  | .setter key _ => key.roots
  | .method key => key.roots
  | .spread value => value.roots false

/-- The roots in a key. -/
def Key.roots : Key → List String
  | .computed key => key.roots false
  | .ident _ | .str _ | .num _ | .bigint _ => []

/-- The roots in expressions. -/
def rootsExprs : List Expr → List String
  | [] => []
  | e :: es => e.roots false ++ rootsExprs es

/-- The roots in arguments. -/
def rootsArgs : List Arg → List String
  | [] => []
  | a :: as => a.roots ++ rootsArgs as

/-- The roots in elements. -/
def rootsElements : List Element → List String
  | [] => []
  | e :: es => e.roots ++ rootsElements es

/-- The roots in properties. -/
def rootsProperties : List Property → List String
  | [] => []
  | p :: ps => p.roots ++ rootsProperties ps

end

/-- **The roots of the member references in a call.** -/
def Call.roots (c : Call) : List String := rootsArgs c.args

theorem rootsArgs_eq_flatMap (as : List Arg) : rootsArgs as = as.flatMap Arg.roots := by
  induction as with
  | nil => rfl
  | cons a as ih => rw [rootsArgs, List.flatMap_cons, ih]

theorem rootsProperties_eq_flatMap (ps : List Property) :
    rootsProperties ps = ps.flatMap Property.roots := by
  induction ps with
  | nil => rfl
  | cons p ps ih => rw [rootsProperties, List.flatMap_cons, ih]

end StyleCompiler
