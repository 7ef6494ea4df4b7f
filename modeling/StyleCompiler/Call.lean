import StyleCompiler.Tree
import StyleCompiler.Declaration

/-!
# Recognised calls

A declaration is a variable of the module itself, exported or not, that is bound by its plain
name to a call of one of the known functions.

* `Module.calls` is `extract_declarations`: `Item.declarators` is what `visit_module_item` goes
  into, and `Declarator.call?` is `visit_var_declarator`. `Callee.name?` is `callee_name`.
* `Call` is `StyleCall`, `Call.objectArg?` its `object_arg` and `Call.firstArg?` its `first_arg`.
-/

namespace StyleCompiler

/-- A call that makes a declaration: the name it is bound to, its kind and its arguments. -/
structure Call where
  name : String
  kind : Kind
  args : List Arg

/-- The name of a called function. -/
def Callee.name? : Callee → Option String
  | .expr e =>
    match e.unwrap with
    | .ident name => some name
    | _ => none
  | _ => none

/-- The recognised call of a declarator. -/
def Declarator.call? (d : Declarator) : Option Call :=
  match d.pattern, d.init.map Expr.unwrap with
  | .name name, some (.call callee args) => do
    let kind ← Kind.ofCallee? (← callee.name?)
    return { name, kind, args }
  | _, _ => none

/-- The variables that an item declares in the module itself. -/
def Item.declarators : Item → List Declarator
  | .stmt (.vars _ declarators) => declarators
  | .exported (.vars _ declarators) => declarators
  | _ => []

/-- The recognised calls of a module in order. -/
def Module.calls (m : Module) : List Call :=
  (m.items.flatMap Item.declarators).filterMap Declarator.call?

namespace Call

/-- The first argument; one that is spread counts. -/
def firstArg? (c : Call) : Option Expr := c.args.head?.map fun a => a.value.unwrap

/-- The properties of an argument that is an object literal and is not spread. -/
def objectOf? : Arg → Option (List Property)
  | .plain e =>
    match e.unwrap with
    | .object properties => some properties
    | _ => none
  | .spread _ => none

/-- The properties of the first argument that is an object literal and is not spread. -/
def objectArg? (c : Call) : Option (List Property) := c.args.findSome? objectOf?

end Call

end StyleCompiler
