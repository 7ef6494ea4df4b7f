import Mathlib.Data.List.Forall2
import StyleCompiler.Call
import StyleCompiler.Decimal.Text

/-!
# Respelling member accesses

An access `.k` may also be written `['k']`, and an access `[x]` with a number may be written with
the text of the number in quotes. A module is *respelled* if any of its accesses are written in the
other way, each of them or not, wherever an expression can stand: also inside other accesses, in
optional chains, and where nothing is ever compiled.

* `Segment.Respells`: the two ways to respell one access.
* `Expr.Respells`, …, `Module.Respells`: the same at any choice of accesses in a tree.
-/

namespace StyleCompiler

/-! ## Expressions -/

mutual

/-- The second expression is the first with accesses respelled. -/
inductive Expr.Respells : Expr → Expr → Prop
  | refl (e : Expr) : Expr.Respells e e
  | unary {op : UnaryOp} {e e' : Expr} :
      Expr.Respells e e' → Expr.Respells (.unary op e) (.unary op e')
  | binary {op : BinaryOp} {left left' right right' : Expr} :
      Expr.Respells left left' → Expr.Respells right right' →
        Expr.Respells (.binary op left right) (.binary op left' right')
  | conditional {test test' yes yes' no no' : Expr} :
      Expr.Respells test test' → Expr.Respells yes yes' → Expr.Respells no no' →
        Expr.Respells (.conditional test yes no) (.conditional test' yes' no')
  | assign {target target' value value' : Expr} :
      Expr.Respells target target' → Expr.Respells value value' →
        Expr.Respells (.assign target value) (.assign target' value')
  | sequence {es es' : List Expr} :
      List.Forall₂ Expr.Respells es es' → Expr.Respells (.sequence es) (.sequence es')
  | arrow {body body' : Expr} :
      Expr.Respells body body' → Expr.Respells (.arrow body) (.arrow body')
  | await {e e' : Expr} : Expr.Respells e e' → Expr.Respells (.await e) (.await e')
  | member {object object' : Expr} {segment segment' : Segment} :
      Expr.Respells object object' → Segment.Respells segment segment' →
        Expr.Respells (.member object segment) (.member object' segment')
  | optionalMember {object object' : Expr} {segment segment' : Segment} :
      Expr.Respells object object' → Segment.Respells segment segment' →
        Expr.Respells (.optionalMember object segment) (.optionalMember object' segment')
  | optionalCall {callee callee' : Expr} {args args' : List Arg} :
      Expr.Respells callee callee' → List.Forall₂ Arg.Respells args args' →
        Expr.Respells (.optionalCall callee args) (.optionalCall callee' args')
  | call {callee callee' : Callee} {args args' : List Arg} :
      Callee.Respells callee callee' → List.Forall₂ Arg.Respells args args' →
        Expr.Respells (.call callee args) (.call callee' args')
  | new {callee callee' : Expr} {args args' : List Arg} :
      Expr.Respells callee callee' → List.Forall₂ Arg.Respells args args' →
        Expr.Respells (.new callee args) (.new callee' args')
  | template {quasis : List Quasi} {es es' : List Expr} :
      List.Forall₂ Expr.Respells es es' →
        Expr.Respells (.template quasis es) (.template quasis es')
  | tagged {tag tag' : Expr} {quasis : List Quasi} {es es' : List Expr} :
      Expr.Respells tag tag' → List.Forall₂ Expr.Respells es es' →
        Expr.Respells (.tagged tag quasis es) (.tagged tag' quasis es')
  | array {elements elements' : List Element} :
      List.Forall₂ Element.Respells elements elements' →
        Expr.Respells (.array elements) (.array elements')
  | object {ps ps' : List Property} :
      List.Forall₂ Property.Respells ps ps' → Expr.Respells (.object ps) (.object ps')
  | wrapped {wrapper : Wrapper} {e e' : Expr} :
      Expr.Respells e e' → Expr.Respells (.wrapped wrapper e) (.wrapped wrapper e')
  | typeAssertion {e e' : Expr} :
      Expr.Respells e e' → Expr.Respells (.typeAssertion e) (.typeAssertion e')

/-- The second access is the first, respelled or with accesses inside it respelled. -/
inductive Segment.Respells : Segment → Segment → Prop
  /-- `.k` is `['k']`. -/
  | quoted (k : String) : Segment.Respells (.name k) (.index (.str (some k)))
  /-- `[x]` is the text of the number in quotes. -/
  | numbered {index : Expr} {x : Double} :
      index.unwrap = .num x → Segment.Respells (.index index) (.index (.str (some x.text)))
  | refl (segment : Segment) : Segment.Respells segment segment
  | index {e e' : Expr} : Expr.Respells e e' → Segment.Respells (.index e) (.index e')

/-- The second callee is the first with accesses respelled. -/
inductive Callee.Respells : Callee → Callee → Prop
  | refl (callee : Callee) : Callee.Respells callee callee
  | expr {e e' : Expr} : Expr.Respells e e' → Callee.Respells (.expr e) (.expr e')

/-- The second argument is the first with accesses respelled. -/
inductive Arg.Respells : Arg → Arg → Prop
  | plain {e e' : Expr} : Expr.Respells e e' → Arg.Respells (.plain e) (.plain e')
  | spread {e e' : Expr} : Expr.Respells e e' → Arg.Respells (.spread e) (.spread e')

/-- The second element is the first with accesses respelled. -/
inductive Element.Respells : Element → Element → Prop
  | hole : Element.Respells .hole .hole
  | arg {a a' : Arg} : Arg.Respells a a' → Element.Respells (.arg a) (.arg a')

/-- The second property is the first with accesses respelled. Its key is respelled only inside. -/
inductive Property.Respells : Property → Property → Prop
  | refl (p : Property) : Property.Respells p p
  | keyValue {key key' : Key} {value value' : Expr} :
      Key.Respells key key' → Expr.Respells value value' →
        Property.Respells (.keyValue key value) (.keyValue key' value')
  | assign {name : String} {value value' : Expr} :
      Expr.Respells value value' → Property.Respells (.assign name value) (.assign name value')
  | getter {key key' : Key} :
      Key.Respells key key' → Property.Respells (.getter key) (.getter key')
  | setter {key key' : Key} {parameter : Pattern} :
      Key.Respells key key' → Property.Respells (.setter key parameter) (.setter key' parameter)
  | method {key key' : Key} :
      Key.Respells key key' → Property.Respells (.method key) (.method key')
  | spread {value value' : Expr} :
      Expr.Respells value value' → Property.Respells (.spread value) (.spread value')

/-- The second key is the first with accesses in a computed one respelled. -/
inductive Key.Respells : Key → Key → Prop
  | refl (key : Key) : Key.Respells key key
  | computed {e e' : Expr} : Expr.Respells e e' → Key.Respells (.computed e) (.computed e')

end

/-! ## Modules -/

/-- The second declarator is the first with accesses respelled. -/
structure Declarator.Respells (d d' : Declarator) : Prop where
  pattern : d'.pattern = d.pattern
  init : Option.Rel Expr.Respells d.init d'.init

/-- The second statement is the first with accesses respelled. -/
inductive Stmt.Respells : Stmt → Stmt → Prop
  | refl (s : Stmt) : Stmt.Respells s s
  | vars {kind : VarKind} {declarators declarators' : List Declarator} :
      List.Forall₂ Declarator.Respells declarators declarators' →
        Stmt.Respells (.vars kind declarators) (.vars kind declarators')
  | expr {e e' : Expr} : Expr.Respells e e' → Stmt.Respells (.expr e) (.expr e')
  | block {body body' : List Stmt} :
      List.Forall₂ Stmt.Respells body body' → Stmt.Respells (.block body) (.block body')
  | function {name : String} {body body' : List Stmt} :
      List.Forall₂ Stmt.Respells body body' →
        Stmt.Respells (.function name body) (.function name body')

/-- The second item is the first with accesses respelled. -/
inductive Item.Respells : Item → Item → Prop
  | stmt {s s' : Stmt} : Stmt.Respells s s' → Item.Respells (.stmt s) (.stmt s')
  | exported {s s' : Stmt} : Stmt.Respells s s' → Item.Respells (.exported s) (.exported s')
  | exportDefault {e e' : Expr} :
      Expr.Respells e e' → Item.Respells (.exportDefault e) (.exportDefault e')
  | other : Item.Respells .other .other

/-- **The second module is the first with accesses respelled.** -/
def Module.Respells (m m' : Module) : Prop := List.Forall₂ Item.Respells m.items m'.items

/-- The second call is the first with accesses in its arguments respelled. -/
structure Call.Respells (c c' : Call) : Prop where
  name : c'.name = c.name
  kind : c'.kind = c.kind
  args : List.Forall₂ Arg.Respells c.args c'.args

end StyleCompiler
