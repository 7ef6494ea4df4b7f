import StyleCompiler.Double

/-!
# Module trees

The tree of a module as far as style declarations can depend on it. Expressions keep their shape;
what has no value before the program runs (functions, classes, markup, updates) is a leaf.

`Expr.unwrap` is `unwrap_expr`.
-/

namespace StyleCompiler

/-! ## Expressions -/

/-- The ways to wrap an expression without changing its value. -/
inductive Wrapper where
  | paren
  | asType
  | satisfies
  | asConst
  | nonNull
deriving DecidableEq, Repr

/-- Operators with one operand. -/
inductive UnaryOp where
  | minus
  | plus
  | not
  | complement
  | typeof
  | void
  | delete
deriving DecidableEq, Repr

/-- Operators with two operands. -/
inductive BinaryOp where
  | add
  | other (symbol : String)
deriving DecidableEq, Repr

/-- A stretch of literal text in a template: its source text and what the text stands for, if its
escapes are valid and it is Unicode text. -/
structure Quasi where
  cooked : Option String
  raw : String
deriving DecidableEq, Repr

/-- The variables that a declarator or a parameter binds. -/
inductive Pattern where
  | name (name : String)
  | destructuring (names : List String)
deriving DecidableEq, Repr

mutual

/-- An expression. A string literal that is not Unicode text has no text. -/
inductive Expr where
  | str (text : Option String)
  | num (value : Double)
  | null
  | bool (value : Bool)
  | bigint (digits : String)
  | regex (pattern flags : String)
  | ident (name : String)
  | this
  | unary (op : UnaryOp) (operand : Expr)
  | binary (op : BinaryOp) (left right : Expr)
  | conditional (test yes no : Expr)
  | assign (target value : Expr)
  | sequence (exprs : List Expr)
  | arrow (body : Expr)
  | await (operand : Expr)
  | member (object : Expr) (segment : Segment)
  | optionalMember (object : Expr) (segment : Segment)
  | optionalCall (callee : Expr) (args : List Arg)
  | call (callee : Callee) (args : List Arg)
  | new (callee : Expr) (args : List Arg)
  | template (quasis : List Quasi) (exprs : List Expr)
  | tagged (tag : Expr) (quasis : List Quasi) (exprs : List Expr)
  | array (elements : List Element)
  | object (properties : List Property)
  | wrapped (wrapper : Wrapper) (inner : Expr)
  | typeAssertion (inner : Expr)
  | other

/-- What is accessed in a member expression: `.name`, `[index]` or `.#name`. -/
inductive Segment where
  | name (name : String)
  | index (index : Expr)
  | hidden (name : String)

/-- What is called. -/
inductive Callee where
  | expr (callee : Expr)
  | super
  | importModule

/-- An argument of a call. -/
inductive Arg where
  | plain (value : Expr)
  | spread (value : Expr)

/-- An element of an array literal. -/
inductive Element where
  | hole
  | arg (arg : Arg)

/-- A property of an object literal. -/
inductive Property where
  | keyValue (key : Key) (value : Expr)
  | shorthand (name : String)
  | assign (name : String) (value : Expr)
  | getter (key : Key)
  | setter (key : Key) (parameter : Pattern)
  | method (key : Key)
  | spread (value : Expr)

/-- The key of a property. -/
inductive Key where
  | ident (name : String)
  | str (text : Option String)
  | num (value : Double)
  | bigint (digits : String)
  | computed (key : Expr)

end

instance : Inhabited Expr := ⟨.other⟩

/-- The expression inside all wrappers. -/
def Expr.unwrap : Expr → Expr
  | .wrapped _ inner => inner.unwrap
  | e => e

/-- Inside all wrappers stands no wrapper. -/
theorem Expr.unwrap_ne_wrapped (e : Expr) (wrapper : Wrapper) (inner : Expr) :
    e.unwrap ≠ .wrapped wrapper inner := by
  fun_induction Expr.unwrap e with
  | case1 _ _ ih => exact ih
  | case2 e h => exact h wrapper inner

/-- The value of an argument. -/
def Arg.value : Arg → Expr
  | .plain e => e
  | .spread e => e

/-! ## Statements -/

/-- The words that declare variables. -/
inductive VarKind where
  | const
  | let
  | var
deriving DecidableEq, Repr

/-- One variable of a declaration and its initial value. -/
structure Declarator where
  pattern : Pattern
  init : Option Expr

/-- A statement. -/
inductive Stmt where
  | vars (kind : VarKind) (declarators : List Declarator)
  | expr (expr : Expr)
  | block (body : List Stmt)
  | empty
  | function (name : String) (body : List Stmt)
  | other

/-- An item of a module. -/
inductive Item where
  | stmt (stmt : Stmt)
  | exported (stmt : Stmt)
  | exportDefault (expr : Expr)
  | other

/-- A module. -/
structure Module where
  items : List Item

end StyleCompiler
