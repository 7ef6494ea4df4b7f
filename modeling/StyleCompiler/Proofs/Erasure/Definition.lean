import StyleCompiler.Tree

/-!
# Modules without wrappers

Parentheses, `as`, `satisfies`, `as const` and `!` do not change the value of an expression. To
*erase* a module is to remove these wrappers from its tree, wherever an expression can stand: also
where nothing is ever compiled, such as in blocks and functions.

* `Module.erase`: the module without wrappers.
* `Module.bare_erase`: no wrapper is left in it.
-/

namespace StyleCompiler

/-! ## Erasing -/

mutual

/-- The expression without wrappers, at every depth. -/
def Expr.erase : Expr → Expr
  | .str text => .str text
  | .num value => .num value
  | .null => .null
  | .bool value => .bool value
  | .bigint digits => .bigint digits
  | .regex pattern flags => .regex pattern flags
  | .ident name => .ident name
  | .this => .this
  | .unary op operand => .unary op operand.erase
  | .binary op left right => .binary op left.erase right.erase
  | .conditional test yes no => .conditional test.erase yes.erase no.erase
  | .assign target value => .assign target.erase value.erase
  | .sequence exprs => .sequence (eraseExprs exprs)
  | .arrow body => .arrow body.erase
  | .await operand => .await operand.erase
  | .member object segment => .member object.erase segment.erase
  | .optionalMember object segment => .optionalMember object.erase segment.erase
  | .optionalCall callee args => .optionalCall callee.erase (eraseArgs args)
  | .call callee args => .call callee.erase (eraseArgs args)
  | .new callee args => .new callee.erase (eraseArgs args)
  | .template quasis exprs => .template quasis (eraseExprs exprs)
  | .tagged tag quasis exprs => .tagged tag.erase quasis (eraseExprs exprs)
  | .array elements => .array (eraseElements elements)
  | .object properties => .object (eraseProperties properties)
  | .wrapped _ inner => inner.erase
  | .typeAssertion inner => .typeAssertion inner.erase
  | .other => .other

/-- What is accessed, without wrappers. -/
def Segment.erase : Segment → Segment
  | .name name => .name name
  | .index index => .index index.erase
  | .hidden name => .hidden name

/-- What is called, without wrappers. -/
def Callee.erase : Callee → Callee
  | .expr callee => .expr callee.erase
  | .super => .super
  | .importModule => .importModule

/-- The argument without wrappers. -/
def Arg.erase : Arg → Arg
  | .plain value => .plain value.erase
  | .spread value => .spread value.erase

/-- The element of an array without wrappers. -/
def Element.erase : Element → Element
  | .hole => .hole
  | .arg a => .arg a.erase

/-- The property without wrappers. -/
def Property.erase : Property → Property
  | .keyValue key value => .keyValue key.erase value.erase
  | .shorthand name => .shorthand name
  | .assign name value => .assign name value.erase
  | .getter key => .getter key.erase
  | .setter key parameter => .setter key.erase parameter
  | .method key => .method key.erase
  | .spread value => .spread value.erase

/-- The key without wrappers. -/
def Key.erase : Key → Key
  | .ident name => .ident name
  | .str text => .str text
  | .num value => .num value
  | .bigint digits => .bigint digits
  | .computed key => .computed key.erase

/-- The expressions without wrappers. -/
def eraseExprs : List Expr → List Expr
  | [] => []
  | e :: es => e.erase :: eraseExprs es

/-- The arguments without wrappers. -/
def eraseArgs : List Arg → List Arg
  | [] => []
  | a :: as => a.erase :: eraseArgs as

/-- The elements without wrappers. -/
def eraseElements : List Element → List Element
  | [] => []
  | e :: es => e.erase :: eraseElements es

/-- The properties without wrappers. -/
def eraseProperties : List Property → List Property
  | [] => []
  | p :: ps => p.erase :: eraseProperties ps

end

/-- The declarator without wrappers. -/
def Declarator.erase (d : Declarator) : Declarator := { d with init := d.init.map Expr.erase }

mutual

/-- The statement without wrappers. -/
def Stmt.erase : Stmt → Stmt
  | .vars kind declarators => .vars kind (declarators.map Declarator.erase)
  | .expr e => .expr e.erase
  | .block body => .block (eraseStmts body)
  | .empty => .empty
  | .function name body => .function name (eraseStmts body)
  | .other => .other

/-- The statements without wrappers. -/
def eraseStmts : List Stmt → List Stmt
  | [] => []
  | s :: ss => s.erase :: eraseStmts ss

end

/-- The item without wrappers. -/
def Item.erase : Item → Item
  | .stmt s => .stmt s.erase
  | .exported s => .exported s.erase
  | .exportDefault e => .exportDefault e.erase
  | .other => .other

/-- **The module without wrappers.** -/
def Module.erase (m : Module) : Module := ⟨m.items.map Item.erase⟩

theorem eraseExprs_eq_map (es : List Expr) : eraseExprs es = es.map Expr.erase := by
  induction es with
  | nil => rfl
  | cons e es ih => rw [eraseExprs, List.map_cons, ih]

theorem eraseArgs_eq_map (as : List Arg) : eraseArgs as = as.map Arg.erase := by
  induction as with
  | nil => rfl
  | cons a as ih => rw [eraseArgs, List.map_cons, ih]

theorem eraseProperties_eq_map (ps : List Property) :
    eraseProperties ps = ps.map Property.erase := by
  induction ps with
  | nil => rfl
  | cons p ps ih => rw [eraseProperties, List.map_cons, ih]

/-! ## Trees without wrappers -/

mutual

/-- Is there no wrapper in the expression? -/
def Expr.bare : Expr → Bool
  | .unary _ operand => operand.bare
  | .binary _ left right => left.bare && right.bare
  | .conditional test yes no => test.bare && yes.bare && no.bare
  | .assign target value => target.bare && value.bare
  | .sequence exprs => bareExprs exprs
  | .arrow body => body.bare
  | .await operand => operand.bare
  | .member object segment => object.bare && segment.bare
  | .optionalMember object segment => object.bare && segment.bare
  | .optionalCall callee args => callee.bare && bareArgs args
  | .call callee args => callee.bare && bareArgs args
  | .new callee args => callee.bare && bareArgs args
  | .template _ exprs => bareExprs exprs
  | .tagged tag _ exprs => tag.bare && bareExprs exprs
  | .array elements => bareElements elements
  | .object properties => bareProperties properties
  | .wrapped _ _ => false
  | .typeAssertion inner => inner.bare
  | .str _ | .num _ | .null | .bool _ | .bigint _ | .regex _ _ | .ident _ | .this | .other => true

/-- Is there no wrapper in what is accessed? -/
def Segment.bare : Segment → Bool
  | .index index => index.bare
  | .name _ | .hidden _ => true

/-- Is there no wrapper in what is called? -/
def Callee.bare : Callee → Bool
  | .expr callee => callee.bare
  | .super | .importModule => true

/-- Is there no wrapper in the argument? -/
def Arg.bare : Arg → Bool
  | .plain value => value.bare
  | .spread value => value.bare

/-- Is there no wrapper in the element? -/
def Element.bare : Element → Bool
  | .hole => true
  | .arg a => a.bare

/-- Is there no wrapper in the property? -/
def Property.bare : Property → Bool
  | .keyValue key value => key.bare && value.bare
  | .shorthand _ => true
  | .assign _ value => value.bare
  | .getter key => key.bare
  | .setter key _ => key.bare
  | .method key => key.bare
  | .spread value => value.bare

/-- Is there no wrapper in the key? -/
def Key.bare : Key → Bool
  | .computed key => key.bare
  | .ident _ | .str _ | .num _ | .bigint _ => true

/-- Is there no wrapper in the expressions? -/
def bareExprs : List Expr → Bool
  | [] => true
  | e :: es => e.bare && bareExprs es

/-- Is there no wrapper in the arguments? -/
def bareArgs : List Arg → Bool
  | [] => true
  | a :: as => a.bare && bareArgs as

/-- Is there no wrapper in the elements? -/
def bareElements : List Element → Bool
  | [] => true
  | e :: es => e.bare && bareElements es

/-- Is there no wrapper in the properties? -/
def bareProperties : List Property → Bool
  | [] => true
  | p :: ps => p.bare && bareProperties ps

end

/-- Is there no wrapper in the declarator? -/
def Declarator.bare (d : Declarator) : Bool := d.init.all Expr.bare

mutual

/-- Is there no wrapper in the statement? -/
def Stmt.bare : Stmt → Bool
  | .vars _ declarators => declarators.all Declarator.bare
  | .expr e => e.bare
  | .block body => bareStmts body
  | .function _ body => bareStmts body
  | .empty | .other => true

/-- Is there no wrapper in the statements? -/
def bareStmts : List Stmt → Bool
  | [] => true
  | s :: ss => s.bare && bareStmts ss

end

/-- Is there no wrapper in the item? -/
def Item.bare : Item → Bool
  | .stmt s => s.bare
  | .exported s => s.bare
  | .exportDefault e => e.bare
  | .other => true

/-- Is there no wrapper in the module? -/
def Module.bare (m : Module) : Bool := m.items.all Item.bare

/-! ## Erasing leaves no wrapper -/

mutual

theorem Expr.bare_erase : ∀ e : Expr, e.erase.bare = true
  | .unary _ operand => operand.bare_erase
  | .binary _ left right => by
    simp only [Expr.erase, Expr.bare, left.bare_erase, right.bare_erase, Bool.and_self]
  | .conditional test yes no => by
    simp only [Expr.erase, Expr.bare, test.bare_erase, yes.bare_erase, no.bare_erase,
      Bool.and_self]
  | .assign target value => by
    simp only [Expr.erase, Expr.bare, target.bare_erase, value.bare_erase, Bool.and_self]
  | .sequence exprs => bare_eraseExprs exprs
  | .arrow body => body.bare_erase
  | .await operand => operand.bare_erase
  | .member object segment => by
    simp only [Expr.erase, Expr.bare, object.bare_erase, segment.bare_erase, Bool.and_self]
  | .optionalMember object segment => by
    simp only [Expr.erase, Expr.bare, object.bare_erase, segment.bare_erase, Bool.and_self]
  | .optionalCall callee args => by
    simp only [Expr.erase, Expr.bare, callee.bare_erase, bare_eraseArgs args, Bool.and_self]
  | .call callee args => by
    simp only [Expr.erase, Expr.bare, callee.bare_erase, bare_eraseArgs args, Bool.and_self]
  | .new callee args => by
    simp only [Expr.erase, Expr.bare, callee.bare_erase, bare_eraseArgs args, Bool.and_self]
  | .template _ exprs => bare_eraseExprs exprs
  | .tagged tag _ exprs => by
    simp only [Expr.erase, Expr.bare, tag.bare_erase, bare_eraseExprs exprs, Bool.and_self]
  | .array elements => bare_eraseElements elements
  | .object properties => bare_eraseProperties properties
  | .wrapped _ inner => inner.bare_erase
  | .typeAssertion inner => inner.bare_erase
  | .str _ | .num _ | .null | .bool _ | .bigint _ | .regex _ _ | .ident _ | .this | .other => rfl

theorem Segment.bare_erase : ∀ s : Segment, s.erase.bare = true
  | .index index => index.bare_erase
  | .name _ | .hidden _ => rfl

theorem Callee.bare_erase : ∀ c : Callee, c.erase.bare = true
  | .expr callee => callee.bare_erase
  | .super | .importModule => rfl

theorem Arg.bare_erase : ∀ a : Arg, a.erase.bare = true
  | .plain value => value.bare_erase
  | .spread value => value.bare_erase

theorem Element.bare_erase : ∀ e : Element, e.erase.bare = true
  | .hole => rfl
  | .arg a => a.bare_erase

theorem Property.bare_erase : ∀ p : Property, p.erase.bare = true
  | .keyValue key value => by
    simp only [Property.erase, Property.bare, key.bare_erase, value.bare_erase, Bool.and_self]
  | .shorthand _ => rfl
  | .assign _ value => value.bare_erase
  | .getter key => key.bare_erase
  | .setter key _ => key.bare_erase
  | .method key => key.bare_erase
  | .spread value => value.bare_erase

theorem Key.bare_erase : ∀ k : Key, k.erase.bare = true
  | .computed key => key.bare_erase
  | .ident _ | .str _ | .num _ | .bigint _ => rfl

theorem bare_eraseExprs : ∀ es : List Expr, bareExprs (eraseExprs es) = true
  | [] => rfl
  | e :: es => by
    simp only [eraseExprs, bareExprs, e.bare_erase, bare_eraseExprs es, Bool.and_self]

theorem bare_eraseArgs : ∀ as : List Arg, bareArgs (eraseArgs as) = true
  | [] => rfl
  | a :: as => by
    simp only [eraseArgs, bareArgs, a.bare_erase, bare_eraseArgs as, Bool.and_self]

theorem bare_eraseElements : ∀ es : List Element, bareElements (eraseElements es) = true
  | [] => rfl
  | e :: es => by
    simp only [eraseElements, bareElements, e.bare_erase, bare_eraseElements es, Bool.and_self]

theorem bare_eraseProperties : ∀ ps : List Property, bareProperties (eraseProperties ps) = true
  | [] => rfl
  | p :: ps => by
    simp only [eraseProperties, bareProperties, p.bare_erase, bare_eraseProperties ps,
      Bool.and_self]

end

theorem Declarator.bare_erase (d : Declarator) : d.erase.bare = true := by
  obtain ⟨pattern, init⟩ := d
  cases init with
  | none => rfl
  | some e => exact e.bare_erase

mutual

theorem Stmt.bare_erase : ∀ s : Stmt, s.erase.bare = true
  | .vars _ declarators => by
    simp only [Stmt.erase, Stmt.bare, List.all_map, List.all_eq_true]
    intro d _
    exact d.bare_erase
  | .expr e => e.bare_erase
  | .block body => bare_eraseStmts body
  | .function _ body => bare_eraseStmts body
  | .empty | .other => rfl

theorem bare_eraseStmts : ∀ ss : List Stmt, bareStmts (eraseStmts ss) = true
  | [] => rfl
  | s :: ss => by
    simp only [eraseStmts, bareStmts, s.bare_erase, bare_eraseStmts ss, Bool.and_self]

end

theorem Item.bare_erase (i : Item) : i.erase.bare = true := by
  cases i with
  | stmt s | exported s => exact s.bare_erase
  | exportDefault e => exact e.bare_erase
  | other => rfl

/-- **No wrapper is left in an erased module.** -/
theorem Module.bare_erase (m : Module) : m.erase.bare = true := by
  simp only [Module.erase, Module.bare, List.all_map, List.all_eq_true]
  intro i _
  exact i.bare_erase

end StyleCompiler
