import StyleCompiler.Proofs.Run

/-!
# Modules without what is left out

The compiler leaves out entries that it can make nothing of: properties that are no entries,
values without a text, groups that are no object literals. To *clean* a module is to delete these
entries from its tree, and to put `{}` in the place of `selectors` and `@media` values that are no
object literals. Rejected calls stay as they are.

Whether an entry is left out depends on the registry at that moment, so cleaning takes the
registry along. Each function returns what is left and how many entries it deleted or replaced.
-/

namespace StyleCompiler

/-- What cleaning leaves, and how many entries it deleted or replaced. -/
structure Cleaned (α : Type) where
  result : α
  edits : Nat

/-! ## Edits in place -/

/-- Put other properties into the object literal that an expression is inside its wrappers. -/
def Expr.withProperties (properties : List Property) : Expr → Expr
  | .wrapped wrapper inner => .wrapped wrapper (inner.withProperties properties)
  | .object _ => .object properties
  | e => e

/-- Put other arguments into the call that an expression is inside its wrappers. -/
def Expr.withArgs (args : List Arg) : Expr → Expr
  | .wrapped wrapper inner => .wrapped wrapper (inner.withArgs args)
  | .call callee _ => .call callee args
  | e => e

/-- Put another value into a key-value property. -/
def Property.withValue (value : Expr) : Property → Property
  | .keyValue key _ => .keyValue key value
  | p => p

/-- Put a cleaned object literal into a property whose value is one. -/
def Property.withBody (p : Property) (value : Expr) (body : Cleaned (List Property)) :
    Cleaned Property :=
  ⟨p.withValue (value.withProperties body.result), body.edits⟩

/-- Put other properties into the object literal that an argument is. -/
def Arg.withProperties (properties : List Property) : Arg → Arg
  | .plain e => .plain (e.withProperties properties)
  | .spread e => .spread (e.withProperties properties)

/-- Put other properties into the first argument. -/
def withFirstArg (properties : List Property) : List Arg → List Arg
  | [] => []
  | a :: args => a.withProperties properties :: args

/-- Put other properties into the first argument that is an object literal and is not spread. -/
def withObjectArg (properties : List Property) : List Arg → List Arg
  | [] => []
  | a :: args =>
    match Call.objectOf? a with
    | some _ => a.withProperties properties :: args
    | none => a :: withObjectArg properties args

/-! ## Object literals -/

/-- The state after a property; only an entry changes it. -/
def afterProperty {σ : Type} (next : σ → String × Expr → σ) (s : σ) (p : Property) : σ :=
  match p.entry with
  | .ok entry => next s entry
  | .error _ => s

/-- Clean the properties of an object literal in order. `clean s p` is what is left of `p` in the
state `s`, nothing if `p` is deleted, and `next s e` is the state after the entry `e`. -/
def sweep {σ : Type} (clean : σ → Property → Option (Cleaned Property))
    (next : σ → String × Expr → σ) : σ → List Property → Cleaned (List Property)
  | _, [] => ⟨[], 0⟩
  | s, p :: ps =>
    let rest := sweep clean next (afterProperty next s p) ps
    match clean s p with
    | some q => ⟨q.result :: rest.result, q.edits + rest.edits⟩
    | none => ⟨rest.result, rest.edits + 1⟩

/-- A property that should be a rule or a variable stays if its value has a text. -/
def cleanRule (r : Registry) (p : Property) : Option (Cleaned Property) :=
  match p.entry with
  | .ok (key, value) =>
    match (Value.ofExpr value).resolve r key with
    | .ok _ => some ⟨p, 0⟩
    | .error _ => none
  | .error _ => none

/-- Styles leave the registry as it is. -/
def keepRegistry (r : Registry) (_ : String × Expr) : Registry := r

/-- A group stays, with its rules cleaned, if it is an object literal. -/
def cleanGroup (r : Registry) (p : Property) : Option (Cleaned Property) :=
  match p.entry with
  | .ok (_, value) =>
    match Value.ofExpr value with
    | .object body => some (p.withBody value (sweep cleanRule keepRegistry r body))
    | _ => none
  | .error _ => none

/-- An entry of a style: groups that are no object literal become `{}`. -/
def cleanStyleEntry (r : Registry) (p : Property) : Option (Cleaned Property) :=
  match p.entry with
  | .ok (key, value) =>
    if isGroupsKey key then
      match Value.ofExpr value with
      | .object groups => some (p.withBody value (sweep cleanGroup keepRegistry r groups))
      | _ => some ⟨p.withValue (.object []), 1⟩
    else cleanRule r p
  | .error _ => none

/-- The leaf that an entry of a nested object literal is. -/
def innerLeaf (outer : String) (entry : String × Expr) : ThemeEntry :=
  .leaf (outer ++ "." ++ entry.1) entry.1 entry.2

/-- The registry after an entry of a contract or a theme that stands for the given leaves. -/
def themeNext (kind : Kind) (name : String) (leaves : String × Expr → List ThemeEntry)
    (r : Registry) (entry : String × Expr) : Registry :=
  (runTheme kind name r (leaves entry)).registry

/-- An entry of a contract or a theme: a leaf, or an object literal of leaves. -/
def cleanThemeEntry (kind : Kind) (name : String) (r : Registry) (p : Property) :
    Option (Cleaned Property) :=
  match p.entry with
  | .ok (key, value) =>
    match Value.ofExpr value with
    | .object inner =>
      some (p.withBody value
        (sweep cleanRule (themeNext kind name fun e => [innerLeaf key e]) r inner))
    | _ => cleanRule r p
  | .error _ => none

/-! ## Calls and modules -/

/-- Clean the object literal of a style. -/
def Call.cleanStyle (c : Call) (r : Registry) (properties : List Property) : Cleaned Call :=
  let body := sweep cleanStyleEntry keepRegistry r properties
  ⟨{ c with args := withFirstArg body.result c.args }, body.edits⟩

/-- Clean the object literal of a contract or a theme. -/
def Call.cleanEntries (c : Call) (r : Registry) (properties : List Property) : Cleaned Call :=
  let body := sweep (cleanThemeEntry c.kind c.name)
    (themeNext c.kind c.name (themeEntriesAt c.name)) r properties
  ⟨{ c with args := withObjectArg body.result c.args }, body.edits⟩

/-- Clean a call. One that is rejected stays as it is. -/
def Call.clean (c : Call) (r : Registry) : Cleaned Call :=
  match c.form with
  | .style properties => c.cleanStyle r properties
  | .entries properties => c.cleanEntries (c.start r) properties
  | .rejected => ⟨c, 0⟩

/-- Clean the declarators of a declaration in order. -/
def cleanDeclarators : Registry → List Declarator → Cleaned (List Declarator)
  | _, [] => ⟨[], 0⟩
  | r, d :: ds =>
    match d.call? with
    | some c =>
      let call := c.clean r
      let rest := cleanDeclarators (c.run r).registry ds
      ⟨{ d with init := d.init.map (Expr.withArgs call.result.args) } :: rest.result,
        call.edits + rest.edits⟩
    | none =>
      let rest := cleanDeclarators r ds
      ⟨d :: rest.result, rest.edits⟩

/-- Put other declarators into an item that declares variables. -/
def Item.withDeclarators (ds : List Declarator) : Item → Item
  | .stmt (.vars kind _) => .stmt (.vars kind ds)
  | .exported (.vars kind _) => .exported (.vars kind ds)
  | i => i

/-- Clean the items of a module in order. -/
def cleanItems : Registry → List Item → Cleaned (List Item)
  | _, [] => ⟨[], 0⟩
  | r, i :: is =>
    let ds := cleanDeclarators r i.declarators
    let rest := cleanItems (registryAfter r (i.declarators.filterMap Declarator.call?)) is
    ⟨i.withDeclarators ds.result :: rest.result, ds.edits + rest.edits⟩

/-- **Clean a module**: delete or replace all that its compilation leaves out. -/
def Module.clean (m : Module) : Cleaned Module :=
  let items := cleanItems {} m.items
  ⟨⟨items.result⟩, items.edits⟩

end StyleCompiler
