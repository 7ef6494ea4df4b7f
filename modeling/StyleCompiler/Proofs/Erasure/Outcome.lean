import StyleCompiler.Proofs.Erasure.Definition
import StyleCompiler.Proofs.Simulation

/-!
# Wrappers never matter

Whatever looks at an expression looks inside its wrappers first, so a module and the module without
wrappers compile to the same. Erasing commutes with every reader of the tree, from literals and
member chains up to the values and the entries of object literals. Hence an expression and its
erasure may be compiled side by side.

* `Expr.unwrap_erase`: to look inside the wrappers and to erase them commute.
* `Value.ofExpr_erase`: an erased expression says the same about a value.
* `erasing_simulation`: a tree and its erasure are compiled side by side.
* `compile_erase`: an erased module compiles to the same.
-/

namespace StyleCompiler

/-! ## Reading expressions -/

/-- To look inside the wrappers and to erase them commute. -/
theorem Expr.unwrap_erase (e : Expr) : e.erase.unwrap = e.unwrap.erase := by
  fun_induction Expr.unwrap e with
  | case1 _ _ ih => exact ih
  | case2 e h =>
    cases e with
    | wrapped wrapper inner => exact absurd rfl (h wrapper inner)
    | _ => rfl

theorem Expr.literal?_erase (e : Expr) : e.erase.literal? = e.literal? := by
  unfold Expr.literal?
  rw [e.unwrap_erase]
  cases h : e.unwrap with
  | wrapped wrapper inner => exact absurd h (e.unwrap_ne_wrapped wrapper inner)
  | _ => rfl

theorem Segment.text?_erase (s : Segment) : s.erase.text? = s.text? := by
  cases s with
  | index i => exact i.literal?_erase
  | name _ | hidden _ => rfl

theorem Expr.chain?_erase (e : Expr) : e.erase.chain? = e.chain? := by
  fun_induction Expr.chain? e with
  | case1 name => rfl
  | case2 _ inner ih => exact ih
  | case3 base segment ih =>
    simp only [Expr.erase, Expr.chain?, ih, segment.text?_erase]
  | case4 e hident hwrapped hmember =>
    cases e with
    | ident name => exact absurd rfl (hident name)
    | wrapped wrapper inner => exact absurd rfl (hwrapped wrapper inner)
    | member base segment => exact absurd rfl (hmember base segment)
    | _ => rfl

theorem Part.ofExpr?_erase (e : Expr) : Part.ofExpr? e.erase = Part.ofExpr? e := by
  unfold Part.ofExpr?
  rw [e.unwrap_erase]
  cases h : e.unwrap with
  | wrapped wrapper inner => exact absurd h (e.unwrap_ne_wrapped wrapper inner)
  | member base segment =>
    exact congrArg (Option.map Part.reference) (Expr.chain?_erase (.member base segment))
  | _ => rfl

theorem templateParts?_erase (qs : List Quasi) (es : List Expr) :
    templateParts? qs (es.map Expr.erase) = templateParts? qs es := by
  induction qs generalizing es with
  | nil => rfl
  | cons q qs ih =>
    cases es with
    | nil => rfl
    | cons e es => simp only [List.map_cons, templateParts?, Part.ofExpr?_erase, ih]

/-! ## Values -/

/-- The value with the wrappers inside its object literal removed. -/
def Value.erase : Value → Value
  | .object properties => .object (properties.map Property.erase)
  | v => v

theorem Value.ofTemplate_erase (qs : List Quasi) (es : List Expr) :
    Value.ofTemplate qs (es.map Expr.erase) = (Value.ofTemplate qs es).erase := by
  unfold Value.ofTemplate
  rw [List.isEmpty_map, templateParts?_erase]
  split
  · rfl
  · split <;> rfl

/-- **An erased expression says the same about a value.** -/
theorem Value.ofExpr_erase (e : Expr) : Value.ofExpr e.erase = (Value.ofExpr e).erase := by
  unfold Value.ofExpr
  rw [e.unwrap_erase]
  cases h : e.unwrap with
  | wrapped wrapper inner => exact absurd h (e.unwrap_ne_wrapped wrapper inner)
  | object properties => simp only [Expr.erase, Value.erase, eraseProperties_eq_map]
  | unary op operand =>
    cases op with
    | minus =>
      simp only [Expr.erase, operand.unwrap_erase]
      cases h : operand.unwrap with
      | wrapped wrapper inner => exact absurd h (operand.unwrap_ne_wrapped wrapper inner)
      | _ => rfl
    | _ => rfl
  | member base segment =>
    have hchain := Expr.chain?_erase (.member base segment)
    simp only [Expr.erase] at hchain
    simp only [Expr.erase, hchain]
    split <;> rfl
  | template qs es =>
    simp only [Expr.erase, eraseExprs_eq_map]
    exact Value.ofTemplate_erase qs es
  | _ => rfl

@[simp]
theorem Value.resolve_erase (r : Registry) (property : String) (v : Value) :
    v.erase.resolve r property = v.resolve r property := by
  cases v <;> rfl

/-! ## Side by side -/

/-- The second expression is the first without its wrappers. -/
def Expr.Erases (e e' : Expr) : Prop := e' = e.erase

theorem Key.text?_erase (k : Key) : k.erase.text? = k.text? := by
  cases k <;> rfl

/-- The entry of an erased property is its erased entry. -/
theorem Property.entry_erase (p : Property) :
    p.erase.entry = p.entry.map fun entry => (entry.1, entry.2.erase) := by
  cases p with
  | keyValue key value =>
    simp only [Property.erase, Property.entry, key.text?_erase]
    cases key.text? <;> rfl
  | shorthand _ | assign _ _ | getter _ | setter _ _ | method _ | spread _ => rfl

theorem Property.alike_erase (p : Property) : Property.Alike Expr.Erases p p.erase := by
  have herase := p.entry_erase
  cases h : p.entry with
  | ok entry =>
    rw [h] at herase
    exact .entry h herase rfl
  | error fault =>
    rw [h] at herase
    exact .fault h herase

theorem properties_alike_erase (ps : List Property) :
    List.Forall₂ (Property.Alike Expr.Erases) ps (ps.map Property.erase) := by
  rw [List.forall₂_map_right_iff, List.forall₂_same]
  exact fun p _ => p.alike_erase

/-- **A tree and its erasure are compiled side by side.** -/
theorem erasing_simulation : Simulation Expr.Erases Eq where
  read := by
    rintro e _ rfl
    have herase := Value.ofExpr_erase e
    cases h : Value.ofExpr e with
    | object ps =>
      rw [h] at herase
      exact .object h herase (properties_alike_erase ps)
    | text _ | number _ | null | reference _ | template _ | unsupported =>
      refine .text (by simp [h]) (by simp [herase, h, Value.erase]) ?_
      rintro r _ rfl property
      rw [herase, Value.resolve_erase]
  enter := by
    rintro r _ rfl kind path text
    rfl

/-! ## Calls -/

/-- An expression serves alike as an argument with its wrappers and without. -/
theorem Expr.sameForm_erase (e : Expr) : Expr.SameForm Expr.Erases e.unwrap e.erase.unwrap := by
  rw [e.unwrap_erase]
  cases h : e.unwrap with
  | wrapped wrapper inner => exact absurd h (e.unwrap_ne_wrapped wrapper inner)
  | object ps =>
    rw [Expr.erase, eraseProperties_eq_map]
    exact ⟨.some (properties_alike_erase ps), rfl⟩
  | _ => exact ⟨.none, rfl⟩

/-- The call with the wrappers in its arguments removed. -/
def Call.erase (c : Call) : Call := { c with args := c.args.map Arg.erase }

/-- A call and its erasure are alike. -/
theorem Call.alike_erase (c : Call) : Call.Alike Expr.Erases id c c.erase := by
  refine .ofArgs rfl rfl ?_
  show List.Forall₂ _ c.args (c.args.map Arg.erase)
  rw [List.forall₂_map_right_iff, List.forall₂_same]
  intro a _
  cases a with
  | plain e => exact .plain e.sameForm_erase
  | spread e => exact .spread e.sameForm_erase

/-! ## Modules -/

theorem Callee.name?_erase (c : Callee) : c.erase.name? = c.name? := by
  cases c with
  | expr e =>
    simp only [Callee.erase, Callee.name?, e.unwrap_erase]
    cases h : e.unwrap with
    | wrapped wrapper inner => exact absurd h (e.unwrap_ne_wrapped wrapper inner)
    | _ => rfl
  | super | importModule => rfl

theorem Declarator.call?_erase (d : Declarator) : d.erase.call? = d.call?.map Call.erase := by
  obtain ⟨pattern, init⟩ := d
  cases pattern with
  | destructuring names => rfl
  | name name =>
    cases init with
    | none => rfl
    | some e =>
      simp only [Declarator.erase, Declarator.call?, Option.map_some, e.unwrap_erase]
      cases h : e.unwrap with
      | wrapped wrapper inner => exact absurd h (e.unwrap_ne_wrapped wrapper inner)
      | call callee args =>
        simp only [Expr.erase, callee.name?_erase, eraseArgs_eq_map]
        cases callee.name? with
        | none => rfl
        | some function =>
          simp only [Option.bind_eq_bind, Option.bind_some]
          cases Kind.ofCallee? function <;> rfl
      | _ => rfl

theorem Item.declarators_erase (i : Item) :
    i.erase.declarators = i.declarators.map Declarator.erase := by
  cases i with
  | stmt s | exported s => cases s <;> rfl
  | exportDefault _ | other => rfl

/-- The calls of an erased module are the erased calls of the module. -/
theorem Module.calls_erase (m : Module) : m.erase.calls = m.calls.map Call.erase := by
  unfold Module.calls Module.erase
  rw [List.flatMap_map, List.map_filterMap]
  simp only [Item.declarators_erase, ← List.map_flatMap, List.filterMap_map, Function.comp_def,
    Declarator.call?_erase]

/-- **Wrappers never matter.** The module without wrappers compiles to the same text, the same
declarations and the same diagnostics as the module, whatever the options are. -/
theorem compile_erase (options : Options) (m : Module) :
    m.erase.bare = true ∧ compile options m.erase = compile options m := by
  refine ⟨m.bare_erase, erasing_simulation.compile_eq options ?_⟩
  rw [m.calls_erase, List.forall₂_map_right_iff, List.forall₂_same]
  exact fun c _ => c.alike_erase

end StyleCompiler
