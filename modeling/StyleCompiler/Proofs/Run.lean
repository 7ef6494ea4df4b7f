import StyleCompiler.Proofs.Call

/-!
# Runs of calls

A run compiles calls one after the other, each from the registry that the one before left. This
file ties together the three views of a run: the registry it leaves (`registryAfter`), its steps
(`runCalls`) and the compiled module.

* `getElem?_runCalls`: the `i`-th step is the `i`-th call compiled after those before it.
* `compile_declarations`, `compile_diagnostics`: a compiled module, read off its steps. The
  declarations are the values of the map in which each step's declaration was written under its
  name, and the diagnostics are those of the steps.
-/

namespace StyleCompiler

/-- The registry that calls leave when they are compiled in order from `r`. -/
def registryAfter (r : Registry) (calls : List Call) : Registry :=
  calls.foldl (fun r c => (c.run r).registry) r

@[simp]
theorem registryAfter_nil (r : Registry) : registryAfter r [] = r := rfl

@[simp]
theorem registryAfter_cons (r : Registry) (c : Call) (calls : List Call) :
    registryAfter r (c :: calls) = registryAfter (c.run r).registry calls := rfl

theorem runCalls_append (r : Registry) (before after : List Call) :
    runCalls r (before ++ after) =
      runCalls r before ++ runCalls (registryAfter r before) after := by
  induction before generalizing r with
  | nil => rfl
  | cons c before ih => simp only [List.cons_append, runCalls, registryAfter_cons, ih]

@[simp]
theorem length_runCalls (r : Registry) (calls : List Call) :
    (runCalls r calls).length = calls.length := by
  induction calls generalizing r with
  | nil => rfl
  | cons c calls ih => simp only [runCalls, List.length_cons, ih]

/-- The `i`-th step is the `i`-th call, compiled from the registry that those before it left. -/
theorem getElem?_runCalls (r : Registry) (calls : List Call) (i : Nat) :
    (runCalls r calls)[i]? = calls[i]?.map fun c => c.run (registryAfter r (calls.take i)) := by
  induction calls generalizing r i with
  | nil => rfl
  | cons c calls ih =>
    cases i with
    | zero => rfl
    | succ i =>
      simp only [runCalls, List.getElem?_cons_succ, ih, List.take_succ_cons, registryAfter_cons]

/-- The names bound after a run are those of its contracts. -/
theorem isBinding_registryAfter (r : Registry) (calls : List Call) (name : String) :
    (registryAfter r calls).isBinding name = true ↔
      r.isBinding name = true ∨ ∃ c ∈ calls, c.kind = .themeContract ∧ c.name = name := by
  induction calls generalizing r with
  | nil => simp
  | cons c calls ih =>
    rw [registryAfter_cons, ih, c.isBinding_run, or_assoc]
    simp only [List.mem_cons, or_and_right, exists_or, exists_eq_left]

/-- What a step shows: its declaration and its diagnostics. -/
def Step.output (st : Step) : Declaration × List Diagnostic := (st.declaration, st.diagnostics)

/-! ## Compiled modules -/

/-- A compilation that has gone through further calls: their steps are what it gained. -/
theorem foldl_advance (s : Session) (calls : List Call) :
    calls.foldl Session.advance s =
      { registry := registryAfter s.registry calls
        sheet := ((runCalls s.registry calls).map Step.declaration).foldl Stylesheet.push s.sheet
        diagnostics := s.diagnostics ++ (runCalls s.registry calls).flatMap Step.diagnostics } := by
  induction calls generalizing s with
  | nil => simp [runCalls]
  | cons c calls ih =>
    rw [List.foldl_cons, ih]
    simp only [Session.advance, runCalls, registryAfter_cons, List.map_cons, List.foldl_cons,
      List.flatMap_cons, List.append_assoc]

/-- The stylesheet of declarations pushed in order. -/
theorem foldl_push_byName (s : Stylesheet) (ds : List Declaration) :
    (ds.foldl Stylesheet.push s).byName =
      (ds.map fun d => (d.name, d)).foldl (fun m p => m.insert p.1 p.2) s.byName := by
  induction ds generalizing s with
  | nil => rfl
  | cons d ds ih => exact ih (s.push d)

/-- Declarations by name, a later one in the place of an earlier one of its name. -/
def byName (ds : List Declaration) : OrderedMap Declaration :=
  OrderedMap.ofList (ds.map fun d => (d.name, d))

/-- The declarations of a compiled module: those of its steps, the last of each name. -/
theorem compile_declarations (options : Options) (m : Module) :
    (compile options m).declarations = (byName (m.steps.map Step.declaration)).values := by
  show (m.calls.foldl Session.advance {}).sheet.byName.values = _
  rw [foldl_advance, foldl_push_byName]
  rfl

/-- The text of a compiled module is that of its declarations. -/
theorem compile_css (options : Options) (m : Module) :
    (compile options m).css =
      renderDeclarations options.indent (compile options m).declarations := rfl

/-- The diagnostics of a compiled module are those of its steps in order. -/
theorem compile_diagnostics (options : Options) (m : Module) :
    (compile options m).diagnostics = m.steps.flatMap Step.diagnostics := by
  show (m.calls.foldl Session.advance {}).diagnostics = _
  rw [foldl_advance]
  rfl

/-! ## A small module -/

namespace Sample

/-- The declarator `name = callee(args)`. -/
def declarator (name : String) (kind : Kind) (args : List Arg) : Declarator :=
  ⟨.name name, some (.call (.expr (.ident kind.callee)) args)⟩

/-- The entry `key: value`. -/
def entry (key : String) (value : Expr) : Property := .keyValue (.ident key) value

/-- The reference `vars.key`. -/
def varsDot (key : String) : Expr := .member (.ident "vars") (.name key)

/-- `vars = createThemeContract({ color: "", accent: vars.color })`. -/
def contract : Call :=
  ⟨"vars", .themeContract,
    [.plain (.object [entry "color" (.str (some "")), entry "accent" (varsDot "color")])]⟩

/-- `dark = createTheme(vars, { color: "red" })`. -/
def theme : Call :=
  ⟨"dark", .themeInstance,
    [.plain (.ident "vars"), .plain (.object [entry "color" (.str (some "red"))])]⟩

/-- `card = style({ color: vars.accent, margin: vars.missing })`. -/
def card : Call :=
  ⟨"card", .style,
    [.plain (.object [entry "color" (varsDot "accent"), entry "margin" (varsDot "missing")])]⟩

/-- The module that declares the contract, the theme and the style. -/
def source : Module :=
  ⟨[contract, theme, card].map fun c => .exported (.vars .const [declarator c.name c.kind c.args])⟩

end Sample

end StyleCompiler
