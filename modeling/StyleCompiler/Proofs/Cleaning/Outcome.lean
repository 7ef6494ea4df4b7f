import StyleCompiler.Proofs.Cleaning.Pass

/-!
# What cleaning changes

A cleaned module compiles to what the module compiles to, less the warnings; and there was one
warning for each entry that cleaning deleted or replaced. Errors are about rejected calls, which
cleaning leaves alone.

* `Call.clean_run`: a cleaned call makes the same step, without the warnings.
* `runCalls_clean`: the same for the calls of a run, each cleaned with the registry before it.
* `Module.calls_clean`: the calls of a cleaned module are the cleaned calls of the module.
* `compile_clean`: the compiled modules.
-/

namespace StyleCompiler

/-! ## Warnings and errors -/

/-- The reports that are warnings. -/
def warnings (ds : List Diagnostic) : List Diagnostic := ds.filter fun d => d.level = .warning

/-- The reports that are errors. -/
def errors (ds : List Diagnostic) : List Diagnostic := ds.filter fun d => d.level = .error

/-- All reports are warnings. -/
def OnlyWarnings (ds : List Diagnostic) : Prop := ∀ d ∈ ds, d.level = .warning

theorem warnings_append (ds ds' : List Diagnostic) :
    warnings (ds ++ ds') = warnings ds ++ warnings ds' := List.filter_append ..

theorem errors_append (ds ds' : List Diagnostic) :
    errors (ds ++ ds') = errors ds ++ errors ds' := List.filter_append ..

namespace OnlyWarnings

variable {ds ds' : List Diagnostic}

theorem warnings_eq (h : OnlyWarnings ds) : warnings ds = ds :=
  List.filter_eq_self.mpr fun d hd => by simp [h d hd]

theorem errors_eq (h : OnlyWarnings ds) : errors ds = [] :=
  List.filter_eq_nil_iff.mpr fun d hd => by simp [h d hd]

theorem append (h : OnlyWarnings ds) (h' : OnlyWarnings ds') : OnlyWarnings (ds ++ ds') := by
  intro d hd
  rcases List.mem_append.mp hd with hd | hd
  · exact h d hd
  · exact h' d hd

theorem flatMap {α : Type} {f : α → List Diagnostic} (h : ∀ a, OnlyWarnings (f a)) (as : List α) :
    OnlyWarnings (as.flatMap f) := by
  intro d hd
  obtain ⟨a, -, hd⟩ := List.mem_flatMap.mp hd
  exact h a d hd

theorem singleton {d : Diagnostic} (h : d.level = .warning) : OnlyWarnings [d] := by
  intro d' hd
  rw [List.mem_singleton.mp hd, h]

end OnlyWarnings

theorem onlyWarnings_faults (name : String) (properties : List Property) :
    OnlyWarnings (faults name properties) := by
  intro d hd
  obtain ⟨p, -, hd⟩ := List.mem_filterMap.mp hd
  obtain ⟨fault, -, rfl⟩ := Option.map_eq_some_iff.mp hd
  rfl

theorem onlyWarnings_ruleReports (r : Registry) (name : String) (entry : String × Expr) :
    OnlyWarnings (ruleReports r name entry) := by
  unfold ruleReports ruleOf
  split
  · exact List.forall_mem_nil _
  · exact .singleton rfl

theorem onlyWarnings_groupReports (r : Registry) (name : String) (entry : String × Expr) :
    OnlyWarnings (groupReports r name entry) := by
  unfold groupReports
  split
  · exact (onlyWarnings_faults name _).append (.flatMap (onlyWarnings_ruleReports r name) _)
  · exact .singleton rfl

theorem onlyWarnings_styleEntryReports (r : Registry) (name : String) (entry : String × Expr) :
    OnlyWarnings (styleEntryReports r name entry) := by
  unfold styleEntryReports groupsReports
  split
  · split
    · exact (onlyWarnings_faults name _).append (.flatMap (onlyWarnings_groupReports r name) _)
    · exact .singleton rfl
  · exact onlyWarnings_ruleReports r name entry

/-- All reports on the object literal of a style are warnings. -/
theorem onlyWarnings_styleReports (r : Registry) (name : String) (properties : List Property) :
    OnlyWarnings (styleReports r name properties) :=
  (onlyWarnings_faults name properties).append (.flatMap (onlyWarnings_styleEntryReports r name) _)

/-- Going through leaves adds warnings only. -/
theorem onlyWarnings_runTheme (kind : Kind) (name : String) (r : Registry)
    (es : List ThemeEntry) (h : ∀ d, .report d ∈ es → d.level = .warning) :
    OnlyWarnings (runTheme kind name r es).diagnostics := by
  induction es generalizing r with
  | nil => exact List.forall_mem_nil _
  | cons e es ih =>
    have hes : ∀ d, .report d ∈ es → d.level = .warning :=
      fun d hd => h d (List.mem_cons_of_mem _ hd)
    cases e with
    | report d => exact List.forall_mem_cons.mpr ⟨h d List.mem_cons_self, ih r hes⟩
    | leaf path property value =>
      unfold runTheme
      split
      · exact ih _ hes
      · exact List.forall_mem_cons.mpr ⟨rfl, ih r hes⟩

theorem level_of_report_mem_themeEntries {name : String} {properties : List Property}
    {d : Diagnostic} (h : .report d ∈ themeEntries name properties) : d.level = .warning := by
  have hfaults : ∀ ps, ThemeEntry.report d ∈ (faults name ps).map .report → d.level = .warning := by
    intro ps hd
    obtain ⟨d', hd', heq⟩ := List.mem_map.mp hd
    obtain rfl := ThemeEntry.report.inj heq
    exact onlyWarnings_faults name ps d' hd'
  rcases List.mem_append.mp h with h | h
  · exact hfaults properties h
  · obtain ⟨entry, -, h⟩ := List.mem_flatMap.mp h
    unfold themeEntriesAt at h
    split at h
    · rename_i inner _
      rcases List.mem_append.mp h with h | h
      · exact hfaults inner h
      · obtain ⟨leaf, -, heq⟩ := List.mem_map.mp h
        cases heq
    · cases List.mem_singleton.mp h

/-! ## Usable calls -/

/-- Is an expression an object literal inside its wrappers? -/
def Expr.isObject (e : Expr) : Bool :=
  match e.unwrap with
  | .object _ => true
  | _ => false

theorem Expr.isObject_iff {e : Expr} :
    e.isObject = true ↔ ∃ properties, e.unwrap = .object properties := by
  unfold Expr.isObject
  cases e.unwrap <;> simp

namespace Call

/-- Has a call an argument to compile? A style needs an object literal as its first argument, a
contract or a theme one among those that are not spread. -/
def usable (c : Call) : Bool :=
  match c.kind with
  | .style => c.args.head?.any fun a => a.value.isObject
  | _ => c.args.any fun
    | .plain e => e.isObject
    | .spread _ => false

/-- The error on a call that is not usable. -/
def complaint (c : Call) : Diagnostic := .rejected c.name c.kind c.why

theorem objectOf?_eq_some {a : Arg} {properties : List Property} :
    objectOf? a = some properties ↔ ∃ e, a = .plain e ∧ e.unwrap = .object properties := by
  cases a with
  | plain e =>
    simp only [objectOf?, Arg.plain.injEq, exists_eq_left']
    split <;> simp_all
  | spread e => simp [objectOf?]

theorem usable_style {c : Call} (hk : c.kind = .style) :
    c.usable = true ↔ ∃ properties, c.firstArg? = some (.object properties) := by
  simp only [usable, hk, firstArg?, Option.any_eq_true, Option.map_eq_some_iff, Expr.isObject_iff]
  constructor
  · rintro ⟨a, ha, properties, hproperties⟩
    exact ⟨properties, a, ha, hproperties⟩
  · rintro ⟨properties, a, ha, hproperties⟩
    exact ⟨a, ha, properties, hproperties⟩

theorem usable_entries {c : Call} (hk : c.kind ≠ .style) :
    c.usable = true ↔ ∃ properties, c.objectArg? = some properties := by
  have hany : c.usable = c.args.any fun a => (objectOf? a).isSome := by
    unfold usable
    split
    · contradiction
    · refine congrArg c.args.any (funext fun a => Bool.eq_iff_iff.mpr ?_)
      rw [Option.isSome_iff_exists]
      cases a with
      | plain e =>
        simp only [Expr.isObject_iff, objectOf?_eq_some, Arg.plain.injEq, exists_eq_left']
      | spread e => simp [objectOf?]
  rw [hany, ← Option.isSome_iff_exists, objectArg?, List.any_eq_true, List.findSome?_isSome_iff]

/-- A call is usable unless it is rejected. -/
theorem usable_iff {c : Call} : c.usable = true ↔ c.form ≠ .rejected := by
  cases hf : c.form with
  | style properties =>
    obtain ⟨hk, hfirst⟩ := form_eq_style.mp hf
    simp [(usable_style hk).mpr ⟨properties, hfirst⟩]
  | entries properties =>
    obtain ⟨hk, hobject⟩ := form_eq_entries.mp hf
    simp [(usable_entries hk).mpr ⟨properties, hobject⟩]
  | rejected =>
    refine iff_of_false (fun h => ?_) (by simp)
    by_cases hk : c.kind = .style
    · obtain ⟨properties, hfirst⟩ := (usable_style hk).mp h
      cases hf.symm.trans (form_eq_style.mpr ⟨hk, hfirst⟩)
    · obtain ⟨properties, hobject⟩ := (usable_entries hk).mp h
      cases hf.symm.trans (form_eq_entries.mpr ⟨hk, hobject⟩)

/-! ## Cleaned calls -/

theorem firstArg?_withFirstArg {c : Call} {properties : List Property}
    (h : c.firstArg? = some (.object properties)) (others : List Property) :
    { c with args := withFirstArg others c.args }.firstArg? = some (.object others) := by
  obtain ⟨name, kind, args⟩ := c
  cases args with
  | nil => cases h
  | cons a args =>
    have ha : a.value.unwrap = .object properties := Option.some.inj h
    refine congrArg some ?_
    cases a with
    | plain e => exact Expr.unwrap_withProperties ha others
    | spread e => exact Expr.unwrap_withProperties ha others

theorem objectOf?_withProperties {a : Arg} {properties : List Property}
    (h : objectOf? a = some properties) (others : List Property) :
    objectOf? (a.withProperties others) = some others := by
  obtain ⟨e, rfl, he⟩ := objectOf?_eq_some.mp h
  exact objectOf?_eq_some.mpr ⟨_, rfl, Expr.unwrap_withProperties he others⟩

theorem findSome?_withObjectArg {args : List Arg} {properties : List Property}
    (h : args.findSome? objectOf? = some properties) (others : List Property) :
    (withObjectArg others args).findSome? objectOf? = some others := by
  induction args with
  | nil => cases h
  | cons a args ih =>
    unfold withObjectArg
    cases ha : objectOf? a with
    | some _ => rw [List.findSome?_cons, objectOf?_withProperties ha others]
    | none =>
      rw [List.findSome?_cons, ha] at h
      rw [List.findSome?_cons, ha]
      exact ih h

theorem form_cleanStyle {c : Call} {properties : List Property}
    (h : c.form = .style properties) (r : Registry) :
    (c.cleanStyle r properties).result.form =
      .style (sweep cleanStyleEntry keepRegistry r properties).result := by
  obtain ⟨hk, hfirst⟩ := form_eq_style.mp h
  exact form_eq_style.mpr ⟨hk, firstArg?_withFirstArg hfirst _⟩

theorem form_cleanEntries {c : Call} {properties : List Property}
    (h : c.form = .entries properties) (r : Registry) :
    (c.cleanEntries r properties).result.form =
      .entries (sweep (cleanThemeEntry c.kind c.name)
        (themeNext c.kind c.name (themeEntriesAt c.name)) r properties).result := by
  obtain ⟨hk, hobject⟩ := form_eq_entries.mp h
  exact form_eq_entries.mpr ⟨hk, findSome?_withObjectArg hobject _⟩

end Call

/-- A step that makes the same declaration and leaves the same registry as another and has its
errors but not its warnings, of which there are `n`. -/
structure Step.Cleans (s' s : Step) (n : Nat) : Prop where
  declaration : s'.declaration = s.declaration
  registry : s'.registry = s.registry
  errors : errors s'.diagnostics = errors s.diagnostics
  silent : warnings s'.diagnostics = []
  count : (warnings s.diagnostics).length = n

/-- It is enough to have no reports at all if the other step has only warnings. -/
theorem Step.Cleans.of_onlyWarnings {s' s : Step} {n : Nat}
    (hd : s'.declaration = s.declaration) (hr : s'.registry = s.registry)
    (hsilent : s'.diagnostics = []) (hs : OnlyWarnings s.diagnostics)
    (hcount : s.diagnostics.length = n) : s'.Cleans s n where
  declaration := hd
  registry := hr
  errors := by
    rw [hsilent, hs.errors_eq]
    rfl
  silent := by
    rw [hsilent]
    rfl
  count := by rw [hs.warnings_eq, hcount]

namespace Call

theorem onlyWarnings_runEntries (c : Call) (r : Registry) (properties : List Property) :
    OnlyWarnings (c.runEntries r properties).diagnostics :=
  onlyWarnings_runTheme c.kind c.name r _ fun _ => level_of_report_mem_themeEntries

/-- The errors of a step: the complaint about a call that is not usable. -/
theorem errors_run (c : Call) (r : Registry) :
    errors (c.run r).diagnostics = if c.usable = true then [] else [c.complaint] := by
  cases hf : c.form with
  | style properties =>
    rw [if_pos (usable_iff.mpr (by simp [hf])), run_of_style hf]
    exact (onlyWarnings_styleReports r c.name properties).errors_eq
  | entries properties =>
    rw [if_pos (usable_iff.mpr (by simp [hf])), run_of_entries hf]
    exact (onlyWarnings_runEntries c _ properties).errors_eq
  | rejected =>
    rw [if_neg (mt usable_iff.mp (by simp [hf])), run_of_rejected hf]
    rfl

/-- **A cleaned call makes the same step**, without the warnings. -/
theorem clean_run (c : Call) (r : Registry) :
    ((c.clean r).result.run r).Cleans (c.run r) (c.clean r).edits := by
  unfold clean
  cases hf : c.form with
  | style properties =>
    obtain ⟨hsilent, hcount⟩ := styleReports_clean r c.name properties
    rw [run_of_style hf, run_of_style (form_cleanStyle hf r)]
    exact .of_onlyWarnings (styleOf_clean r c.name properties) rfl hsilent
      (onlyWarnings_styleReports r c.name properties) hcount
  | entries properties =>
    have hrun := runTheme_clean c.kind c.name (c.start r) properties
    rw [run_of_entries hf, run_of_entries (form_cleanEntries hf (c.start r))]
    refine .of_onlyWarnings ?_ hrun.registry hrun.silent
      (onlyWarnings_runEntries c _ properties) hrun.count
    exact congrArg (fun texts => Declaration.mk c.name c.kind (themeRules texts) ∅ ∅) hrun.texts
  | rejected =>
    rw [run_of_rejected hf]
    exact ⟨rfl, rfl, rfl, rfl, rfl⟩

end Call

/-! ## Runs -/

/-- Clean calls in order, each with the registry that those before it leave. -/
def cleanCalls : Registry → List Call → Cleaned (List Call)
  | _, [] => ⟨[], 0⟩
  | r, c :: cs =>
    let rest := cleanCalls (c.run r).registry cs
    ⟨(c.clean r).result :: rest.result, (c.clean r).edits + rest.edits⟩

theorem cleanCalls_append (r : Registry) (before after : List Call) :
    cleanCalls r (before ++ after) =
      ⟨(cleanCalls r before).result ++ (cleanCalls (registryAfter r before) after).result,
        (cleanCalls r before).edits + (cleanCalls (registryAfter r before) after).edits⟩ := by
  induction before generalizing r with
  | nil => simp only [List.nil_append, cleanCalls, registryAfter_nil, Nat.zero_add]
  | cons c before ih =>
    simp only [List.cons_append, cleanCalls, registryAfter_cons, ih, Nat.add_assoc]

/-- All reports of a run in order. -/
def reportsOf (r : Registry) (calls : List Call) : List Diagnostic :=
  (runCalls r calls).flatMap Step.diagnostics

theorem reportsOf_cons (r : Registry) (c : Call) (calls : List Call) :
    reportsOf r (c :: calls) = (c.run r).diagnostics ++ reportsOf (c.run r).registry calls := rfl

/-- **A cleaned run makes the same declarations** and has the same errors but no warnings; there
was one warning for each edit. -/
theorem runCalls_clean (r : Registry) (calls : List Call) :
    (runCalls r (cleanCalls r calls).result).map Step.declaration =
        (runCalls r calls).map Step.declaration ∧
      warnings (reportsOf r (cleanCalls r calls).result) = [] ∧
      (warnings (reportsOf r calls)).length = (cleanCalls r calls).edits ∧
      errors (reportsOf r (cleanCalls r calls).result) = errors (reportsOf r calls) := by
  induction calls generalizing r with
  | nil => exact ⟨rfl, rfl, rfl, rfl⟩
  | cons c calls ih =>
    have hc := c.clean_run r
    obtain ⟨hdecls, hsilent, hcount, herrors⟩ := ih (c.run r).registry
    simp only [cleanCalls, runCalls, reportsOf_cons, hc.registry, List.map_cons,
      warnings_append, errors_append, List.length_append]
    refine ⟨?_, ?_, ?_, ?_⟩
    · rw [hc.declaration, hdecls]
    · rw [hc.silent, hsilent, List.nil_append]
    · rw [hc.count, hcount]
    · rw [hc.errors, herrors]

/-- The errors of a run are the complaints about its calls that are not usable. -/
theorem errors_reportsOf (r : Registry) (calls : List Call) :
    errors (reportsOf r calls) = (calls.filter fun c => !c.usable).map Call.complaint := by
  induction calls generalizing r with
  | nil => rfl
  | cons c calls ih =>
    rw [reportsOf_cons, errors_append, ih, c.errors_run]
    by_cases h : c.usable = true
    · simp [h]
    · simp [h]

/-! ## Modules -/

theorem Call.clean_name_kind (c : Call) (r : Registry) :
    (c.clean r).result.name = c.name ∧ (c.clean r).result.kind = c.kind := by
  unfold Call.clean
  split <;> exact ⟨rfl, rfl⟩

theorem Expr.unwrap_withArgs {e : Expr} {callee : Callee} {args : List Arg}
    (h : e.unwrap = .call callee args) (others : List Arg) :
    (e.withArgs others).unwrap = .call callee others := by
  fun_induction Expr.unwrap e with
  | case1 wrapper inner ih => exact ih h
  | case2 e _ =>
    subst h
    rfl

/-- A declarator whose call gets other arguments. -/
theorem Declarator.call?_withArgs {d : Declarator} {c : Call} (h : d.call? = some c)
    (others : List Arg) :
    { d with init := d.init.map (Expr.withArgs others) }.call? =
      some { c with args := others } := by
  obtain ⟨hname, e, callee, hinit, he, hkind⟩ := Declarator.call?_eq_some.mp h
  refine Declarator.call?_eq_some.mpr
    ⟨hname, e.withArgs others, callee, ?_, Expr.unwrap_withArgs he others, hkind⟩
  rw [hinit, Option.map_some]

/-- The calls of cleaned declarators are the cleaned calls of the declarators. -/
theorem calls_cleanDeclarators (r : Registry) (ds : List Declarator) :
    (cleanDeclarators r ds).result.filterMap Declarator.call? =
        (cleanCalls r (ds.filterMap Declarator.call?)).result ∧
      (cleanDeclarators r ds).edits = (cleanCalls r (ds.filterMap Declarator.call?)).edits := by
  induction ds generalizing r with
  | nil => exact ⟨rfl, rfl⟩
  | cons d ds ih =>
    cases hd : d.call? with
    | none =>
      obtain ⟨hcalls, hedits⟩ := ih r
      simp only [cleanDeclarators, hd, List.filterMap_cons, hcalls, hedits, and_self]
    | some c =>
      obtain ⟨hcalls, hedits⟩ := ih (c.run r).registry
      obtain ⟨hname, hkind⟩ := c.clean_name_kind r
      have hc : { c with args := (c.clean r).result.args } = (c.clean r).result := by
        rw [← hname, ← hkind]
      have hd' := (Declarator.call?_withArgs hd (c.clean r).result.args).trans (congrArg some hc)
      simp only [cleanDeclarators, hd, List.filterMap_cons, hd', cleanCalls, hcalls, hedits,
        and_self]

/-- An item with other declarators declares them, if it declares any. -/
theorem Item.declarators_withDeclarators {i : Item} {ds : List Declarator}
    (h : i.declarators = [] → ds = []) : (i.withDeclarators ds).declarators = ds := by
  cases i with
  | stmt s | exported s =>
    cases s with
    | vars kind _ => rfl
    | _ => exact (h rfl).symm
  | _ => exact (h rfl).symm

/-- The calls of cleaned items are the cleaned calls of the items. -/
theorem calls_cleanItems (r : Registry) (items : List Item) :
    ((cleanItems r items).result.flatMap Item.declarators).filterMap Declarator.call? =
        (cleanCalls r ((items.flatMap Item.declarators).filterMap Declarator.call?)).result ∧
      (cleanItems r items).edits =
        (cleanCalls r ((items.flatMap Item.declarators).filterMap Declarator.call?)).edits := by
  induction items generalizing r with
  | nil => exact ⟨rfl, rfl⟩
  | cons i items ih =>
    obtain ⟨hcalls, hedits⟩ := ih (registryAfter r (i.declarators.filterMap Declarator.call?))
    obtain ⟨hcalls', hedits'⟩ := calls_cleanDeclarators r i.declarators
    have hnone : i.declarators = [] → (cleanDeclarators r i.declarators).result = [] := by
      intro h
      rw [h]
      rfl
    simp only [cleanItems, List.flatMap_cons, Item.declarators_withDeclarators hnone,
      List.filterMap_append, cleanCalls_append, hcalls, hcalls', hedits, hedits', and_self]

/-- **The calls of a cleaned module are the cleaned calls of the module.** -/
theorem Module.calls_clean (m : Module) :
    m.clean.result.calls = (cleanCalls {} m.calls).result ∧
      m.clean.edits = (cleanCalls {} m.calls).edits := calls_cleanItems {} m.items

/-- **What is left out has no effect and is reported once.** A cleaned module compiles to the same
text and declarations and has no warnings, and the module has one warning for each entry that
cleaning deletes or replaces. The errors of both are the same, one for each call that is not
usable. -/
theorem compile_clean (options : Options) (m : Module) :
    (compile options m.clean.result).css = (compile options m).css ∧
      (compile options m.clean.result).declarations = (compile options m).declarations ∧
      warnings (compile options m.clean.result).diagnostics = [] ∧
      (warnings (compile options m).diagnostics).length = m.clean.edits ∧
      errors (compile options m.clean.result).diagnostics =
        errors (compile options m).diagnostics ∧
      errors (compile options m).diagnostics =
        (m.calls.filter fun c => !c.usable).map Call.complaint := by
  obtain ⟨hcalls, hedits⟩ := m.calls_clean
  obtain ⟨hsteps, hsilent, hcount, herrors⟩ := runCalls_clean {} m.calls
  have hdecls : (compile options m.clean.result).declarations =
      (compile options m).declarations := by
    rw [compile_declarations, compile_declarations]
    unfold Module.steps
    rw [hcalls, hsteps]
  refine ⟨by rw [compile_css, compile_css, hdecls], hdecls, ?_, ?_, ?_, ?_⟩
  · rw [compile_diagnostics, Module.steps, hcalls]
    exact hsilent
  · rw [compile_diagnostics, hedits]
    exact hcount
  · rw [compile_diagnostics, compile_diagnostics, Module.steps, hcalls]
    exact herrors
  · rw [compile_diagnostics]
    exact errors_reportsOf {} m.calls

-- the style of the sample module refers to a variable that no contract declares
example : Sample.source.clean.edits = 1 := by decide

end StyleCompiler
