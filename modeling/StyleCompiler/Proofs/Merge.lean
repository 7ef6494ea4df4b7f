import StyleCompiler.Proofs.Run

/-!
# The stylesheet as a merge of steps

Each recognised binding of a module is compiled to a declaration, in order and with one registry
for all. The stylesheet merges these declarations: of those with one name the last counts, and it
stands where the first of them stood. Diagnostics are not merged.

* `Recognised`: the calls that the items of a module make, said rule by rule.
* `recognised_iff`: the compiler finds these calls and no others, in this order.
* `names_byName`, `last_of_mem_byName`: the names and the declarations of a merge.
* `compile_merges_steps`: a compiled module is the merge of its steps.
-/

namespace StyleCompiler

/-! ## Recognised bindings -/

/-- The declarator binds a plain name to what is, inside its wrappers, a call of the function that
makes the kind. -/
structure Declarator.Binds (d : Declarator) (c : Call) : Prop where
  pattern : d.pattern = .name c.name
  init : ∃ e function, d.init = some e ∧ e.unwrap = .call (.expr function) c.args ∧
    function.unwrap = .ident c.kind.callee

/-- The calls that declarators make, in order. -/
inductive Makes : List Declarator → List Call → Prop
  | nil : Makes [] []
  | binding {d ds c cs} : d.Binds c → Makes ds cs → Makes (d :: ds) (c :: cs)
  | pass {d ds cs} : (∀ c, ¬ d.Binds c) → Makes ds cs → Makes (d :: ds) cs

/-- The calls that items make, in order: those of the variables that an item declares, exported or
not. No other item makes a call, whatever stands inside it. -/
inductive Recognised : List Item → List Call → Prop
  | nil : Recognised [] []
  | plain {kind ds items cs cs'} : Makes ds cs → Recognised items cs' →
      Recognised (.stmt (.vars kind ds) :: items) (cs ++ cs')
  | exported {kind ds items cs cs'} : Makes ds cs → Recognised items cs' →
      Recognised (.exported (.vars kind ds) :: items) (cs ++ cs')
  | pass {i items cs} : (∀ kind ds, i ≠ .stmt (.vars kind ds)) →
      (∀ kind ds, i ≠ .exported (.vars kind ds)) → Recognised items cs →
      Recognised (i :: items) cs

theorem Kind.ofCallee?_eq_some {name : String} {kind : Kind} :
    Kind.ofCallee? name = some kind ↔ name = kind.callee := by
  constructor
  · intro h
    unfold Kind.ofCallee? at h
    split_ifs at h with hstyle hcontract htheme
    · obtain rfl := Option.some.inj h
      exact hstyle
    · obtain rfl := Option.some.inj h
      exact hcontract
    · obtain rfl := Option.some.inj h
      exact htheme
  · rintro rfl
    exact Kind.ofCallee?_callee kind

theorem Callee.name?_eq_some {callee : Callee} {name : String} :
    callee.name? = some name ↔
      ∃ function, callee = .expr function ∧ function.unwrap = .ident name := by
  cases callee with
  | expr e =>
    simp only [Callee.name?]
    constructor
    · intro h
      split at h
      · rename_i name' he
        obtain rfl := Option.some.inj h
        exact ⟨e, rfl, he⟩
      · cases h
    · rintro ⟨function, hfunction, hname⟩
      obtain rfl := Callee.expr.inj hfunction
      rw [hname]
  | super | importModule => simp [Callee.name?]

/-- A declarator makes a call iff it binds it. -/
theorem Declarator.call?_iff_binds {d : Declarator} {c : Call} : d.call? = some c ↔ d.Binds c := by
  rw [Declarator.call?_eq_some]
  constructor
  · rintro ⟨hname, e, callee, hinit, he, hkind⟩
    obtain ⟨name, hcallee, hof⟩ := Option.bind_eq_some_iff.mp hkind
    obtain ⟨function, rfl, hfunction⟩ := Callee.name?_eq_some.mp hcallee
    rw [Kind.ofCallee?_eq_some.mp hof] at hfunction
    exact ⟨hname, e, function, hinit, he, hfunction⟩
  · rintro ⟨hname, e, function, hinit, he, hfunction⟩
    refine ⟨hname, e, .expr function, hinit, he,
      Option.bind_eq_some_iff.mpr ⟨c.kind.callee, ?_, ?_⟩⟩
    · exact Callee.name?_eq_some.mpr ⟨function, rfl, hfunction⟩
    · exact Kind.ofCallee?_callee c.kind

theorem makes_iff {ds : List Declarator} {cs : List Call} :
    Makes ds cs ↔ cs = ds.filterMap Declarator.call? := by
  constructor
  · intro h
    induction h with
    | nil => rfl
    | binding hd _ ih => rw [List.filterMap_cons_some (Declarator.call?_iff_binds.mpr hd), ih]
    | pass hd _ ih =>
      have hnone := Option.eq_none_iff_forall_ne_some.mpr
        fun c hc => hd c (Declarator.call?_iff_binds.mp hc)
      rw [List.filterMap_cons_none hnone, ih]
  · rintro rfl
    induction ds with
    | nil => exact Makes.nil
    | cons d ds ih =>
      cases hd : d.call? with
      | some c =>
        rw [List.filterMap_cons_some hd]
        exact Makes.binding (Declarator.call?_iff_binds.mp hd) ih
      | none =>
        rw [List.filterMap_cons_none hd]
        refine Makes.pass (fun c hc => ?_) ih
        rw [Declarator.call?_iff_binds.mpr hc] at hd
        cases hd

/-- **The compiler finds the recognised calls**, in order, and no others. -/
theorem recognised_iff {items : List Item} {cs : List Call} :
    Recognised items cs ↔ cs = (Module.mk items).calls := by
  unfold Module.calls
  constructor
  · intro h
    induction h with
    | nil => rfl
    | plain hds _ ih | exported hds _ ih =>
      rw [List.flatMap_cons, List.filterMap_append, ← ih]
      exact congrArg (· ++ _) (makes_iff.mp hds)
    | @pass i items cs hplain hexported _ ih =>
      have hnone : i.declarators = [] := by
        unfold Item.declarators
        split
        · exact absurd rfl (hplain _ _)
        · exact absurd rfl (hexported _ _)
        · rfl
      rw [List.flatMap_cons, hnone, List.nil_append, ih]
  · rintro rfl
    induction items with
    | nil => exact Recognised.nil
    | cons i items ih =>
      simp only [List.flatMap_cons, List.filterMap_append]
      fun_cases Item.declarators i with
      | case1 kind ds => exact Recognised.plain (makes_iff.mpr rfl) ih
      | case2 kind ds => exact Recognised.exported (makes_iff.mpr rfl) ih
      | case3 i hplain hexported =>
        exact Recognised.pass (fun kind ds h => hplain kind ds h)
          (fun kind ds h => hexported kind ds h) ih

/-! ## Merging -/

/-- **A declaration of a merge** stands under its name and is the last one of that name. -/
theorem last_of_mem_byName {ds : List Declaration} {name : String} {d : Declaration}
    (h : (name, d) ∈ (byName ds).entries) :
    d.name = name ∧ ∃ before after, ds = before ++ d :: after ∧ ∀ e ∈ after, e.name ≠ name := by
  have hget : (ds.filter fun e => e.name = name).getLast? = some d := by
    have hlast := OrderedMap.get?_of_mem h
    unfold byName at hlast
    rw [OrderedMap.get?_ofList, List.filter_map, List.getLast?_map, Option.map_map] at hlast
    simpa [Function.comp_def] using hlast
  rw [← List.head?_reverse, ← List.filter_reverse, List.head?_filter,
    List.find?_eq_some_iff_append] at hget
  obtain ⟨hname, after, before, hsplit, hafter⟩ := hget
  refine ⟨by simpa using hname, before.reverse, after.reverse, ?_, fun e he => ?_⟩
  · rw [← List.reverse_reverse ds, hsplit]
    simp
  · simpa using hafter e (List.mem_reverse.mp he)

theorem names_byName_eq_keys (ds : List Declaration) :
    (byName ds).values.map Declaration.name = (byName ds).keys := by
  unfold OrderedMap.values OrderedMap.keys
  rw [List.map_map]
  exact List.map_congr_left fun e he => (last_of_mem_byName he).1

/-- **The names of a merge** are the distinct names of the declarations, in order of first
occurrence. -/
theorem names_byName (ds : List Declaration) :
    (byName ds).values.map Declaration.name = (ds.map Declaration.name).eraseDups := by
  rw [names_byName_eq_keys, byName, OrderedMap.keys_ofList, List.map_map]
  rfl

/-- **A compiled module is the merge of its steps.** The calls compiled are the recognised ones in
order, each from the registry that those before it left. The declarations have the distinct names
of the steps' declarations in order of first occurrence, and each is the last one of its name. The
diagnostics are those of all steps in order, and the text is that of the declarations. -/
theorem compile_merges_steps (options : Options) (m : Module) :
    (∀ calls, Recognised m.items calls ↔ calls = m.calls) ∧
      (∀ i : Nat, m.steps[i]? =
        m.calls[i]?.map fun c => c.run (registryAfter {} (m.calls.take i))) ∧
      (compile options m).declarations.map Declaration.name =
        ((m.steps.map Step.declaration).map Declaration.name).eraseDups ∧
      ((compile options m).declarations.map Declaration.name).Nodup ∧
      (∀ d ∈ (compile options m).declarations, ∃ before after,
        m.steps.map Step.declaration = before ++ d :: after ∧ ∀ e ∈ after, e.name ≠ d.name) ∧
      (compile options m).diagnostics = m.steps.flatMap Step.diagnostics ∧
      (compile options m).css =
        renderDeclarations options.indent (compile options m).declarations := by
  refine ⟨fun calls => recognised_iff, getElem?_runCalls {} m.calls, ?_, ?_, fun d hd => ?_,
    compile_diagnostics options m, compile_css options m⟩
  · rw [compile_declarations, names_byName]
  · rw [compile_declarations, names_byName_eq_keys]
    exact (byName (m.steps.map Step.declaration)).nodup
  · rw [compile_declarations] at hd
    obtain ⟨⟨name, d⟩, hmem, rfl⟩ := List.mem_map.mp hd
    obtain ⟨hname, hsplit⟩ := last_of_mem_byName hmem
    rw [← hname] at hsplit
    exact hsplit

end StyleCompiler
