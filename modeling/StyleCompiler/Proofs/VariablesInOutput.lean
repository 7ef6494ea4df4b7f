import StyleCompiler.Proofs.History

/-!
# Every variable that is referred to is in the output

A reference resolves to `var(--x)`. Three structures then have to agree for `--x` to be set
anywhere: the registry that resolved it, the rules that the contract wrote beside the registry,
and the stylesheet, in which a later declaration takes the place of an earlier one of its name.

* `Call.rules_contains_of_leaf`: a contract has a rule for every leaf that it declared.
* `byName_get?_of_last`: the stylesheet keeps a declaration whose name does not come again.
* `resolved_variable_in_output`: in a module whose later calls do not reuse the name of a
  contract, every variable that a reference resolved to is set by a contract of the output.
-/

namespace StyleCompiler

/-! ## What a call declares is in its rules -/

/-- The custom property of every path entered is among the rules of a contract or a theme. -/
theorem themeRules_contains {texts : List (String × String)} {path text : String}
    (h : (path, text) ∈ texts) : (themeRules texts).contains (customProperty path) = true := by
  unfold themeRules
  rw [OrderedMap.contains_ofList, List.map_map]
  exact List.mem_map.mpr ⟨(path, text), h, rfl⟩

/-- **A contract has a rule for every leaf that it declared.** -/
theorem Call.rules_contains_of_leaf (c : Call) {r : Registry} {path text : String}
    (h : .leaf .themeContract path (.ok text) ∈ c.trace r) :
    c.kind = .themeContract ∧
      (c.run r).declaration.rules.contains (customProperty path) = true := by
  obtain ⟨properties, hf, hleaf⟩ := exists_entries_of_leaf h
  have hmem : (path, text) ∈ (runTheme c.kind c.name (c.start r)
      (themeEntries c.name properties)).texts := by
    rw [← filterMap_text_themeTrace]
    exact List.mem_filterMap.mpr ⟨_, hleaf, rfl⟩
  rw [run_of_entries hf]
  exact ⟨(leaf_mem_themeTrace hleaf).1.symm, themeRules_contains hmem⟩

/-- An event of a run is an event of one of its calls. -/
theorem exists_call_of_mem_traceCalls {r : Registry} {calls : List Call} {e : Event}
    (h : e ∈ traceCalls r calls) :
    ∃ before c after, calls = before ++ c :: after ∧ e ∈ c.trace (registryAfter r before) := by
  induction calls generalizing r with
  | nil => exact absurd h List.not_mem_nil
  | cons c calls ih =>
    rcases List.mem_append.mp h with h | h
    · exact ⟨[], c, calls, rfl, h⟩
    · obtain ⟨before, d, after, rfl, hd⟩ := ih h
      exact ⟨c :: before, d, after, rfl, hd⟩

/-! ## What the stylesheet keeps -/

/-- The stylesheet keeps a declaration whose name does not come again. -/
theorem byName_get?_of_last (before after : List Declaration) (d : Declaration)
    (h : ∀ e ∈ after, e.name ≠ d.name) :
    (byName (before ++ d :: after)).get? d.name = some d := by
  have hafter : (after.map fun e => (e.name, e)).filter (fun p => p.1 = d.name) = [] := by
    rw [List.filter_eq_nil_iff]
    intro p hp
    obtain ⟨e, he, rfl⟩ := List.mem_map.mp hp
    simpa using h e he
  unfold byName
  rw [OrderedMap.get?_ofList, List.map_append, List.map_cons, List.filter_append,
    List.filter_cons_of_pos (by simp), hafter]
  simp

/-- A call whose name no later call has is compiled to a declaration of the output. -/
theorem mem_compile_of_last (options : Options) {m : Module} {before after : List Call} {c : Call}
    (hcalls : m.calls = before ++ c :: after) (h : ∀ d ∈ after, d.name ≠ c.name) :
    (c.run (registryAfter {} before)).declaration ∈ (compile options m).declarations := by
  have hsteps : m.steps.map Step.declaration =
      (runCalls {} before).map Step.declaration ++
        (c.run (registryAfter {} before)).declaration ::
          (runCalls (c.run (registryAfter {} before)).registry after).map Step.declaration := by
    rw [Module.steps, hcalls, runCalls_append, List.map_append]
    rfl
  rw [compile_declarations, hsteps]
  refine OrderedMap.mem_values_of_get? (byName_get?_of_last _ _ _ fun e he => ?_)
  obtain ⟨step, hstep, rfl⟩ := List.mem_map.mp he
  obtain ⟨i, hi⟩ := List.getElem?_of_mem hstep
  rw [getElem?_runCalls] at hi
  obtain ⟨d, hd, rfl⟩ := Option.map_eq_some_iff.mp hi
  rw [d.run_name, c.run_name]
  exact h d (List.mem_of_getElem? hd)

/-! ## References in the output -/

/-- The name of a custom property starts with two hyphens. -/
theorem exists_customProperty_eq (path : String) : ∃ x, customProperty path = "--" ++ x := by
  refine ⟨String.ofList (List.intercalate ['-'] ((splitAtChar '.' path.toList).map kebabChars)), ?_⟩
  rw [← String.toList_inj]
  simp [customProperty]

/-- **No reference dangles.** In a module in which no call after a contract reuses its name, every
reference that resolves during compilation has a text `var(--x)`, and some contract in the output
has a rule for `--x`. -/
theorem resolved_variable_in_output (options : Options) (m : Module)
    (hreuse : m.calls.Pairwise fun c d => c.kind = .themeContract → d.name ≠ c.name)
    (r : Registry) (segments : List String) (text : String)
    (hlookup : .lookup r segments ∈ m.trace) (hok : r.reference segments = .ok text) :
    ∃ x, text = "var(--" ++ x ++ ")" ∧
      ∃ d ∈ (compile options m).declarations,
        d.kind = .themeContract ∧ d.rules.contains ("--" ++ x) = true := by
  obtain ⟨before, after, hsplit⟩ := List.append_of_mem hlookup
  have hre : Reflects before r := (traceCalls_leads m.calls reflects_nil).coherent.reflects hsplit
  rw [hre.reference_eq] at hok
  split_ifs at hok with hmem
  obtain rfl := Except.ok.inj hok
  -- the leaf that declared the variable, in the call that it belongs to
  obtain ⟨placeholder, hleaf⟩ := mem_declaredPaths.mp hmem
  have htrace : .leaf .themeContract (r.contractPath segments) (.ok placeholder) ∈ m.trace := by
    rw [hsplit]
    exact List.mem_append_left _ hleaf
  obtain ⟨earlier, c, later, hcalls, hc⟩ := exists_call_of_mem_traceCalls htrace
  obtain ⟨hkind, hrule⟩ := c.rules_contains_of_leaf hc
  have hlast : ∀ d ∈ later, d.name ≠ c.name := by
    rw [hcalls, List.pairwise_append, List.pairwise_cons] at hreuse
    exact fun d hd => hreuse.2.1.1 d hd hkind
  obtain ⟨x, hx⟩ := exists_customProperty_eq (r.contractPath segments)
  refine ⟨x, ?_, _, mem_compile_of_last options hcalls hlast, ?_, ?_⟩
  · rw [varReference, hx, ← String.append_assoc]
    rfl
  · rw [c.run_kind, hkind]
  · rw [← hx]
    exact hrule

/-- The reference in the style of the sample module, and the contract that sets its variable. -/
theorem resolved_variable_in_sample :
    (Sample.source.calls.Pairwise fun c d => c.kind = .themeContract → d.name ≠ c.name) ∧
      .lookup Sample.registry ["vars", "accent"] ∈ Sample.source.trace ∧
      Sample.registry.reference ["vars", "accent"] = .ok "var(--accent)" ∧
      ∃ x, "var(--accent)" = "var(--" ++ x ++ ")" ∧
        ∃ d ∈ (compile default Sample.source).declarations,
          d.kind = .themeContract ∧ d.rules.contains ("--" ++ x) = true := by
  have hreuse : Sample.source.calls.Pairwise
      fun c d => c.kind = .themeContract → d.name ≠ c.name := by decide
  have hlookup : .lookup Sample.registry ["vars", "accent"] ∈ Sample.source.trace :=
    List.mem_of_getElem? (i := 7) rfl
  exact ⟨hreuse, hlookup, rfl,
    resolved_variable_in_output default Sample.source hreuse _ _ _ hlookup rfl⟩

end StyleCompiler
