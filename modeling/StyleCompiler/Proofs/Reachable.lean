import StyleCompiler.Proofs.VariablesInOutput

/-!
# The registries that a run passes through

A registry changes in the middle of a contract, so a run passes through more registries than the
calls leave behind. `Call.Reaches` and `Module.Reaches` name them, each with the events up to then.

* `Call.Reaches.reflects`, `Module.Reaches.reflects`: every registry reached reflects these events.
* `Module.Reaches.prefix_trace`: the events are the beginning of the trace.
* `Module.reaches_of_lookup`: references are looked up in registries that are reached.
-/

namespace StyleCompiler

/-! ## Traces in two parts -/

theorem themeTrace_append (kind : Kind) (name : String) (r : Registry) (xs ys : List ThemeEntry) :
    themeTrace kind r (xs ++ ys) =
      themeTrace kind r xs ++ themeTrace kind (runTheme kind name r xs).registry ys := by
  induction xs generalizing r with
  | nil => rfl
  | cons e xs ih =>
    cases e with
    | report d => exact ih r
    | leaf path property value =>
      simp only [List.cons_append, themeTrace, runTheme, List.append_assoc]
      cases (Value.ofExpr value).resolve r property with
      | ok text => simp only [ih]
      | error reason => simp only [ih]

theorem traceCalls_append (r : Registry) (xs ys : List Call) :
    traceCalls r (xs ++ ys) = traceCalls r xs ++ traceCalls (registryAfter r xs) ys := by
  induction xs generalizing r with
  | nil => rfl
  | cons c xs ih =>
    simp only [List.cons_append, traceCalls, ih, registryAfter_cons, List.append_assoc]

/-! ## Registries reached -/

/-- A call that starts from `r` stands in a registry after some events: it was begun, and it may
have gone through the first entries of its object literal. -/
inductive Call.Reaches (c : Call) (r : Registry) : List Event → Registry → Prop
  | begun : Call.Reaches c r [.begun c.name c.kind] (c.start r)
  | entries {properties : List Property} {es : List ThemeEntry} :
      c.form = .entries properties → es <+: themeEntries c.name properties →
        Call.Reaches c r (.begun c.name c.kind :: themeTrace c.kind (c.start r) es)
          (runTheme c.kind c.name (c.start r) es).registry

/-- The compilation of a module stands in a registry after some events: it has not begun, or it
has come to some call and stands there. -/
inductive Module.Reaches (m : Module) : List Event → Registry → Prop
  | start : Module.Reaches m [] {}
  | call {before after : List Call} {c : Call} {es : List Event} {r : Registry} :
      m.calls = before ++ c :: after → c.Reaches (registryAfter {} before) es r →
        Module.Reaches m (traceCalls {} before ++ es) r

section Calls

variable {c : Call} {r s : Registry} {es history : List Event}

/-- **Every registry that a call reaches reflects the events up to then.** -/
theorem Call.Reaches.reflects (h : c.Reaches r es s) (hr : Reflects history r) :
    Reflects (history ++ es) s := by
  have hbegun := hr.begun c
  cases h with
  | begun => exact hbegun
  | entries hform hes =>
    rw [List.append_cons]
    exact (themeTrace_leads c.kind c.name _ hbegun).reflects

theorem Call.Reaches.prefix_trace (h : c.Reaches r es s) : es <+: c.trace r := by
  cases h with
  | begun => exact ⟨c.body r, rfl⟩
  | @entries properties es hform hes =>
    obtain ⟨more, hmore⟩ := hes
    refine ⟨themeTrace c.kind (runTheme c.kind c.name (c.start r) es).registry more, ?_⟩
    rw [List.cons_append, ← themeTrace_append, hmore, Call.trace, Call.body, hform]

/-- References in the entries of a contract or a theme are looked up in registries that these have
led to. -/
theorem exists_prefix_of_lookup {kind : Kind} {entries : List ThemeEntry} {segments : List String}
    (name : String) (h : .lookup s segments ∈ themeTrace kind r entries) :
    ∃ es, es <+: entries ∧ s = (runTheme kind name r es).registry := by
  induction entries generalizing r with
  | nil => exact absurd h List.not_mem_nil
  | cons e entries ih =>
    cases e with
    | report d =>
      obtain ⟨es, hes, hs⟩ := ih h
      exact ⟨.report d :: es, List.cons_prefix_cons.mpr ⟨rfl, hes⟩, hs⟩
    | leaf path property value =>
      rcases List.mem_append.mp h with h | h
      · obtain ⟨_, hl⟩ := (Value.ofExpr value).onlyLookups r _ h
        exact ⟨[], List.nil_prefix, (Event.lookup.inj hl).1⟩
      · rcases List.mem_cons.mp h with h | h
        · exact Event.noConfusion h
        · suffices hlater : ∃ es, es <+: entries ∧
              s = (runTheme kind name r (.leaf path property value :: es)).registry by
            obtain ⟨es, hes, hs⟩ := hlater
            exact ⟨_, List.cons_prefix_cons.mpr ⟨rfl, hes⟩, hs⟩
          simp only [runTheme]
          cases hvalue : (Value.ofExpr value).resolve r property with
          | ok text =>
            rw [hvalue] at h
            exact ih h
          | error reason =>
            rw [hvalue] at h
            exact ih h

theorem Call.reaches_of_lookup {segments : List String} (h : .lookup s segments ∈ c.trace r) :
    ∃ es, c.Reaches r es s := by
  rcases List.mem_cons.mp h with h | h
  · exact Event.noConfusion h
  unfold Call.body at h
  cases hf : c.form with
  | style properties =>
    rw [hf] at h
    obtain ⟨_, hl⟩ := onlyLookups_styleTrace r properties _ h
    obtain ⟨rfl, -⟩ := Event.lookup.inj hl
    have hk : c.kind ≠ .themeContract := by simp [(Call.form_eq_style.mp hf).1]
    have hbegun := Call.Reaches.begun (c := c) (r := s)
    rw [Call.start_of_ne hk] at hbegun
    exact ⟨_, hbegun⟩
  | entries properties =>
    rw [hf] at h
    obtain ⟨es, hes, rfl⟩ := exists_prefix_of_lookup c.name h
    exact ⟨_, .entries hf hes⟩
  | rejected =>
    rw [hf] at h
    exact absurd h List.not_mem_nil

end Calls

section Modules

variable {m : Module} {r : Registry} {es : List Event}

/-- **Every registry that a module reaches reflects the events up to then.** -/
theorem Module.Reaches.reflects (h : m.Reaches es r) : Reflects es r := by
  cases h with
  | start => exact reflects_nil
  | call hcalls hc => exact hc.reflects (traceCalls_leads _ reflects_nil).reflects

/-- The events up to a registry are the beginning of the trace. -/
theorem Module.Reaches.prefix_trace (h : m.Reaches es r) : es <+: m.trace := by
  cases h with
  | start => exact List.nil_prefix
  | @call before after c es r hcalls hc =>
    obtain ⟨more, hmore⟩ := hc.prefix_trace
    refine ⟨more ++ traceCalls (c.run (registryAfter {} before)).registry after, ?_⟩
    rw [Module.trace, hcalls, traceCalls_append, traceCalls, ← hmore]
    simp only [List.append_assoc]

/-- **References are looked up in registries that are reached.** -/
theorem Module.reaches_of_lookup {segments : List String} (h : .lookup r segments ∈ m.trace) :
    ∃ es, m.Reaches es r := by
  obtain ⟨before, c, after, hcalls, hc⟩ := exists_call_of_mem_traceCalls h
  obtain ⟨es, hes⟩ := Call.reaches_of_lookup hc
  exact ⟨_, .call hcalls hes⟩

end Modules

end StyleCompiler
