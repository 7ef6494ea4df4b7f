import StyleCompiler.Proofs.Trace

/-!
# What a registry remembers

A registry reflects the events so far: its paths are those that leaves of contracts declared, and
its bindings are the names of the contracts begun. That every registry in which a reference is
looked up does so is the invariant of a run.

* `Reflects`: a registry has the names that a history of events gives it.
* `Leads`: from a registry that reflects the history, events lead to one that reflects them too,
  and so does every registry looked up on the way (`Coherent`).
* `themeTrace_leads`, `Call.trace_leads`, `traceCalls_leads`: entries, calls and runs.
* `lookup_ok_iff_declared`: a reference resolves iff a leaf at its path was declared before.
-/

namespace StyleCompiler

variable {r s : Registry}

/-! ## Registries reflect their history -/

/-- A registry has the names that a history gives it: the paths declared, in order of first
declaration, and the names bound to contracts. -/
structure Reflects (history : List Event) (r : Registry) : Prop where
  paths : r.paths = (declaredPaths history).eraseDups
  bindings : ∀ name, r.isBinding name = true ↔ name ∈ boundNames history

/-- After a history, every registry that a reference is looked up in reflects the events before. -/
def Coherent (history : List Event) : List Event → Prop
  | [] => True
  | e :: es =>
    (∀ r segments, e = .lookup r segments → Reflects history r) ∧ Coherent (history ++ [e]) es

/-- After a history, events are coherent and end in a registry that reflects them. -/
structure Leads (history es : List Event) (r : Registry) : Prop where
  coherent : Coherent history es
  reflects : Reflects (history ++ es) r

variable {history : List Event}

theorem reflects_nil : Reflects [] {} := ⟨rfl, fun name => by simp [Registry.isBinding, boundNames]⟩

theorem coherent_append (history xs ys : List Event) :
    Coherent history (xs ++ ys) ↔ Coherent history xs ∧ Coherent (history ++ xs) ys := by
  induction xs generalizing history with
  | nil => simp [Coherent]
  | cons x xs ih =>
    simp only [List.cons_append, Coherent, ih, and_assoc, List.append_assoc, List.nil_append]

/-- In coherent events, the registry of a lookup reflects what went before it. -/
theorem Coherent.reflects {es before after : List Event} {segments : List String}
    (h : Coherent history es) (he : es = before ++ .lookup r segments :: after) :
    Reflects (history ++ before) r := by
  subst he
  obtain ⟨-, hrest⟩ := (coherent_append history before _).mp h
  exact hrest.1 r segments rfl

theorem Leads.nil (h : Reflects history r) : Leads history [] r :=
  ⟨trivial, by rw [List.append_nil]; exact h⟩

theorem Leads.trans {xs ys : List Event} (hx : Leads history xs r)
    (hy : Leads (history ++ xs) ys s) : Leads history (xs ++ ys) s :=
  ⟨(coherent_append history xs ys).mpr ⟨hx.coherent, hy.coherent⟩,
    by rw [← List.append_assoc]; exact hy.reflects⟩

/-- An event that is no lookup leads to the registry that reflects it. -/
theorem Leads.single {e : Event} (he : ∀ r segments, e ≠ .lookup r segments)
    (h : Reflects (history ++ [e]) s) : Leads history [e] s :=
  ⟨⟨fun r segments hl => absurd hl (he r segments), trivial⟩, h⟩

/-- An event that declares no path and binds no name changes nothing that a registry reflects. -/
theorem Reflects.append_idle {e : Event} (h : Reflects history r) (hd : e.declared? = none)
    (hb : e.bound? = none) : Reflects (history ++ [e]) r := by
  refine ⟨?_, fun name => ?_⟩
  · rw [h.paths, declaredPaths, declaredPaths, List.filterMap_append]
    simp [hd]
  · rw [h.bindings, boundNames, boundNames, List.filterMap_append]
    simp [hb]

/-- Lookups leave the registry they are made in. -/
theorem OnlyLookups.leads {es : List Event} (hes : OnlyLookups r es) (h : Reflects history r) :
    Leads history es r := by
  induction es generalizing history with
  | nil => exact Leads.nil h
  | cons e es ih =>
    obtain ⟨segments, rfl⟩ := hes e List.mem_cons_self
    have hidle : Reflects (history ++ [.lookup r segments]) r := h.append_idle rfl rfl
    obtain ⟨hco, hre⟩ := ih (fun e he => hes e (List.mem_cons_of_mem _ he)) hidle
    refine ⟨⟨fun r' segments' hl => ?_, hco⟩, ?_⟩
    · obtain ⟨rfl, -⟩ := Event.lookup.inj hl
      exact h
    · rw [List.append_cons]
      exact hre

/-! ## Leaves -/

theorem Reflects.of_sameNames (h : Reflects history r) (hn : Registry.SameNames s r) :
    Reflects history s :=
  ⟨hn.paths.trans h.paths, fun name => by
    rw [Registry.isBinding, hn.bindings]
    exact h.bindings name⟩

/-- A leaf of a contract that has a text declares its path. -/
theorem Reflects.declare (h : Reflects history r) (path text : String) :
    Reflects (history ++ [.leaf .themeContract path (.ok text)]) (r.declare path text) := by
  have hpaths : declaredPaths (history ++ [.leaf .themeContract path (.ok text)]) =
      declaredPaths history ++ [path] := List.filterMap_append
  have hnames : boundNames (history ++ [.leaf .themeContract path (.ok text)]) =
      boundNames history := by simp [boundNames, Event.bound?]
  refine ⟨?_, fun name => ?_⟩
  · rw [Registry.paths_declare, hpaths, eraseDups_concat, h.paths]
    simp only [List.mem_eraseDups]
  · rw [hnames]
    exact h.bindings name

theorem Reflects.enter (h : Reflects history r) (kind : Kind) (path text : String) :
    Reflects (history ++ [.leaf kind path (.ok text)]) (kind.enter r path text) := by
  cases kind with
  | themeContract => exact h.declare path text
  | style | themeInstance =>
    exact (h.append_idle rfl rfl).of_sameNames (Registry.sameNames_instantiate r path text)

/-- The entries of a contract or a theme lead to the registry that they leave. -/
theorem themeTrace_leads (kind : Kind) (name : String) (es : List ThemeEntry)
    (h : Reflects history r) :
    Leads history (themeTrace kind r es) (runTheme kind name r es).registry := by
  induction es generalizing history r with
  | nil => exact Leads.nil h
  | cons e es ih =>
    cases e with
    | report d => exact ih h
    | leaf path property value =>
      have hlook := ((Value.ofExpr value).onlyLookups r).leads h
      simp only [themeTrace, runTheme]
      refine hlook.trans ?_
      -- the leaf itself, then the entries after it
      cases (Value.ofExpr value).resolve r property with
      | ok text =>
        have hleaf := hlook.reflects.enter kind path text
        exact (Leads.single (fun _ _ hl => Event.noConfusion hl) hleaf).trans (ih hleaf)
      | error reason =>
        have hidle : (Event.leaf kind path (.error reason)).declared? = none := by
          cases kind <;> rfl
        have hleaf := hlook.reflects.append_idle hidle rfl
        exact (Leads.single (fun _ _ hl => Event.noConfusion hl) hleaf).trans (ih hleaf)

/-! ## Calls -/

/-- A call that is begun binds its name if it is a contract. -/
theorem Reflects.begun (h : Reflects history r) (c : Call) :
    Reflects (history ++ [.begun c.name c.kind]) (c.start r) := by
  by_cases hk : c.kind = .themeContract
  · have hpaths : declaredPaths (history ++ [.begun c.name .themeContract]) =
        declaredPaths history := by simp [declaredPaths, Event.declared?]
    have hnames : boundNames (history ++ [.begun c.name .themeContract]) =
        boundNames history ++ [c.name] := List.filterMap_append
    simp only [Call.start, hk]
    refine ⟨?_, fun other => ?_⟩
    · rw [Registry.paths_registerBinding, hpaths]
      exact h.paths
    · rw [Registry.isBinding_registerBinding, hnames, h.bindings, List.mem_append,
        List.mem_singleton]
  · rw [Call.start_of_ne hk]
    refine h.append_idle rfl ?_
    unfold Event.bound?
    split
    · rename_i heq
      exact absurd (Event.begun.inj heq).2 hk
    · rfl

/-- **A call leads to the registry that it leaves.** -/
theorem Call.trace_leads (c : Call) (h : Reflects history r) :
    Leads history (c.trace r) (c.run r).registry := by
  have hbegun := h.begun c
  unfold trace body
  rw [← List.singleton_append]
  refine (Leads.single (fun _ _ hl => Event.noConfusion hl) hbegun).trans ?_
  cases hf : c.form with
  | style properties =>
    have hk : c.kind ≠ .themeContract := by simp [(form_eq_style.mp hf).1]
    rw [run_of_style hf]
    rw [start_of_ne hk] at hbegun
    exact (onlyLookups_styleTrace r properties).leads hbegun
  | entries properties =>
    rw [run_of_entries hf]
    exact themeTrace_leads c.kind c.name _ hbegun
  | rejected =>
    rw [run_of_rejected hf]
    exact Leads.nil hbegun

/-- **A run leads to the registry that it leaves.** -/
theorem traceCalls_leads (calls : List Call) (h : Reflects history r) :
    Leads history (traceCalls r calls) (registryAfter r calls) := by
  induction calls generalizing history r with
  | nil => exact Leads.nil h
  | cons c calls ih =>
    have hc := c.trace_leads h
    exact hc.trans (ih hc.reflects)

/-! ## References and declarations -/

theorem mem_declaredPaths {es : List Event} {path : String} :
    path ∈ declaredPaths es ↔ ∃ text, .leaf .themeContract path (.ok text) ∈ es := by
  unfold declaredPaths
  rw [List.mem_filterMap]
  constructor
  · rintro ⟨e, he, hd⟩
    unfold Event.declared? at hd
    split at hd
    · rename_i p text
      obtain rfl := Option.some.inj hd
      exact ⟨text, he⟩
    · exact absurd hd (by simp)
  · rintro ⟨text, he⟩
    exact ⟨_, he, rfl⟩

theorem mem_boundNames {es : List Event} {name : String} :
    name ∈ boundNames es ↔ .begun name .themeContract ∈ es := by
  unfold boundNames
  rw [List.mem_filterMap]
  constructor
  · rintro ⟨e, he, hb⟩
    unfold Event.bound? at hb
    split at hb
    · obtain rfl := Option.some.inj hb
      exact he
    · exact absurd hb (by simp)
  · intro he
    exact ⟨_, he, rfl⟩

/-- A registry that reflects a history resolves what the history declared, and nothing else. -/
theorem Reflects.reference_eq (h : Reflects history r) (segments : List String) :
    r.reference segments =
      if r.contractPath segments ∈ declaredPaths history then
        .ok (varReference (r.contractPath segments))
      else .error (.unresolved (r.contractPath segments)) := by
  rw [Registry.reference_eq, h.paths]
  simp only [List.mem_eraseDups]

/-- **A reference resolves iff its variable was declared before.** Whenever a module's compilation
looks up a reference, the names bound so far are those of the contracts begun, and the reference
resolves to the variable at its path iff a leaf of a contract at that path was gone through before
and had a text; otherwise the reference is reported as unresolved. After any number of calls the
declared paths are those of such leaves, in order of first occurrence, and the bound names are
those of the contracts among the calls. Styles and themes change neither. -/
theorem lookup_ok_iff_declared (m : Module) :
    (∀ (before after : List Event) (r : Registry) (segments : List String),
      m.trace = before ++ .lookup r segments :: after →
        (∀ name, r.isBinding name = true ↔ .begun name .themeContract ∈ before) ∧
          (r.reference segments = .ok (varReference (r.contractPath segments)) ↔
            ∃ text, .leaf .themeContract (r.contractPath segments) (.ok text) ∈ before) ∧
          (r.reference segments = .error (.unresolved (r.contractPath segments)) ↔
            ¬ ∃ text, .leaf .themeContract (r.contractPath segments) (.ok text) ∈ before)) ∧
      (∀ i : Nat,
        (registryAfter {} (m.calls.take i)).paths =
            (declaredPaths (traceCalls {} (m.calls.take i))).eraseDups ∧
          ∀ name, (registryAfter {} (m.calls.take i)).isBinding name = true ↔
            ∃ c ∈ m.calls.take i, c.kind = .themeContract ∧ c.name = name) ∧
      ∀ (c : Call) (r : Registry), c.kind ≠ .themeContract →
        (c.run r).registry.paths = r.paths ∧ (c.run r).registry.bindings = r.bindings := by
  refine ⟨fun before after r segments hsplit => ?_, fun i => ⟨?_, fun name => ?_⟩, fun c r hc => ?_⟩
  · have hre : Reflects before r := (traceCalls_leads m.calls reflects_nil).coherent.reflects hsplit
    refine ⟨fun name => (hre.bindings name).trans mem_boundNames, ?_⟩
    rw [← mem_declaredPaths, hre.reference_eq]
    split_ifs with hmem
    · exact ⟨iff_of_true rfl hmem, iff_of_false (by simp) (not_not_intro hmem)⟩
    · exact ⟨iff_of_false (by simp) hmem, iff_of_true rfl hmem⟩
  · exact (traceCalls_leads (m.calls.take i) reflects_nil).reflects.paths
  · rw [isBinding_registryAfter]
    exact or_iff_right (by simp [Registry.isBinding])
  · have hnames := c.run_sameNames hc r
    exact ⟨hnames.paths, hnames.bindings⟩

/-- The registry before the style of the sample module. -/
def Sample.registry : Registry := registryAfter {} [Sample.contract, Sample.theme]

/-- In the style of the sample module the declared variable resolves and the other does not. -/
theorem lookup_ok_iff_declared_sample :
    Sample.source.trace =
        Sample.source.trace.take 7 ++
          .lookup Sample.registry ["vars", "accent"] ::
            [.lookup Sample.registry ["vars", "missing"]] ∧
      Sample.registry.reference ["vars", "accent"] = .ok (varReference "accent") ∧
      Sample.theme.kind ≠ .themeContract ∧
      (Sample.theme.run Sample.registry).registry.paths = Sample.registry.paths := by
  have hsplit : Sample.source.trace =
      Sample.source.trace.take 7 ++
        .lookup Sample.registry ["vars", "accent"] ::
          [.lookup Sample.registry ["vars", "missing"]] := rfl
  have hleaf : .leaf .themeContract "accent" (.ok "var(--color)") ∈ Sample.source.trace.take 7 :=
    List.mem_of_getElem? (i := 3) rfl
  obtain ⟨hlookup, -, hkeep⟩ := lookup_ok_iff_declared Sample.source
  obtain ⟨-, hok, -⟩ := hlookup _ _ _ _ hsplit
  exact ⟨hsplit, hok.mpr ⟨_, hleaf⟩, by decide, (hkeep Sample.theme _ (by decide)).1⟩

end StyleCompiler
