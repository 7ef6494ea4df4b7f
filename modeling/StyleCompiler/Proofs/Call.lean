import StyleCompiler.Proofs.Registry

/-!
# What a call gives to compile

A call is compiled in one of three ways: as a style, as a contract or a theme, or not at all. Which
one it is depends on the call alone and not on the registry (`Call.form`). All that is proved about
calls goes by these three forms.

* `Call.run_of_style`, `Call.run_of_entries`, `Call.run_of_rejected`: the step of each form.
* `Call.run_name`, `Call.run_kind`: the declaration has the name and the kind of the call.
* `Call.isBinding_run`: a call binds its name if it is a contract, and no other name.
* `Declarator.call?_eq_some`: when a declarator makes a call.
-/

namespace StyleCompiler

namespace Call

/-- What a call gives to compile. -/
inductive Form where
  /-- The object literal of a style. -/
  | style (properties : List Property)
  /-- The object literal of a contract or a theme. -/
  | entries (properties : List Property)
  /-- Nothing. -/
  | rejected

/-- The form of a call. -/
def form (c : Call) : Form :=
  match c.kind with
  | .style =>
    match c.firstArg? with
    | some (.object properties) => .style properties
    | _ => .rejected
  | _ =>
    match c.objectArg? with
    | some properties => .entries properties
    | none => .rejected

/-- What is wrong with a call that is rejected. -/
def why (c : Call) : Rejection :=
  match c.kind with
  | .style =>
    match c.firstArg? with
    | some (.array _) => .composition
    | some _ => .notObject
    | none => .missingStyle
  | .themeContract => .missingContract
  | .themeInstance => .missingTheme

/-- The registry that the object literal of a call is read in: a contract enters its name first. -/
def start (c : Call) (r : Registry) : Registry :=
  match c.kind with
  | .themeContract => r.registerBinding c.name
  | _ => r

theorem start_of_ne {c : Call} (hk : c.kind ≠ .themeContract) (r : Registry) : c.start r = r := by
  unfold start
  split
  · contradiction
  · rfl

variable {c : Call} {properties : List Property}

theorem form_eq_style :
    c.form = .style properties ↔
      c.kind = .style ∧ c.firstArg? = some (.object properties) := by
  unfold form
  cases hk : c.kind with
  | style =>
    cases c.firstArg? with
    | none => simp
    | some e => cases e <;> simp
  | themeContract | themeInstance => cases c.objectArg? <;> simp

theorem form_eq_entries :
    c.form = .entries properties ↔ c.kind ≠ .style ∧ c.objectArg? = some properties := by
  unfold form
  cases hk : c.kind with
  | style =>
    cases c.firstArg? with
    | none => simp
    | some e => cases e <;> simp
  | themeContract | themeInstance => cases c.objectArg? <;> simp

/-! ## Steps -/

theorem run_of_style (h : c.form = .style properties) (r : Registry) :
    c.run r = ⟨styleOf r c.name properties, styleReports r c.name properties, r⟩ := by
  obtain ⟨hk, hfirst⟩ := form_eq_style.mp h
  simp only [run, hk, runStyle, hfirst]

theorem run_of_entries (h : c.form = .entries properties) (r : Registry) :
    c.run r = c.runEntries (c.start r) properties := by
  obtain ⟨hne, hobject⟩ := form_eq_entries.mp h
  cases hk : c.kind with
  | style => exact absurd hk hne
  | themeContract | themeInstance => simp only [run, start, hk, hobject]

theorem run_of_rejected (h : c.form = .rejected) (r : Registry) :
    c.run r = c.reject (c.start r) c.why := by
  cases hk : c.kind with
  | style =>
    simp only [form, hk] at h
    simp only [run, runStyle, start, why, hk]
    cases hfirst : c.firstArg? with
    | none => rfl
    | some e =>
      rw [hfirst] at h
      cases e with
      | object _ => cases h
      | _ => rfl
  | themeContract | themeInstance =>
    simp only [form, hk] at h
    simp only [run, start, why, hk]
    cases hobject : c.objectArg? with
    | none => rfl
    | some _ =>
      rw [hobject] at h
      cases h

theorem run_name (c : Call) (r : Registry) : (c.run r).declaration.name = c.name := by
  cases h : c.form with
  | style properties =>
    rw [run_of_style h]
    rfl
  | entries properties =>
    rw [run_of_entries h]
    rfl
  | rejected =>
    rw [run_of_rejected h]
    rfl

theorem run_kind (c : Call) (r : Registry) : (c.run r).declaration.kind = c.kind := by
  cases h : c.form with
  | style properties =>
    rw [run_of_style h, (form_eq_style.mp h).1]
    rfl
  | entries properties =>
    rw [run_of_entries h]
    rfl
  | rejected =>
    rw [run_of_rejected h]
    rfl

/-! ## The names of contracts -/

/-- A call binds no name after it was begun. -/
theorem bindings_run (c : Call) (r : Registry) :
    (c.run r).registry.bindings = (c.start r).bindings := by
  cases h : c.form with
  | style properties =>
    have hk : c.kind ≠ .themeContract := by simp [(form_eq_style.mp h).1]
    rw [run_of_style h, start_of_ne hk]
  | entries properties =>
    rw [run_of_entries h]
    exact bindings_runTheme c.kind c.name _ _
  | rejected =>
    rw [run_of_rejected h]
    rfl

/-- **A call binds its name if it is a contract**, accepted or not, and no other. -/
theorem isBinding_run (c : Call) (r : Registry) (name : String) :
    (c.run r).registry.isBinding name = true ↔
      r.isBinding name = true ∨ (c.kind = .themeContract ∧ c.name = name) := by
  rw [Registry.isBinding, c.bindings_run, ← Registry.isBinding]
  by_cases hk : c.kind = .themeContract
  · simp only [start, hk, Registry.isBinding_registerBinding, true_and, @eq_comm _ name]
  · simp only [start_of_ne hk, hk, false_and, or_false]

end Call

/-! ## Declarators -/

/-- The call of a declarator: its plain name is bound to a call of a known function. -/
theorem Declarator.call?_eq_some {d : Declarator} {c : Call} :
    d.call? = some c ↔ d.pattern = .name c.name ∧ ∃ e callee,
      d.init = some e ∧ e.unwrap = .call callee c.args ∧
        callee.name?.bind Kind.ofCallee? = some c.kind := by
  obtain ⟨pattern, init⟩ := d
  obtain ⟨name, kind, args⟩ := c
  unfold Declarator.call?
  split
  · rename_i name' callee args' hname hinit
    obtain ⟨e, rfl, he⟩ := Option.map_eq_some_iff.mp hinit
    obtain rfl : pattern = .name name' := hname
    constructor
    · intro h
      obtain ⟨function, hfunction, h⟩ := Option.bind_eq_some_iff.mp h
      obtain ⟨kind', hkind, h⟩ := Option.bind_eq_some_iff.mp h
      obtain ⟨rfl, rfl, rfl⟩ := Call.mk.inj (Option.some.inj h)
      exact ⟨rfl, e, callee, rfl, he, Option.bind_eq_some_iff.mpr ⟨function, hfunction, hkind⟩⟩
    · rintro ⟨hname, e', callee', hinit, he', hkind⟩
      obtain rfl := Pattern.name.inj hname
      obtain rfl := Option.some.inj hinit
      obtain ⟨rfl, rfl⟩ := Expr.call.inj (he.symm.trans he')
      obtain ⟨function, hfunction, hkind⟩ := Option.bind_eq_some_iff.mp hkind
      simp [hfunction, hkind]
  · rename_i hnot
    refine ⟨fun h => (nomatch h), ?_⟩
    rintro ⟨hname, e, callee, hinit, he, -⟩
    refine (hnot name callee args hname ?_).elim
    simp only [show init = some e from hinit, Option.map_some, he]

end StyleCompiler
