import Mathlib.Data.List.Basic
import StyleCompiler.Proofs.NonInterference

/-!
# What happens during a run

The trace of a run lists, in order, the calls begun, the member references looked up and the
leaves of contracts and themes gone through. A reference is looked up in the registry as it stands
at that moment, also in the middle of a contract.

* `Module.trace`: the events of the compilation of a module.
* `Call.exists_entries_of_leaf`, `leaf_mem_themeTrace`: where the leaves in a trace come from.
* `Call.output_eq_of_answers`: the trace misses no lookup, since what a call shows is decided by
  the answers to the lookups in its trace.
* `filterMap_text_themeTrace`: nor does it miss a leaf that has a text.
-/

namespace StyleCompiler

/-! ## Events -/

/-- What happens during a run. -/
inductive Event where
  /-- A call is begun. -/
  | begun (name : String) (kind : Kind)
  /-- A member reference is looked up in a registry. -/
  | lookup (registry : Registry) (segments : List String)
  /-- A leaf of a contract or a theme is gone through: its text, or why it has none. -/
  | leaf (kind : Kind) (path : String) (outcome : Except SkipReason String)

namespace Event

/-- The path that an event declares: that of a leaf of a contract that has a text. -/
def declared? : Event → Option String
  | .leaf .themeContract path (.ok _) => some path
  | _ => none

/-- The name that an event binds to a contract. -/
def bound? : Event → Option String
  | .begun name .themeContract => some name
  | _ => none

/-- The path and the text of a leaf that has one. -/
def text? : Event → Option (String × String)
  | .leaf _ path (.ok text) => some (path, text)
  | _ => none

end Event

/-- The paths that events declare, in order and as often as they do. -/
def declaredPaths (es : List Event) : List String := es.filterMap Event.declared?

/-- The names that events bind to contracts. -/
def boundNames (es : List Event) : List String := es.filterMap Event.bound?

/-- The lookups that the text of template parts takes; one that fails is the last. -/
def partLookups (r : Registry) : List Part → List Event
  | [] => []
  | .text _ :: parts => partLookups r parts
  | .reference segments :: parts =>
    .lookup r segments ::
      match r.reference segments with
      | .ok _ => partLookups r parts
      | .error _ => []

/-- The lookups that the text of a value takes. -/
def Value.lookups (r : Registry) : Value → List Event
  | .reference segments => [.lookup r segments]
  | .template parts => partLookups r parts
  | _ => []

/-- The events of an object literal whose entries should be rules. -/
def bodyTrace (r : Registry) (properties : List Property) : List Event :=
  (entries properties).flatMap fun e => (Value.ofExpr e.2).lookups r

/-- The events of one group. -/
def groupTrace (r : Registry) (entry : String × Expr) : List Event :=
  match Value.ofExpr entry.2 with
  | .object body => bodyTrace r body
  | _ => []

/-- The events of an entry of a style. -/
def styleEntryTrace (r : Registry) (entry : String × Expr) : List Event :=
  if isGroupsKey entry.1 then
    match Value.ofExpr entry.2 with
    | .object properties => (entries properties).flatMap (groupTrace r)
    | _ => []
  else (Value.ofExpr entry.2).lookups r

/-- The events of the object literal of a style. -/
def styleTrace (r : Registry) (properties : List Property) : List Event :=
  (entries properties).flatMap (styleEntryTrace r)

/-- The events of the entries of a contract or a theme. -/
def themeTrace (kind : Kind) : Registry → List ThemeEntry → List Event
  | _, [] => []
  | r, .report _ :: es => themeTrace kind r es
  | r, .leaf path property value :: es =>
    (Value.ofExpr value).lookups r ++
      .leaf kind path ((Value.ofExpr value).resolve r property) ::
        match (Value.ofExpr value).resolve r property with
        | .ok text => themeTrace kind (kind.enter r path text) es
        | .error _ => themeTrace kind r es

/-- The events inside a call. -/
def Call.body (c : Call) (r : Registry) : List Event :=
  match c.form with
  | .style properties => styleTrace r properties
  | .entries properties => themeTrace c.kind (c.start r) (themeEntries c.name properties)
  | .rejected => []

/-- The events of a call. -/
def Call.trace (c : Call) (r : Registry) : List Event := .begun c.name c.kind :: c.body r

/-- The events of calls, each from the registry that the one before left. -/
def traceCalls : Registry → List Call → List Event
  | _, [] => []
  | r, c :: cs => c.trace r ++ traceCalls (c.run r).registry cs

/-- The events of the compilation of a module. -/
def Module.trace (m : Module) : List Event := traceCalls {} m.calls

variable {r s : Registry}

/-! ## Lookups -/

/-- The events are lookups in one registry. -/
def OnlyLookups (r : Registry) (es : List Event) : Prop :=
  ∀ e ∈ es, ∃ segments, e = .lookup r segments

theorem onlyLookups_flatMap {α : Type} {xs : List α} {f : α → List Event}
    (h : ∀ x ∈ xs, OnlyLookups r (f x)) : OnlyLookups r (xs.flatMap f) := by
  intro e he
  obtain ⟨x, hx, hex⟩ := List.mem_flatMap.mp he
  exact h x hx e hex

theorem onlyLookups_nil (r : Registry) : OnlyLookups r [] := fun _ he => absurd he List.not_mem_nil

theorem onlyLookups_partLookups (r : Registry) (parts : List Part) :
    OnlyLookups r (partLookups r parts) := by
  induction parts with
  | nil => exact onlyLookups_nil r
  | cons part parts ih =>
    cases part with
    | text t => exact ih
    | reference segments =>
      intro e he
      rcases List.mem_cons.mp he with rfl | he
      · exact ⟨segments, rfl⟩
      · split at he
        · exact ih e he
        · exact absurd he List.not_mem_nil

theorem Value.onlyLookups (r : Registry) (v : Value) : OnlyLookups r (v.lookups r) := by
  cases v with
  | reference segments => exact fun e he => ⟨segments, List.mem_singleton.mp he⟩
  | template parts => exact onlyLookups_partLookups r parts
  | text _ | number _ | null | object _ | unsupported => exact onlyLookups_nil r

theorem onlyLookups_bodyTrace (r : Registry) (properties : List Property) :
    OnlyLookups r (bodyTrace r properties) :=
  onlyLookups_flatMap fun e _ => (Value.ofExpr e.2).onlyLookups r

theorem onlyLookups_styleTrace (r : Registry) (properties : List Property) :
    OnlyLookups r (styleTrace r properties) := by
  refine onlyLookups_flatMap fun e _ => ?_
  unfold styleEntryTrace
  split
  · split
    · refine onlyLookups_flatMap fun g _ => ?_
      unfold groupTrace
      split
      · exact onlyLookups_bodyTrace r _
      · exact onlyLookups_nil r
    · exact onlyLookups_nil r
  · exact (Value.ofExpr e.2).onlyLookups r

/-! ## Leaves -/

/-- A leaf in the trace of entries is of their kind, and it is one of them. -/
theorem leaf_mem_themeTrace {kind other : Kind} {es : List ThemeEntry} {path : String}
    {outcome : Except SkipReason String} (h : .leaf other path outcome ∈ themeTrace kind r es) :
    other = kind ∧ ∃ property value, .leaf path property value ∈ es := by
  induction es generalizing r with
  | nil => exact absurd h List.not_mem_nil
  | cons e es ih =>
    -- the leaf is that of the first entry or of a later one
    suffices hcases : (other = kind ∧ ∃ property value, e = .leaf path property value) ∨
        (other = kind ∧ ∃ property value, .leaf path property value ∈ es) by
      rcases hcases with ⟨hkind, property, value, rfl⟩ | ⟨hkind, property, value, he⟩
      · exact ⟨hkind, property, value, List.mem_cons_self⟩
      · exact ⟨hkind, property, value, List.mem_cons_of_mem _ he⟩
    cases e with
    | report d => exact Or.inr (ih h)
    | leaf p property value =>
      simp only [themeTrace] at h
      rcases List.mem_append.mp h with h | h
      · obtain ⟨segments, hl⟩ := (Value.ofExpr value).onlyLookups r _ h
        exact Event.noConfusion hl
      rcases List.mem_cons.mp h with h | h
      · obtain ⟨hkind, rfl, -⟩ := Event.leaf.inj h
        exact Or.inl ⟨hkind, property, value, rfl⟩
      · split at h
        · exact Or.inr (ih h)
        · exact Or.inr (ih h)

/-- The leaves in the trace of a call are those of the entries of its object literal. -/
theorem Call.exists_entries_of_leaf {c : Call} {kind : Kind} {path : String}
    {outcome : Except SkipReason String} (h : .leaf kind path outcome ∈ c.trace r) :
    ∃ properties, c.form = .entries properties ∧
      .leaf kind path outcome ∈ themeTrace c.kind (c.start r) (themeEntries c.name properties) := by
  rcases List.mem_cons.mp h with h | h
  · exact Event.noConfusion h
  unfold body at h
  cases hf : c.form with
  | style properties =>
    rw [hf] at h
    obtain ⟨segments, hl⟩ := onlyLookups_styleTrace r properties _ h
    exact Event.noConfusion hl
  | entries properties =>
    rw [hf] at h
    exact ⟨properties, rfl, h⟩
  | rejected =>
    rw [hf] at h
    exact absurd h List.not_mem_nil

/-! ## The trace misses nothing -/

/-- The answer to an event that is a lookup. -/
def Event.answer? : Event → Option (Except SkipReason String)
  | .lookup r segments => some (r.reference segments)
  | _ => none

/-- The answers to the lookups among events. -/
def answers (es : List Event) : List (Except SkipReason String) := es.filterMap Event.answer?

/-- The answers to the lookups decide a fact: it holds whenever two runs through events get the
same answers, as far as the shorter of the two goes, and neither is then ahead of the other. -/
def Decides (es es' : List Event) (P : Prop) : Prop :=
  ∀ xs ys, answers es ++ xs = answers es' ++ ys → P ∧ xs = ys

namespace Decides

variable {es es' fs fs' : List Event} {P Q : Prop}

theorem nil (h : P) : Decides [] [] P := fun _ _ hxs => ⟨h, hxs⟩

theorem imp (h : Decides es es' P) (hPQ : P → Q) : Decides es es' Q := by
  intro xs ys hxs
  obtain ⟨hp, hrest⟩ := h xs ys hxs
  exact ⟨hPQ hp, hrest⟩

/-- What comes later may depend on what is decided before. -/
theorem append (h : Decides es es' P) (h' : P → Decides fs fs' Q) :
    Decides (es ++ fs) (es' ++ fs') (P ∧ Q) := by
  intro xs ys hxs
  unfold answers at hxs
  rw [List.filterMap_append, List.filterMap_append, List.append_assoc, List.append_assoc] at hxs
  obtain ⟨hp, hxs⟩ := h _ _ hxs
  obtain ⟨hq, hxs⟩ := h' hp xs ys hxs
  exact ⟨⟨hp, hq⟩, hxs⟩

theorem flatMap {α : Type} {f g : α → List Event} {P : α → Prop} {as : List α}
    (h : ∀ a ∈ as, Decides (f a) (g a) (P a)) :
    Decides (as.flatMap f) (as.flatMap g) (∀ a ∈ as, P a) := by
  induction as with
  | nil => exact .nil (List.forall_mem_nil _)
  | cons a as ih =>
    have hrest := ih fun b hb => h b (List.mem_cons_of_mem a hb)
    exact ((h a List.mem_cons_self).append fun _ => hrest).imp List.forall_mem_cons.mpr

end Decides

/-- A lookup decides its answer. -/
theorem decides_lookup (segments : List String) :
    Decides [.lookup r segments] [.lookup s segments]
      (r.reference segments = s.reference segments) :=
  fun _ _ hxs => List.cons.inj hxs

theorem decides_partLookups (parts : List Part) :
    Decides (partLookups r parts) (partLookups s parts)
      (resolveParts r parts = resolveParts s parts) := by
  induction parts with
  | nil => exact .nil rfl
  | cons part parts ih =>
    cases part with
    | text t =>
      refine ih.imp fun h => ?_
      simp only [resolveParts, h]
      rfl
    | reference segments =>
      simp only [partLookups, resolveParts, Part.resolve]
      rw [← List.singleton_append, ← List.singleton_append]
      refine ((decides_lookup segments).append fun h => ?_).imp And.right
      -- only after a lookup that succeeds are the later ones made
      rw [← h]
      cases r.reference segments with
      | error reason => exact .nil rfl
      | ok text =>
        refine ih.imp fun h => ?_
        rw [h]

/-- The lookups of a value decide its text. -/
theorem Value.decides_lookups (v : Value) (property : String) :
    Decides (v.lookups r) (v.lookups s) (v.resolve r property = v.resolve s property) := by
  cases v with
  | reference segments => exact decides_lookup segments
  | template parts => exact decides_partLookups parts
  | text _ | number _ | null | object _ | unsupported => exact .nil rfl

theorem decides_ruleOf (name : String) (entry : String × Expr) :
    Decides ((Value.ofExpr entry.2).lookups r) ((Value.ofExpr entry.2).lookups s)
      (ruleOf r name entry = ruleOf s name entry) := by
  refine ((Value.ofExpr entry.2).decides_lookups entry.1).imp fun h => ?_
  unfold ruleOf
  rw [h]

theorem rulesOf_congr {name : String} {es : List (String × Expr)}
    (h : ∀ e ∈ es, ruleOf r name e = ruleOf s name e) : rulesOf r name es = rulesOf s name es :=
  congrArg OrderedMap.ofList
    (List.filterMap_congr fun e he => congrArg Except.toOption (h e he))

theorem decides_groupTrace (name : String) (entry : String × Expr) :
    Decides (groupTrace r entry) (groupTrace s entry)
      (groupOf? r name entry = groupOf? s name entry ∧
        groupReports r name entry = groupReports s name entry) := by
  unfold groupTrace groupOf? groupReports
  cases Value.ofExpr entry.2 with
  | object body =>
    refine (Decides.flatMap fun e _ => decides_ruleOf name e).imp fun h => ⟨?_, ?_⟩
    · simp only [rulesOf_congr h]
    · have hreports : ∀ e ∈ entries body, ruleReports r name e = ruleReports s name e :=
        fun e he => congrArg (fun o => (errorOf? o).toList) (h e he)
      simp only [bodyReports, List.flatMap_congr hreports]
  | text _ | number _ | null | reference _ | template _ | unsupported => exact .nil ⟨rfl, rfl⟩

/-- The lookups of an entry of a style decide the rule or the groups that it gives. -/
theorem decides_styleEntryTrace (name : String) (entry : String × Expr) :
    Decides (styleEntryTrace r entry) (styleEntryTrace s entry)
      ((isGroupsKey entry.1 = true → groupsOf r name entry.2 = groupsOf s name entry.2) ∧
        (¬ isGroupsKey entry.1 = true → ruleOf r name entry = ruleOf s name entry) ∧
        styleEntryReports r name entry = styleEntryReports s name entry) := by
  unfold styleEntryTrace styleEntryReports
  by_cases hk : isGroupsKey entry.1 = true
  · rw [if_pos hk, if_pos hk, if_pos hk, if_pos hk]
    suffices h : Decides _ _ (groupsOf r name entry.2 = groupsOf s name entry.2 ∧
        groupsReports r name entry.1 entry.2 = groupsReports s name entry.1 entry.2) from
      h.imp fun h => ⟨fun _ => h.1, fun hnot => absurd hk hnot, h.2⟩
    unfold groupsOf groupsReports
    cases Value.ofExpr entry.2 with
    | object groups =>
      refine (Decides.flatMap fun e _ => decides_groupTrace name e).imp fun h => ⟨?_, ?_⟩
      · simp only [List.filterMap_congr fun e he => (h e he).1]
      · simp only [List.flatMap_congr fun e he => (h e he).2]
    | text _ | number _ | null | reference _ | template _ | unsupported => exact .nil ⟨rfl, rfl⟩
  · rw [if_neg hk, if_neg hk, if_neg hk, if_neg hk]
    refine (decides_ruleOf name entry).imp fun h => ⟨fun hyes => absurd hyes hk, fun _ => h, ?_⟩
    unfold ruleReports
    rw [h]

/-- The lookups of a style decide its declaration and the reports on it. -/
theorem decides_styleTrace (name : String) (properties : List Property) :
    Decides (styleTrace r properties) (styleTrace s properties)
      (styleOf r name properties = styleOf s name properties ∧
        styleReports r name properties = styleReports s name properties) := by
  refine (Decides.flatMap fun e _ => decides_styleEntryTrace name e).imp fun h => ⟨?_, ?_⟩
  · have hrules : rulesOf r name ((entries properties).filter fun e => !isGroupsKey e.1) =
        rulesOf s name ((entries properties).filter fun e => !isGroupsKey e.1) := by
      refine rulesOf_congr fun e he => ?_
      obtain ⟨he, hk⟩ := List.mem_filter.mp he
      exact (h e he).2.1 (by simpa using hk)
    have hgroups : ∀ key, isGroupsKey key = true →
        groupsAt r name key (entries properties) = groupsAt s name key (entries properties) := by
      intro key hkey
      unfold groupsAt
      cases hlast : ((entries properties).filter fun e => e.1 = key).getLast? with
      | none => rfl
      | some e =>
        obtain ⟨he, hk⟩ := List.mem_filter.mp (List.mem_of_getLast? hlast)
        exact (h e he).1 (by rw [of_decide_eq_true hk, hkey])
    unfold styleOf
    simp only [hrules, hgroups selectorsKey (by decide), hgroups mediaKey (by decide)]
  · unfold styleReports
    rw [List.flatMap_congr fun e he => (h e he).2.2]

/-- The lookups of a contract or a theme decide its texts and the reports on it. -/
theorem decides_themeTrace (kind : Kind) (name : String) (es : List ThemeEntry) :
    Decides (themeTrace kind r es) (themeTrace kind s es)
      ((runTheme kind name r es).texts = (runTheme kind name s es).texts ∧
        (runTheme kind name r es).diagnostics = (runTheme kind name s es).diagnostics) := by
  induction es generalizing r s with
  | nil => exact .nil ⟨rfl, rfl⟩
  | cons e es ih =>
    cases e with
    | report d =>
      refine ih.imp ?_
      rintro ⟨ht, hd⟩
      refine ⟨ht, ?_⟩
      simp only [runTheme, hd]
    | leaf path property value =>
      simp only [themeTrace, runTheme]
      refine (((Value.ofExpr value).decides_lookups property).append fun h => ?_).imp And.right
      rw [← h]
      cases (Value.ofExpr value).resolve r property with
      | ok text =>
        have hrest : Decides (themeTrace kind (kind.enter r path text) es)
            (themeTrace kind (kind.enter s path text) es) _ := ih
        refine Decides.imp hrest ?_
        rintro ⟨ht, hd⟩
        refine ⟨?_, hd⟩
        simp only [ht]
      | error reason =>
        have hrest : Decides (themeTrace kind r es) (themeTrace kind s es) _ := ih
        refine Decides.imp hrest ?_
        rintro ⟨ht, hd⟩
        refine ⟨ht, ?_⟩
        simp only [hd]

/-- **The trace misses no lookup**: a call whose lookups get the same answers from two registries
shows the same. -/
theorem Call.output_eq_of_answers (c : Call) (h : answers (c.trace r) = answers (c.trace s)) :
    (c.run r).output = (c.run s).output := by
  suffices hbody : Decides (c.body r) (c.body s) ((c.run r).output = (c.run s).output) by
    refine (hbody [] [] ?_).1
    rw [List.append_nil, List.append_nil]
    exact h
  unfold body Step.output
  cases hf : c.form with
  | style properties =>
    rw [run_of_style hf, run_of_style hf]
    exact (decides_styleTrace c.name properties).imp fun ⟨hd, hr⟩ => by rw [hd, hr]
  | entries properties =>
    rw [run_of_entries hf, run_of_entries hf]
    refine (decides_themeTrace c.kind c.name (themeEntries c.name properties)).imp ?_
    rintro ⟨ht, hd⟩
    simp only [runEntries, ht, hd]
  | rejected =>
    rw [run_of_rejected hf, run_of_rejected hf]
    exact .nil rfl

/-- The leaves that the trace of a contract or a theme shows with a text are those entered. -/
theorem filterMap_text_themeTrace (kind : Kind) (name : String) (r : Registry)
    (es : List ThemeEntry) :
    (themeTrace kind r es).filterMap Event.text? = (runTheme kind name r es).texts := by
  have hlook : ∀ (r : Registry) (v : Value), (v.lookups r).filterMap Event.text? = [] := by
    intro r v
    rw [List.filterMap_eq_nil_iff]
    intro e he
    obtain ⟨segments, rfl⟩ := v.onlyLookups r e he
    rfl
  induction es generalizing r with
  | nil => rfl
  | cons e es ih =>
    cases e with
    | report d => exact ih r
    | leaf path property value =>
      simp only [themeTrace, runTheme, List.filterMap_append, hlook, List.nil_append]
      cases (Value.ofExpr value).resolve r property with
      | ok text => exact congrArg ((path, text) :: ·) (ih (kind.enter r path text))
      | error reason => exact ih r

end StyleCompiler
