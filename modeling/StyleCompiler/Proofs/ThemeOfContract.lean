import StyleCompiler.Proofs.NonInterference
import StyleCompiler.Proofs.Stability

/-!
# A theme with the object literal of a contract

A contract and a theme go through an object literal in the same way and differ in what they do to
the registry. When a contract was silent, its object literal is a theme that says the same again:
every reference in it resolved when less was declared, so it resolves to the same text in any later
registry with the same names, and every path it lays a value over is declared.

* `leafPaths`: the paths that an object literal declares, whatever the registry.
* `value?_after_op`: after texts were entered, a variable has the last of its texts, and one without
  a text has the value it had.
* `mem_paths_runTheme`: a contract declares every path that has a text.
* `runTheme_replay`: the entries of a silent contract are silent in a theme and have the same texts.
* `theme_restores_contract`: hence the theme shows the rules of the contract and takes its variables
  back to what they were after the contract.
-/

namespace StyleCompiler

open Registry

variable {r s : Registry}

/-! ## The paths of an object literal -/

/-- The paths under one entry of an object literal. -/
def leafPathsAt (entry : String × Expr) : List String :=
  match Value.ofExpr entry.2 with
  | .object inner => (entries inner).map fun e => entry.1 ++ "." ++ e.1
  | _ => [entry.1]

/-- The paths that the object literal of a contract declares, in order. -/
def leafPaths (properties : List Property) : List String :=
  (entries properties).flatMap leafPathsAt

/-- The path of an entry that is a leaf. -/
def ThemeEntry.path? : ThemeEntry → Option String
  | .leaf path _ _ => some path
  | .report _ => none

theorem filterMap_path?_reports (ds : List Diagnostic) :
    (ds.map ThemeEntry.report).filterMap ThemeEntry.path? = [] := by
  rw [List.filterMap_map, List.filterMap_eq_nil_iff]
  exact fun _ _ => rfl

theorem filterMap_path?_themeEntriesAt (name : String) (entry : String × Expr) :
    (themeEntriesAt name entry).filterMap ThemeEntry.path? = leafPathsAt entry := by
  unfold themeEntriesAt leafPathsAt
  cases Value.ofExpr entry.2 with
  | object inner =>
    simp only [List.filterMap_append, filterMap_path?_reports, List.nil_append]
    rw [List.filterMap_map]
    exact congrFun List.filterMap_eq_map (entries inner)
  | text _ | number _ | null | reference _ | template _ | unsupported => rfl

/-- The leaves of an object literal have its paths. -/
theorem filterMap_path?_themeEntries (name : String) (properties : List Property) :
    (themeEntries name properties).filterMap ThemeEntry.path? = leafPaths properties := by
  unfold themeEntries leafPaths
  rw [List.filterMap_append, filterMap_path?_reports, List.nil_append, List.filterMap_flatMap]
  simp only [filterMap_path?_themeEntriesAt]

/-- Entries without a report have one text for every path. -/
theorem paths_texts_of_silent (kind : Kind) (name : String) {es : List ThemeEntry}
    (hsilent : (runTheme kind name r es).diagnostics = []) :
    (runTheme kind name r es).texts.map Prod.fst = es.filterMap ThemeEntry.path? := by
  induction es generalizing r with
  | nil => rfl
  | cons e es ih =>
    cases e with
    | report d => exact absurd hsilent (List.cons_ne_nil _ _)
    | leaf path property value =>
      simp only [runTheme] at hsilent ⊢
      split at hsilent
      · rename_i text hok
        rw [List.map_cons, ih hsilent]
        rfl
      · exact absurd hsilent (List.cons_ne_nil _ _)

/-! ## Values after texts were entered -/

/-- To enter a text is to give it to its variable, if a contract declares it or it is declared. -/
theorem Kind.value?_enter {kind : Kind} {path : String}
    (h : kind = .themeContract ∨ path ∈ r.paths) (text other : String) :
    (kind.enter r path text).value? other = if other = path then some text else r.value? other := by
  have hlay : path ∈ r.paths → (r.instantiate path text).1.value? other =
      if other = path then some text else r.value? other := by
    intro hmem
    simp only [value?_instantiate, hmem, and_true]
  cases kind with
  | themeContract => exact r.value?_declare path text other
  | style | themeInstance => exact hlay (h.resolve_left nofun)

/-- **The last text counts.** After texts were entered a variable has the last text with its path,
and the value it had if there is none. -/
theorem value?_after_op {kind : Kind} {texts : List (String × String)}
    (h : kind = .themeContract ∨ ∀ path ∈ texts.map Prod.fst, path ∈ r.paths) (other : String) :
    (r.after (texts.map kind.op)).value? other =
      ((OrderedMap.ofList texts).get? other).or (r.value? other) := by
  induction texts using List.reverseRecOn with
  | nil => rfl
  | append_singleton texts leaf ih =>
    obtain ⟨path, text⟩ := leaf
    have hbefore : kind = .themeContract ∨ ∀ path ∈ texts.map Prod.fst, path ∈ r.paths :=
      h.imp_right fun hpaths path hmem => hpaths path (by simp_all)
    -- no path is lost while the texts before the last one are entered
    have hlast : kind = .themeContract ∨ path ∈ (r.after (texts.map kind.op)).paths :=
      h.imp_right fun hpaths => (r.after_grows _).paths.subset (hpaths path (by simp))
    rw [List.map_append, List.map_singleton, after_append, after_cons, after_nil, kind.apply_op,
      kind.value?_enter hlast, ih hbefore, OrderedMap.ofList_concat]
    split
    · rename_i heq
      rw [heq, OrderedMap.get?_insert_self, Option.some_or]
    · rename_i hne
      rw [OrderedMap.get?_insert_of_ne _ _ hne]

section Entered

variable {kind : Kind} {name : String} {es : List ThemeEntry}
  (h : kind = .themeContract ∨
    ∀ path ∈ (runTheme kind name r es).texts.map Prod.fst, path ∈ r.paths)

include h

/-- A variable with a text has its last text, whatever it had before. -/
theorem value?_runTheme_of_mem {path : String}
    (hpath : path ∈ (runTheme kind name r es).texts.map Prod.fst) :
    (runTheme kind name r es).registry.value? path =
      (OrderedMap.ofList (runTheme kind name r es).texts).get? path := by
  obtain ⟨text, htext⟩ := Option.isSome_iff_exists.mp (OrderedMap.contains_ofList.mpr hpath)
  rw [registry_runTheme, value?_after_op h, htext, Option.some_or]

/-- A variable without a text keeps its value. -/
theorem value?_runTheme_of_notMem {path : String}
    (hpath : path ∉ (runTheme kind name r es).texts.map Prod.fst) :
    (runTheme kind name r es).registry.value? path = r.value? path := by
  have hnone : (OrderedMap.ofList (runTheme kind name r es).texts).get? path = none := by
    rw [← Option.not_isSome_iff_eq_none]
    exact fun hsome => hpath (OrderedMap.contains_ofList.mp hsome)
  rw [registry_runTheme, value?_after_op h, hnone, Option.none_or]

end Entered

/-- A contract declares every path that has a text. -/
theorem mem_paths_runTheme {name : String} {es : List ThemeEntry} {path : String}
    (h : path ∈ (runTheme .themeContract name r es).texts.map Prod.fst) :
    path ∈ (runTheme .themeContract name r es).registry.paths := by
  rw [← value?_isSome_iff, value?_runTheme_of_mem (Or.inl rfl) h]
  exact OrderedMap.contains_ofList.mpr h

/-! ## The entries once more -/

/-- **The entries of a silent contract are silent in a theme** and have the same texts there, if
the theme starts in a registry with the names that the contract left. -/
theorem runTheme_replay {f : String → String} (name name' : String) {es es' : List ThemeEntry}
    (h : List.Forall₂ (Simulation.ThemeAlike Eq f) es es')
    (hsilent : (runTheme .themeContract name r es).diagnostics = [])
    (hs : SameNames s (runTheme .themeContract name r es).registry) :
    (runTheme .themeInstance name' s es').texts = (runTheme .themeContract name r es).texts ∧
      (runTheme .themeInstance name' s es').diagnostics = [] := by
  induction h generalizing r s with
  | nil => exact ⟨rfl, rfl⟩
  | @cons _ _ es es' hentry _ ih =>
    cases hentry with
    | report => exact absurd hsilent (List.cons_ne_nil _ _)
    | @leaf path property e _ he =>
      subst he
      cases hok : (Value.ofExpr e).resolve r property with
      | error reason =>
        simp only [runTheme, hok] at hsilent
        exact absurd hsilent (List.cons_ne_nil _ _)
      | ok text =>
        simp only [runTheme, hok] at hsilent hs ⊢
        -- the registry grows from the leaf to the end of the contract and binds no name
        have hgrows : Grows r (runTheme .themeContract name
            (Kind.themeContract.enter r path text) es).registry := by
          rw [registry_runTheme, ← Kind.apply_op, ← after_cons]
          exact r.after_grows _
        have hkept : ∀ segments, RootKept r (runTheme .themeContract name
            (Kind.themeContract.enter r path text) es).registry segments := by
          intro segments root _ hbound
          rwa [isBinding, bindings_runTheme, Kind.bindings_enter] at hbound
        have hok' : (Value.ofExpr e).resolve s property = .ok text := by
          rw [hs.resolve]
          exact hgrows.resolve hkept hok
        obtain ⟨htexts, hdiagnostics⟩ :=
          ih hsilent ((sameNames_instantiate s path text).trans hs)
        simp only [hok']
        exact ⟨congrArg ((path, text) :: ·) htexts, hdiagnostics⟩

/-! ## Calls -/

/-- Styles and themes keep the names of the registry. -/
theorem registryAfter_sameNames_of_ne {calls : List Call}
    (h : ∀ c ∈ calls, c.kind ≠ .themeContract) (r : Registry) :
    SameNames (registryAfter r calls) r := by
  have hnone : contractsOf calls = [] := by
    rw [contractsOf, List.filter_eq_nil_iff]
    exact fun c hc hkind => h c hc (of_decide_eq_true hkind)
  have hcontracts := registryAfter_contracts calls r
  rwa [hnone, registryAfter_nil] at hcontracts

/-- What a theme does that takes the variables at `leaves` back to where a contract left them: it
is silent, shows the rules of the contract, keeps the names of the registry it starts in, and
changes no other value. -/
structure Step.Restores (theme contract : Step) (before : Registry) (leaves : List String) :
    Prop where
  diagnostics : theme.diagnostics = []
  rules : theme.declaration.rules = contract.declaration.rules
  paths : theme.registry.paths = before.paths
  bindings : theme.registry.bindings = before.bindings
  values : ∀ p ∈ leaves, theme.registry.value? p = contract.registry.value? p
  others : ∀ q, q ∉ leaves → theme.registry.value? q = before.value? q

/-- **A theme with the object literal of a silent contract restores the contract.** Any styles and
themes may stand between the two, and the registry before the contract is arbitrary. -/
theorem theme_restores_contract (r : Registry) (contract theme : Call) (between : List Call)
    (properties : List Property) (hcontract : contract.kind = .themeContract)
    (hproperties : contract.objectArg? = some properties)
    (hsilent : (contract.run r).diagnostics = [])
    (hbetween : ∀ c ∈ between, c.kind ≠ .themeContract)
    (htheme : theme.kind = .themeInstance) (hsame : theme.objectArg? = some properties) :
    (theme.run (registryAfter (contract.run r).registry between)).Restores (contract.run r)
      (registryAfter (contract.run r).registry between) (leafPaths properties) := by
  have hform : contract.form = .entries properties :=
    Call.form_eq_entries.mpr ⟨by simp [hcontract], hproperties⟩
  have hform' : theme.form = .entries properties :=
    Call.form_eq_entries.mpr ⟨by simp [htheme], hsame⟩
  have hne : theme.kind ≠ .themeContract := by simp [htheme]
  have hnames := registryAfter_sameNames_of_ne hbetween (contract.run r).registry
  generalize registryAfter (contract.run r).registry between = before at hnames ⊢
  have hkeeps := theme.run_sameNames hne before
  rw [Call.run_of_entries hform] at hsilent hnames ⊢
  rw [Call.run_of_entries hform', Call.start_of_ne hne] at hkeeps ⊢
  simp only [Call.runEntries, hcontract, htheme] at hsilent hnames hkeeps ⊢
  -- the entries of the two calls differ in the name that their reports would have
  have halike := Simulation.refl.themeEntries (fun _ => theme.name) contract.name
    (List.forall₂_same.mpr fun p (_ : p ∈ properties) => .refl p)
  obtain ⟨htexts, hquiet⟩ := runTheme_replay contract.name theme.name halike hsilent hnames
  have hleaves := (paths_texts_of_silent .themeContract contract.name hsilent).trans
    (filterMap_path?_themeEntries contract.name properties)
  have hdeclared : ∀ p ∈ (runTheme .themeInstance theme.name before
      (themeEntries theme.name properties)).texts.map Prod.fst, p ∈ before.paths := by
    rw [htexts, hnames.paths]
    exact fun p => mem_paths_runTheme
  refine ⟨hquiet, congrArg themeRules htexts, hkeeps.paths, hkeeps.bindings,
    fun p hp => ?_, fun q hq => ?_⟩
  · rw [← hleaves] at hp
    rw [value?_runTheme_of_mem (Or.inl rfl) hp, ← htexts]
    rw [← htexts] at hp
    exact value?_runTheme_of_mem (Or.inr hdeclared) hp
  · rw [← hleaves, ← htexts] at hq
    exact value?_runTheme_of_notMem (Or.inr hdeclared) hq

namespace Sample

/-- `{ color: { main: "red" }, "color.main": "blue", accent: vars.color.main }`, in which one path
stands twice and is referred to. -/
def shades : List Property :=
  [entry "color" (.object [entry "main" (.str (some "red"))]),
    .keyValue (.str (some "color.main")) (.str (some "blue")),
    entry "accent" (.member (varsDot "color") (.name "main"))]

/-- `vars = createThemeContract(shades)`. -/
def shadesContract : Call := ⟨"vars", .themeContract, [.plain (.object shades)]⟩

/-- `night = createTheme(vars, { color: { main: "black" }, accent: "grey" })`. -/
def night : Call :=
  ⟨"night", .themeInstance, [.plain (.ident "vars"), .plain (.object
    [entry "color" (.object [entry "main" (.str (some "black"))]),
      entry "accent" (.str (some "grey"))])]⟩

/-- `day = createTheme(vars, shades)`. -/
def day : Call := ⟨"day", .themeInstance, [.plain (.ident "vars"), .plain (.object shades)]⟩

/-- The registry between the theme `night` and the theme `day`. -/
def nightfall : Registry := registryAfter {} [shadesContract, night, card]

end Sample

/-- The theme `day` takes back what the theme `night` laid over the variables of the contract. -/
theorem theme_restores_contract_sample :
    (Sample.shadesContract.kind = .themeContract ∧
        Sample.shadesContract.objectArg? = some Sample.shades ∧
        (Sample.shadesContract.run {}).diagnostics = [] ∧
        (∀ c ∈ [Sample.night, Sample.card], c.kind ≠ .themeContract) ∧
        Sample.day.kind = .themeInstance ∧ Sample.day.objectArg? = some Sample.shades) ∧
      leafPaths Sample.shades = ["color.main", "color.main", "accent"] ∧
      ["color.main", "accent"].map Sample.nightfall.value? = [some "black", some "grey"] ∧
      ["color.main", "accent"].map (Sample.shadesContract.run {}).registry.value? =
        [some "blue", some "var(--color-main)"] ∧
      (Sample.day.run Sample.nightfall).Restores (Sample.shadesContract.run {}) Sample.nightfall
        (leafPaths Sample.shades) := by
  have hsilent : (Sample.shadesContract.run {}).diagnostics = [] := by decide +kernel
  have hbetween : ∀ c ∈ [Sample.night, Sample.card], c.kind ≠ .themeContract := by decide
  exact ⟨⟨rfl, rfl, hsilent, hbetween, rfl, rfl⟩, by decide +kernel, by decide +kernel,
    by decide +kernel,
    theme_restores_contract {} Sample.shadesContract Sample.day [Sample.night, Sample.card]
      Sample.shades rfl rfl hsilent hbetween rfl rfl⟩

end StyleCompiler
