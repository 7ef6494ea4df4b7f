import StyleCompiler.Proofs.Name
import StyleCompiler.Proofs.Run

/-!
# Every property name in the output is normal

A name is normal if it has no capital, so that hyphenating it again changes nothing. All names of
rules come from two writers: the rules of a style, in its own body or in a group, are written under
hyphenated keys, and those of a contract or a theme under custom properties. So every declaration of
a compiled module has normal names only, also after later declarations took the place of earlier
ones.

* `rulesOf_normal`, `themeRules_normal`: both writers keep to normal names.
* `Call.run_normal`: a call yields a normal declaration, from whatever registry.
* `compiled_names_normal`: so does a module.
-/

namespace StyleCompiler

/-! ## Rule sets and groups -/

/-- All properties of the rule set have normal names. -/
def RuleSet.Normal (rules : RuleSet) : Prop := ∀ name ∈ rules.keys, StyleCompiler.Normal name

/-- All rule sets of the groups have normal names. -/
def Groups.Normal (groups : Groups) : Prop := ∀ rules ∈ groups.values, RuleSet.Normal rules

theorem Groups.normal_empty : Groups.Normal ∅ := fun _ h => absurd h List.not_mem_nil

theorem rulesOf_normal (r : Registry) (name : String) (es : List (String × Expr)) :
    RuleSet.Normal (rulesOf r name es) := by
  intro key hkey
  rw [rulesOf, OrderedMap.keys_ofList, List.mem_eraseDups] at hkey
  obtain ⟨rule, hrule, rfl⟩ := List.mem_map.mp hkey
  obtain ⟨e, -, he⟩ := List.mem_filterMap.mp hrule
  unfold ruleOf at he
  split at he
  · obtain rfl := Option.some.inj he
    exact normal_kebab e.1
  · cases he

theorem groupsOf_normal (r : Registry) (name : String) (value : Expr) :
    Groups.Normal (groupsOf r name value) := by
  unfold groupsOf
  split
  · intro rules hrules
    obtain ⟨group, hgroup, rfl⟩ := List.mem_map.mp hrules
    obtain ⟨e, -, he⟩ := List.mem_filterMap.mp (OrderedMap.mem_of_mem_ofList hgroup)
    unfold groupOf? at he
    split at he
    · obtain rfl := Option.some.inj he
      exact rulesOf_normal r name _
    · cases he
  · exact Groups.normal_empty

theorem groupsAt_normal (r : Registry) (name key : String) (es : List (String × Expr)) :
    Groups.Normal (groupsAt r name key es) := by
  unfold groupsAt
  split
  · exact groupsOf_normal r name _
  · exact Groups.normal_empty

/-! ## Declarations -/

/-- A declaration has normal names only, and one that is no style has no group and only custom
properties. -/
structure Declaration.Normal (d : Declaration) : Prop where
  rules : RuleSet.Normal d.rules
  selectors : Groups.Normal d.selectors
  media : Groups.Normal d.media
  custom : d.kind ≠ .style → d.selectors = ∅ ∧ d.media = ∅ ∧
    ∀ name ∈ d.rules.keys, "--".toList <+: name.toList

/-- The rules of a contract or a theme have normal names, which are custom properties. -/
theorem mem_keys_themeRules {texts : List (String × String)} {name : String}
    (h : name ∈ (themeRules texts).keys) : Normal name ∧ "--".toList <+: name.toList := by
  rw [themeRules, OrderedMap.keys_ofList, List.mem_eraseDups] at h
  obtain ⟨rule, hrule, rfl⟩ := List.mem_map.mp h
  obtain ⟨⟨path, text⟩, -, rfl⟩ := List.mem_map.mp hrule
  refine ⟨normal_customProperty path, ?_⟩
  show "--".toList <+: (customProperty path).toList
  rw [customProperty_eq, String.toList_append]
  exact List.prefix_append _ _

theorem styleOf_normal (r : Registry) (name : String) (properties : List Property) :
    (styleOf r name properties).Normal where
  rules := rulesOf_normal r name _
  selectors := groupsAt_normal r name selectorsKey _
  media := groupsAt_normal r name mediaKey _
  custom h := absurd rfl h

/-- A declaration with the rules of a contract or a theme and no group. -/
theorem themeRules_normal (name : String) (kind : Kind) (texts : List (String × String)) :
    Declaration.Normal { name, kind, rules := themeRules texts } where
  rules _ h := (mem_keys_themeRules h).1
  selectors := Groups.normal_empty
  media := Groups.normal_empty
  custom _ := ⟨rfl, rfl, fun _ h => (mem_keys_themeRules h).2⟩

/-- **A call yields a normal declaration**, from whatever registry. -/
theorem Call.run_normal (c : Call) (r : Registry) : (c.run r).declaration.Normal := by
  cases h : c.form with
  | style properties =>
    rw [run_of_style h]
    exact styleOf_normal r c.name properties
  | entries properties =>
    rw [run_of_entries h]
    exact themeRules_normal c.name c.kind _
  | rejected =>
    -- the empty declaration has the rules of no text
    rw [run_of_rejected h]
    exact themeRules_normal c.name c.kind []

/-! ## Modules -/

/-- Every declaration of a compiled module is that of a call, compiled from some registry. -/
theorem exists_run_of_mem_compile {options : Options} {m : Module} {d : Declaration}
    (h : d ∈ (compile options m).declarations) :
    ∃ c ∈ m.calls, ∃ r, d = (c.run r).declaration := by
  rw [compile_declarations] at h
  obtain ⟨⟨name, d⟩, hmem, rfl⟩ := List.mem_map.mp h
  obtain ⟨d', hd', heq⟩ := List.mem_map.mp (OrderedMap.mem_of_mem_ofList hmem)
  obtain ⟨-, rfl⟩ := Prod.mk.inj heq
  obtain ⟨step, hstep, rfl⟩ := List.mem_map.mp hd'
  obtain ⟨i, hi⟩ := List.getElem?_of_mem hstep
  rw [Module.steps, getElem?_runCalls] at hi
  obtain ⟨c, hc, rfl⟩ := Option.map_eq_some_iff.mp hi
  exact ⟨c, List.mem_of_getElem? hc, _, rfl⟩

/-- The property names of a declaration: in its rules, its selector groups and its media groups. -/
def Declaration.propertyNames (d : Declaration) : List String :=
  d.rules.keys ++ (d.selectors.values ++ d.media.values).flatMap OrderedMap.keys

theorem Declaration.Normal.propertyNames {d : Declaration} (h : d.Normal) {name : String}
    (hname : name ∈ d.propertyNames) : StyleCompiler.Normal name := by
  rcases List.mem_append.mp hname with hname | hname
  · exact h.rules name hname
  · obtain ⟨rules, hrules, hname⟩ := List.mem_flatMap.mp hname
    rcases List.mem_append.mp hrules with hrules | hrules
    · exact h.selectors rules hrules name hname
    · exact h.media rules hrules name hname

/-- **Every property name in the output is normal.** In the declarations of a compiled module, every
name of a property, in the rules, in a selector group or in a media group, has no capital and is a
fixed point of hyphenation. A contract or a theme has no group, and all its names start with two
hyphens. -/
theorem compiled_names_normal (options : Options) (m : Module) :
    ∀ d ∈ (compile options m).declarations,
      (∀ name ∈ d.propertyNames, (∀ c ∈ name.toList, isCapital c = false) ∧ kebab name = name) ∧
        (d.kind = .themeContract ∨ d.kind = .themeInstance →
          d.selectors = ∅ ∧ d.media = ∅ ∧
            ∀ name ∈ d.propertyNames, "--".toList <+: name.toList) := by
  intro d hd
  obtain ⟨c, -, r, rfl⟩ := exists_run_of_mem_compile hd
  have hnormal := c.run_normal r
  refine ⟨fun name hname => ?_, fun hkind => ?_⟩
  · have hname := hnormal.propertyNames hname
    exact ⟨hname, hname.kebab_eq⟩
  · have hstyle : (c.run r).declaration.kind ≠ .style := by
      rcases hkind with hkind | hkind <;> simp [hkind]
    obtain ⟨hselectors, hmedia, hcustom⟩ := hnormal.custom hstyle
    -- without groups, all names are those of the rules
    have hnames : (c.run r).declaration.propertyNames = (c.run r).declaration.rules.keys := by
      rw [Declaration.propertyNames, hselectors, hmedia]
      exact List.append_nil _
    rw [hnames]
    exact ⟨hselectors, hmedia, hcustom⟩

namespace Sample

/-- `badge = style({ fontSize: "1px", selectors: { "&:hover": { borderÉtat: "x" } } })`. -/
def badge : Call :=
  ⟨"badge", .style,
    [.plain (.object [entry "fontSize" (.str (some "1px")),
      entry "selectors" (.object [.keyValue (.str (some "&:hover"))
        (.object [entry "borderÉtat" (.str (some "x"))])])])]⟩

/-- `sizes = createThemeContract({ font: { bodyLarge: "" } })`. -/
def sizes : Call :=
  ⟨"sizes", .themeContract,
    [.plain (.object [entry "font" (.object [entry "bodyLarge" (.str (some ""))])])]⟩

/-- The module of the two. -/
def capitalsSource : Module :=
  ⟨[badge, sizes].map fun c => .exported (.vars .const [declarator c.name c.kind c.args])⟩

end Sample

/-- A name in a selector group, and one of a contract. -/
theorem compiled_names_normal_sample :
    (Sample.badge.run {}).declaration ∈ (compile default Sample.capitalsSource).declarations ∧
      "border-état" ∈ (Sample.badge.run {}).declaration.propertyNames ∧
      kebab "border-état" = "border-état" ∧
      (Sample.sizes.run {}).declaration ∈ (compile default Sample.capitalsSource).declarations ∧
      "--font-body-large" ∈ (Sample.sizes.run {}).declaration.propertyNames ∧
      "--".toList <+: "--font-body-large".toList := by
  have hbadge : (Sample.badge.run {}).declaration ∈
      (compile default Sample.capitalsSource).declarations := by decide +kernel
  have hsizes : (Sample.sizes.run {}).declaration ∈
      (compile default Sample.capitalsSource).declarations := by decide +kernel
  have hborder : "border-état" ∈ (Sample.badge.run {}).declaration.propertyNames := by
    decide +kernel
  have hfont : "--font-body-large" ∈ (Sample.sizes.run {}).declaration.propertyNames := by
    decide +kernel
  obtain ⟨hnormal, -⟩ := compiled_names_normal default Sample.capitalsSource _ hbadge
  obtain ⟨-, hcustom⟩ := compiled_names_normal default Sample.capitalsSource _ hsizes
  obtain ⟨-, -, hhyphens⟩ := hcustom (Or.inl rfl)
  exact ⟨hbadge, hborder, (hnormal _ hborder).2, hsizes, hfont, hhyphens _ hfont⟩

end StyleCompiler
