import Mathlib.Data.Finset.Card
import StyleCompiler.Proofs.Name
import StyleCompiler.Proofs.VariablesInOutput

/-!
# Paths that share a variable

Variables are declared by path, but the stylesheet names them by the spelling of the path, and
distinct paths can have one spelling: `fontSize` and `font-size`, or `a.b` and `a-b`. Such paths
share a variable: references to them have the same text, and a contract that declares both has one
rule for the two, with the text of the later one. Paths with different spellings never meet.

* `Call.rules_eq_themeRules`: the rules of a contract, read off the leaves in its trace.
* `size_themeRules`, `get?_themeRules`: one rule for each spelling, with the last text given.
* `fontSize_shares_variable`: two paths of one contract that share a variable.
* `shared_iff_same_spelling`: declared paths share a variable iff they have the same spelling.
-/

namespace StyleCompiler

/-! ## The leaves of a contract -/

/-- The paths and texts of the leaves that have a text, in order. -/
def textLeaves (es : List Event) : List (String × String) := es.filterMap Event.text?

/-- The leaves in the trace of a call are of its kind. -/
theorem Call.kind_of_leaf_mem_trace {c : Call} {r : Registry} {kind : Kind} {path : String}
    {outcome : Except SkipReason String} (h : .leaf kind path outcome ∈ c.trace r) :
    kind = c.kind := by
  obtain ⟨properties, -, hleaf⟩ := exists_entries_of_leaf h
  exact (leaf_mem_themeTrace hleaf).1

/-- A contract declares the paths of its leaves that have a text. -/
theorem Call.declaredPaths_trace {c : Call} (hk : c.kind = .themeContract) (r : Registry) :
    declaredPaths (c.trace r) = (textLeaves (c.trace r)).map Prod.fst := by
  unfold declaredPaths textLeaves
  rw [List.map_filterMap]
  refine List.filterMap_congr fun e he => ?_
  cases e with
  | begun name kind => cases kind <;> rfl
  | lookup registry segments => rfl
  | leaf kind path outcome =>
    obtain rfl : kind = .themeContract := (Call.kind_of_leaf_mem_trace he).trans hk
    cases outcome <;> rfl

/-- **The rules of a contract** are those of the leaves in its trace. -/
theorem Call.rules_eq_themeRules {c : Call} (hk : c.kind = .themeContract) (r : Registry) :
    (c.run r).declaration.rules = themeRules (textLeaves (c.trace r)) := by
  unfold textLeaves trace body
  cases hf : c.form with
  | style properties =>
    have hstyle := (form_eq_style.mp hf).1
    rw [hk] at hstyle
    cases hstyle
  | entries properties =>
    rw [run_of_entries hf, List.filterMap_cons_none rfl, filterMap_text_themeTrace _ c.name]
    rfl
  | rejected =>
    rw [run_of_rejected hf]
    rfl

/-! ## One rule for each spelling -/

/-- The rule at the custom property of a path has the last text given for its spelling. -/
theorem get?_themeRules (texts : List (String × String)) (path : String) :
    (themeRules texts).get? (customProperty path) =
      ((texts.filter fun l => spelling l.1 = spelling path).getLast?).map Prod.snd := by
  unfold themeRules
  rw [OrderedMap.get?_ofList, List.filter_map, List.getLast?_map, Option.map_map]
  simp only [Function.comp_def, customProperty_inj]

/-- There are as many rules as the paths have spellings. -/
theorem size_themeRules (texts : List (String × String)) :
    (themeRules texts).size = ((texts.map Prod.fst).toFinset.image spelling).card := by
  have hkeys : (themeRules texts).keys.toFinset =
      ((texts.map Prod.fst).toFinset.image spelling).image ("--" ++ ·) := by
    ext key
    unfold themeRules
    rw [OrderedMap.keys_ofList]
    simp [customProperty_eq]
  have hinj : Function.Injective fun s : String => "--" ++ s :=
    fun s t h => (String.append_right_inj "--").mp h
  calc (themeRules texts).size = (themeRules texts).keys.length :=
      (themeRules texts).size_eq_length_keys
    _ = (themeRules texts).keys.toFinset.card :=
      (List.toFinset_card_of_nodup (themeRules texts).nodup).symm
    _ = ((texts.map Prod.fst).toFinset.image spelling).card := by
      rw [hkeys, Finset.card_image_of_injective _ hinj]

/-! ## Shared variables -/

namespace Sample

/-- `vars = createThemeContract({ fontSize: "1px", "font-size": "2px" })`. -/
def twoSpellings : Call :=
  ⟨"vars", .themeContract,
    [.plain (.object [entry "fontSize" (.str (some "1px")),
      .keyValue (.str (some "font-size")) (.str (some "2px"))])]⟩

/-- The module of this contract. -/
def twoSpellingsSource : Module :=
  ⟨[.stmt (.vars .const [declarator "vars" .themeContract twoSpellings.args])]⟩

end Sample

/-- **Distinct paths may share a variable.** The contract declares two paths, and references to
both resolve to the same text. It has one rule, in which the first text was overwritten. -/
theorem fontSize_shares_variable :
    (registryAfter {} Sample.twoSpellingsSource.calls).paths = ["fontSize", "font-size"] ∧
      "fontSize" ≠ "font-size" ∧
      (registryAfter {} Sample.twoSpellingsSource.calls).resolve? "fontSize" =
        some "var(--font-size)" ∧
      (registryAfter {} Sample.twoSpellingsSource.calls).resolve? "font-size" =
        some "var(--font-size)" ∧
      (compile default Sample.twoSpellingsSource).declarations.map (fun d => d.rules.entries) =
        [[("--font-size", "2px")]] := by
  decide +kernel

/-- **Declared paths share a variable iff they have the same spelling.** After all calls of a
module, two declared paths resolve to the same text iff they have the same spelling. A contract has
one rule for each spelling of the paths it declares, so one for each path iff no two of them have
the same spelling, and a rule has the text of the last leaf with its spelling. -/
theorem shared_iff_same_spelling :
    (∀ (m : Module) (p q : String), p ∈ (registryAfter {} m.calls).paths →
      q ∈ (registryAfter {} m.calls).paths →
        ((registryAfter {} m.calls).resolve? p = (registryAfter {} m.calls).resolve? q ↔
          spelling p = spelling q)) ∧
      ∀ (c : Call) (r : Registry), c.kind = .themeContract →
        (c.run r).declaration.rules.size =
            ((declaredPaths (c.trace r)).toFinset.image spelling).card ∧
          ((c.run r).declaration.rules.size = (declaredPaths (c.trace r)).toFinset.card ↔
            ∀ p ∈ declaredPaths (c.trace r), ∀ q ∈ declaredPaths (c.trace r),
              spelling p = spelling q → p = q) ∧
          ∀ path, (c.run r).declaration.rules.get? (customProperty path) =
            (((textLeaves (c.trace r)).filter fun l =>
              spelling l.1 = spelling path).getLast?).map Prod.snd := by
  refine ⟨fun m p q hp hq => ?_, fun c r hk => ?_⟩
  · rw [Registry.resolve?_eq, Registry.resolve?_eq, if_pos hp, if_pos hq, Option.some.injEq,
      varReference_inj]
  · have hsize : (c.run r).declaration.rules.size =
        ((declaredPaths (c.trace r)).toFinset.image spelling).card := by
      rw [Call.rules_eq_themeRules hk, size_themeRules, Call.declaredPaths_trace hk]
    refine ⟨hsize, ?_, fun path => ?_⟩
    · rw [hsize, Finset.card_image_iff]
      simp only [Set.InjOn, Finset.mem_coe, List.mem_toFinset]
    · rw [Call.rules_eq_themeRules hk, get?_themeRules]

/-- The two paths of the contract above, and the one rule for both. -/
theorem shared_iff_same_spelling_fontSize :
    "fontSize" ∈ (registryAfter {} Sample.twoSpellingsSource.calls).paths ∧
      "font-size" ∈ (registryAfter {} Sample.twoSpellingsSource.calls).paths ∧
      ((registryAfter {} Sample.twoSpellingsSource.calls).resolve? "fontSize" =
          (registryAfter {} Sample.twoSpellingsSource.calls).resolve? "font-size" ↔
        spelling "fontSize" = spelling "font-size") ∧
      Sample.twoSpellings.kind = .themeContract ∧
      (Sample.twoSpellings.run {}).declaration.rules.size =
        ((declaredPaths (Sample.twoSpellings.trace {})).toFinset.image spelling).card := by
  have hp : "fontSize" ∈ (registryAfter {} Sample.twoSpellingsSource.calls).paths := by
    decide +kernel
  have hq : "font-size" ∈ (registryAfter {} Sample.twoSpellingsSource.calls).paths := by
    decide +kernel
  exact ⟨hp, hq, shared_iff_same_spelling.1 _ _ _ hp hq, rfl,
    (shared_iff_same_spelling.2 Sample.twoSpellings {} rfl).1⟩

end StyleCompiler
