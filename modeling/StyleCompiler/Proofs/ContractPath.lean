import Mathlib.Data.List.Infix
import StyleCompiler.Proofs.Reachable

/-!
# Which variables can be referred to

A contract declares the variable of a leaf at the path made of the leaf's keys. A reference means
the path made of its segments, less the name of a contract in front and less every segment that
speaks of a theme or a contract. The two ways to a path meet for every variable whose path does not
speak of these, and for no other: no word of the kind can hide across the dot that joins two
segments.

* `speaksOfContract_intercalate`: a joined path speaks of a contract iff a segment does.
* `exists_leafAt_of_mem_trace`: the paths declared are the joined keys of leaves.
* `referable_iff_silent`: which declared variables can be referred to, and how.
* `dropped_reference_resolves_iff`: a reference none of whose segments counts means the empty path,
  and resolves iff a contract has declared a variable there.
* `theme_resolves_to_empty_name`: such a reference, and the empty key that it finds.
-/

namespace StyleCompiler

/-! ## Words in paths -/

/-- The text has `theme` or `contract` in it, in whatever case. The letters of both words are the
lower case of ASCII letters alone, so other letters need not be lowered. -/
def SpeaksOfContract (text : String) : Prop :=
  ∃ word ∈ ["theme", "contract"], word.toList <:+: text.toList.map Char.toLower

theorem occursIn_iff {word cs : List Char} : occursIn word cs = true ↔ word <:+: cs := by
  induction cs with
  | nil => rw [occursIn, List.isEmpty_iff, List.infix_nil]
  | cons c cs ih =>
    rw [occursIn, Bool.or_eq_true, ih, List.isPrefixOf_iff_prefix, List.infix_cons_iff]

theorem namesContract_iff {segment : String} :
    namesContract segment = true ↔ SpeaksOfContract segment := by
  simp [namesContract, SpeaksOfContract, occursIn_iff]

instance (text : String) : Decidable (SpeaksOfContract text) :=
  decidable_of_iff _ namesContract_iff

/-- A word without the separator occurs on one of its sides. -/
theorem infix_append_cons_iff {sep : Char} {word left right : List Char} (hsep : sep ∉ word) :
    word <:+: left ++ sep :: right ↔ word <:+: left ∨ word <:+: right := by
  -- what starts at the separator has no character of the word
  have hstart : ∀ {part rest : List Char}, part <+: sep :: rest → part <:+ word → part = [] := by
    intro part rest hpart hword
    rcases List.prefix_cons_iff.mp hpart with rfl | ⟨tail, rfl, -⟩
    · rfl
    · exact absurd (hword.subset List.mem_cons_self) hsep
  constructor
  · intro h
    rcases List.infix_append_iff.mp h with h | h | ⟨first, second, rfl, hfirst, hsecond⟩
    · exact Or.inl h
    · rcases List.infix_cons_iff.mp h with h | h
      · rw [hstart h (List.suffix_refl word)]
        exact Or.inl (List.nil_infix)
      · exact Or.inr h
    · rw [hstart hsecond (List.suffix_append first second), List.append_nil]
      exact Or.inl hfirst.isInfix
  · rintro (h | h)
    · exact h.trans (List.prefix_append left _).isInfix
    · exact h.trans ((List.suffix_cons sep right).trans (List.suffix_append left _)).isInfix

theorem speaksOfContract_append_dot (s t : String) :
    SpeaksOfContract (s ++ "." ++ t) ↔ SpeaksOfContract s ∨ SpeaksOfContract t := by
  have hdot : ∀ word ∈ ["theme", "contract"], '.' ∉ word.toList := by decide
  have htext : (s ++ "." ++ t).toList.map Char.toLower =
      s.toList.map Char.toLower ++ '.' :: t.toList.map Char.toLower := by
    simp [String.toList_append]
  unfold SpeaksOfContract
  rw [htext]
  constructor
  · rintro ⟨word, hword, h⟩
    rcases (infix_append_cons_iff (hdot word hword)).mp h with h | h
    · exact Or.inl ⟨word, hword, h⟩
    · exact Or.inr ⟨word, hword, h⟩
  · rintro (⟨word, hword, h⟩ | ⟨word, hword, h⟩)
    · exact ⟨word, hword, (infix_append_cons_iff (hdot word hword)).mpr (Or.inl h)⟩
    · exact ⟨word, hword, (infix_append_cons_iff (hdot word hword)).mpr (Or.inr h)⟩

/-- **A joined path speaks of a contract iff a segment does.** -/
theorem speaksOfContract_intercalate (segments : List String) :
    SpeaksOfContract (".".intercalate segments) ↔ ∃ s ∈ segments, SpeaksOfContract s := by
  induction segments with
  | nil => simp [SpeaksOfContract]
  | cons s segments ih =>
    cases segments with
    | nil => simp
    | cons t segments =>
      rw [String.intercalate_cons_cons, speaksOfContract_append_dot, ih]
      simp only [List.mem_cons, exists_eq_or_imp]

/-! ## The path of a reference -/

/-- No path that a reference means speaks of a contract. -/
theorem Registry.not_speaksOfContract_contractPath (r : Registry) (segments : List String) :
    ¬ SpeaksOfContract (r.contractPath segments) := by
  rw [contractPath, speaksOfContract_intercalate]
  rintro ⟨s, hs, hspeaks⟩
  have hkept := (List.mem_filter.mp hs).2
  rw [namesContract_iff.mpr hspeaks] at hkept
  cases hkept

/-- A reference that starts with the name of a contract means the path of its other segments, if
this does not speak of a contract. -/
theorem Registry.contractPath_of_binding {r : Registry} {root : String} {keys : List String}
    (hroot : r.isBinding root = true) (hsilent : ¬ SpeaksOfContract (".".intercalate keys)) :
    r.contractPath (root :: keys) = ".".intercalate keys := by
  have hkeep : keys.filter (fun segment => !namesContract segment) = keys := by
    rw [List.filter_eq_self]
    intro key hkey
    rw [Bool.not_eq_true', Bool.eq_false_iff]
    intro hnames
    exact hsilent ((speaksOfContract_intercalate keys).mpr ⟨key, hkey, namesContract_iff.mp hnames⟩)
  rw [contractPath, dropBinding, if_pos hroot, hkeep]

/-- No segment counts: each is the name of a contract at the root, or speaks of a contract. -/
def Registry.DropsAll (r : Registry) (segments : List String) : Prop :=
  ∀ i segment, segments[i]? = some segment →
    (i = 0 ∧ r.isBinding segment = true) ∨ SpeaksOfContract segment

/-- A reference none of whose segments counts means the empty path. -/
theorem Registry.DropsAll.contractPath_eq {r : Registry} {segments : List String}
    (h : r.DropsAll segments) : r.contractPath segments = "" := by
  have hnames : ∀ s ∈ r.dropBinding segments, SpeaksOfContract s := by
    cases segments with
    | nil => exact fun _ hs => absurd hs List.not_mem_nil
    | cons root rest =>
      have hrest : ∀ s ∈ rest, SpeaksOfContract s := by
        intro s hs
        obtain ⟨i, hi⟩ := List.getElem?_of_mem hs
        exact (h (i + 1) s hi).resolve_left fun hroot => Nat.succ_ne_zero i hroot.1
      rw [dropBinding]
      split_ifs with hroot
      · exact hrest
      · refine List.forall_mem_cons.mpr ⟨?_, hrest⟩
        exact (h 0 root rfl).resolve_left fun hbound => hroot hbound.2
  have hnone : (r.dropBinding segments).filter (fun segment => !namesContract segment) = [] := by
    rw [List.filter_eq_nil_iff]
    intro s hs
    rw [namesContract_iff.mpr (hnames s hs)]
    decide
  rw [contractPath, hnone]
  rfl

/-! ## The path of a declaration -/

/-- The leaves of the object literal of a contract or a theme, by the keys that lead to them: an
entry whose value is no object literal, or an entry of an object literal one level down. -/
inductive LeafAt (properties : List Property) : List String → Expr → Prop
  | own {key : String} {value : Expr} : (key, value) ∈ entries properties →
      (∀ inner, Value.ofExpr value ≠ .object inner) → LeafAt properties [key] value
  | nested {key innerKey : String} {value leaf : Expr} {inner : List Property} :
      (key, value) ∈ entries properties → Value.ofExpr value = .object inner →
        (innerKey, leaf) ∈ entries inner → LeafAt properties [key, innerKey] leaf

/-- The path of an entry is made of the keys of a leaf. -/
theorem exists_leafAt_of_mem_themeEntries {name path property : String} {value : Expr}
    {properties : List Property} (h : .leaf path property value ∈ themeEntries name properties) :
    ∃ keys, LeafAt properties keys value ∧ ".".intercalate keys = path := by
  rcases List.mem_append.mp h with h | h
  · obtain ⟨_, -, hd⟩ := List.mem_map.mp h
    cases hd
  obtain ⟨⟨key, outer⟩, hentry, h⟩ := List.mem_flatMap.mp h
  unfold themeEntriesAt at h
  split at h
  · rename_i inner hinner
    rcases List.mem_append.mp h with h | h
    · obtain ⟨_, -, hd⟩ := List.mem_map.mp h
      cases hd
    · obtain ⟨⟨innerKey, leaf⟩, hleaf, heq⟩ := List.mem_map.mp h
      obtain ⟨rfl, rfl, rfl⟩ := ThemeEntry.leaf.inj heq
      exact ⟨[key, innerKey], .nested hentry hinner hleaf, rfl⟩
  · rename_i hnot
    obtain ⟨rfl, rfl, rfl⟩ := ThemeEntry.leaf.inj (List.mem_singleton.mp h)
    exact ⟨[_], .own hentry hnot, rfl⟩

/-- **The paths in the trace of a call are the joined keys of leaves** of its object literal. -/
theorem exists_leafAt_of_mem_trace {c : Call} {r : Registry} {kind : Kind} {path : String}
    {outcome : Except SkipReason String} (h : .leaf kind path outcome ∈ c.trace r) :
    ∃ properties keys value, c.form = .entries properties ∧ LeafAt properties keys value ∧
      ".".intercalate keys = path := by
  obtain ⟨properties, hform, hleaf⟩ := Call.exists_entries_of_leaf h
  obtain ⟨-, property, value, hentry⟩ := leaf_mem_themeTrace hleaf
  obtain ⟨keys, hkeys, hpath⟩ := exists_leafAt_of_mem_themeEntries hentry
  exact ⟨properties, keys, value, hform, hkeys, hpath⟩

/-! ## References to declared variables -/

/-- What a run declared before a call is declared in every registry that the call reaches. -/
theorem mem_paths_of_reaches {calls : List Call} {c : Call} {r : Registry} {es : List Event}
    {path : String} (hpath : path ∈ declaredPaths (traceCalls {} calls))
    (h : c.Reaches (registryAfter {} calls) es r) : path ∈ r.paths := by
  have hreflects := h.reflects (traceCalls_leads calls reflects_nil).reflects
  rw [hreflects.paths, List.mem_eraseDups, declaredPaths, List.filterMap_append]
  exact List.mem_append_left _ hpath

/-- The name of a contract that was begun before a call is bound in every registry that the call
reaches. -/
theorem isBinding_of_reaches {calls : List Call} {c d : Call} {r : Registry} {es : List Event}
    (hc : c ∈ calls) (hk : c.kind = .themeContract) (h : d.Reaches (registryAfter {} calls) es r) :
    r.isBinding c.name = true := by
  have hbound : (registryAfter {} calls).isBinding c.name = true :=
    (isBinding_registryAfter {} calls c.name).mpr (Or.inr ⟨c, hc, hk, rfl⟩)
  have hbefore := (traceCalls_leads calls reflects_nil).reflects
  rw [(h.reflects hbefore).bindings, boundNames, List.filterMap_append]
  exact List.mem_append_left _ ((hbefore.bindings c.name).mp hbound)

/-- **A declared variable can be referred to iff its path does not speak of a contract.** Let a
contract of a module declare a path: the joined keys of a leaf of its object literal. If the path
does not speak of a theme or a contract, then in every later call the name of the contract followed
by these keys, or by any other segments that join to the path, resolves to the variable. If it does,
then no reference means the path, whatever its segments and in whatever registry. -/
theorem referable_iff_silent (m : Module) (before : List Call) (c : Call) (path text : String)
    (hleaf : .leaf .themeContract path (.ok text) ∈ c.trace (registryAfter {} before)) :
    (∃ properties keys value, c.form = .entries properties ∧ LeafAt properties keys value ∧
      ".".intercalate keys = path) ∧
      (¬ SpeaksOfContract path →
        ∀ (between later : List Call) (d : Call),
          m.calls = before ++ c :: between ++ d :: later →
            ∀ (es : List Event) (r : Registry),
              d.Reaches (registryAfter {} (before ++ c :: between)) es r →
                ∀ keys, ".".intercalate keys = path →
                  r.reference (c.name :: keys) = .ok (varReference path)) ∧
      (SpeaksOfContract path →
        ∀ (r : Registry) (segments : List String), r.contractPath segments ≠ path) := by
  refine ⟨exists_leafAt_of_mem_trace hleaf, ?_, ?_⟩
  · intro hsilent between later d _ es r hreach keys hkeys
    have hkind : c.kind = .themeContract := (c.rules_contains_of_leaf hleaf).1
    have hbinding := isBinding_of_reaches (by simp) hkind hreach
    have hdeclared : path ∈ declaredPaths (traceCalls {} (before ++ c :: between)) := by
      rw [mem_declaredPaths, traceCalls_append]
      exact ⟨text, List.mem_append_right _ (List.mem_append_left _ hleaf)⟩
    have hmem := mem_paths_of_reaches hdeclared hreach
    have hpath : r.contractPath (c.name :: keys) = path := by
      rw [← hkeys] at hsilent ⊢
      exact Registry.contractPath_of_binding hbinding hsilent
    rw [Registry.reference_eq, hpath, if_pos hmem]
  · intro hspeaks r segments hpath
    rw [← hpath] at hspeaks
    exact r.not_speaksOfContract_contractPath segments hspeaks

namespace Sample

/-- `vars = createThemeContract({ space: { small: "4px" }, themeColor: "" })`. -/
def palette : Call :=
  ⟨"vars", .themeContract,
    [.plain (.object [entry "space" (.object [entry "small" (.str (some "4px"))]),
      entry "themeColor" (.str (some ""))])]⟩

/-- `box = style({ margin: vars.space.small })`. -/
def box : Call :=
  ⟨"box", .style,
    [.plain (.object [entry "margin" (.member (varsDot "space") (.name "small"))])]⟩

/-- The module of the two. -/
def paletteSource : Module :=
  ⟨[palette, box].map fun c => .exported (.vars .const [declarator c.name c.kind c.args])⟩

end Sample

/-- The nested variable of the sample is found in the style after it; the other can never be
referred to. -/
theorem referable_iff_silent_sample :
    .leaf .themeContract "space.small" (.ok "4px") ∈ Sample.palette.trace {} ∧
      ¬ SpeaksOfContract "space.small" ∧
      (registryAfter {} [Sample.palette]).reference ["vars", "space", "small"] =
        .ok (varReference "space.small") ∧
      .leaf .themeContract "themeColor" (.ok "") ∈ Sample.palette.trace {} ∧
      SpeaksOfContract "themeColor" ∧
      ∀ (r : Registry) (segments : List String), r.contractPath segments ≠ "themeColor" := by
  have hsmall : .leaf .themeContract "space.small" (.ok "4px") ∈ Sample.palette.trace {} :=
    List.mem_of_getElem? (i := 1) rfl
  have htheme : .leaf .themeContract "themeColor" (.ok "") ∈ Sample.palette.trace {} :=
    List.mem_of_getElem? (i := 2) rfl
  have hsilent : ¬ SpeaksOfContract "space.small" := by decide
  have hspeaks : SpeaksOfContract "themeColor" := by decide
  obtain ⟨-, hfound, -⟩ :=
    referable_iff_silent Sample.paletteSource [] Sample.palette _ _ hsmall
  obtain ⟨-, -, hnever⟩ :=
    referable_iff_silent Sample.paletteSource [] Sample.palette _ _ htheme
  exact ⟨hsmall, hsilent,
    hfound hsilent [] [] Sample.box rfl _ _ .begun ["space", "small"] rfl,
    htheme, hspeaks, hnever hspeaks⟩

/-! ## References that name nothing -/

/-- Keys that join to the empty path are one empty key. -/
theorem LeafAt.exists_empty_key {properties : List Property} {keys : List String} {value : Expr}
    (h : LeafAt properties keys value) (hempty : ".".intercalate keys = "") :
    ∃ v, ("", v) ∈ entries properties := by
  cases h with
  | @own key value hentry _ =>
    obtain rfl : key = "" := hempty
    exact ⟨value, hentry⟩
  | @nested key innerKey =>
    have hjoined : key ++ "." ++ innerKey = "" := hempty
    rw [String.append_eq_empty_iff, String.append_eq_empty_iff] at hjoined
    exact absurd hjoined.1.2 (by decide)

/-- **A reference none of whose segments counts** means the empty path. In every registry that the
compilation of a module reaches, it resolves iff a contract has declared a variable there, and is
reported as unresolved if not. So in a module none of whose contracts has an entry with an empty
key, no such reference ever resolves. -/
theorem dropped_reference_resolves_iff (m : Module) :
    (∀ (es : List Event) (r : Registry) (segments : List String), m.Reaches es r →
      r.DropsAll segments →
        (r.reference segments = .ok "var(--)" ↔
          ∃ text, .leaf .themeContract "" (.ok text) ∈ es) ∧
          (r.reference segments = .error (.unresolved "") ↔
            ¬ ∃ text, .leaf .themeContract "" (.ok text) ∈ es)) ∧
      ((∀ c ∈ m.calls, c.kind = .themeContract → ∀ properties value,
          c.objectArg? = some properties → ("", value) ∉ entries properties) →
        ∀ (r : Registry) (segments : List String), .lookup r segments ∈ m.trace →
          r.DropsAll segments → r.reference segments = .error (.unresolved "")) := by
  have hexact : ∀ (es : List Event) (r : Registry) (segments : List String), m.Reaches es r →
      r.DropsAll segments → r.reference segments =
        if "" ∈ declaredPaths es then .ok "var(--)" else .error (.unresolved "") := by
    intro es r segments hreach hdrop
    rw [hreach.reflects.reference_eq, hdrop.contractPath_eq]
    rfl
  refine ⟨fun es r segments hreach hdrop => ?_, fun hkeys r segments hlookup hdrop => ?_⟩
  · rw [← mem_declaredPaths, hexact es r segments hreach hdrop]
    split_ifs with hmem
    · exact ⟨iff_of_true rfl hmem, iff_of_false (by simp) (not_not_intro hmem)⟩
    · exact ⟨iff_of_false (by simp) hmem, iff_of_true rfl hmem⟩
  · obtain ⟨es, hreach⟩ := Module.reaches_of_lookup hlookup
    rw [hexact es r segments hreach hdrop, if_neg]
    -- a leaf at the empty path would be an entry with an empty key
    intro hmem
    obtain ⟨text, hleaf⟩ := mem_declaredPaths.mp hmem
    obtain ⟨before, c, after, hcalls, hc⟩ :=
      exists_call_of_mem_traceCalls (hreach.prefix_trace.subset hleaf)
    obtain ⟨properties, keys, value, hform, hat, hempty⟩ := exists_leafAt_of_mem_trace hc
    obtain ⟨v, hentry⟩ := hat.exists_empty_key hempty
    exact hkeys c (by simp [hcalls]) (c.rules_contains_of_leaf hc).1 properties v
      (Call.form_eq_entries.mp hform).2 hentry

namespace Sample

/-- `vars = createThemeContract({ "": "x" })`. -/
def emptyKey : Call :=
  ⟨"vars", .themeContract,
    [.plain (.object [.keyValue (.str (some "")) (.str (some "x"))])]⟩

/-- `box = style({ color: vars.theme })`. -/
def themed : Call := ⟨"box", .style, [.plain (.object [entry "color" (varsDot "theme")])]⟩

/-- The module of the two. -/
def emptyKeySource : Module :=
  ⟨[emptyKey, themed].map fun c => .stmt (.vars .const [declarator c.name c.kind c.args])⟩

/-- The module of a contract without an empty key and the same style. -/
def themedSource : Module :=
  ⟨[contract, themed].map fun c => .stmt (.vars .const [declarator c.name c.kind c.args])⟩

theorem dropsAll_theme {r : Registry} (h : r.isBinding "vars" = true) :
    r.DropsAll ["vars", "theme"] := by
  intro i segment hsegment
  match i, hsegment with
  | 0, hsegment =>
    obtain rfl := Option.some.inj hsegment
    exact Or.inl ⟨rfl, h⟩
  | 1, hsegment =>
    obtain rfl := Option.some.inj hsegment
    exact Or.inr (by decide)

end Sample

/-- **A reference that names nothing may resolve.** Of `vars.theme` no segment counts. After a
contract with an empty key it resolves, and its text is in the output. -/
theorem theme_resolves_to_empty_name :
    (registryAfter {} [Sample.emptyKey]).DropsAll ["vars", "theme"] ∧
      (registryAfter {} [Sample.emptyKey]).reference ["vars", "theme"] = .ok "var(--)" ∧
      (compile default Sample.emptyKeySource).declarations.map (fun d => d.rules.entries) =
        [[("--", "x")], [("color", "var(--)")]] ∧
      (compile default Sample.emptyKeySource).diagnostics = [] :=
  ⟨Sample.dropsAll_theme (by decide +kernel), by decide +kernel, by decide +kernel,
    by decide +kernel⟩

/-- The same style after a contract with an empty key and after one without. -/
theorem dropped_reference_resolves_iff_sample :
    Sample.emptyKeySource.Reaches (traceCalls {} [Sample.emptyKey] ++ [.begun "box" .style])
        (registryAfter {} [Sample.emptyKey]) ∧
      (registryAfter {} [Sample.emptyKey]).DropsAll ["vars", "theme"] ∧
      (registryAfter {} [Sample.emptyKey]).reference ["vars", "theme"] = .ok "var(--)" ∧
      .lookup (registryAfter {} [Sample.contract]) ["vars", "theme"] ∈ Sample.themedSource.trace ∧
      (registryAfter {} [Sample.contract]).DropsAll ["vars", "theme"] ∧
      (registryAfter {} [Sample.contract]).reference ["vars", "theme"] =
        .error (.unresolved "") := by
  have hreach : Sample.emptyKeySource.Reaches
      (traceCalls {} [Sample.emptyKey] ++ [.begun "box" .style])
      (registryAfter {} [Sample.emptyKey]) :=
    @Module.Reaches.call Sample.emptyKeySource [Sample.emptyKey] [] Sample.themed _ _ rfl .begun
  have hleaf : .leaf .themeContract "" (.ok "x") ∈
      traceCalls {} [Sample.emptyKey] ++ [.begun "box" .style] :=
    List.mem_of_getElem? (i := 1) rfl
  have hdrop := Sample.dropsAll_theme (r := registryAfter {} [Sample.emptyKey]) (by decide +kernel)
  have hlookup : .lookup (registryAfter {} [Sample.contract]) ["vars", "theme"] ∈
      Sample.themedSource.trace := List.mem_of_getElem? (i := 5) rfl
  have hdrop' := Sample.dropsAll_theme (r := registryAfter {} [Sample.contract]) (by decide +kernel)
  have hkeys : ∀ c ∈ Sample.themedSource.calls, c.kind = .themeContract → ∀ properties value,
      c.objectArg? = some properties → ("", value) ∉ entries properties := by
    intro c hc hk properties value hobject hentry
    have hcalls : Sample.themedSource.calls = [Sample.contract, Sample.themed] := rfl
    rw [hcalls, List.mem_cons, List.mem_singleton] at hc
    rcases hc with rfl | rfl
    · obtain rfl := Option.some.inj hobject
      simp [entries, Sample.entry, Property.entry, Key.text?, Except.toOption] at hentry
    · cases hk
  exact ⟨hreach, hdrop,
    ((dropped_reference_resolves_iff Sample.emptyKeySource).1 _ _ _ hreach hdrop).1.mpr ⟨_, hleaf⟩,
    hlookup, hdrop',
    (dropped_reference_resolves_iff Sample.themedSource).2 hkeys _ _ hlookup hdrop'⟩

end StyleCompiler
