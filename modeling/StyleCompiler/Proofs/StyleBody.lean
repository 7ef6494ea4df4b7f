import StyleCompiler.Proofs.Simulation

/-!
# A style body in its three places

An object literal of properties may be the whole of a style, a selector group of one, or a media
group of one. A style looks at its entries for the reserved keys `selectors` and `@media`, a group
does not. Apart from these keys a body means the same in all three places.

* `Plain`: an object literal without a reserved key.
* `styleOf_plain`, `styleReports_plain`: a plain style has no group, and its rules and reports are
  those of its body.
* `groupOf?_plain`, `groupReports_plain`: so are those of a group with a plain body.
* `groupsOf_oneGroup`, `groupsReports_oneGroup`: groups of which there is one.
* `style_body_same_in_groups`: the three styles compared.
-/

namespace StyleCompiler

/-! ## Plain bodies -/

/-- No entry of the object literal has a reserved key. -/
def Plain (properties : List Property) : Prop :=
  ∀ entry ∈ entries properties, entry.1 ≠ selectorsKey ∧ entry.1 ≠ mediaKey

instance (properties : List Property) : Decidable (Plain properties) :=
  inferInstanceAs (Decidable (∀ entry ∈ entries properties,
    entry.1 ≠ selectorsKey ∧ entry.1 ≠ mediaKey))

section Plain

variable {properties : List Property} (hplain : Plain properties) (r : Registry) (name : String)

include hplain

theorem Plain.isGroupsKey {entry : String × Expr} (hentry : entry ∈ entries properties) :
    isGroupsKey entry.1 = false := by
  obtain ⟨hselectors, hmedia⟩ := hplain entry hentry
  simp [StyleCompiler.isGroupsKey, hselectors, hmedia]

theorem groupsAt_plain {key : String} (hkey : isGroupsKey key = true) :
    groupsAt r name key (entries properties) = ∅ := by
  have hnone : (entries properties).filter (fun e => e.1 = key) = [] := by
    rw [List.filter_eq_nil_iff]
    intro entry hentry heq
    rw [← of_decide_eq_true heq, hplain.isGroupsKey hentry] at hkey
    exact Bool.false_ne_true hkey
  unfold groupsAt
  rw [hnone]
  rfl

/-- **A plain style has the rules of its body** and no group. -/
theorem styleOf_plain :
    styleOf r name properties =
      { name, kind := .style, rules := rulesOf r name (entries properties) } := by
  have hrules : (entries properties).filter (fun e => !isGroupsKey e.1) = entries properties := by
    rw [List.filter_eq_self]
    intro entry hentry
    rw [hplain.isGroupsKey hentry, Bool.not_false]
  have hselectors : isGroupsKey selectorsKey = true := by decide
  have hmedia : isGroupsKey mediaKey = true := by decide
  simp only [styleOf, hrules, groupsAt_plain hplain r name hselectors,
    groupsAt_plain hplain r name hmedia]

/-- **The reports on a plain style are those on its body.** -/
theorem styleReports_plain : styleReports r name properties = bodyReports r name properties := by
  unfold styleReports bodyReports
  congr 1
  refine List.flatMap_congr fun entry hentry => ?_
  rw [styleEntryReports, hplain.isGroupsKey hentry, if_neg Bool.false_ne_true]

/-- A group with a plain body has the rules of the style with that body. -/
theorem groupOf?_plain (key : String) {body : Expr}
    (hbody : Value.ofExpr body = .object properties) :
    groupOf? r name (key, body) = some (key, (styleOf r name properties).rules) := by
  rw [groupOf?_object r name hbody, styleOf_plain hplain]

/-- The reports on a group with a plain body are those on the style with that body. -/
theorem groupReports_plain (key : String) {body : Expr}
    (hbody : Value.ofExpr body = .object properties) :
    groupReports r name (key, body) = styleReports r name properties := by
  rw [groupReports_object r name hbody, styleReports_plain hplain]

end Plain

/-! ## One entry and one group -/

/-- The object literal `{ key: value }`. -/
def oneEntry (key : Key) (value : Expr) : List Property := [.keyValue key value]

section OneEntry

variable {key : Key} {text : String} (htext : key.text? = some text) (value : Expr)
  (r : Registry) (name : String)

include htext

theorem entries_oneEntry : entries (oneEntry key value) = [(text, value)] := by
  simp [entries, oneEntry, Property.entry, htext, Except.toOption]

theorem faults_oneEntry : faults name (oneEntry key value) = [] := by
  simp [faults, oneEntry, Property.entry, htext, errorOf?]

/-- The groups of a style with one entry are the groups that its value describes. -/
theorem groupsAt_oneEntry : groupsAt r name text (entries (oneEntry key value)) =
    groupsOf r name value := by
  simp [groupsAt, entries_oneEntry htext]

/-- The reports on a style with a reserved key alone are those on the groups under it. -/
theorem styleReports_oneEntry (hreserved : isGroupsKey text = true) :
    styleReports r name (oneEntry key value) = groupsReports r name text value := by
  simp [styleReports, faults_oneEntry htext, entries_oneEntry htext, styleEntryReports, hreserved]

variable {properties : List Property} (hplain : Plain properties)

include hplain

/-- One group with a plain body holds the rules of the style with that body. -/
theorem groupsOf_oneGroup :
    groupsOf r name (.object (oneEntry key (.object properties))) =
      OrderedMap.ofList [(text, (styleOf r name properties).rules)] := by
  rw [groupsOf_object r name rfl, entries_oneEntry htext, List.filterMap_cons,
    groupOf?_plain hplain r name text rfl, List.filterMap_nil]

/-- The reports on one group with a plain body are those on the style with that body. -/
theorem groupsReports_oneGroup (outer : String) :
    groupsReports r name outer (.object (oneEntry key (.object properties))) =
      styleReports r name properties := by
  rw [groupsReports_object r name outer rfl, faults_oneEntry htext, entries_oneEntry htext,
    List.nil_append, List.flatMap_singleton, groupReports_plain hplain r name text rfl]

end OneEntry

/-! ## The three styles -/

/-- The style `name = style({ … })`. -/
def styleCall (name : String) (properties : List Property) : Call :=
  ⟨name, .style, [.plain (.object properties)]⟩

theorem run_styleCall (name : String) (properties : List Property) (r : Registry) :
    (styleCall name properties).run r =
      ⟨styleOf r name properties, styleReports r name properties, r⟩ :=
  Call.run_of_style (Call.form_eq_style.mpr ⟨rfl, rfl⟩) r

/-- The object literal `{ outer: { inner: { … } } }`. -/
def grouped (outer inner : Key) (properties : List Property) : List Property :=
  oneEntry outer (.object (oneEntry inner (.object properties)))

/-- **A style body means the same in its three places.** The rules of a plain style are the rule
set that is stored when its body is a selector group, and the one that is stored when it is a media
group. The three calls make the same reports in the same order. -/
theorem style_body_same_in_groups (r : Registry) (name group : String) (selectors media key : Key)
    (properties : List Property) (hselectors : selectors.text? = some selectorsKey)
    (hmedia : media.text? = some mediaKey) (hkey : key.text? = some group)
    (hplain : Plain properties) :
    ((styleCall name (grouped selectors key properties)).run r).declaration.selectors.entries =
        [(group, ((styleCall name properties).run r).declaration.rules)] ∧
      ((styleCall name (grouped media key properties)).run r).declaration.media.entries =
        [(group, ((styleCall name properties).run r).declaration.rules)] ∧
      ((styleCall name (grouped selectors key properties)).run r).diagnostics =
        ((styleCall name properties).run r).diagnostics ∧
      ((styleCall name (grouped media key properties)).run r).diagnostics =
        ((styleCall name properties).run r).diagnostics := by
  simp only [run_styleCall, grouped]
  refine ⟨?_, ?_, ?_, ?_⟩
  · show (groupsAt r name selectorsKey _).entries = _
    rw [groupsAt_oneEntry hselectors, groupsOf_oneGroup hkey r name hplain]
    rfl
  · show (groupsAt r name mediaKey _).entries = _
    rw [groupsAt_oneEntry hmedia, groupsOf_oneGroup hkey r name hplain]
    rfl
  · rw [styleReports_oneEntry hselectors _ r name (by decide),
      groupsReports_oneGroup hkey r name hplain]
  · rw [styleReports_oneEntry hmedia _ r name (by decide),
      groupsReports_oneGroup hkey r name hplain]

namespace Sample

/-- `{ marginTop: "1px", ...rest, "margin-top": vars.accent, color: vars.missing }`, in which two
spellings of one property, a spread and an unknown reference occur. -/
def body : List Property :=
  [entry "marginTop" (.str (some "1px")), .spread (.ident "rest"),
    .keyValue (.str (some "margin-top")) (varsDot "accent"), entry "color" (varsDot "missing")]

/-- The registry after the sample contract. -/
def declared : Registry := registryAfter {} [contract]

/-- The key `"&:hover"`. -/
def hover : Key := .str (some "&:hover")

end Sample

/-- The sample body as a style, which has one rule and two reports, and as a group. -/
theorem style_body_same_in_groups_sample :
    ((Key.ident "selectors").text? = some selectorsKey ∧
        (Key.str (some "@media")).text? = some mediaKey ∧
        Sample.hover.text? = some "&:hover" ∧ Plain Sample.body) ∧
      ((styleCall "card" Sample.body).run Sample.declared).declaration.rules.entries =
        [("margin-top", "var(--accent)")] ∧
      ((styleCall "card" Sample.body).run Sample.declared).diagnostics.length = 2 ∧
      ((styleCall "card" (grouped (.ident "selectors") Sample.hover Sample.body)).run
          Sample.declared).declaration.selectors.entries =
        [("&:hover", ((styleCall "card" Sample.body).run Sample.declared).declaration.rules)] ∧
      ((styleCall "card" (grouped (.str (some "@media")) Sample.hover Sample.body)).run
          Sample.declared).diagnostics =
        ((styleCall "card" Sample.body).run Sample.declared).diagnostics := by
  have hplain : Plain Sample.body := by decide +kernel
  have hsame := style_body_same_in_groups Sample.declared "card" "&:hover" (.ident "selectors")
    (.str (some "@media")) Sample.hover Sample.body rfl rfl rfl hplain
  exact ⟨⟨rfl, rfl, rfl, hplain⟩, by decide +kernel, by decide +kernel, hsame.1, hsame.2.2.2⟩

end StyleCompiler
