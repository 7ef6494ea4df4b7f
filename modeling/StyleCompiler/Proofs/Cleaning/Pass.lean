import Mathlib.Data.List.Basic
import StyleCompiler.Proofs.Cleaning.Definition

/-!
# Passes over entries

Rules, groups, styles, contracts and themes are all compiled by a pass over the entries of an
object literal: each entry yields something, may be reported, and moves a state on. `Pass` is
what they have in common, and `Pass.Cleans.sweep` is the one induction behind cleaning: if
cleaning one property keeps what its entry yields and counts what is reported on it, then
cleaning an object literal does.

* `bodyPass_cleans`, `groupPass_cleans`, `stylePass_cleans`: object literals of styles. Hence
  `styleOf_clean` and `styleReports_clean`.
* `leafPass_cleans`, `themePass_cleans`: object literals of contracts and themes, whose state is
  the registry that grows along the way. Hence `runTheme_clean`.
-/

namespace StyleCompiler

/-! ## Edits in place -/

theorem Value.ofExpr_eq_object {e : Expr} {properties : List Property} :
    Value.ofExpr e = .object properties ↔ e.unwrap = .object properties := by
  unfold Value.ofExpr
  cases e.unwrap with
  | object ps => simp
  | unary op operand =>
    cases op with
    | minus =>
      simp only
      split <;> simp
    | _ => simp
  | member base segment =>
    simp only
    split <;> simp
  | template quasis exprs =>
    simp only [Value.ofTemplate]
    split
    · simp
    · split <;> simp
  | _ => simp

theorem Expr.unwrap_withProperties {e : Expr} {properties : List Property}
    (h : e.unwrap = .object properties) (others : List Property) :
    (e.withProperties others).unwrap = .object others := by
  fun_induction Expr.unwrap e with
  | case1 wrapper inner ih => exact ih h
  | case2 e _ =>
    subst h
    rfl

theorem Value.ofExpr_withProperties {e : Expr} {properties : List Property}
    (h : Value.ofExpr e = .object properties) (others : List Property) :
    Value.ofExpr (e.withProperties others) = .object others :=
  Value.ofExpr_eq_object.mpr (Expr.unwrap_withProperties (Value.ofExpr_eq_object.mp h) others)

theorem Property.entry_withValue {p : Property} {key : String} {value : Expr}
    (h : p.entry = .ok (key, value)) (value' : Expr) :
    (p.withValue value').entry = .ok (key, value') := by
  cases p with
  | keyValue k v =>
    simp only [Property.entry] at h
    simp only [Property.withValue, Property.entry]
    cases hk : k.text? with
    | none =>
      rw [hk] at h
      cases h
    | some text =>
      rw [hk] at h
      obtain ⟨rfl, -⟩ := Prod.mk.inj (Except.ok.inj h)
      rfl
  | shorthand _ | assign _ _ | getter _ | setter _ _ | method _ | spread _ => cases h

/-! ## Entries of a list of properties -/

section Entries

variable {p : Property} {entry : String × Expr} {fault : PropertyFault}

theorem entries_cons_ok (h : p.entry = .ok entry) (ps : List Property) :
    entries (p :: ps) = entry :: entries ps := by
  simp [entries, h, Except.toOption]

theorem entries_cons_error (h : p.entry = .error fault) (ps : List Property) :
    entries (p :: ps) = entries ps := by
  simp [entries, h, Except.toOption]

theorem faults_cons_ok (h : p.entry = .ok entry) (name : String) (ps : List Property) :
    faults name (p :: ps) = faults name ps := by
  simp [faults, h, errorOf?]

theorem faults_cons_error (h : p.entry = .error fault) (name : String) (ps : List Property) :
    faults name (p :: ps) = .property name fault :: faults name ps := by
  simp [faults, h, errorOf?]

/-- An entry that should be a rule or a variable stays iff its value has a text. -/
theorem cleanRule_cases (h : p.entry = .ok entry) (r : Registry) :
    (∃ text, (Value.ofExpr entry.2).resolve r entry.1 = .ok text ∧ cleanRule r p = some ⟨p, 0⟩) ∨
      ∃ reason,
        (Value.ofExpr entry.2).resolve r entry.1 = .error reason ∧ cleanRule r p = none := by
  simp only [cleanRule, h]
  cases (Value.ofExpr entry.2).resolve r entry.1 with
  | ok text => exact Or.inl ⟨text, rfl, rfl⟩
  | error reason => exact Or.inr ⟨reason, rfl, rfl⟩

end Entries

/-! ## Passes -/

/-- A pass over entries: what an entry yields in a state, the reports on it, and the state for
the entries after it. -/
structure Pass (σ β : Type) where
  out : σ → String × Expr → List β
  reports : σ → String × Expr → List Diagnostic
  next : σ → String × Expr → σ

namespace Pass

variable {σ β : Type}

/-- What entries yield, one after the other. -/
def outs (P : Pass σ β) : σ → List (String × Expr) → List β
  | _, [] => []
  | s, e :: es => P.out s e ++ P.outs (P.next s e) es

/-- The reports on entries, one after the other. -/
def allReports (P : Pass σ β) : σ → List (String × Expr) → List Diagnostic
  | _, [] => []
  | s, e :: es => P.reports s e ++ P.allReports (P.next s e) es

/-- The state after entries. -/
def final (P : Pass σ β) : σ → List (String × Expr) → σ
  | s, [] => s
  | s, e :: es => P.final (P.next s e) es

/-- What is left of an entry is an entry that yields the same, leads to the same state and is not
reported. The reports on the original are as many as the edits. -/
def Keeps (P : Pass σ β) (s : σ) (e : String × Expr) (q : Cleaned Property) : Prop :=
  ∃ e', q.result.entry = .ok e' ∧ P.out s e' = P.out s e ∧ P.next s e' = P.next s e ∧
    P.reports s e' = [] ∧ (P.reports s e).length = q.edits

/-- Cleaning a property deletes what is no entry and what yields nothing, changes nothing and is
reported once. Of the others it keeps what counts. -/
structure Cleans (P : Pass σ β) (clean : σ → Property → Option (Cleaned Property)) : Prop where
  fault : ∀ {s p f}, p.entry = .error f → clean s p = none
  kept : ∀ {s p e q}, p.entry = .ok e → clean s p = some q → P.Keeps s e q
  deleted : ∀ {s p e}, p.entry = .ok e → clean s p = none →
    P.out s e = [] ∧ P.next s e = s ∧ (P.reports s e).length = 1

/-- A cleaned object literal yields the same as before and nothing in it is reported; the reports
before are as many as the edits. -/
structure Swept (P : Pass σ β) (name : String) (s : σ) (ps : List Property)
    (c : Cleaned (List Property)) : Prop where
  outs : P.outs s (entries c.result) = P.outs s (entries ps)
  final : P.final s (entries c.result) = P.final s (entries ps)
  faults : faults name c.result = []
  reports : P.allReports s (entries c.result) = []
  count : (StyleCompiler.faults name ps).length + (P.allReports s (entries ps)).length = c.edits

variable {P : Pass σ β}

/-- **Cleaning property by property cleans the object literal.** -/
theorem Cleans.sweep {clean : σ → Property → Option (Cleaned Property)} (h : P.Cleans clean)
    (name : String) (s : σ) (ps : List Property) :
    P.Swept name s ps (sweep clean P.next s ps) := by
  -- the properties after one that is deleted are cleaned and compiled in the state before it
  induction ps generalizing s with
  | nil => exact ⟨rfl, rfl, rfl, rfl, rfl⟩
  | cons p ps ih =>
    cases hp : p.entry with
    | error f =>
      have hnext : afterProperty P.next s p = s := by simp only [afterProperty, hp]
      obtain ⟨ho, hf, hfa, hr, hc⟩ := ih s
      simp only [StyleCompiler.sweep, h.fault hp, hnext]
      refine ⟨?_, ?_, hfa, hr, ?_⟩
      · rw [ho, entries_cons_error hp]
      · rw [hf, entries_cons_error hp]
      · rw [entries_cons_error hp, faults_cons_error hp, List.length_cons]
        show _ = (StyleCompiler.sweep clean P.next s ps).edits + 1
        omega
    | ok e =>
      have hnext : afterProperty P.next s p = P.next s e := by simp only [afterProperty, hp]
      cases hq : clean s p with
      | none =>
        obtain ⟨ho, hf, hfa, hr, hc⟩ := ih s
        obtain ⟨hout, hstay, hone⟩ := h.deleted hp hq
        simp only [StyleCompiler.sweep, hq, hnext, hstay]
        refine ⟨?_, ?_, hfa, hr, ?_⟩
        · rw [ho, entries_cons_ok hp, Pass.outs, hout, hstay, List.nil_append]
        · rw [hf, entries_cons_ok hp, Pass.final, hstay]
        · rw [entries_cons_ok hp, faults_cons_ok hp, Pass.allReports, hstay, List.length_append]
          show _ = (StyleCompiler.sweep clean P.next s ps).edits + 1
          omega
      | some q =>
        obtain ⟨ho, hf, hfa, hr, hc⟩ := ih (P.next s e)
        obtain ⟨e', he', hout, hsame, hsilent, hedits⟩ := h.kept hp hq
        simp only [StyleCompiler.sweep, hq, hnext]
        refine ⟨?_, ?_, ?_, ?_, ?_⟩
        · rw [entries_cons_ok he', entries_cons_ok hp, Pass.outs, Pass.outs, hout, hsame, ho]
        · rw [entries_cons_ok he', entries_cons_ok hp, Pass.final, Pass.final, hsame, hf]
        · rw [faults_cons_ok he', hfa]
        · rw [entries_cons_ok he', Pass.allReports, hsilent, hsame, hr, List.nil_append]
        · rw [entries_cons_ok hp, faults_cons_ok hp, Pass.allReports, List.length_append]
          show _ = q.edits + (StyleCompiler.sweep clean P.next (P.next s e) ps).edits
          omega

/-- A pass that keeps its state treats every entry alike. -/
theorem outs_eq_flatMap {s : σ} (h : ∀ e, P.next s e = s) (es : List (String × Expr)) :
    P.outs s es = es.flatMap (P.out s) := by
  induction es with
  | nil => rfl
  | cons e es ih => rw [Pass.outs, h, ih, List.flatMap_cons]

theorem allReports_eq_flatMap {s : σ} (h : ∀ e, P.next s e = s) (es : List (String × Expr)) :
    P.allReports s es = es.flatMap (P.reports s) := by
  induction es with
  | nil => rfl
  | cons e es ih => rw [Pass.allReports, h, ih, List.flatMap_cons]

/-- A cleaned object literal under a pass that keeps its state: nothing to report is left, and
the reports before are as many as the edits. -/
theorem Swept.noReports {name : String} {s : σ} {ps : List Property} {c : Cleaned (List Property)}
    (h : P.Swept name s ps c) (hs : ∀ e, P.next s e = s) :
    StyleCompiler.faults name c.result ++ (entries c.result).flatMap (P.reports s) = [] ∧
      (StyleCompiler.faults name ps ++ (entries ps).flatMap (P.reports s)).length = c.edits := by
  rw [← allReports_eq_flatMap hs, ← allReports_eq_flatMap hs, h.faults, h.reports,
    List.length_append, h.count]
  exact ⟨rfl, rfl⟩

theorem Swept.flatMap_out {name : String} {s : σ} {ps : List Property}
    {c : Cleaned (List Property)} (h : P.Swept name s ps c) (hs : ∀ e, P.next s e = s) :
    (entries c.result).flatMap (P.out s) = (entries ps).flatMap (P.out s) := by
  rw [← outs_eq_flatMap hs, ← outs_eq_flatMap hs, h.outs]

section CleanRule

variable {P : Pass Registry β} {r : Registry} {p : Property} {e : String × Expr}

/-- An entry that stays because it has a text is kept if none with a text is reported. -/
theorem keeps_cleanRule {q : Cleaned Property} (hp : p.entry = .ok e)
    (hq : cleanRule r p = some q)
    (hok : ∀ text, (Value.ofExpr e.2).resolve r e.1 = .ok text → P.reports r e = []) :
    P.Keeps r e q := by
  rcases cleanRule_cases hp r with ⟨text, htext, hkeep⟩ | ⟨reason, -, hdrop⟩
  · obtain rfl := Option.some.inj (hkeep.symm.trans hq)
    have hnone := hok text htext
    exact ⟨e, hp, rfl, rfl, hnone, by rw [hnone]; rfl⟩
  · exact absurd (hdrop.symm.trans hq) (by simp)

/-- An entry that is deleted has no text. -/
theorem error_of_cleanRule (hp : p.entry = .ok e) (hq : cleanRule r p = none) :
    ∃ reason, (Value.ofExpr e.2).resolve r e.1 = .error reason := by
  rcases cleanRule_cases hp r with ⟨text, -, hkeep⟩ | ⟨reason, hreason, -⟩
  · exact absurd (hkeep.symm.trans hq) (by simp)
  · exact ⟨reason, hreason⟩

/-- A pass is cleaned by keeping what has a text if an entry with a text is not reported, and one
without yields nothing, changes nothing and is reported once. -/
theorem cleans_cleanRule
    (hok : ∀ {r e text}, (Value.ofExpr e.2).resolve r e.1 = .ok text → P.reports r e = [])
    (herror : ∀ {r e reason}, (Value.ofExpr e.2).resolve r e.1 = .error reason →
      P.out r e = [] ∧ P.next r e = r ∧ (P.reports r e).length = 1) :
    P.Cleans cleanRule where
  fault hp := by simp only [cleanRule, hp]
  kept hp hq := keeps_cleanRule hp hq fun _ => hok
  deleted hp hq := by
    obtain ⟨reason, hreason⟩ := error_of_cleanRule hp hq
    exact herror hreason

end CleanRule

end Pass

/-! ## Object literals of styles -/

/-- The pass that makes rules of entries. -/
def bodyPass (name : String) : Pass Registry (String × String) where
  out r e := (ruleOf r name e).toOption.toList
  reports r e := ruleReports r name e
  next := keepRegistry

/-- The pass that makes groups of entries. -/
def groupPass (name : String) : Pass Registry (String × RuleSet) where
  out r e := (groupOf? r name e).toList
  reports r e := groupReports r name e
  next := keepRegistry

theorem bodyPass_cleans (name : String) : (bodyPass name).Cleans cleanRule := by
  refine Pass.cleans_cleanRule (fun h => ?_) fun h => ⟨?_, rfl, ?_⟩
  · simp [bodyPass, ruleReports, ruleOf, h, errorOf?]
  · simp [bodyPass, ruleOf, h, Except.toOption]
  · simp [bodyPass, ruleReports, ruleOf, h, errorOf?]

/-- The rules of a cleaned body are those of the body. -/
theorem rulesOf_clean (r : Registry) (name : String) (body : List Property) :
    rulesOf r name (entries (sweep cleanRule keepRegistry r body).result) =
      rulesOf r name (entries body) := by
  have h := ((bodyPass_cleans name).sweep name r body).flatMap_out fun _ => rfl
  unfold rulesOf
  rw [List.filterMap_eq_flatMap_toList, List.filterMap_eq_flatMap_toList]
  exact congrArg OrderedMap.ofList h

theorem groupPass_cleans (name : String) : (groupPass name).Cleans cleanGroup where
  fault hp := by simp only [cleanGroup, hp]
  kept {r p e q} hp hq := by
    obtain ⟨key, value⟩ := e
    simp only [cleanGroup, hp] at hq
    split at hq
    · rename_i body hbody
      obtain rfl := Option.some.inj hq
      have hclean := Value.ofExpr_withProperties hbody (sweep cleanRule keepRegistry r body).result
      obtain ⟨hnone, hcount⟩ :=
        ((bodyPass_cleans name).sweep name r body).noReports fun _ => rfl
      refine ⟨_, Property.entry_withValue hp _, ?_, rfl, ?_, ?_⟩
      · simp only [groupPass, groupOf?, hclean, hbody, rulesOf_clean]
      · simp only [groupPass, groupReports, hclean]
        exact hnone
      · simp only [groupPass, groupReports, hbody]
        exact hcount
    · exact absurd hq (by simp)
  deleted {r p e} hp hq := by
    obtain ⟨key, value⟩ := e
    simp only [cleanGroup, hp] at hq
    split at hq
    · exact absurd hq (by simp)
    · refine ⟨?_, rfl, ?_⟩
      · simp only [groupPass, groupOf?]
        rfl
      · simp only [groupPass, groupReports]
        rfl

/-- The groups of a cleaned object literal are those of the object literal. -/
theorem groups_clean (r : Registry) (name : String) (groups : List Property) :
    OrderedMap.ofList
        ((entries (sweep cleanGroup keepRegistry r groups).result).filterMap (groupOf? r name)) =
      OrderedMap.ofList ((entries groups).filterMap (groupOf? r name)) := by
  have h := ((groupPass_cleans name).sweep name r groups).flatMap_out fun _ => rfl
  rw [List.filterMap_eq_flatMap_toList, List.filterMap_eq_flatMap_toList]
  exact congrArg OrderedMap.ofList h

/-- What an entry of a style yields: a rule, or the groups under a key. -/
inductive StyleItem where
  | rule (rule : String × String)
  | groups (key : String) (groups : Groups)

/-- The rule that an item is. -/
def StyleItem.rule? : StyleItem → Option (String × String)
  | .rule pair => some pair
  | .groups _ _ => none

/-- The groups that an item is under a key. -/
def StyleItem.groupsAt? (key : String) : StyleItem → Option Groups
  | .rule _ => none
  | .groups k gs => if k = key then some gs else none

/-- The pass over the entries of a style. -/
def stylePass (name : String) : Pass Registry StyleItem where
  out r e :=
    if isGroupsKey e.1 then [.groups e.1 (groupsOf r name e.2)]
    else ((ruleOf r name e).toOption.map .rule).toList
  reports r e := styleEntryReports r name e
  next := keepRegistry

theorem filterMap_rule?_stylePass (r : Registry) (name : String) (es : List (String × Expr)) :
    (es.flatMap ((stylePass name).out r)).filterMap StyleItem.rule? =
      (es.filter fun e => !isGroupsKey e.1).filterMap fun e => (ruleOf r name e).toOption := by
  induction es with
  | nil => rfl
  | cons e es ih =>
    rw [List.flatMap_cons, List.filterMap_append, ih]
    by_cases hk : isGroupsKey e.1 = true
    · simp [stylePass, hk, StyleItem.rule?]
    · cases hr : (ruleOf r name e).toOption <;> simp [stylePass, hk, hr, StyleItem.rule?]

theorem filterMap_groupsAt?_stylePass (r : Registry) (name : String) {key : String}
    (hkey : isGroupsKey key = true) (es : List (String × Expr)) :
    (es.flatMap ((stylePass name).out r)).filterMap (StyleItem.groupsAt? key) =
      (es.filter fun e => e.1 = key).map fun e => groupsOf r name e.2 := by
  induction es with
  | nil => rfl
  | cons e es ih =>
    rw [List.flatMap_cons, List.filterMap_append, ih]
    by_cases he : e.1 = key
    · simp [stylePass, he, hkey, StyleItem.groupsAt?]
    · by_cases hk : isGroupsKey e.1 = true
      · simp [stylePass, hk, he, StyleItem.groupsAt?]
      · cases hr : (ruleOf r name e).toOption <;>
          simp [stylePass, hk, he, hr, StyleItem.groupsAt?]

theorem groupsAt_eq (r : Registry) (name key : String) (es : List (String × Expr)) :
    groupsAt r name key es =
      ((es.filter fun e => e.1 = key).map fun e => groupsOf r name e.2).getLast?.getD ∅ := by
  unfold groupsAt
  rw [List.getLast?_map]
  cases (es.filter fun e => e.1 = key).getLast? <;> rfl

theorem stylePass_cleans (name : String) : (stylePass name).Cleans cleanStyleEntry where
  fault hp := by simp only [cleanStyleEntry, hp]
  kept {r p e q} hp hq := by
    obtain ⟨key, value⟩ := e
    simp only [cleanStyleEntry, hp] at hq
    split at hq
    · rename_i hkey
      split at hq
      · rename_i groups hgroups
        obtain rfl := Option.some.inj hq
        have hclean :=
          Value.ofExpr_withProperties hgroups (sweep cleanGroup keepRegistry r groups).result
        obtain ⟨hnone, hcount⟩ :=
          ((groupPass_cleans name).sweep name r groups).noReports fun _ => rfl
        refine ⟨_, Property.entry_withValue hp _, ?_, rfl, ?_, ?_⟩
        · simp only [stylePass, hkey, if_true, groupsOf, hclean, hgroups, groups_clean]
        · simp only [stylePass, styleEntryReports, hkey, if_true, groupsReports, hclean]
          exact hnone
        · simp only [stylePass, styleEntryReports, hkey, if_true, groupsReports, hgroups]
          exact hcount
      · obtain rfl := Option.some.inj hq
        refine ⟨_, Property.entry_withValue hp _, ?_, rfl, ?_, ?_⟩
        · simp only [stylePass, hkey, if_true, groupsOf]
          rfl
        · simp only [stylePass, styleEntryReports, hkey, if_true, groupsReports]
          rfl
        · simp only [stylePass, styleEntryReports, hkey, if_true, groupsReports]
          rfl
    · rename_i hkey
      refine Pass.keeps_cleanRule hp hq fun text htext => ?_
      simp [stylePass, styleEntryReports, hkey, ruleReports, ruleOf, htext, errorOf?]
  deleted {r p e} hp hq := by
    obtain ⟨key, value⟩ := e
    simp only [cleanStyleEntry, hp] at hq
    split at hq
    · split at hq <;> exact absurd hq (by simp)
    · rename_i hkey
      obtain ⟨reason, hreason⟩ := Pass.error_of_cleanRule hp hq
      refine ⟨?_, rfl, ?_⟩
      · simp [stylePass, hkey, ruleOf, hreason, Except.toOption]
      · simp [stylePass, styleEntryReports, hkey, ruleReports, ruleOf, hreason, errorOf?]

/-- **A cleaned style is the style.** -/
theorem styleOf_clean (r : Registry) (name : String) (properties : List Property) :
    styleOf r name (sweep cleanStyleEntry keepRegistry r properties).result =
      styleOf r name properties := by
  have h := ((stylePass_cleans name).sweep name r properties).flatMap_out fun _ => rfl
  have hrules := congrArg (List.filterMap StyleItem.rule?) h
  rw [filterMap_rule?_stylePass, filterMap_rule?_stylePass] at hrules
  have hgroups : ∀ key, isGroupsKey key = true →
      groupsAt r name key (entries (sweep cleanStyleEntry keepRegistry r properties).result) =
        groupsAt r name key (entries properties) := by
    intro key hkey
    have hkeyed := congrArg (List.filterMap (StyleItem.groupsAt? key)) h
    rw [filterMap_groupsAt?_stylePass r name hkey,
      filterMap_groupsAt?_stylePass r name hkey] at hkeyed
    rw [groupsAt_eq, groupsAt_eq]
    exact congrArg (fun gs => gs.getLast?.getD ∅) hkeyed
  -- rules and groups come from different entries of one pass
  unfold styleOf
  simp only [hgroups selectorsKey (by decide), hgroups mediaKey (by decide), rulesOf]
  exact congrArg (fun rs => Declaration.mk name .style (OrderedMap.ofList rs) _ _) hrules

/-- Nothing in a cleaned style is reported, and the reports on the style are as many as the
edits. -/
theorem styleReports_clean (r : Registry) (name : String) (properties : List Property) :
    styleReports r name (sweep cleanStyleEntry keepRegistry r properties).result = [] ∧
      (styleReports r name properties).length =
        (sweep cleanStyleEntry keepRegistry r properties).edits :=
  ((stylePass_cleans name).sweep name r properties).noReports fun _ => rfl

/-! ## Object literals of contracts and themes -/

theorem runTheme_append (kind : Kind) (name : String) (es₁ es₂ : List ThemeEntry) (r : Registry) :
    runTheme kind name r (es₁ ++ es₂) =
      { texts := (runTheme kind name r es₁).texts ++
          (runTheme kind name (runTheme kind name r es₁).registry es₂).texts
        diagnostics := (runTheme kind name r es₁).diagnostics ++
          (runTheme kind name (runTheme kind name r es₁).registry es₂).diagnostics
        registry := (runTheme kind name (runTheme kind name r es₁).registry es₂).registry } := by
  induction es₁ generalizing r with
  | nil => rfl
  | cons e es ih =>
    cases e with
    | report d => simp only [List.cons_append, runTheme, ih]
    | leaf path property value =>
      simp only [List.cons_append, runTheme]
      split <;> simp only [ih, List.cons_append]

/-- Reports pass through. -/
theorem runTheme_reports (kind : Kind) (name : String) (ds : List Diagnostic) (r : Registry) :
    runTheme kind name r (ds.map .report) = ⟨[], ds, r⟩ := by
  induction ds with
  | nil => rfl
  | cons d ds ih => simp only [List.map_cons, runTheme, ih]

/-- The pass over entries that stand for leaves. -/
def themePass (kind : Kind) (name : String) (leaves : String × Expr → List ThemeEntry) :
    Pass Registry (String × String) where
  out r e := (runTheme kind name r (leaves e)).texts
  reports r e := (runTheme kind name r (leaves e)).diagnostics
  next := themeNext kind name leaves

/-- To go through the leaves of entries is the pass over the entries. -/
theorem runTheme_flatMap (kind : Kind) (name : String) (leaves : String × Expr → List ThemeEntry)
    (r : Registry) (es : List (String × Expr)) :
    runTheme kind name r (es.flatMap leaves) =
      { texts := (themePass kind name leaves).outs r es
        diagnostics := (themePass kind name leaves).allReports r es
        registry := (themePass kind name leaves).final r es } := by
  induction es generalizing r with
  | nil => rfl
  | cons e es ih =>
    rw [List.flatMap_cons, runTheme_append, ih]
    rfl

/-- The object literal of leaves, faults first. -/
theorem runTheme_faults (kind : Kind) (name : String) (leaves : String × Expr → List ThemeEntry)
    (r : Registry) (ps : List Property) :
    runTheme kind name r ((faults name ps).map .report ++ (entries ps).flatMap leaves) =
      { texts := (themePass kind name leaves).outs r (entries ps)
        diagnostics := faults name ps ++ (themePass kind name leaves).allReports r (entries ps)
        registry := (themePass kind name leaves).final r (entries ps) } := by
  rw [runTheme_append, runTheme_reports, runTheme_flatMap]
  rfl

/-- An outcome with the same texts and registry as another, without the reports of the other, of
which there are `n`. -/
structure ThemeOutcome.Silences (o' o : ThemeOutcome) (n : Nat) : Prop where
  texts : o'.texts = o.texts
  registry : o'.registry = o.registry
  silent : o'.diagnostics = []
  count : o.diagnostics.length = n

theorem runTheme_swept {kind : Kind} {name : String} {leaves : String × Expr → List ThemeEntry}
    {r : Registry} {ps : List Property} {c : Cleaned (List Property)}
    (h : (themePass kind name leaves).Swept name r ps c) :
    (runTheme kind name r
        ((faults name c.result).map .report ++ (entries c.result).flatMap leaves)).Silences
      (runTheme kind name r ((faults name ps).map .report ++ (entries ps).flatMap leaves))
      c.edits := by
  rw [runTheme_faults, runTheme_faults]
  refine ⟨h.outs, h.final, ?_, ?_⟩
  · rw [h.faults, h.reports, List.nil_append]
  · rw [List.length_append, h.count]

/-- The entries of a nested object literal. -/
theorem leafPass_cleans (kind : Kind) (name outer : String) :
    (themePass kind name fun e => [innerLeaf outer e]).Cleans cleanRule := by
  refine Pass.cleans_cleanRule (fun h => ?_) fun h => ⟨?_, ?_, ?_⟩
  · simp only [themePass, innerLeaf, runTheme, h]
  · simp only [themePass, innerLeaf, runTheme, h]
  · simp only [themePass, themeNext, innerLeaf, runTheme, h]
  · simp only [themePass, innerLeaf, runTheme, h, List.length_singleton]

theorem themeEntriesAt_object {name key : String} {value : Expr} {inner : List Property}
    (h : Value.ofExpr value = .object inner) :
    themeEntriesAt name (key, value) =
      (faults name inner).map .report ++ (entries inner).flatMap fun e => [innerLeaf key e] := by
  simp only [themeEntriesAt, h, List.map_eq_flatMap]
  rfl

theorem themePass_cleans (kind : Kind) (name : String) :
    (themePass kind name (themeEntriesAt name)).Cleans (cleanThemeEntry kind name) where
  fault hp := by simp only [cleanThemeEntry, hp]
  kept {r p e q} hp hq := by
    obtain ⟨key, value⟩ := e
    simp only [cleanThemeEntry, hp] at hq
    split at hq
    · rename_i inner hinner
      obtain rfl := Option.some.inj hq
      have hrun := runTheme_swept ((leafPass_cleans kind name key).sweep name r inner)
      rw [← themeEntriesAt_object hinner,
        ← themeEntriesAt_object (Value.ofExpr_withProperties hinner _)] at hrun
      exact ⟨_, Property.entry_withValue hp _, hrun.texts, hrun.registry, hrun.silent, hrun.count⟩
    · have hentry : themeEntriesAt name (key, value) = [.leaf key key value] := by
        simp only [themeEntriesAt]
      refine Pass.keeps_cleanRule hp hq fun text htext => ?_
      simp only [themePass, hentry, runTheme, htext]
  deleted {r p e} hp hq := by
    obtain ⟨key, value⟩ := e
    simp only [cleanThemeEntry, hp] at hq
    split at hq
    · exact absurd hq (by simp)
    · have hentry : themeEntriesAt name (key, value) = [.leaf key key value] := by
        simp only [themeEntriesAt]
      obtain ⟨reason, hreason⟩ := Pass.error_of_cleanRule hp hq
      simp only [themePass, themeNext, hentry, runTheme, hreason, List.length_singleton, and_self]

/-- **A cleaned contract or theme comes to the same texts and registry** without a report, and
the reports on the original are as many as the edits. -/
theorem runTheme_clean (kind : Kind) (name : String) (r : Registry) (properties : List Property) :
    let body := sweep (cleanThemeEntry kind name) (themeNext kind name (themeEntriesAt name)) r
      properties
    (runTheme kind name r (themeEntries name body.result)).Silences
      (runTheme kind name r (themeEntries name properties)) body.edits :=
  runTheme_swept ((themePass_cleans kind name).sweep name r properties)

end StyleCompiler
