import Mathlib.Data.List.Forall2
import StyleCompiler.Proofs.Run

/-!
# Calls that compile alike

When a tree is rewritten without a change of meaning, the two compilations run side by side: the
expressions of the one are related to those of the other, and so are the registries. This file says
what such relations have to satisfy (`Simulation`) and draws the conclusion for whole calls. The
declarations may be bound to other names: `f` says to which.

* `Expr.Alike`: two expressions that are object literals with related entries, or that have the
  same text in related registries.
* `Simulation`: related expressions are alike, and related registries stay related. One tree may be
  compared with itself in two registries (`Simulation.ofResolve`) or under two names
  (`Simulation.refl`).
* `Simulation.styleOf`, `Simulation.styleReports`, `Simulation.runTheme`: object literals.
* `Call.Alike.ofArgs`: calls with alike arguments are alike.
* `Simulation.run`, `Simulation.runCalls`: alike calls yield the same declaration and diagnostics,
  up to the name; so do runs of them.
* `compile_mapName`: a compiled module whose steps show the same up to the names.
* `Simulation.compile_eq`: modules of alike calls compile to the same.
-/

namespace StyleCompiler

/-! ## Names of declarations -/

/-- The declaration under another name. -/
def Declaration.mapName (f : String → String) (d : Declaration) : Declaration :=
  { d with name := f d.name }

/-- The diagnostic about a declaration with another name. -/
def Diagnostic.mapName (f : String → String) : Diagnostic → Diagnostic
  | .property name fault => .property (f name) fault
  | .groupsNotObject name key => .groupsNotObject (f name) key
  | .groupNotObject name key => .groupNotObject (f name) key
  | .omitted name entry reason => .omitted (f name) entry reason
  | .rejected name kind why => .rejected (f name) kind why

theorem Declaration.mapName_id : Declaration.mapName id = id := rfl

theorem Diagnostic.mapName_id : Diagnostic.mapName id = id := by
  funext d
  cases d <;> rfl

@[simp]
theorem Diagnostic.level_mapName (f : String → String) (d : Diagnostic) :
    (d.mapName f).level = d.level := by
  cases d <;> rfl

/-! ## Lists in step -/

section Lists

variable {α β γ : Type} {T : α → β → Prop} {as : List α} {bs : List β}

theorem filterMap_eq_of_forall₂ {f : α → Option γ} {g : β → Option γ} (h : List.Forall₂ T as bs)
    (hfg : ∀ a b, T a b → g b = f a) : bs.filterMap g = as.filterMap f := by
  induction h with
  | nil => rfl
  | cons hab _ ih => rw [List.filterMap_cons, List.filterMap_cons, ih, hfg _ _ hab]

theorem flatMap_eq_of_forall₂ {f : α → List γ} {g : β → List γ} (h : List.Forall₂ T as bs)
    (hfg : ∀ a b, T a b → g b = f a) : bs.flatMap g = as.flatMap f := by
  induction h with
  | nil => rfl
  | cons hab _ ih => rw [List.flatMap_cons, List.flatMap_cons, ih, hfg _ _ hab]

end Lists

/-! ## Simulations -/

/-- Two properties that are read alike: as entries with one key and related values, or as no
entries for one reason. -/
inductive Property.Alike (S : Expr → Expr → Prop) : Property → Property → Prop
  | entry {p p' : Property} {key : String} {e e' : Expr} :
      p.entry = .ok (key, e) → p'.entry = .ok (key, e') → S e e' → Property.Alike S p p'
  | fault {p p' : Property} {fault : PropertyFault} :
      p.entry = .error fault → p'.entry = .error fault → Property.Alike S p p'

/-- Two expressions that are alike: object literals with alike properties, or values with the same
text in related registries. -/
inductive Expr.Alike (S : Expr → Expr → Prop) (R : Registry → Registry → Prop) :
    Expr → Expr → Prop
  | object {e e' : Expr} {ps ps' : List Property} :
      Value.ofExpr e = .object ps → Value.ofExpr e' = .object ps' →
        List.Forall₂ (Property.Alike S) ps ps' → Expr.Alike S R e e'
  | text {e e' : Expr} : (∀ ps, Value.ofExpr e ≠ .object ps) →
      (∀ ps, Value.ofExpr e' ≠ .object ps) →
        (∀ r s, R r s → ∀ property,
          (Value.ofExpr e').resolve s property = (Value.ofExpr e).resolve r property) →
          Expr.Alike S R e e'

/-- Expressions and registries of two compilations that run side by side. -/
structure Simulation (S : Expr → Expr → Prop) (R : Registry → Registry → Prop) : Prop where
  /-- Related expressions are alike. -/
  read : ∀ {e e' : Expr}, S e e' → Expr.Alike S R e e'
  /-- Registries stay related when the same text is entered in both. -/
  enter : ∀ {r s : Registry}, R r s → ∀ (kind : Kind) (path text : String),
    R (kind.enter r path text) (kind.enter s path text)

theorem Property.Alike.refl (p : Property) : Property.Alike Eq p p := by
  cases h : p.entry with
  | ok entry => exact .entry h h rfl
  | error fault => exact .fault h h

/-- One tree in two registries that give every value the same text. -/
theorem Simulation.ofResolve {R : Registry → Registry → Prop}
    (hresolve : ∀ {r s : Registry}, R r s → ∀ (property : String) (v : Value),
      v.resolve r property = v.resolve s property)
    (henter : ∀ {r s : Registry}, R r s → ∀ (kind : Kind) (path text : String),
      R (kind.enter r path text) (kind.enter s path text)) : Simulation Eq R where
  read := by
    rintro e _ rfl
    cases h : Value.ofExpr e with
    | object ps => exact .object h h (List.forall₂_same.mpr fun p _ => .refl p)
    | text _ | number _ | null | reference _ | template _ | unsupported =>
      exact .text (by simp [h]) (by simp [h]) fun r s hr property => (hresolve hr property _).symm
  enter := henter

/-- A compilation runs beside itself. -/
theorem Simulation.refl : Simulation Eq Eq :=
  .ofResolve (fun hr property v => by rw [hr]) (fun hr kind path text => by rw [hr])

/-- Two entries with one key and related values. -/
def EntryAlike (S : Expr → Expr → Prop) (a b : String × Expr) : Prop := b.1 = a.1 ∧ S a.2 b.2

section Properties

variable {S : Expr → Expr → Prop} {ps ps' : List Property}

theorem entries_alike (h : List.Forall₂ (Property.Alike S) ps ps') :
    List.Forall₂ (EntryAlike S) (entries ps) (entries ps') := by
  unfold entries
  refine List.rel_filterMap (fun p p' hp => ?_) h
  cases hp with
  | entry hp hp' he =>
    rw [hp, hp']
    exact Option.Rel.some ⟨rfl, he⟩
  | fault hp hp' =>
    rw [hp, hp']
    exact Option.Rel.none

theorem filter_alike {es es' : List (String × Expr)} (keep : String → Bool)
    (h : List.Forall₂ (EntryAlike S) es es') :
    List.Forall₂ (EntryAlike S) (es.filter fun e => keep e.1) (es'.filter fun e => keep e.1) := by
  refine List.rel_filter (fun a b hab => ?_) h
  show keep a.1 = true ↔ keep b.1 = true
  rw [hab.1]

theorem faults_alike (f : String → String) (name : String)
    (h : List.Forall₂ (Property.Alike S) ps ps') :
    faults (f name) ps' = (faults name ps).map (Diagnostic.mapName f) := by
  unfold faults
  rw [List.map_filterMap]
  refine filterMap_eq_of_forall₂ h fun p p' hp => ?_
  cases hp with
  | entry hp hp' _ =>
    rw [hp, hp']
    rfl
  | fault hp hp' =>
    rw [hp, hp']
    rfl

end Properties

/-! ## Object literals and other values -/

section Readers

variable (r : Registry) (name key : String) {entry : String × Expr} {value : Expr}
  {body : List Property}

theorem groupOf?_object (h : Value.ofExpr entry.2 = .object body) :
    groupOf? r name entry = some (entry.1, rulesOf r name (entries body)) := by
  simp only [groupOf?, h]

theorem groupOf?_other (h : ∀ ps, Value.ofExpr entry.2 ≠ .object ps) :
    groupOf? r name entry = none := by
  unfold groupOf?
  split
  · exact absurd ‹_› (h _)
  · rfl

theorem groupReports_object (h : Value.ofExpr entry.2 = .object body) :
    groupReports r name entry = bodyReports r name body := by
  simp only [groupReports, h]

theorem groupReports_other (h : ∀ ps, Value.ofExpr entry.2 ≠ .object ps) :
    groupReports r name entry = [.groupNotObject name entry.1] := by
  unfold groupReports
  split
  · exact absurd ‹_› (h _)
  · rfl

theorem groupsOf_object (h : Value.ofExpr value = .object body) :
    groupsOf r name value = OrderedMap.ofList ((entries body).filterMap (groupOf? r name)) := by
  simp only [groupsOf, h]

theorem groupsOf_other (h : ∀ ps, Value.ofExpr value ≠ .object ps) :
    groupsOf r name value = ∅ := by
  unfold groupsOf
  split
  · exact absurd ‹_› (h _)
  · rfl

theorem groupsReports_object (h : Value.ofExpr value = .object body) :
    groupsReports r name key value =
      faults name body ++ (entries body).flatMap (groupReports r name) := by
  simp only [groupsReports, h]

theorem groupsReports_other (h : ∀ ps, Value.ofExpr value ≠ .object ps) :
    groupsReports r name key value = [.groupsNotObject name key] := by
  unfold groupsReports
  split
  · exact absurd ‹_› (h _)
  · rfl

theorem themeEntriesAt_other (h : ∀ ps, Value.ofExpr entry.2 ≠ .object ps) :
    themeEntriesAt name entry = [.leaf entry.1 entry.1 entry.2] := by
  unfold themeEntriesAt
  split
  · exact absurd ‹_› (h _)
  · rfl

end Readers

namespace Simulation

variable {S : Expr → Expr → Prop} {R : Registry → Registry → Prop} {r s : Registry}
  {e e' : Expr} {a b : String × Expr} {es es' : List (String × Expr)} {ps ps' : List Property}
  (f : String → String) (name : String)

/-- Related expressions have the same text in related registries. -/
theorem resolve (sim : Simulation S R) (hr : R r s) (he : S e e') (property : String) :
    (Value.ofExpr e').resolve s property = (Value.ofExpr e).resolve r property := by
  cases sim.read he with
  | object h h' _ =>
    rw [h, h']
    rfl
  | text _ _ htext => exact htext r s hr property

/-! ## Styles -/

theorem ruleOf (sim : Simulation S R) (hr : R r s) (hab : EntryAlike S a b) :
    StyleCompiler.ruleOf s (f name) b =
      (StyleCompiler.ruleOf r name a).mapError (Diagnostic.mapName f) := by
  unfold StyleCompiler.ruleOf
  rw [hab.1, sim.resolve hr hab.2]
  cases (Value.ofExpr a.2).resolve r a.1 <;> rfl

theorem rulesOf (sim : Simulation S R) (hr : R r s) (h : List.Forall₂ (EntryAlike S) es es') :
    StyleCompiler.rulesOf s (f name) es' = StyleCompiler.rulesOf r name es := by
  unfold StyleCompiler.rulesOf
  refine congrArg OrderedMap.ofList (filterMap_eq_of_forall₂ h fun a b hab => ?_)
  rw [sim.ruleOf f name hr hab]
  cases StyleCompiler.ruleOf r name a <;> rfl

theorem ruleReports (sim : Simulation S R) (hr : R r s) (hab : EntryAlike S a b) :
    StyleCompiler.ruleReports s (f name) b =
      (StyleCompiler.ruleReports r name a).map (Diagnostic.mapName f) := by
  unfold StyleCompiler.ruleReports
  rw [sim.ruleOf f name hr hab]
  cases StyleCompiler.ruleOf r name a <;> rfl

theorem bodyReports (sim : Simulation S R) (hr : R r s)
    (h : List.Forall₂ (Property.Alike S) ps ps') :
    StyleCompiler.bodyReports s (f name) ps' =
      (StyleCompiler.bodyReports r name ps).map (Diagnostic.mapName f) := by
  unfold StyleCompiler.bodyReports
  rw [faults_alike f name h, List.map_append, List.map_flatMap]
  exact congrArg _ (flatMap_eq_of_forall₂ (entries_alike h) fun _ _ => sim.ruleReports f name hr)

theorem groupOf? (sim : Simulation S R) (hr : R r s) (hab : EntryAlike S a b) :
    StyleCompiler.groupOf? s (f name) b = StyleCompiler.groupOf? r name a := by
  cases sim.read hab.2 with
  | object h h' hps =>
    rw [groupOf?_object r name h, groupOf?_object s (f name) h', hab.1,
      sim.rulesOf f name hr (entries_alike hps)]
  | text h h' _ => rw [groupOf?_other r name h, groupOf?_other s (f name) h']

theorem groupReports (sim : Simulation S R) (hr : R r s) (hab : EntryAlike S a b) :
    StyleCompiler.groupReports s (f name) b =
      (StyleCompiler.groupReports r name a).map (Diagnostic.mapName f) := by
  cases sim.read hab.2 with
  | object h h' hps =>
    rw [groupReports_object r name h, groupReports_object s (f name) h',
      sim.bodyReports f name hr hps]
  | text h h' _ =>
    rw [groupReports_other r name h, groupReports_other s (f name) h', hab.1]
    rfl

theorem groupsOf (sim : Simulation S R) (hr : R r s) (he : S e e') :
    StyleCompiler.groupsOf s (f name) e' = StyleCompiler.groupsOf r name e := by
  cases sim.read he with
  | object h h' hps =>
    rw [groupsOf_object r name h, groupsOf_object s (f name) h']
    exact congrArg OrderedMap.ofList
      (filterMap_eq_of_forall₂ (entries_alike hps) fun _ _ => sim.groupOf? f name hr)
  | text h h' _ => rw [groupsOf_other r name h, groupsOf_other s (f name) h']

theorem groupsReports (sim : Simulation S R) (hr : R r s) (he : S e e') (key : String) :
    StyleCompiler.groupsReports s (f name) key e' =
      (StyleCompiler.groupsReports r name key e).map (Diagnostic.mapName f) := by
  cases sim.read he with
  | object h h' hps =>
    rw [groupsReports_object r name key h, groupsReports_object s (f name) key h',
      faults_alike f name hps, List.map_append, List.map_flatMap]
    exact congrArg _
      (flatMap_eq_of_forall₂ (entries_alike hps) fun _ _ => sim.groupReports f name hr)
  | text h h' _ =>
    rw [groupsReports_other r name key h, groupsReports_other s (f name) key h']
    rfl

theorem groupsAt (sim : Simulation S R) (hr : R r s) (h : List.Forall₂ (EntryAlike S) es es')
    (key : String) :
    StyleCompiler.groupsAt s (f name) key es' = StyleCompiler.groupsAt r name key es := by
  -- the entries with the key stand in step, so the last of them do
  have hlast := List.rel_reverse (filter_alike (fun k => k = key) h)
  unfold StyleCompiler.groupsAt
  rw [← List.head?_reverse, ← List.head?_reverse]
  generalize (es.filter fun e => e.1 = key).reverse = last,
    (es'.filter fun e => e.1 = key).reverse = last' at hlast
  cases hlast with
  | nil => rfl
  | cons hab _ => exact sim.groupsOf f name hr hab.2

theorem styleOf (sim : Simulation S R) (hr : R r s) (h : List.Forall₂ (Property.Alike S) ps ps') :
    StyleCompiler.styleOf s (f name) ps' = (StyleCompiler.styleOf r name ps).mapName f := by
  have hes := entries_alike h
  have hrules := filter_alike (fun key => !isGroupsKey key) hes
  unfold StyleCompiler.styleOf Declaration.mapName
  simp only [sim.rulesOf f name hr hrules, sim.groupsAt f name hr hes]

theorem styleReports (sim : Simulation S R) (hr : R r s)
    (h : List.Forall₂ (Property.Alike S) ps ps') :
    StyleCompiler.styleReports s (f name) ps' =
      (StyleCompiler.styleReports r name ps).map (Diagnostic.mapName f) := by
  unfold StyleCompiler.styleReports
  rw [faults_alike f name h, List.map_append, List.map_flatMap]
  refine congrArg _ (flatMap_eq_of_forall₂ (entries_alike h) fun a b hab => ?_)
  unfold styleEntryReports
  rw [hab.1]
  split
  · exact sim.groupsReports f name hr hab.2 a.1
  · exact sim.ruleReports f name hr hab

/-! ## Contracts and themes -/

/-- Two entries of contracts or themes that are alike. -/
inductive ThemeAlike (S : Expr → Expr → Prop) (f : String → String) :
    ThemeEntry → ThemeEntry → Prop
  | leaf {path property : String} {e e' : Expr} :
      S e e' → ThemeAlike S f (.leaf path property e) (.leaf path property e')
  | report {d : Diagnostic} : ThemeAlike S f (.report d) (.report (d.mapName f))

theorem reports_alike (h : List.Forall₂ (Property.Alike S) ps ps') :
    List.Forall₂ (ThemeAlike S f) ((faults name ps).map .report)
      ((faults (f name) ps').map .report) := by
  rw [faults_alike f name h, List.map_map, List.forall₂_map_left_iff, List.forall₂_map_right_iff,
    List.forall₂_same]
  exact fun d _ => ThemeAlike.report

theorem themeEntriesAt (sim : Simulation S R) (hab : EntryAlike S a b) :
    List.Forall₂ (ThemeAlike S f) (StyleCompiler.themeEntriesAt name a)
      (StyleCompiler.themeEntriesAt (f name) b) := by
  obtain ⟨key, e⟩ := a
  obtain ⟨key', e'⟩ := b
  obtain ⟨rfl, he⟩ := hab
  cases sim.read he with
  | object h h' hps =>
    simp only [StyleCompiler.themeEntriesAt, h, h']
    refine List.rel_append (reports_alike f name hps) ?_
    refine List.rel_map (fun a b hab => ?_) (entries_alike hps)
    rw [hab.1]
    exact ThemeAlike.leaf hab.2
  | text h h' _ =>
    rw [themeEntriesAt_other name h, themeEntriesAt_other (f name) h']
    exact .cons (ThemeAlike.leaf he) .nil

theorem themeEntries (sim : Simulation S R) (h : List.Forall₂ (Property.Alike S) ps ps') :
    List.Forall₂ (ThemeAlike S f) (StyleCompiler.themeEntries name ps)
      (StyleCompiler.themeEntries (f name) ps') := by
  refine List.rel_append (reports_alike f name h) ?_
  exact List.rel_flatMap (entries_alike h) fun _ _ => sim.themeEntriesAt f name

/-- Two outcomes of contracts or themes that are alike. -/
structure OutcomeAlike (R : Registry → Registry → Prop) (f : String → String)
    (o o' : ThemeOutcome) : Prop where
  texts : o'.texts = o.texts
  diagnostics : o'.diagnostics = o.diagnostics.map (Diagnostic.mapName f)
  registry : R o.registry o'.registry

/-- **Alike entries of a contract or a theme** come to the same texts and reports, and leave
related registries. -/
theorem runTheme (sim : Simulation S R) {ts ts' : List ThemeEntry}
    (h : List.Forall₂ (ThemeAlike S f) ts ts') (kind : Kind) (hr : R r s) :
    OutcomeAlike R f (StyleCompiler.runTheme kind name r ts)
      (StyleCompiler.runTheme kind (f name) s ts') := by
  induction h generalizing r s with
  | nil => exact ⟨rfl, rfl, hr⟩
  | cons hentry _ ih =>
    cases hentry with
    | report =>
      obtain ⟨ht, hd, hreg⟩ := ih hr
      exact ⟨ht, congrArg _ hd, hreg⟩
    | @leaf path property e e' he =>
      simp only [StyleCompiler.runTheme, sim.resolve hr he]
      cases (Value.ofExpr e).resolve r property with
      | ok text =>
        obtain ⟨ht, hd, hreg⟩ := ih (sim.enter hr kind path text)
        exact ⟨congrArg ((path, text) :: ·) ht, hd, hreg⟩
      | error reason =>
        obtain ⟨ht, hd, hreg⟩ := ih hr
        exact ⟨ht, congrArg _ hd, hreg⟩

end Simulation

/-! ## Calls and runs -/

/-- Two forms with alike object literals. -/
inductive Call.Form.Alike (S : Expr → Expr → Prop) : Call.Form → Call.Form → Prop
  | style {ps ps' : List Property} :
      List.Forall₂ (Property.Alike S) ps ps' → Call.Form.Alike S (.style ps) (.style ps')
  | entries {ps ps' : List Property} :
      List.Forall₂ (Property.Alike S) ps ps' → Call.Form.Alike S (.entries ps) (.entries ps')
  | rejected : Call.Form.Alike S .rejected .rejected

/-- Two calls that are alike, bound to names that `f` relates. -/
structure Call.Alike (S : Expr → Expr → Prop) (f : String → String) (c c' : Call) : Prop where
  name : c'.name = f c.name
  kind : c'.kind = c.kind
  form : Call.Form.Alike S c.form c'.form
  why : c'.why = c.why

/-- The properties of an expression that is an object literal. -/
def Expr.object? : Expr → Option (List Property)
  | .object ps => some ps
  | _ => none

/-- Is the expression an array literal? -/
def Expr.isArray : Expr → Bool
  | .array _ => true
  | _ => false

/-- Two expressions that serve alike as arguments: both are object literals with alike properties,
or neither is one, and both are array literals or neither is. -/
structure Expr.SameForm (S : Expr → Expr → Prop) (e e' : Expr) : Prop where
  object : Option.Rel (List.Forall₂ (Property.Alike S)) e.object? e'.object?
  array : e'.isArray = e.isArray

/-- Two arguments that are alike inside their wrappers. -/
inductive Arg.Alike (S : Expr → Expr → Prop) : Arg → Arg → Prop
  | plain {e e' : Expr} :
      Expr.SameForm S e.unwrap e'.unwrap → Arg.Alike S (.plain e) (.plain e')
  | spread {e e' : Expr} :
      Expr.SameForm S e.unwrap e'.unwrap → Arg.Alike S (.spread e) (.spread e')

namespace Call

variable {S : Expr → Expr → Prop} {f : String → String} {c c' : Call}

/-- The first arguments of calls with alike arguments, if there are any. -/
theorem firstArg?_alike (h : List.Forall₂ (Arg.Alike S) c.args c'.args) :
    Option.Rel (Expr.SameForm S) c.firstArg? c'.firstArg? := by
  unfold firstArg?
  generalize c.args = args, c'.args = args' at h
  cases h with
  | nil => exact .none
  | cons ha _ =>
    cases ha with
    | plain he | spread he => exact .some he

/-- The object literals that calls with alike arguments take, if they take one. -/
theorem objectArg?_alike (h : List.Forall₂ (Arg.Alike S) c.args c'.args) :
    Option.Rel (List.Forall₂ (Property.Alike S)) c.objectArg? c'.objectArg? := by
  have hobject : ∀ e : Expr, objectOf? (.plain e) = e.unwrap.object? := fun e => rfl
  unfold objectArg?
  generalize c.args = args, c'.args = args' at h
  induction h with
  | nil => exact .none
  | cons ha _ ih =>
    rw [List.findSome?_cons, List.findSome?_cons]
    cases ha with
    | spread => exact ih
    | @plain e e' he =>
      have hps := he.object
      rw [hobject, hobject]
      generalize e.unwrap.object? = o, e'.unwrap.object? = o' at hps
      cases hps with
      | none => exact ih
      | some hps => exact .some hps

theorem form_eq_match (c : Call) :
    c.form =
      match c.kind, c.firstArg?.bind Expr.object?, c.objectArg? with
      | .style, some ps, _ => .style ps
      | .style, none, _ => .rejected
      | _, _, some ps => .entries ps
      | _, _, none => .rejected := by
  unfold form
  cases c.kind with
  | style =>
    cases c.firstArg? with
    | none => rfl
    | some e => cases e <;> rfl
  | themeContract | themeInstance => cases c.objectArg? <;> rfl

theorem why_eq_match (c : Call) :
    c.why =
      match c.kind, c.firstArg?.map Expr.isArray with
      | .style, some true => .composition
      | .style, some false => .notObject
      | .style, none => .missingStyle
      | .themeContract, _ => .missingContract
      | .themeInstance, _ => .missingTheme := by
  unfold why
  cases c.kind with
  | style =>
    cases c.firstArg? with
    | none => rfl
    | some e => cases e <;> rfl
  | themeContract | themeInstance => rfl

/-- **Calls with alike arguments are alike.** -/
theorem Alike.ofArgs (hname : c'.name = f c.name) (hkind : c'.kind = c.kind)
    (hargs : List.Forall₂ (Arg.Alike S) c.args c'.args) : Call.Alike S f c c' where
  name := hname
  kind := hkind
  form := by
    have hfirst := firstArg?_alike hargs
    have hstyle : Option.Rel (List.Forall₂ (Property.Alike S))
        (c.firstArg?.bind Expr.object?) (c'.firstArg?.bind Expr.object?) := by
      generalize c.firstArg? = first, c'.firstArg? = first' at hfirst
      cases hfirst with
      | none => exact .none
      | some he => exact he.object
    have hobject := objectArg?_alike hargs
    rw [form_eq_match, form_eq_match, hkind]
    generalize c.firstArg?.bind Expr.object? = style, c'.firstArg?.bind Expr.object? = style'
      at hstyle
    generalize c.objectArg? = object, c'.objectArg? = object' at hobject
    cases c.kind with
    | style =>
      cases hstyle with
      | none => exact .rejected
      | some hps => exact .style hps
    | themeContract | themeInstance =>
      cases hobject with
      | none => exact .rejected
      | some hps => exact .entries hps
  why := by
    have hfirst := firstArg?_alike hargs
    rw [why_eq_match, why_eq_match, hkind]
    generalize c.firstArg? = first, c'.firstArg? = first' at hfirst
    cases hfirst with
    | none => rfl
    | some he => rw [Option.map_some, Option.map_some, he.array]

end Call

/-- Two steps that yield the same up to the name and leave related registries. -/
structure Step.Alike (R : Registry → Registry → Prop) (f : String → String)
    (st st' : Step) : Prop where
  declaration : st'.declaration = st.declaration.mapName f
  diagnostics : st'.diagnostics = st.diagnostics.map (Diagnostic.mapName f)
  registry : R st.registry st'.registry

/-- What a step shows, about a declaration with another name. -/
def mapOutput (f : String → String) (o : Declaration × List Diagnostic) :
    Declaration × List Diagnostic :=
  (o.1.mapName f, o.2.map (Diagnostic.mapName f))

theorem mapOutput_id : mapOutput id = id := by
  funext o
  simp only [mapOutput, Declaration.mapName_id, Diagnostic.mapName_id, List.map_id, id]

theorem Step.Alike.output_eq {R : Registry → Registry → Prop} {f : String → String}
    {st st' : Step} (h : Step.Alike R f st st') : st'.output = mapOutput f st.output :=
  Prod.ext h.declaration h.diagnostics

theorem Call.Alike.refl (c : Call) : Call.Alike Eq id c c where
  name := rfl
  kind := rfl
  form := by
    have hps : ∀ ps : List Property, List.Forall₂ (Property.Alike Eq) ps ps :=
      fun ps => List.forall₂_same.mpr fun p _ => .refl p
    cases c.form with
    | style ps => exact .style (hps ps)
    | entries ps => exact .entries (hps ps)
    | rejected => exact .rejected
  why := rfl

/-- Alike calls under the same names are begun alike. -/
theorem Call.Alike.start_eq {S : Expr → Expr → Prop} {c c' : Call} (h : Call.Alike S id c c')
    (r : Registry) : c'.start r = c.start r := by
  unfold Call.start
  rw [h.kind, h.name]
  rfl

namespace Simulation

variable {S : Expr → Expr → Prop} {R : Registry → Registry → Prop} {r s : Registry}
  {f : String → String} {c c' : Call}

/-- **Alike calls compile alike**, if they are begun in related registries. -/
theorem run (sim : Simulation S R) (hc : Call.Alike S f c c') (hr : R (c.start r) (c'.start s)) :
    Step.Alike R f (c.run r) (c'.run s) := by
  have hform := hc.form
  generalize hf : c.form = form, hf' : c'.form = form' at hform
  cases hform with
  | style hps =>
    have hk : c.kind ≠ .themeContract := by simp [(Call.form_eq_style.mp hf).1]
    have hk' : c'.kind ≠ .themeContract := by rwa [hc.kind]
    rw [Call.start_of_ne hk, Call.start_of_ne hk'] at hr
    rw [Call.run_of_style hf, Call.run_of_style hf', hc.name]
    exact ⟨sim.styleOf f c.name hr hps, sim.styleReports f c.name hr hps, hr⟩
  | entries hps =>
    obtain ⟨ht, hd, hreg⟩ := sim.runTheme f c.name (sim.themeEntries f c.name hps) c.kind hr
    rw [Call.run_of_entries hf, Call.run_of_entries hf']
    unfold Call.runEntries
    rw [hc.name, hc.kind]
    refine ⟨?_, hd, hreg⟩
    simp only [ht]
    rfl
  | rejected =>
    rw [Call.run_of_rejected hf, Call.run_of_rejected hf', hc.why]
    unfold Call.reject
    rw [hc.name, hc.kind]
    exact ⟨rfl, rfl, hr⟩

/-- **Runs of alike calls show the same** up to the names, and leave related registries. The
relation `C` between calls may say more than that they are alike. -/
theorem runCalls (sim : Simulation S R) {C : Call → Call → Prop}
    (halike : ∀ {c c'}, C c c' → Call.Alike S f c c')
    (hstart : ∀ {c c' r s}, C c c' → R r s → R (c.start r) (c'.start s))
    {calls calls' : List Call} (h : List.Forall₂ C calls calls') (hr : R r s) :
    (StyleCompiler.runCalls s calls').map Step.output =
        ((StyleCompiler.runCalls r calls).map Step.output).map (mapOutput f) ∧
      R (registryAfter r calls) (registryAfter s calls') := by
  induction h generalizing r s with
  | nil => exact ⟨rfl, hr⟩
  | cons hc _ ih =>
    have hstep := sim.run (halike hc) (hstart hc hr)
    obtain ⟨houtput, hreg⟩ := ih hstep.registry
    refine ⟨?_, hreg⟩
    simp only [StyleCompiler.runCalls, List.map_cons, hstep.output_eq, houtput]

/-- **Runs of alike calls under the same names show the same.** -/
theorem runCalls_id (sim : Simulation S R) {C : Call → Call → Prop}
    (halike : ∀ {c c'}, C c c' → Call.Alike S id c c')
    (hstart : ∀ {c c' r s}, C c c' → R r s → R (c.start r) (c'.start s))
    {calls calls' : List Call} (h : List.Forall₂ C calls calls') (hr : R r s) :
    (StyleCompiler.runCalls s calls').map Step.output =
        (StyleCompiler.runCalls r calls).map Step.output ∧
      R (registryAfter r calls) (registryAfter s calls') := by
  have hrun := sim.runCalls halike hstart h hr
  rwa [mapOutput_id, List.map_id] at hrun

end Simulation

/-! ## Compiled modules -/

theorem names_runCalls (r : Registry) (calls : List Call) :
    ((runCalls r calls).map Step.output).map (fun o => o.1.name) = calls.map Call.name := by
  induction calls generalizing r with
  | nil => rfl
  | cons c calls ih =>
    simp only [runCalls, List.map_cons, ih]
    exact congrArg (· :: _) (c.run_name r)

/-- Declarations under other names, no two of them under one, are merged as before. -/
theorem values_byName_mapName {f : String → String} {ds : List Declaration}
    (hinj : ∀ d ∈ ds, ∀ e ∈ ds, f d.name = f e.name → d.name = e.name) :
    (byName (ds.map (Declaration.mapName f))).values =
      (byName ds).values.map (Declaration.mapName f) := by
  have hpairs : (ds.map (Declaration.mapName f)).map (fun d => (d.name, d)) =
      (ds.map fun d => (d.name, d)).map (Prod.map f (Declaration.mapName f)) := by
    simp only [List.map_map]
    rfl
  have hkeys : ∀ k ∈ (ds.map fun d => (d.name, d)).map Prod.fst,
      ∀ l ∈ (ds.map fun d => (d.name, d)).map Prod.fst, f k = f l → k = l := by
    simpa [List.map_map] using hinj
  unfold byName OrderedMap.values
  rw [hpairs, OrderedMap.entries_ofList_map f _ hkeys, List.map_map, List.map_map]
  rfl

/-- **A module whose steps show the same up to the names** compiles to the same declarations and
diagnostics up to the names, if no two names become one. -/
theorem compile_mapName {f : String → String} {m m' : Module} (options : Options)
    (h : m'.steps.map Step.output = (m.steps.map Step.output).map (mapOutput f))
    (hinj : ∀ c ∈ m.calls, ∀ d ∈ m.calls, f c.name = f d.name → c.name = d.name) :
    (compile options m').declarations =
        (compile options m).declarations.map (Declaration.mapName f) ∧
      (compile options m').diagnostics =
        (compile options m).diagnostics.map (Diagnostic.mapName f) := by
  have hdeclarations : m'.steps.map Step.declaration =
      (m.steps.map Step.declaration).map (Declaration.mapName f) := by
    have hfst := congrArg (List.map Prod.fst) h
    simpa [List.map_map, Function.comp_def, mapOutput, Step.output] using hfst
  have hdiagnostics : m'.steps.flatMap Step.diagnostics =
      (m.steps.flatMap Step.diagnostics).map (Diagnostic.mapName f) := by
    have hsnd := congrArg (List.flatMap Prod.snd) h
    simpa [List.flatMap_map, List.map_flatMap, mapOutput, Step.output] using hsnd
  rw [compile_declarations, compile_declarations, compile_diagnostics, compile_diagnostics,
    hdeclarations, hdiagnostics]
  refine ⟨values_byName_mapName ?_, rfl⟩
  -- the names of the declarations are those of the calls
  have hnames : ∀ d ∈ m.steps.map Step.declaration, ∃ c ∈ m.calls, c.name = d.name := by
    intro d hd
    obtain ⟨st, hst, rfl⟩ := List.mem_map.mp hd
    have hmem : st.declaration.name ∈ m.calls.map Call.name := by
      rw [← names_runCalls {} m.calls, List.map_map]
      exact List.mem_map_of_mem hst
    exact List.mem_map.mp hmem
  intro d hd e he hde
  obtain ⟨c, hc, hcd⟩ := hnames d hd
  obtain ⟨c', hc', hce⟩ := hnames e he
  rw [← hcd, ← hce] at hde ⊢
  exact hinj c hc c' hc' hde

/-- **A module whose steps show the same compiles to the same.** -/
theorem compile_eq_of_output (options : Options) {m m' : Module}
    (h : m'.steps.map Step.output = m.steps.map Step.output) :
    compile options m' = compile options m := by
  have hid : m'.steps.map Step.output = (m.steps.map Step.output).map (mapOutput id) := by
    rw [mapOutput_id, List.map_id, h]
  obtain ⟨hdeclarations, hdiagnostics⟩ := compile_mapName options hid fun _ _ _ _ hcd => hcd
  rw [Declaration.mapName_id, List.map_id] at hdeclarations
  rw [Diagnostic.mapName_id, List.map_id] at hdiagnostics
  have hcss : (compile options m').css = (compile options m).css := by
    rw [compile_css, compile_css, hdeclarations]
  generalize compile options m' = compiled', compile options m = compiled
    at hcss hdeclarations hdiagnostics
  cases compiled
  cases compiled'
  simp only [Compiled.mk.injEq]
  exact ⟨hcss, hdeclarations, hdiagnostics⟩

/-- **Modules of alike calls under the same names compile to the same.** -/
theorem Simulation.compile_eq {S : Expr → Expr → Prop} (sim : Simulation S Eq) (options : Options)
    {m m' : Module} (h : List.Forall₂ (Call.Alike S id) m.calls m'.calls) :
    compile options m' = compile options m := by
  have hstart : ∀ {c c' : Call} {r s : Registry}, Call.Alike S id c c' → r = s →
      c.start r = c'.start s := by
    rintro c c' r _ hc rfl
    exact (hc.start_eq r).symm
  have hrun := sim.runCalls_id (fun hc => hc) hstart h (rfl : ({} : Registry) = {})
  exact compile_eq_of_output options hrun.1

end StyleCompiler
