import StyleCompiler.Proofs.Renaming.Definition
import StyleCompiler.Proofs.Simulation

/-!
# The name of a contract is irrelevant

Once a contract is bound to a name, a reference that starts with the name means the path of its
other segments. So the name itself does not count, and it may be changed to any other that is not
in use, whether or not one of the two speaks of a theme or a contract. What has to hold is that no
reference starts with the old name before the contract is begun: there the name would count.

The two compilations are compared by a simulation. Its registries have the same variables, and the
bindings of the one are those of the other, renamed (`Registry.Renamed`). Which roots may occur in
an expression depends on how far the compilation has come, hence the parameter `Known`.

* `Value.ofExpr_rename`, `Value.roots_ofExpr_subset`: what a renamed expression says, and the roots
  in it.
* `Registry.Renamed.reference`: a renamed reference has the text that it had.
* `renaming_simulation`: a renamed compilation runs side by side with the original one.
* `contract_name_irrelevant`: so a module with the contract renamed compiles to the same
  declarations, up to the name.
-/

namespace StyleCompiler

variable {v w : String}

/-! ## Reading renamed expressions -/

theorem Expr.unwrap_rename (e : Expr) (root : Bool) :
    (e.rename v w root).unwrap = e.unwrap.rename v w root := by
  fun_induction Expr.unwrap e with
  | case1 _ _ ih => exact ih
  | case2 e h =>
    cases e with
    | wrapped wrapper inner => exact absurd rfl (h wrapper inner)
    | _ => rfl

theorem Expr.literal?_rename (e : Expr) : (e.rename v w false).literal? = e.literal? := by
  unfold Expr.literal?
  rw [e.unwrap_rename]
  cases h : e.unwrap with
  | wrapped wrapper inner => exact absurd h (e.unwrap_ne_wrapped wrapper inner)
  | _ => rfl

theorem Segment.text?_rename (s : Segment) : (s.rename v w).text? = s.text? := by
  cases s with
  | index i => exact i.literal?_rename
  | name _ | hidden _ => rfl

/-- The segments of a reference with the root renamed. -/
def renameRoot (v w : String) : List String → List String
  | [] => []
  | root :: rest => replaceName v w root :: rest

theorem renameRoot_append {segments : List String} (h : segments ≠ []) (more : List String) :
    renameRoot v w (segments ++ more) = renameRoot v w segments ++ more := by
  cases segments with
  | nil => exact absurd rfl h
  | cons root rest => rfl

theorem Expr.chain?_rename (e : Expr) :
    (e.rename v w true).chain? = e.chain?.map (renameRoot v w) := by
  fun_induction Expr.chain? e with
  | case1 name => rfl
  | case2 _ inner ih => exact ih
  | case3 base segment ih =>
    simp only [Expr.rename, Expr.chain?, ih, segment.text?_rename]
    cases hchain : base.chain? with
    | none => rfl
    | some chain =>
      cases segment.text? with
      | none => rfl
      | some text => simp [renameRoot_append (Expr.ne_nil_of_chain? hchain)]
  | case4 e hident hwrapped hmember =>
    cases e with
    | ident name => exact absurd rfl (hident name)
    | wrapped wrapper inner => exact absurd rfl (hwrapped wrapper inner)
    | member base segment => exact absurd rfl (hmember base segment)
    | _ => rfl

/-- The part of a template with the root renamed. -/
def Part.rename (v w : String) : Part → Part
  | .text t => .text t
  | .reference segments => .reference (renameRoot v w segments)

theorem Part.ofExpr?_rename (e : Expr) :
    Part.ofExpr? (e.rename v w false) = (Part.ofExpr? e).map (Part.rename v w) := by
  unfold Part.ofExpr?
  rw [e.unwrap_rename]
  cases h : e.unwrap with
  | wrapped wrapper inner => exact absurd h (e.unwrap_ne_wrapped wrapper inner)
  | member base segment =>
    have hchain := Expr.chain?_rename (v := v) (w := w) (.member base segment)
    simp only [Expr.rename] at hchain
    simp only [Expr.rename, hchain, Option.map_map]
    rfl
  | _ => rfl

theorem templateParts?_rename (qs : List Quasi) (es : List Expr) :
    templateParts? qs (es.map (Expr.rename v w false)) =
      (templateParts? qs es).map (List.map (Part.rename v w)) := by
  induction qs generalizing es with
  | nil => rfl
  | cons q qs ih =>
    have hlead : (if q.text = "" then [] else [Part.text q.text]).map (Part.rename v w) =
        if q.text = "" then [] else [Part.text q.text] := by
      split <;> rfl
    cases es with
    | nil =>
      have hrest := ih []
      simp only [List.map_nil, templateParts?] at hrest ⊢
      cases hparts : templateParts? qs [] with
      | none => rfl
      | some parts =>
        rw [hparts, Option.map_some, Option.some.injEq] at hrest
        simp [hlead, ← hrest]
    | cons e es =>
      simp only [List.map_cons, templateParts?, Part.ofExpr?_rename, ih]
      cases Part.ofExpr? e with
      | none => rfl
      | some part =>
        cases templateParts? qs es with
        | none => rfl
        | some parts => simp [hlead]

/-- The value with roots renamed. -/
def Value.rename (v w : String) : Value → Value
  | .reference segments => .reference (renameRoot v w segments)
  | .template parts => .template (parts.map (Part.rename v w))
  | .object properties => .object (properties.map (Property.rename v w))
  | .text t => .text t
  | .number x => .number x
  | .null => .null
  | .unsupported => .unsupported

/-- **What a renamed expression says** is what the expression says, with roots renamed. -/
theorem Value.ofExpr_rename (e : Expr) :
    Value.ofExpr (e.rename v w false) = (Value.ofExpr e).rename v w := by
  unfold Value.ofExpr
  rw [e.unwrap_rename]
  cases h : e.unwrap with
  | wrapped wrapper inner => exact absurd h (e.unwrap_ne_wrapped wrapper inner)
  | object properties => simp only [Expr.rename, Value.rename, renameProperties_eq_map]
  | unary op operand =>
    cases op with
    | minus =>
      simp only [Expr.rename, operand.unwrap_rename]
      cases h : operand.unwrap with
      | wrapped wrapper inner => exact absurd h (operand.unwrap_ne_wrapped wrapper inner)
      | _ => rfl
    | _ => rfl
  | member base segment =>
    have hchain := Expr.chain?_rename (v := v) (w := w) (.member base segment)
    simp only [Expr.rename] at hchain
    simp only [Expr.rename, hchain]
    cases (Expr.member base segment).chain? <;> rfl
  | template qs es =>
    simp only [Expr.rename, renameExprs_eq_map]
    unfold Value.ofTemplate
    rw [List.isEmpty_map, templateParts?_rename]
    split
    · rfl
    · cases templateParts? qs es <;> rfl
  | _ => rfl

theorem Key.text?_rename (k : Key) : (k.rename v w).text? = k.text? := by
  cases k <;> rfl

theorem Property.entry_rename (p : Property) :
    (p.rename v w).entry = p.entry.map fun e => (e.1, e.2.rename v w false) := by
  cases p with
  | keyValue key value =>
    simp only [Property.rename, Property.entry, key.text?_rename]
    cases key.text? <;> rfl
  | shorthand _ | assign _ _ | getter _ | setter _ _ | method _ | spread _ => rfl

/-! ## The roots in what is read -/

theorem Property.roots_of_entry {p : Property} {entry : String × Expr}
    (h : p.entry = .ok entry) : entry.2.roots false ⊆ p.roots := by
  cases p with
  | keyValue key value =>
    simp only [Property.entry] at h
    split at h
    · obtain rfl := Except.ok.inj h
      exact List.subset_append_right _ _
    · cases h
  | shorthand _ | assign _ _ | getter _ | setter _ _ | method _ | spread _ => cases h

theorem Expr.roots_unwrap (e : Expr) (root : Bool) : e.unwrap.roots root = e.roots root := by
  fun_induction Expr.unwrap e with
  | case1 _ _ ih => exact ih
  | case2 => rfl

/-- The root of a member chain is one of the roots of the expression. -/
theorem Expr.mem_roots_of_chain? {e : Expr} {segments : List String} {root : String}
    (h : e.chain? = some segments) (hroot : segments.head? = some root) : root ∈ e.roots true := by
  fun_induction Expr.chain? e generalizing segments with
  | case1 name =>
    obtain rfl := Option.some.inj h
    obtain rfl := Option.some.inj hroot
    exact List.mem_cons_self
  | case2 _ inner ih => exact ih h hroot
  | case3 base segment ih =>
    obtain ⟨chain, hchain, h⟩ := Option.bind_eq_some_iff.mp h
    obtain ⟨text, htext, h⟩ := Option.bind_eq_some_iff.mp h
    obtain rfl := Option.some.inj h
    rw [List.head?_append_of_ne_nil _ (Expr.ne_nil_of_chain? hchain)] at hroot
    simp only [Expr.roots, htext, Option.isSome_some]
    exact List.mem_append_left _ (ih hchain hroot)
  | case4 => cases h

/-- The root of the reference that a part of a template is. -/
def Part.roots : Part → List String
  | .text _ => []
  | .reference segments => segments.head?.toList

theorem Part.roots_ofExpr?_subset {e : Expr} {part : Part} (h : Part.ofExpr? e = some part) :
    part.roots ⊆ e.roots false := by
  unfold Part.ofExpr? at h
  rw [← e.roots_unwrap]
  split at h
  · rename_i base segment hunwrap
    obtain ⟨segments, hchain, rfl⟩ := Option.map_eq_some_iff.mp h
    rw [hunwrap]
    intro root hroot
    exact Expr.mem_roots_of_chain? hchain (Option.mem_toList.mp hroot)
  · obtain rfl := Option.some.inj h
    exact List.nil_subset _
  · obtain rfl := Option.some.inj h
    exact List.nil_subset _
  · cases h

theorem roots_templateParts?_subset {qs : List Quasi} {es : List Expr} {parts : List Part}
    (h : templateParts? qs es = some parts) : parts.flatMap Part.roots ⊆ rootsExprs es := by
  have hlead : ∀ q : Quasi,
      (if q.text = "" then [] else [Part.text q.text]).flatMap Part.roots = [] := by
    intro q
    split <;> rfl
  induction qs generalizing es parts with
  | nil =>
    obtain rfl := Option.some.inj h
    exact List.nil_subset _
  | cons q qs ih =>
    cases es with
    | nil =>
      obtain ⟨rest, hrest, rfl⟩ := Option.map_eq_some_iff.mp h
      rw [List.flatMap_append, hlead, List.nil_append]
      exact ih hrest
    | cons e es =>
      obtain ⟨part, hpart, h⟩ := Option.bind_eq_some_iff.mp h
      obtain ⟨rest, hrest, h⟩ := Option.bind_eq_some_iff.mp h
      obtain rfl := Option.some.inj h
      rw [List.flatMap_append, hlead, List.nil_append, List.flatMap_cons]
      exact List.append_subset.mpr
        ⟨List.subset_append_of_subset_left _ (Part.roots_ofExpr?_subset hpart),
          List.subset_append_of_subset_right _ (ih hrest)⟩

/-- The roots in a value. -/
def Value.roots : Value → List String
  | .reference segments => segments.head?.toList
  | .template parts => parts.flatMap Part.roots
  | .object properties => rootsProperties properties
  | _ => []

/-- **The roots in what an expression says** are roots of the expression. -/
theorem Value.roots_ofExpr_subset (e : Expr) : (Value.ofExpr e).roots ⊆ e.roots false := by
  unfold Value.ofExpr
  rw [← e.roots_unwrap]
  cases e.unwrap with
  | object properties => exact List.Subset.refl _
  | unary op operand =>
    cases op with
    | minus =>
      simp only
      split <;> exact List.nil_subset _
    | _ => exact List.nil_subset _
  | member base segment =>
    simp only
    split
    · rename_i segments hchain
      intro root hroot
      exact Expr.mem_roots_of_chain? hchain (Option.mem_toList.mp hroot)
    · exact List.nil_subset _
  | template qs es =>
    simp only [Value.ofTemplate]
    split
    · exact List.nil_subset _
    · split
      · exact roots_templateParts?_subset ‹_›
      · exact List.nil_subset _
  | _ => exact List.nil_subset _

/-! ## Registries -/

theorem replaceName_self (v w : String) : replaceName v w v = w := if_pos rfl

theorem replaceName_of_ne {name : String} (h : name ≠ v) : replaceName v w name = name := if_neg h

/-- Names other than the new one stay apart. -/
theorem replaceName_inj {a b : String} (ha : a ≠ w) (hb : b ≠ w)
    (h : replaceName v w a = replaceName v w b) : a = b := by
  by_cases hav : a = v
  · by_cases hbv : b = v
    · rw [hav, hbv]
    · rw [hav, replaceName_self, replaceName_of_ne hbv] at h
      exact absurd h.symm hb
  · by_cases hbv : b = v
    · rw [hbv, replaceName_self, replaceName_of_ne hav] at h
      exact absurd h ha
    · rwa [replaceName_of_ne hav, replaceName_of_ne hbv] at h

namespace Registry

/-- Registries with the same variables, the bindings of the first renamed in the second. -/
structure Renamed (v w : String) (r s : Registry) : Prop where
  vars : s.vars = r.vars
  bindings : s.bindings = r.bindings.map (replaceName v w)
  fresh : w ∉ r.bindings

/-- The root may be renamed in a reference: it is not the new name, and if it is the old one, a
contract is bound to it. -/
def Renamable (v w : String) (r : Registry) (root : String) : Prop :=
  root ≠ w ∧ (root = v → r.isBinding v = true)

namespace Renamed

variable {r s : Registry}

theorem isBinding (h : Renamed v w r s) {name : String} (hname : name ≠ w) :
    s.isBinding (replaceName v w name) = r.isBinding name := by
  rw [Bool.eq_iff_iff, isBinding_iff, isBinding_iff, h.bindings]
  constructor
  · intro hmem
    obtain ⟨bound, hbound, heq⟩ := List.mem_map.mp hmem
    have hne : bound ≠ w := fun hw => h.fresh (hw ▸ hbound)
    rwa [← replaceName_inj hne hname heq]
  · exact fun hmem => List.mem_map_of_mem hmem

/-- A renamed reference means the path that it meant. -/
theorem contractPath (h : Renamed v w r s) {segments : List String}
    (hroot : ∀ root, segments.head? = some root → Renamable v w r root) :
    s.contractPath (renameRoot v w segments) = r.contractPath segments := by
  have hdrop : s.dropBinding (renameRoot v w segments) = r.dropBinding segments := by
    cases segments with
    | nil => rfl
    | cons root rest =>
      obtain ⟨hne, hbound⟩ := hroot root rfl
      simp only [renameRoot, dropBinding, h.isBinding hne]
      -- only a root that is dropped in both registries is changed
      by_cases hv : root = v
      · subst hv
        rw [if_pos (hbound rfl), if_pos (hbound rfl)]
      · rw [replaceName_of_ne hv]
  unfold Registry.contractPath
  rw [hdrop]

/-- **A renamed reference has the text that it had.** -/
theorem reference (h : Renamed v w r s) {segments : List String}
    (hroot : ∀ root, segments.head? = some root → Renamable v w r root) :
    s.reference (renameRoot v w segments) = r.reference segments := by
  have hpaths : s.paths = r.paths := by rw [paths, paths, h.vars]
  rw [reference_eq, reference_eq, h.contractPath hroot, hpaths]

theorem resolveParts (h : Renamed v w r s) {parts : List Part}
    (hroots : ∀ root ∈ parts.flatMap Part.roots, Renamable v w r root) :
    StyleCompiler.resolveParts s (parts.map (Part.rename v w)) =
      StyleCompiler.resolveParts r parts := by
  induction parts with
  | nil => rfl
  | cons part parts ih =>
    rw [List.flatMap_cons, List.forall_mem_append] at hroots
    have hpart : (part.rename v w).resolve s = part.resolve r := by
      cases part with
      | text t => rfl
      | reference segments =>
        exact h.reference fun root hroot => hroots.1 root (Option.mem_toList.mpr hroot)
    simp only [List.map_cons, StyleCompiler.resolveParts, hpart, ih hroots.2]

theorem resolve (h : Renamed v w r s) {value : Value}
    (hroots : ∀ root ∈ value.roots, Renamable v w r root) (property : String) :
    (value.rename v w).resolve s property = value.resolve r property := by
  cases value with
  | reference segments =>
    exact h.reference fun root hroot => hroots root (Option.mem_toList.mpr hroot)
  | template parts => exact h.resolveParts hroots
  | text _ | number _ | null | object _ | unsupported => rfl

theorem enter (h : Renamed v w r s) (kind : Kind) (path text : String) :
    Renamed v w (kind.enter r path text) (kind.enter s path text) := by
  refine ⟨?_, ?_, ?_⟩
  · cases kind with
    | themeContract =>
      simp only [Kind.enter, declare, h.vars]
    | style | themeInstance =>
      simp only [Kind.enter, instantiate, h.vars]
      split
      · rfl
      · exact h.vars
  · rw [kind.bindings_enter, kind.bindings_enter, h.bindings]
  · rw [kind.bindings_enter]
    exact h.fresh

theorem registerBinding (h : Renamed v w r s) {name : String} (hname : name ≠ w) :
    Renamed v w (r.registerBinding name) (s.registerBinding (replaceName v w name)) := by
  have hmem : replaceName v w name ∈ s.bindings ↔ name ∈ r.bindings := by
    rw [← isBinding_iff, ← isBinding_iff, h.isBinding hname]
  unfold Registry.registerBinding
  by_cases hbound : name ∈ r.bindings
  · rw [if_pos hbound, if_pos (hmem.mpr hbound)]
    exact h
  · rw [if_neg hbound, if_neg fun hs => hbound (hmem.mp hs)]
    refine ⟨h.vars, ?_, ?_⟩
    · simp [h.bindings]
    · simp [h.fresh, Ne.symm hname]

theorem start (h : Renamed v w r s) {c : Call} (hname : c.name ≠ w) :
    Renamed v w (c.start r) ((c.rename v w).start s) := by
  by_cases hk : c.kind = .themeContract
  · simp only [Call.start, Call.rename, hk]
    exact h.registerBinding hname
  · rw [Call.start_of_ne hk, Call.start_of_ne (c := c.rename v w) hk]
    exact h

end Renamed

end Registry

/-! ## The simulation -/

section Simulation

variable {Known : String → Prop}

/-- The second expression is the first one renamed, and the roots in it are known. -/
def RenamedExpr (v w : String) (Known : String → Prop) (e e' : Expr) : Prop :=
  e' = e.rename v w false ∧ ∀ root ∈ e.roots false, Known root

/-- The second registry is the first one renamed, and known roots may be renamed in references. -/
structure RenamedRegistry (v w : String) (Known : String → Prop) (r s : Registry) : Prop where
  renamed : r.Renamed v w s
  renamable : ∀ root, Known root → r.Renamable v w root

theorem properties_rename_alike {ps : List Property}
    (hroots : ∀ root ∈ rootsProperties ps, Known root) :
    List.Forall₂ (Property.Alike (RenamedExpr v w Known)) ps (ps.map (Property.rename v w)) := by
  rw [List.forall₂_map_right_iff, List.forall₂_same]
  intro p hp
  have hentry := p.entry_rename (v := v) (w := w)
  cases he : p.entry with
  | error fault =>
    rw [he] at hentry
    exact .fault he hentry
  | ok e =>
    rw [he] at hentry
    refine .entry he hentry ⟨rfl, fun root hroot => hroots root ?_⟩
    rw [rootsProperties_eq_flatMap]
    exact List.mem_flatMap.mpr ⟨p, hp, Property.roots_of_entry he hroot⟩

/-- **A renamed compilation runs side by side with the original one.** -/
theorem renaming_simulation (v w : String) (Known : String → Prop) :
    Simulation (RenamedExpr v w Known) (RenamedRegistry v w Known) where
  read := by
    rintro e _ ⟨rfl, hroots⟩
    have hknown : ∀ root ∈ (Value.ofExpr e).roots, Known root :=
      fun root hroot => hroots root (Value.roots_ofExpr_subset e hroot)
    have hrename := Value.ofExpr_rename (v := v) (w := w) e
    by_cases hobject : ∃ ps, Value.ofExpr e = .object ps
    · obtain ⟨ps, hps⟩ := hobject
      rw [hps] at hknown hrename
      exact .object hps hrename (properties_rename_alike hknown)
    · have hno : ∀ ps, Value.ofExpr e ≠ .object ps := fun ps hps => hobject ⟨ps, hps⟩
      refine .text hno (fun ps => ?_) fun r s hr property => ?_
      · rw [hrename]
        cases hvalue : Value.ofExpr e with
        | object ps' => exact absurd hvalue (hno ps')
        | _ => exact fun h => nomatch h
      · rw [hrename]
        exact hr.renamed.resolve (fun root hroot => hr.renamable root (hknown root hroot)) property
  enter := by
    intro r s hr kind path text
    refine ⟨hr.renamed.enter kind path text, fun root hroot => ?_⟩
    obtain ⟨hne, hbound⟩ := hr.renamable root hroot
    refine ⟨hne, fun hv => ?_⟩
    rw [Registry.isBinding, kind.bindings_enter]
    exact hbound hv

end Simulation

/-! ## Calls -/

/-- An expression and the renamed one serve alike as arguments, if the roots in it are known. -/
theorem Expr.rename_sameForm {Known : String → Prop} {e : Expr}
    (hroots : ∀ root ∈ e.roots false, Known root) :
    Expr.SameForm (RenamedExpr v w Known) e.unwrap (e.rename v w false).unwrap := by
  rw [e.unwrap_rename]
  rw [← e.roots_unwrap] at hroots
  cases h : e.unwrap with
  | wrapped wrapper inner => exact absurd h (e.unwrap_ne_wrapped wrapper inner)
  | object ps =>
    rw [h] at hroots
    rw [Expr.rename, renameProperties_eq_map]
    exact ⟨.some (properties_rename_alike hroots), rfl⟩
  | _ => exact ⟨.none, rfl⟩

/-- A call and the renamed call are alike, if the roots in it are known. -/
theorem Call.rename_alike {Known : String → Prop} {c : Call}
    (hroots : ∀ root ∈ c.roots, Known root) :
    Call.Alike (RenamedExpr v w Known) (replaceName v w) c (c.rename v w) := by
  rw [Call.roots, rootsArgs_eq_flatMap] at hroots
  refine .ofArgs rfl rfl ?_
  show List.Forall₂ _ c.args (c.args.map (Arg.rename v w))
  rw [List.forall₂_map_right_iff, List.forall₂_same]
  intro a ha
  have hknown : ∀ root ∈ a.roots, Known root :=
    fun root hroot => hroots root (List.mem_flatMap.mpr ⟨a, ha, hroot⟩)
  cases a with
  | plain e => exact .plain (Expr.rename_sameForm hknown)
  | spread e => exact .spread (Expr.rename_sameForm hknown)

/-! ## Modules -/

theorem Callee.name?_rename (c : Callee) : (c.rename v w).name? = c.name? := by
  cases c with
  | expr e =>
    simp only [Callee.rename, Callee.name?, e.unwrap_rename]
    cases h : e.unwrap with
    | wrapped wrapper inner => exact absurd h (e.unwrap_ne_wrapped wrapper inner)
    | _ => rfl
  | super | importModule => rfl

theorem Declarator.call?_rename (d : Declarator) :
    (d.rename v w).call? = d.call?.map (Call.rename v w) := by
  obtain ⟨pattern, init⟩ := d
  cases pattern with
  | destructuring names => rfl
  | name name =>
    cases init with
    | none => rfl
    | some e =>
      simp only [Declarator.rename, Pattern.rename, Declarator.call?, Option.map_some,
        e.unwrap_rename]
      cases h : e.unwrap with
      | wrapped wrapper inner => exact absurd h (e.unwrap_ne_wrapped wrapper inner)
      | call callee args =>
        simp only [Expr.rename, callee.name?_rename, renameArgs_eq_map]
        cases callee.name? with
        | none => rfl
        | some function =>
          simp only [Option.bind_eq_bind, Option.bind_some]
          cases Kind.ofCallee? function <;> rfl
      | _ => rfl

theorem Item.declarators_rename (i : Item) :
    (i.rename v w).declarators = i.declarators.map (Declarator.rename v w) := by
  cases i with
  | stmt s | exported s => cases s <;> rfl
  | exportDefault _ | other => rfl

/-- The calls of a renamed module are the renamed calls of the module. -/
theorem Module.calls_rename (m : Module) :
    (m.rename v w).calls = m.calls.map (Call.rename v w) := by
  unfold Module.calls Module.rename
  rw [List.flatMap_map, List.map_filterMap]
  simp only [Item.declarators_rename, ← List.map_flatMap, List.filterMap_map, Function.comp_def,
    Declarator.call?_rename]

/-- The calls of a renamed run show the same up to the name, if known roots may be renamed in the
references of the first registry. -/
theorem runCalls_rename {Known : String → Prop} {r s : Registry} {calls : List Call}
    (hcalls : ∀ c ∈ calls, c.name ≠ w ∧ ∀ root ∈ c.roots, Known root)
    (hr : RenamedRegistry v w Known r s) :
    (runCalls s (calls.map (Call.rename v w))).map Step.output =
        ((runCalls r calls).map Step.output).map (mapOutput (replaceName v w)) ∧
      RenamedRegistry v w Known (registryAfter r calls)
        (registryAfter s (calls.map (Call.rename v w))) := by
  have hpairs : List.Forall₂
      (fun c c' => c' = c.rename v w ∧ c.name ≠ w ∧ ∀ root ∈ c.roots, Known root)
      calls (calls.map (Call.rename v w)) := by
    rw [List.forall₂_map_right_iff, List.forall₂_same]
    exact fun c hc => ⟨rfl, hcalls c hc⟩
  refine (renaming_simulation v w Known).runCalls ?_ ?_ hpairs hr
  · rintro c _ ⟨rfl, -, hroots⟩
    exact Call.rename_alike hroots
  · rintro c _ r s ⟨rfl, hname, -⟩ ⟨hrenamed, hknown⟩
    refine ⟨hrenamed.start hname, fun root hroot => ?_⟩
    obtain ⟨hne, hbound⟩ := hknown root hroot
    refine ⟨hne, fun hv => ?_⟩
    -- a binding stays one when a further call is begun
    unfold Call.start
    split
    · exact (Registry.isBinding_registerBinding r _ _).mpr (Or.inl (hbound hv))
    · exact hbound hv

/-- **The name of a contract is irrelevant.** Let a contract of a module be bound to `v`, and let no
call before it refer to `v`. Let `w` be neither the name of a call nor the root of a reference in
one. Then the module in which `v` is renamed to `w` compiles to the same declarations in the same
order, but for the name `v`, which is `w`. The diagnostics are the same too, but for that name, so
there are as many of them, with the same levels in the same order. -/
theorem contract_name_irrelevant (options : Options) (m : Module) (v w : String)
    (before after : List Call) (c : Call) (hcalls : m.calls = before ++ c :: after)
    (hkind : c.kind = .themeContract) (hname : c.name = v)
    (hbefore : ∀ d ∈ before, v ∉ d.roots)
    (hfresh : ∀ d ∈ m.calls, d.name ≠ w ∧ w ∉ d.roots) :
    (compile options (m.rename v w)).declarations =
        (compile options m).declarations.map (Declaration.mapName (replaceName v w)) ∧
      (compile options (m.rename v w)).diagnostics =
        (compile options m).diagnostics.map (Diagnostic.mapName (replaceName v w)) ∧
      (compile options (m.rename v w)).diagnostics.map Diagnostic.level =
        (compile options m).diagnostics.map Diagnostic.level := by
  rw [hcalls, List.forall_mem_append, List.forall_mem_cons] at hfresh
  obtain ⟨hfreshBefore, hfreshHere, hfreshAfter⟩ := hfresh
  have hne : ∀ {d : Call}, d.name ≠ w ∧ w ∉ d.roots →
      d.name ≠ w ∧ ∀ root ∈ d.roots, root ≠ w :=
    fun h => ⟨h.1, fun root hroot hw => h.2 (hw ▸ hroot)⟩
  have hempty : RenamedRegistry v w (fun root => root ≠ v ∧ root ≠ w) {} {} :=
    ⟨⟨rfl, rfl, List.not_mem_nil⟩, fun root h => ⟨h.2, fun hv => absurd hv h.1⟩⟩
  -- before the contract neither name occurs as a root; from the contract on the old name is bound
  have hneither : ∀ d ∈ before, d.name ≠ w ∧ ∀ root ∈ d.roots, root ≠ v ∧ root ≠ w := by
    intro d hd
    obtain ⟨hdname, hdroots⟩ := hne (hfreshBefore d hd)
    exact ⟨hdname, fun root hroot => ⟨fun hv => hbefore d hd (hv ▸ hroot), hdroots root hroot⟩⟩
  obtain ⟨houtBefore, hreg⟩ := runCalls_rename hneither hempty
  have hstart : RenamedRegistry v w (· ≠ w) (c.start (registryAfter {} before))
      ((c.rename v w).start (registryAfter {} (before.map (Call.rename v w)))) := by
    refine ⟨hreg.renamed.start hfreshHere.1, fun root hroot => ⟨hroot, fun _ => ?_⟩⟩
    simp only [Call.start, hkind, hname]
    exact (Registry.isBinding_registerBinding _ v v).mpr (Or.inr rfl)
  have hstep :=
    (renaming_simulation v w (· ≠ w)).run (Call.rename_alike (hne hfreshHere).2) hstart
  obtain ⟨houtAfter, -⟩ :=
    runCalls_rename (fun d hd => hne (hfreshAfter d hd)) hstep.registry
  have hsteps : (m.rename v w).steps.map Step.output =
      (m.steps.map Step.output).map (mapOutput (replaceName v w)) := by
    unfold Module.steps
    rw [m.calls_rename, hcalls, List.map_append, List.map_cons, runCalls_append, runCalls_append]
    simp only [runCalls, List.map_append, List.map_cons, houtBefore, hstep.output_eq, houtAfter]
  have hnames : ∀ d ∈ m.calls, d.name ≠ w := by
    rw [hcalls, List.forall_mem_append, List.forall_mem_cons]
    exact ⟨fun d hd => (hfreshBefore d hd).1, hfreshHere.1, fun d hd => (hfreshAfter d hd).1⟩
  obtain ⟨hdeclarations, hdiagnostics⟩ := compile_mapName options hsteps
    fun d hd e he heq => replaceName_inj (hnames d hd) (hnames e he) heq
  refine ⟨hdeclarations, hdiagnostics, ?_⟩
  rw [hdiagnostics, List.map_map]
  simp only [Function.comp_def, Diagnostic.level_mapName]

namespace Sample

/-- `plain = style({ color: other.accent })`. -/
def plain : Call :=
  ⟨"plain", .style,
    [.plain (.object [entry "color" (.member (.ident "other") (.name "accent"))])]⟩

/-- The sample module with a style in front of it. -/
def longSource : Module :=
  ⟨[plain, contract, theme, card].map fun c =>
    .exported (.vars .const [declarator c.name c.kind c.args])⟩

end Sample

/-- The contract `vars` of the sample module may be called `themeVars`. -/
theorem contract_name_irrelevant_sample :
    Sample.longSource.calls = [Sample.plain] ++ Sample.contract :: [Sample.theme, Sample.card] ∧
      Sample.contract.kind = .themeContract ∧ Sample.contract.name = "vars" ∧
      (∀ d ∈ [Sample.plain], "vars" ∉ d.roots) ∧
      (∀ d ∈ Sample.longSource.calls, d.name ≠ "themeVars" ∧ "themeVars" ∉ d.roots) ∧
      Sample.card.roots = ["vars", "vars"] ∧
      (compile default (Sample.longSource.rename "vars" "themeVars")).declarations =
        (compile default Sample.longSource).declarations.map
          (Declaration.mapName (replaceName "vars" "themeVars")) := by
  have hcalls : Sample.longSource.calls =
      [Sample.plain] ++ Sample.contract :: [Sample.theme, Sample.card] := rfl
  have hbefore : ∀ d ∈ [Sample.plain], "vars" ∉ d.roots := by decide +kernel
  have hfresh : ∀ d ∈ Sample.longSource.calls, d.name ≠ "themeVars" ∧ "themeVars" ∉ d.roots := by
    decide +kernel
  exact ⟨hcalls, rfl, rfl, hbefore, hfresh, by decide +kernel,
    (contract_name_irrelevant default Sample.longSource "vars" "themeVars" _ _ _ hcalls rfl rfl
      hbefore hfresh).1⟩

end StyleCompiler
