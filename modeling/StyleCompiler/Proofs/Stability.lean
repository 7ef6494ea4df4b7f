import StyleCompiler.Proofs.Operations

/-!
# Resolution is stable over time

A registry only grows: paths are added at the end and names of contracts are added, whatever is
declared again or laid over in between. So a reference keeps its text, unless its root becomes the
name of a contract: then the root no longer counts, and the reference means another path.

* `Registry.Grows`: the later registry has the paths of the earlier one in front, and its bindings.
* `Op.apply_grows`, `after_grows`: one operation, and any number of them.
* `Grows.contractPath`, `Grows.reference`, `Grows.resolve`: what was resolved stays so while no
  root is newly bound.
* `resolution_stable`: between any two points of a run.
-/

namespace StyleCompiler

namespace Registry

/-! ## Growth -/

/-- A later registry: no path and no binding is lost, and new paths come after the old ones. -/
structure Grows (r s : Registry) : Prop where
  paths : r.paths <+: s.paths
  bindings : ∀ name, r.isBinding name = true → s.isBinding name = true

namespace Grows

variable {r s t : Registry}

theorem refl (r : Registry) : Grows r r := ⟨List.prefix_refl _, fun _ h => h⟩

theorem trans (h : Grows r s) (h' : Grows s t) : Grows r t :=
  ⟨h.paths.trans h'.paths, fun name hname => h'.bindings name (h.bindings name hname)⟩

theorem of_sameNames (h : SameNames s r) : Grows r s := by
  refine ⟨?_, fun name hname => ?_⟩
  · simp only [h.paths, List.prefix_refl]
  · rwa [isBinding, h.bindings]

end Grows

theorem declare_grows (r : Registry) (path placeholder : String) :
    Grows r (r.declare path placeholder) := by
  refine ⟨?_, fun _ hname => hname⟩
  rw [paths_declare]
  split
  · exact List.prefix_refl _
  · exact List.prefix_append _ _

theorem registerBinding_grows (r : Registry) (name : String) :
    Grows r (r.registerBinding name) := by
  refine ⟨?_, fun other hother => (isBinding_registerBinding r name other).mpr (Or.inl hother)⟩
  simp only [paths_registerBinding, List.prefix_refl]

/-- **An operation makes the registry grow.** -/
theorem Op.apply_grows (r : Registry) (op : Op) : Grows r (op.apply r) := by
  cases op with
  | declare path placeholder => exact r.declare_grows path placeholder
  | instantiate path value => exact .of_sameNames (sameNames_instantiate r path value)
  | registerBinding name => exact r.registerBinding_grows name

/-- **Operations make the registry grow.** -/
theorem after_grows (r : Registry) (ops : List Op) : Grows r (r.after ops) := by
  induction ops generalizing r with
  | nil => exact Grows.refl r
  | cons op ops ih => exact (op.apply_grows r).trans (ih _)

theorem after_prefix_grows (r : Registry) {before all : List Op} (h : before <+: all) :
    Grows (r.after before) (r.after all) := by
  obtain ⟨later, rfl⟩ := h
  rw [after_append]
  exact after_grows _ later

/-! ## What was resolved -/

/-- The root of the segments is bound to a contract in the later registry only if it was bound in
the earlier one. -/
def RootKept (r s : Registry) (segments : List String) : Prop :=
  ∀ root, segments.head? = some root → s.isBinding root = true → r.isBinding root = true

namespace Grows

variable {r s : Registry}

/-- A reference whose root is not newly bound means the same path. -/
theorem contractPath (h : Grows r s) {segments : List String} (hroot : RootKept r s segments) :
    s.contractPath segments = r.contractPath segments := by
  have hdrop : s.dropBinding segments = r.dropBinding segments := by
    cases segments with
    | nil => rfl
    | cons root rest =>
      have hsame : s.isBinding root = r.isBinding root :=
        Bool.eq_iff_iff.mpr ⟨hroot root rfl, h.bindings root⟩
      simp only [dropBinding, hsame]
  unfold Registry.contractPath
  rw [hdrop]

/-- **A reference that resolves keeps its text** if its root is not newly bound. -/
theorem reference (h : Grows r s) {segments : List String} {text : String}
    (hroot : RootKept r s segments) (hok : r.reference segments = .ok text) :
    s.reference segments = .ok text := by
  rw [reference_eq] at hok
  split at hok
  · rename_i hmem
    rw [reference_eq, h.contractPath hroot, if_pos (h.paths.subset hmem)]
    exact hok
  · cases hok

theorem resolveParts (h : Grows r s) (hbound : ∀ segments, RootKept r s segments)
    {parts : List Part} {text : String} (hok : StyleCompiler.resolveParts r parts = .ok text) :
    StyleCompiler.resolveParts s parts = .ok text := by
  induction parts generalizing text with
  | nil => exact hok
  | cons part parts ih =>
    simp only [StyleCompiler.resolveParts] at hok ⊢
    cases hpart : part.resolve r with
    | error reason =>
      rw [hpart] at hok
      cases hok
    | ok lead =>
      have hpart' : part.resolve s = .ok lead := by
        cases part with
        | text t => exact hpart
        | reference segments => exact h.reference (hbound segments) hpart
      rw [hpart] at hok
      rw [hpart']
      cases hrest : StyleCompiler.resolveParts r parts with
      | error reason =>
        rw [hrest] at hok
        cases hok
      | ok rest =>
        rw [hrest] at hok
        rw [ih hrest]
        exact hok

/-- **A value that has a text keeps it** if no name is newly bound. -/
theorem resolve (h : Grows r s) (hbound : ∀ segments, RootKept r s segments) {v : Value}
    {property text : String} (hok : v.resolve r property = .ok text) :
    v.resolve s property = .ok text := by
  cases v with
  | reference segments => exact h.reference (hbound segments) hok
  | template parts => exact h.resolveParts hbound hok
  | text _ | number _ | null | object _ | unsupported => exact hok

end Grows

/-- What is settled in a registry stays so in a later one: the paths with their order, the names
bound to contracts, and the text of every reference whose root is not newly bound. -/
structure Settled (r s : Registry) : Prop where
  paths : r.paths <+: s.paths
  bindings : ∀ name, r.isBinding name = true → s.isBinding name = true
  references : ∀ segments text, r.reference segments = .ok text → RootKept r s segments →
    s.reference segments = .ok text

theorem Grows.settled {r s : Registry} (h : Grows r s) : Settled r s :=
  ⟨h.paths, h.bindings, fun _ _ hok hroot => h.reference hroot hok⟩

end Registry

open Registry

/-! ## Runs -/

theorem registryAfter_grows (r : Registry) (calls : List Call) :
    Grows r (registryAfter r calls) := by
  rw [registryAfter_eq_after]
  exact r.after_grows _

/-- **Resolution is stable over time.** Take any two points of a run, be it between two calls or
between any two operations on the registry. What is settled at the first stays settled at the
second: the paths of the first are the beginning of those of the second, its bindings are bindings
of the second, and a reference that resolves at the first resolves to the same text at the second
if its root was not newly bound to a contract in between. -/
theorem resolution_stable (r : Registry) (calls : List Call) (i j : Nat) (hij : i ≤ j) :
    Settled (registryAfter r (calls.take i)) (registryAfter r (calls.take j)) ∧
      Settled (r.after ((runOps r calls).take i)) (r.after ((runOps r calls).take j)) := by
  constructor
  · obtain ⟨between, hbetween⟩ := List.take_prefix_take_left hij (l := calls)
    rw [← hbetween, registryAfter_append]
    exact (registryAfter_grows _ between).settled
  · exact (r.after_prefix_grows (List.take_prefix_take_left hij)).settled

/-- The reference in the style of the sample module keeps the text that it has after the
contract. -/
theorem resolution_stable_sample :
    1 ≤ 3 ∧
      (registryAfter {} (Sample.source.calls.take 1)).reference ["vars", "accent"] =
        .ok "var(--accent)" ∧
      RootKept (registryAfter {} (Sample.source.calls.take 1))
        (registryAfter {} (Sample.source.calls.take 3)) ["vars", "accent"] ∧
      (registryAfter {} (Sample.source.calls.take 3)).reference ["vars", "accent"] =
        .ok "var(--accent)" := by
  have hok : (registryAfter {} (Sample.source.calls.take 1)).reference ["vars", "accent"] =
      .ok "var(--accent)" := by decide +kernel
  have hroot : RootKept (registryAfter {} (Sample.source.calls.take 1))
      (registryAfter {} (Sample.source.calls.take 3)) ["vars", "accent"] := by
    intro root hhead _
    obtain rfl := Option.some.inj hhead
    decide +kernel
  have hij : 1 ≤ 3 := by decide
  have hstable := resolution_stable {} Sample.source.calls 1 3 hij
  exact ⟨hij, hok, hroot, hstable.1.references _ _ hok hroot⟩

namespace Sample

/-- `base = createThemeContract({ "vars.color": "red" })`. -/
def dottedKey : Call :=
  ⟨"base", .themeContract,
    [.plain (.object [.keyValue (.str (some "vars.color")) (.str (some "red"))])]⟩

end Sample

/-- A reference whose root is newly bound may change its text: `vars.color` means the dotted key
until `vars` is the name of a contract. -/
example :
    (registryAfter {} [Sample.dottedKey]).reference ["vars", "color"] = .ok "var(--vars-color)" ∧
      (registryAfter {} [Sample.dottedKey, Sample.contract]).reference ["vars", "color"] =
        .ok "var(--color)" := by
  decide +kernel

end StyleCompiler
