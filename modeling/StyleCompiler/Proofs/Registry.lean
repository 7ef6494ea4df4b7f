import StyleCompiler.Compile
import StyleCompiler.Proofs.OrderedMap

/-!
# The names of a registry

References are resolved against the *names* of a registry: its declared paths and the names bound
to contracts. This file says what each operation does to the names, and that resolution sees
nothing else.

* `paths_declare`, `paths_instantiate`, `isBinding_registerBinding`: the operations.
* `value?_declare`, `value?_instantiate`: what they do to values, which resolution does not see.
* `reference_eq`: a reference resolves iff its path is declared.
* `SameNames`: two registries with the same names. Every value has the same text in both
  (`SameNames.resolve`), and `declare`, `instantiate` and `registerBinding` keep the relation.
* `bindings_runTheme`: the entries of a contract or a theme bind no name.
-/

namespace StyleCompiler

namespace Registry

/-! ## Operations -/

theorem contains_iff (r : Registry) (path : String) : r.contains path = true ↔ path ∈ r.paths :=
  r.vars.contains_iff path

theorem paths_declare (r : Registry) (path placeholder : String) :
    (r.declare path placeholder).paths =
      if path ∈ r.paths then r.paths else r.paths ++ [path] :=
  r.vars.keys_insert path { placeholder }

/-- Laying a value over a variable adds no path. -/
@[simp]
theorem paths_instantiate (r : Registry) (path value : String) :
    (r.instantiate path value).1.paths = r.paths := by
  unfold instantiate
  cases hv : r.vars.get? path with
  | none => rfl
  | some v =>
    have hmem : path ∈ r.vars.keys := by
      rw [← OrderedMap.contains_iff, OrderedMap.contains, hv]
      rfl
    show (r.vars.insert path _).keys = r.vars.keys
    rw [OrderedMap.keys_insert, if_pos hmem]

@[simp]
theorem bindings_instantiate (r : Registry) (path value : String) :
    (r.instantiate path value).1.bindings = r.bindings := by
  unfold instantiate
  split <;> rfl

@[simp]
theorem paths_registerBinding (r : Registry) (name : String) :
    (r.registerBinding name).paths = r.paths := by
  unfold registerBinding
  split <;> rfl

theorem isBinding_iff (r : Registry) (name : String) :
    r.isBinding name = true ↔ name ∈ r.bindings :=
  List.contains_iff_mem

theorem isBinding_registerBinding (r : Registry) (name other : String) :
    (r.registerBinding name).isBinding other = true ↔ r.isBinding other = true ∨ other = name := by
  rw [isBinding_iff, isBinding_iff]
  unfold registerBinding
  split
  · rename_i hname
    constructor
    · exact Or.inl
    · rintro (h | rfl)
      · exact h
      · exact hname
  · rw [List.mem_append, List.mem_singleton]

/-! ## Values -/

theorem value?_isSome_iff (r : Registry) (path : String) :
    (r.value? path).isSome = true ↔ path ∈ r.paths := by
  rw [value?, Option.isSome_map]
  exact r.contains_iff path

/-- To declare a variable is to give it the placeholder and to leave all other values. -/
theorem value?_declare (r : Registry) (path placeholder other : String) :
    (r.declare path placeholder).value? other =
      if other = path then some placeholder else r.value? other := by
  unfold value? declare
  split
  · rename_i h
    rw [h, OrderedMap.get?_insert_self]
    rfl
  · rename_i h
    rw [OrderedMap.get?_insert_of_ne _ _ h]

/-- A value is laid over a declared variable only, and all other values stay. -/
theorem value?_instantiate (r : Registry) (path value other : String) :
    (r.instantiate path value).1.value? other =
      if other = path ∧ path ∈ r.paths then some value else r.value? other := by
  have hdeclared : path ∈ r.paths ↔ (r.vars.get? path).isSome = true := (r.contains_iff path).symm
  unfold value? instantiate
  cases hv : r.vars.get? path with
  | none => simp [hdeclared, hv]
  | some v =>
    by_cases h : other = path
    · simp [h, hdeclared, hv]
    · simp [h, OrderedMap.get?_insert_of_ne _ _ h]

/-! ## Resolution -/

theorem resolve?_eq (r : Registry) (path : String) :
    r.resolve? path = if path ∈ r.paths then some (varReference path) else none := by
  unfold resolve?
  simp only [contains_iff]

/-- **A reference resolves iff its path is declared**, and then to the variable at that path. -/
theorem reference_eq (r : Registry) (segments : List String) :
    r.reference segments =
      if r.contractPath segments ∈ r.paths then .ok (varReference (r.contractPath segments))
      else .error (.unresolved (r.contractPath segments)) := by
  unfold reference
  rw [resolve?_eq]
  split_ifs <;> rfl

/-! ## Registries with the same names -/

/-- The registries have the same declared paths, in order, and the same names of contracts. -/
structure SameNames (r s : Registry) : Prop where
  paths : r.paths = s.paths
  bindings : r.bindings = s.bindings

namespace SameNames

variable {r s t : Registry}

theorem refl (r : Registry) : SameNames r r := ⟨rfl, rfl⟩

theorem symm (h : SameNames r s) : SameNames s r := ⟨h.paths.symm, h.bindings.symm⟩

theorem trans (h : SameNames r s) (h' : SameNames s t) : SameNames r t :=
  ⟨h.paths.trans h'.paths, h.bindings.trans h'.bindings⟩

theorem contractPath (h : SameNames r s) (segments : List String) :
    r.contractPath segments = s.contractPath segments := by
  have hdrop : r.dropBinding segments = s.dropBinding segments := by
    cases segments with
    | nil => rfl
    | cons root rest =>
      have hroot : r.isBinding root = s.isBinding root := by rw [isBinding, isBinding, h.bindings]
      simp only [dropBinding, hroot]
  unfold Registry.contractPath
  rw [hdrop]

theorem reference (h : SameNames r s) (segments : List String) :
    r.reference segments = s.reference segments := by
  rw [reference_eq, reference_eq, h.contractPath, h.paths]

theorem resolveParts (h : SameNames r s) (parts : List Part) :
    StyleCompiler.resolveParts r parts = StyleCompiler.resolveParts s parts := by
  induction parts with
  | nil => rfl
  | cons part parts ih =>
    have hpart : part.resolve r = part.resolve s := by
      cases part with
      | text t => rfl
      | reference segments => exact h.reference segments
    simp only [StyleCompiler.resolveParts, hpart, ih]

/-- **A value has the same text in registries with the same names.** -/
theorem resolve (h : SameNames r s) (property : String) (v : Value) :
    v.resolve r property = v.resolve s property := by
  cases v with
  | reference segments => exact h.reference segments
  | template parts => exact h.resolveParts parts
  | text _ | number _ | null | object _ | unsupported => rfl

theorem declare (h : SameNames r s) (path placeholder : String) :
    SameNames (r.declare path placeholder) (s.declare path placeholder) :=
  ⟨by rw [paths_declare, paths_declare, h.paths], h.bindings⟩

theorem registerBinding (h : SameNames r s) (name : String) :
    SameNames (r.registerBinding name) (s.registerBinding name) := by
  refine ⟨by rw [paths_registerBinding, paths_registerBinding, h.paths], ?_⟩
  unfold Registry.registerBinding
  rw [h.bindings]
  split <;> simp only [h.bindings]

end SameNames

/-- Laying a value over a variable changes no name. -/
theorem sameNames_instantiate (r : Registry) (path value : String) :
    SameNames (r.instantiate path value).1 r :=
  ⟨paths_instantiate r path value, bindings_instantiate r path value⟩

end Registry

/-! ## The names of contracts -/

theorem Kind.bindings_enter (kind : Kind) (r : Registry) (path text : String) :
    (kind.enter r path text).bindings = r.bindings := by
  cases kind with
  | themeContract => rfl
  | style | themeInstance => exact r.bindings_instantiate path text

/-- The entries of a contract or a theme bind no name. -/
theorem bindings_runTheme (kind : Kind) (name : String) (es : List ThemeEntry) (r : Registry) :
    (runTheme kind name r es).registry.bindings = r.bindings := by
  induction es generalizing r with
  | nil => rfl
  | cons e es ih =>
    cases e with
    | report d => exact ih r
    | leaf path property value =>
      simp only [runTheme]
      split
      · rename_i text _
        exact (ih _).trans (kind.bindings_enter r path text)
      · exact ih r

end StyleCompiler
