import Mathlib.Data.List.TakeWhile
import StyleCompiler.Proofs.Operations

/-!
# The last write counts

What a registry shows after any history of operations, read off the history. A variable keeps a
placeholder and perhaps a value laid over it, and to declare it again takes the value away. All that
can be seen of this is the text that came last.

* `Op.path?`, `Op.textAt?`: the path that an operation is on, and the text that it brings there.
* `textsAt`: the texts brought to a path from its first declaration on. What came before was
  refused.
* `Op.value?_apply`: one operation. A text takes effect if it comes with a declaration or the path
  is declared, and every other value stays.
* `paths_after`, `value?_after`: the paths and the values after a history.
* `registry_shows_history`: all of it, with what the next operation does.
-/

namespace StyleCompiler

namespace Registry

/-! ## Operations by path -/

/-- The path that an operation is on. To bind the name of a contract is on none. -/
def Op.path? : Op → Option String
  | .declare path _ => some path
  | .instantiate path _ => some path
  | .registerBinding _ => none

/-- The path that an operation declares. -/
def Op.declared? : Op → Option String
  | .declare path _ => some path
  | .instantiate _ _ => none
  | .registerBinding _ => none

/-- The text that an operation brings to a path. -/
def Op.textAt? (path : String) : Op → Option String
  | .declare p placeholder => if p = path then some placeholder else none
  | .instantiate p value => if p = path then some value else none
  | .registerBinding _ => none

/-- Does an operation declare the path? -/
def Op.declares (path : String) (op : Op) : Bool := op.declared? = some path

/-- The texts brought to a path from its first declaration on, in order. -/
def textsAt (path : String) (ops : List Op) : List String :=
  (ops.dropWhile fun op => !op.declares path).filterMap (Op.textAt? path)

/-- The paths declared in a history, as often as they are. -/
def declarations (ops : List Op) : List String := ops.filterMap Op.declared?

theorem mem_declarations {path : String} {ops : List Op} :
    path ∈ declarations ops ↔ ∃ placeholder, Op.declare path placeholder ∈ ops := by
  unfold declarations
  rw [List.mem_filterMap]
  constructor
  · rintro ⟨op, hop, hpath⟩
    cases op with
    | declare p placeholder =>
      obtain rfl := Option.some.inj hpath
      exact ⟨placeholder, hop⟩
    | instantiate _ _ | registerBinding _ => cases hpath
  · rintro ⟨placeholder, hop⟩
    exact ⟨_, hop, rfl⟩

theorem declarations_concat (ops : List Op) (op : Op) :
    declarations (ops ++ [op]) = declarations ops ++ op.declared?.toList := by
  unfold declarations
  rw [List.filterMap_append]
  cases h : op.declared? <;> simp [h]

theorem dropWhile_declares_eq_nil {path : String} {ops : List Op} :
    (ops.dropWhile fun op => !op.declares path) = [] ↔ path ∉ declarations ops := by
  simp [declarations, Op.declares]

/-- A further text counts if the path was declared before it or is declared with it. -/
theorem textsAt_concat (path : String) (ops : List Op) (op : Op) :
    textsAt path (ops ++ [op]) =
      if path ∈ declarations ops ∨ op.declared? = some path then
        textsAt path ops ++ (op.textAt? path).toList
      else [] := by
  have hlast : [op].filterMap (Op.textAt? path) = (op.textAt? path).toList := by
    cases h : op.textAt? path <;> simp [h]
  unfold textsAt
  rw [List.dropWhile_append]
  by_cases hops : path ∈ declarations ops
  · have hne := mt dropWhile_declares_eq_nil.mp (not_not.mpr hops)
    rw [if_neg (by simpa using hne), if_pos (Or.inl hops), List.filterMap_append, hlast]
  · have hnil := dropWhile_declares_eq_nil.mpr hops
    rw [hnil]
    by_cases hop : op.declared? = some path
    · simpa [Op.declares, hop] using hlast
    · simp [Op.declares, hop, hops]

/-! ## One operation -/

theorem Op.paths_apply (r : Registry) (op : Op) :
    (op.apply r).paths =
      match op.declared? with
      | some path => if path ∈ r.paths then r.paths else r.paths ++ [path]
      | none => r.paths := by
  cases op with
  | declare path placeholder => exact r.paths_declare path placeholder
  | instantiate path value => exact r.paths_instantiate path value
  | registerBinding name => exact r.paths_registerBinding name

@[simp]
theorem value?_registerBinding (r : Registry) (name path : String) :
    (r.registerBinding name).value? path = r.value? path := by
  unfold registerBinding
  split <;> rfl

/-- **What one operation does to the value at a path.** Its text takes effect if it comes with a
declaration or the path is declared; otherwise the value stays. -/
theorem Op.value?_apply (r : Registry) (op : Op) (path : String) :
    (op.apply r).value? path =
      if path ∈ r.paths ∨ op.declared? = some path then (op.textAt? path).or (r.value? path)
      else r.value? path := by
  cases op with
  | declare p placeholder =>
    by_cases hp : path = p
    · simp [apply, declared?, textAt?, value?_declare, hp]
    · have hne : ¬ p = path := fun h => hp h.symm
      simp [apply, declared?, textAt?, value?_declare, hp, hne]
  | instantiate p value =>
    by_cases hp : path = p
    · simp [apply, declared?, textAt?, value?_instantiate, hp]
    · have hne : ¬ p = path := fun h => hp h.symm
      simp [apply, declared?, textAt?, value?_instantiate, hp, hne]
  | registerBinding name => simp [apply, textAt?]

/-- A value is laid over exactly the declared variables. -/
theorem instantiate_snd (r : Registry) (path value : String) :
    (r.instantiate path value).2 = true ↔ path ∈ r.paths := by
  have hdeclared : path ∈ r.paths ↔ (r.vars.get? path).isSome = true := (r.contains_iff path).symm
  rw [hdeclared]
  unfold instantiate
  cases r.vars.get? path <;> simp

/-- A value that is refused changes nothing. -/
theorem instantiate_refused {r : Registry} {path value : String}
    (h : (r.instantiate path value).2 = false) : (r.instantiate path value).1 = r := by
  unfold instantiate at h ⊢
  cases hv : r.vars.get? path with
  | none => rfl
  | some v => simp [hv] at h

/-- What a registry shows at one path. -/
structure SameAt (path : String) (r s : Registry) : Prop where
  value : s.value? path = r.value? path
  resolve : s.resolve? path = r.resolve? path
  contains : s.contains path = r.contains path

/-- An operation on another path, or on none, leaves what a registry shows at a path. -/
theorem Op.sameAt_apply (r : Registry) {op : Op} {path : String} (h : op.path? ≠ some path) :
    SameAt path r (op.apply r) := by
  have hvalue : (op.apply r).value? path = r.value? path := by
    have htext : op.textAt? path = none := by
      cases op with
      | declare p _ | instantiate p _ => exact if_neg fun hp => h (congrArg some hp)
      | registerBinding _ => rfl
    rw [Op.value?_apply, htext, Option.none_or, ite_self]
  have hmem : path ∈ (op.apply r).paths ↔ path ∈ r.paths := by
    rw [← value?_isSome_iff, ← value?_isSome_iff, hvalue]
  refine ⟨hvalue, ?_, ?_⟩
  · rw [resolve?_eq, resolve?_eq]
    simp only [hmem]
  · rw [Bool.eq_iff_iff, contains_iff, contains_iff]
    exact hmem

/-! ## Histories -/

/-- **The paths after a history** are the declared ones in order of first declaration. -/
theorem paths_after (ops : List Op) : (after {} ops).paths = (declarations ops).eraseDups := by
  induction ops using List.reverseRecOn with
  | nil => rfl
  | append_singleton ops op ih =>
    rw [after_append, after_cons, after_nil, Op.paths_apply, declarations_concat, ih]
    cases op.declared? with
    | none => simp
    | some path => simp only [Option.toList_some, eraseDups_concat, List.mem_eraseDups]

theorem mem_paths_after {path : String} {ops : List Op} :
    path ∈ (after {} ops).paths ↔ path ∈ declarations ops := by
  rw [paths_after, List.mem_eraseDups]

/-- **The value after a history** is the last text brought to the path since it was first
declared. -/
theorem value?_after (ops : List Op) (path : String) :
    (after {} ops).value? path = (textsAt path ops).getLast? := by
  induction ops using List.reverseRecOn with
  | nil => rfl
  | append_singleton ops op ih =>
    rw [after_append, after_cons, after_nil, Op.value?_apply, textsAt_concat, ih]
    simp only [mem_paths_after]
    by_cases h : path ∈ declarations ops ∨ op.declared? = some path
    · rw [if_pos h, if_pos h]
      cases op.textAt? path with
      | none => simp
      | some text => simp
    · -- the path was never declared, so there is no text to keep
      rw [if_neg h, if_neg h, List.getLast?_nil, ← ih]
      have hnone := (after {} ops).value?_isSome_iff path
      rw [mem_paths_after] at hnone
      rw [← Option.not_isSome_iff_eq_none, hnone]
      exact fun hmem => h (Or.inl hmem)

/-- What a registry shows that a history of operations has left. -/
structure Shows (ops : List Op) (r : Registry) : Prop where
  /-- The paths are the declared ones, in order of first declaration and without repetition. -/
  paths : r.paths = (declarations ops).eraseDups ∧ r.paths.Nodup
  /-- A path that was never declared has no value. -/
  undeclared : ∀ path, r.value? path = none ↔ ∀ placeholder, Op.declare path placeholder ∉ ops
  /-- The value of any other is the last text since its first declaration. -/
  values : ∀ path, r.value? path = (textsAt path ops).getLast?
  /-- A value can be laid over the paths that were declared before, and over no other. -/
  accepted : ∀ path value, (r.instantiate path value).2 = true ↔
    ∃ placeholder, Op.declare path placeholder ∈ ops
  /-- A value that is refused changes neither paths nor values nor bindings. -/
  refused : ∀ path value, (r.instantiate path value).2 = false → (r.instantiate path value).1 = r
  /-- The next operation changes nothing at the paths that it is not on. -/
  others : ∀ (op : Op) (path : String), op.path? ≠ some path → SameAt path r (op.apply r)

end Registry

open Registry

/-- **The last write counts.** Take any history of operations on an empty registry. The paths are
those declared, in order of first declaration. A path that was never declared has no value, and any
other has the text of the last operation on it, values that were refused before its first
declaration left out. Whatever operation comes next, a value is accepted exactly if its path was
declared in the history, a refused one changes nothing, and nothing changes at any path that the
operation is not on. -/
theorem registry_shows_history (ops : List Op) : Shows ops (after {} ops) where
  paths := ⟨paths_after ops, (after {} ops).vars.nodup⟩
  undeclared path := by
    have hsome := (after {} ops).value?_isSome_iff path
    rw [mem_paths_after, mem_declarations] at hsome
    rw [← Option.not_isSome_iff_eq_none, hsome, not_exists]
  values path := value?_after ops path
  accepted path value := by rw [instantiate_snd, mem_paths_after, mem_declarations]
  refused _ _ h := instantiate_refused h
  others _ _ h := Op.sameAt_apply _ h

/-- A value that comes before the first declaration is refused, a later one counts, and to declare
the path again takes it away. -/
example :
    textsAt "color" [.instantiate "color" "red", .declare "color" "", .instantiate "color" "blue"] =
        ["", "blue"] ∧
      (after {} [.instantiate "color" "red", .declare "color" "", .instantiate "color" "blue",
        .declare "color" "grey"]).value? "color" = some "grey" := by
  decide +kernel

end StyleCompiler
