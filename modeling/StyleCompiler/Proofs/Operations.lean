import StyleCompiler.Proofs.Run

/-!
# A run as operations on the registry

Whatever calls do to the registry, they do by three operations: to declare a variable, to lay a
value over one, and to bind the name of a contract. This file lists the operations of a run in
order, so that what every operation keeps is kept at every point of a run, also between two entries
of one contract.

* `Registry.Op`, `Registry.after`: the operations, and the registry after some of them.
* `registry_runTheme`: entries leave the registry in which their texts were entered in order.
* `Call.registry_run`: a call leaves the registry after its operations.
* `registryAfter_eq_after`: so does a run.
-/

namespace StyleCompiler

namespace Registry

/-- An operation on a registry. -/
inductive Op where
  | declare (path placeholder : String)
  | instantiate (path value : String)
  | registerBinding (name : String)
deriving DecidableEq, Repr

/-- The registry that an operation leaves. -/
def Op.apply (r : Registry) : Op → Registry
  | .declare path placeholder => r.declare path placeholder
  | .instantiate path value => (r.instantiate path value).1
  | .registerBinding name => r.registerBinding name

/-- The registry after operations in order. -/
def after (r : Registry) (ops : List Op) : Registry := ops.foldl Op.apply r

@[simp]
theorem after_nil (r : Registry) : r.after [] = r := rfl

@[simp]
theorem after_cons (r : Registry) (op : Op) (ops : List Op) :
    r.after (op :: ops) = (op.apply r).after ops := rfl

theorem after_append (r : Registry) (before later : List Op) :
    r.after (before ++ later) = (r.after before).after later :=
  List.foldl_append

end Registry

open Registry

/-! ## Entries -/

/-- The operation that enters a text. -/
def Kind.op (kind : Kind) (leaf : String × String) : Op :=
  match kind with
  | .themeContract => .declare leaf.1 leaf.2
  | _ => .instantiate leaf.1 leaf.2

theorem Kind.apply_op (kind : Kind) (r : Registry) (path text : String) :
    (kind.op (path, text)).apply r = kind.enter r path text := by
  cases kind <;> rfl

/-- **Entries leave the registry in which their texts were entered**, in order. -/
theorem registry_runTheme (kind : Kind) (name : String) (es : List ThemeEntry) (r : Registry) :
    (runTheme kind name r es).registry =
      r.after ((runTheme kind name r es).texts.map kind.op) := by
  induction es generalizing r with
  | nil => rfl
  | cons e es ih =>
    cases e with
    | report d => exact ih r
    | leaf path property value =>
      simp only [runTheme]
      split
      · rw [List.map_cons, after_cons, kind.apply_op]
        exact ih _
      · exact ih r

/-! ## Calls and runs -/

namespace Call

/-- The operation with which a call is begun: a contract binds its name. -/
def beginning (c : Call) : List Op :=
  match c.kind with
  | .themeContract => [.registerBinding c.name]
  | _ => []

/-- The texts that a call enters, by path and in order. -/
def texts (c : Call) (r : Registry) : List (String × String) :=
  match c.form with
  | .entries properties =>
    (runTheme c.kind c.name (c.start r) (themeEntries c.name properties)).texts
  | _ => []

/-- The operations of a call in order. -/
def ops (c : Call) (r : Registry) : List Op := c.beginning ++ (c.texts r).map c.kind.op

theorem after_beginning (c : Call) (r : Registry) : r.after c.beginning = c.start r := by
  unfold beginning start
  cases c.kind <;> rfl

/-- **A call leaves the registry after its operations.** -/
theorem registry_run (c : Call) (r : Registry) : (c.run r).registry = r.after (c.ops r) := by
  unfold ops texts
  rw [after_append, after_beginning]
  cases hf : c.form with
  | style properties =>
    have hk : c.kind ≠ .themeContract := by simp [(form_eq_style.mp hf).1]
    rw [run_of_style hf, start_of_ne hk]
    rfl
  | entries properties =>
    rw [run_of_entries hf]
    exact registry_runTheme c.kind c.name _ _
  | rejected =>
    rw [run_of_rejected hf]
    rfl

end Call

/-- The operations of calls, each from the registry that the one before left. -/
def runOps : Registry → List Call → List Op
  | _, [] => []
  | r, c :: calls => c.ops r ++ runOps (c.run r).registry calls

/-- **A run leaves the registry after its operations.** -/
theorem registryAfter_eq_after (r : Registry) (calls : List Call) :
    registryAfter r calls = r.after (runOps r calls) := by
  induction calls generalizing r with
  | nil => rfl
  | cons c calls ih =>
    rw [registryAfter_cons, ih, runOps, after_append, ← c.registry_run]

theorem registryAfter_append (r : Registry) (before later : List Call) :
    registryAfter r (before ++ later) = registryAfter (registryAfter r before) later :=
  List.foldl_append

end StyleCompiler
