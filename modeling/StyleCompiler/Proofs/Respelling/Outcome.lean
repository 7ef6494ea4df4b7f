import StyleCompiler.Proofs.MemberChain
import StyleCompiler.Proofs.Respelling.Definition
import StyleCompiler.Proofs.Simulation

/-!
# The spelling of an access never matters

An access is read by the text that it spells, and both spellings of one have the same text. So a
respelled module compiles to the same, by a simulation whose registries are equal.

* `Expr.Respells.unwrap`: what stands inside the wrappers is respelled too.
* `Segment.Respells.text?`, `Expr.Respells.chain?`: a respelled chain has the same names along it.
* `Value.ofExpr_respells`: a respelled expression says the same about a value.
* `respelling_simulation`: hence compilations of respelled calls run side by side.
* `member_chains_read_exactly`: which expressions are references, and that their spelling does not
  matter.
-/

namespace StyleCompiler

variable {e e' : Expr}

/-! ## Reading expressions -/

/-- What stands inside the wrappers of a respelled expression is respelled. -/
theorem Expr.Respells.unwrap (h : Expr.Respells e e') : Expr.Respells e.unwrap e'.unwrap := by
  fun_induction Expr.unwrap e generalizing e' with
  | case1 wrapper inner ih =>
    cases h with
    | refl => exact .refl _
    | wrapped hinner =>
      have hunwrap := ih hinner
      exact hunwrap
  | case2 e hne =>
    have hself : ∀ {u : Expr}, (∀ wrapper inner, u ≠ .wrapped wrapper inner) → u.unwrap = u := by
      intro u hu
      cases u with
      | wrapped wrapper inner => exact absurd rfl (hu wrapper inner)
      | _ => rfl
    have hne' : ∀ wrapper inner, e' ≠ .wrapped wrapper inner := by
      rintro wrapper inner rfl
      cases h with
      | refl => exact hne wrapper inner rfl
      | @wrapped _ e _ => exact hne wrapper e rfl
    rw [hself hne']
    exact h

theorem Expr.Respells.literal? (h : Expr.Respells e e') : e'.literal? = e.literal? := by
  have hunwrap := h.unwrap
  unfold Expr.literal?
  generalize e.unwrap = u, e'.unwrap = u' at hunwrap
  cases hunwrap <;> rfl

/-- **Both spellings of an access have the same text.** -/
theorem Segment.Respells.text? {s s' : Segment} (h : Segment.Respells s s') :
    s'.text? = s.text? := by
  cases h with
  | quoted k => rfl
  | numbered hnum => simp only [Segment.text?, Expr.literal?, hnum, Expr.unwrap, Option.getD_some]
  | refl => rfl
  | index hindex => exact hindex.literal?

/-- A respelled chain has the same names along it. -/
theorem Expr.Respells.chain? (h : Expr.Respells e e') : e'.chain? = e.chain? := by
  fun_induction Expr.chain? e generalizing e' with
  | case1 name =>
    cases h
    rfl
  | case2 wrapper inner ih =>
    cases h with
    | refl => rfl
    | wrapped hinner =>
      have hchain := ih hinner
      exact hchain
  | case3 base segment ih =>
    cases h with
    | refl => rfl
    | member hbase hsegment => simp only [Expr.chain?, ih hbase, hsegment.text?]
  | case4 e hident hwrapped hmember =>
    cases h with
    | refl =>
      cases e with
      | ident name => exact absurd rfl (hident name)
      | wrapped wrapper inner => exact absurd rfl (hwrapped wrapper inner)
      | member base segment => exact absurd rfl (hmember base segment)
      | _ => rfl
    | wrapped => exact absurd rfl (hwrapped _ _)
    | member => exact absurd rfl (hmember _ _)
    | _ => rfl

theorem Part.ofExpr?_respells (h : Expr.Respells e e') : Part.ofExpr? e' = Part.ofExpr? e := by
  have hunwrap := h.unwrap
  unfold Part.ofExpr?
  generalize e.unwrap = u, e'.unwrap = u' at hunwrap
  cases hunwrap with
  | member hbase hsegment =>
    have hchain := (Expr.Respells.member hbase hsegment).chain?
    simp only [hchain]
  | _ => rfl

theorem templateParts?_respells (qs : List Quasi) {es es' : List Expr}
    (h : List.Forall₂ Expr.Respells es es') : templateParts? qs es' = templateParts? qs es := by
  induction qs generalizing es es' with
  | nil => rfl
  | cons q qs ih =>
    cases h with
    | nil => rfl
    | cons he hes => simp only [templateParts?, Part.ofExpr?_respells he, ih hes]

/-! ## Values -/

/-- Two values that say the same, up to accesses respelled in an object literal. -/
inductive Value.Respells : Value → Value → Prop
  | object {ps ps' : List Property} :
      List.Forall₂ Property.Respells ps ps' → Value.Respells (.object ps) (.object ps')
  | same (v : Value) : (∀ ps, v ≠ .object ps) → Value.Respells v v

theorem Value.ofTemplate_respells (qs : List Quasi) {es es' : List Expr}
    (h : List.Forall₂ Expr.Respells es es') : Value.ofTemplate qs es' = Value.ofTemplate qs es := by
  have hempty : es'.isEmpty = es.isEmpty := by cases h <;> rfl
  unfold Value.ofTemplate
  rw [hempty, templateParts?_respells qs h]

theorem Property.respells_refl (ps : List Property) : List.Forall₂ Property.Respells ps ps :=
  List.forall₂_same.mpr fun p _ => .refl p

/-- A value is respelled as it is. -/
theorem Value.Respells.of_eq {v v' : Value} (h : v' = v) : Value.Respells v v' := by
  subst h
  cases v' with
  | object ps => exact .object (Property.respells_refl ps)
  | text _ | number _ | null | reference _ | template _ | unsupported => exact .same _ nofun

/-- **A respelled expression says the same about a value.** -/
theorem Value.ofExpr_respells (h : Expr.Respells e e') :
    Value.Respells (Value.ofExpr e) (Value.ofExpr e') := by
  have hunwrap := h.unwrap
  unfold Value.ofExpr
  generalize e.unwrap = u, e'.unwrap = u' at hunwrap
  cases hunwrap with
  | object hps => exact .object hps
  | member hbase hsegment =>
    have hchain := (Expr.Respells.member hbase hsegment).chain?
    simp only [hchain]
    exact .of_eq rfl
  | template hes =>
    simp only [Value.ofTemplate_respells _ hes]
    exact .of_eq rfl
  | @unary op operand operand' hoperand =>
    have hinner := hoperand.unwrap
    refine .of_eq ?_
    cases op with
    | minus =>
      simp only
      generalize operand.unwrap = u, operand'.unwrap = u' at hinner
      cases hinner <;> rfl
    | _ => rfl
  | _ => exact .of_eq rfl

/-! ## Calls -/

theorem Key.Respells.text? {key key' : Key} (h : Key.Respells key key') :
    key'.text? = key.text? := by
  cases h <;> rfl

theorem Property.Respells.alike {p p' : Property} (h : Property.Respells p p') :
    Property.Alike Expr.Respells p p' := by
  have hrefl : ∀ q : Property, Property.Alike Expr.Respells q q := by
    intro q
    cases hq : q.entry with
    | ok entry => exact .entry hq hq (.refl _)
    | error fault => exact .fault hq hq
  cases h with
  | refl => exact hrefl p
  | @keyValue key key' value value' hkey hvalue =>
    cases htext : key.text? with
    | none =>
      have hentry : ∀ {k : Key} (v : Expr), k.text? = none →
          (Property.keyValue k v).entry = .error .computedKey := by
        intro k v hk
        simp only [Property.entry, hk]
      exact .fault (hentry value htext) (hentry value' (hkey.text?.trans htext))
    | some text =>
      have hentry : ∀ {k : Key} (v : Expr), k.text? = some text →
          (Property.keyValue k v).entry = .ok (text, v) := by
        intro k v hk
        simp only [Property.entry, hk]
      exact .entry (hentry value htext) (hentry value' (hkey.text?.trans htext)) hvalue
  | assign | getter | setter | method => exact .fault rfl rfl
  | spread => exact .fault rfl rfl

theorem properties_alike {ps ps' : List Property} (h : List.Forall₂ Property.Respells ps ps') :
    List.Forall₂ (Property.Alike Expr.Respells) ps ps' :=
  h.imp fun _ _ => Property.Respells.alike

/-- **Compilations of respelled expressions run side by side**, in the same registry. -/
theorem respelling_simulation : Simulation Expr.Respells Eq where
  read := by
    intro e e' h
    have hvalue := Value.ofExpr_respells h
    generalize hv : Value.ofExpr e = v, hv' : Value.ofExpr e' = v' at hvalue
    cases hvalue with
    | object hps => exact .object hv hv' (properties_alike hps)
    | same _ hno =>
      refine .text (fun ps => hv ▸ hno ps) (fun ps => hv' ▸ hno ps) ?_
      rintro r _ rfl property
      rw [hv, hv']
  enter := by
    rintro r _ rfl kind path text
    rfl

/-- Respelled expressions serve alike as arguments. -/
theorem Expr.Respells.sameForm (h : Expr.Respells e e') :
    Expr.SameForm Expr.Respells e.unwrap e'.unwrap := by
  have hunwrap := h.unwrap
  generalize e.unwrap = u, e'.unwrap = u' at hunwrap
  cases hunwrap with
  | object hps => exact ⟨.some (properties_alike hps), rfl⟩
  | refl =>
    cases u with
    | object ps => exact ⟨.some (properties_alike (Property.respells_refl ps)), rfl⟩
    | _ => exact ⟨.none, rfl⟩
  | _ => exact ⟨.none, rfl⟩

/-- Respelled calls are alike. -/
theorem Call.Respells.alike {c c' : Call} (h : Call.Respells c c') :
    Call.Alike Expr.Respells id c c' := by
  refine .ofArgs h.name h.kind (h.args.imp fun a a' ha => ?_)
  cases ha with
  | plain he => exact .plain he.sameForm
  | spread he => exact .spread he.sameForm

/-! ## Modules -/

theorem Callee.Respells.name? {callee callee' : Callee} (h : Callee.Respells callee callee') :
    callee'.name? = callee.name? := by
  cases h with
  | refl => rfl
  | @expr e e' he =>
    have hunwrap := he.unwrap
    unfold Callee.name?
    simp only
    generalize e.unwrap = u, e'.unwrap = u' at hunwrap
    cases hunwrap <;> rfl

theorem Arg.respells_refl (args : List Arg) : List.Forall₂ Arg.Respells args args := by
  refine List.forall₂_same.mpr fun a _ => ?_
  cases a with
  | plain e => exact .plain (.refl e)
  | spread e => exact .spread (.refl e)

/-- Respelled calls of a function make respelled calls, or none of them does. -/
theorem rel_calls (name : String) {callee callee' : Callee} {args args' : List Arg}
    (hcallee : Callee.Respells callee callee') (hargs : List.Forall₂ Arg.Respells args args') :
    Option.Rel Call.Respells
      ((callee.name?.bind Kind.ofCallee?).map fun kind => ⟨name, kind, args⟩)
      ((callee'.name?.bind Kind.ofCallee?).map fun kind => ⟨name, kind, args'⟩) := by
  rw [hcallee.name?]
  cases callee.name?.bind Kind.ofCallee? with
  | none => exact .none
  | some kind => exact .some ⟨rfl, rfl, hargs⟩

/-- A respelled declarator makes a respelled call, or none as before. -/
theorem Declarator.Respells.call? {d d' : Declarator} (h : Declarator.Respells d d') :
    Option.Rel Call.Respells d.call? d'.call? := by
  obtain ⟨pattern, init⟩ := d
  obtain ⟨pattern', init'⟩ := d'
  obtain ⟨hpattern, hinit⟩ := h
  obtain rfl : pattern' = pattern := hpattern
  cases pattern' with
  | destructuring names => exact .none
  | name name =>
    cases hinit with
    | none => exact .none
    | @some e e' he =>
      have hunwrap := he.unwrap
      simp only [Declarator.call?, Option.map_some]
      generalize e.unwrap = u, e'.unwrap = u' at hunwrap
      have hcall : ∀ (callee : Callee) (args : List Arg), (do
          let kind ← Kind.ofCallee? (← callee.name?)
          return { name, kind, args : Call }) =
            (callee.name?.bind Kind.ofCallee?).map fun kind => ⟨name, kind, args⟩ := by
        intro callee args
        cases hname : callee.name? with
        | none => rfl
        | some function => cases hkind : Kind.ofCallee? function <;> simp [hkind]
      cases hunwrap with
      | call hcallee hargs =>
        simp only [hcall]
        exact rel_calls name hcallee hargs
      | refl =>
        cases u with
        | call callee args =>
          simp only [hcall]
          exact rel_calls name (.refl callee) (Arg.respells_refl args)
        | _ => exact .none
      | _ => exact .none

theorem Declarator.respells_refl (ds : List Declarator) :
    List.Forall₂ Declarator.Respells ds ds := by
  refine List.forall₂_same.mpr fun d _ => ⟨rfl, ?_⟩
  cases d.init with
  | none => exact .none
  | some e => exact .some (.refl e)

theorem Item.Respells.declarators {i i' : Item} (h : Item.Respells i i') :
    List.Forall₂ Declarator.Respells i.declarators i'.declarators := by
  cases h with
  | @stmt s _ hs | @exported s _ hs =>
    cases hs with
    | refl => exact Declarator.respells_refl _
    | vars hdeclarators => exact hdeclarators
    | _ => exact .nil
  | exportDefault | other => exact .nil

/-- The calls of a respelled module are respelled. -/
theorem Module.Respells.calls {m m' : Module} (h : Module.Respells m m') :
    List.Forall₂ Call.Respells m.calls m'.calls := by
  have hdeclarators : List.Forall₂ Declarator.Respells (m.items.flatMap Item.declarators)
      (m'.items.flatMap Item.declarators) :=
    List.rel_flatMap h fun _ _ hi => hi.declarators
  exact List.rel_filterMap (fun _ _ hd => hd.call?) hdeclarators

/-- **A respelled module compiles to the same.** -/
theorem compile_respells (options : Options) {m m' : Module} (h : Module.Respells m m') :
    compile options m' = compile options m :=
  respelling_simulation.compile_eq options (h.calls.imp fun _ _ => Call.Respells.alike)

/-! ## Member chains -/

/-- **Member chains are read exactly.** An expression is a reference iff without wrappers it is an
identifier followed by at least one access, and each access spells its segment: by a name, or by a
string or number in brackets. A private segment, another subscript, an optional chain, a call or
another root at any depth makes it unsupported. Hence a module in which any accesses are respelled
compiles to the same text, declarations and diagnostics. -/
theorem member_chains_read_exactly :
    (∀ (e : Expr) (segments : List String),
        Value.ofExpr e = .reference segments ↔ e.Names segments) ∧
      (∀ e : Expr, e.erase.Breaks → Value.ofExpr e = .unsupported) ∧
      ∀ (options : Options) (m m' : Module), m.Respells m' →
        compile options m' = compile options m :=
  ⟨fun _ _ => Value.ofExpr_eq_reference_iff, fun _ => Value.ofExpr_of_breaks,
    fun options _ _ => compile_respells options⟩

namespace Sample

/-- `vars = createThemeContract({ 2: "8px" })`. -/
def scale : Call :=
  ⟨"vars", .themeContract,
    [.plain (.object [.keyValue (.num ⟨0x4000000000000000⟩) (.str (some "8px"))])]⟩

/-- `name = style({ margin: value })`. -/
def margin (value : Expr) : Call := ⟨"box", .style, [.plain (.object [entry "margin" value])]⟩

/-- The module with the two calls. -/
def boxed (value : Expr) : Module :=
  ⟨[scale, margin value].map fun c => .stmt (.vars .const [declarator c.name c.kind c.args])⟩

/-- `(vars)[2]`. -/
def byNumber : Expr :=
  .member (.wrapped .paren (.ident "vars")) (.index (.num ⟨0x4000000000000000⟩))

/-- `(vars)['2']`. -/
def byText : Expr :=
  .member (.wrapped .paren (.ident "vars")) (.index (.str (some "2")))

theorem byNumber_respells : Expr.Respells byNumber byText := by
  have htext : (⟨0x4000000000000000⟩ : Double).text = "2" := by decide +kernel
  refine .member (.refl _) ?_
  rw [← htext]
  exact .numbered rfl

theorem boxed_respells : (boxed byNumber).Respells (boxed byText) := by
  have hsame : ∀ i : Item, (∃ s, i = .stmt s) → Item.Respells i i := by
    rintro _ ⟨s, rfl⟩
    exact .stmt (.refl s)
  refine .cons (hsame _ ⟨_, rfl⟩) (.cons (.stmt (.vars (.cons ⟨rfl, .some ?_⟩ .nil))) .nil)
  exact .call (.refl _) (.cons (.plain (.object (.cons
    (.keyValue (.refl _) byNumber_respells) .nil))) .nil)

end Sample

/-- `(vars)[2]` is a reference, `vars.#x.k` is not, and `(vars)['2']` compiles to the same as
`(vars)[2]`. -/
theorem member_chains_read_exactly_sample :
    Value.ofExpr Sample.byNumber = .reference ["vars", "2"] ∧
      Value.ofExpr (.member (.member (.ident "vars") (.hidden "x")) (.name "k")) = .unsupported ∧
      (Sample.boxed Sample.byNumber).Respells (Sample.boxed Sample.byText) ∧
      compile default (Sample.boxed Sample.byText) =
        compile default (Sample.boxed Sample.byNumber) ∧
      (compile default (Sample.boxed Sample.byNumber)).diagnostics = [] := by
  have htext : (⟨0x4000000000000000⟩ : Double).text = "2" := by decide +kernel
  have hnames : Sample.byNumber.Names ["vars", "2"] := by
    rw [← htext]
    exact ⟨"vars", [_], [.index (.num ⟨0x4000000000000000⟩)], rfl, by simp,
      .cons (.num _) .nil, rfl⟩
  obtain ⟨hreference, hbroken, hcompile⟩ := member_chains_read_exactly
  exact ⟨(hreference _ _).mpr hnames, hbroken _ (.deeper _ _ (.hidden _ _)), Sample.boxed_respells,
    hcompile default _ _ Sample.boxed_respells, by decide +kernel⟩

end StyleCompiler
