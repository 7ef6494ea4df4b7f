import StyleCompiler.Proofs.MemberChain

/-!
# Template values

A template is read in two passes: its stretches and interpolations become parts, empty stretches
left out, and then the parts are resolved one by one. What comes out is said here in one equation
(`resolve_ofTemplate`): all interpolations are read before any is resolved, the leftmost that fails
decides, and the texts are woven with the stretches.

* `Expr.Interpolates`: what an interpolated expression stands for, a member chain or a literal.
* `weave`: stretches of text with texts in between.
* `resolveParts_lead`: an empty stretch may be left out.
* `resolve_ofTemplate`: the value of a template.
* `template_value`: the three outcomes, and what they mean for literals in a template.
-/

namespace StyleCompiler

/-! ## Interpolations -/

/-- What an interpolated expression stands for: the reference of a member chain, or the text of a
string or number literal. -/
inductive Expr.Interpolates (e : Expr) : Part → Prop
  | reference {segments : List String} : e.Names segments → Interpolates e (.reference segments)
  | str {literal : Option String} :
      e.unwrap = .str literal → Interpolates e (.text (literal.getD ""))
  | num {x : Double} : e.unwrap = .num x → Interpolates e (.text x.text)

/-- The part of an access is the reference of the chain. -/
theorem Part.ofExpr?_of_member {e base : Expr} {segment : Segment}
    (h : e.unwrap = .member base segment) : Part.ofExpr? e = e.chain?.map .reference := by
  rw [← e.chain?_unwrap, h]
  unfold Part.ofExpr?
  rw [h]

theorem Expr.Names.exists_member {e : Expr} {segments : List String} (h : e.Names segments) :
    ∃ base segment, e.unwrap = .member base segment :=
  Value.exists_member_of_reference (Value.ofExpr_eq_reference_iff.mpr h)

/-- An access has a chain iff it is a member chain. -/
theorem Expr.names_iff_chain? {e base : Expr} {segment : Segment} {segments : List String}
    (h : e.unwrap = .member base segment) : e.Names segments ↔ e.chain? = some segments := by
  rw [← Value.ofExpr_eq_reference_iff, Value.ofExpr_of_member h]
  cases e.chain? <;> simp

theorem Part.ofExpr?_eq_some_iff {e : Expr} {part : Part} :
    Part.ofExpr? e = some part ↔ e.Interpolates part := by
  constructor
  · intro h
    unfold Part.ofExpr? at h
    split at h
    · rename_i base segment hmember
      obtain ⟨segments, hchain, rfl⟩ := Option.map_eq_some_iff.mp h
      rw [← hmember, e.chain?_unwrap] at hchain
      exact .reference ((Expr.names_iff_chain? hmember).mpr hchain)
    · rename_i literal hstr
      obtain rfl := Option.some.inj h
      exact .str hstr
    · rename_i x hnum
      obtain rfl := Option.some.inj h
      exact .num hnum
    · cases h
  · intro h
    cases h with
    | reference hnames =>
      obtain ⟨base, segment, hmember⟩ := hnames.exists_member
      rw [Part.ofExpr?_of_member hmember, (Expr.names_iff_chain? hmember).mp hnames]
      rfl
    | str hstr => simp only [Part.ofExpr?, hstr]
    | num hnum => simp only [Part.ofExpr?, hnum]

/-- The parts that interpolated expressions stand for, if each stands for one. -/
def interpolations? (es : List Expr) : Option (List Part) := es.mapM Part.ofExpr?

theorem interpolations?_cons (e : Expr) (es : List Expr) :
    interpolations? (e :: es) =
      (Part.ofExpr? e).bind fun part => (interpolations? es).map (part :: ·) := by
  unfold interpolations?
  rw [List.mapM_cons]
  cases Part.ofExpr? e <;> cases es.mapM Part.ofExpr? <;> rfl

theorem interpolations?_append (before after : List Expr) :
    interpolations? (before ++ after) =
      (interpolations? before).bind fun parts => (interpolations? after).map (parts ++ ·) := by
  unfold interpolations?
  rw [List.mapM_append]
  cases before.mapM Part.ofExpr? <;> cases after.mapM Part.ofExpr? <;> rfl

theorem interpolations?_eq_some_iff {es : List Expr} {parts : List Part} :
    interpolations? es = some parts ↔ List.Forall₂ Expr.Interpolates es parts := by
  induction es generalizing parts with
  | nil => simp [interpolations?, eq_comm]
  | cons e es ih =>
    rw [interpolations?_cons, List.forall₂_cons_left_iff]
    simp only [Option.bind_eq_some_iff, Option.map_eq_some_iff, Part.ofExpr?_eq_some_iff, ih]
    constructor
    · rintro ⟨part, hpart, rest, hrest, rfl⟩
      exact ⟨part, rest, hpart, hrest, rfl⟩
    · rintro ⟨part, rest, hpart, hrest, rfl⟩
      exact ⟨part, hpart, rest, hrest, rfl⟩

/-- One expression that stands for nothing is enough. -/
theorem interpolations?_eq_none {es : List Expr} {e : Expr} (hmem : e ∈ es)
    (h : ∀ part, ¬ e.Interpolates part) : interpolations? es = none := by
  obtain ⟨before, after, rfl⟩ := List.append_of_mem hmem
  have hnone : Part.ofExpr? e = none := by
    rw [Option.eq_none_iff_forall_not_mem]
    intro part hpart
    exact h part (Part.ofExpr?_eq_some_iff.mp hpart)
  rw [interpolations?_append, interpolations?_cons, hnone]
  cases interpolations? before <;> rfl

/-! ## Weaving -/

/-- Stretches of text with texts in between, as far as there are any. -/
def weave : List String → List String → String
  | [], _ => ""
  | q :: qs, [] => q ++ weave qs []
  | q :: qs, t :: ts => q ++ t ++ weave qs ts

theorem weave_nil_right (qs : List String) : weave qs [] = String.join qs := by
  induction qs with
  | nil => rfl
  | cons q qs ih => rw [weave, ih, String.join_cons]

/-- A text in between may be joined to the stretches beside it. -/
theorem weave_fold {qs₁ ts₁ : List String} (hlength : qs₁.length = ts₁.length) (q t q' : String)
    (qs₂ ts₂ : List String) :
    weave (qs₁ ++ q :: q' :: qs₂) (ts₁ ++ t :: ts₂) =
      weave (qs₁ ++ (q ++ t ++ q') :: qs₂) (ts₁ ++ ts₂) := by
  induction qs₁ generalizing ts₁ with
  | nil =>
    obtain rfl := List.length_eq_zero_iff.mp hlength.symm
    cases ts₂ <;> simp [weave, String.append_assoc]
  | cons p qs₁ ih =>
    cases ts₁ with
    | nil => cases hlength
    | cons s ts₁ =>
      have hrest : qs₁.length = ts₁.length := Nat.succ.inj hlength
      simp only [List.cons_append, weave, ih hrest]

/-! ## Resolving -/

/-- The texts of parts in order, unless one of them has none. -/
def partTexts (r : Registry) (parts : List Part) : Except SkipReason (List String) :=
  parts.mapM (Part.resolve r)

theorem partTexts_cons (r : Registry) (part : Part) (parts : List Part) :
    partTexts r (part :: parts) =
      (part.resolve r).bind fun text => (partTexts r parts).map (text :: ·) := by
  unfold partTexts
  rw [List.mapM_cons]
  cases part.resolve r <;> cases parts.mapM (Part.resolve r) <;> rfl

theorem partTexts_append (r : Registry) (before after : List Part) :
    partTexts r (before ++ after) =
      (partTexts r before).bind fun texts => (partTexts r after).map (texts ++ ·) := by
  unfold partTexts
  rw [List.mapM_append]
  cases before.mapM (Part.resolve r) <;> cases after.mapM (Part.resolve r) <;> rfl

/-- A stretch in front of parts, also one that is empty and left out. -/
theorem resolveParts_lead (r : Registry) (text : String) (parts : List Part) :
    resolveParts r ((if text = "" then [] else [Part.text text]) ++ parts) =
      (resolveParts r parts).map (text ++ ·) := by
  by_cases h : text = ""
  · subst h
    cases hparts : resolveParts r parts <;> simp [Except.map, hparts]
  · rw [if_neg h, List.singleton_append, resolveParts]
    cases resolveParts r parts <;> rfl

/-- **The parts of a template and their text.** The parts are there iff every interpolation stands
for one, and their text is woven from the stretches and the texts of the interpolations. -/
theorem resolveParts_templateParts? (r : Registry) {qs : List Quasi} {es : List Expr}
    (hlength : qs.length = es.length + 1) :
    (templateParts? qs es).map (resolveParts r) =
      (interpolations? es).map fun parts =>
        (partTexts r parts).map (weave (qs.map Quasi.text)) := by
  induction qs generalizing es with
  | nil => cases hlength
  | cons q qs ih =>
    cases es with
    | nil =>
      obtain rfl := List.length_eq_zero_iff.mp (Nat.succ.inj hlength)
      exact congrArg some (resolveParts_lead r q.text [])
    | cons e es =>
      have hrest := ih (Nat.succ.inj hlength)
      rw [interpolations?_cons, templateParts?]
      cases Part.ofExpr? e with
      | none => rfl
      | some part =>
        cases hparts : templateParts? qs es with
        | none =>
          rw [hparts] at hrest
          cases hinterpolations : interpolations? es with
          | none => rfl
          | some _ =>
            rw [hinterpolations] at hrest
            cases hrest
        | some parts =>
          rw [hparts] at hrest
          obtain ⟨inner, hinner, htexts⟩ := Option.map_eq_some_iff.mp hrest.symm
          rw [hinner]
          refine congrArg some ?_
          show resolveParts r (_ ++ part :: parts) = (partTexts r (part :: inner)).map _
          rw [resolveParts_lead, partTexts_cons, resolveParts, ← htexts]
          cases part.resolve r with
          | error reason => rfl
          | ok text =>
            cases partTexts r inner with
            | error reason => rfl
            | ok texts =>
              show Except.ok (q.text ++ (text ++ weave _ texts)) =
                .ok (q.text ++ text ++ weave _ texts)
              rw [String.append_assoc]

/-- **The value of a template**: all interpolations are read before any is resolved, and the texts
are woven with the stretches. -/
theorem resolve_ofTemplate (r : Registry) (property : String) {qs : List Quasi} {es : List Expr}
    (hlength : qs.length = es.length + 1) :
    (Value.ofTemplate qs es).resolve r property =
      match interpolations? es with
      | none => .error .unsupported
      | some parts => (partTexts r parts).map (weave (qs.map Quasi.text)) := by
  have hparts := resolveParts_templateParts? r hlength
  unfold Value.ofTemplate
  by_cases hempty : es = []
  · subst hempty
    simp only [List.isEmpty_nil, if_true, Value.resolve, interpolations?, List.mapM_nil, partTexts]
    rw [← weave_nil_right]
    rfl
  · rw [if_neg (by simpa using hempty)]
    cases hread : templateParts? qs es with
    | none =>
      rw [hread] at hparts
      rw [Option.map_eq_none_iff.mp hparts.symm]
      rfl
    | some parts =>
      rw [hread] at hparts
      obtain ⟨inner, hinner, htexts⟩ := Option.map_eq_some_iff.mp hparts.symm
      rw [hinner]
      exact htexts.symm

/-! ## Outcomes -/

/-- A part that has a text in the registry: a text, or the reference of a declared variable. -/
def Part.Declared (r : Registry) : Part → Prop
  | .text _ => True
  | .reference segments => r.contractPath segments ∈ r.paths

/-- The text of a part whose variable is declared. -/
def Part.shown (r : Registry) : Part → String
  | .text t => t
  | .reference segments => varReference (r.contractPath segments)

theorem Part.Declared.resolve {r : Registry} {part : Part} (h : part.Declared r) :
    part.resolve r = .ok (part.shown r) := by
  cases part with
  | text t => rfl
  | reference segments =>
    exact (r.reference_eq segments).trans (if_pos h)

theorem partTexts_of_declared {r : Registry} {parts : List Part}
    (h : ∀ part ∈ parts, part.Declared r) : partTexts r parts = .ok (parts.map (Part.shown r)) := by
  induction parts with
  | nil => rfl
  | cons part parts ih =>
    rw [List.forall_mem_cons] at h
    rw [partTexts_cons, h.1.resolve, ih h.2]
    rfl

/-- The leftmost part without a text decides. -/
theorem partTexts_of_undeclared {r : Registry} {before after : List Part} {segments : List String}
    (hbefore : ∀ part ∈ before, part.Declared r) (h : r.contractPath segments ∉ r.paths) :
    partTexts r (before ++ .reference segments :: after) =
      .error (.unresolved (r.contractPath segments)) := by
  have hhere : (Part.reference segments).resolve r =
      .error (.unresolved (r.contractPath segments)) :=
    (r.reference_eq segments).trans (if_neg h)
  rw [partTexts_append, partTexts_of_declared hbefore, partTexts_cons, hhere]
  rfl

/-- The value of a template with the stretches `qs` and the interpolations `es`. -/
structure IsTemplateValue (r : Registry) (qs : List Quasi) (es : List Expr)
    (outcome : Except SkipReason String) : Prop where
  /-- An interpolation that is neither a member chain nor a literal makes it unsupported. -/
  unsupported : ∀ e ∈ es, (∀ part, ¬ e.Interpolates part) → outcome = .error .unsupported
  /-- If there is none, the leftmost reference that is not declared is reported. -/
  unresolved : ∀ before segments after,
    List.Forall₂ Expr.Interpolates es (before ++ .reference segments :: after) →
      (∀ part ∈ before, part.Declared r) → r.contractPath segments ∉ r.paths →
        outcome = .error (.unresolved (r.contractPath segments))
  /-- If all are declared, the texts stand between the stretches. -/
  resolved : ∀ parts, List.Forall₂ Expr.Interpolates es parts →
    (∀ part ∈ parts, part.Declared r) →
      outcome = .ok (weave (qs.map Quasi.text) (parts.map (Part.shown r)))

theorem isTemplateValue_ofTemplate (r : Registry) (property : String) {qs : List Quasi}
    {es : List Expr} (hlength : qs.length = es.length + 1) :
    IsTemplateValue r qs es ((Value.ofTemplate qs es).resolve r property) := by
  rw [resolve_ofTemplate r property hlength]
  refine ⟨?_, ?_, ?_⟩
  · intro e hmem h
    rw [interpolations?_eq_none hmem h]
  · intro before segments after hparts hbefore h
    rw [interpolations?_eq_some_iff.mpr hparts]
    simp only [partTexts_of_undeclared hbefore h]
    rfl
  · intro parts hparts h
    rw [interpolations?_eq_some_iff.mpr hparts]
    simp only [partTexts_of_declared h]
    rfl

/-! ## Literals in a template -/

theorem length_of_interpolations? {es : List Expr} {parts : List Part}
    (h : interpolations? es = some parts) : es.length = parts.length :=
  (interpolations?_eq_some_iff.mp h).length_eq

theorem length_of_partTexts {r : Registry} {parts : List Part} {texts : List String}
    (h : partTexts r parts = .ok texts) : parts.length = texts.length := by
  induction parts generalizing texts with
  | nil =>
    cases h
    rfl
  | cons part parts ih =>
    rw [partTexts_cons] at h
    cases hpart : part.resolve r with
    | error reason =>
      rw [hpart] at h
      cases h
    | ok text =>
      cases hrest : partTexts r parts with
      | error reason =>
        rw [hpart, hrest] at h
        cases h
      | ok rest =>
        rw [hpart, hrest] at h
        cases h
        exact congrArg Nat.succ (ih hrest)

/-- **A literal may be joined to the stretches beside it.** The value of the template stays. -/
theorem resolve_ofTemplate_fold (r : Registry) (property : String) {qs₁ qs₂ : List Quasi}
    {q q' joined : Quasi} {es₁ es₂ : List Expr} {e : Expr} {text : String}
    (h₁ : qs₁.length = es₁.length) (h₂ : qs₂.length = es₂.length)
    (hliteral : e.Interpolates (.text text)) (hjoined : joined.text = q.text ++ text ++ q'.text) :
    (Value.ofTemplate (qs₁ ++ q :: q' :: qs₂) (es₁ ++ e :: es₂)).resolve r property =
      (Value.ofTemplate (qs₁ ++ joined :: qs₂) (es₁ ++ es₂)).resolve r property := by
  rw [resolve_ofTemplate r property (by simp; omega),
    resolve_ofTemplate r property (by simp; omega), interpolations?_append,
    interpolations?_append, interpolations?_cons, Part.ofExpr?_eq_some_iff.mpr hliteral]
  cases hbefore : interpolations? es₁ with
  | none => rfl
  | some before =>
    cases interpolations? es₂ with
    | none => rfl
    | some after =>
      simp only [Option.bind_some, Option.map_some, partTexts_append, partTexts_cons, Part.resolve]
      cases htexts : partTexts r before with
      | error reason => rfl
      | ok texts =>
        cases partTexts r after with
        | error reason => rfl
        | ok later =>
          have hlength : (qs₁.map Quasi.text).length = texts.length := by
            rw [List.length_map, h₁, length_of_interpolations? hbefore, length_of_partTexts htexts]
          have hfold := weave_fold hlength q.text text q'.text (qs₂.map Quasi.text) later
          rw [← hjoined] at hfold
          simpa [Except.map, Except.bind] using hfold

/-- A template of literals has the value of its text. -/
theorem resolve_ofTemplate_literals (r : Registry) (property : String) {qs : List Quasi}
    {es : List Expr} {texts : List String} (hlength : qs.length = es.length + 1)
    (hliterals : List.Forall₂ Expr.Interpolates es (texts.map .text)) :
    (Value.ofTemplate qs es).resolve r property = .ok (weave (qs.map Quasi.text) texts) := by
  have hdeclared : ∀ part ∈ texts.map Part.text, part.Declared r := by
    intro part hpart
    obtain ⟨text, _, rfl⟩ := List.mem_map.mp hpart
    trivial
  have hvalue := (isTemplateValue_ofTemplate r property hlength).resolved _ hliterals hdeclared
  rw [hvalue, List.map_map]
  simp [Function.comp_def, Part.shown]

/-- **Template values.** Take a template with one stretch of text more than it has interpolations,
under whatever wrappers, in any registry and for any property. If an interpolation is neither a
member chain nor a string or number literal, the value is unsupported. If there is none but some
reference is not declared, the path of the leftmost one is reported. Otherwise the value is the
stretches with the texts of the interpolations in between. Hence a literal may be joined to the
stretches beside it, and a template of literals may be written as a string. -/
theorem template_value (r : Registry) (property : String) (e : Expr) (qs : List Quasi)
    (es : List Expr) (htemplate : e.unwrap = .template qs es)
    (hlength : qs.length = es.length + 1) :
    IsTemplateValue r qs es ((Value.ofExpr e).resolve r property) ∧
      (∀ qs₁ q q' qs₂ es₁ literal es₂ text joined, qs = qs₁ ++ q :: q' :: qs₂ →
        es = es₁ ++ literal :: es₂ → qs₁.length = es₁.length → literal.Interpolates (.text text) →
        joined.text = q.text ++ text ++ q'.text →
          (Value.ofExpr e).resolve r property =
            (Value.ofExpr (.template (qs₁ ++ joined :: qs₂) (es₁ ++ es₂))).resolve r property) ∧
      ∀ texts, List.Forall₂ Expr.Interpolates es (texts.map .text) →
        (Value.ofExpr e).resolve r property =
          (Value.ofExpr (.str (some (weave (qs.map Quasi.text) texts)))).resolve r property := by
  have hvalue : Value.ofExpr e = Value.ofTemplate qs es := by
    unfold Value.ofExpr
    rw [htemplate]
  rw [hvalue]
  refine ⟨isTemplateValue_ofTemplate r property hlength, ?_, ?_⟩
  · rintro qs₁ q q' qs₂ es₁ literal es₂ text joined rfl rfl hbefore hliteral hjoined
    have hafter : qs₂.length = es₂.length := by
      simp only [List.length_append, List.length_cons] at hlength
      omega
    exact resolve_ofTemplate_fold r property hbefore hafter hliteral hjoined
  · intro texts hliterals
    rw [resolve_ofTemplate_literals r property hlength hliterals]
    rfl

namespace Sample

/-- The stretches of `border`. The last one has no text of its own and shows its source text. -/
def borderQuasis : List Quasi := [⟨some "", ""⟩, ⟨some "px\t", "px\\t"⟩, ⟨none, "!"⟩]

/-- The interpolations of `border`. -/
def borderExprs : List Expr := [.num ⟨0x4004000000000000⟩, .wrapped .nonNull (varsDot "color")]

/-- The template `${2.5}px\t${vars.color!}!`, in parentheses. -/
def border : Expr := .wrapped .paren (.template borderQuasis borderExprs)

theorem interpolates_borderExprs :
    List.Forall₂ Expr.Interpolates borderExprs [.text "2.5", .reference ["vars", "color"]] := by
  have htext : (⟨0x4004000000000000⟩ : Double).text = "2.5" := by decide +kernel
  refine .cons ?_ (.cons (.reference ?_) .nil)
  · rw [← htext]
    exact .num rfl
  · exact ⟨"vars", ["color"], [.name "color"], rfl, by simp, .cons (.name "color") .nil, rfl⟩

end Sample

/-- The value of the sample template after the contract of the sample module. -/
theorem template_value_sample :
    Sample.border.unwrap = .template Sample.borderQuasis Sample.borderExprs ∧
      Sample.borderQuasis.length = Sample.borderExprs.length + 1 ∧
      (Value.ofExpr Sample.border).resolve (registryAfter {} [Sample.contract]) "border" =
        .ok "2.5px\tvar(--color)!" := by
  have hdeclared : ∀ part ∈ [Part.text "2.5", .reference ["vars", "color"]],
      part.Declared (registryAfter {} [Sample.contract]) := by
    have hcolor : (registryAfter {} [Sample.contract]).contractPath ["vars", "color"] ∈
        (registryAfter {} [Sample.contract]).paths := by decide +kernel
    simpa [Part.Declared] using hcolor
  have hvalue := (template_value (registryAfter {} [Sample.contract]) "border" Sample.border
    Sample.borderQuasis Sample.borderExprs rfl rfl).1.resolved _ Sample.interpolates_borderExprs
      hdeclared
  have htext : weave (Sample.borderQuasis.map Quasi.text)
      ([Part.text "2.5", .reference ["vars", "color"]].map
        (Part.shown (registryAfter {} [Sample.contract]))) = "2.5px\tvar(--color)!" := by
    decide +kernel
  rw [htext] at hvalue
  exact ⟨rfl, rfl, hvalue⟩

end StyleCompiler
