import Mathlib.Data.List.Forall2
import StyleCompiler.Proofs.Erasure.Outcome

/-!
# Member chains

Which expressions are references, said without reading them: without its wrappers the expression is
an identifier followed by accesses, nested to the left, and each access spells a segment. The
accesses are looked at one by one (`Segment.Spells`), and so is what can break a chain
(`Expr.Breaks`).

* `Expr.chain?_eq_some_iff`: the names along a chain.
* `Value.ofExpr_eq_reference_iff`: an expression is a reference iff it is a chain of at least one
  access, and its segments are the root and what the accesses spell.
* `Value.ofExpr_of_breaks`: a broken chain is unsupported.
-/

namespace StyleCompiler

/-! ## Chains -/

/-- The text that an access without wrappers spells: a name, or a string or number in brackets. A
string that is not Unicode text spells the empty one. -/
inductive Segment.Spells : Segment → String → Prop
  | name (name : String) : Spells (.name name) name
  | str (literal : Option String) : Spells (.index (.str literal)) (literal.getD "")
  | num (x : Double) : Spells (.index (.num x)) x.text

/-- An expression followed by accesses, nested to the left. -/
def Expr.access (base : Expr) (accesses : List Segment) : Expr := accesses.foldl Expr.member base

/-- **The expression is a member chain with these segments.** Without wrappers it is an identifier
followed by at least one access, and each access spells its segment. -/
def Expr.Names (e : Expr) (segments : List String) : Prop :=
  ∃ (root : String) (texts : List String) (accesses : List Segment),
    segments = root :: texts ∧ accesses ≠ [] ∧ List.Forall₂ Segment.Spells accesses texts ∧
      e.erase = (Expr.ident root).access accesses

theorem Expr.access_concat (base : Expr) (accesses : List Segment) (segment : Segment) :
    base.access (accesses ++ [segment]) = .member (base.access accesses) segment :=
  List.foldl_concat ..

theorem Expr.unwrap_of_bare {e : Expr} (h : e.bare = true) : e.unwrap = e := by
  cases e with
  | wrapped wrapper inner => cases h
  | _ => rfl

/-- A subscript without wrappers is known iff it is a string or a number. -/
theorem Segment.spells_index_iff {index : Expr} {text : String} (hbare : index.bare = true) :
    (Segment.index index).Spells text ↔ index.literal? = some text := by
  unfold Expr.literal?
  rw [Expr.unwrap_of_bare hbare]
  constructor
  · rintro (_ | _ | _) <;> rfl
  · intro h
    cases index with
    | str literal =>
      obtain rfl := Option.some.inj h
      exact .str literal
    | num x =>
      obtain rfl := Option.some.inj h
      exact .num x
    | _ => cases h

/-- An access without its wrappers spells the text of the access. -/
theorem Segment.spells_erase_iff {s : Segment} {text : String} :
    s.erase.Spells text ↔ s.text? = some text := by
  cases s with
  | name name =>
    constructor
    · rintro ⟨⟩
      rfl
    · intro h
      obtain rfl := Option.some.inj h
      exact .name name
  | hidden name => exact ⟨nofun, nofun⟩
  | index index =>
    have hbare : index.erase.bare = true := index.bare_erase
    show (Segment.index index.erase).Spells text ↔ index.literal? = some text
    rw [Segment.spells_index_iff hbare, index.literal?_erase]

theorem Segment.Spells.text? {s : Segment} {text : String} (h : s.Spells text) :
    s.text? = some text := by
  cases h <;> rfl

/-- Accesses that spell texts lengthen a chain by these. -/
theorem Expr.chain?_access {base : Expr} {segments : List String}
    (hbase : base.chain? = some segments)
    {accesses : List Segment} {texts : List String}
    (h : List.Forall₂ Segment.Spells accesses texts) :
    (base.access accesses).chain? = some (segments ++ texts) := by
  induction h generalizing base segments with
  | nil => simpa [Expr.access] using hbase
  | @cons s text _ texts hs _ ih =>
    have hmember : (Expr.member base s).chain? = some (segments ++ [text]) := by
      simp [Expr.chain?, hbase, hs.text?]
    have hrest := ih hmember
    rwa [List.append_assoc] at hrest

/-- **The names along a chain**: a root, and what the accesses after it spell. -/
theorem Expr.chain?_eq_some_iff {e : Expr} {segments : List String} :
    e.chain? = some segments ↔
      ∃ root texts accesses, segments = root :: texts ∧
        List.Forall₂ Segment.Spells accesses texts ∧
          e.erase = (Expr.ident root).access accesses := by
  constructor
  · intro h
    fun_induction Expr.chain? e generalizing segments with
    | case1 name =>
      obtain rfl := Option.some.inj h
      exact ⟨name, [], [], rfl, .nil, rfl⟩
    | case2 _ inner ih => exact ih h
    | case3 base segment ih =>
      obtain ⟨chain, hchain, h⟩ := Option.bind_eq_some_iff.mp h
      obtain ⟨text, htext, h⟩ := Option.bind_eq_some_iff.mp h
      obtain rfl := Option.some.inj h
      obtain ⟨root, texts, accesses, rfl, hspells, herase⟩ := ih hchain
      refine ⟨root, texts ++ [text], accesses ++ [segment.erase], rfl, ?_, ?_⟩
      · exact List.rel_append hspells (.cons (Segment.spells_erase_iff.mpr htext) .nil)
      · rw [Expr.access_concat, ← herase]
        rfl
    | case4 => cases h
  · rintro ⟨root, texts, accesses, rfl, hspells, herase⟩
    have hroot : (Expr.ident root).chain? = some [root] := rfl
    rw [← e.chain?_erase, herase]
    exact Expr.chain?_access hroot hspells

/-! ## References -/

@[simp]
theorem Expr.chain?_unwrap (e : Expr) : e.unwrap.chain? = e.chain? := by
  fun_induction Expr.unwrap e with
  | case1 _ _ ih => exact ih
  | case2 e _ => rfl

/-- An access is a reference if it is a chain, and unsupported if not. -/
theorem Value.ofExpr_of_member {e base : Expr} {segment : Segment}
    (h : e.unwrap = .member base segment) :
    Value.ofExpr e = (e.chain?.map Value.reference).getD .unsupported := by
  rw [← e.chain?_unwrap, h]
  unfold Value.ofExpr
  rw [h]
  cases hchain : (Expr.member base segment).chain? with
  | none => simp only [hchain, Option.map_none, Option.getD_none]
  | some segments => simp only [hchain, Option.map_some, Option.getD_some]

/-- Nothing but an access is a reference. -/
theorem Value.exists_member_of_reference {e : Expr} {segments : List String}
    (h : Value.ofExpr e = .reference segments) :
    ∃ base segment, e.unwrap = .member base segment := by
  unfold Value.ofExpr at h
  split at h
  case h_6 base segment hmember => exact ⟨base, segment, hmember⟩
  case h_4 => split at h <;> cases h
  case h_7 =>
    unfold Value.ofTemplate at h
    split at h
    · cases h
    · split at h <;> cases h
  all_goals cases h

/-- Inside the wrappers stands an access iff the erased expression is one. -/
theorem Expr.unwrap_eq_member_iff {e : Expr} :
    (∃ base segment, e.unwrap = .member base segment) ↔
      ∃ base segment, e.erase = .member base segment := by
  have herase : e.erase = e.unwrap.erase := by
    rw [← e.unwrap_erase, Expr.unwrap_of_bare e.bare_erase]
  rw [herase]
  constructor
  · rintro ⟨base, segment, h⟩
    exact ⟨base.erase, segment.erase, by rw [h]; rfl⟩
  · rintro ⟨base, segment, h⟩
    cases hinner : e.unwrap with
    | wrapped wrapper inner => exact absurd hinner (e.unwrap_ne_wrapped wrapper inner)
    | member base segment => exact ⟨base, segment, rfl⟩
    | _ =>
      rw [hinner] at h
      cases h

/-- **An expression is a reference iff it is a member chain**, and then to the segments of the
chain. -/
theorem Value.ofExpr_eq_reference_iff {e : Expr} {segments : List String} :
    Value.ofExpr e = .reference segments ↔ e.Names segments := by
  constructor
  · intro h
    obtain ⟨base, segment, hunwrap⟩ := Value.exists_member_of_reference h
    have hchain : e.chain? = some segments := by
      rw [Value.ofExpr_of_member hunwrap] at h
      cases hchain : e.chain? with
      | none =>
        rw [hchain] at h
        cases h
      | some names =>
        rw [hchain] at h
        exact congrArg some (Value.reference.inj h)
    obtain ⟨root, texts, accesses, hsegments, hspells, herase⟩ := Expr.chain?_eq_some_iff.mp hchain
    refine ⟨root, texts, accesses, hsegments, ?_, hspells, herase⟩
    -- without accesses the expression would be an identifier
    rintro rfl
    obtain ⟨base', segment', hmember⟩ := Expr.unwrap_eq_member_iff.mp ⟨base, segment, hunwrap⟩
    rw [herase] at hmember
    cases hmember
  · rintro ⟨root, texts, accesses, hsegments, hne, hspells, herase⟩
    have hchain : e.chain? = some segments :=
      Expr.chain?_eq_some_iff.mpr ⟨root, texts, accesses, hsegments, hspells, herase⟩
    obtain ⟨before, last, rfl⟩ := (List.eq_nil_or_concat accesses).resolve_left hne
    rw [List.concat_eq_append, Expr.access_concat] at herase
    obtain ⟨base, segment, hunwrap⟩ := Expr.unwrap_eq_member_iff.mpr ⟨_, _, herase⟩
    rw [Value.ofExpr_of_member hunwrap, hchain]
    rfl

/-! ## Broken chains -/

/-- An expression without wrappers that is no reference although it is an access, an optional chain
or a call, with what breaks it at some depth. -/
inductive Expr.Breaks : Expr → Prop
  /-- A private segment. -/
  | hidden (base : Expr) (name : String) : Breaks (.member base (.hidden name))
  /-- A subscript that is neither a string nor a number. -/
  | subscript (base index : Expr) : (∀ literal, index ≠ .str literal) → (∀ x, index ≠ .num x) →
      Breaks (.member base (.index index))
  /-- An optional access. -/
  | optionalMember (object : Expr) (segment : Segment) : Breaks (.optionalMember object segment)
  /-- An optional call. -/
  | optionalCall (callee : Expr) (args : List Arg) : Breaks (.optionalCall callee args)
  /-- A call. -/
  | call (callee : Callee) (args : List Arg) : Breaks (.call callee args)
  /-- A root that is no identifier. -/
  | root (base : Expr) (segment : Segment) : (∀ name, base ≠ .ident name) →
      (∀ inner s, base ≠ .member inner s) → Breaks (.member base segment)
  /-- What breaks the chain before the last access breaks the whole. -/
  | deeper (base : Expr) (segment : Segment) : Breaks base → Breaks (.member base segment)

/-- A broken chain has no names along it. -/
theorem Expr.Breaks.chain?_eq_none {e : Expr} (h : e.Breaks) (hbare : e.bare = true) :
    e.chain? = none := by
  induction h with
  | hidden base name => simp [Expr.chain?, Segment.text?]
  | subscript base index hstr hnum =>
    have hindex : index.bare = true := (Bool.and_eq_true_iff.mp hbare).2
    have hliteral : index.literal? = none := by
      cases index with
      | str literal => exact absurd rfl (hstr literal)
      | num x => exact absurd rfl (hnum x)
      | wrapped wrapper inner => cases hindex
      | _ => rfl
    simp [Expr.chain?, Segment.text?, hliteral]
  | optionalMember | optionalCall | call => rfl
  | root base segment hident hmember =>
    have hbase : base.bare = true := (Bool.and_eq_true_iff.mp hbare).1
    cases base with
    | ident name => exact absurd rfl (hident name)
    | member inner s => exact absurd rfl (hmember inner s)
    | wrapped wrapper inner => cases hbase
    | _ => rfl
  | deeper base segment _ ih =>
    have hbase := ih (Bool.and_eq_true_iff.mp hbare).1
    simp [Expr.chain?, hbase]

theorem Expr.Breaks.ofExpr {e : Expr} (h : e.Breaks) (hbare : e.bare = true) :
    Value.ofExpr e = .unsupported := by
  have hchain := h.chain?_eq_none hbare
  cases h with
  | optionalMember | optionalCall | call => rfl
  | hidden | subscript | root | deeper =>
    rw [Value.ofExpr_of_member rfl, hchain]
    rfl

/-- **A broken chain is unsupported**, under whatever wrappers. -/
theorem Value.ofExpr_of_breaks {e : Expr} (h : e.erase.Breaks) : Value.ofExpr e = .unsupported := by
  have herase : (Value.ofExpr e).erase = .unsupported := by
    rw [← Value.ofExpr_erase]
    exact h.ofExpr e.bare_erase
  cases hvalue : Value.ofExpr e with
  | unsupported => rfl
  | text _ | number _ | null | object _ | reference _ | template _ =>
    rw [hvalue] at herase
    cases herase

end StyleCompiler
