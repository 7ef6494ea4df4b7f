import StyleCompiler.Stylesheet

/-!
# Rendered text determines its blocks

From the CSS text of declarations their blocks can be read back, provided that nothing in them
spans two lines and no property name contains a colon and a space. The text is cut into lines at
the line feeds, and the lines into blocks at the empty lines. The second line of a block tells
whether it is a media block, and the first colon and space of a rule tells where its value begins.

* `eq_of_marked_eq`: stretches that end in a mark can be told apart. The text is cut twice this
  way, into lines and then into blocks.
* `renderDeclarations_eq`: the text is that of the blocks, line by line.
* `Block.lines_injective`: the lines of a block determine the block.
* `blocks_eq_of_render_eq`: the text of declarations determines their blocks.
-/

namespace StyleCompiler

/-! ## Blocks and their lines -/

/-- A piece of CSS text: rules under a selector, alone or inside a media condition. -/
inductive Block where
  | rules (selector : String) (body : RuleSet)
  | media (condition selector : String) (body : RuleSet)
deriving DecidableEq

/-- The blocks of a declaration in order: its own rules, those of its selector templates and those
of its media conditions. -/
def Declaration.blocks (d : Declaration) : List Block :=
  .rules d.classSelector d.rules ::
    (d.selectors.entries.map fun (template, rules) =>
        .rules (instantiateTemplate d.classSelector template) rules) ++
      d.media.entries.map fun (condition, rules) => .media condition d.classSelector rules

/-- The lines of rules under a selector, each set in by `margin`. -/
def ruleLines (margin indent selector : String) (rules : RuleSet) : List String :=
  (margin ++ selector ++ " \x7b") ::
    (rules.entries.map fun (property, value) =>
        margin ++ indent ++ property ++ ": " ++ value ++ ";") ++
      [margin ++ "\x7d"]

/-- The lines of a block. -/
def Block.lines (indent : String) : Block → List String
  | .rules selector body => ruleLines "" indent selector body
  | .media condition selector body =>
    ("@media " ++ condition ++ " \x7b") :: ruleLines indent indent selector body ++ ["\x7d"]

/-- The text of a block: every line ends in a line feed. -/
def Block.text (indent : String) (b : Block) : String :=
  String.join ((b.lines indent).map (· ++ "\n"))

/-- Rules under a selector are written line by line. -/
theorem renderBlock_eq (margin indent selector : String) (rules : RuleSet) :
    renderBlock margin indent selector rules =
      String.join ((ruleLines margin indent selector rules).map (· ++ "\n")) := by
  apply String.toList_injective
  simp [renderBlock, ruleLines, String.toList_join, List.flatMap_map]

theorem Block.text_rules (indent selector : String) (body : RuleSet) :
    (Block.rules selector body).text indent = renderBlock "" indent selector body :=
  (renderBlock_eq "" indent selector body).symm

theorem Block.text_media (indent condition selector : String) (body : RuleSet) :
    (Block.media condition selector body).text indent =
      "@media " ++ condition ++ " \x7b\n" ++ renderBlock indent indent selector body ++
        "\x7d\n" := by
  rw [renderBlock_eq]
  apply String.toList_injective
  simp [Block.text, Block.lines, String.toList_join]

/-- A declaration is written block by block. -/
theorem renderDeclaration_eq (indent : String) (d : Declaration) :
    renderDeclaration indent d = d.blocks.map (Block.text indent) := by
  simp [renderDeclaration, Declaration.blocks, Function.comp_def, Block.text_rules,
    Block.text_media]

/-- Declarations are written block by block, with an empty line in between. -/
theorem renderDeclarations_eq (indent : String) (ds : List Declaration) :
    renderDeclarations indent ds =
      "\n".intercalate ((ds.flatMap Declaration.blocks).map (Block.text indent)) := by
  rw [renderDeclarations, List.map_flatMap]
  simp only [← renderDeclaration_eq]

/-! ## Legible declarations -/

/-- The text does not span two lines. -/
def OneLine (s : String) : Prop := '\n' ∉ s.toList

instance (s : String) : Decidable (OneLine s) := inferInstanceAs (Decidable ('\n' ∉ s.toList))

/-- Properties and values do not span two lines, and no property contains a colon and a space. -/
def RuleSet.Legible (rules : RuleSet) : Prop :=
  ∀ e ∈ rules.entries, OneLine e.1 ∧ OneLine e.2 ∧ ¬ [':', ' '] <:+: e.1.toList

instance (rules : RuleSet) : Decidable (RuleSet.Legible rules) :=
  inferInstanceAs (Decidable (∀ e ∈ rules.entries, _))

/-- Neither the keys of the groups nor their rules span two lines. -/
def Groups.Legible (groups : Groups) : Prop :=
  ∀ g ∈ groups.entries, OneLine g.1 ∧ RuleSet.Legible g.2

instance (groups : Groups) : Decidable (Groups.Legible groups) :=
  inferInstanceAs (Decidable (∀ g ∈ groups.entries, _))

/-- Nothing in the declaration spans two lines, and no property contains a colon and a space. -/
structure Declaration.Legible (d : Declaration) : Prop where
  name : OneLine d.name
  rules : RuleSet.Legible d.rules
  selectors : Groups.Legible d.selectors
  media : Groups.Legible d.media

instance (d : Declaration) : Decidable d.Legible :=
  decidable_of_iff (OneLine d.name ∧ RuleSet.Legible d.rules ∧ Groups.Legible d.selectors ∧
      Groups.Legible d.media)
    ⟨fun ⟨hn, hr, hs, hm⟩ => ⟨hn, hr, hs, hm⟩, fun h => ⟨h.name, h.rules, h.selectors, h.media⟩⟩

/-- Nothing in the block spans two lines, and no property contains a colon and a space. -/
def Block.Legible : Block → Prop
  | .rules selector body => OneLine selector ∧ RuleSet.Legible body
  | .media condition selector body => OneLine condition ∧ OneLine selector ∧ RuleSet.Legible body

@[simp]
theorem oneLine_append {s t : String} : OneLine (s ++ t) ↔ OneLine s ∧ OneLine t := by
  simp [OneLine]

theorem oneLine_instantiateTemplate {selector template : String} (hselector : OneLine selector)
    (htemplate : OneLine template) : OneLine (instantiateTemplate selector template) := by
  unfold OneLine instantiateTemplate
  rw [String.toList_ofList, List.mem_flatMap]
  rintro ⟨c, hc, hmem⟩
  split at hmem
  · exact hselector hmem
  · exact htemplate (List.mem_singleton.mp hmem ▸ hc)

/-- The blocks of a legible declaration are legible. -/
theorem Declaration.Legible.blocks {d : Declaration} (h : d.Legible) :
    ∀ b ∈ d.blocks, b.Legible := by
  have hclass : OneLine d.classSelector := oneLine_append.mpr ⟨by decide, h.name⟩
  intro b hb
  rcases List.mem_append.mp hb with hb | hb
  · rcases List.mem_cons.mp hb with rfl | hb
    · exact ⟨hclass, h.rules⟩
    · obtain ⟨⟨template, rules⟩, hg, rfl⟩ := List.mem_map.mp hb
      obtain ⟨htemplate, hrules⟩ := h.selectors _ hg
      exact ⟨oneLine_instantiateTemplate hclass htemplate, hrules⟩
  · obtain ⟨⟨condition, rules⟩, hg, rfl⟩ := List.mem_map.mp hb
    obtain ⟨hcondition, hrules⟩ := h.media _ hg
    exact ⟨hcondition, hclass, hrules⟩

/-! ## Reading a block from its lines -/

/-- Lists whose elements can be told apart by an attribute are told apart by their attributes. -/
theorem eq_of_map_eq {α β : Type} {f : α → β} {xs ys : List α}
    (hinj : ∀ x ∈ xs, ∀ y ∈ ys, f x = f y → x = y) (h : xs.map f = ys.map f) : xs = ys := by
  induction xs generalizing ys with
  | nil => exact (List.map_eq_nil_iff.mp h.symm).symm
  | cons x xs ih =>
    cases ys with
    | nil => cases h
    | cons y ys =>
      obtain ⟨hhead, htail⟩ := List.cons.inj h
      rw [hinj x List.mem_cons_self y List.mem_cons_self hhead, ih (fun x hx y hy =>
        hinj x (List.mem_cons_of_mem _ hx) y (List.mem_cons_of_mem _ hy)) htail]

/-- The first colon and space of a rule is the one after the property. -/
theorem property_eq_of_rule_eq {p q v w : List Char} (hp : ¬ [':', ' '] <:+: p)
    (hq : ¬ [':', ' '] <:+: q) (h : p ++ ':' :: ' ' :: v = q ++ ':' :: ' ' :: w) :
    p = q ∧ v = w := by
  -- a property that ends earlier than the other would have its colon and space inside the other
  have hends : ∀ {d : Char} {p v w : List Char}, ¬ [':', ' '] <:+: d :: p →
      d :: p ++ ':' :: ' ' :: v ≠ ':' :: ' ' :: w := by
    intro d p v w hd he
    obtain ⟨rfl, hrest⟩ := List.cons.inj he
    cases p with
    | nil => exact absurd (List.cons.inj hrest).1 (by decide)
    | cons d' p =>
      obtain ⟨rfl, -⟩ := List.cons.inj hrest
      exact hd ⟨[], p, rfl⟩
  induction p generalizing q with
  | nil =>
    cases q with
    | nil => exact ⟨rfl, (List.cons.inj (List.cons.inj h).2).2⟩
    | cons d q => exact absurd h.symm (hends hq)
  | cons c p ih =>
    cases q with
    | nil => exact absurd h (hends hp)
    | cons d q =>
      obtain ⟨rfl, hrest⟩ := List.cons.inj h
      obtain ⟨rfl, rfl⟩ := ih (fun hin => hp (List.infix_cons hin))
        (fun hin => hq (List.infix_cons hin)) hrest
      exact ⟨rfl, rfl⟩

/-- The lines under a selector determine the selector and the rules. -/
theorem ruleLines_injective {margin indent selector selector' : String} {rules rules' : RuleSet}
    (hrules : RuleSet.Legible rules) (hrules' : RuleSet.Legible rules')
    (h : ruleLines margin indent selector rules = ruleLines margin indent selector' rules') :
    selector = selector' ∧ rules = rules' := by
  obtain ⟨hhead, htail⟩ := List.cons.inj h
  refine ⟨by simpa [String.append_assoc] using hhead, OrderedMap.ext ?_⟩
  refine eq_of_map_eq ?_ (List.append_cancel_right htail)
  rintro ⟨p, v⟩ hpv ⟨q, w⟩ hqw hline
  obtain ⟨-, -, hp⟩ := hrules _ hpv
  obtain ⟨-, -, hq⟩ := hrules' _ hqw
  have hrule : p.toList ++ ':' :: ' ' :: v.toList = q.toList ++ ':' :: ' ' :: w.toList := by
    have htext := congrArg String.toList ((String.append_left_inj ";").mp hline)
    simpa [String.append_assoc] using htext
  obtain ⟨hproperty, hvalue⟩ := property_eq_of_rule_eq hp hq hrule
  exact Prod.ext (String.toList_injective hproperty) (String.toList_injective hvalue)

/-- The second line of a media block opens a selector, and that of other blocks does not. -/
theorem Block.lines_rules_ne_media (indent selector condition selector' : String)
    (body body' : RuleSet) :
    (Block.rules selector body).lines indent ≠
      (Block.media condition selector' body').lines indent := by
  intro h
  obtain ⟨-, htail⟩ := List.cons.inj h
  have hlast := congrArg (fun lines => lines.head?.bind fun l => l.toList.getLast?) htail
  cases hbody : body.entries with
  | nil => simp [hbody, ruleLines] at hlast
  | cons e es => simp [hbody, ruleLines, List.getLast?_cons] at hlast

/-- **The lines of a legible block determine the block.** -/
theorem Block.lines_injective {indent : String} {b c : Block} (hb : b.Legible) (hc : c.Legible)
    (h : b.lines indent = c.lines indent) : b = c := by
  cases b with
  | rules selector body =>
    cases c with
    | rules selector' body' =>
      obtain ⟨rfl, rfl⟩ := ruleLines_injective hb.2 hc.2 h
      rfl
    | media condition' selector' body' => exact absurd h (Block.lines_rules_ne_media _ _ _ _ _ _)
  | media condition selector body =>
    cases c with
    | rules selector' body' => exact absurd h.symm (Block.lines_rules_ne_media _ _ _ _ _ _)
    | media condition' selector' body' =>
      obtain ⟨hhead, htail⟩ := List.cons.inj h
      obtain rfl : condition = condition' := by simpa [String.append_assoc] using hhead
      obtain ⟨rfl, rfl⟩ := ruleLines_injective hb.2.2 hc.2.2 (List.append_cancel_right htail)
      rfl

/-! ## Cutting the text -/

/-- Two stretches up to a mark that neither of them contains are the same. -/
theorem stretch_eq_of_marked_eq {α : Type} {mark : α} {x y rest rest' : List α} (hx : mark ∉ x)
    (hy : mark ∉ y) (h : x ++ mark :: rest = y ++ mark :: rest') : x = y ∧ rest = rest' := by
  induction x generalizing y with
  | nil =>
    cases y with
    | nil => exact ⟨rfl, (List.cons.inj h).2⟩
    | cons b y => exact absurd ((List.cons.inj h).1 ▸ List.mem_cons_self) hy
  | cons a x ih =>
    cases y with
    | nil => exact absurd ((List.cons.inj h).1 ▸ List.mem_cons_self) hx
    | cons b y =>
      obtain ⟨rfl, hrest⟩ := List.cons.inj h
      obtain ⟨rfl, rfl⟩ := ih (fun hm => hx (List.mem_cons_of_mem _ hm))
        (fun hm => hy (List.mem_cons_of_mem _ hm)) hrest
      exact ⟨rfl, rfl⟩

/-- **Stretches that end in a mark** that none of them contains can be told apart. -/
theorem eq_of_marked_eq {α : Type} {mark : α} {xs ys : List (List α)} (hxs : ∀ x ∈ xs, mark ∉ x)
    (hys : ∀ y ∈ ys, mark ∉ y) (h : xs.flatMap (· ++ [mark]) = ys.flatMap (· ++ [mark])) :
    xs = ys := by
  induction xs generalizing ys with
  | nil =>
    cases ys with
    | nil => rfl
    | cons y ys => simp at h
  | cons x xs ih =>
    cases ys with
    | nil => simp at h
    | cons y ys =>
      simp only [List.flatMap_cons, List.append_assoc, List.singleton_append] at h
      obtain ⟨rfl, hrest⟩ :=
        stretch_eq_of_marked_eq (hxs x List.mem_cons_self) (hys y List.mem_cons_self) h
      rw [ih (fun x hx => hxs x (List.mem_cons_of_mem _ hx))
        (fun y hy => hys y (List.mem_cons_of_mem _ hy)) hrest]

theorem intercalate_concat {α : Type} (mark : α) {xs : List (List α)} (h : xs ≠ []) :
    [mark].intercalate xs ++ [mark] = xs.flatMap (· ++ [mark]) := by
  induction xs with
  | nil => exact absurd rfl h
  | cons x xs ih =>
    cases xs with
    | nil => simp
    | cons y ys =>
      rw [List.intercalate_cons_cons, List.flatMap_cons, ← ih (List.cons_ne_nil y ys)]
      simp

/-- The lines of a block as characters. -/
def Block.rows (indent : String) (b : Block) : List (List Char) :=
  (b.lines indent).map String.toList

/-- The text of blocks, ended once more, is that of their lines and an empty line after each. -/
theorem toList_text_concat (indent : String) {bs : List Block} (h : bs ≠ []) :
    ("\n".intercalate (bs.map (Block.text indent))).toList ++ ['\n'] =
      ((bs.map (Block.rows indent)).flatMap (· ++ [[]])).flatMap (· ++ ['\n']) := by
  have hmap : bs.map (String.toList ∘ Block.text indent) ≠ [] := by simpa using h
  have hblock : ∀ b : Block, (b.text indent).toList ++ ['\n'] =
      (b.rows indent ++ [[]]).flatMap (· ++ ['\n']) := by
    intro b
    simp [Block.text, Block.rows, String.toList_join, List.flatMap_map]
  rw [String.toList_intercalate, List.map_map]
  show ['\n'].intercalate (bs.map (String.toList ∘ Block.text indent)) ++ ['\n'] = _
  rw [intercalate_concat '\n' hmap, List.flatMap_assoc, List.flatMap_map, List.flatMap_map]
  simp only [Function.comp, hblock]

/-- There is no text iff there are no blocks. -/
theorem text_eq_empty_iff (indent : String) {bs : List Block} :
    "\n".intercalate (bs.map (Block.text indent)) = "" ↔ bs = [] := by
  constructor
  · intro hempty
    cases bs with
    | nil => rfl
    | cons b bs =>
      have hb : (b.text indent).toList ≠ [] := by
        cases b <;> simp [Block.text, Block.lines, ruleLines, String.toList_join]
      have hnil := congrArg String.toList hempty
      rw [String.toList_intercalate, List.map_cons, List.map_cons] at hnil
      cases bs with
      | nil => exact absurd (by simpa using hnil) hb
      | cons c bs =>
        rw [List.map_cons, List.map_cons, List.intercalate_cons_cons] at hnil
        exact absurd (List.append_eq_nil_iff.mp (List.append_eq_nil_iff.mp hnil).1).1 hb
  · rintro rfl
    rfl

/-- The lines under a selector are not empty, and none of them spans two lines. -/
theorem legible_ruleLines {margin indent selector : String} {rules : RuleSet}
    (hmargin : OneLine margin) (hindent : OneLine indent) (hselector : OneLine selector)
    (hrules : RuleSet.Legible rules) :
    ∀ l ∈ ruleLines margin indent selector rules, OneLine l ∧ l.toList ≠ [] := by
  have hbraces : OneLine " \x7b" ∧ OneLine "\x7d" := by decide
  have hsigns : OneLine ": " ∧ OneLine ";" := by decide
  intro l hl
  rcases List.mem_append.mp hl with hl | hl
  · rcases List.mem_cons.mp hl with rfl | hl
    · exact ⟨by simp only [oneLine_append, hmargin, hselector, hbraces, and_self], by simp⟩
    · obtain ⟨⟨property, value⟩, he, rfl⟩ := List.mem_map.mp hl
      obtain ⟨hproperty, hvalue, -⟩ := hrules _ he
      refine ⟨?_, by simp⟩
      simp only [oneLine_append, hmargin, hindent, hproperty, hvalue, hsigns, and_self]
  · obtain rfl := List.mem_singleton.mp hl
    exact ⟨by simp only [oneLine_append, hmargin, hbraces, and_self], by simp⟩

/-- The lines of a legible block are not empty, and none of them spans two lines. -/
theorem Block.Legible.rows {indent : String} (hindent : OneLine indent) {b : Block}
    (hb : b.Legible) : (∀ row ∈ b.rows indent, '\n' ∉ row) ∧ [] ∉ b.rows indent := by
  have hlines : ∀ l ∈ b.lines indent, OneLine l ∧ l.toList ≠ [] := by
    cases b with
    | rules selector body => exact legible_ruleLines (by decide) hindent hb.1 hb.2
    | media condition selector body =>
      obtain ⟨hcondition, hselector, hbody⟩ := hb
      have hopen : OneLine "@media " ∧ OneLine " \x7b" := by decide
      intro l hl
      rcases List.mem_append.mp hl with hl | hl
      · rcases List.mem_cons.mp hl with rfl | hl
        · exact ⟨by simp only [oneLine_append, hcondition, hopen, and_self], by simp⟩
        · exact legible_ruleLines hindent hindent hselector hbody l hl
      · obtain rfl := List.mem_singleton.mp hl
        exact ⟨by decide, by decide⟩
  constructor
  · intro row hrow
    obtain ⟨l, hl, rfl⟩ := List.mem_map.mp hrow
    exact (hlines l hl).1
  · intro hrow
    obtain ⟨l, hl, hempty⟩ := List.mem_map.mp hrow
    exact (hlines l hl).2 hempty

theorem oneLine_rows {indent : String} (hindent : OneLine indent) {bs : List Block}
    (hbs : ∀ b ∈ bs, b.Legible) :
    ∀ row ∈ (bs.map (Block.rows indent)).flatMap (· ++ [[]]), '\n' ∉ row := by
  intro row hrow
  obtain ⟨rows, hrows, hrow⟩ := List.mem_flatMap.mp hrow
  obtain ⟨b, hb, rfl⟩ := List.mem_map.mp hrows
  rcases List.mem_append.mp hrow with hrow | hrow
  · exact ((hbs b hb).rows hindent).1 row hrow
  · obtain rfl := List.mem_singleton.mp hrow
    exact List.not_mem_nil

theorem nonempty_rows {indent : String} (hindent : OneLine indent) {bs : List Block}
    (hbs : ∀ b ∈ bs, b.Legible) : ∀ rows ∈ bs.map (Block.rows indent), [] ∉ rows := by
  intro rows hrows
  obtain ⟨b, hb, rfl⟩ := List.mem_map.mp hrows
  exact ((hbs b hb).rows hindent).2

/-- **The text of legible blocks determines the blocks.** -/
theorem blocks_eq_of_text_eq {indent : String} (hindent : OneLine indent) {bs cs : List Block}
    (hbs : ∀ b ∈ bs, b.Legible) (hcs : ∀ c ∈ cs, c.Legible)
    (h : "\n".intercalate (bs.map (Block.text indent)) =
      "\n".intercalate (cs.map (Block.text indent))) : bs = cs := by
  by_cases hb : bs = []
  · have hc : cs = [] :=
      (text_eq_empty_iff indent).mp (h.symm.trans ((text_eq_empty_iff indent).mpr hb))
    rw [hb, hc]
  have hc : cs ≠ [] := fun hc =>
    hb ((text_eq_empty_iff indent).mp (h.trans ((text_eq_empty_iff indent).mpr hc)))
  -- first the lines of both texts are the same, then the blocks that the lines are grouped in
  have hrows : (bs.map (Block.rows indent)).flatMap (· ++ [[]]) =
      (cs.map (Block.rows indent)).flatMap (· ++ [[]]) := by
    refine eq_of_marked_eq (oneLine_rows hindent hbs) (oneLine_rows hindent hcs) ?_
    rw [← toList_text_concat indent hb, ← toList_text_concat indent hc, h]
  have hblocks : bs.map (Block.rows indent) = cs.map (Block.rows indent) :=
    eq_of_marked_eq (nonempty_rows hindent hbs) (nonempty_rows hindent hcs) hrows
  refine eq_of_map_eq (fun b hb c hc hbc => ?_) hblocks
  have hlines : b.lines indent = c.lines indent :=
    (List.map_inj_right fun _ _ => String.toList_injective).mp hbc
  exact Block.lines_injective (hbs b hb) (hcs c hc) hlines

/-- **Rendered text determines its blocks.** If two lists of legible declarations have the same
text, written with the same indentation, then their blocks are the same: as many, in the same
order, of the same kinds, with the same selectors, conditions and rules. -/
theorem blocks_eq_of_render_eq {indent : String} (hindent : OneLine indent)
    {ds es : List Declaration} (hds : ∀ d ∈ ds, d.Legible) (hes : ∀ e ∈ es, e.Legible)
    (h : renderDeclarations indent ds = renderDeclarations indent es) :
    ds.flatMap Declaration.blocks = es.flatMap Declaration.blocks := by
  have hblocks : ∀ {ds : List Declaration}, (∀ d ∈ ds, d.Legible) →
      ∀ b ∈ ds.flatMap Declaration.blocks, b.Legible := by
    intro ds hds b hb
    obtain ⟨d, hd, hb⟩ := List.mem_flatMap.mp hb
    exact (hds d hd).blocks b hb
  rw [renderDeclarations_eq, renderDeclarations_eq] at h
  exact blocks_eq_of_text_eq hindent (hblocks hds) (hblocks hes) h

namespace Sample

/-- A class `a` with rules for `.b` as a selector group. -/
def grouped : List Declaration :=
  [{ name := "a", kind := .style
     rules := .ofList [("color", "red")]
     selectors := .ofList [(".b", .ofList [("content", "a: b;")])] }]

/-- The classes `a` and `b`, each with its rules. -/
def separate : List Declaration :=
  [{ name := "a", kind := .style, rules := .ofList [("color", "red")] },
    { name := "b", kind := .style, rules := .ofList [("content", "a: b;")] }]

end Sample

/-- Different declarations with the same text, hence with the same blocks. -/
theorem blocks_eq_of_render_eq_sample :
    OneLine "  " ∧ (∀ d ∈ Sample.grouped, d.Legible) ∧ (∀ e ∈ Sample.separate, e.Legible) ∧
      Sample.grouped ≠ Sample.separate ∧
      Sample.grouped.flatMap Declaration.blocks = Sample.separate.flatMap Declaration.blocks := by
  have hindent : OneLine "  " := by decide
  have hgrouped : ∀ d ∈ Sample.grouped, d.Legible := by decide +kernel
  have hseparate : ∀ e ∈ Sample.separate, e.Legible := by decide +kernel
  have htext : renderDeclarations "  " Sample.grouped =
      renderDeclarations "  " Sample.separate := by
    decide +kernel
  exact ⟨hindent, hgrouped, hseparate, by decide +kernel,
    blocks_eq_of_render_eq hindent hgrouped hseparate htext⟩

end StyleCompiler
