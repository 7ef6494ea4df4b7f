import StyleCompiler.Dimension
import StyleCompiler.Proofs.Name

/-!
# The properties whose numbers take no unit

Whether a number takes a unit is decided on the hyphenated name of its property, and hyphenation
loses something: a hyphen of the result stands for itself or for a capital together with the letter
after it. `namesSpelled` runs hyphenation backwards and lists the names with a given hyphenation.
The properties without a unit are the names so listed, and there are two of them.

* `kebabChars_eq_cons_iff`: where the first character of a hyphenated text comes from.
* `mem_namesSpelled`: the list holds the names with the given hyphenation and no others.
* `isUnitless_iff`: the properties without a unit.
* `only_line_height_unitless`: the text of a number, by its property.
-/

namespace StyleCompiler

/-! ## The names with a given hyphenation -/

/-- The capital whose lower case is the given character, if there is one. -/
def capitalOf? (c : Char) : Option Char :=
  let capital := Char.ofNat (c.toNat - 32)
  if isCapital capital && lowerCapital capital = c then some capital else none

/-- The names, by their characters, that are hyphenated to the given text. A hyphen and the letter
after it may come from one capital; no name leaves a capital in the text. -/
def namesSpelled : List Char → List (List Char)
  | [] => [[]]
  | [c] => if isCapital c then [] else [[c]]
  | c :: d :: cs =>
    (if isCapital c then [] else (namesSpelled (d :: cs)).map (c :: ·)) ++
      if c = '-' then
        (capitalOf? d).toList.flatMap fun capital => (namesSpelled cs).map (capital :: ·)
      else []

theorem capitalOf?_eq_some {c capital : Char} :
    capitalOf? c = some capital ↔ isCapital capital = true ∧ lowerCapital capital = c := by
  unfold capitalOf?
  constructor
  · intro h
    simp only [Bool.and_eq_true, decide_eq_true_eq] at h
    split_ifs at h with hcapital
    obtain rfl := Option.some.inj h
    exact hcapital
  · rintro ⟨hcapital, rfl⟩
    have hcode : (lowerCapital capital).toNat - 32 = capital.toNat := by
      rw [toNat_lowerCapital hcapital, Nat.add_sub_cancel]
    simp [hcode, hcapital]

theorem kebabChars_eq_nil_iff {name : List Char} : kebabChars name = [] ↔ name = [] := by
  cases name with
  | nil => simp
  | cons c rest =>
    rw [kebabChars_cons, kebabChar]
    split_ifs <;> simp

/-- The first character of a hyphenated text is the first of the name, or a hyphen that a capital
has left. -/
theorem kebabChars_eq_cons_iff {name cs : List Char} {c : Char} :
    kebabChars name = c :: cs ↔
      (isCapital c = false ∧ ∃ rest, name = c :: rest ∧ kebabChars rest = cs) ∨
        (c = '-' ∧ ∃ capital rest, isCapital capital = true ∧ name = capital :: rest ∧
          lowerCapital capital :: kebabChars rest = cs) := by
  constructor
  · intro h
    cases name with
    | nil => cases h
    | cons d rest =>
      rw [kebabChars_cons, kebabChar] at h
      split_ifs at h with hd
      · obtain ⟨rfl, rfl⟩ := List.cons.inj h
        exact Or.inr ⟨rfl, d, rest, hd, rfl, rfl⟩
      · obtain ⟨rfl, rfl⟩ := List.cons.inj h
        exact Or.inl ⟨Bool.eq_false_iff.mpr hd, rest, rfl, rfl⟩
  · rintro (⟨hc, rest, rfl, rfl⟩ | ⟨rfl, capital, rest, hcapital, rfl, rfl⟩)
    · simp [kebabChar, hc]
    · simp [kebabChar, hcapital]

/-- **The list is complete**: it holds the names with the given hyphenation and no others. -/
theorem mem_namesSpelled {name cs : List Char} :
    name ∈ namesSpelled cs ↔ kebabChars name = cs := by
  induction cs using namesSpelled.induct generalizing name with
  | case1 => rw [namesSpelled, List.mem_singleton, kebabChars_eq_nil_iff]
  | case2 c hc | case3 c hc =>
    rw [namesSpelled, kebabChars_eq_cons_iff]
    simp [hc, kebabChars_eq_nil_iff]
  | case4 c d cs ih ihRest =>
    rw [namesSpelled, kebabChars_eq_cons_iff, List.mem_append]
    refine or_congr ?_ ?_
    · -- the name starts with the character itself
      by_cases hc : isCapital c = true
      · simp [hc]
      · simp [hc, ih, and_comm, eq_comm]
    · -- the name starts with the capital of the letter after the hyphen
      by_cases hc : c = '-'
      · simp only [hc, if_true, List.mem_flatMap, Option.mem_toList, capitalOf?_eq_some,
          List.mem_map, ihRest, true_and, List.cons.injEq]
        constructor
        · rintro ⟨capital, ⟨hcapital, hlower⟩, rest, hrest, rfl⟩
          exact ⟨capital, rest, hcapital, rfl, hlower, hrest⟩
        · rintro ⟨capital, rest, hcapital, rfl, hlower, hrest⟩
          exact ⟨capital, ⟨hcapital, hlower⟩, rest, hrest, rfl⟩
      · simp [hc]

/-- A name is hyphenated to a text iff it is listed for the text. -/
theorem kebab_eq_iff {name text : String} :
    kebab name = text ↔ name.toList ∈ namesSpelled text.toList := by
  rw [mem_namesSpelled, ← toList_kebab, String.toList_inj]

/-! ## Numbers without a unit -/

/-- The names of all properties without a unit. -/
def unitlessNames : List (List Char) :=
  unitlessProperties.flatMap fun property => namesSpelled property.toList

theorem unitlessNames_eq :
    unitlessNames = ["line-height".toList, "lineHeight".toList] := by
  decide

theorem isUnitless_iff_mem {property : String} :
    isUnitless property = true ↔ property.toList ∈ unitlessNames := by
  rw [isUnitless, List.contains_iff_mem, unitlessNames, List.mem_flatMap]
  constructor
  · intro h
    exact ⟨kebab property, h, kebab_eq_iff.mp rfl⟩
  · rintro ⟨spelled, hspelled, hname⟩
    rw [kebab_eq_iff.mpr hname]
    exact hspelled

/-- **One property takes no unit**, in two spellings. -/
theorem isUnitless_iff {property : String} :
    isUnitless property = true ↔ property = "lineHeight" ∨ property = "line-height" := by
  rw [isUnitless_iff_mem, unitlessNames_eq]
  simp only [List.mem_cons, List.not_mem_nil, or_false, String.toList_inj]
  exact or_comm

/-- Other capitals and other letters make another property. -/
example :
    ["LineHeight", "line-Height", "lineheight", "linÉheight", "lineÞeight"].all
      (!isUnitless ·) := by
  decide

/-- The text of a number is decided by the hyphenated name of its property. -/
theorem dimension_congr {property other : String} (h : kebab property = kebab other)
    (value : Double) : dimension property value = dimension other value := by
  rw [dimension, dimension, isUnitless, isUnitless, h]

/-- **The unit exemption covers one property.** Numbers take no unit under the names `lineHeight`
and `line-height` and under no other name. So under these two a number is its bare text, and under
any other its text with `px` after it; names with the same hyphenation give the same text. -/
theorem only_line_height_unitless (property : String) :
    (isUnitless property = true ↔ property = "lineHeight" ∨ property = "line-height") ∧
      ∀ value : Double,
        dimension property value =
            (if property = "lineHeight" ∨ property = "line-height" then value.text
            else value.text ++ "px") ∧
          ∀ other, kebab property = kebab other →
            dimension property value = dimension other value := by
  refine ⟨isUnitless_iff, fun value => ⟨?_, fun other h => dimension_congr h value⟩⟩
  simp only [dimension, isUnitless_iff]

/-- The two spellings give the same text of one and a half. -/
theorem only_line_height_unitless_sample :
    kebab "lineHeight" = kebab "line-height" ∧
      dimension "lineHeight" ⟨0x3FF8000000000000⟩ = dimension "line-height" ⟨0x3FF8000000000000⟩ :=
  have hkebab : kebab "lineHeight" = kebab "line-height" := by decide
  ⟨hkebab, ((only_line_height_unitless "lineHeight").2 ⟨0x3FF8000000000000⟩).2 _ hkebab⟩

end StyleCompiler
