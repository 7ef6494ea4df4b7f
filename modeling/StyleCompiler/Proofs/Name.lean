import Mathlib.Tactic.SplitIfs
import StyleCompiler.Name

/-!
# Names and their spelling

Hyphenation reads a name character by character, so it goes through the parts of a name one by one.
A name without capitals, a *normal* name, is its own hyphenation, and what hyphenation gives is
normal. The custom property of a path is two hyphens and the *spelling* of the path: its dots turned
into hyphens, and the whole hyphenated. So what a path loses on its way into the stylesheet is what
it loses in its spelling.

* `kebab_append`: a name is hyphenated part by part.
* `isCapital_lowerCapital`: the lower case of a capital is no capital.
* `kebab_eq_self_iff`, `kebab_kebab`: the fixed points of hyphenation are the normal names, and one
  pass reaches them.
* `customProperty_eq`: the custom property in terms of the spelling.
* `customProperty_inj`, `varReference_inj`: two paths share their custom property, and the text
  that refers to it, iff they have the same spelling.
* `name_normalisation_laws`: all of this together.
-/

namespace StyleCompiler

/-! ## Names without capitals -/

/-- A name is normal if it has no capital. -/
def Normal (name : String) : Prop := ∀ c ∈ name.toList, isCapital c = false

theorem isCapital_iff (c : Char) :
    isCapital c = true ↔ (65 ≤ c.toNat ∧ c.toNat ≤ 90) ∨ (0xC0 ≤ c.toNat ∧ c.toNat ≤ 0xD6) ∨
      (0xD8 ≤ c.toNat ∧ c.toNat ≤ 0xDE) := by
  simp only [isCapital, Bool.or_eq_true, Bool.and_eq_true, decide_eq_true_eq, Char.le_def,
    UInt32.le_iff_toNat_le, or_assoc]
  rfl

theorem toNat_lowerCapital {c : Char} (h : isCapital c = true) :
    (lowerCapital c).toNat = c.toNat + 32 := by
  rw [isCapital_iff] at h
  have hvalid : (c.toNat + 32).isValidChar := Or.inl (by omega)
  rw [lowerCapital, Char.ofNat, dif_pos hvalid]
  rfl

/-- The lower case of a capital is no capital. -/
theorem isCapital_lowerCapital {c : Char} (h : isCapital c = true) :
    isCapital (lowerCapital c) = false := by
  have hcode := toNat_lowerCapital h
  rw [isCapital_iff] at h
  rw [Bool.eq_false_iff, Ne, isCapital_iff]
  omega

/-- Hyphenated characters are no capitals. -/
theorem isCapital_of_mem_kebabChars {cs : List Char} {c : Char} (h : c ∈ kebabChars cs) :
    isCapital c = false := by
  obtain ⟨d, -, hd⟩ := List.mem_flatMap.mp h
  unfold kebabChar at hd
  split_ifs at hd with hcap
  · rcases List.mem_cons.mp hd with rfl | hd
    · decide
    · rw [List.mem_singleton.mp hd]
      exact isCapital_lowerCapital hcap
  · rw [List.mem_singleton.mp hd]
    exact Bool.eq_false_iff.mpr hcap

theorem normal_kebab (name : String) : Normal (kebab name) := by
  intro c hc
  rw [toList_kebab] at hc
  exact isCapital_of_mem_kebabChars hc

/-- Characters without a capital are hyphenated already. -/
theorem kebabChars_eq_self {cs : List Char} (h : ∀ c ∈ cs, isCapital c = false) :
    kebabChars cs = cs := by
  induction cs with
  | nil => rfl
  | cons c cs ih =>
    obtain ⟨hc, hcs⟩ := List.forall_mem_cons.mp h
    rw [kebabChars_cons, ih hcs, kebabChar, hc]
    rfl

/-- A normal name is a fixed point of hyphenation. -/
theorem Normal.kebab_eq {name : String} (h : Normal name) : kebab name = name := by
  rw [kebab, kebabChars_eq_self h, String.ofList_toList]

/-- **The fixed points of hyphenation** are the normal names. -/
theorem kebab_eq_self_iff {name : String} : kebab name = name ↔ Normal name := by
  constructor
  · intro h
    rw [← h]
    exact normal_kebab name
  · exact Normal.kebab_eq

/-- Hyphenating twice is hyphenating once. -/
theorem kebab_kebab (name : String) : kebab (kebab name) = kebab name :=
  (normal_kebab name).kebab_eq

/-- A name is hyphenated part by part. -/
theorem kebab_append (s t : String) : kebab (s ++ t) = kebab s ++ kebab t := by
  rw [← String.toList_inj]
  simp

/-! ## The spelling of paths -/

/-- A hyphen in the place of a dot. -/
def hyphenateChar (c : Char) : Char := if c = '.' then '-' else c

/-- The path with a hyphen in the place of every dot. -/
def hyphenate (path : String) : String := path.map hyphenateChar

/-- The spelling of a path. -/
def spelling (path : String) : String := kebab (hyphenate path)

theorem splitAtChar_ne_nil (sep : Char) (cs : List Char) : splitAtChar sep cs ≠ [] := by
  fun_cases splitAtChar sep cs <;> exact List.cons_ne_nil _ _

/-- To hyphenate the stretches between the dots and to join them by hyphens is to hyphenate the
whole after its dots were turned into hyphens. -/
theorem intercalate_kebabChars (cs : List Char) :
    List.intercalate ['-'] ((splitAtChar '.' cs).map kebabChars) =
      kebabChars (cs.map hyphenateChar) := by
  induction cs with
  | nil => rfl
  | cons c cs ih =>
    obtain ⟨stretch, rest, hsplit⟩ := List.exists_cons_of_ne_nil (splitAtChar_ne_nil '.' cs)
    rw [hsplit, List.map_cons] at ih
    rw [List.map_cons, kebabChars_cons, ← ih]
    by_cases hc : c = '.'
    · subst hc
      rw [splitAtChar, if_pos rfl, hsplit, List.map_cons, List.map_cons,
        List.intercalate_cons_cons]
      rfl
    · have hchar : hyphenateChar c = c := if_neg hc
      simp only [splitAtChar, if_neg hc, hsplit, List.map_cons, kebabChars_cons, hchar]
      cases rest with
      | nil => simp
      | cons next rest => simp [List.intercalate_cons_cons]

/-- **The custom property of a path** is two hyphens and the spelling of the path. -/
theorem customProperty_eq (path : String) : customProperty path = "--" ++ spelling path := by
  rw [← String.toList_inj]
  simp [customProperty, spelling, hyphenate, intercalate_kebabChars]

/-- Two paths share their custom property iff they have the same spelling. -/
theorem customProperty_inj {p q : String} :
    customProperty p = customProperty q ↔ spelling p = spelling q := by
  rw [customProperty_eq, customProperty_eq, String.append_right_inj]

/-- Two paths are referred to by the same text iff they have the same spelling. -/
theorem varReference_inj {p q : String} :
    varReference p = varReference q ↔ spelling p = spelling q := by
  unfold varReference
  rw [String.append_left_inj, String.append_right_inj, customProperty_inj]

theorem customProperty_eq_kebab (path : String) :
    customProperty path = kebab ("--" ++ hyphenate path) := by
  rw [customProperty_eq, spelling, kebab_append]
  rfl

theorem normal_customProperty (path : String) : Normal (customProperty path) := by
  rw [customProperty_eq_kebab]
  exact normal_kebab _

/-! ## The laws together -/

/-- **The laws of names.** Hyphenation goes through a name part by part, a second pass changes
nothing, and the names that it leaves alone are those without a capital. The custom property of a
path is two hyphens and the hyphenation of the path with its dots turned into hyphens, so two paths
share a custom property exactly if they agree after that. -/
theorem name_normalisation_laws (s t p q : String) :
    kebab (s ++ t) = kebab s ++ kebab t ∧
      kebab (kebab s) = kebab s ∧
      (kebab s = s ↔ ∀ c ∈ s.toList, isCapital c = false) ∧
      customProperty p = "--" ++ kebab (hyphenate p) ∧
      (customProperty p = customProperty q ↔ kebab (hyphenate p) = kebab (hyphenate q)) := by
  refine ⟨kebab_append s t, kebab_kebab s, kebab_eq_self_iff, customProperty_eq p, ?_⟩
  exact customProperty_inj

end StyleCompiler
