import Mathlib.Data.List.DropRight
import StyleCompiler.OutputPath

/-!
# The output path lies beside the source

A path is a directory, which is empty or closed by a slash, and a base name without a slash. The
output path keeps the directory; of the base name it keeps a beginning, the stem, and closes it with
`.module.css`. A base name that is closed so already keeps all but its last extension, so no file is
written over by the stylesheet compiled from it.

* `cutLast?_append`, `eq_append_of_cutLast?`: a cut is at the last occurrence.
* `isPrefix_stem`, `stem_append_extension`: what is kept of a base name.
* `stem_append_moduleEnding_ne`: what is kept, closed again, is never the base name.
* `outputPath_append`: the output path of a base name in a directory.
* `outputPath_beside_source`: the output path of any file.
-/

namespace StyleCompiler

/-! ## Cuts and endings -/

theorem cutLast?_of_notMem {sep : Char} {cs : List Char} (h : sep ∉ cs) :
    cutLast? sep cs = none := by
  induction cs with
  | nil => rfl
  | cons c cs ih =>
    rw [List.mem_cons, not_or] at h
    rw [cutLast?, ih h.2]
    exact if_neg (Ne.symm h.1)

/-- A cut is at the last occurrence of the separator. -/
theorem cutLast?_append {sep : Char} (before : List Char) {after : List Char} (h : sep ∉ after) :
    cutLast? sep (before ++ sep :: after) = some (before, after) := by
  induction before with
  | nil =>
    rw [List.nil_append, cutLast?, cutLast?_of_notMem h]
    exact if_pos rfl
  | cons c before ih => rw [List.cons_append, cutLast?, ih]

theorem eq_append_of_cutLast? {sep : Char} {cs before after : List Char}
    (h : cutLast? sep cs = some (before, after)) : cs = before ++ sep :: after := by
  fun_induction cutLast? sep cs generalizing before with
  | case1 => cases h
  | case2 c cs left right hcut ih =>
    obtain ⟨rfl, rfl⟩ := Prod.mk.inj (Option.some.inj h)
    rw [ih hcut, List.cons_append]
  | case3 cs hcut ih =>
    obtain ⟨rfl, rfl⟩ := Prod.mk.inj (Option.some.inj h)
    rfl
  | case4 => cases h

theorem dropEnding_append (text ending : List Char) :
    dropEnding ending (text ++ ending) = text := by
  simp [dropEnding]

theorem dropEnding_of_not_suffix {text ending : List Char} (h : ¬ ending <:+ text) :
    dropEnding ending text = text := by
  rw [dropEnding, if_neg]
  rwa [List.isSuffixOf_iff_suffix]

theorem isPrefix_dropEnding (text ending : List Char) : dropEnding ending text <+: text := by
  unfold dropEnding
  split_ifs
  · exact List.take_prefix _ _
  · exact List.prefix_refl _

/-! ## Stems -/

theorem stem_append_extension (name : List Char) {ext : List Char} (h : '.' ∉ ext) :
    stem (name ++ '.' :: ext) = dropEnding ".css".toList name := by
  rw [stem, cutLast?_append name h]
  rfl

/-- The stem is a beginning of the base name. -/
theorem isPrefix_stem (base : List Char) : stem base <+: base := by
  unfold stem
  refine (isPrefix_dropEnding _ _).trans ?_
  split
  · rename_i name ext hcut
    rw [eq_append_of_cutLast? hcut]
    exact List.prefix_append _ _
  · exact List.prefix_refl _

/-- Of a name that is closed by the module ending, only the last extension goes. -/
theorem stem_append_moduleEnding (name : List Char) :
    stem (name ++ moduleEnding) = name ++ ".module".toList := by
  have hsplit : name ++ moduleEnding = (name ++ ".module".toList) ++ '.' :: "css".toList := by
    rw [List.append_assoc]
    rfl
  rw [hsplit, stem_append_extension _ (by decide), dropEnding_of_not_suffix]
  rintro ⟨before, h⟩
  have hlast := congrArg List.getLast? h
  simp at hlast

/-- **No base name is its own stem, closed again**: a stem with the module ending would be a longer
stem. -/
theorem stem_append_moduleEnding_ne (base : List Char) : stem base ++ moduleEnding ≠ base := by
  intro h
  have hstem : stem base ++ ".module".toList = stem base := by
    rw [← stem_append_moduleEnding, h]
  have hlength := congrArg List.length hstem
  simp at hlength

/-! ## Directories and base names -/

/-- The part of a path up to its last slash, the slash included. -/
def directory (file : String) : String := String.ofList (file.toList.rdropWhile (· ≠ '/'))

/-- The part of a path after its last slash. -/
def baseName (file : String) : String := String.ofList (file.toList.rtakeWhile (· ≠ '/'))

/-- A directory before a base name: nothing, or a text closed by a slash. -/
def IsDirectory (dir : String) : Prop := dir = "" ∨ ∃ parent, dir = parent ++ "/"

/-- An extension has no dot and no slash. -/
def IsExtension (ext : String) : Prop := '.' ∉ ext.toList ∧ '/' ∉ ext.toList

theorem directory_append_baseName (file : String) : directory file ++ baseName file = file := by
  rw [directory, baseName, ← String.ofList_append, List.rdropWhile_append_rtakeWhile,
    String.ofList_toList]

theorem isDirectory_directory (file : String) : IsDirectory (directory file) := by
  unfold directory
  rcases List.eq_nil_or_concat' (file.toList.rdropWhile (· ≠ '/')) with h | ⟨parent, last, h⟩
  · rw [h]
    exact Or.inl rfl
  · have hne : file.toList.rdropWhile (· ≠ '/') ≠ [] := by
      rw [h]
      exact List.concat_ne_nil last parent
    have hlast := List.rdropWhile_last_not (· ≠ '/') file.toList hne
    simp only [h, List.getLast_append_singleton, decide_eq_true_eq, not_not] at hlast
    rw [h, hlast, String.ofList_append]
    exact Or.inr ⟨String.ofList parent, rfl⟩

theorem slash_notMem_baseName (file : String) : '/' ∉ (baseName file).toList := by
  rw [baseName, String.toList_ofList]
  intro h
  simpa using List.mem_rtakeWhile_imp h

/-- The output path of a base name in a directory: the directory stays, and the stem is closed by
the module ending. -/
theorem outputPath_append {dir base : String} (hdir : IsDirectory dir) (hbase : '/' ∉ base.toList) :
    outputPath (dir ++ base) = dir ++ String.ofList (stem base.toList) ++ ".module.css" := by
  rw [← String.toList_inj]
  rcases hdir with rfl | ⟨parent, rfl⟩
  · simp [outputPath, outputChars, cutLast?_of_notMem hbase, moduleEnding]
  · simp [outputPath, outputChars, cutLast?_append parent.toList hbase, moduleEnding]

/-- The output path of a name with an extension: the extension goes, and one `.css` before it. -/
theorem outputPath_extension {dir name ext : String} (hdir : IsDirectory dir)
    (hname : '/' ∉ name.toList) (hext : IsExtension ext) :
    outputPath (dir ++ (name ++ "." ++ ext)) =
      dir ++ String.ofList (dropEnding ".css".toList name.toList) ++ ".module.css" := by
  have hslash : '/' ∉ (name ++ "." ++ ext).toList := by
    simp [hname, hext.2]
  have hstem : stem (name ++ "." ++ ext).toList = dropEnding ".css".toList name.toList := by
    simpa using stem_append_extension name.toList hext.1
  rw [outputPath_append hdir hslash, hstem]

/-- Every path is a directory and a base name, so this is the output path of any file. -/
theorem outputPath_eq (file : String) :
    outputPath file =
      directory file ++ String.ofList (stem (baseName file).toList) ++ ".module.css" := by
  have happend := outputPath_append (isDirectory_directory file) (slash_notMem_baseName file)
  rwa [directory_append_baseName] at happend

/-- Dots of the directory do not count, a base name without a stem gets none, and a path that is
closed by the module ending already gets it once more. -/
example :
    outputPath "a.b/c" = "a.b/c.module.css" ∧ outputPath "a.b/" = "a.b/.module.css" ∧
      outputPath ".css" = ".module.css" ∧ outputPath "c.module.css" = "c.module.module.css" := by
  decide

/-- The output path is not the path of the source. -/
theorem outputPath_ne (file : String) : outputPath file ≠ file := by
  intro h
  have hparts : directory file ++ (String.ofList (stem (baseName file).toList) ++ ".module.css") =
      directory file ++ baseName file := by
    rw [← String.append_assoc, ← outputPath_eq, h, directory_append_baseName]
  have hbase := (String.append_right_inj _).mp hparts
  rw [← String.toList_inj, String.toList_append, String.toList_ofList] at hbase
  exact stem_append_moduleEnding_ne _ hbase

/-- **The output path lies beside the source.** It is the directory of the file, a beginning of its
base name and `.module.css`, and it is never the path of the file itself. In every directory, a name
with an extension and the same name with `.css` before an extension are compiled to one path: the
name, closed by `.module.css`. -/
theorem outputPath_beside_source (file : String) :
    (∃ kept cut, baseName file = kept ++ cut ∧
        outputPath file = directory file ++ kept ++ ".module.css") ∧
      outputPath file ≠ file ∧
      ∀ dir name ext₁ ext₂ : String, IsDirectory dir → '/' ∉ name.toList →
        ¬ ".css".toList <:+ name.toList → IsExtension ext₁ → IsExtension ext₂ →
        outputPath (dir ++ (name ++ "." ++ ext₁)) = dir ++ name ++ ".module.css" ∧
          outputPath (dir ++ (name ++ ".css" ++ "." ++ ext₂)) = dir ++ name ++ ".module.css" := by
  refine ⟨?_, outputPath_ne file, ?_⟩
  · obtain ⟨cut, hcut⟩ := isPrefix_stem (baseName file).toList
    refine ⟨String.ofList (stem (baseName file).toList), String.ofList cut, ?_, outputPath_eq file⟩
    rw [← String.ofList_append, hcut, String.ofList_toList]
  · intro dir name ext₁ ext₂ hdir hname hcss hext₁ hext₂
    constructor
    · rw [outputPath_extension hdir hname hext₁, dropEnding_of_not_suffix hcss,
        String.ofList_toList]
    · have hmarked : '/' ∉ (name ++ ".css").toList := by
        simp [hname]
      rw [outputPath_extension hdir hmarked hext₂, String.toList_append, dropEnding_append,
        String.ofList_toList]

/-- Dots in the directory and in the name are kept. -/
theorem outputPath_beside_source_dark :
    outputPath ("src/v1.0/" ++ ("theme.dark" ++ "." ++ "tsx")) =
        "src/v1.0/" ++ "theme.dark" ++ ".module.css" ∧
      outputPath ("src/v1.0/" ++ ("theme.dark" ++ ".css" ++ "." ++ "ts")) =
        "src/v1.0/" ++ "theme.dark" ++ ".module.css" :=
  (outputPath_beside_source "src/v1.0/theme.dark.css.ts").2.2 _ _ _ _
    (Or.inr ⟨"src/v1.0", by decide⟩) (by decide) (by decide) ⟨by decide, by decide⟩
    ⟨by decide, by decide⟩

end StyleCompiler
