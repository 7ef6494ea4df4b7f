import Mathlib.Data.List.Forall2
import StyleCompiler.Json.Declaration
import StyleCompiler.Proofs.OrderedMap

/-!
# Declarations read back from their JSON text

Every reader gets back what its writer wrote, and leaves what follows. The relation `Reads` says
this of one text; it is proved for strings, then for objects from what holds of their members, and
so for maps, maps of maps and declarations.

* `readChars_escape`: the escape of a character reads back as the character.
* `reads_object`: the members of an object read back if the text of each does.
* `reads_map`: a map reads back in its order if its values do.
* `reads_declaration`: a declaration reads back, whatever follows it.
* `declaration_reads_back`: the JSON text of a declaration describes the declaration.
-/

namespace StyleCompiler

namespace Json

/-! ## Characters -/

theorem hexValue?_hexDigit : ∀ n < 16, hexValue? (hexDigit n) = some n := by decide

/-- The digits with which a control character is written give its code. -/
theorem hexQuad?_control {n : Nat} (h : n < 32) :
    hexQuad? '0' '0' (hexDigit (n / 16)) (hexDigit (n % 16)) = some n := by
  have hzero : hexValue? '0' = some 0 := by decide
  have hhigh := hexValue?_hexDigit (n / 16) (by omega)
  have hlow := hexValue?_hexDigit (n % 16) (by omega)
  simp only [hexQuad?, hzero, hhigh, hlow, Option.pure_def, Option.bind_eq_bind, Option.bind_some]
  rw [Option.some.injEq]
  omega

/-- An escape of one letter reads as the character it stands for. -/
theorem readChars_letter {letter c : Char} (hletter : letter ≠ 'u') (h : unescape? letter = some c)
    (cs : List Char) :
    readChars ('\\' :: letter :: cs) =
      (readChars cs).map fun (text, rest) => (c :: text, rest) := by
  simp [readChars, hletter, h]

/-- An escaped unit below the surrogates is a character of its own. -/
theorem readChars_unit {a b c d : Char} {unit : Nat} (h : hexQuad? a b c d = some unit)
    (hunit : unit < 0xD800) (cs : List Char) :
    readChars ('\\' :: 'u' :: a :: b :: c :: d :: cs) =
      (readChars cs).map fun (text, rest) => (Char.ofNat unit :: text, rest) := by
  have hhigh : Utf16.isHigh unit = false := by
    simp only [Utf16.isHigh, Bool.and_eq_false_iff, decide_eq_false_iff_not]
    omega
  have hlow : Utf16.isLow unit = false := by
    simp only [Utf16.isLow, Bool.and_eq_false_iff, decide_eq_false_iff_not]
    omega
  simp [readChars, h, hhigh, hlow]

/-- A character that needs no escape stands for itself. -/
theorem readChars_plain {c : Char} (hquote : c ≠ '"') (hslash : c ≠ '\\') (hcode : ¬ c.toNat < 32)
    (cs : List Char) :
    readChars (c :: cs) = (readChars cs).map fun (text, rest) => (c :: text, rest) := by
  rw [readChars.eq_def]
  split
  · rename_i heq
    cases heq
  · rename_i heq
    exact absurd (List.cons.inj heq).1 hquote
  · rename_i heq
    exact absurd (List.cons.inj heq).1 hslash
  · rename_i heq
    exact absurd (List.cons.inj heq).1 hslash
  · rename_i heq
    obtain ⟨rfl, rfl⟩ := List.cons.inj heq
    rw [if_neg hcode]

theorem readChars_escapeControl {c : Char} (hcode : c.toNat < 32) (cs : List Char) :
    readChars (escapeControl c ++ cs) =
      (readChars cs).map fun (text, rest) => (c :: text, rest) := by
  unfold escapeControl
  split_ifs with hb ht hn hf hr
  · subst hb
    exact readChars_letter (by decide) rfl cs
  · subst ht
    exact readChars_letter (by decide) rfl cs
  · subst hn
    exact readChars_letter (by decide) rfl cs
  · subst hf
    exact readChars_letter (by decide) rfl cs
  · subst hr
    exact readChars_letter (by decide) rfl cs
  · have hunit := readChars_unit (hexQuad?_control hcode) (by omega) cs
    rw [Char.ofNat_toNat] at hunit
    exact hunit

/-- **The escape of a character reads back as the character.** -/
theorem readChars_escape (c : Char) (cs : List Char) :
    readChars (escape c ++ cs) = (readChars cs).map fun (text, rest) => (c :: text, rest) := by
  unfold escape
  split_ifs with hquote hslash hcode
  · subst hquote
    exact readChars_letter (by decide) rfl cs
  · subst hslash
    exact readChars_letter (by decide) rfl cs
  · exact readChars_escapeControl hcode cs
  · exact readChars_plain hquote hslash hcode cs

theorem readChars_escaped (text rest : List Char) :
    readChars (text.flatMap escape ++ '"' :: rest) = some (text, rest) := by
  induction text with
  | nil => simp [readChars]
  | cons c text ih =>
    rw [List.flatMap_cons, List.append_assoc, readChars_escape, ih]
    rfl

/-! ## Texts that read back -/

/-- The reader gets the value off the text, whatever follows it. -/
def Reads {α : Type} (reader : Reader α) (text : List Char) (value : α) : Prop :=
  ∀ rest, reader (text ++ rest) = some (value, rest)

theorem skipBlanks_cons {c : Char} (h : isBlank c = false) (cs : List Char) :
    skipBlanks (c :: cs) = c :: cs := by
  simp [skipBlanks, h]

theorem expect_cons {c : Char} (h : isBlank c = false) (cs : List Char) :
    expect c (c :: cs) = some cs := by
  simp [expect, skipBlanks_cons h]

/-- **A quoted string reads back.** -/
theorem reads_quote (s : String) : Reads readString (quote s) s := by
  intro rest
  have hopen : expect '"' (quote s ++ rest) = some (s.toList.flatMap escape ++ '"' :: rest) := by
    simp [quote, expect_cons (c := '"') rfl]
  simp [readString, hopen, readChars_escaped]

/-- A whole text reads back. -/
theorem Reads.readAll? {α : Type} {reader : Reader α} {text : List Char} {value : α}
    (h : Reads reader text value) : readAll? reader (String.ofList text) = some value := by
  have hread := h []
  rw [List.append_nil] at hread
  have hend : skipBlanks [] = [] := rfl
  simp only [Json.readAll?, String.toList_ofList, hread, Option.bind_eq_bind, Option.bind_some]
  rw [if_pos hend]

/-! ## Objects -/

/-- The text of a member of an object. -/
def memberText (member : String × List Char) : List Char := quote member.1 ++ ':' :: member.2

theorem object_append (members : List (String × List Char)) (rest : List Char) :
    object members ++ rest =
      '{' :: (List.intercalate [','] (members.map memberText) ++ '}' :: rest) := by
  rw [object, enclose, List.cons_append, List.append_assoc]
  rfl

section Members

variable {α : Type} {value : String → Reader α} {member : String × List Char} {v : α}

theorem readMembers_comma (hv : Reads (value member.1) member.2 v) (fuel : Nat) (cs : List Char) :
    readMembers readString value (fuel + 1) (memberText member ++ ',' :: cs) =
      (readMembers readString value fuel cs).map fun (vs, rest) => (v :: vs, rest) := by
  simp only [readMembers, memberText, List.append_assoc, List.cons_append, reads_quote member.1 _,
    Option.bind_eq_bind, Option.bind_some, expect_cons (c := ':') rfl, hv _,
    skipBlanks_cons (c := ',') rfl]
  cases readMembers readString value fuel cs <;> rfl

theorem readMembers_brace (hv : Reads (value member.1) member.2 v) (fuel : Nat) (cs : List Char) :
    readMembers readString value (fuel + 1) (memberText member ++ '}' :: cs) = some ([v], cs) := by
  simp only [readMembers, memberText, List.append_assoc, List.cons_append, reads_quote member.1 _,
    Option.bind_eq_bind, Option.bind_some, expect_cons (c := ':') rfl, hv _,
    skipBlanks_cons (c := '}') rfl]
  rfl

variable {members : List (String × List Char)} {values : List α}

/-- Members read back if there is fuel for each of them. -/
theorem readMembers_eq (h : List.Forall₂ (fun m v => Reads (value m.1) m.2 v) members values)
    (hne : members ≠ []) {fuel : Nat} (hfuel : members.length ≤ fuel) (rest : List Char) :
    readMembers readString value fuel
      (List.intercalate [','] (members.map memberText) ++ '}' :: rest) = some (values, rest) := by
  induction h generalizing fuel with
  | nil => exact absurd rfl hne
  | @cons m v members values hv hrest ih =>
    have hpos : fuel ≠ 0 := by
      rw [List.length_cons] at hfuel
      omega
    obtain ⟨fuel, rfl⟩ := Nat.exists_eq_succ_of_ne_zero hpos
    cases hrest with
    | nil =>
      rw [List.map_singleton, List.intercalate_singleton]
      exact readMembers_brace hv fuel rest
    | cons hv' hrest' =>
      have htail := ih (List.cons_ne_nil _ _) (Nat.le_of_succ_le_succ hfuel)
      rw [List.map_cons] at htail
      rw [List.map_cons, List.map_cons, List.intercalate_cons_cons, List.append_assoc,
        List.append_assoc, List.singleton_append, readMembers_comma hv, htail]
      rfl

/-- The text of members is at least as long as there are members. -/
theorem length_le_intercalate (members : List (String × List Char)) :
    members.length ≤ (List.intercalate [','] (members.map memberText)).length := by
  induction members with
  | nil => exact Nat.zero_le _
  | cons m members ih =>
    have hm : 1 ≤ (memberText m).length := by simp [memberText, quote]
    cases members with
    | nil => simpa using hm
    | cons m' members =>
      rw [List.map_cons, List.map_cons, List.intercalate_cons_cons]
      rw [List.map_cons] at ih
      simp only [List.length_append, List.length_cons] at ih ⊢
      omega

/-- **The members of an object read back** if the text of each does. -/
theorem reads_object (h : List.Forall₂ (fun m v => Reads (value m.1) m.2 v) members values)
    (rest : List Char) :
    ∃ cs, object members ++ rest = '{' :: cs ∧
      readObject readString value cs = some (values, rest) := by
  refine ⟨_, object_append members rest, ?_⟩
  cases h with
  | nil => simp [readObject, skipBlanks_cons (c := '}') rfl]
  | @cons m v members values hv hrest =>
    have hquote : ∃ cs, List.intercalate [','] ((m :: members).map memberText) ++ '}' :: rest =
        '"' :: cs := by
      cases members <;> exact ⟨_, rfl⟩
    obtain ⟨cs, hcs⟩ := hquote
    -- the fuel is the length of the text that is left
    have hfuel : (m :: members).length ≤
        (List.intercalate [','] ((m :: members).map memberText) ++ '}' :: rest).length := by
      have hlength := length_le_intercalate (m :: members)
      rw [List.length_append]
      omega
    have hread := readMembers_eq (.cons hv hrest) (List.cons_ne_nil m members) hfuel rest
    rw [hcs] at hread ⊢
    simp only [readObject, skipBlanks_cons (c := '"') rfl]
    exact hread

end Members

/-! ## Declarations -/

/-- **A map reads back in its order** if its values do. -/
theorem reads_map {α : Type} {value : Reader α} {write : α → List Char}
    (h : ∀ a, Reads value (write a) a) (m : OrderedMap α) :
    Reads (readMap value) (object (m.entries.map fun e => (e.1, write e.2))) m := by
  intro rest
  let member (name : String) : Reader (String × α) := fun cs =>
    (value cs).map fun p => ((name, p.1), p.2)
  have hmembers : List.Forall₂ (fun t v => Reads (member t.1) t.2 v)
      (m.entries.map fun e => (e.1, write e.2)) m.entries := by
    rw [List.forall₂_map_left_iff, List.forall₂_same]
    rintro ⟨key, a⟩ - rest
    simp only [member, h a rest, Option.map_some]
  obtain ⟨cs, hcs, hread⟩ := reads_object hmembers rest
  simp only [readMap, hcs, expect_cons (c := '{') rfl, Option.bind_eq_bind, Option.bind_some]
  -- the keys are distinct, so writing the members again changes nothing
  show (readObject readString member cs).bind _ = _
  rw [hread, Option.bind_some, OrderedMap.ofList_entries]
  rfl

theorem reads_rules (rules : RuleSet) : Reads readRules (RuleSet.json rules) rules :=
  reads_map reads_quote rules

theorem reads_groups (groups : Groups) : Reads readGroups (Groups.json groups) groups :=
  reads_map reads_rules groups

theorem reads_kind (kind : Kind) : Reads readKind (quote kind.label) kind := by
  intro rest
  have hopen : skipBlanks (quote kind.label ++ rest) = quote kind.label ++ rest :=
    skipBlanks_cons rfl _
  unfold readKind
  rw [hopen]
  split
  · rename_i heq
    cases heq
  · rw [reads_quote kind.label rest]
    simp

theorem Reads.asMember {α : Type} {reader : Reader α} {text : List Char} {value : α}
    (h : Reads reader text value) (wrap : α → DeclarationMember) :
    Reads (asMember wrap reader) text (wrap value) := by
  intro rest
  rw [Json.asMember, h rest]
  rfl

/-- **A declaration reads back**, whatever follows it. -/
theorem reads_declaration (d : Declaration) : Reads readDeclaration d.json d := by
  intro rest
  have hmembers : List.Forall₂ (fun m v => Reads (readMember m.1) m.2 v)
      [("name", quote d.name), ("kind", quote d.kind.label), ("rules", RuleSet.json d.rules),
        ("selectors", Groups.json d.selectors), ("media", Groups.json d.media)]
      [.name d.name, .kind d.kind, .rules d.rules, .selectors d.selectors, .media d.media] :=
    .cons ((reads_quote d.name).asMember .name) <|
    .cons ((reads_kind d.kind).asMember .kind) <|
    .cons ((reads_rules d.rules).asMember .rules) <|
    .cons ((reads_groups d.selectors).asMember .selectors) <|
    .cons ((reads_groups d.media).asMember .media) .nil
  obtain ⟨cs, hcs, hread⟩ := reads_object hmembers rest
  unfold Declaration.json
  rw [hcs]
  simp only [readDeclaration, skipBlanks_cons (c := '{') rfl, hread]
  rfl

end Json

/-- **The JSON text of a declaration describes the declaration**: its name and kind, and every map
with its entries in order. -/
theorem declaration_reads_back (d : Declaration) : Declaration.ofJson? d.toJson = some d :=
  (Json.reads_declaration d).readAll?

end StyleCompiler
