import SchemaBindings.Proofs.Naming.Identifiers
import SchemaBindings.Target.Dialect
import Mathlib.Data.List.Nodup

namespace SchemaBindings

open Naming Sdl

def IsName (name : String) : Prop :=
  IsIdentifier name.toList

instance (name : String) : Decidable (IsName name) :=
  inferInstanceAs (Decidable (IsIdentifier _))

theorem Naming.EscapeStyle.apply_injective (style : EscapeStyle) :
    Function.Injective style.apply := by
  intro a b h
  cases style <;> simpa [EscapeStyle.apply] using h

namespace Language

variable {l : Language}

theorem isName_of_mem_reserved {word : String} (h : word ∈ l.reserved) : IsName word := by
  have hall (l : Language) : ∀ word ∈ l.reserved, IsName word := by cases l <;> decide +kernel
  exact hall l word h

theorem apply_notMem_reserved {word : String} (h : word ∈ l.reserved) :
    l.dialect.escape.apply word ∉ l.reserved := by
  have hall (l : Language) : ∀ word ∈ l.reserved, l.dialect.escape.apply word ∉ l.reserved := by
    cases l <;> decide +kernel
  exact hall l word h

theorem isName_apply {word : String} (h : word ∈ l.reserved)
    (hquotes : l.dialect.escape ≠ .backticks) : IsName (l.dialect.escape.apply word) := by
  have hall (l : Language) : ∀ word ∈ l.reserved, l.dialect.escape ≠ .backticks →
      IsName (l.dialect.escape.apply word) := by cases l <;> decide +kernel
  exact hall l word h hquotes

/-- A name that is not reserved, or one between backticks where the language has them. Reserved
words are valid where they are `free`. -/
def IsValid (l : Language) (free : Bool) (identifier : String) : Prop :=
  (l.dialect.escape = .backticks ∧ ∃ name, IsName name ∧ identifier = "`" ++ name ++ "`") ∨
    IsName identifier ∧ (free = true ∨ identifier ∉ l.reserved)

theorem isValid_identifier_iff (l : Language) {name : String}
    (hchars : ∀ c ∈ name.toList, isNameChar c) :
    l.IsValid false (l.identifier name) ↔ IsName name := by
  by_cases hreserved : name ∈ l.reserved
  · have hname := isName_of_mem_reserved hreserved
    refine iff_of_true ?_ hname
    rw [identifier, escape, if_pos hreserved]
    by_cases hquotes : l.dialect.escape = .backticks
    · exact .inl ⟨hquotes, name, hname, by rw [hquotes]; rfl⟩
    · exact .inr ⟨isName_apply hreserved hquotes, .inr (apply_notMem_reserved hreserved)⟩
  · rw [identifier, escape, if_neg hreserved]
    constructor
    · rintro (⟨-, quoted, -, rfl⟩ | ⟨hname, -⟩)
      · exact absurd (hchars '`' (by simp)) (by decide)
      · exact hname
    · exact fun hname ↦ .inr ⟨hname, .inr hreserved⟩

theorem isValid_free_iff {identifier : String} (h : l.dialect.freeMembers = true) :
    l.IsValid true identifier ↔ IsName identifier := by
  have hquotes (l : Language) : l.dialect.freeMembers = true → l.dialect.escape ≠ .backticks := by
    cases l <;> decide
  exact ⟨fun hvalid ↦ hvalid.elim (fun hquoted ↦ absurd hquoted.1 (hquotes l h)) (·.1),
    fun hname ↦ .inr ⟨hname, .inl rfl⟩⟩

section Names

variable {name : String} (hname : IsName name)

include hname

theorem isNameChar_of_mem_apply (style : Style) :
    ∀ c ∈ (style.apply name).toList, isNameChar c := by
  rw [Style.apply, String.toList_ofList]
  exact isNameChar_of_mem_spell hname.chars

theorem isName_apply_iff (style : Style) :
    IsName (style.apply name) ↔ style = .preserve ∨ LeadsWithLetter name.toList := by
  rw [IsName, Style.apply, String.toList_ofList]
  exact isIdentifier_spell_iff hname style

theorem isValid_memberName_iff (l : Language) (style : Style) :
    l.IsValid l.dialect.freeMembers (l.memberName style name) ↔
      style = .preserve ∨ LeadsWithLetter name.toList := by
  rw [← isName_apply_iff hname style]
  cases hfree : l.dialect.freeMembers with
  | true =>
    rw [memberName, hfree, if_pos rfl]
    exact isValid_free_iff hfree
  | false =>
    rw [memberName, hfree]
    exact l.isValid_identifier_iff (isNameChar_of_mem_apply hname style)

/-- The name of a type is always valid. That of a field, a case or a variant is so if its style
keeps names, or else if the name of the schema has a letter after its leading underscores. -/
theorem isValid_iff_leadsWithLetter (l : Language) :
    l.IsValid false (l.typeName name) ∧
      (l.IsValid l.dialect.freeMembers (l.fieldName name) ↔
        l.dialect.fieldStyle = .preserve ∨ LeadsWithLetter name.toList) ∧
      (l.IsValid l.dialect.freeMembers (l.caseName name) ↔
        l.dialect.caseStyle = .preserve ∨ LeadsWithLetter name.toList) ∧
      (l.IsValid false (l.variantName name) ↔
        l.dialect.variantStyle = .preserve ∨ LeadsWithLetter name.toList) := by
  refine ⟨(l.isValid_identifier_iff hname.chars).mpr hname,
    isValid_memberName_iff hname l l.dialect.fieldStyle,
    isValid_memberName_iff hname l l.dialect.caseStyle, ?_⟩
  rw [← isName_apply_iff hname]
  exact l.isValid_identifier_iff (isNameChar_of_mem_apply hname l.dialect.variantStyle)

end Names

/-- An underscore before a reserved word is dropped, and the word escaped. -/
theorem isValid_default : IsName "_default" ∧ dart.caseName "_default" = "default_" ∧
    dart.IsValid false (dart.caseName "_default") := by
  have hname : IsName "_default" := by decide
  have hleads : LeadsWithLetter "_default".toList := by decide
  exact ⟨hname, by decide +kernel,
    (isValid_iff_leadsWithLetter hname dart).2.2.1.mpr (.inr hleads)⟩

/-- Nothing is left of a name without letters and digits, and a digit can come first. -/
theorem not_isValid_underscore : IsName "_" ∧ IsName "_1" ∧
    dart.caseName "_" = "" ∧ dart.variantName "_1" = "1" ∧
    ¬dart.IsValid false (dart.caseName "_") ∧ ¬dart.IsValid false (dart.variantName "_1") := by
  have hcase : dart.caseName "_" = "" := by decide +kernel
  have hvariant : dart.variantName "_1" = "1" := by decide +kernel
  have hinvalid {identifier : String} (h : ¬IsName identifier) :
      ¬dart.IsValid false identifier := by
    rintro (⟨hquotes, -⟩ | ⟨hname, -⟩)
    · cases hquotes
    · exact h hname
  refine ⟨by decide, by decide, hcase, hvariant, hcase ▸ hinvalid (by decide),
    hvariant ▸ hinvalid (by decide)⟩

theorem identifier_of_mem {word : String} (h : word ∈ l.reserved) :
    l.identifier word = l.dialect.escape.apply word :=
  if_pos h

theorem identifier_of_notMem {word : String} (h : word ∉ l.reserved) : l.identifier word = word :=
  if_neg h

theorem nodup_map_identifier_iff {words : List String} :
    (words.map l.identifier).Nodup ↔
      words.Nodup ∧ ∀ word ∈ words, word ∈ l.reserved → l.dialect.escape.apply word ∉ words := by
  constructor
  · intro h
    refine ⟨.of_map _ h, fun word hword hreserved hmem ↦ ?_⟩
    have hescaped := apply_notMem_reserved hreserved
    have hsame : l.identifier word = l.identifier (l.dialect.escape.apply word) := by
      rw [identifier_of_mem hreserved, identifier_of_notMem hescaped]
    have heq := List.inj_on_of_nodup_map h hword hmem hsame
    exact hescaped (heq ▸ hreserved)
  · rintro ⟨hnodup, hescaped⟩
    refine hnodup.map_on fun a ha b hb hsame ↦ ?_
    by_cases hra : a ∈ l.reserved <;> by_cases hrb : b ∈ l.reserved
    · rw [identifier_of_mem hra, identifier_of_mem hrb] at hsame
      exact l.dialect.escape.apply_injective hsame
    · rw [identifier_of_mem hra, identifier_of_notMem hrb] at hsame
      exact absurd (hsame ▸ hb) (hescaped a ha hra)
    · rw [identifier_of_notMem hra, identifier_of_mem hrb] at hsame
      exact absurd (hsame ▸ ha) (hescaped b hb hrb)
    · rwa [identifier_of_notMem hra, identifier_of_notMem hrb] at hsame

/-- Members keep apart in a style if neither spelling them nor escaping them makes two of them the
same. -/
structure KeepsApart (l : Language) (style : Style) (names : List String) : Prop where
  spelled : (names.map style.apply).Nodup
  escaped : l.dialect.freeMembers = false → ∀ word ∈ names.map style.apply, word ∈ l.reserved →
    l.dialect.escape.apply word ∉ names.map style.apply

theorem nodup_map_memberName_iff {style : Style} {names : List String} :
    (names.map (l.memberName style)).Nodup ↔ l.KeepsApart style names := by
  cases hfree : l.dialect.freeMembers with
  | true =>
    have hmembers : names.map (l.memberName style) = names.map style.apply :=
      List.map_congr_left fun name _ ↦ by rw [memberName, hfree, if_pos rfl]
    rw [hmembers]
    exact ⟨fun h ↦ ⟨h, fun hfalse ↦ absurd (hfree.symm.trans hfalse) nofun⟩, (·.spelled)⟩
  | false =>
    have hmembers : names.map (l.memberName style) = (names.map style.apply).map l.identifier := by
      rw [List.map_map]
      exact List.map_congr_left fun name _ ↦ by rw [memberName, hfree]; rfl
    rw [hmembers, nodup_map_identifier_iff]
    exact ⟨fun h ↦ ⟨h.1, fun _ ↦ h.2⟩, fun h ↦ ⟨h.spelled, h.escaped hfree⟩⟩

theorem keepsApart_preserve_iff {names : List String} (hnames : ∀ name ∈ names, IsName name)
    (hl : l.dialect.freeMembers = true ∨ l.dialect.escape = .backticks) :
    l.KeepsApart .preserve names ↔ names.Nodup := by
  have hpreserve (name : String) : Style.preserve.apply name = name := String.ofList_toList
  have hmap : names.map Style.preserve.apply = names := List.map_id'' hpreserve names
  constructor
  · intro h
    have hspelled := h.spelled
    rwa [hmap] at hspelled
  · intro h
    refine ⟨by rwa [hmap], fun hfree word _ _ hmem ↦ ?_⟩
    rw [hmap] at hmem
    rcases hl with hl | hl
    · exact absurd (hl.symm.trans hfree) nofun
    · rw [hl] at hmem
      have hquote : isNameStart '`' := by simpa [EscapeStyle.apply] using (hnames _ hmem).head
      exact absurd hquote (by decide)

end Language

end SchemaBindings
