import SchemaBindings.Naming.Style
import SchemaBindings.Sdl.Lexer

namespace SchemaBindings.Naming

open Text Sdl

/-- A letter or an underscore comes first, and only letters, digits and underscores follow. -/
structure IsIdentifier (cs : List Char) : Prop where
  head : cs.head?.any isNameStart = true
  chars : ∀ c ∈ cs, isNameChar c

instance (cs : List Char) : Decidable (IsIdentifier cs) :=
  decidable_of_iff (cs.head?.any isNameStart = true ∧ cs.all isNameChar = true)
    ⟨fun h ↦ ⟨h.1, List.all_eq_true.mp h.2⟩, fun h ↦ ⟨h.head, List.all_eq_true.mpr h.chars⟩⟩

/-- The first character other than an underscore is a letter. -/
def LeadsWithLetter (cs : List Char) : Prop :=
  (cs.find? (· != '_')).any Char.isAlpha = true

instance (cs : List Char) : Decidable (LeadsWithLetter cs) :=
  inferInstanceAs (Decidable (_ = true))

theorem toNat_lt_of_isNameChar {c : Char} (h : isNameChar c) : c.toNat < 128 := by
  have hchar : isNameChar c = ((decide ('A'.val ≤ c.val ∧ c.val ≤ 'Z'.val) ||
      (decide ('a'.val ≤ c.val) && decide (c.val ≤ 'z'.val)) || c.isDigit) || c == '_') := rfl
  have hcode : c.toNat = c.val.toNat := rfl
  simp only [hchar, Char.isDigit, Bool.or_eq_true, Bool.and_eq_true, decide_eq_true_eq,
    UInt32.le_iff_toNat_le, ge_iff_le, Char.reduceVal, UInt32.reduceToNat, beq_iff_eq] at h
  rcases h with ((h | h) | h) | rfl
  · omega
  · omega
  · omega
  · decide

/-- A property of the characters of names, seen on the first 128 characters. -/
theorem of_isNameChar {P : Char → Prop}
    (h : ∀ n < 128, isNameChar (Char.ofNat n) → P (Char.ofNat n)) {c : Char} (hc : isNameChar c) :
    P c := by
  have hcode := h c.toNat (toNat_lt_of_isNameChar hc)
  rw [Char.ofNat_toNat] at hcode
  exact hcode hc

section NameChar

variable {c : Char} (h : isNameChar c)

include h

theorem lowercase_of_isNameChar : lowercase c = [c.toLower] :=
  if_pos (toNat_lt_of_isNameChar h)

theorem uppercase_of_isNameChar : uppercase c = [c.toUpper] :=
  if_pos (toNat_lt_of_isNameChar h)

theorem isNameChar_toLower : isNameChar c.toLower :=
  of_isNameChar (P := fun c ↦ isNameChar c.toLower) (by decide +kernel) h

theorem isNameChar_toUpper : isNameChar c.toUpper :=
  of_isNameChar (P := fun c ↦ isNameChar c.toUpper) (by decide +kernel) h

theorem isAlphanumeric_of_isNameChar : isAlphanumeric c = (c != '_') :=
  of_isNameChar (P := fun c ↦ isAlphanumeric c = (c != '_')) (by decide +kernel) h

theorem isNameStart_toLower (hc : c ≠ '_') : isNameStart c.toLower = c.isAlpha :=
  of_isNameChar (P := fun c ↦ c ≠ '_' → isNameStart c.toLower = c.isAlpha) (by decide +kernel) h hc

theorem isNameStart_toUpper (hc : c ≠ '_') : isNameStart c.toUpper = c.isAlpha :=
  of_isNameChar (P := fun c ↦ c ≠ '_' → isNameStart c.toUpper = c.isAlpha) (by decide +kernel) h hc

end NameChar

theorem flatten_splitAt (p : Char → Bool) (cs : List Char) :
    (splitAt p cs).flatten = cs.filter fun c ↦ !p c := by
  induction cs with
  | nil => rfl
  | cons c cs ih =>
    by_cases hc : p c
    · rw [splitAt, if_pos hc, List.flatten_cons, ih]
      simp [hc]
    · obtain ⟨piece, pieces, hs, hcons⟩ := splitAt_cons_of_neg hc cs
      rw [hs, List.flatten_cons] at ih
      rw [hcons, List.flatten_cons, List.cons_append, ih]
      simp [hc]

theorem flatten_words (cs : List Char) : (words cs).flatten = cs.filter isAlphanumeric := by
  have hpieces (pieces : List (List Char)) :
      (pieces.flatMap (cutHumps .none [])).flatten = pieces.flatten := by
    induction pieces with
    | nil => rfl
    | cons piece pieces ih =>
      rw [List.flatMap_cons, List.flatten_append, ih, List.flatten_cons]
      congr 1
      cases piece with
      | nil => rfl
      | cons c cs => exact flatten_cutHumps (List.cons_ne_nil c cs)
  rw [words, hpieces, flatten_splitAt]
  simp

theorem ne_nil_of_mem_cutHumps {h : Hump} {word cs : List Char} (hword : h ≠ .none → word ≠ []) :
    ∀ w ∈ cutHumps h word cs, w ≠ [] := by
  fun_induction cutHumps h word cs with
  | case1 => exact List.forall_mem_nil _
  | case2 => simp
  | case3 h word c d cs hcut ih =>
    exact List.forall_mem_cons.mpr ⟨by simp, ih (absurd rfl)⟩
  | case4 h word c d cs hlower hcut ih =>
    refine List.forall_mem_cons.mpr ⟨?_, ih (absurd rfl)⟩
    simpa using hword (by rw [hcut.1]; decide)
  | case5 h word c d cs hlower hupper ih => exact ih fun _ ↦ List.cons_ne_nil c word

theorem ne_nil_of_mem_words {cs w : List Char} (h : w ∈ words cs) : w ≠ [] := by
  obtain ⟨piece, -, hw⟩ := List.mem_flatMap.mp h
  exact ne_nil_of_mem_cutHumps (absurd rfl) w hw

theorem lowerWord_eq_map {w : List Char} (h : ∀ c ∈ w, isNameChar c) :
    lowerWord w = w.map Char.toLower := by
  fun_induction lowerWord w with
  | case1 => rfl
  | case2 => exact absurd (h 'Σ' List.mem_cons_self) (by decide)
  | case3 c cs _ ih =>
    obtain ⟨hc, hcs⟩ := List.forall_mem_cons.mp h
    rw [lowercase_of_isNameChar hc, ih hcs]
    rfl

theorem upperWord_eq_map {w : List Char} (h : ∀ c ∈ w, isNameChar c) :
    upperWord w = w.map Char.toUpper := by
  induction w with
  | nil => rfl
  | cons c w ih =>
    obtain ⟨hc, hw⟩ := List.forall_mem_cons.mp h
    have ih : w.flatMap uppercase = w.map Char.toUpper := ih hw
    rw [upperWord, List.flatMap_cons, uppercase_of_isNameChar hc, ih]
    rfl

theorem capitalWord_cons {c : Char} {w : List Char} (h : ∀ d ∈ c :: w, isNameChar d) :
    capitalWord (c :: w) = c.toUpper :: w.map Char.toLower := by
  obtain ⟨hc, hw⟩ := List.forall_mem_cons.mp h
  rw [capitalWord, uppercase_of_isNameChar hc, lowerWord_eq_map hw]
  rfl

theorem isNameChar_of_mem_lowerWord {w : List Char} (h : ∀ c ∈ w, isNameChar c) :
    ∀ c ∈ lowerWord w, isNameChar c := by
  rw [lowerWord_eq_map h]
  exact List.forall_mem_map.mpr fun c hc ↦ isNameChar_toLower (h c hc)

theorem isNameChar_of_mem_upperWord {w : List Char} (h : ∀ c ∈ w, isNameChar c) :
    ∀ c ∈ upperWord w, isNameChar c := by
  rw [upperWord_eq_map h]
  exact List.forall_mem_map.mpr fun c hc ↦ isNameChar_toUpper (h c hc)

theorem isNameChar_of_mem_capitalWord {w : List Char} (h : ∀ c ∈ w, isNameChar c) :
    ∀ c ∈ capitalWord w, isNameChar c := by
  cases w with
  | nil => exact nofun
  | cons c w =>
    obtain ⟨hc, hw⟩ := List.forall_mem_cons.mp h
    rw [capitalWord_cons h]
    refine List.forall_mem_cons.mpr ⟨isNameChar_toUpper hc, ?_⟩
    exact List.forall_mem_map.mpr fun d hd ↦ isNameChar_toLower (hw d hd)

theorem isNameChar_of_mem_intercalate {ws : List (List Char)}
    (h : ∀ w ∈ ws, ∀ c ∈ w, isNameChar c) : ∀ c ∈ ['_'].intercalate ws, isNameChar c := by
  induction ws with
  | nil => exact nofun
  | cons w ws ih =>
    obtain ⟨hw, hws⟩ := List.forall_mem_cons.mp h
    cases ws with
    | nil => simpa using hw
    | cons w' ws =>
      rw [List.intercalate_cons_cons, List.append_assoc]
      exact List.forall_mem_append.mpr ⟨hw, List.forall_mem_cons.mpr ⟨by decide, ih hws⟩⟩

theorem head?_intercalate {sep w : List Char} (hw : w ≠ []) (ws : List (List Char)) :
    (sep.intercalate (w :: ws)).head? = w.head? := by
  cases w with
  | nil => exact absurd rfl hw
  | cons c w => cases ws <;> rfl

section Spell

variable {style : Style} {cs : List Char} (h : ∀ c ∈ cs, isNameChar c)

include h

theorem isNameChar_of_mem_words {w : List Char} (hw : w ∈ words cs) : ∀ c ∈ w, isNameChar c := by
  intro c hc
  have hmem : c ∈ (words cs).flatten := List.mem_flatten.mpr ⟨w, hw, hc⟩
  rw [flatten_words] at hmem
  exact h c (List.mem_filter.mp hmem).1

theorem isNameChar_of_mem_spell : ∀ c ∈ style.spell cs, isNameChar c := by
  have hwords (w : List Char) (hw : w ∈ words cs) := isNameChar_of_mem_words h hw
  have hcapitals {ws : List (List Char)} (hws : ∀ w ∈ ws, ∀ c ∈ w, isNameChar c) :
      ∀ c ∈ ws.flatMap capitalWord, isNameChar c := by
    intro c hc
    obtain ⟨w, hw, hc⟩ := List.mem_flatMap.mp hc
    exact isNameChar_of_mem_capitalWord (hws w hw) c hc
  cases style with
  | preserve => exact h
  | camel =>
    rw [Style.spell]
    cases hws : words cs with
    | nil => exact nofun
    | cons w ws =>
      obtain ⟨hw, hws⟩ := List.forall_mem_cons.mp (hws ▸ hwords)
      exact List.forall_mem_append.mpr ⟨isNameChar_of_mem_lowerWord hw, hcapitals hws⟩
  | pascal => exact hcapitals hwords
  | snake =>
    refine isNameChar_of_mem_intercalate (List.forall_mem_map.mpr fun w hw ↦ ?_)
    exact isNameChar_of_mem_lowerWord (hwords w hw)
  | constant =>
    refine isNameChar_of_mem_intercalate (List.forall_mem_map.mpr fun w hw ↦ ?_)
    exact isNameChar_of_mem_upperWord (hwords w hw)

theorem find?_eq_head?_words : cs.find? (· != '_') = (words cs).flatten.head? := by
  rw [flatten_words, ← List.head?_filter]
  exact congrArg List.head? (List.filter_congr fun c hc ↦
    (isAlphanumeric_of_isNameChar (h c hc)).symm)

theorem head?_spell (hstyle : style ≠ .preserve) :
    (style.spell cs).head?.any isNameStart = (cs.find? (· != '_')).any Char.isAlpha := by
  have hfind := find?_eq_head?_words h
  have hwords (w : List Char) (hw : w ∈ words cs) := isNameChar_of_mem_words h hw
  cases hws : words cs with
  | nil =>
    rw [hfind, hws]
    cases style <;> simp_all [Style.spell]
  | cons w ws =>
    obtain ⟨c, w, rfl⟩ := List.exists_cons_of_ne_nil
      (ne_nil_of_mem_words (hws ▸ List.mem_cons_self : w ∈ words cs))
    have hw := hwords _ (hws ▸ List.mem_cons_self)
    have hc := hw c List.mem_cons_self
    rw [hws] at hfind
    have hne : c ≠ '_' := by simpa using List.find?_some hfind
    have hlower := isNameStart_toLower hc hne
    have hupper := isNameStart_toUpper hc hne
    rw [hfind]
    cases style with
    | preserve => exact absurd rfl hstyle
    | camel => simp [Style.spell, hws, lowerWord_eq_map hw, hlower]
    | pascal => simp [Style.spell, hws, capitalWord_cons hw, hupper]
    | snake =>
      rw [Style.spell, hws, List.map_cons, lowerWord_eq_map hw, head?_intercalate (by simp)]
      simpa using hlower
    | constant =>
      rw [Style.spell, hws, List.map_cons, upperWord_eq_map hw, head?_intercalate (by simp)]
      simpa using hupper

end Spell

/-- A name stays an identifier if it is kept, or if a letter follows its leading underscores. -/
theorem isIdentifier_spell_iff {cs : List Char} (h : IsIdentifier cs) (style : Style) :
    IsIdentifier (style.spell cs) ↔ style = .preserve ∨ LeadsWithLetter cs := by
  by_cases hstyle : style = .preserve
  · subst hstyle
    exact ⟨fun _ ↦ .inl rfl, fun _ ↦ h⟩
  · have hhead := head?_spell h.chars hstyle
    constructor
    · exact fun hspell ↦ .inr (hhead.symm.trans hspell.head)
    · rintro (hpreserve | hleads)
      · exact absurd hpreserve hstyle
      · exact ⟨hhead.trans hleads, isNameChar_of_mem_spell h.chars⟩

end SchemaBindings.Naming
