import SchemaBindings.Proofs.Model.Levels
import SchemaBindings.Proofs.Target.Identifiers
import SchemaBindings.Target.TypeReference

namespace SchemaBindings

open Model Sdl TypeExpr

namespace Language

/-- The character that tells a list in the text of a type, and the one that tells null. -/
def levelSigns : Language → Char × Char
  | kotlin | dart => ('>', '?')
  | swift | gdScript => (']', '?')
  | typeScript => ('[', '|')

variable (l : Language)

/-- How often null is told on each level, as it is known behind one more character. A list is a new
level around those inside of it; null is told behind the type that admits it. -/
def readSign (counts : List Nat) (c : Char) : List Nat :=
  if c = l.levelSigns.1 then 0 :: counts
  else if c = l.levelSigns.2 then counts.modifyHead (· + 1)
  else counts

def readSigns (text : String) : List Nat :=
  text.toList.foldl l.readSign [0]

def readLevels (text : String) : List Bool :=
  (l.readSigns text).map (· == 0)

def IsSignless (text : String) : Prop :=
  ∀ c ∈ text.toList, c ≠ l.levelSigns.1 ∧ c ≠ l.levelSigns.2

variable {l}

theorem isSignless_of_isValid {free : Bool} {identifier : String}
    (h : l.IsValid free identifier) : l.IsSignless identifier := by
  have hsigns (l : Language) :
      ∀ sign ∈ [l.levelSigns.1, l.levelSigns.2], ¬(sign = '`' ∨ isNameChar sign) := by
    refine List.forall_mem_cons.mpr ⟨?_, List.forall_mem_singleton.mpr ?_⟩
    all_goals cases l <;> decide
  intro c hc
  have hchar : c = '`' ∨ isNameChar c := by
    rcases h with ⟨-, name, hname, rfl⟩ | ⟨hname, -⟩
    · have hmem : c = '`' ∨ c ∈ name.toList := by simpa [or_comm, or_assoc] using hc
      exact hmem.imp_right (hname.chars c)
    · exact .inr (hname.chars c hc)
  constructor
  · intro heq
    exact hsigns l c (by simp [heq]) hchar
  · intro heq
    exact hsigns l c (by simp [heq]) hchar

theorem readSigns_of_isSignless {text : String} (h : l.IsSignless text) :
    l.readSigns text = [0] := by
  refine List.foldlRecOn text.toList l.readSign (motive := fun counts ↦ counts = [0]) rfl ?_
  intro counts hcounts c hc
  rw [readSign, if_neg (h c hc).1, if_neg (h c hc).2, hcounts]

theorem readSigns_ne_nil (text : String) : l.readSigns text ≠ [] := by
  refine List.foldlRecOn text.toList l.readSign (motive := (· ≠ [])) (by simp) ?_
  intro counts hcounts c hc
  rw [readSign]
  split_ifs
  · simp
  · cases counts with
    | nil => contradiction
    | cons count counts => simp
  · exact hcounts

theorem readSigns_optional (hl : l ≠ gdScript) (text : String) :
    l.readSigns (l.dialect.optional text) = (l.readSigns text).modifyHead (· + 1) := by
  rw [readSigns, Dialect.optional, String.toList_append, List.foldl_append]
  cases l with
  | gdScript => contradiction
  | _ => rfl

theorem readSigns_listOf (hl : l ≠ gdScript) (required : Bool) (text : String) :
    l.readSigns (l.dialect.listOf required text) = 0 :: l.readSigns text := by
  cases l with
  | gdScript => contradiction
  | typeScript =>
    cases required <;>
      simp [readSigns, dialect, Dialect.typeScript, Dialect.listOf, readSign, levelSigns]
  | _ =>
    simp [readSigns, dialect, Dialect.kotlin, Dialect.swift, Dialect.dart, Dialect.listOf,
      readSign, levelSigns]

end Language

/-- How often null is told on each level of a type over a text in which it is told that often. -/
def countsOver (counts : List Nat) : List Bool → List Nat
  | [] => counts
  | [required] => if required then counts else counts.modifyHead (· + 1)
  | required :: item :: levels => (if required then 0 else 1) :: countsOver counts (item :: levels)

theorem length_countsOver (counts : List Nat) (required : Bool) (levels : List Bool) :
    (countsOver counts (required :: levels)).length = levels.length + counts.length := by
  induction levels generalizing required with
  | nil => cases required <;> simp [countsOver]
  | cons item levels ih =>
    rw [countsOver, List.length_cons, ih, List.length_cons]
    omega

theorem map_countsOver (required : Bool) (levels : List Bool) :
    (countsOver [0] (required :: levels)).map (· == 0) = required :: levels := by
  induction levels generalizing required with
  | nil => cases required <;> rfl
  | cons item levels ih =>
    rw [countsOver, List.map_cons, ih]
    cases required <;> rfl

theorem countsOver_injective {count : Nat} {counts : List Nat} {r r' : Bool}
    {levels levels' : List Bool}
    (h : countsOver (count :: counts) (r :: levels) =
      countsOver (count :: counts) (r' :: levels')) :
    r :: levels = r' :: levels' := by
  have hlength := congrArg List.length h
  rw [length_countsOver, length_countsOver] at hlength
  induction levels generalizing r r' levels' with
  | nil =>
    have hnil : levels' = [] := by
      apply List.length_eq_zero_iff.mp
      simpa using hlength.symm
    subst hnil
    have hsame : r = r' := by cases r <;> cases r' <;> simp [countsOver] at h ⊢
    rw [hsame]
  | cons item levels ih =>
    cases levels' with
    | nil => simp at hlength
    | cons item' levels' =>
      rw [countsOver, countsOver, List.cons.injEq] at h
      have hsame : r = r' := by cases r <;> cases r' <;> simp at h ⊢
      have hrest := ih h.2 (by simpa using hlength)
      rw [hsame, hrest]

namespace Target

variable {t : Target}

def innerText (t : Target) (a : TypeExpr) : String :=
  t.typeText a.base.require

theorem typeText_of_ne (hl : t.language ≠ .gdScript) (a : TypeExpr) :
    t.typeText a = t.markedType a := by
  rw [typeText]
  split
  next h => exact absurd h hl
  next => rfl

theorem readSigns_typeText (hl : t.language ≠ .gdScript) {a : TypeExpr} (ha : a.MarksOnce) :
    t.language.readSigns (t.typeText a) =
      countsOver (t.language.readSigns (t.innerText a)) a.levels := by
  rw [innerText, typeText_of_ne hl, typeText_of_ne hl]
  fun_induction t.markedType a with
  | case1 item ih =>
    rw [dialect, Language.readSigns_listOf hl, ih ha.2, levels, levels, levels_eq_cons item]
    rfl
  | case2 type => rfl
  | case3 name => rfl
  | case4 type => cases ha.1
  | case5 item ih =>
    rw [dialect, Language.readSigns_optional hl, Language.readSigns_listOf hl, ih ha, levels,
      levels_eq_cons item]
    rfl
  | case6 type =>
    rw [dialect, Language.readSigns_optional hl]
    rfl
  | case7 name =>
    rw [dialect, Language.readSigns_optional hl]
    rfl

/-- Where null is marked, types over the same one are told apart by their texts, and which of the
levels of a type are non-null is read back from the text. -/
theorem typeText_eq_iff (hl : t.language ≠ .gdScript) {a b : TypeExpr} (ha : a.MarksOnce)
    (hb : b.MarksOnce) (hbase : a.base = b.base) :
    (t.typeText a = t.typeText b ↔ a = b) ∧
      (t.language.IsSignless (t.innerText a) →
        t.language.readLevels (t.typeText a) = a.levels) := by
  have hsigns := readSigns_typeText hl ha
  refine ⟨⟨fun htext ↦ ?_, congrArg t.typeText⟩, fun hsignless ↦ ?_⟩
  · obtain ⟨count, counts, hcounts⟩ :=
      List.exists_cons_of_ne_nil (Language.readSigns_ne_nil (l := t.language) (t.innerText a))
    have hsame : t.innerText b = t.innerText a := by rw [innerText, innerText, hbase]
    rw [htext, readSigns_typeText hl hb, hsame, hcounts, levels_eq_cons a,
      levels_eq_cons b] at hsigns
    have hlevels := countsOver_injective hsigns
    rw [← levels_eq_cons, ← levels_eq_cons] at hlevels
    exact eq_of_levels_eq ha hb hbase hlevels.symm
  · rw [Language.readLevels, hsigns, Language.readSigns_of_isSignless hsignless, levels_eq_cons,
      map_countsOver]

/-- A list that may be null, of texts that may not, and a list the other way round. -/
theorem typeText_eq_iff_strings :
    typeText ⟨.typeScript, .empty (.signed []), .empty⟩ (.list (.nonNull (.scalar "String"))) =
        "string[] | null" ∧
      Language.typeScript.readLevels "string[] | null" = [false, true] ∧
      typeText ⟨.typeScript, .empty (.signed []), .empty⟩ (.nonNull (.list (.scalar "String"))) ≠
        "string[] | null" := by
  have htext : typeText ⟨.typeScript, .empty (.signed []), .empty⟩
      (.list (.nonNull (.scalar "String"))) = "string[] | null" := by decide +kernel
  have hname : Language.typeScript.IsValid true "string" := .inr ⟨by decide, .inl rfl⟩
  obtain ⟨hiff, hlevels⟩ := typeText_eq_iff (t := ⟨.typeScript, .empty (.signed []), .empty⟩)
    (a := .list (.nonNull (.scalar "String"))) (b := .nonNull (.list (.scalar "String")))
    (by decide) ⟨rfl, trivial⟩ ⟨rfl, trivial⟩ rfl
  rw [htext] at hiff hlevels
  refine ⟨htext, hlevels (Language.isSignless_of_isValid hname), fun hsame ↦ ?_⟩
  exact absurd (hiff.mp hsame.symm) nofun

end Target

end SchemaBindings
