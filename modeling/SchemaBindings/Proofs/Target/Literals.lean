import SchemaBindings.Proofs.Json.Scalars
import SchemaBindings.Proofs.Template.Contents
import SchemaBindings.Target.Literal

namespace SchemaBindings

open Model Template

namespace Layout

theorem positionalText_ne_empty (wholePoint : Bool) (d : Decimal) :
    positionalText wholePoint d ≠ "" := by
  unfold positionalText
  split
  · simp
  next hpoint =>
    split
    · intro h
      obtain ⟨⟨hdigits, hzeros⟩, -⟩ := by simpa only [String.append_eq_empty_iff] using h
      have hnil : d.digits = [] := by simpa [digitText] using hdigits
      rw [hnil] at hzeros
      have hzero : (d.point - 0).toNat = 0 := by simpa [zeros] using hzeros
      omega
    · simp

theorem magnitudeText_ne_empty (l : Layout) (m : Nat) (q : Int) : l.magnitudeText m q ≠ "" := by
  unfold magnitudeText
  split_ifs
  · decide
  · decide
  · split
    · exact positionalText_ne_empty _ _
    · dsimp only
      split_ifs
      · exact positionalText_ne_empty _ _
      · simp [exponentText]

theorem text_ne_empty (l : Layout) (x : Double) : l.text x ≠ "" := by
  cases x with
  | finite negative m q => simp [text, l.magnitudeText_ne_empty]
  | infinite negative => cases negative <;> simp [text]
  | notANumber => simp [text]

end Layout

namespace Dialect

theorem caseLiteral_ne_empty (d : Dialect) (type name : String) : d.caseLiteral type name ≠ "" := by
  unfold caseLiteral
  split_ifs <;> simp

theorem objectLiteral?_ne_empty {d : Dialect} {type literal : String}
    {fields : List (String × String)} (h : d.objectLiteral? type fields = some literal) :
    literal ≠ "" := by
  unfold objectLiteral? at h
  split at h
  · cases h
  · obtain rfl := Option.some.inj h
    simp
  · obtain rfl := Option.some.inj h
    split_ifs <;> simp

theorem exists_objectLiteral? {d : Dialect} (h : d.object ≠ .none) (type : String)
    (fields : List (String × String)) : ∃ literal, d.objectLiteral? type fields = some literal := by
  unfold objectLiteral?
  cases hobject : d.object with
  | none => exact absurd hobject h
  | _ => exact ⟨_, rfl⟩

end Dialect

namespace Language

theorem listLiteral_ne_empty (l : Language) (items : List String) :
    l.dialect.listLiteral items ≠ "" := by
  cases l <;> simp [Dialect.listLiteral, dialect, Dialect.kotlin, Dialect.swift, Dialect.dart,
    Dialect.typeScript, Dialect.gdScript]

end Language

theorem toString_int_ne_empty (n : Int) : toString n ≠ "" := by
  obtain ⟨c, cs, hcs, -⟩ := Json.exists_toString_eq_cons n
  rw [Ne, ← String.toList_eq_nil_iff, hcs]
  exact List.cons_ne_nil c cs

namespace Target

variable {t : Target}

theorem literal?_ne_empty {v : Value} {type : TypeExpr} {literal : String}
    (h : t.literal? v type = some literal) : literal ≠ "" := by
  cases v with
  | null =>
    obtain rfl := Option.some.inj h
    unfold dialect
    cases t.language <;> decide
  | int n =>
    rw [literal?] at h
    split at h <;> obtain rfl := Option.some.inj h
    · exact Layout.text_ne_empty _ _
    · exact toString_int_ne_empty n
  | float x =>
    obtain rfl := Option.some.inj h
    exact Layout.text_ne_empty _ _
  | string s =>
    obtain rfl := Option.some.inj h
    exact String.ofList_eq_empty_iff.not.mpr (List.cons_ne_nil _ _)
  | boolean b =>
    obtain rfl := Option.some.inj h
    cases b <;> decide
  | enum name =>
    obtain rfl := Option.some.inj h
    exact Dialect.caseLiteral_ne_empty _ _ _
  | list items =>
    rw [literal?] at h
    obtain ⟨literals, -, rfl⟩ := Option.map_eq_some_iff.mp h
    exact Language.listLiteral_ne_empty _ literals
  | object fields =>
    rw [literal?] at h
    obtain ⟨named, -, h⟩ := Option.bind_eq_some_iff.mp h
    split at h
    · cases h
    · obtain ⟨input, -, h⟩ := Option.bind_eq_some_iff.mp h
      obtain ⟨literals, -, h⟩ := Option.bind_eq_some_iff.mp h
      exact Dialect.objectLiteral?_ne_empty h

/-- All objects of the value that are written have an input type of the model that is not
replaced. -/
inductive HasLiteral (t : Target) : Value → TypeExpr → Prop
  | null (type : TypeExpr) : HasLiteral t .null type
  | int (n : Int) (type : TypeExpr) : HasLiteral t (.int n) type
  | float (x : Double) (type : TypeExpr) : HasLiteral t (.float x) type
  | string (s : String) (type : TypeExpr) : HasLiteral t (.string s) type
  | boolean (b : Bool) (type : TypeExpr) : HasLiteral t (.boolean b) type
  | enum (name : String) (type : TypeExpr) : HasLiteral t (.enum name) type
  | list {items : List Value} {type : TypeExpr}
      (hitems : ∀ item ∈ items, HasLiteral t item (itemType type)) :
      HasLiteral t (.list items) type
  | object {fields : List (String × Value)} {type : TypeExpr} {named : NamedType}
      {input : InputType} (hnamed : type.named? = some named)
      (hkept : t.customInput? named.name = none) (hinput : t.model.input? named.name = some input)
      (hgiven : ∀ given ∈ givenFields input fields, HasLiteral t given.2 given.1.type) :
      HasLiteral t (.object fields) type

theorem lookup_fieldLiterals (fields : List (String × Value)) (name : String) :
    (t.fieldLiterals fields).lookup name = (fields.lookup name).map t.literal? := by
  induction fields with
  | nil => rfl
  | cons p fields ih =>
    obtain ⟨key, value⟩ := p
    rw [fieldLiterals, List.lookup_cons, List.lookup_cons, ih]
    split <;> rfl

theorem givenFields_fieldLiterals (input : InputType) (fields : List (String × Value)) :
    givenFields input (t.fieldLiterals fields) =
      (givenFields input fields).map fun given ↦ (given.1, t.literal? given.2) := by
  rw [givenFields, givenFields, List.map_filterMap]
  simp only [lookup_fieldLiterals, Option.map_map, Function.comp_def]

theorem exists_mem_of_mem_givenFields {α : Type} {input : InputType} {fields : List (String × α)}
    {given : Field × α} (h : given ∈ givenFields input fields) :
    ∃ p ∈ fields, p.2 = given.2 := by
  obtain ⟨field, -, hgiven⟩ := List.mem_filterMap.mp h
  obtain ⟨value, hvalue, rfl⟩ := Option.map_eq_some_iff.mp hgiven
  obtain ⟨before, after, rfl, -⟩ := List.lookup_eq_some_iff.mp hvalue
  exact ⟨(field.name, value), List.mem_append_right before List.mem_cons_self, rfl⟩

theorem exists_writtenFields_iff (input : InputType) (fields : List (String × Value)) :
    (∃ literals, t.writtenFields (givenFields input (t.fieldLiterals fields)) = some literals) ↔
      ∀ given ∈ givenFields input fields,
        ∃ literal, t.literal? given.2 given.1.type = some literal := by
  rw [writtenFields, exists_mapM_eq_some_iff, givenFields_fieldLiterals, List.forall_mem_map]
  refine forall₂_congr fun given _ ↦ ?_
  constructor
  · rintro ⟨written, h⟩
    obtain ⟨literal, hliteral, -⟩ := Option.map_eq_some_iff.mp h
    exact ⟨literal, hliteral⟩
  · rintro ⟨literal, hliteral⟩
    exact ⟨_, Option.map_eq_some_iff.mpr ⟨literal, hliteral, rfl⟩⟩

theorem exists_literal?_object_iff (hobject : t.dialect.object ≠ .none)
    (fields : List (String × Value)) (type : TypeExpr) :
    (∃ literal, t.literal? (.object fields) type = some literal) ↔
      ∃ named, type.named? = some named ∧ t.customInput? named.name = none ∧
        ∃ input, t.model.input? named.name = some input ∧
          ∀ given ∈ givenFields input fields,
            ∃ literal, t.literal? given.2 given.1.type = some literal := by
  simp only [literal?]
  constructor
  · rintro ⟨literal, h⟩
    obtain ⟨named, hnamed, h⟩ := Option.bind_eq_some_iff.mp h
    split at h
    · cases h
    next hkept =>
      obtain ⟨input, hinput, h⟩ := Option.bind_eq_some_iff.mp h
      obtain ⟨literals, hliterals, -⟩ := Option.bind_eq_some_iff.mp h
      exact ⟨named, hnamed, by simpa using hkept, input, hinput,
        (exists_writtenFields_iff input fields).mp ⟨literals, hliterals⟩⟩
  · rintro ⟨named, hnamed, hkept, input, hinput, hgiven⟩
    obtain ⟨literals, hliterals⟩ := (exists_writtenFields_iff input fields).mpr hgiven
    obtain ⟨literal, hliteral⟩ := Dialect.exists_objectLiteral? hobject (t.namedType named) literals
    refine ⟨literal, ?_⟩
    rw [hnamed, Option.bind_some, hkept, if_neg (by simp), hinput, Option.bind_some, hliterals,
      Option.bind_some, hliteral]

mutual

theorem exists_literal?_iff (hobject : t.dialect.object ≠ .none) (v : Value) (type : TypeExpr) :
    (∃ literal, t.literal? v type = some literal) ↔ t.HasLiteral v type := by
  match v with
  | .null => exact iff_of_true ⟨_, rfl⟩ (.null type)
  | .int n =>
    refine iff_of_true ?_ (.int n type)
    rw [literal?]
    split <;> exact ⟨_, rfl⟩
  | .float x => exact iff_of_true ⟨_, rfl⟩ (.float x type)
  | .string s => exact iff_of_true ⟨_, rfl⟩ (.string s type)
  | .boolean b => exact iff_of_true ⟨_, rfl⟩ (.boolean b type)
  | .enum name => exact iff_of_true ⟨_, rfl⟩ (.enum name type)
  | .list items =>
    have hitems := exists_literals?_iff hobject items (itemType type)
    rw [literal?]
    constructor
    · rintro ⟨literal, h⟩
      obtain ⟨literals, hliterals, -⟩ := Option.map_eq_some_iff.mp h
      exact .list (hitems.mp ⟨literals, hliterals⟩)
    · rintro (_ | _ | _ | _ | _ | _ | h)
      obtain ⟨literals, hliterals⟩ := hitems.mpr h
      exact ⟨_, Option.map_eq_some_iff.mpr ⟨literals, hliterals, rfl⟩⟩
  | .object fields =>
    have hfields {input : InputType} {given : Field × Value}
        (h : given ∈ givenFields input fields) :
        (∃ literal, t.literal? given.2 given.1.type = some literal) ↔
          t.HasLiteral given.2 given.1.type := by
      obtain ⟨p, hp, hvalue⟩ := exists_mem_of_mem_givenFields h
      rw [← hvalue]
      exact exists_fieldLiteral_iff hobject fields p hp _
    rw [exists_literal?_object_iff hobject]
    constructor
    · rintro ⟨named, hnamed, hkept, input, hinput, hgiven⟩
      exact .object hnamed hkept hinput fun given h ↦ (hfields h).mp (hgiven given h)
    · rintro (_ | _ | _ | _ | _ | _ | _ | ⟨hnamed, hkept, hinput, hgiven⟩)
      exact ⟨_, hnamed, hkept, _, hinput, fun given h ↦ (hfields h).mpr (hgiven given h)⟩

theorem exists_literals?_iff (hobject : t.dialect.object ≠ .none) (items : List Value)
    (type : TypeExpr) :
    (∃ literals, t.literals? items type = some literals) ↔
      ∀ item ∈ items, t.HasLiteral item type := by
  match items with
  | [] => exact iff_of_true ⟨[], rfl⟩ nofun
  | item :: items =>
    rw [List.forall_mem_cons, ← exists_literal?_iff hobject item type,
      ← exists_literals?_iff hobject items type, literals?]
    constructor
    · rintro ⟨literals, h⟩
      obtain ⟨literal, hliteral, h⟩ := Option.bind_eq_some_iff.mp h
      obtain ⟨others, hothers, -⟩ := Option.map_eq_some_iff.mp h
      exact ⟨⟨literal, hliteral⟩, others, hothers⟩
    · rintro ⟨⟨literal, hliteral⟩, others, hothers⟩
      exact ⟨literal :: others, by rw [hliteral, Option.bind_some, hothers]; rfl⟩

theorem exists_fieldLiteral_iff (hobject : t.dialect.object ≠ .none)
    (fields : List (String × Value)) :
    ∀ p ∈ fields, ∀ type : TypeExpr,
      (∃ literal, t.literal? p.2 type = some literal) ↔ t.HasLiteral p.2 type := by
  match fields with
  | [] => exact nofun
  | (name, v) :: fields =>
    exact List.forall_mem_cons.mpr
      ⟨exists_literal?_iff hobject v, exists_fieldLiteral_iff hobject fields⟩

end

end Target

end SchemaBindings
