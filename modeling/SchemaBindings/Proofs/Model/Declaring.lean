import SchemaBindings.Model.Build
import SchemaBindings.Proofs.Attempt

namespace SchemaBindings.Model.Build

open Attempt

/-- The models that the declaration of a type can lead to, by the kind of the type. An object type
becomes a union if it is marked as one. -/
inductive Adds (c : Context) (m : Model) (t : SchemaType) : Model → Prop
  | scalar (hk : t.kind = .scalar) :
    Adds c m t { m with
      scalars := m.scalars ++ [⟨t.name, t.description, c.status t.file t.definition.start⟩] }
  | enum {values : List EnumValue} (hk : t.kind = .enum)
    (h : (t.values.zipIdx.mapM fun p ↦ enumValue c t.name p.2 p.1.1 p.1.2) = .ok values) :
    Adds c m t { m with
      enums := m.enums ++
        [⟨t.name, t.description, c.status t.file t.definition.start, values, []⟩] }
  | wrapper {members : List UnionMember} (hk : t.kind = .object)
    (hw : c.wrappers.contains t.name = true)
    (h : (t.fields.mapM fun p ↦ wrapperMember c t.name p.1 p.2) = .ok members) :
    Adds c m t { m with
      unions := m.unions ++
        [⟨t.name, t.description, c.status t.file t.definition.start, .wrapper, members⟩] }
  | object {r : RecordType} (hk : t.kind = .object) (hw : c.wrappers.contains t.name = false)
    (h : record c t (c.status t.file t.definition.start) = .ok r) :
    Adds c m t { m with objects := m.objects ++ [r] }
  | interface {r : RecordType} (hk : t.kind = .interface)
    (h : record c t (c.status t.file t.definition.start) = .ok r) :
    Adds c m t { m with interfaces := m.interfaces ++ [r] }
  | input {fields : List Field} (hk : t.kind = .inputObject)
    (h : (t.inputFields.mapM fun p ↦ inputField c t.name p.1 p.2) = .ok fields) :
    Adds c m t { m with
      inputs := m.inputs ++
        [⟨t.name, t.description, c.status t.file t.definition.start, fields⟩] }
  | union (hk : t.kind = .union) :
    Adds c m t { m with
      unions := m.unions ++
        [⟨t.name, t.description, c.status t.file t.definition.start, .native,
          t.members.map fun n ↦ ⟨n.2.text, n.2.text, none, none, .stable⟩⟩] }

theorem adds_of_addDeclaration {c : Context} {m m' : Model} {t : SchemaType}
    (h : addDeclaration c m t = .ok m') : Adds c m t m' := by
  unfold addDeclaration at h
  cases hk : t.kind with
  | scalar =>
    simp only [hk] at h
    cases h
    exact .scalar hk
  | enum =>
    simp only [hk] at h
    obtain ⟨values, hvalues, h⟩ := (bind_eq_ok_iff _ _ _).mp h
    cases h
    exact .enum hk hvalues
  | object =>
    simp only [hk] at h
    split at h
    next hw =>
      obtain ⟨members, hmembers, h⟩ := (bind_eq_ok_iff _ _ _).mp h
      cases h
      exact .wrapper hk hw hmembers
    next hw =>
      obtain ⟨r, hr, h⟩ := (bind_eq_ok_iff _ _ _).mp h
      cases h
      exact .object hk (Bool.not_eq_true _ ▸ hw) hr
  | interface =>
    simp only [hk] at h
    obtain ⟨r, hr, h⟩ := (bind_eq_ok_iff _ _ _).mp h
    cases h
    exact .interface hk hr
  | inputObject =>
    simp only [hk] at h
    obtain ⟨fields, hfields, h⟩ := (bind_eq_ok_iff _ _ _).mp h
    cases h
    exact .input hk hfields
  | union =>
    simp only [hk] at h
    cases h
    exact .union hk

end SchemaBindings.Model.Build
