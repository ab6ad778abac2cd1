import SchemaBindings.Proofs.Model.Stability

namespace SchemaBindings.Model

/-- The value, of a declared type, holds a value of an enum at a place that has that enum as its
type. -/
inductive Mentions (m : Model) (enum value : String) : NamedType → Value → Prop
  | enum : Mentions m enum value ⟨enum, .enum⟩ (.enum value)
  | item {r : NamedType} {x : Value} {items : List Value} (hx : x ∈ items)
      (h : Mentions m enum value r x) : Mentions m enum value r (.list items)
  | field {i : InputType} {f : Field} {r : NamedType} {x : Value} {fields : List (String × Value)}
      (hi : i ∈ m.inputs) (hf : f ∈ i.fields) (hr : f.type.named? = some r)
      (hx : (f.name, x) ∈ fields) (h : Mentions m enum value r x) :
      Mentions m enum value ⟨i.name, .input⟩ (.object fields)

def Argument.defaults (a : Argument) : List (TypeExpr × Value) :=
  a.defaultValue.toList.map (a.type, ·)

def Field.defaults (f : Field) : List (TypeExpr × Value) :=
  f.defaultValue.toList.map (f.type, ·) ++ f.arguments.flatMap Argument.defaults

def OperationField.defaults (f : OperationField) : List (TypeExpr × Value) :=
  f.arguments.flatMap Argument.defaults

def defaults (m : Model) : List (TypeExpr × Value) :=
  (m.records.flatMap (·.fields)).flatMap Field.defaults ++
    (m.inputs.flatMap (·.fields)).flatMap Field.defaults ++
    (m.operations.flatMap (·.fields)).flatMap OperationField.defaults

def fieldLists (m : Model) : List ((Status × String) × List Field) :=
  m.records.map (fun r ↦ ((r.status, r.name), r.fields)) ++
    m.inputs.map (fun i ↦ ((i.status, i.name), i.fields))

variable (m : Model)

def HasField (type field : String) : Prop :=
  ∃ p ∈ m.fieldLists, p.1.2 = type ∧ ∃ f ∈ p.2, f.name = field

def HasValue (enum value : String) : Prop :=
  ∃ e ∈ m.enums, e.name = enum ∧ ∃ v ∈ e.values, v.name = value

/-- Every row of defaults names a field, and every enum value in a default is one of its enum. -/
structure DefaultsResolve : Prop where
  rows : ∀ row ∈ m.platformDefaults, m.HasField row.typeName row.fieldName
  values : ∀ d ∈ m.defaults, ∀ r enum value, d.1.named? = some r →
    m.Mentions enum value r d.2 → m.HasValue enum value

def KeepsField (type field : String) : Prop :=
  ∃ p ∈ m.fieldLists, p.1 = (.stable, type) ∧
    ∃ f ∈ p.2, f.name = field ∧ ¬ m.Excludes f.status (f.types.map (·.name))

/-- The enum has a value of the name that is not future, whatever the status of the enum. -/
def KeepsValue (enum value : String) : Prop :=
  ∃ e ∈ m.enums, e.name = enum ∧ ∃ v ∈ e.values, v.name = value ∧ v.status = .stable

section Stable

variable {m}

theorem mem_fieldLists_stable_iff (p' : (Status × String) × List Field) :
    p' ∈ m.stable.fieldLists ↔
      ∃ p ∈ m.fieldLists, p.1.1 = .stable ∧ (p.1, p.2.filter (keepsField m.futureTypes)) = p' := by
  simp only [fieldLists, List.mem_append, List.mem_map, mem_records_stable_iff,
    mem_inputs_stable_iff]
  constructor
  · rintro (⟨r', ⟨r, hr, hs, rfl⟩, rfl⟩ | ⟨i', ⟨i, hi, hs, rfl⟩, rfl⟩)
    · exact ⟨_, Or.inl ⟨r, hr, rfl⟩, hs, rfl⟩
    · exact ⟨_, Or.inr ⟨i, hi, rfl⟩, hs, rfl⟩
  · rintro ⟨p, ⟨r, hr, rfl⟩ | ⟨i, hi, rfl⟩, hs, rfl⟩
    · exact Or.inl ⟨_, ⟨r, hr, hs, rfl⟩, rfl⟩
    · exact Or.inr ⟨_, ⟨i, hi, hs, rfl⟩, rfl⟩

theorem hasField_stable_iff (type field : String) :
    m.stable.HasField type field ↔ m.KeepsField type field := by
  simp only [HasField, KeepsField, mem_fieldLists_stable_iff]
  constructor
  · intro h
    obtain ⟨_, ⟨⟨⟨status, name⟩, fields⟩, hp, rfl, rfl⟩, rfl, f, hf, hname⟩ := h
    obtain ⟨hmem, hkeep⟩ := List.mem_filter.mp hf
    exact ⟨_, hp, rfl, f, hmem, hname, (keepsField_iff f).mp hkeep⟩
  · intro h
    obtain ⟨⟨⟨status, name⟩, fields⟩, hp, hs, f, hmem, hname, hkeep⟩ := h
    cases hs
    exact ⟨_, ⟨_, hp, rfl, rfl⟩, rfl, f, List.mem_filter.mpr ⟨hmem, (keepsField_iff f).mpr hkeep⟩,
      hname⟩

theorem keepsValue_of_hasValue_stable {enum value : String} (h : m.stable.HasValue enum value) :
    m.KeepsValue enum value := by
  obtain ⟨e', he', rfl, v, hv, rfl⟩ := h
  obtain ⟨e, he, -, rfl⟩ := (mem_enums_stable_iff e').mp he'
  obtain ⟨hmem, hstatus⟩ := List.mem_filter.mp hv
  rw [Bool.not_eq_true', Status.isFuture_eq_false_iff] at hstatus
  exact ⟨e, he, rfl, v, hmem, rfl, hstatus⟩

theorem hasValue_stable_of_keepsValue {enum value : String} (hfuture : ¬ m.IsFuture enum)
    (h : m.KeepsValue enum value) : m.stable.HasValue enum value := by
  obtain ⟨e, he, rfl, v, hv, rfl, hstatus⟩ := h
  have hstable : e.status = .stable := by
    cases hs : e.status with
    | stable => rfl
    | future =>
      refine absurd ?_ hfuture
      simp only [IsFuture, declarations, List.mem_append, List.mem_map]
      exact Or.inl (Or.inl (Or.inl (Or.inl (Or.inr ⟨e, he, by rw [hs]⟩))))
  refine ⟨_, (mem_enums_stable_iff _).mpr ⟨e, he, hstable, rfl⟩, rfl, v, ?_, rfl⟩
  refine List.mem_filter.mpr ⟨hv, ?_⟩
  rw [hstatus]
  rfl

theorem mentions_enum_iff {r : NamedType} {enum value name : String} :
    m.Mentions enum value r (.enum name) ↔ r = ⟨enum, .enum⟩ ∧ name = value := by
  constructor
  · intro h
    cases h
    exact ⟨rfl, rfl⟩
  · rintro ⟨rfl, rfl⟩
    exact .enum

theorem name_of_named? {t : TypeExpr} {r : NamedType} (h : t.named? = some r) :
    t.name = r.name := by
  induction t with
  | scalar name => cases h
  | named type =>
    cases h
    rfl
  | list element ih => exact ih h
  | nonNull inner ih => exact ih h

/-- An enum that a default of the stable part mentions is not future, since no type on the way to
the place of its value is. -/
theorem not_isFuture_of_mentions {r : NamedType} {x : Value} {enum value : String}
    (h : m.stable.Mentions enum value r x) (hr : ¬ m.IsFuture r.name) : ¬ m.IsFuture enum := by
  induction h with
  | enum => exact hr
  | item hx h ih => exact ih hr
  | @field i f r x fields hi hf hnamed hx h ih =>
    apply ih
    rw [← name_of_named? hnamed]
    apply not_isFuture_of_not_excludes (not_excludes_of_mem_inputs hi f hf)
    exact List.mem_map.mpr ⟨f.type, by simp [Field.types], rfl⟩

theorem exists_argument_of_mem_defaults {arguments : List Argument} {d : TypeExpr × Value}
    (h : d ∈ arguments.flatMap Argument.defaults) : d.1 ∈ arguments.map (·.type) := by
  obtain ⟨a, ha, hd⟩ := List.mem_flatMap.mp h
  obtain ⟨x, -, rfl⟩ := List.mem_map.mp hd
  exact List.mem_map.mpr ⟨a, ha, rfl⟩

theorem mem_types_of_mem_defaults {d : TypeExpr × Value} (h : d ∈ m.defaults) : d.1 ∈ m.types := by
  have hfield {f : Field} (hd : d ∈ f.defaults) : d.1 ∈ f.types := by
    rcases List.mem_append.mp hd with hd | hd
    · obtain ⟨x, -, rfl⟩ := List.mem_map.mp hd
      exact List.mem_cons_self
    · exact List.mem_cons_of_mem _ (exists_argument_of_mem_defaults hd)
  have hoperation {f : OperationField} (hd : d ∈ f.defaults) : d.1 ∈ f.types :=
    List.mem_cons_of_mem _ (exists_argument_of_mem_defaults hd)
  simp only [defaults, List.mem_append] at h
  simp only [types, List.mem_append]
  rcases h with (h | h) | h
  · obtain ⟨f, hf, hd⟩ := List.mem_flatMap.mp h
    exact Or.inl (Or.inl (List.mem_flatMap.mpr ⟨f, hf, hfield hd⟩))
  · obtain ⟨f, hf, hd⟩ := List.mem_flatMap.mp h
    exact Or.inl (Or.inr (List.mem_flatMap.mpr ⟨f, hf, hfield hd⟩))
  · obtain ⟨f, hf, hd⟩ := List.mem_flatMap.mp h
    exact Or.inr (List.mem_flatMap.mpr ⟨f, hf, hoperation hd⟩)

end Stable

/-- The defaults of the stable part resolve exactly if every row is about a field that stays and no
default that stays mentions an enum value that goes. -/
theorem defaultsResolve_stable_iff :
    m.stable.DefaultsResolve ↔
      (∀ row ∈ m.platformDefaults, m.KeepsField row.typeName row.fieldName) ∧
        ∀ d ∈ m.stable.defaults, ∀ r enum value, d.1.named? = some r →
          m.stable.Mentions enum value r d.2 → m.KeepsValue enum value := by
  have hvalue {d : TypeExpr × Value} {r : NamedType} {enum value : String}
      (hd : d ∈ m.stable.defaults) (hr : d.1.named? = some r)
      (h : m.stable.Mentions enum value r d.2) :
      m.stable.HasValue enum value ↔ m.KeepsValue enum value := by
    have htype := m.not_isFuture_of_mem_types d.1 (mem_types_of_mem_defaults hd)
    rw [name_of_named? hr] at htype
    have henum := not_isFuture_of_mentions h htype
    exact ⟨keepsValue_of_hasValue_stable, hasValue_stable_of_keepsValue henum⟩
  constructor
  · intro h
    refine ⟨fun row hrow ↦ (hasField_stable_iff _ _).mp (h.rows row hrow), ?_⟩
    intro d hd r enum value hr hmentions
    exact (hvalue hd hr hmentions).mp (h.values d hd r enum value hr hmentions)
  · intro h
    obtain ⟨hrows, hvalues⟩ := h
    refine ⟨fun row hrow ↦ (hasField_stable_iff _ _).mpr (hrows row hrow), ?_⟩
    intro d hd r enum value hr hmentions
    exact (hvalue hd hr hmentions).mpr (hvalues d hd r enum value hr hmentions)

def seasonModel : Model where
  metadata := .signed ["seasons.graphql"]
  scalars := []
  enums := [⟨"Season", none, .stable,
    [⟨"SUMMER", 0, none, none, .stable⟩, ⟨"WINTER", 1, none, none, .future⟩], []⟩]
  interfaces := []
  objects := []
  inputs := [⟨"Filter", none, .stable,
      [⟨"season", .named ⟨"Season", .enum⟩, [], some (.enum "WINTER"), none, none, .stable⟩]⟩,
    ⟨"Limits", none, .future, [⟨"max", .scalar "Int", [], none, none, none, .stable⟩]⟩]
  unions := []
  operations := []
  platformDefaults := [⟨"Limits", "max", [("kotlin", "100")]⟩]

theorem defaults_seasonModel : seasonModel.defaults =
    [(.named ⟨"Season", .enum⟩, .enum "WINTER")] := rfl

theorem defaults_stable_seasonModel : seasonModel.stable.defaults =
    [(.named ⟨"Season", .enum⟩, .enum "WINTER")] := rfl

/-- Both defaults resolve in the model, and neither does in its stable part. -/
theorem exists_dangling_defaults :
    seasonModel.DefaultsResolve ∧
      (∃ row ∈ seasonModel.stable.platformDefaults,
        ¬ seasonModel.stable.HasField row.typeName row.fieldName) ∧
      ∃ d ∈ seasonModel.stable.defaults, ∃ r enum value, d.1.named? = some r ∧
        seasonModel.stable.Mentions enum value r d.2 ∧
          ¬ seasonModel.stable.HasValue enum value := by
  refine ⟨⟨?_, ?_⟩, ?_, ?_⟩
  · unfold HasField
    decide +kernel
  · intro d hd r enum value hr hmentions
    rw [defaults_seasonModel, List.mem_singleton] at hd
    subst hd
    cases hr
    obtain ⟨htype, rfl⟩ := mentions_enum_iff.mp hmentions
    cases htype
    unfold HasValue
    decide +kernel
  · unfold HasField
    decide +kernel
  · refine ⟨_, by rw [defaults_stable_seasonModel]; exact List.mem_singleton_self _, _, _, _, rfl,
      .enum, ?_⟩
    unfold HasValue
    decide +kernel

end SchemaBindings.Model
