import SchemaBindings.Proofs.Model.Outlines

namespace SchemaBindings

open Model Model.Build Attempt

namespace Model.Build

def Context.Builds (c : Context) (t : SchemaType) (f : Field) : Prop :=
  ∃ p ∈ t.fields, field c t.name p.1 p.2 = .ok f

def Context.BuildsInput (c : Context) (t : SchemaType) (f : Field) : Prop :=
  ∃ p ∈ t.inputFields, inputField c t.name p.1 p.2 = .ok f

/-- The fields of a declaration in a model are those of one of some types, built in order. -/
structure Originates (c : Context) (types : List SchemaType) (m : Model) : Prop where
  records : ∀ r ∈ m.records, ∃ t ∈ types, t.name = r.name ∧ fields c t = .ok r.fields
  inputs : ∀ i ∈ m.inputs, ∃ t ∈ types, t.name = i.name ∧
    (t.inputFields.mapM fun p ↦ inputField c t.name p.1 p.2) = .ok i.fields

variable {c : Context}

theorem builds_of_fields {t : SchemaType} {fs : List Field} (h : fields c t = .ok fs) :
    ∀ f ∈ fs, c.Builds t f :=
  exists_ok_of_mem_mapM h

theorem name_and_fields_of_record {t : SchemaType} {status : Status} {r : RecordType}
    (h : record c t status = .ok r) : t.name = r.name ∧ fields c t = .ok r.fields := by
  obtain ⟨fs, hfs, h⟩ := (bind_eq_ok_iff _ _ _).mp h
  cases h
  exact ⟨rfl, hfs⟩

section Declarations

variable {types : List SchemaType} {m m' : Model} {t : SchemaType}

theorem originates_empty (metadata : Metadata) : Originates c [] (.empty metadata) where
  records _ h := by cases h
  inputs _ h := by cases h

theorem Originates.add (h : Originates c types m)
    (records : ∀ r ∈ m'.records, r ∈ m.records ∨ t.name = r.name ∧ fields c t = .ok r.fields)
    (inputs : ∀ i ∈ m'.inputs, i ∈ m.inputs ∨ t.name = i.name ∧
      (t.inputFields.mapM fun p ↦ inputField c t.name p.1 p.2) = .ok i.fields) :
    Originates c (types ++ [t]) m' where
  records r hr := by
    rcases records r hr with hr | hnew
    · obtain ⟨u, hu, hfields⟩ := h.records r hr
      exact ⟨u, List.mem_append_left _ hu, hfields⟩
    · exact ⟨t, List.mem_append_right _ (List.mem_singleton_self t), hnew⟩
  inputs i hi := by
    rcases inputs i hi with hi | hnew
    · obtain ⟨u, hu, hfields⟩ := h.inputs i hi
      exact ⟨u, List.mem_append_left _ hu, hfields⟩
    · exact ⟨t, List.mem_append_right _ (List.mem_singleton_self t), hnew⟩

theorem Originates.addDeclaration (h : Originates c types m)
    (hadd : addDeclaration c m t = .ok m') : Originates c (types ++ [t]) m' := by
  cases adds_of_addDeclaration hadd with
  | scalar | enum | wrapper | union => exact h.add (fun _ ↦ .inl) fun _ ↦ .inl
  | object _ _ hr =>
    refine h.add (fun r' hr' ↦ ?_) fun _ ↦ .inl
    simp only [Model.records, List.mem_append, List.mem_singleton] at hr' ⊢
    rcases hr' with (hr' | rfl) | hr'
    · exact .inl (.inl hr')
    · exact .inr (name_and_fields_of_record hr)
    · exact .inl (.inr hr')
  | interface _ hr =>
    refine h.add (fun r' hr' ↦ ?_) fun _ ↦ .inl
    simp only [Model.records, List.mem_append, List.mem_singleton] at hr' ⊢
    rcases hr' with hr' | hr' | rfl
    · exact .inl (.inl hr')
    · exact .inl (.inr hr')
    · exact .inr (name_and_fields_of_record hr)
  | input _ hfs =>
    refine h.add (fun _ ↦ .inl) fun i hi ↦ ?_
    rcases List.mem_append.mp hi with hi | hi
    · exact .inl hi
    · rw [List.mem_singleton.mp hi]
      exact .inr ⟨rfl, hfs⟩

theorem Originates.exists_builds (h : Originates c types m) {r : RecordType} (hr : r ∈ m.records)
    {f : Field} (hf : f ∈ r.fields) : ∃ t ∈ types, c.Builds t f := by
  obtain ⟨t, ht, -, hfields⟩ := h.records r hr
  exact ⟨t, ht, builds_of_fields hfields f hf⟩

theorem Originates.exists_buildsInput (h : Originates c types m) {i : InputType}
    (hi : i ∈ m.inputs) {f : Field} (hf : f ∈ i.fields) : ∃ t ∈ types, c.BuildsInput t f := by
  obtain ⟨t, ht, -, hfields⟩ := h.inputs i hi
  exact ⟨t, ht, exists_ok_of_mem_mapM hfields f hf⟩

end Declarations

variable {s : LoadedSchema} {tables : Tables} {m : Model}

/-- The fields of the declarations in a built model are built from those of the schema. -/
theorem originates_of_build (h : Model.build s tables = .ok m) :
    Originates s.context s.schema.types m := by
  obtain ⟨declared, hfrom⟩ := exists_builtFrom h
  have hall := foldlM_preserves (Originates s.context) (fun _ _ _ _ h hadd ↦ h.addDeclaration hadd)
    [] hfrom.declared_eq (originates_empty _)
  rw [List.nil_append] at hall
  have hmem {t : SchemaType} (ht : t ∈ s.schema.types.filter (isDeclared s.context)) :
      t ∈ s.schema.types :=
    (List.mem_filter.mp ht).1
  rw [hfrom.model_eq]
  constructor
  · intro r hr
    obtain ⟨t, ht, hfields⟩ := hall.records r hr
    exact ⟨t, hmem ht, hfields⟩
  · intro i hi
    obtain ⟨t, ht, hfields⟩ := hall.inputs i hi
    exact ⟨t, hmem ht, hfields⟩

theorem exists_fields_of_mem_operations (h : Model.build s tables = .ok m) {o : Operation}
    (ho : o ∈ m.operations) : ∃ t ∈ s.schema.types, ∃ status fs, t.name = o.typeName ∧
      fields s.context t = .ok fs ∧ o.fields = fs.map (operationField status) := by
  obtain ⟨⟨kind, root⟩, hroot, hok⟩ := exists_ok_of_mem_mapM (operations_of_build h) o ho
  obtain ⟨fs, hfs, hok⟩ := (bind_eq_ok_iff _ _ _).mp hok
  cases hok
  obtain ⟨kind', -, hroot⟩ := List.mem_filterMap.mp hroot
  obtain ⟨t, ht, he⟩ := Option.map_eq_some_iff.mp hroot
  cases he
  obtain ⟨name, -, htype⟩ := Option.bind_eq_some_iff.mp ht
  exact ⟨root, List.mem_of_find?_eq_some htype, _, fs, rfl, hfs, rfl⟩

theorem builds_of_mem_operations (h : Model.build s tables = .ok m) {o : Operation}
    (ho : o ∈ m.operations) {f : OperationField} (hf : f ∈ o.fields) :
    ∃ t ∈ s.schema.types, ∃ f' status, s.context.Builds t f' ∧ f = operationField status f' := by
  obtain ⟨t, ht, status, fs, -, hfs, hfields⟩ := exists_fields_of_mem_operations h ho
  rw [hfields] at hf
  obtain ⟨f', hf', rfl⟩ := List.mem_map.mp hf
  exact ⟨t, ht, f', status, builds_of_fields hfs f' hf', rfl⟩

end Model.Build

end SchemaBindings
