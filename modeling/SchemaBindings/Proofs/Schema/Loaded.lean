import SchemaBindings.Proofs.Schema.Declarations
import SchemaBindings.Proofs.Sdl.Parts

namespace SchemaBindings

open Sdl

theorem eq_ok_of_readFile {file : Nat} {source : SourceFile} {definitions : List Placed}
    {markers : List Marker} (h : Load.readFile file source = .ok (definitions, markers)) :
    (Document.parse? source.chars).map (·.diagnostics) = some [] ∧
      definitions = source.definitions.map (file, ·) ∧
      ∀ m ∈ markers, ∃ found, scanMarkers file source = .ok found ∧ m ∈ found := by
  cases hparse : Document.parse? source.chars with
  | none => simp [Load.readFile, hparse] at h
  | some parsed =>
    have hdefinitions : source.definitions = parsed.document.definitions := by
      rw [SourceFile.definitions, hparse]
    cases hd : parsed.diagnostics with
    | cons => simp [Load.readFile, hparse, hd] at h
    | nil =>
      refine ⟨by simp [hd], ?_⟩
      cases hscan : scanMarkers file source with
      | ok found =>
        obtain ⟨rfl, rfl⟩ : _ ∧ found = markers := by
          simpa [Load.readFile, hparse, hd, hscan] using h
        exact ⟨by rw [hdefinitions], fun m hm ↦ ⟨found, rfl, hm⟩⟩
      | error dangling =>
        cases dangling with
        | cons => simp [Load.readFile, hparse, hd, hscan] at h
        | nil =>
          obtain ⟨rfl, rfl⟩ : _ ∧ markers = [] := by
            simpa [Load.readFile, hparse, hd, hscan] using h
          exact ⟨by rw [hdefinitions], by simp⟩

theorem eq_ok_of_readFiles {file : Nat} {sources : Sources} {definitions : List Placed}
    {markers : List Marker} (h : Load.readFiles file sources = .ok (definitions, markers)) :
    (∀ s ∈ sources, (Document.parse? s.chars).map (·.diagnostics) = some []) ∧
      definitions = (sources.zipIdx file).flatMap (fun p ↦ p.1.definitions.map (p.2, ·)) ∧
      ∀ m ∈ markers, ∃ p ∈ sources.zipIdx file, ∃ found,
        scanMarkers p.2 p.1 = .ok found ∧ m ∈ found := by
  induction sources generalizing file definitions markers with
  | nil =>
    cases h
    exact ⟨nofun, rfl, nofun⟩
  | cons source sources ih =>
    obtain ⟨⟨first, found⟩, hfirst, h⟩ := (Attempt.bind_eq_ok_iff _ _ _).mp h
    obtain ⟨⟨others, found'⟩, hothers, h⟩ := (Attempt.bind_eq_ok_iff _ _ _).mp h
    cases h
    obtain ⟨hparse, rfl, hfound⟩ := eq_ok_of_readFile hfirst
    obtain ⟨hparse', rfl, hfound'⟩ := ih hothers
    refine ⟨List.forall_mem_cons.mpr ⟨hparse, hparse'⟩, by simp, fun m hm ↦ ?_⟩
    rcases List.mem_append.mp hm with hm | hm
    · exact ⟨(source, file), by simp, hfound m hm⟩
    · obtain ⟨p, hp, he⟩ := hfound' m hm
      exact ⟨p, by simp [hp], he⟩

namespace Load

def schemaOf (sources : Sources) (definitions : List Placed) : Schema :=
  ⟨sources, Merge.merged definitions,
    (Merge.roots (Merge.merged definitions) (Merge.schemaParts definitions)).roots,
    Merge.directives definitions⟩

theorem detached?_eq_none_iff (s : Schema) (markers : List Marker) :
    detached? s markers = none ↔ ∀ m ∈ markers, (m.file, m.targetLine) ∈ markableLines s := by
  cases markers with
  | nil => simp [detached?]
  | cons m markers => simp [detached?]

/-- Loading succeeds exactly if the files can be read, their definitions make up a schema and every
marker stands before a declaration. -/
theorem load_eq_ok_iff (sources : Sources) (s : LoadedSchema) :
    Schema.load sources = .ok s ↔ ∃ definitions markers,
      readFiles 0 sources = .ok (definitions, markers) ∧ WellFormed definitions ∧
        (∀ m ∈ markers, (m.file, m.targetLine) ∈ markableLines (schemaOf sources definitions)) ∧
          s = ⟨schemaOf sources definitions, ⟨markers⟩⟩ := by
  simp only [← detached?_eq_none_iff]
  constructor
  · intro h
    obtain ⟨⟨definitions, markers⟩, hread, h⟩ := (Attempt.bind_eq_ok_iff _ _ _).mp h
    obtain ⟨schema, hmerge, h⟩ := (Attempt.bind_eq_ok_iff _ _ _).mp h
    obtain ⟨hwf, rfl⟩ := (merge_eq_ok_iff _ _).mp hmerge
    split at h
    · cases h
    next hattached =>
      cases h
      exact ⟨definitions, markers, hread, hwf, hattached, rfl⟩
  · intro h
    obtain ⟨definitions, markers, hread, hwf, hattached, rfl⟩ := h
    have hmerge : merge sources definitions = .ok (schemaOf sources definitions) :=
      (merge_eq_ok_iff _ _).mpr ⟨hwf, rfl⟩
    refine (Attempt.bind_eq_ok_iff _ _ _).mpr ⟨_, hread, ?_⟩
    refine (Attempt.bind_eq_ok_iff _ _ _).mpr ⟨_, hmerge, ?_⟩
    simp only [hattached]
    rfl

end Load

/-- What is known of a schema that has been loaded. -/
structure Loaded (sources : Sources) (s : LoadedSchema) : Prop where
  sources_eq : s.schema.sources = sources
  parsed : ∀ source ∈ sources, (Document.parse? source.chars).map (·.diagnostics) = some []
  wellFormed : WellFormed sources.definitions
  types_eq : s.schema.types = Merge.merged sources.definitions
  roots_eq : s.schema.roots = (Merge.roots (Merge.merged sources.definitions)
    (Merge.schemaParts sources.definitions)).roots
  scanned : ∀ m ∈ s.markers.markers, ∃ p ∈ sources.zipIdx, ∃ found,
    scanMarkers p.2 p.1 = .ok found ∧ m ∈ found
  attached : ∀ m ∈ s.markers.markers, (m.file, m.targetLine) ∈ Load.markableLines s.schema

theorem loaded_of_load {sources : Sources} {s : LoadedSchema} (h : Schema.load sources = .ok s) :
    Loaded sources s := by
  obtain ⟨definitions, markers, hread, hwf, hattached, rfl⟩ := (Load.load_eq_ok_iff _ _).mp h
  obtain ⟨hparsed, rfl, hscanned⟩ := eq_ok_of_readFiles hread
  exact ⟨rfl, hparsed, hwf, rfl, rfl, hscanned, hattached⟩

section Types

variable {sources : Sources} {s : LoadedSchema} {t : SchemaType}

theorem Loaded.names_nodup (h : Loaded sources s) : (s.schema.types.map (·.name)).Nodup := by
  rw [h.types_eq, names_merged]
  exact h.wellFormed.names_nodup

theorem Loaded.names_new (h : Loaded sources s) :
    ∀ type ∈ s.schema.types, type.name ∉ builtinScalars := by
  intro type ht
  rw [h.types_eq] at ht
  obtain ⟨part, hpart, rfl⟩ := List.mem_map.mp ht
  exact h.wellFormed.names_new part hpart

theorem Loaded.types_wellFormed (h : Loaded sources s) :
    ∀ type ∈ s.schema.types, type.WellFormed s.schema.types := by
  rw [h.types_eq]
  exact h.wellFormed.types

theorem Loaded.isObjectName_of_mem_roots (h : Loaded sources s) {p : OperationKind × String}
    (hp : p ∈ s.schema.roots) : Merge.IsObjectName s.schema.types p.2 := by
  have hnames := isObjectName_merged h.wellFormed.names_nodup
  rw [h.types_eq]
  refine Merge.isObjectName_of_mem_roots (fun o ho ↦ ?_) (h.roots_eq ▸ hp)
  exact (hnames _).mpr (h.wellFormed.operations_objects o ho)

theorem Loaded.kind_of_isRoot (h : Loaded sources s) (ht : t ∈ s.schema.types)
    (hroot : s.schema.isRoot t.name = true) : t.kind = .object := by
  obtain ⟨p, hp, he⟩ := List.any_eq_true.mp hroot
  have hobject := h.isObjectName_of_mem_roots hp
  rw [beq_iff_eq.mp he, Merge.IsObjectName,
    (findType?_eq_some_iff h.names_nodup _ _).mpr ⟨ht, rfl⟩] at hobject
  exact Option.some.inj hobject

theorem Loaded.exists_part_of_mem_collect {α : Type} (h : Loaded sources s)
    (ht : t ∈ s.schema.types) {items : TypeDefinition → List α} {p : Nat × α}
    (hp : p ∈ t.collect items) :
    ∃ d : TypeDefinition, d.kind = t.kind ∧ items d ≠ [] := by
  obtain ⟨part, hpart, hp⟩ := List.mem_flatMap.mp hp
  obtain ⟨a, ha, -⟩ := List.mem_map.mp hp
  have hkind := kind_of_mem_parts h.wellFormed.names_nodup h.wellFormed.extended t
    (h.types_eq ▸ ht) part hpart
  exact ⟨part.definition, hkind, List.ne_nil_of_mem ha⟩

theorem Loaded.kind_of_mem_fields (h : Loaded sources s) (ht : t ∈ s.schema.types)
    {p : Nat × FieldDefinition} (hp : p ∈ t.fields) : t.kind = .object ∨ t.kind = .interface := by
  obtain ⟨d, hk, hne⟩ := h.exists_part_of_mem_collect ht hp
  rw [← hk]
  by_contra hother
  obtain ⟨hobject, hinterface⟩ := not_or.mp hother
  exact hne (d.fields_eq_nil hobject hinterface)

theorem Loaded.kind_of_mem_inputFields (h : Loaded sources s) (ht : t ∈ s.schema.types)
    {p : Nat × InputValueDefinition} (hp : p ∈ t.inputFields) : t.kind = .inputObject := by
  obtain ⟨d, hk, hne⟩ := h.exists_part_of_mem_collect ht hp
  rw [← hk]
  by_contra hother
  exact hne (d.inputFields_eq_nil hother)

theorem Loaded.kind_of_mem_values (h : Loaded sources s) (ht : t ∈ s.schema.types)
    {p : Nat × EnumValueDefinition} (hp : p ∈ t.values) : t.kind = .enum := by
  obtain ⟨d, hk, hne⟩ := h.exists_part_of_mem_collect ht hp
  rw [← hk]
  by_contra hother
  exact hne (d.values_eq_nil hother)

theorem exists_definition_of_mem_parts {definitions : List Placed}
    (ht : t ∈ Merge.merged definitions) {part : TypePart} (hpart : part ∈ t.parts) :
    ∃ x, (part.file, x) ∈ definitions ∧ x.type? = some part.definition := by
  obtain ⟨d, hd, rfl⟩ := List.mem_map.mp ht
  rcases List.mem_cons.mp hpart with rfl | hpart
  · obtain ⟨⟨file, x⟩, hx, he⟩ := List.mem_filterMap.mp hd
    cases x with
    | type x =>
      cases he
      exact ⟨_, hx, rfl⟩
    | _ => cases he
  · obtain ⟨⟨file, x⟩, hx, he⟩ := List.mem_filterMap.mp (List.mem_filter.mp hpart).1
    cases x with
    | typeExtension x =>
      cases he
      exact ⟨_, hx, rfl⟩
    | _ => cases he

theorem Loaded.exists_parse? (h : Loaded sources s) (ht : t ∈ s.schema.types) {part : TypePart}
    (hpart : part ∈ t.parts) :
    ∃ d x, Document.parse? (sources.file part.file).chars = some ⟨d, []⟩ ∧ x ∈ d.definitions ∧
      x.type? = some part.definition := by
  obtain ⟨x, hx, htype⟩ := exists_definition_of_mem_parts (h.types_eq ▸ ht) hpart
  obtain ⟨p, hp, hx⟩ := List.mem_flatMap.mp hx
  obtain ⟨x', hmem, he⟩ := List.mem_map.mp hx
  obtain ⟨hfile, rfl⟩ := Prod.mk.inj he
  obtain ⟨d, hd, hdefinitions⟩ :=
    exists_parse?_eq_some (h.parsed p.1 (List.fst_mem_of_mem_zipIdx hp))
  rw [← hfile, Sources.file_of_mem_zipIdx hp]
  exact ⟨d, x', hd, hdefinitions ▸ hmem, htype⟩

end Types

end SchemaBindings
