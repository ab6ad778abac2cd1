import SchemaBindings.Proofs.Schema.Loading
import SchemaBindings.Proofs.Sdl.Starts

namespace SchemaBindings

open Sdl Merge

/-- What may be declared for itself. -/
inductive DeclarationItem where
  | type (d : TypeDefinition)
  | field (f : FieldDefinition)
  | inputField (f : InputValueDefinition)
  | value (v : EnumValueDefinition)
  deriving Repr, Inhabited

def DeclarationItem.start : DeclarationItem → Nat
  | type d => d.start
  | field f => f.start
  | inputField f => f.start
  | value v => v.start

def DeclarationItem.nameSpan : DeclarationItem → Span
  | type d => d.name.span
  | field f => f.name.span
  | inputField f => f.name.span
  | value v => v.name.span

def DeclarationItem.IsMember : DeclarationItem → Prop
  | type _ => False
  | field _ | inputField _ | value _ => True

structure Declaration where
  owner : SchemaType
  file : Nat
  item : DeclarationItem
  deriving Repr, Inhabited

def Declaration.start (d : Declaration) : Nat :=
  d.item.start

def Declaration.place (d : Declaration) : Nat × Nat :=
  (d.file, d.start)

def SchemaType.itself (t : SchemaType) : Declaration :=
  ⟨t, t.file, .type t.definition⟩

def SchemaType.declared (t : SchemaType) : List Declaration :=
  t.itself ::
    (t.fields.map fun (file, f) ↦ ⟨t, file, .field f⟩) ++
    (t.inputFields.map fun (file, f) ↦ ⟨t, file, .inputField f⟩) ++
    (t.values.map fun (file, v) ↦ ⟨t, file, .value v⟩)

def Schema.declared (s : Schema) : List Declaration :=
  s.types.flatMap SchemaType.declared

theorem SchemaType.mem_declared_iff (t : SchemaType) (d : Declaration) :
    d ∈ t.declared ↔ d = t.itself ∨ (∃ p ∈ t.fields, d = ⟨t, p.1, .field p.2⟩) ∨
      (∃ p ∈ t.inputFields, d = ⟨t, p.1, .inputField p.2⟩) ∨
        ∃ p ∈ t.values, d = ⟨t, p.1, .value p.2⟩ := by
  simp only [declared, List.cons_append, List.append_assoc, List.mem_cons, List.mem_append,
    List.mem_map, eq_comm (b := d)]

theorem SchemaType.eq_itself_of_mem_declared {t : SchemaType} {d : Declaration}
    (hd : d ∈ t.declared) (hmember : ¬ d.item.IsMember) : d = t.itself := by
  rcases (t.mem_declared_iff d).mp hd with rfl | ⟨p, -, rfl⟩ | ⟨p, -, rfl⟩ | ⟨p, -, rfl⟩
  · rfl
  · exact absurd trivial hmember
  · exact absurd trivial hmember
  · exact absurd trivial hmember

theorem SchemaType.map_place_declared (t : SchemaType) :
    t.declared.map Declaration.place = Load.markable t := by
  simp only [declared, Load.markable, List.map_cons, List.map_append, List.map_map]
  rfl

theorem Schema.map_place_declared (s : Schema) :
    s.declared.map Declaration.place = s.types.flatMap Load.markable := by
  rw [declared, List.map_flatMap]
  simp only [SchemaType.map_place_declared]

def TypePart.memberPlaces (part : TypePart) : List (Nat × Nat) :=
  part.definition.body.memberStarts.map (part.file, ·)

/-- The places at which what a definition declares starts. -/
def Placed.places (p : Placed) : List (Nat × Nat) :=
  p.2.starts.map (p.1, ·)

theorem memberStarts_eq (d : TypeDefinition) :
    d.body.memberStarts =
      d.fields.map (·.start) ++ d.inputFields.map (·.start) ++ d.values.map (·.start) := by
  obtain ⟨_, _, _, body, _⟩ := d
  cases body <;> simp [TypeBody.memberStarts, TypeDefinition.fields, TypeDefinition.inputFields,
    TypeDefinition.values]

theorem markable_perm (t : SchemaType) :
    (Load.markable t).Perm ((t.file, t.definition.start) :: t.parts.flatMap (·.memberPlaces)) := by
  have hcollect {α : Type} (items : TypeDefinition → List α) (start : α → Nat) :
      (t.collect items).map (fun p ↦ (p.1, start p.2)) =
        t.parts.flatMap fun part ↦ (items part.definition).map fun a ↦ (part.file, start a) := by
    rw [SchemaType.collect, List.map_flatMap]
    simp only [List.map_map]
    rfl
  have hmembers : t.parts.flatMap (·.memberPlaces) = t.parts.flatMap fun part ↦
      ((part.definition.fields.map fun f ↦ (part.file, f.start)) ++
        (part.definition.inputFields.map fun f ↦ (part.file, f.start))) ++
          part.definition.values.map fun v ↦ (part.file, v.start) := by
    refine List.flatMap_congr fun part _ ↦ ?_
    simp only [TypePart.memberPlaces, memberStarts_eq, List.map_append, List.map_map]
    rfl
  rw [hmembers]
  simp only [Load.markable, SchemaType.fields, SchemaType.inputFields, SchemaType.values,
    List.cons_append]
  rw [hcollect TypeDefinition.fields FieldDefinition.start,
    hcollect TypeDefinition.inputFields InputValueDefinition.start,
    hcollect TypeDefinition.values EnumValueDefinition.start]
  refine List.Perm.cons _ ?_
  exact ((List.flatMap_append_perm _ _ _).append_right _).trans (List.flatMap_append_perm _ _ _)

theorem flatMap_filter_perm {α β : Type} (name : α → String) (key : β → String) {as : List α}
    {bs : List β} (hnd : (as.map name).Nodup) (hkeys : ∀ b ∈ bs, ∃ a ∈ as, name a = key b) :
    (as.flatMap fun a ↦ bs.filter (key · == name a)).Perm bs := by
  induction as generalizing bs with
  | nil =>
    cases bs with
    | nil => exact .nil
    | cons b bs => simpa using hkeys b (by simp)
  | cons a as ih =>
    obtain ⟨hnew, hnd⟩ := List.nodup_cons.mp hnd
    have hothers : as.flatMap (fun a' ↦ bs.filter (key · == name a')) =
        as.flatMap fun a' ↦ (bs.filter fun b ↦ !(key b == name a)).filter (key · == name a') := by
      refine List.flatMap_congr fun a' ha' ↦ ?_
      have hne : name a' ≠ name a := fun he ↦ hnew (List.mem_map.mpr ⟨a', ha', he⟩)
      rw [List.filter_filter]
      refine List.filter_congr fun b _ ↦ ?_
      by_cases hb : key b = name a' <;> simp [hb, hne]
    rw [List.flatMap_cons, hothers]
    refine ((ih hnd fun b hb ↦ ?_).append_left _).trans (List.filter_append_perm _ _)
    obtain ⟨hmem, hother⟩ := List.mem_filter.mp hb
    obtain ⟨a', ha', he⟩ := hkeys b hmem
    rcases List.mem_cons.mp ha' with rfl | ha'
    · simp [he] at hother
    · exact ⟨a', ha', he⟩

section Merged

variable {definitions : List Placed}

theorem flatMap_places_perm (definitions : List Placed) :
    (definitions.flatMap Placed.places).Perm
      (((declarations definitions).flatMap fun p ↦
          (p.file, p.definition.start) :: p.memberPlaces) ++
        (extensions definitions).flatMap (·.memberPlaces)) := by
  induction definitions with
  | nil => exact .nil
  | cons p definitions ih =>
    obtain ⟨file, d⟩ := p
    rw [List.flatMap_cons]
    refine (ih.append_left _).trans ?_
    cases d with
    | type d =>
      rw [← List.append_assoc]
      exact .of_eq rfl
    | typeExtension d =>
      exact List.perm_append_comm_assoc _ _ _
    | schema => exact .refl _
    | schemaExtension => exact .refl _
    | directive => exact .refl _

theorem flatMap_markable_perm
    (hnd : ((declarations definitions).map (·.definition.name.text)).Nodup)
    (hext : ∀ e ∈ extensions definitions, ∃ d ∈ declarations definitions,
      d.definition.name.text = e.definition.name.text) :
    ((merged definitions).flatMap Load.markable).Perm (definitions.flatMap Placed.places) := by
  have hgroups := (flatMap_filter_perm (fun p : TypePart ↦ p.definition.name.text)
    (fun p : TypePart ↦ p.definition.name.text) hnd hext).flatMap_right (·.memberPlaces)
  refine List.Perm.trans ?_ (flatMap_places_perm definitions).symm
  refine List.Perm.trans ?_ (hgroups.append_left _)
  rw [List.flatMap_assoc, merged, List.flatMap_map]
  refine List.Perm.trans ?_ (List.flatMap_append_perm _ _ _).symm
  exact List.Perm.flatMap_left _ fun p _ ↦ markable_perm _

end Merged

section Places

variable {sources : Sources}

theorem exists_parse?_eq_some {source : SourceFile}
    (h : (Document.parse? source.chars).map (·.diagnostics) = some []) :
    ∃ d, Document.parse? source.chars = some ⟨d, []⟩ ∧ source.definitions = d.definitions := by
  obtain ⟨⟨d, diagnostics⟩, hd, rfl⟩ := Option.map_eq_some_iff.mp h
  exact ⟨d, hd, by rw [SourceFile.definitions, hd]⟩

theorem flatMap_places_definitions (sources : Sources) :
    sources.definitions.flatMap Placed.places =
      sources.zipIdx.flatMap fun p ↦ (p.1.definitions.flatMap Definition.starts).map (p.2, ·) := by
  simp only [Sources.definitions, List.flatMap_assoc, List.flatMap_map, List.map_flatMap]
  rfl

theorem Sources.file_of_mem_zipIdx {p : SourceFile × Nat} (h : p ∈ sources.zipIdx) :
    sources.file p.2 = p.1 := by
  rw [Sources.file, List.getD_eq_getElem?_getD, List.mem_zipIdx_iff_getElem?.mp h]
  rfl

theorem exists_char_of_mem_places
    (hparse : ∀ s ∈ sources, (Document.parse? s.chars).map (·.diagnostics) = some [])
    {file offset : Nat} (h : (file, offset) ∈ sources.definitions.flatMap Placed.places) :
    ∃ pre c rest, (sources.file file).chars = pre ++ c :: rest ∧ offset = Text.byteLength pre ∧
      ¬ Text.isBlank c := by
  rw [flatMap_places_definitions] at h
  obtain ⟨p, hp, h⟩ := List.mem_flatMap.mp h
  obtain ⟨_, ho, he⟩ := List.mem_map.mp h
  cases he
  obtain ⟨d, hd, hdefinitions⟩ := exists_parse?_eq_some (hparse p.1 (List.fst_mem_of_mem_zipIdx hp))
  rw [hdefinitions] at ho
  rw [Sources.file_of_mem_zipIdx hp]
  exact exists_char_of_mem_starts hd ho

theorem nodup_places
    (hparse : ∀ s ∈ sources, (Document.parse? s.chars).map (·.diagnostics) = some []) :
    (sources.definitions.flatMap Placed.places).Nodup := by
  rw [flatMap_places_definitions, List.nodup_flatMap]
  constructor
  · intro p hp
    obtain ⟨d, hd, hdefinitions⟩ :=
      exists_parse?_eq_some (hparse p.1 (List.fst_mem_of_mem_zipIdx hp))
    rw [hdefinitions]
    exact (nodup_starts hd).map fun _ _ he ↦ (Prod.mk.inj he).2
  · have hindices : (sources.zipIdx.map (·.2)).Nodup := by
      rw [List.zipIdx_map_snd]
      exact List.nodup_range'
    refine (List.pairwise_map.mp hindices).imp fun hne ↦ ?_
    simp only [Function.onFun, List.disjoint_left, List.mem_map]
    intro place h h'
    obtain ⟨o, -, rfl⟩ := h
    obtain ⟨o', -, he⟩ := h'
    exact hne (Prod.mk.inj he).1.symm

end Places

/-- What is declared in a merged schema starts where its files declare something. -/
theorem Schema.place_perm {definitions : List Placed} {s : Schema} (hwf : WellFormed definitions)
    (htypes : s.types = merged definitions) :
    (s.declared.map Declaration.place).Perm (definitions.flatMap Placed.places) := by
  rw [Schema.map_place_declared, htypes]
  refine flatMap_markable_perm hwf.names_nodup fun e he ↦ ?_
  obtain ⟨d, hd, hname, -⟩ := hwf.extended e he
  exact ⟨d, hd, hname⟩

end SchemaBindings
