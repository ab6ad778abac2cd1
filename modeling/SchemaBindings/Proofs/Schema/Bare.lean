import SchemaBindings.Proofs.Schema.Loading
import SchemaBindings.Proofs.Sdl.Bare

namespace SchemaBindings

open Sdl

def Placed.bare (p : Placed) : Placed :=
  (0, p.2.bare)

def TypePart.bare (part : TypePart) : TypePart :=
  ⟨0, part.definition.bare⟩

def SchemaType.bare (t : SchemaType) : SchemaType :=
  ⟨t.declaration.bare, t.extensions.map TypePart.bare⟩

def Merge.SchemaPart.bare (part : Merge.SchemaPart) : Merge.SchemaPart :=
  ⟨0, part.definition.bare, part.isExtension⟩

/-- What a schema says, without the files that it is read from. -/
def Schema.bare (s : Schema) : Schema :=
  ⟨[], s.types.map SchemaType.bare, s.roots, s.directives.map fun p ↦ (0, p.2.bare)⟩

namespace Sdl

@[simp] theorem Name.text_bare (n : Name) : n.bare.text = n.text := rfl

@[simp] theorem TypeRef.name_bare (t : TypeRef) : t.bare.name = t.name := by
  induction t with
  | named => rfl
  | list t _ ih => exact ih
  | nonNull t _ ih => exact ih

theorem TypeRef.bare_eq_nonNull_named_iff (t : TypeRef) (name : String) :
    (∃ inner outer, t.bare = .nonNull (.named name inner) outer) ↔
      ∃ inner outer, t = .nonNull (.named name inner) outer := by
  rcases t with _ | _ | ⟨_ | _ | _, _⟩ <;> simp [TypeRef.bare]

@[simp] theorem FieldDefinition.type_bare (f : FieldDefinition) : f.bare.type = f.type.bare := rfl

@[simp] theorem FieldDefinition.arguments_bare (f : FieldDefinition) :
    f.bare.arguments = f.arguments.map InputValueDefinition.bare := rfl

@[simp] theorem InputValueDefinition.type_bare (a : InputValueDefinition) :
    a.bare.type = a.type.bare := rfl

namespace TypeDefinition

variable (d : TypeDefinition)

@[simp] theorem kind_bare : d.bare.kind = d.kind := by
  obtain ⟨_, _, _, body, _⟩ := d
  cases body <;> rfl

theorem implements_bare : d.bare.implements = d.implements.map Name.bare := by
  obtain ⟨_, _, _, body, _⟩ := d
  cases body <;> rfl

theorem fields_bare : d.bare.fields = d.fields.map FieldDefinition.bare := by
  obtain ⟨_, _, _, body, _⟩ := d
  cases body <;> rfl

theorem members_bare : d.bare.members = d.members.map Name.bare := by
  obtain ⟨_, _, _, body, _⟩ := d
  cases body <;> rfl

theorem values_bare : d.bare.values = d.values.map EnumValueDefinition.bare := by
  obtain ⟨_, _, _, body, _⟩ := d
  cases body <;> rfl

theorem inputFields_bare : d.bare.inputFields = d.inputFields.map InputValueDefinition.bare := by
  obtain ⟨_, _, _, body, _⟩ := d
  cases body <;> rfl

end TypeDefinition

end Sdl

namespace SchemaType

variable (t : SchemaType)

@[simp] theorem name_bare : t.bare.name = t.name := rfl

@[simp] theorem kind_bare : t.bare.kind = t.kind :=
  t.definition.kind_bare

theorem collect_bare {α : Type} {items : TypeDefinition → List α} {bare : α → α}
    (h : ∀ d : TypeDefinition, items d.bare = (items d).map bare) :
    t.bare.collect items = (t.collect items).map fun p ↦ (0, bare p.2) := by
  have hparts : t.bare.parts = t.parts.map TypePart.bare := rfl
  rw [collect, collect, hparts, List.flatMap_map, List.map_flatMap]
  refine List.flatMap_congr fun part _ ↦ ?_
  rw [TypePart.bare, h, List.map_map, List.map_map]
  rfl

@[simp] theorem fields_bare : t.bare.fields = t.fields.map fun p ↦ (0, p.2.bare) :=
  t.collect_bare TypeDefinition.fields_bare

@[simp] theorem inputFields_bare : t.bare.inputFields = t.inputFields.map fun p ↦ (0, p.2.bare) :=
  t.collect_bare TypeDefinition.inputFields_bare

@[simp] theorem values_bare : t.bare.values = t.values.map fun p ↦ (0, p.2.bare) :=
  t.collect_bare TypeDefinition.values_bare

@[simp] theorem members_bare : t.bare.members = t.members.map fun p ↦ (0, p.2.bare) :=
  t.collect_bare TypeDefinition.members_bare

@[simp] theorem implements_bare : t.bare.implements = t.implements.map fun p ↦ (0, p.2.bare) :=
  t.collect_bare TypeDefinition.implements_bare

end SchemaType

section Types

variable (types : List SchemaType)

theorem findType?_bare (name : String) :
    findType? (types.map SchemaType.bare) name = (findType? types name).map SchemaType.bare := by
  rw [findType?, List.find?_map]
  rfl

theorem kindOf?_bare (name : String) :
    kindOf? (types.map SchemaType.bare) name = kindOf? types name := by
  rw [kindOf?, kindOf?, findType?_bare, Option.map_map]
  refine congrArg (ite _ _) (congrArg (Option.map · _) (funext fun t ↦ ?_))
  exact t.kind_bare

variable {types}

theorem refers_bare_iff (name : String) (kind : TypeKind) :
    Refers (types.map SchemaType.bare) name kind ↔ Refers types name kind := by
  constructor
  · intro h
    cases h with
    | builtin h => exact .builtin h
    | declared h =>
      obtain ⟨t, ht, rfl⟩ := List.mem_map.mp h
      rw [t.name_bare, t.kind_bare]
      exact .declared ht
  · intro h
    cases h with
    | builtin h => exact .builtin h
    | @declared t ht =>
      rw [← t.name_bare, ← t.kind_bare]
      exact .declared (List.mem_map_of_mem ht)

@[simp] theorem outputReference_bare_iff (t : TypeRef) :
    OutputReference (types.map SchemaType.bare) t.bare ↔ OutputReference types t := by
  simp only [OutputReference, refers_bare_iff, TypeRef.name_bare]

@[simp] theorem inputReference_bare_iff (t : TypeRef) :
    InputReference (types.map SchemaType.bare) t.bare ↔ InputReference types t := by
  simp only [InputReference, refers_bare_iff, TypeRef.name_bare]

theorem SchemaType.hasContent_bare_iff (t : SchemaType) : t.bare.HasContent ↔ t.HasContent := by
  unfold HasContent
  rw [t.kind_bare]
  cases t.kind <;> simp

attribute [mk_iff] SchemaType.WellFormed

theorem SchemaType.wellFormed_bare_iff (t : SchemaType) :
    t.bare.WellFormed (types.map SchemaType.bare) ↔ t.WellFormed types := by
  simp only [SchemaType.wellFormed_iff, t.hasContent_bare_iff, fields_bare, inputFields_bare,
    values_bare, members_bare, implements_bare, List.map_map, List.forall_mem_map,
    FieldDefinition.arguments_bare, FieldDefinition.type_bare, InputValueDefinition.type_bare,
    outputReference_bare_iff, inputReference_bare_iff, Name.text_bare, refers_bare_iff]
  rfl

theorem requires_bare_iff (a b : String) :
    Requires (types.map SchemaType.bare) a b ↔ Requires types a b := by
  simp [Requires, refers_bare_iff, TypeRef.bare_eq_nonNull_named_iff]

end Types

namespace Merge

variable (definitions : List Placed)

theorem filterMap_bare {α : Type} {select : Placed → Option α} {bare : α → α}
    (h : ∀ p, select p.bare = (select p).map bare) :
    (definitions.map Placed.bare).filterMap select = (definitions.filterMap select).map bare := by
  rw [List.filterMap_map, List.map_filterMap]
  exact List.filterMap_congr fun p _ ↦ h p

theorem declarations_bare :
    declarations (definitions.map Placed.bare) = (declarations definitions).map TypePart.bare :=
  filterMap_bare definitions fun p ↦ by
    obtain ⟨_, d⟩ := p
    cases d <;> rfl

theorem extensions_bare :
    extensions (definitions.map Placed.bare) = (extensions definitions).map TypePart.bare :=
  filterMap_bare definitions fun p ↦ by
    obtain ⟨_, d⟩ := p
    cases d <;> rfl

theorem directives_bare : directives (definitions.map Placed.bare) =
    (directives definitions).map fun p ↦ (0, p.2.bare) :=
  filterMap_bare definitions fun p ↦ by
    obtain ⟨_, d⟩ := p
    cases d <;> rfl

theorem schemaParts_bare :
    schemaParts (definitions.map Placed.bare) = (schemaParts definitions).map SchemaPart.bare :=
  filterMap_bare definitions fun p ↦ by
    obtain ⟨_, d⟩ := p
    cases d <;> rfl

theorem operations_bare (parts : List SchemaPart) :
    operations (parts.map SchemaPart.bare) = (operations parts).map OperationType.bare := by
  rw [operations, operations, List.flatMap_map, List.map_flatMap]
  rfl

theorem merged_bare :
    merged (definitions.map Placed.bare) = (merged definitions).map SchemaType.bare := by
  rw [merged, merged, declarations_bare, extensions_bare, List.map_map, List.map_map]
  refine List.map_congr_left fun part _ ↦ ?_
  simp only [Function.comp_apply, SchemaType.bare, List.filter_map]
  rfl

theorem roots_bare (types : List SchemaType) (parts : List SchemaPart) :
    (roots (types.map SchemaType.bare) (parts.map SchemaPart.bare)).roots =
      (roots types parts).roots := by
  have hconventional : conventionalRoots (types.map SchemaType.bare) = conventionalRoots types := by
    refine List.filterMap_congr fun o _ ↦ ?_
    have hkind (name : String) : (findType? (types.map SchemaType.bare) name).map SchemaType.kind =
        (findType? types name).map SchemaType.kind := by
      rw [findType?_bare, Option.map_map]
      exact congrArg (Option.map · _) (funext SchemaType.kind_bare)
    simp only [hkind]
  have hgiven : RootScan.given (parts.map SchemaPart.bare) = RootScan.given parts := by
    rw [RootScan.given, operations_bare, List.map_map]
    rfl
  rw [roots_roots, roots_roots, hconventional, hgiven, List.isEmpty_map]

end Merge

open Merge

attribute [mk_iff] WellFormed

/-- Definitions make up a schema wherever they stand. -/
theorem wellFormed_bare_iff (definitions : List Placed) :
    WellFormed (definitions.map Placed.bare) ↔ WellFormed definitions := by
  have hdeclared (P : TypePart → Prop) :
      (∃ d ∈ (declarations definitions).map TypePart.bare, P d) ↔
        ∃ d ∈ declarations definitions, P d.bare := by
    simp only [List.mem_map, exists_exists_and_eq_and]
  have hkind (part : TypePart) : part.bare.definition.kind = part.definition.kind :=
    part.definition.kind_bare
  have hrequires : Requires ((merged definitions).map SchemaType.bare) =
      Requires (merged definitions) :=
    funext₂ fun a b ↦ propext (requires_bare_iff a b)
  simp only [wellFormed_iff, declarations_bare, extensions_bare, schemaParts_bare, merged_bare,
    operations_bare, List.map_map, List.forall_mem_map, List.filter_map, List.length_map, hdeclared,
    hkind, hrequires, SchemaType.wellFormed_bare_iff]
  rfl

end SchemaBindings
