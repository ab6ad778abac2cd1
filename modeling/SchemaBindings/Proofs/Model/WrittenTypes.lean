import SchemaBindings.Proofs.Model.FieldOrigins
import SchemaBindings.Proofs.Model.TypeReferences

namespace SchemaBindings

open Sdl Text Model Model.Build Attempt

/-- The part of a file that a reference covers spells the type. -/
def Sources.Spells (sources : Sources) (file : Nat) (r : TypeRef) (e : TypeExpr) : Prop :=
  ∃ written, sliceBytes? r.span.start r.span.stop (sources.file file).chars = some written ∧
    e.IsWrittenAs written

def Sources.SpellsArgument (sources : Sources) (file : Nat) (a : InputValueDefinition)
    (b : Model.Argument) : Prop :=
  b.name = a.name.text ∧ sources.Spells file a.type b.type

/-- A field of a file has the name, and spells the type and those of the arguments in order. -/
structure Sources.SpellsField (sources : Sources) (file : Nat) (f : FieldDefinition)
    (name : String) (type : TypeExpr) (arguments : List Model.Argument) : Prop where
  name_eq : name = f.name.text
  type : sources.Spells file f.type type
  arguments : List.Forall₂ (sources.SpellsArgument file) f.arguments arguments

namespace SchemaType

variable {t : SchemaType} {file : Nat}

theorem mem_collect_of_mem {α β : Type} {items : TypeDefinition → List α}
    {others : TypeDefinition → List β} {a : α} {b : β} (ha : (file, a) ∈ t.collect items)
    (h : ∀ d : TypeDefinition, a ∈ items d → b ∈ others d) : (file, b) ∈ t.collect others := by
  obtain ⟨part, hpart, ha⟩ := List.mem_flatMap.mp ha
  obtain ⟨a', ha, he⟩ := List.mem_map.mp ha
  cases he
  exact List.mem_flatMap.mpr ⟨part, hpart, List.mem_map.mpr ⟨b, h _ ha, rfl⟩⟩

theorem type_mem_references {f : FieldDefinition} (h : (file, f) ∈ t.fields) :
    (file, f.type) ∈ t.references :=
  mem_collect_of_mem h fun _ hf ↦ List.mem_append_left _ (List.mem_map.mpr ⟨f, hf, rfl⟩)

theorem argument_mem_references {f : FieldDefinition} (h : (file, f) ∈ t.fields)
    {a : InputValueDefinition} (ha : a ∈ f.arguments) : (file, a.type) ∈ t.references := by
  refine mem_collect_of_mem h fun d hf ↦ List.mem_append_right _ (List.mem_map.mpr ⟨a, ?_, rfl⟩)
  exact List.mem_append_left _ (List.mem_flatMap.mpr ⟨f, hf, ha⟩)

theorem input_mem_references {a : InputValueDefinition} (h : (file, a) ∈ t.inputFields) :
    (file, a.type) ∈ t.references :=
  mem_collect_of_mem h fun _ ha ↦
    List.mem_append_right _ (List.mem_map.mpr ⟨a, List.mem_append_right _ ha, rfl⟩)

end SchemaType

theorem forall₂_of_mem {α β : Type} {R S : α → β → Prop} {as : List α} {bs : List β}
    (h : List.Forall₂ R as bs) (hS : ∀ a ∈ as, ∀ b, R a b → S a b) : List.Forall₂ S as bs :=
  (List.forall₂_and_left as bs).mpr ⟨fun _ ha ↦ ha, h⟩ |>.imp fun a b hab ↦ hS a hab.1 b hab.2

section Loaded

variable {sources : Sources} {s : LoadedSchema} {t : SchemaType} {file : Nat}

theorem Loaded.spells (h : Loaded sources s) (ht : t ∈ s.schema.types) {r : TypeRef}
    (hr : (file, r) ∈ t.references) {referrer : String} {e : TypeExpr}
    (he : s.context.typeExpr referrer r = .ok e) : sources.Spells file r e := by
  obtain ⟨e', written, he', hslice, -, hwritten⟩ := h.exists_isWrittenAs ht hr _ referrer
  cases he.symm.trans he'
  exact ⟨written, hslice, hwritten⟩

theorem Loaded.spellsArgument (h : Loaded sources s) (ht : t ∈ s.schema.types)
    {a : InputValueDefinition} (hr : (file, a.type) ∈ t.references) {owner : String}
    {b : Model.Argument} (hok : argument s.context owner a = .ok b) :
    sources.SpellsArgument file a b := by
  obtain ⟨type, htype, hok⟩ := (bind_eq_ok_iff _ _ _).mp hok
  cases hok
  exact ⟨rfl, h.spells ht hr htype⟩

theorem Loaded.spellsField (h : Loaded sources s) (ht : t ∈ s.schema.types) {f : FieldDefinition}
    (hf : (file, f) ∈ t.fields) {owner : String} {f' : Field}
    (hok : field s.context owner file f = .ok f') :
    sources.SpellsField file f f'.name f'.type f'.arguments := by
  obtain ⟨_, -, hok⟩ := (bind_eq_ok_iff _ _ _).mp hok
  obtain ⟨type, htype, hok⟩ := (bind_eq_ok_iff _ _ _).mp hok
  obtain ⟨arguments, harguments, hok⟩ := (bind_eq_ok_iff _ _ _).mp hok
  cases hok
  refine ⟨rfl, h.spells ht (SchemaType.type_mem_references hf) htype, ?_⟩
  exact forall₂_of_mem (forall₂_of_mapM harguments) fun a ha b hb ↦
    h.spellsArgument ht (SchemaType.argument_mem_references hf ha) hb

theorem Loaded.spellsInput (h : Loaded sources s) (ht : t ∈ s.schema.types)
    {a : InputValueDefinition} (ha : (file, a) ∈ t.inputFields) {owner : String} {f : Field}
    (hok : inputField s.context owner file a = .ok f) :
    f.name = a.name.text ∧ sources.Spells file a.type f.type := by
  obtain ⟨_, -, hok⟩ := (bind_eq_ok_iff _ _ _).mp hok
  obtain ⟨type, htype, hok⟩ := (bind_eq_ok_iff _ _ _).mp hok
  cases hok
  exact ⟨rfl, h.spells ht (SchemaType.input_mem_references ha) htype⟩

end Loaded

/-- The types in a built model are those that the files spell: field by field and argument by
argument, those of an object or interface, of an input type and of an operation. -/
theorem spells_of_load_of_build {sources : Sources} {s : LoadedSchema} {tables : Tables} {m : Model}
    (h : Schema.load sources = .ok s) (hbuild : Model.build s tables = .ok m) :
    (∀ r ∈ m.records, ∃ t ∈ s.schema.types, t.name = r.name ∧
      List.Forall₂ (fun p f ↦ sources.SpellsField p.1 p.2 f.name f.type f.arguments)
        t.fields r.fields) ∧
    (∀ i ∈ m.inputs, ∃ t ∈ s.schema.types, t.name = i.name ∧
      List.Forall₂ (fun p f ↦ f.name = p.2.name.text ∧ sources.Spells p.1 p.2.type f.type)
        t.inputFields i.fields) ∧
    ∀ o ∈ m.operations, ∃ t ∈ s.schema.types, t.name = o.typeName ∧
      List.Forall₂ (fun p f ↦ sources.SpellsField p.1 p.2 f.name f.returnType f.arguments)
        t.fields o.fields := by
  have hloaded := loaded_of_load h
  have horigins := originates_of_build hbuild
  have hfields {t : SchemaType} (ht : t ∈ s.schema.types) {fs : List Field}
      (hok : fields s.context t = .ok fs) :
      List.Forall₂ (fun p f ↦ sources.SpellsField p.1 p.2 f.name f.type f.arguments) t.fields fs :=
    forall₂_of_mem (forall₂_of_mapM hok) fun _ hp _ hf ↦ hloaded.spellsField ht hp hf
  refine ⟨fun r hr ↦ ?_, fun i hi ↦ ?_, fun o ho ↦ ?_⟩
  · obtain ⟨t, ht, hname, hok⟩ := horigins.records r hr
    exact ⟨t, ht, hname, hfields ht hok⟩
  · obtain ⟨t, ht, hname, hok⟩ := horigins.inputs i hi
    refine ⟨t, ht, hname, ?_⟩
    exact forall₂_of_mem (forall₂_of_mapM hok) fun _ hp _ hf ↦ hloaded.spellsInput ht hp hf
  · obtain ⟨t, ht, status, fs, hname, hok, hfs⟩ := exists_fields_of_mem_operations hbuild ho
    refine ⟨t, ht, hname, ?_⟩
    rw [hfs, List.forall₂_map_right_iff]
    exact hfields ht hok

end SchemaBindings
