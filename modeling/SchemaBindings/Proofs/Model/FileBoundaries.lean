import SchemaBindings.Proofs.Model.Contexts
import SchemaBindings.Proofs.Schema.Loaded
import SchemaBindings.Proofs.Sdl.Unmarked

namespace SchemaBindings

open Sdl Text Merge

/-- The texts of all files in one, each after the first on a new line. -/
def Sources.joined (name : String) (sources : Sources) : SourceFile :=
  .ofText name (.ofList (joinLines (sources.map SourceFile.chars)))

section Loading

variable {sources sources' : Sources}

theorem load_eq_ok_iff_of_unmarked
    (hparse : ∀ s ∈ sources, (Document.parse? s.chars).map (·.diagnostics) = some [])
    (hmarkers : ∀ s ∈ sources, Unmarked s.chars) (loaded : LoadedSchema) :
    Schema.load sources = .ok loaded ↔ WellFormed sources.definitions ∧
      loaded = ⟨Load.schemaOf sources sources.definitions, ⟨[]⟩⟩ := by
  have hread : Load.readFiles 0 sources = .ok (sources.definitions, []) :=
    readFiles_eq_ok 0 sources hparse fun p hp ↦
      scanMarkers_of_unmarked p.2 (hmarkers p.1 (List.fst_mem_of_mem_zipIdx hp))
  rw [Load.load_eq_ok_iff]
  constructor
  · intro h
    obtain ⟨_, _, hread', hwf, -, rfl⟩ := h
    cases hread.symm.trans hread'
    exact ⟨hwf, rfl⟩
  · intro h
    obtain ⟨hwf, rfl⟩ := h
    exact ⟨_, _, hread, hwf, nofun, rfl⟩

theorem schemaOf_bare (sources : Sources) (definitions : List Placed) :
    (Load.schemaOf sources definitions).bare =
      (Load.schemaOf [] (definitions.map Placed.bare)) := by
  rw [Load.schemaOf, Load.schemaOf, merged_bare, schemaParts_bare, roots_bare, directives_bare]
  rfl

end Loading

section Joining

variable {sources : Sources}

theorem map_bare_definitions (sources : Sources) : sources.definitions.map Placed.bare =
    sources.flatMap fun s ↦ s.definitions.map fun d ↦ (0, d.bare) := by
  have hfiles : sources.definitions.map Placed.bare =
      sources.zipIdx.flatMap fun p ↦ p.1.definitions.map fun d ↦ (0, d.bare) := by
    rw [Sources.definitions, List.map_flatMap]
    simp only [List.map_map]
    rfl
  have hfirst : sources.zipIdx.map Prod.fst = sources := List.zipIdx_map_fst 0 sources
  rw [hfiles]
  conv_rhs => rw [← hfirst, List.flatMap_map]

/-- The texts in one are read as one after the other. -/
theorem exists_parse?_joinLines
    (hparse : ∀ s ∈ sources, (Document.parse? s.chars).map (·.diagnostics) = some []) :
    ∃ ds, ds.map Definition.bare = sources.flatMap (·.definitions.map Definition.bare) ∧
      ∃ span, Document.parse? (joinLines (sources.map SourceFile.chars)) =
        some ⟨⟨ds, span⟩, []⟩ := by
  induction sources with
  | nil => exact ⟨[], rfl, (exists_parse?_iff [] []).mpr ⟨nofun, .nil⟩⟩
  | cons source sources ih =>
    obtain ⟨hfirst, hothers⟩ := List.forall_mem_cons.mp hparse
    obtain ⟨⟨⟨ds, span⟩, _⟩, hd, rfl⟩ := Option.map_eq_some_iff.mp hfirst
    have hdefinitions : source.definitions = ds := by rw [SourceFile.definitions, hd]
    cases sources with
    | nil =>
      refine ⟨ds, by simp [hdefinitions], span, ?_⟩
      rwa [List.map_cons, List.map_nil, joinLines, List.intercalate_singleton]
    | cons second sources =>
      obtain ⟨others, hbare, hjoined⟩ := ih hothers
      obtain ⟨es, he, hboth⟩ := exists_parse?_append ⟨span, hd⟩ hjoined
      refine ⟨ds ++ es, ?_, ?_⟩
      · rw [List.map_append, he, hbare, ← hdefinitions]
        rfl
      · rwa [List.map_cons, List.map_cons, joinLines_cons_cons]

theorem unmarked_joinLines (h : ∀ s ∈ sources, Unmarked s.chars) :
    Unmarked (joinLines (sources.map SourceFile.chars)) := by
  induction sources with
  | nil => exact unmarked_nil
  | cons source sources ih =>
    obtain ⟨hfirst, hothers⟩ := List.forall_mem_cons.mp h
    cases sources with
    | nil => rwa [List.map_cons, List.map_nil, joinLines, List.intercalate_singleton]
    | cons second sources =>
      rw [List.map_cons, List.map_cons, joinLines_cons_cons]
      exact (unmarked_append_iff _ _).mpr ⟨hfirst, ih hothers⟩

theorem chars_joined (name : String) (sources : Sources) :
    (sources.joined name).chars = joinLines (sources.map SourceFile.chars) :=
  String.toList_ofList

theorem parse?_joined (name : String)
    (hparse : ∀ s ∈ sources, (Document.parse? s.chars).map (·.diagnostics) = some []) :
    (Document.parse? (sources.joined name).chars).map (·.diagnostics) = some [] ∧
      (Sources.definitions [sources.joined name]).map Placed.bare =
        sources.definitions.map Placed.bare := by
  obtain ⟨ds, hbare, span, hd⟩ := exists_parse?_joinLines hparse
  rw [← chars_joined name] at hd
  refine ⟨by rw [hd]; rfl, ?_⟩
  have hdefinitions : (sources.joined name).definitions = ds := by rw [SourceFile.definitions, hd]
  have hplaced (ds : List Definition) :
      (ds.map fun d ↦ ((0, d.bare) : Placed)) = (ds.map Definition.bare).map (0, ·) := by
    rw [List.map_map]
    rfl
  rw [map_bare_definitions, map_bare_definitions, List.flatMap_singleton, hdefinitions]
  simp only [hplaced, hbare, List.map_flatMap]

end Joining

/-- Files without faults and markers are loaded exactly if their texts in one are. Then the schemas
are the same but for places, and so are the models but for the names of the files. -/
theorem schema_of_load_joined {sources : Sources} (name : String)
    (hparse : ∀ s ∈ sources, (Document.parse? s.chars).map (·.diagnostics) = some [])
    (hmarkers : ∀ s ∈ sources, Unmarked s.chars) :
    ((∃ loaded, Schema.load sources = .ok loaded) ↔
        ∃ loaded, Schema.load [sources.joined name] = .ok loaded) ∧
      ∀ loaded joined, Schema.load sources = .ok loaded →
        Schema.load [sources.joined name] = .ok joined →
          loaded.schema.bare = joined.schema.bare ∧
            ∀ tables, (Model.build loaded tables).map Model.withoutSources =
              (Model.build joined tables).map Model.withoutSources := by
  obtain ⟨hjoined, hbare⟩ := parse?_joined name hparse
  have hload := load_eq_ok_iff_of_unmarked hparse hmarkers
  have hparse' : ∀ s ∈ [sources.joined name],
      (Document.parse? s.chars).map (·.diagnostics) = some [] := by
    simpa using hjoined
  have hmarkers' : ∀ s ∈ [sources.joined name], Unmarked s.chars := by
    simpa [chars_joined] using unmarked_joinLines hmarkers
  have hload' := load_eq_ok_iff_of_unmarked hparse' hmarkers'
  have hwf : WellFormed sources.definitions ↔
      WellFormed (Sources.definitions [sources.joined name]) := by
    rw [← wellFormed_bare_iff, ← hbare, wellFormed_bare_iff]
  have hschema : (Load.schemaOf sources sources.definitions).bare =
      (Load.schemaOf [sources.joined name] (Sources.definitions [sources.joined name])).bare := by
    rw [schemaOf_bare, schemaOf_bare, hbare]
  constructor
  · simp only [hload, hload', exists_and_left, exists_eq, and_true]
    exact hwf
  · intro loaded joined h h'
    obtain ⟨-, rfl⟩ := (hload _).mp h
    obtain ⟨-, rfl⟩ := (hload' _).mp h'
    refine ⟨hschema, fun tables ↦ ?_⟩
    rw [← Model.build_bare, hschema, Model.build_bare]

def petSources : Sources :=
  [.ofText "cats.graphql"
      "type Query \x7b pet: Pet \x7d type Cat \x7b age: Int \x7d union Pet = Cat # and dogs",
    .ofText "dogs.graphql" "extend union Pet = | Dog\ntype Dog \x7b friend: Pet \x7d"]

theorem schema_petSources :
    (∀ s ∈ petSources, (Document.parse? s.chars).map (·.diagnostics) = some []) ∧
      (∀ s ∈ petSources, Unmarked s.chars) ∧
      ((∃ loaded, Schema.load petSources = .ok loaded) ↔
        ∃ loaded, Schema.load [petSources.joined "pets.graphql"] = .ok loaded) ∧
      ∀ loaded joined, Schema.load petSources = .ok loaded →
        Schema.load [petSources.joined "pets.graphql"] = .ok joined →
          loaded.schema.bare = joined.schema.bare ∧
            ∀ tables, (Model.build loaded tables).map Model.withoutSources =
              (Model.build joined tables).map Model.withoutSources := by
  have hparse : ∀ s ∈ petSources, (Document.parse? s.chars).map (·.diagnostics) = some [] := by
    decide +kernel
  have hmarkers : ∀ s ∈ petSources, Unmarked s.chars := by decide +kernel
  exact ⟨hparse, hmarkers, schema_of_load_joined "pets.graphql" hparse hmarkers⟩

end SchemaBindings
