import SchemaBindings.Proofs.Schema.Operations
import SchemaBindings.Proofs.Schema.Validity
import SchemaBindings.Schema.Load

namespace SchemaBindings

open Sdl Merge

def SourceFile.definitions (source : SourceFile) : List Definition :=
  match Document.parse? source.chars with
  | some parsed => parsed.document.definitions
  | none => []

def Sources.definitions (sources : Sources) : List Placed :=
  sources.zipIdx.flatMap fun p ↦ p.1.definitions.map (p.2, ·)

section Merged

variable {definitions : List Placed}

theorem names_merged : (merged definitions).map (·.name) =
    (declarations definitions).map (·.definition.name.text) := by
  rw [merged, List.map_map]
  rfl

theorem kind_of_mem_parts
    (hnd : ((declarations definitions).map (·.definition.name.text)).Nodup)
    (hext : ∀ e ∈ extensions definitions, ∃ d ∈ declarations definitions,
      d.definition.name.text = e.definition.name.text ∧ d.definition.kind = e.definition.kind) :
    ∀ t ∈ merged definitions, ∀ p ∈ t.parts, p.definition.kind = t.kind := by
  intro t ht p hp
  obtain ⟨d, hd, rfl⟩ := List.mem_map.mp ht
  rcases List.mem_cons.mp hp with rfl | hp
  · rfl
  · obtain ⟨hmem, hname⟩ := List.mem_filter.mp hp
    obtain ⟨d', hd', hname', hkind⟩ := hext p hmem
    have he : d = d' := List.inj_on_of_nodup_map hnd hd hd' (by simp_all)
    rw [← hkind, ← he]
    rfl

theorem isObjectName_merged
    (hnd : ((declarations definitions).map (·.definition.name.text)).Nodup) (name : String) :
    IsObjectName (merged definitions) name ↔
      ∃ d ∈ declarations definitions, d.definition.name.text = name ∧
        d.definition.kind = .object := by
  have hn : ((merged definitions).map (·.name)).Nodup := by rwa [names_merged]
  simp only [IsObjectName, Option.map_eq_some_iff, findType?_eq_some_iff hn, and_assoc]
  simp only [merged, List.mem_map, exists_exists_and_eq_and, SchemaType.name_mk,
    SchemaType.kind_mk]

theorem issues_merged_eq_nil_iff
    (hnd : ((declarations definitions).map (·.definition.name.text)).Nodup)
    (hb : ∀ d ∈ declarations definitions, d.definition.name.text ∉ builtinScalars)
    (hext : ∀ e ∈ extensions definitions, ∃ d ∈ declarations definitions,
      d.definition.name.text = e.definition.name.text ∧ d.definition.kind = e.definition.kind) :
    (roots (merged definitions) (schemaParts definitions)).issues ++
        validate (merged definitions) = [] ↔ WellFormed definitions := by
  have hn : ((merged definitions).map (·.name)).Nodup := by rwa [names_merged]
  have hb' : ∀ t ∈ merged definitions, t.name ∉ builtinScalars := by
    intro t ht
    obtain ⟨d, hd, rfl⟩ := List.mem_map.mp ht
    exact hb d hd
  rw [List.append_eq_nil_iff, issues_roots_eq_nil_iff,
    Validation.validate_eq_nil_iff hn hb' (kind_of_mem_parts hnd hext)]
  simp only [isObjectName_merged hnd]
  constructor
  · intro h'
    obtain ⟨⟨hone, hops, hobj⟩, htypes, hac⟩ := h'
    exact ⟨hnd, hb, hext, hone, hops, hobj, htypes, hac⟩
  · intro h
    exact ⟨⟨h.one_schema, h.operations_nodup, h.operations_objects⟩, h.types, h.acyclic⟩

/-- Merging and checking succeed exactly on well-formed definitions. -/
theorem merge_eq_ok_iff (sources : Sources) (schema : Schema) :
    Load.merge sources definitions = .ok schema ↔ WellFormed definitions ∧
      schema = ⟨sources, merged definitions,
        (roots (merged definitions) (schemaParts definitions)).roots,
        Merge.directives definitions⟩ := by
  constructor
  · intro h
    obtain ⟨ts, hts, h⟩ := (Attempt.bind_eq_ok_iff _ _ _).mp h
    obtain ⟨hb, hnd, hext, rfl⟩ := (types_eq_ok_iff _ _).mp hts
    simp only at h
    split at h
    next hissues =>
      cases h
      exact ⟨(issues_merged_eq_nil_iff hnd hb hext).mp (List.isEmpty_iff.mp hissues), rfl⟩
    next => cases h
  · intro h'
    obtain ⟨h, rfl⟩ := h'
    have hissues := (issues_merged_eq_nil_iff h.names_nodup h.names_new h.extended).mpr h
    refine (Attempt.bind_eq_ok_iff _ _ _).mpr ⟨_, (types_eq_ok_iff _ _).mpr
      ⟨h.names_new, h.names_nodup, h.extended, rfl⟩, ?_⟩
    simp only [hissues]
    rfl

end Merged

theorem readFiles_eq_ok (file : Nat) (sources : Sources)
    (hparse : ∀ s ∈ sources, (Document.parse? s.chars).map (·.diagnostics) = some [])
    (hmarkers : ∀ p ∈ sources.zipIdx file, scanMarkers p.2 p.1 = .ok []) :
    Load.readFiles file sources = .ok
      ((sources.zipIdx file).flatMap fun p ↦ p.1.definitions.map (p.2, ·), []) := by
  induction sources generalizing file with
  | nil => rfl
  | cons s sources ih =>
    have hfirst : Load.readFile file s = .ok (s.definitions.map (file, ·), []) := by
      obtain ⟨parsed, hp, hd⟩ := Option.map_eq_some_iff.mp (hparse s (by simp))
      have hm := hmarkers (s, file) (by simp)
      simp [Load.readFile, SourceFile.definitions, hp, hd, hm]
    have hrest := ih (file + 1) (fun t ht ↦ hparse t (by simp [ht]))
      (fun p hp ↦ hmarkers p (by simp [hp]))
    simp [Load.readFiles, hfirst, hrest, bind, Except.bind, pure, Except.pure]

theorem detached?_nil (s : Schema) : Load.detached? s [] = none := rfl

/-- Files that can be read and hold no marker are loaded exactly if their definitions make up a
schema. -/
theorem exists_load_eq_ok_iff_wellFormed (sources : Sources)
    (hparse : ∀ s ∈ sources, (Document.parse? s.chars).map (·.diagnostics) = some [])
    (hmarkers : ∀ p ∈ sources.zipIdx, scanMarkers p.2 p.1 = .ok []) :
    (∃ loaded, Schema.load sources = .ok loaded) ↔ WellFormed sources.definitions := by
  have hread : Load.readFiles 0 sources = .ok (sources.definitions, []) :=
    readFiles_eq_ok 0 sources hparse hmarkers
  have hload : ∀ loaded, Schema.load sources = .ok loaded ↔
      ∃ schema, Load.merge sources sources.definitions = .ok schema ∧ loaded = ⟨schema, ⟨[]⟩⟩ := by
    intro loaded
    unfold Schema.load
    rw [hread]
    cases hm : Load.merge sources sources.definitions with
    | error e => simp [bind, Except.bind, hm]
    | ok schema => simp [bind, Except.bind, hm, detached?_nil, pure, Except.pure, eq_comm]
  simp only [hload, merge_eq_ok_iff]
  constructor
  · intro h'
    obtain ⟨-, -, ⟨h, -⟩, -⟩ := h'
    exact h
  · exact fun h ↦ ⟨_, _, ⟨h, rfl⟩, rfl⟩

def splitSources : Sources :=
  [.ofText "query.graphql" "type Query \x7b find(by: Filter): Node \x7d interface Node \x7b id: ID! \x7d",
    .ofText "node.graphql"
      "extend interface Node \x7b next: Node \x7d input Filter \x7b any: [Filter!]! not: Filter \x7d"]

theorem wellFormed_splitSources :
    (∀ s ∈ splitSources, (Document.parse? s.chars).map (·.diagnostics) = some []) ∧
      (∀ p ∈ splitSources.zipIdx, scanMarkers p.2 p.1 = .ok []) ∧
      (∃ loaded, Schema.load splitSources = .ok loaded) ∧ WellFormed splitSources.definitions := by
  have hparse : ∀ s ∈ splitSources, (Document.parse? s.chars).map (·.diagnostics) = some [] := by
    decide +kernel
  have hmarkers : ∀ p ∈ splitSources.zipIdx, scanMarkers p.2 p.1 = .ok [] := by decide +kernel
  have hload : ∃ loaded, Schema.load splitSources = .ok loaded := by
    have hrun : Attempt.succeeds (Schema.load splitSources) (fun _ ↦ true) = true := by
      decide +kernel
    obtain ⟨loaded, h, -⟩ := (Attempt.succeeds_iff _ _).mp hrun
    exact ⟨loaded, h⟩
  exact ⟨hparse, hmarkers, hload,
    (exists_load_eq_ok_iff_wellFormed splitSources hparse hmarkers).mp hload⟩

end SchemaBindings
