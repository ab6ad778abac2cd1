import SchemaBindings.Proofs.Schema.Declarations
import SchemaBindings.Proofs.Schema.Loaded
import SchemaBindings.Proofs.Sdl.Attachment
import SchemaBindings.Proofs.Source.Openings

namespace SchemaBindings

open Sdl

def LoadedSchema.markersOf (s : LoadedSchema) (d : Declaration) : List Marker :=
  s.markers.forDeclaration d.file (s.schema.sources.file d.file) d.start

def LoadedSchema.annotated (s : LoadedSchema) (m : Marker) : List Declaration :=
  s.schema.declared.filter fun d ↦ m ∈ s.markersOf d

theorem filter_eq_singleton {α β : Type} {f : α → β} {p : α → Bool} {as : List α} {a : α}
    (hnd : (as.map f).Nodup) (ha : a ∈ as) (hp : p a = true)
    (hf : ∀ b ∈ as, p b = true → f b = f a) : as.filter p = [a] := by
  have hfilter : (as.filter p).Nodup := (List.Nodup.of_map f hnd).filter p
  refine List.perm_singleton.mp
    ((List.perm_ext_iff_of_nodup hfilter (List.nodup_singleton a)).mpr fun b ↦ ?_)
  rw [List.mem_filter, List.mem_singleton]
  constructor
  · intro h
    obtain ⟨hb, hpb⟩ := h
    exact List.inj_on_of_nodup_map hnd hb ha (hf b hb hpb)
  · rintro rfl
    exact ⟨ha, hp⟩

section Annotated

variable {sources : Sources} {s : LoadedSchema} {m : Marker} {d d' : Declaration}

theorem mem_markersOf_iff :
    m ∈ s.markersOf d ↔ (s.schema.sources.file d.file).opensLine d.start = true ∧
      m ∈ s.markers.markers ∧ m.file = d.file ∧
        m.targetLine = (s.schema.sources.file d.file).lineOf d.start := by
  rw [LoadedSchema.markersOf, MarkerTable.forDeclaration]
  split
  next h => simp [MarkerTable.get, h]
  next h => simp [h]

theorem Loaded.exists_annotated (h : Loaded sources s) (hm : m ∈ s.markers.markers) :
    ∃ d ∈ s.schema.declared, m ∈ s.markersOf d := by
  have hline := h.attached m hm
  rw [Load.markableLines, ← Schema.map_place_declared] at hline
  obtain ⟨place, hplace, hopens⟩ := List.mem_filterMap.mp hline
  obtain ⟨d, hd, rfl⟩ := List.mem_map.mp hplace
  obtain ⟨hopens, he⟩ := Option.ite_none_right_eq_some.mp hopens
  obtain ⟨hfile, hline⟩ := Prod.mk.inj (Option.some.inj he)
  exact ⟨d, hd, mem_markersOf_iff.mpr ⟨hopens, hm, hfile.symm, hline.symm⟩⟩

/-- Declarations that a marker is for start at the same place, since only one character that is no
blank opens a line. -/
theorem Loaded.place_eq (h : Loaded sources s) (hd : d ∈ s.schema.declared)
    (hd' : d' ∈ s.schema.declared) (hm : m ∈ s.markersOf d) (hm' : m ∈ s.markersOf d') :
    d.place = d'.place := by
  obtain ⟨hopens, -, hfile, hline⟩ := mem_markersOf_iff.mp hm
  obtain ⟨hopens', -, hfile', hline'⟩ := mem_markersOf_iff.mp hm'
  have hsame : d.file = d'.file := hfile.symm.trans hfile'
  have hstarts (d : Declaration) (hd : d ∈ s.schema.declared) :
      ∃ pre c rest, (sources.file d.file).chars = pre ++ c :: rest ∧
        d.start = Text.byteLength pre ∧ ¬ Text.isBlank c := by
    refine exists_char_of_mem_places h.parsed ?_
    refine (Schema.place_perm h.wellFormed h.types_eq).subset ?_
    exact List.mem_map_of_mem hd
  have hstart := hstarts d hd
  have hstart' := hstarts d' hd'
  rw [h.sources_eq] at hopens hopens' hline hline'
  rw [← hsame] at hopens' hline' hstart'
  have he := SourceFile.eq_of_opensLine hopens hopens' (hline.symm.trans hline') hstart hstart'
  rw [Declaration.place, Declaration.place, hsame, he]

theorem Loaded.commentLine_lt (h : Loaded sources s) (hm : m ∈ s.markers.markers) :
    m.commentLine < m.targetLine := by
  obtain ⟨p, -, found, hscan, hfound⟩ := h.scanned m hm
  exact (commentLine_lt_of_scanMarkers hscan hfound).2

theorem Loaded.annotated_eq (h : Loaded sources s) (hd : d ∈ s.schema.declared)
    (hm : m ∈ s.markersOf d) : s.annotated m = [d] := by
  have hnd : (s.schema.declared.map Declaration.place).Nodup :=
    (Schema.place_perm h.wellFormed h.types_eq).nodup_iff.mpr (nodup_places h.parsed)
  refine filter_eq_singleton hnd hd (decide_eq_true hm) fun d' hd' hm' ↦ ?_
  exact h.place_eq hd' hd (of_decide_eq_true hm') hm

end Annotated

/-- Every marker of a loaded schema is for exactly one of its declarations, which stands in the
marker's file on a line after the comment. -/
theorem annotated_eq_singleton_of_load {sources : Sources} {loaded : LoadedSchema}
    (hload : Schema.load sources = .ok loaded) {m : Marker} (hm : m ∈ loaded.markers.markers) :
    ∃ d, loaded.annotated m = [d] ∧ d.file = m.file ∧
      m.commentLine < (sources.file d.file).lineOf d.start := by
  have h := loaded_of_load hload
  obtain ⟨d, hd, hmd⟩ := h.exists_annotated hm
  obtain ⟨-, -, hfile, hline⟩ := mem_markersOf_iff.mp hmd
  refine ⟨d, h.annotated_eq hd hmd, hfile.symm, ?_⟩
  rw [← h.sources_eq, ← hline]
  exact h.commentLine_lt hm

def markedSources : Sources :=
  [.ofText "animal.graphql" ("type Query \x7b a: Animal \x7d\n# => Union\n" ++
      "type Animal \x7b cat: Cat \x7d\ntype Cat \x7b name: String \x7d\n"),
    .ofText "cat.graphql" "extend type Cat \x7b\n  # Future\n  age: Int\n\x7d\n"]

theorem annotated_markedSources :
    ∃ loaded, Schema.load markedSources = .ok loaded ∧
      ⟨.future, 1, 2, 3, ⟨20, 28⟩⟩ ∈ loaded.markers.markers ∧
      ∃ d, loaded.annotated ⟨.future, 1, 2, 3, ⟨20, 28⟩⟩ = [d] ∧ d.file = 1 ∧
        2 < (markedSources.file d.file).lineOf d.start := by
  have hrun : Attempt.succeeds (Schema.load markedSources)
      (fun s ↦ decide (⟨.future, 1, 2, 3, ⟨20, 28⟩⟩ ∈ s.markers.markers)) = true := by
    decide +kernel
  obtain ⟨loaded, hload, hm⟩ := (Attempt.succeeds_iff _ _).mp hrun
  have hm := of_decide_eq_true hm
  exact ⟨loaded, hload, hm, annotated_eq_singleton_of_load hload hm⟩

end SchemaBindings
