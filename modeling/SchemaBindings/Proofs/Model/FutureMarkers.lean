import SchemaBindings.Proofs.Model.Relaxing
import SchemaBindings.Proofs.Model.SchemaExtensions
import SchemaBindings.Proofs.Schema.Annotations
import SchemaBindings.Proofs.Sdl.Overwriting

namespace SchemaBindings

open Sdl

/-- The files with some of their comments overwritten, given the new comments of each file. -/
def Sources.overwrite (sources : Sources) (edits : Nat → Edits) : Sources :=
  sources.zipIdx.map fun p ↦ p.1.overwrite (edits p.2)

/-- The markers that are on none of the lines that are overwritten. -/
def Sdl.MarkerTable.without (t : MarkerTable) (edits : Nat → Edits) : MarkerTable :=
  ⟨t.markers.filter fun m ↦ (edits m.file m.commentLine).isNone⟩

def LoadedSchema.overwrite (s : LoadedSchema) (edits : Nat → Edits) : LoadedSchema :=
  ⟨{ s.schema with sources := s.schema.sources.overwrite edits }, s.markers.without edits⟩

section Reading

variable {kind : MarkerKind} {file : Nat} {definitions : List Placed} {markers : List Marker}

theorem readFile_overwrite {source : SourceFile} {edits : Edits} (h : source.Unmarks kind edits)
    (hflag : KeepsFlag file source edits)
    (hread : Load.readFile file source = .ok (definitions, markers)) :
    Load.readFile file (source.overwrite edits) =
      .ok (definitions, markers.filter fun m ↦ (edits m.commentLine).isNone) := by
  obtain ⟨hparse, rfl, -⟩ := eq_ok_of_readFile hread
  have hscan := scanMarkers_overwrite h hflag (scanMarkers_of_readFile hread)
  have hparse' := parse?_overwrite h hparse
  obtain ⟨parsed, hd, hnone⟩ := Option.map_eq_some_iff.mp hparse
  have hdefinitions : source.definitions = parsed.document.definitions := by
    rw [SourceFile.definitions, hd]
  simp [Load.readFile, hparse', hd, hnone, hscan, hdefinitions]

theorem readFiles_overwrite {sources : Sources} {edits : Nat → Edits}
    (h : ∀ p ∈ sources.zipIdx file, p.1.Unmarks kind (edits p.2) ∧ KeepsFlag p.2 p.1 (edits p.2))
    (hread : Load.readFiles file sources = .ok (definitions, markers)) :
    Load.readFiles file ((sources.zipIdx file).map fun p ↦ p.1.overwrite (edits p.2)) =
      .ok (definitions, markers.filter fun m ↦ (edits m.file m.commentLine).isNone) := by
  induction sources generalizing file definitions markers with
  | nil =>
    cases hread
    rfl
  | cons source sources ih =>
    rw [List.zipIdx_cons] at h ⊢
    obtain ⟨⟨hunmarks, hflag⟩, hrest⟩ := List.forall_mem_cons.mp h
    obtain ⟨⟨own, found⟩, ⟨others, found'⟩, hown, hothers, he⟩ :=
      readFiles_cons_eq_ok_iff.mp hread
    obtain ⟨rfl, rfl⟩ := Prod.mk.inj he
    have hfile : (found.filter fun m ↦ (edits file m.commentLine).isNone) =
        found.filter fun m ↦ (edits m.file m.commentLine).isNone := by
      refine List.filter_congr fun m hm ↦ ?_
      rw [(commentLine_lt_of_scanMarkers (scanMarkers_of_readFile hown) hm).1]
    refine readFiles_cons_eq_ok_iff.mpr
      ⟨_, _, readFile_overwrite hunmarks hflag hown, ih hrest hothers, ?_⟩
    rw [hfile, List.filter_append]

end Reading

section Places

variable {sources : Sources} {edits : Nat → Edits}
  (h : ∀ p ∈ sources.zipIdx, (edits p.2).Fit p.1.lines)

include h

theorem place_overwrite (file offset : Nat) :
    ((sources.overwrite edits).file file).opensLine offset =
        (sources.file file).opensLine offset ∧
      ((sources.overwrite edits).file file).lineOf offset =
        (sources.file file).lineOf offset := by
  simp only [Sources.overwrite, Sources.file, List.getD_eq_getElem?_getD, List.getElem?_map,
    List.getElem?_zipIdx, Option.map_map]
  cases hsource : sources[file]? with
  | none => exact ⟨rfl, rfl⟩
  | some source =>
    have hfit := h (source, file) (List.mem_zipIdx_iff_getElem?.mpr hsource)
    simp only [Option.map_some, Function.comp_apply, Nat.zero_add, Option.getD_some]
    exact ⟨SourceFile.opensLine_overwrite hfit offset, SourceFile.lineOf_overwrite hfit offset⟩

theorem markableLines_overwrite {s s' : Schema} (hs : s.sources = sources)
    (hs' : s'.sources = sources.overwrite edits) (htypes : s'.types = s.types) :
    Load.markableLines s' = Load.markableLines s := by
  rw [Load.markableLines, Load.markableLines, htypes, hs, hs']
  refine List.filterMap_congr fun p _ ↦ ?_
  obtain ⟨file, offset⟩ := p
  obtain ⟨hopens, hline⟩ := place_overwrite h file offset
  simp only [hopens, hline]

theorem has_overwrite (t : MarkerTable) (file offset : Nat) (kind : MarkerKind) :
    t.has file ((sources.overwrite edits).file file) offset kind =
      t.has file (sources.file file) offset kind := by
  obtain ⟨hopens, hline⟩ := place_overwrite h file offset
  rw [MarkerTable.has, MarkerTable.has, MarkerTable.forDeclaration, MarkerTable.forDeclaration,
    hopens, hline]

end Places

section Without

variable {t : MarkerTable} {edits : Nat → Edits} {file offset : Nat} {source : SourceFile}
  {kind : MarkerKind}

theorem has_iff : t.has file source offset kind = true ↔ source.opensLine offset = true ∧
    ∃ m ∈ t.markers, m.file = file ∧ m.targetLine = source.lineOf offset ∧ m.kind = kind := by
  rw [MarkerTable.has, MarkerTable.forDeclaration]
  split
  next hopens => simp [MarkerTable.get, hopens, and_assoc]
  next hopens => simp [hopens]

theorem has_of_has_without (h : (t.without edits).has file source offset kind = true) :
    t.has file source offset kind = true := by
  obtain ⟨hopens, m, hm, hmarker⟩ := has_iff.mp h
  exact has_iff.mpr ⟨hopens, m, List.mem_of_mem_filter hm, hmarker⟩

theorem has_without_of_kind_ne
    (h : ∀ m ∈ t.markers, (edits m.file m.commentLine).isSome → m.kind ≠ kind) :
    (t.without edits).has file source offset kind = t.has file source offset kind := by
  rw [Bool.eq_iff_iff]
  refine ⟨has_of_has_without, fun hold ↦ ?_⟩
  obtain ⟨hopens, m, hm, hmfile, hline, hkind⟩ := has_iff.mp hold
  refine has_iff.mpr ⟨hopens, m, List.mem_filter.mpr ⟨hm, ?_⟩, hmfile, hline, hkind⟩
  rw [← Option.not_isSome, Bool.not_eq_true']
  exact Bool.eq_false_iff.mpr fun hsome ↦ h m hm hsome hkind

end Without

theorem names_overwrite (sources : Sources) (edits : Nat → Edits) :
    (sources.overwrite edits).map (·.name) = sources.map (·.name) := by
  have hname : ((·.name) ∘ fun p : SourceFile × Nat ↦ p.1.overwrite (edits p.2)) =
      (·.name) ∘ Prod.fst := rfl
  rw [Sources.overwrite, List.map_map, hname, ← List.map_map, List.zipIdx_map_fst]

theorem Loaded.kind_of_overwritten {sources : Sources} {loaded : LoadedSchema} {kind : MarkerKind}
    {edits : Nat → Edits} (hloaded : Loaded sources loaded)
    (h : ∀ p ∈ sources.zipIdx, p.1.Unmarks kind (edits p.2)) {m : Marker}
    (hm : m ∈ loaded.markers.markers) (hsome : (edits m.file m.commentLine).isSome) :
    m.kind = kind := by
  obtain ⟨p, hp, found, hscan, hfound⟩ := hloaded.scanned m hm
  rw [(commentLine_lt_of_scanMarkers hscan hfound).1] at hsome
  exact Sdl.kind_of_overwritten (h p hp) hscan hfound hsome

theorem load_overwrite {sources : Sources} {edits : Nat → Edits} {loaded : LoadedSchema}
    {kind : MarkerKind} (h : ∀ p ∈ sources.zipIdx, p.1.Unmarks kind (edits p.2))
    (hflag : ∀ p ∈ sources.zipIdx, KeepsFlag p.2 p.1 (edits p.2))
    (hload : Schema.load sources = .ok loaded) :
    Schema.load (sources.overwrite edits) = .ok (loaded.overwrite edits) := by
  obtain ⟨definitions, markers, hread, hwf, hattached, rfl⟩ := (Load.load_eq_ok_iff _ _).mp hload
  have hread' := readFiles_overwrite (fun p hp ↦ ⟨h p hp, hflag p hp⟩) hread
  have hlines : Load.markableLines (Load.schemaOf (sources.overwrite edits) definitions) =
      Load.markableLines (Load.schemaOf sources definitions) :=
    markableLines_overwrite (fun p hp ↦ (h p hp).fit) rfl rfl rfl
  refine (Load.load_eq_ok_iff _ _).mpr ⟨_, _, hread', hwf, fun m hm ↦ ?_, rfl⟩
  rw [hlines]
  exact hattached m (List.mem_of_mem_filter hm)

/-- Future markers of files that have a model can be overwritten by comments of the same length that
are no markers. The files still have a model. In it some statuses change from future to stable, and
nothing else does. -/
theorem relaxesTo_of_overwrite {sources : Sources} {edits : Nat → Edits} {loaded : LoadedSchema}
    {tables : Tables} {m : Model} (h : ∀ p ∈ sources.zipIdx, p.1.Unmarks .future (edits p.2))
    (hflag : ∀ p ∈ sources.zipIdx, KeepsFlag p.2 p.1 (edits p.2))
    (hload : Schema.load sources = .ok loaded) (hbuild : Model.build loaded tables = .ok m) :
    ∃ loaded' m', Schema.load (sources.overwrite edits) = .ok loaded' ∧
      Model.build loaded' tables = .ok m' ∧ m.RelaxesTo m' := by
  have hloaded := loaded_of_load hload
  have hplaces (t : MarkerTable) (file offset : Nat) (kind : MarkerKind) :
      t.has file ((loaded.schema.sources.overwrite edits).file file) offset kind =
        t.has file (loaded.schema.sources.file file) offset kind := by
    refine has_overwrite (fun p hp ↦ ?_) t file offset kind
    exact (h p (hloaded.sources_eq ▸ hp)).fit
  -- Only future markers go, so the same types stand for unions.
  have hunion : ∀ marker ∈ loaded.markers.markers,
      (edits marker.file marker.commentLine).isSome → marker.kind ≠ .union := by
    intro marker hmarker hsome
    rw [hloaded.kind_of_overwritten h hmarker hsome]
    decide
  have hrefines : Attempt.Refines Model.RelaxesTo (Model.build loaded tables)
      (Model.build (loaded.overwrite edits) tables) := by
    refine Model.refines_build ?_ ?_ ?_ (fun file offset ↦ ?_) (fun file offset hnew ↦ ?_) tables
    · exact (names_overwrite _ _).symm
    · rfl
    · rfl
    · exact ((hplaces _ file offset .union).trans (has_without_of_kind_ne hunion)).symm
    · exact has_of_has_without ((hplaces _ file offset .future).symm.trans hnew)
  obtain ⟨m', hbuild', hrelaxes⟩ := hrefines m hbuild
  exact ⟨_, m', load_overwrite h hflag hload, hbuild', hrelaxes⟩

def betaSources : Sources :=
  [.ofText "query.graphql" "# Future\ntype Query \x7b user: User \x7d\n",
    .ofText "user.graphql" "type User \x7b\n  id: ID\n  # future: soon\n  name: String\n\x7d\n"]

def releaseEdits (file number : Nat) : Option (List Char) :=
  if (file, number) = (0, 1) then some " Public".toList
  else if (file, number) = (1, 3) then some " since 1.12.0".toList
  else none

theorem relaxesTo_betaSources :
    (∀ p ∈ betaSources.zipIdx, p.1.Unmarks .future (releaseEdits p.2)) ∧
      (∀ p ∈ betaSources.zipIdx, KeepsFlag p.2 p.1 (releaseEdits p.2)) ∧
      ∃ loaded m, Schema.load betaSources = .ok loaded ∧ Model.build loaded .empty = .ok m ∧
        ∃ loaded' m', Schema.load (betaSources.overwrite releaseEdits) = .ok loaded' ∧
          Model.build loaded' .empty = .ok m' ∧ m.RelaxesTo m' := by
  have hparse : ∀ p ∈ betaSources.zipIdx,
      (Document.parse? p.1.chars).map (·.diagnostics) = some [] := by
    decide +kernel
  have hlines : ∀ p ∈ betaSources.zipIdx, ∀ line ∈ p.1.lines,
      ∀ body ∈ releaseEdits p.2 line.number, Text.FitsComment body line.text ∧
        markerText? line.text = some .future ∧ ¬ InToken p.1.chars line.start ∧
          markerText? (Text.overwriteComment body line.text) = none := by
    decide +kernel
  have hfound : ∀ p ∈ betaSources.zipIdx, Attempt.succeeds (scanMarkers p.2 p.1) (fun markers ↦
      ∀ line ∈ p.1.lines, (releaseEdits p.2 line.number).isSome →
        ∃ m ∈ markers, m.commentLine = line.number) = true := by
    decide +kernel
  have hrun : Attempt.succeeds (Schema.load betaSources) (fun loaded ↦
      Attempt.succeeds (Model.build loaded .empty) fun _ ↦ true) = true := by
    decide +kernel
  obtain ⟨loaded, hload, hrun⟩ := (Attempt.succeeds_iff _ _).mp hrun
  obtain ⟨m, hbuild, -⟩ := (Attempt.succeeds_iff _ _).mp hrun
  have hunmarks : ∀ p ∈ betaSources.zipIdx, p.1.Unmarks .future (releaseEdits p.2) :=
    fun p hp ↦ (unmarks_iff (not_isFault_of_parse? (hparse p hp))).mpr (hlines p hp)
  have hflag : ∀ p ∈ betaSources.zipIdx, KeepsFlag p.2 p.1 (releaseEdits p.2) := by
    intro p hp
    obtain ⟨markers, hscan, hmarkers⟩ := (Attempt.succeeds_iff _ _).mp (hfound p hp)
    exact keepsFlag_of_found hscan (of_decide_eq_true hmarkers)
  exact ⟨hunmarks, hflag, loaded, m, hload, hbuild,
    relaxesTo_of_overwrite hunmarks hflag hload hbuild⟩

/-- Two markers after a block string that holds a number sign. -/
def numberedSource : SourceFile :=
  .ofText "numbered.graphql" ("\"\"\"Issue #12\"\"\"\ntype A \x7b a: Int \x7d\n# Future\n" ++
    "type B \x7b b: Int \x7d\n# Future\ntype C \x7b c: Int \x7d\n")

def quotingEdits (_file number : Nat) : Option (List Char) :=
  if number = 3 then some " \"\"\"abc".toList else none

/-- The scan takes the rest of the file for a part of the block string until the new comment ends
it. Then the second marker is found that was not found before. -/
theorem not_relaxesTo_numberedSource : ∃ loaded loaded' m m',
    Schema.load [numberedSource] = .ok loaded ∧ Model.build loaded .empty = .ok m ∧
      (∀ p ∈ List.zipIdx [numberedSource], p.1.Unmarks .future (quotingEdits p.2)) ∧
      Schema.load (Sources.overwrite [numberedSource] quotingEdits) = .ok loaded' ∧
      Model.build loaded' .empty = .ok m' ∧ ¬ m.RelaxesTo m' := by
  have hparse : (Document.parse? numberedSource.chars).map (·.diagnostics) = some [] := by
    decide +kernel
  have hlines : ∀ line ∈ numberedSource.lines, ∀ body ∈ quotingEdits 0 line.number,
      Text.FitsComment body line.text ∧ markerText? line.text = some .future ∧
        ¬ InToken numberedSource.chars line.start ∧
          markerText? (Text.overwriteComment body line.text) = none := by
    decide +kernel
  have hrun : Attempt.succeeds (Schema.load [numberedSource]) (fun loaded ↦
      Attempt.succeeds (Model.build loaded .empty) fun m ↦
        m.objects.map (·.status) = [.stable, .stable, .stable]) = true := by
    decide +kernel
  have hrun' : Attempt.succeeds (Schema.load (Sources.overwrite [numberedSource] quotingEdits))
      (fun loaded ↦ Attempt.succeeds (Model.build loaded .empty) fun m ↦
        m.objects.map (·.status) = [.stable, .stable, .future]) = true := by
    decide +kernel
  obtain ⟨loaded, hload, hrun⟩ := (Attempt.succeeds_iff _ _).mp hrun
  obtain ⟨m, hbuild, hold⟩ := (Attempt.succeeds_iff _ _).mp hrun
  obtain ⟨loaded', hload', hrun'⟩ := (Attempt.succeeds_iff _ _).mp hrun'
  obtain ⟨m', hbuild', hnew⟩ := (Attempt.succeeds_iff _ _).mp hrun'
  have hunmarks : numberedSource.Unmarks .future (quotingEdits 0) :=
    (unmarks_iff (not_isFault_of_parse? hparse)).mpr hlines
  refine ⟨loaded, loaded', m, m', hload, hbuild, ?_, hload', hbuild', fun h ↦ ?_⟩
  · intro p hp
    obtain rfl := List.mem_singleton.mp hp
    exact hunmarks
  · have hstatus : List.Forall₂ Model.Status.RelaxesTo (m.objects.map (·.status))
        (m'.objects.map (·.status)) := by
      rw [List.forall₂_map_left_iff, List.forall₂_map_right_iff]
      exact h.objects.imp fun _ _ hr ↦ hr.status
    rw [of_decide_eq_true hold, of_decide_eq_true hnew] at hstatus
    simp only [List.forall₂_cons] at hstatus
    exact absurd hstatus.2.2.1 (by decide)

end SchemaBindings
