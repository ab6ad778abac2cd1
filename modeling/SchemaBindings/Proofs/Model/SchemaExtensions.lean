import SchemaBindings.Proofs.Model.Contexts
import SchemaBindings.Proofs.Model.Outlines
import SchemaBindings.Proofs.Sdl.Unmarked

namespace SchemaBindings

open Sdl Merge

section Inserting

variable {front back : List Placed} {file : Nat} {x : SchemaDefinition}

theorem filterMap_insert {α : Type} {select : Placed → Option α}
    (h : select (file, .schemaExtension x) = none) :
    (front ++ (file, .schemaExtension x) :: back).filterMap select =
      (front ++ back).filterMap select := by
  rw [List.filterMap_append, List.filterMap_append, List.filterMap_cons_none h]

theorem declarations_insert : declarations (front ++ (file, .schemaExtension x) :: back) =
    declarations (front ++ back) :=
  filterMap_insert rfl

theorem extensions_insert : extensions (front ++ (file, .schemaExtension x) :: back) =
    extensions (front ++ back) :=
  filterMap_insert rfl

theorem directives_insert : Merge.directives (front ++ (file, .schemaExtension x) :: back) =
    Merge.directives (front ++ back) :=
  filterMap_insert rfl

theorem merged_insert : merged (front ++ (file, .schemaExtension x) :: back) =
    merged (front ++ back) := by
  rw [merged, merged, declarations_insert, extensions_insert]

theorem schemaParts_append : schemaParts (front ++ back) = schemaParts front ++ schemaParts back :=
  List.filterMap_append

theorem schemaParts_insert : schemaParts (front ++ (file, .schemaExtension x) :: back) =
    schemaParts front ++ ⟨file, x, true⟩ :: schemaParts back :=
  List.filterMap_append

variable (hx : x.operations = [])

include hx

theorem operations_insert :
    operations (schemaParts (front ++ (file, .schemaExtension x) :: back)) =
      operations (schemaParts (front ++ back)) := by
  rw [schemaParts_insert, schemaParts_append, operations, operations, List.flatMap_append,
    List.flatMap_cons, hx, List.nil_append, List.flatMap_append]

theorem wellFormed_insert_iff : WellFormed (front ++ (file, .schemaExtension x) :: back) ↔
    WellFormed (front ++ back) := by
  have hschema : (schemaParts (front ++ (file, .schemaExtension x) :: back)).filter
        (!·.isExtension) = (schemaParts (front ++ back)).filter (!·.isExtension) := by
    rw [schemaParts_insert, schemaParts_append, List.filter_append, List.filter_append]
    rfl
  simp only [wellFormed_iff, declarations_insert, extensions_insert, merged_insert,
    operations_insert hx, hschema]

theorem roots_insert (types : List SchemaType) :
    (roots types (schemaParts (front ++ (file, .schemaExtension x) :: back))).roots =
      if (schemaParts (front ++ back)).isEmpty then []
      else (roots types (schemaParts (front ++ back))).roots := by
  have hgiven : RootScan.given (schemaParts (front ++ (file, .schemaExtension x) :: back)) =
      RootScan.given (schemaParts (front ++ back)) := by
    rw [RootScan.given, RootScan.given, operations_insert hx]
  have hsome : (schemaParts (front ++ (file, .schemaExtension x) :: back)).isEmpty = false := by
    rw [schemaParts_insert]
    simp
  rw [roots_roots, roots_roots, hgiven, hsome, if_neg Bool.false_ne_true]
  split
  next hempty =>
    rw [List.isEmpty_iff.mp hempty]
    rfl
  next => rfl

/-- What the extension changes of the schema. -/
theorem schemaOf_insert (sources sources' : Sources) :
    Load.schemaOf sources' (front ++ (file, .schemaExtension x) :: back) =
      { Load.schemaOf sources (front ++ back) with
        sources := sources'
        roots := if (schemaParts (front ++ back)).isEmpty then []
          else (Load.schemaOf sources (front ++ back)).roots } := by
  rw [Load.schemaOf, merged_insert, roots_insert hx, directives_insert]
  rfl

end Inserting

section Reading

variable {file : Nat} {source : SourceFile} {sources : Sources} {result : List Placed × List Marker}

theorem readFiles_cons_eq_ok_iff : Load.readFiles file (source :: sources) = .ok result ↔
    ∃ first others, Load.readFile file source = .ok first ∧
      Load.readFiles (file + 1) sources = .ok others ∧
        result = (first.1 ++ others.1, first.2 ++ others.2) := by
  simp only [Load.readFiles, Attempt.bind_eq_ok_iff, Attempt.pure_eq_ok_iff, exists_and_left]
  simp only [eq_comm (b := result)]

theorem readFiles_append_eq_ok_iff {front : Sources} :
    Load.readFiles file (front ++ sources) = .ok result ↔
      ∃ first others, Load.readFiles file front = .ok first ∧
        Load.readFiles (file + front.length) sources = .ok others ∧
          result = (first.1 ++ others.1, first.2 ++ others.2) := by
  induction front generalizing file result with
  | nil =>
    constructor
    · exact fun h ↦ ⟨([], []), result, rfl, h, rfl⟩
    · intro h
      obtain ⟨_, others, hnone, hothers, rfl⟩ := h
      cases hnone
      exact hothers
  | cons s front ih =>
    have hindex : file + (s :: front).length = file + 1 + front.length := by
      rw [List.length_cons]
      omega
    rw [List.cons_append, hindex]
    simp only [readFiles_cons_eq_ok_iff, ih]
    constructor
    · intro h
      obtain ⟨first, _, hfirst, ⟨rest, others, hrest, hothers, rfl⟩, rfl⟩ := h
      exact ⟨_, others, ⟨first, rest, hfirst, hrest, rfl⟩, hothers, by simp⟩
    · intro h
      obtain ⟨_, others, ⟨first, rest, hfirst, hrest, rfl⟩, hothers, rfl⟩ := h
      exact ⟨first, _, hfirst, ⟨rest, others, hrest, hothers, rfl⟩, by simp⟩

theorem scanMarkers_of_readFile {definitions : List Placed} {markers : List Marker}
    (h : Load.readFile file source = .ok (definitions, markers)) :
    scanMarkers file source = .ok markers := by
  obtain ⟨hparse, -, -⟩ := eq_ok_of_readFile h
  obtain ⟨parsed, hp, hd⟩ := Option.map_eq_some_iff.mp hparse
  cases hscan : scanMarkers file source with
  | ok found =>
    obtain ⟨-, rfl⟩ : _ ∧ found = markers := by simpa [Load.readFile, hp, hd, hscan] using h
    rfl
  | error dangling =>
    cases dangling with
    | cons => simp [Load.readFile, hp, hd, hscan] at h
    | nil =>
      rw [scanMarkers] at hscan
      split at hscan
      next => cases hscan
      next hpending =>
        obtain hnil := Except.error.inj hscan
        exact absurd (List.isEmpty_iff.mpr hnil) hpending

theorem readFile_append {text : String} {x : SchemaDefinition} {span : Span}
    (htext : Document.parse? text.toList = some ⟨⟨[.schemaExtension x], span⟩, []⟩)
    (hunmarked : Unmarked text.toList) (h : Load.readFile file source = .ok result) :
    ∃ x' : SchemaDefinition, x'.bare = x.bare ∧ Load.readFile file (source.append text) =
      .ok (result.1 ++ [(file, .schemaExtension x')], result.2) := by
  obtain ⟨definitions, markers⟩ := result
  obtain ⟨hparse, rfl, -⟩ := eq_ok_of_readFile h
  obtain ⟨⟨⟨ds, span'⟩, _⟩, hd, rfl⟩ := Option.map_eq_some_iff.mp hparse
  have hdefinitions : source.definitions = ds := by rw [SourceFile.definitions, hd]
  obtain ⟨es, hbare, span'', hboth⟩ := exists_parse?_append ⟨span', hd⟩ ⟨span, htext⟩
  obtain ⟨e, rfl, he⟩ := List.map_eq_singleton_iff.mp hbare
  obtain ⟨x', rfl, hx'⟩ : ∃ x', e = .schemaExtension x' ∧ x'.bare = x.bare := by
    cases e with
    | schemaExtension x' => exact ⟨x', rfl, Definition.schemaExtension.inj he⟩
    | schema => cases he
    | type => cases he
    | typeExtension => cases he
    | directive => cases he
  have hscan := scanMarkers_append (scanMarkers_of_readFile h) hunmarked
  refine ⟨x', hx', ?_⟩
  simp [Load.readFile, hboth, hscan, hdefinitions]

theorem readFiles_append_block {before after : Sources} {text : String} {x : SchemaDefinition}
    {span : Span} (htext : Document.parse? text.toList = some ⟨⟨[.schemaExtension x], span⟩, []⟩)
    (hunmarked : Unmarked text.toList)
    (h : Load.readFiles 0 (before ++ source :: after) = .ok result) :
    ∃ front back file, ∃ x' : SchemaDefinition, x'.bare = x.bare ∧ result.1 = front ++ back ∧
      Load.readFiles 0 (before ++ source.append text :: after) =
        .ok (front ++ (file, .schemaExtension x') :: back, result.2) := by
  obtain ⟨first, _, hfirst, hrest, rfl⟩ := readFiles_append_eq_ok_iff.mp h
  obtain ⟨own, others, hown, hothers, rfl⟩ := readFiles_cons_eq_ok_iff.mp hrest
  obtain ⟨x', hx', hown'⟩ := readFile_append htext hunmarked hown
  have hread := readFiles_append_eq_ok_iff.mpr
    ⟨_, _, hfirst, readFiles_cons_eq_ok_iff.mpr ⟨_, _, hown', hothers, rfl⟩, rfl⟩
  refine ⟨first.1 ++ own.1, others.1, 0 + before.length, x', hx', by simp, ?_⟩
  simpa only [List.append_assoc, List.singleton_append] using hread

end Reading

section Markers

variable {source : SourceFile} {text : String}

theorem has_append {t : MarkerTable} {file : Nat}
    (h : ∀ m ∈ t.markers, m.file = file → m.targetLine ≤ source.lines.length) (offset : Nat)
    (kind : MarkerKind) :
    t.has file (source.append text) offset kind = t.has file source offset kind := by
  obtain hline | ⟨hoffset, hlast⟩ := source.lineAt_append text offset
  · have hopens : (source.append text).opensLine offset = source.opensLine offset := by
      rw [SourceFile.opensLine, hline]
      rfl
    rw [MarkerTable.has, MarkerTable.has, MarkerTable.forDeclaration, MarkerTable.forDeclaration,
      hopens, SourceFile.lineOf, hline]
    rfl
  · have hopens : source.opensLine offset = false := by
      by_contra hopens
      have hle := source.le_of_opensLine_eq_true (Bool.not_eq_false _ ▸ hopens)
      omega
    have hnone : t.get file ((source.append text).lineOf offset) = [] := by
      refine List.filter_eq_nil_iff.mpr fun m hm hboth ↦ ?_
      obtain ⟨hfile, htarget⟩ := Bool.and_eq_true_iff.mp hboth
      have hle := h m hm (beq_iff_eq.mp hfile)
      rw [beq_iff_eq.mp htarget] at hle
      omega
    rw [MarkerTable.has, MarkerTable.has, MarkerTable.forDeclaration, MarkerTable.forDeclaration,
      hopens, hnone]
    simp

theorem file_append (before after : Sources) (source : SourceFile) (text : String) (file : Nat) :
    Sources.file (before ++ source.append text :: after) file =
        Sources.file (before ++ source :: after) file ∨
      Sources.file (before ++ source.append text :: after) file =
        (Sources.file (before ++ source :: after) file).append text := by
  simp only [Sources.file, List.getD_eq_getElem?_getD]
  by_cases h : file < before.length
  · rw [List.getElem?_append_left h, List.getElem?_append_left h]
    exact Or.inl rfl
  · rw [List.getElem?_append_right (by omega), List.getElem?_append_right (by omega)]
    cases file - before.length with
    | zero => exact Or.inr rfl
    | succ n => exact Or.inl rfl

variable {s s' : Schema}
  (hfile : ∀ file, s'.sources.file file = s.sources.file file ∨
    s'.sources.file file = (s.sources.file file).append text)

include hfile

theorem markableLines_subset (htypes : s'.types = s.types) :
    Load.markableLines s ⊆ Load.markableLines s' := by
  intro line hline
  rw [Load.markableLines, List.mem_filterMap] at hline ⊢
  obtain ⟨⟨file, offset⟩, hplace, he⟩ := hline
  refine ⟨(file, offset), htypes ▸ hplace, ?_⟩
  obtain ⟨hopens, he⟩ := Option.ite_none_right_eq_some.mp he
  cases he
  rcases hfile file with hsame | hsame
  · simp only [hsame, hopens, if_true]
  · obtain ⟨hopens', hline⟩ := (s.sources.file file).opensLine_append_of_opensLine text hopens
    simp only [hsame, hopens', hline, if_true]

theorem has_file_eq {markers : List Marker}
    (hmarkers : ∀ m ∈ markers, (m.file, m.targetLine) ∈ Load.markableLines s)
    (file offset : Nat) (kind : MarkerKind) :
    (⟨markers⟩ : MarkerTable).has file (s'.sources.file file) offset kind =
      (⟨markers⟩ : MarkerTable).has file (s.sources.file file) offset kind := by
  rcases hfile file with hsame | hsame
  · rw [hsame]
  · rw [hsame]
    refine has_append (fun m hm hmfile ↦ ?_) offset kind
    have hline := hmarkers m hm
    rw [Load.markableLines, List.mem_filterMap] at hline
    obtain ⟨⟨file', offset'⟩, -, he⟩ := hline
    obtain ⟨-, he⟩ := Option.ite_none_right_eq_some.mp he
    obtain ⟨rfl, htarget⟩ := Prod.mk.inj (Option.some.inj he)
    rw [← htarget, ← hmfile]
    exact SourceFile.lineOf_le _ _

end Markers

theorem Model.Build.operations_eq_nil {c : Model.Build.Context} (h : c.schema.roots = []) :
    Model.Build.operations c = .ok [] := by
  have hroot (kind : Sdl.OperationKind) : c.schema.root? kind = none := by
    rw [Schema.root?, h]
    rfl
  simp only [Model.Build.operations, hroot, Option.map_none, List.filterMap_none]
  rfl

/-- The same types offer the operations, and the same model is built. -/
structure LoadedSchema.SameOutcome (s s' : LoadedSchema) : Prop where
  roots_eq : s.schema.roots = s'.schema.roots
  build_eq : ∀ tables, Model.build s tables = Model.build s' tables

/-- One more extension of the schema definition that names no operation, on a new line at the end of
a file, is accepted. It changes nothing if some part of the schema definition is written already,
or if no type offers an operation. Else the types that offer operations by their names do so no
more. -/
theorem load_append_schemaExtension {before after : Sources} {source : SourceFile}
    {loaded : LoadedSchema} {text : String} {x : SchemaDefinition} {span : Span}
    (hload : Schema.load (before ++ source :: after) = .ok loaded)
    (htext : Document.parse? text.toList = some ⟨⟨[.schemaExtension x], span⟩, []⟩)
    (hoperations : x.operations = []) (hunmarked : Unmarked text.toList) :
    ∃ extended, Schema.load (before ++ source.append text :: after) = .ok extended ∧
      extended.schema.types = loaded.schema.types ∧
      extended.schema.directives = loaded.schema.directives ∧
      (schemaParts (Sources.definitions (before ++ source :: after)) ≠ [] ∨
        loaded.schema.roots = [] → extended.SameOutcome loaded) ∧
      (schemaParts (Sources.definitions (before ++ source :: after)) = [] →
        extended.schema.roots = [] ∧
          ∀ tables m, Model.build extended tables = .ok m → m.operations = []) := by
  obtain ⟨definitions, markers, hread, hwf, hmarkers, rfl⟩ := (Load.load_eq_ok_iff _ _).mp hload
  obtain ⟨-, hdefinitions, -⟩ := eq_ok_of_readFiles hread
  obtain ⟨front, back, file, x', hbare, rfl, hread'⟩ := readFiles_append_block htext hunmarked hread
  have hall : Sources.definitions (before ++ source :: after) = front ++ back := hdefinitions.symm
  have hx' : x'.operations = [] := by
    have hmap := congrArg SchemaDefinition.operations hbare
    rw [SchemaDefinition.bare, SchemaDefinition.bare, hoperations] at hmap
    exact List.map_eq_nil_iff.mp hmap
  have hschema := @schemaOf_insert front back file x' hx' (before ++ source :: after)
    (before ++ source.append text :: after)
  generalize hs : Load.schemaOf (before ++ source :: after) (front ++ back) = s at *
  generalize hs' : Load.schemaOf (before ++ source.append text :: after)
    (front ++ (file, .schemaExtension x') :: back) = s' at *
  have hfile (i : Nat) : s'.sources.file i = s.sources.file i ∨
      s'.sources.file i = (s.sources.file i).append text := by
    rw [← hs, ← hs']
    exact file_append before after source text i
  have htypes : s'.types = s.types := by rw [hschema]
  have hroots : s'.roots = if (schemaParts (front ++ back)).isEmpty then [] else s.roots := by
    rw [hschema]
  have hnames : s'.sources.map (·.name) = s.sources.map (·.name) := by
    rw [← hs, ← hs', Load.schemaOf, Load.schemaOf]
    simp
  have hload' : Schema.load (before ++ source.append text :: after) = .ok ⟨s', ⟨markers⟩⟩ :=
    (Load.load_eq_ok_iff _ _).mpr ⟨_, _, hread', (wellFormed_insert_iff hx').mpr hwf, fun m hm ↦
      hs' ▸ markableLines_subset hfile htypes (hmarkers m hm), by rw [hs']⟩
  rw [hall]
  refine ⟨_, hload', htypes, by rw [hschema], fun hsome ↦ ?_, fun hnone ↦ ?_⟩
  · have hsame : s'.roots = s.roots := by
      rw [hroots]
      split
      next hempty =>
        obtain hsome | hnone := hsome
        · exact absurd (List.isEmpty_iff.mp hempty) hsome
        · exact hnone.symm
      next => rfl
    exact ⟨hsame, Model.build_congr hnames htypes hsame (has_file_eq hfile hmarkers)⟩
  · have hempty : s'.roots = [] := by
      rw [hroots, hnone]
      rfl
    refine ⟨hempty, fun tables m hbuild ↦ ?_⟩
    have hoperations := operations_of_build hbuild
    rw [Model.Build.operations_eq_nil (c := LoadedSchema.context ⟨s', ⟨markers⟩⟩) hempty]
      at hoperations
    exact (Except.ok.inj hoperations).symm

def schemaSource : SourceFile :=
  .ofText "schema.graphql" "schema \x7b query: Root \x7d"

def rootSource : SourceFile :=
  .ofText "root.graphql" "type Root \x7b a: Int \x7d # the end"

def linkBlock : String :=
  "extend schema\n  @link(url: \"specs\")"

theorem exists_parse?_linkBlock : ∃ x span,
    Document.parse? linkBlock.toList = some ⟨⟨[.schemaExtension x], span⟩, []⟩ ∧
      x.operations = [] :=
  ⟨_, _, rfl, rfl⟩

theorem sameOutcome_linkBlock : ∃ loaded extended x span,
    Schema.load ([schemaSource] ++ rootSource :: []) = .ok loaded ∧
      Document.parse? linkBlock.toList = some ⟨⟨[.schemaExtension x], span⟩, []⟩ ∧
      x.operations = [] ∧ Unmarked linkBlock.toList ∧
      Schema.load ([schemaSource] ++ rootSource.append linkBlock :: []) = .ok extended ∧
      extended.SameOutcome loaded := by
  have hrun : Attempt.succeeds (Schema.load ([schemaSource] ++ rootSource :: []))
      (fun _ ↦ true) = true := by
    decide +kernel
  obtain ⟨loaded, hload, -⟩ := (Attempt.succeeds_iff _ _).mp hrun
  obtain ⟨x, span, htext, hoperations⟩ := exists_parse?_linkBlock
  have hunmarked : Unmarked linkBlock.toList := by decide +kernel
  have hparts : schemaParts (Sources.definitions ([schemaSource] ++ rootSource :: [])) ≠ [] := by
    have hsome : (schemaParts (Sources.definitions
        ([schemaSource] ++ rootSource :: []))).isEmpty = false := by
      decide +kernel
    intro h
    rw [h] at hsome
    cases hsome
  obtain ⟨extended, hload', -, -, hsame, -⟩ :=
    load_append_schemaExtension hload htext hoperations hunmarked
  exact ⟨loaded, extended, x, span, hload, htext, hoperations, hunmarked, hload',
    hsame (Or.inl hparts)⟩

def querySource : SourceFile :=
  .ofText "query.graphql" "type Query \x7b a: Int \x7d"

/-- With the extension the type offers nothing and is an object type of the model. -/
theorem not_sameOutcome_querySource : ∃ loaded extended x span,
    Schema.load [querySource] = .ok loaded ∧
      Document.parse? linkBlock.toList = some ⟨⟨[.schemaExtension x], span⟩, []⟩ ∧
      x.operations = [] ∧ Unmarked linkBlock.toList ∧
      Schema.load [querySource.append linkBlock] = .ok extended ∧
      loaded.schema.roots = [(.query, "Query")] ∧ extended.schema.roots = [] ∧
      ¬ extended.SameOutcome loaded := by
  have hrun : Attempt.succeeds (Schema.load [querySource])
      (fun loaded ↦ loaded.schema.roots = [(.query, "Query")]) = true := by
    decide +kernel
  have hrun' : Attempt.succeeds (Schema.load [querySource.append linkBlock])
      (fun extended ↦ extended.schema.roots = []) = true := by
    decide +kernel
  obtain ⟨loaded, hload, hroots⟩ := (Attempt.succeeds_iff _ _).mp hrun
  obtain ⟨extended, hload', hroots'⟩ := (Attempt.succeeds_iff _ _).mp hrun'
  have hroots := of_decide_eq_true hroots
  have hroots' := of_decide_eq_true hroots'
  obtain ⟨x, span, htext, hoperations⟩ := exists_parse?_linkBlock
  have hunmarked : Unmarked linkBlock.toList := by decide +kernel
  refine ⟨loaded, extended, x, span, hload, htext, hoperations, hunmarked, hload', hroots,
    hroots', fun h ↦ ?_⟩
  have hsame := h.roots_eq
  rw [hroots, hroots'] at hsame
  cases hsame

end SchemaBindings
