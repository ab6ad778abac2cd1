import SchemaBindings.CommandLine.FileTree
import SchemaBindings.Proofs.Attempt
import SchemaBindings.Proofs.Sdl.Layout
import Mathlib.Data.List.Nodup

namespace SchemaBindings.CommandLine

open FileTree Sdl

section Trees

variable {tree : FileTree} {place p : List String} {text : String}

theorem hasFile_iff : tree.hasFile p ↔ p ∈ tree.map (·.1) := by
  simp [hasFile]

theorem hasFolder_iff : tree.hasFolder p ↔
    isAround p ∨ p = [""] ∨ ∃ q ∈ tree.map (·.1), p <+: q ∧ q ≠ p := by
  simp [hasFolder, or_assoc]

theorem mem_places_put :
    p ∈ (tree.put place text).map (·.1) ↔ p = place ∨ p ∈ tree.map (·.1) := by
  induction tree with
  | nil => simp [put]
  | cons file tree ih =>
    rw [put]
    split
    next h => simp [← h]
    next =>
      rw [List.map_cons, List.mem_cons, ih, List.map_cons, List.mem_cons]
      tauto

theorem lookup_put :
    (tree.put place text).lookup p = if p = place then some text else tree.lookup p := by
  induction tree with
  | nil =>
    rw [put, List.lookup_cons]
    split <;> simp_all
  | cons file tree ih =>
    rw [put]
    split
    next h =>
      rw [List.lookup_cons, List.lookup_cons]
      split <;> simp_all
    next h =>
      rw [List.lookup_cons, List.lookup_cons, ih]
      split <;> simp_all

variable {folder name other : String}

/-- A file of the name can be written into the folder. -/
structure CanWrite (tree : FileTree) (folder name : String) : Prop where
  usable : isUsable (joinPath folder name)
  noFile : ∀ p ∈ placeOf folder :: onTheWay folder, ¬ tree.hasFile p
  named : endsInDot folder → tree.hasFolder (placeOf folder) ∨ placeOf folder ∈ onTheWay folder
  noFolder : ¬ tree.hasFolder (placeOf folder ++ [name])
  apart : placeOf folder ++ [name] ∉ onTheWay folder

theorem canWrite_iff : CanWrite tree folder name ↔
    (isUsable (joinPath folder name) && tree.canMake folder &&
      !tree.hasFolder (placeOf folder ++ [name]) &&
      !(onTheWay folder).contains (placeOf folder ++ [name])) = true := by
  simp only [canMake, Bool.and_eq_true, Bool.or_eq_true, Bool.not_eq_true', List.any_eq_false,
    List.contains_eq_mem, decide_eq_true_eq, decide_eq_false_iff_not]
  constructor
  · rintro ⟨husable, hfile, hnamed, hfolder, hway⟩
    refine ⟨⟨⟨husable, hfile, ?_⟩, by simpa using hfolder⟩, hway⟩
    cases hdot : endsInDot folder with
    | false => exact .inl (.inl rfl)
    | true => exact (hnamed hdot).imp_left .inr
  · rintro ⟨⟨⟨husable, hfile, hnamed⟩, hfolder⟩, hway⟩
    refine ⟨husable, hfile, fun hdot ↦ ?_, by simpa using hfolder, hway⟩
    simpa [hdot] using hnamed

theorem canWrite_of_write? (h : (tree.write? folder name text).isSome) :
    CanWrite tree folder name := by
  rw [write?] at h
  split at h
  next hcan => exact canWrite_iff.mpr hcan
  next => cases h

theorem CanWrite.write?_eq (h : CanWrite tree folder name) (text : String) :
    tree.write? folder name text = some (tree.put (placeOf folder ++ [name]) text) :=
  if_pos (canWrite_iff.mp h)

theorem hasFolder_put (h : tree.hasFolder p) : (tree.put place text).hasFolder p := by
  rw [hasFolder_iff] at h ⊢
  refine h.imp_right (.imp_right fun ⟨q, hq, hp⟩ ↦ ⟨q, mem_places_put.mpr (.inr hq), hp⟩)

theorem CanWrite.put (h : CanWrite tree folder name) (h' : CanWrite tree folder other)
    (text : String) : CanWrite (tree.put (placeOf folder ++ [other]) text) folder name := by
  refine ⟨h.usable, fun p hp hfile ↦ ?_, fun hdot ↦ (h.named hdot).imp_left hasFolder_put, ?_,
    h.apart⟩
  · rcases mem_places_put.mp (hasFile_iff.mp hfile) with rfl | hmem
    · rcases List.mem_cons.mp hp with heq | hway
      · simp at heq
      · exact h'.apart hway
    · exact h.noFile p hp (hasFile_iff.mpr hmem)
  · rw [hasFolder_iff]
    rintro (haround | hroot | ⟨q, hq, hpq, hne⟩)
    · exact h.noFolder (hasFolder_iff.mpr (.inl haround))
    · exact h.noFolder (hasFolder_iff.mpr (.inr (.inl hroot)))
    · rcases mem_places_put.mp hq with rfl | hq
      · exact hne (hpq.eq_of_length (by simp)).symm
      · exact h.noFolder (hasFolder_iff.mpr (.inr (.inr ⟨q, hq, hpq, hne⟩)))

end Trees

section Loading

open Attempt

theorem failsOnly_types (definitions : List Placed) :
    FailsOnly (· ≠ .cutEscape) (Merge.types definitions) := by
  refine (FailsOnly.foldlM (fun types part e h ↦ ?_) _ _).bind fun _ _ ↦
    FailsOnly.foldlM (fun types part e h ↦ ?_) _ _
  · simp only [Merge.declare] at h
    split at h
    · cases h
      nofun
    · split at h
      · cases h
        nofun
      · cases h
  · simp only [Merge.extend] at h
    split at h
    · cases h
      nofun
    · split at h
      · cases h
      · cases h
        nofun

/-- Only a file that ends inside an escape breaks the reading off. -/
theorem exists_endsAfterBackslash_of_load {sources : Sources}
    (h : Schema.load sources = .error .cutEscape) :
    ∃ source ∈ sources, EndsAfterBackslash source.chars := by
  have hfile (file : Nat) (source : SourceFile) : FailsOnly
      (· = LoadError.cutEscape → EndsAfterBackslash source.chars) (Load.readFile file source) := by
    rintro e he rfl
    rw [Load.readFile] at he
    cases hparse : Document.parse? source.chars with
    | none =>
      rw [← endsInEscape_iff]
      by_contra hend
      simp [Document.parse?, hend] at hparse
    | some parsed =>
      simp only [hparse] at he
      repeat' split at he
      all_goals cases he
  have hfiles (file : Nat) (sources : Sources) : FailsOnly
      (· = LoadError.cutEscape → ∃ source ∈ sources, EndsAfterBackslash source.chars)
      (Load.readFiles file sources) := by
    induction sources generalizing file with
    | nil => exact failsOnly_of_eq_ok rfl
    | cons source sources ih =>
      refine FailsOnly.bind (fun e he hcut ↦ ?_) fun first _ ↦
        FailsOnly.bind (fun e he hcut ↦ ?_) fun others _ ↦ failsOnly_of_eq_ok rfl
      · exact ⟨source, List.mem_cons_self, hfile file source e he hcut⟩
      · obtain ⟨other, hmem, hother⟩ := ih (file + 1) e he hcut
        exact ⟨other, List.mem_cons_of_mem _ hmem, hother⟩
  have hmerge (definitions : List Placed) :
      FailsOnly (· ≠ .cutEscape) (Load.merge sources definitions) := by
    refine (failsOnly_types definitions).bind fun types _ e he ↦ ?_
    dsimp only at he
    split at he
    · cases he
    · cases he
      nofun
  have hload : FailsOnly (· = LoadError.cutEscape → ∃ source ∈ sources,
      EndsAfterBackslash source.chars) (Schema.load sources) := by
    refine (hfiles 0 sources).bind fun read _ ↦ FailsOnly.bind
      (fun e he hcut ↦ absurd hcut (hmerge read.1 e he)) fun schema _ e he hcut ↦ ?_
    split at he
    · cases he
      cases hcut
    · cases he
  exact hload _ h rfl

end Loading

section Reading

def tablesOf? (tree : FileTree) : Option String → Option Tables
  | none => some .empty
  | some path => (tree.read? path).bind fun text ↦ Tables.parse? text.toList

def sourcesOf? (tree : FileTree) (files : List String) : Option Sources :=
  files.mapM fun path ↦ (tree.read? path).map (.ofText path ·)

/-- The tables can be read, and the schema that the files hold has a model under them. -/
def Loads (tree : FileTree) (files : List String) (tables : Option String)
    (found : Tables × Model) : Prop :=
  tablesOf? tree tables = some found.1 ∧ ∃ sources, sourcesOf? tree files = some sources ∧
    ∃ schema, Schema.load sources = .ok schema ∧ Model.build schema found.1 = .ok found.2

/-- The files can be opened, but the reading of the schema comes to one that ends inside an
escape. -/
def BreaksOff (tree : FileTree) (files : List String) (tables : Option String) : Prop :=
  (tablesOf? tree tables).isSome ∧ ∃ sources, sourcesOf? tree files = some sources ∧
    Schema.load sources = .error .cutEscape

theorem run_bind_eq {σ α β : Type} {x : StateM σ α} {s s' : σ} {a : α} (h : x.run s = (a, s'))
    (f : α → StateM σ β) : (x >>= f).run s = (f a).run s' := by
  rw [StateT.run_bind, h]
  rfl

variable {tree : FileTree} {files : List String} {tables : Option String}

theorem run_read {path : String} {text : Option String} (h : tree.read? path = text) :
    (Disk.inMemory.read? path).run tree = (text, tree) :=
  h ▸ rfl

variable (tree tables) in
theorem run_loadTables :
    (∃ t, tablesOf? tree tables = some t ∧
      (loadTables .inMemory tables).run tree = (.ok t, tree)) ∨
    tablesOf? tree tables = none ∧
      ∃ message, (loadTables .inMemory tables).run tree = (.error (.invalid message), tree) := by
  cases tables with
  | none => exact .inl ⟨.empty, rfl, rfl⟩
  | some path =>
    rw [tablesOf?, loadTables]
    cases hread : tree.read? path with
    | none => exact .inr ⟨rfl, _, run_bind_eq (run_read hread) _⟩
    | some text =>
      rw [run_bind_eq (run_read hread), Option.bind_some]
      dsimp only
      cases hparse : Tables.parse? text.toList with
      | none => exact .inr ⟨rfl, _, rfl⟩
      | some t => exact .inl ⟨t, rfl, rfl⟩

variable (tree files) in
theorem run_readSources :
    (∃ sources, sourcesOf? tree files = some sources ∧
      (readSources .inMemory files).run tree = (.ok sources, tree)) ∨
    sourcesOf? tree files = none ∧
      ∃ message, (readSources .inMemory files).run tree = (.error (.invalid message), tree) := by
  induction files with
  | nil => exact .inl ⟨[], rfl, rfl⟩
  | cons path files ih =>
    rw [sourcesOf?, List.mapM_cons, readSources]
    cases hread : tree.read? path with
    | none => exact .inr ⟨rfl, _, run_bind_eq (run_read hread) _⟩
    | some text =>
      rw [run_bind_eq (run_read hread)]
      simp only [Option.map_some, Option.bind_eq_bind, Option.bind_some]
      obtain ⟨sources, hsources, hrun⟩ | ⟨hsources, message, hrun⟩ := ih
      · refine .inl ⟨.ofText path text :: sources, ?_, run_bind_eq hrun _⟩
        rw [← sourcesOf?, hsources]
        rfl
      · refine .inr ⟨?_, message, run_bind_eq hrun _⟩
        rw [← sourcesOf?, hsources]
        rfl

theorem Loads.unique {found found' : Tables × Model} (h : Loads tree files tables found)
    (h' : Loads tree files tables found') : found = found' := by
  obtain ⟨ht, sources, hs, schema, hload, hbuild⟩ := h
  obtain ⟨ht', sources', hs', schema', hload', hbuild'⟩ := h'
  have htables : found.1 = found'.1 := Option.some_inj.mp (ht.symm.trans ht')
  obtain rfl : sources = sources' := Option.some_inj.mp (hs.symm.trans hs')
  obtain rfl : schema = schema' := Except.ok.inj (hload.symm.trans hload')
  exact Prod.ext htables (Except.ok.inj (hbuild.symm.trans (htables ▸ hbuild')))

theorem BreaksOff.not_loads (h : BreaksOff tree files tables) :
    ¬ ∃ found, Loads tree files tables found := by
  rintro ⟨found, -, sources, hs, schema, hload, -⟩
  obtain ⟨-, sources', hs', hload'⟩ := h
  obtain rfl : sources = sources' := Option.some_inj.mp (hs.symm.trans hs')
  cases hload.symm.trans hload'

/-- What comes of the loading: a model, no answer at all, or a message. -/
inductive Outcome (tree : FileTree) (files : List String) (tables : Option String) :
    Except Stop (Tables × Model) → Prop
  | loads {found : Tables × Model} : Loads tree files tables found →
      Outcome tree files tables (.ok found)
  | breaksOff : BreaksOff tree files tables → Outcome tree files tables (.error .cutEscape)
  | fails (message : String) : ¬ BreaksOff tree files tables →
      (¬ ∃ found, Loads tree files tables found) →
      Outcome tree files tables (.error (.invalid message))

theorem outcome_modelOf {t : Tables} {sources : Sources} (ht : tablesOf? tree tables = some t)
    (hs : sourcesOf? tree files = some sources) :
    Outcome tree files tables ((modelOf sources t).map fun m ↦ (t, m)) := by
  have hloads (found : Tables × Model) : Loads tree files tables found ↔
      t = found.1 ∧ ∃ schema, Schema.load sources = .ok schema ∧
        Model.build schema found.1 = .ok found.2 := by
    simp [Loads, ht, hs]
  have hbreaks : BreaksOff tree files tables ↔ Schema.load sources = .error .cutEscape := by
    simp [BreaksOff, ht, hs]
  unfold modelOf
  cases hload : Schema.load sources with
  | error e =>
    have hnot : ¬ ∃ found, Loads tree files tables found := by simp [hloads, hload]
    cases e with
    | cutEscape => exact .breaksOff (hbreaks.mpr hload)
    | _ => exact .fails _ (by simp [hbreaks, hload]) hnot
  | ok schema =>
    have hnot : ¬ BreaksOff tree files tables := by simp [hbreaks, hload]
    dsimp only
    cases hbuild : Model.build schema t with
    | error e => exact .fails _ hnot (by simp [hloads, hload, hbuild])
    | ok m => exact .loads ((hloads (t, m)).mpr ⟨rfl, schema, hload, hbuild⟩)

variable (tree files tables) in
theorem run_load :
    ∃ outcome, Outcome tree files tables outcome ∧
      (load .inMemory files tables).run tree = (outcome, tree) := by
  rw [load]
  obtain ⟨t, ht, hrun⟩ | ⟨ht, message, hrun⟩ := run_loadTables tree tables
  · rw [run_bind_eq hrun]
    obtain ⟨sources, hs, hrun⟩ | ⟨hs, message, hrun⟩ := run_readSources tree files
    · exact ⟨_, outcome_modelOf ht hs, run_bind_eq hrun _⟩
    · refine ⟨_, .fails message ?_ ?_, run_bind_eq hrun _⟩ <;> simp [Loads, BreaksOff, hs]
  · refine ⟨_, .fails message ?_ ?_, run_bind_eq hrun _⟩ <;> simp [Loads, BreaksOff, ht]

theorem exists_path_of_mem_sourcesOf? {sources : Sources}
    (h : sourcesOf? tree files = some sources) : ∀ source ∈ sources,
      ∃ path ∈ files, (tree.read? path).map (SourceFile.ofText path ·) = some source := by
  induction files generalizing sources with
  | nil =>
    cases h
    nofun
  | cons path files ih =>
    rw [sourcesOf?, List.mapM_cons] at h
    obtain ⟨first, hfirst, h⟩ := Option.bind_eq_some_iff.mp h
    obtain ⟨others, hothers, h⟩ := Option.bind_eq_some_iff.mp h
    cases h
    refine List.forall_mem_cons.mpr ⟨⟨path, List.mem_cons_self, hfirst⟩, fun source hs ↦ ?_⟩
    obtain ⟨other, hmem, hother⟩ := ih hothers source hs
    exact ⟨other, List.mem_cons_of_mem _ hmem, hother⟩

theorem BreaksOff.exists_file (h : BreaksOff tree files tables) :
    ∃ path ∈ files, ∃ text, tree.read? path = some text ∧ EndsAfterBackslash text.toList := by
  obtain ⟨-, sources, hsources, hload⟩ := h
  obtain ⟨source, hmem, hends⟩ := exists_endsAfterBackslash_of_load hload
  obtain ⟨path, hpath, hsource⟩ := exists_path_of_mem_sourcesOf? hsources source hmem
  obtain ⟨text, htext, rfl⟩ := Option.map_eq_some_iff.mp hsource
  exact ⟨path, hpath, text, htext, hends⟩

end Reading

section Writing

variable {tree : FileTree} {out : String}

def summaryLine (out : String) (file : BindingFile) : String :=
  s!"Generated {padded 10 file.language.text} {joinPath out file.name} ({file.summary.display})"

def afterWriting (tree : FileTree) (out : String) (files : List BindingFile) : FileTree :=
  files.foldl (fun tree file ↦ tree.put (placeOf out ++ [file.name]) file.contents) tree

def resultOf (out : String) (l : Language) : Except BindingError BindingFile → Except String String
  | .ok file => .ok (summaryLine out file)
  | .error e => .error (failure l e)

theorem run_write {name : String} (h : CanWrite tree out name) (text : String) :
    (Disk.inMemory.write out name text).run tree =
      (true, tree.put (placeOf out ++ [name]) text) := by
  have hget : (get : StateM FileTree FileTree).run tree = (tree, tree) := rfl
  rw [Disk.inMemory, run_bind_eq hget, h.write?_eq]
  rfl

variable (make : Language → Except BindingError BindingFile)

theorem run_writeBindings {languages : List Language}
    (hmake : ∀ l file, make l = .ok file → file.language = l)
    (hout : ∀ l ∈ languages, CanWrite tree out l.fileName) :
    (languages.mapM fun l ↦ writeBindings .inMemory out l (make l)).run tree =
      (languages.map fun l ↦ resultOf out l (make l),
        afterWriting tree out (languages.filterMap fun l ↦ (make l).toOption)) := by
  induction languages generalizing tree with
  | nil => rfl
  | cons l languages ih =>
    rw [List.mapM_cons, List.map_cons]
    cases hl : make l with
    | error e =>
      have hrest := ih fun l hl ↦ hout l (List.mem_cons_of_mem _ hl)
      have hrun : (writeBindings .inMemory out l (.error e)).run tree =
          (.error (failure l e), tree) := rfl
      rw [List.filterMap_cons, hl, run_bind_eq hrun]
      exact run_bind_eq hrest _
    | ok file =>
      obtain rfl := hmake l file hl
      have hcan := hout _ List.mem_cons_self
      have hrest := ih fun l hl ↦ (hout l (List.mem_cons_of_mem _ hl)).put hcan file.contents
      have hrun : (writeBindings .inMemory out file.language (.ok file)).run tree =
          (.ok (summaryLine out file), tree.put (placeOf out ++ [file.name]) file.contents) :=
        run_bind_eq (run_write hcan file.contents) _
      rw [List.filterMap_cons, hl, run_bind_eq hrun]
      exact run_bind_eq hrest _

structure Delivers (tree : FileTree) (out : String) (files : List BindingFile) (later : FileTree) :
    Prop where
  distinct : (files.map (·.name)).Nodup
  written : ∀ file ∈ files, later.lookup (placeOf out ++ [file.name]) = some file.contents
  others : ∀ place, (∀ file ∈ files, place ≠ placeOf out ++ [file.name]) →
    later.lookup place = tree.lookup place

theorem lookup_afterWriting_of_ne {files : List BindingFile} {place : List String}
    (h : ∀ file ∈ files, place ≠ placeOf out ++ [file.name]) :
    (afterWriting tree out files).lookup place = tree.lookup place := by
  induction files generalizing tree with
  | nil => rfl
  | cons file files ih =>
    rw [afterWriting, List.foldl_cons, ← afterWriting, ih fun f hf ↦ h f (by simp [hf]),
      lookup_put, if_neg (h file List.mem_cons_self)]

theorem delivers_afterWriting {files : List BindingFile} (h : (files.map (·.name)).Nodup) :
    Delivers tree out files (afterWriting tree out files) := by
  refine ⟨h, ?_, fun place ↦ lookup_afterWriting_of_ne⟩
  induction files generalizing tree with
  | nil => nofun
  | cons file files ih =>
    obtain ⟨hnew, h⟩ := List.nodup_cons.mp h
    refine List.forall_mem_cons.mpr ⟨?_, ih h⟩
    rw [afterWriting, List.foldl_cons, ← afterWriting, lookup_afterWriting_of_ne, lookup_put,
      if_pos rfl]
    intro other hother heq
    refine hnew (List.mem_map.mpr ⟨other, hother, ?_⟩)
    simpa using heq.symm

/-- What a run does about languages: it writes the files of those that have bindings, and reports on
all. -/
structure Answers (make : Language → Except BindingError BindingFile) (languages : List Language)
    (out : String) (quiet : Bool) (tree : FileTree) (report : Report) (later : FileTree) :
    Prop where
  delivers : Delivers tree out (languages.filterMap fun l ↦ (make l).toOption) later
  output : report.output = if quiet then [] else
    (languages.filterMap fun l ↦ (make l).toOption).map (summaryLine out)
  exit_zero : (∀ l ∈ languages, ∃ file, make l = .ok file) → report.exit = 0
  exit_two : (∃ l ∈ languages, ∃ e, make l = .error e) → report.exit = 2

theorem generationReport_eq_filterMap (quiet : Bool) (results : List (Except String String)) :
    generationReport quiet results =
      ⟨if results.filterMap Attempt.error? = [] then 0 else 2,
        if quiet then [] else results.filterMap Except.toOption,
        results.filterMap Attempt.error?⟩ := by
  simp only [generationReport, List.isEmpty_iff]
  congr 3
  · exact List.filterMap_congr fun r _ ↦ by cases r <;> rfl
  · exact funext fun r ↦ by cases r <;> rfl
  · exact funext fun r ↦ by cases r <;> rfl

variable (out) in
theorem generationReport_eq (quiet : Bool) (languages : List Language) :
    ∃ errors, generationReport quiet (languages.map fun l ↦ resultOf out l (make l)) =
        ⟨if errors = [] then 0 else 2,
          if quiet then [] else
            (languages.filterMap fun l ↦ (make l).toOption).map (summaryLine out), errors⟩ ∧
      (errors = [] ↔ ∀ l ∈ languages, ∃ file, make l = .ok file) := by
  have hline (l : Language) :
      (resultOf out l (make l)).toOption = (make l).toOption.map (summaryLine out) := by
    cases make l <;> rfl
  have herror (l : Language) :
      Attempt.error? (resultOf out l (make l)) = none ↔ ∃ file, make l = .ok file := by
    cases make l <;> simp [resultOf, Attempt.error?]
  refine ⟨_, ?_, List.filterMap_eq_nil_iff.trans (forall₂_congr fun l _ ↦ herror l)⟩
  rw [generationReport_eq_filterMap, List.filterMap_map, List.filterMap_map, List.map_filterMap,
    ← List.filterMap_congr fun l _ ↦ hline l]
  rfl

variable {make}

theorem map_language_sublist (hmake : ∀ l file, make l = .ok file → file.language = l)
    (languages : List Language) :
    ((languages.filterMap fun l ↦ (make l).toOption).map (·.language)).Sublist languages := by
  induction languages with
  | nil => exact .slnil
  | cons l languages ih =>
    rw [List.filterMap_cons]
    cases hl : make l with
    | error e => exact ih.cons l
    | ok file => exact hmake l file hl ▸ ih.cons_cons _

theorem nodup_names (hmake : ∀ l file, make l = .ok file → file.language = l)
    {languages : List Language} (h : languages.Nodup) :
    ((languages.filterMap fun l ↦ (make l).toOption).map (·.name)).Nodup := by
  have hinj : Function.Injective Language.fileName := by
    intro l l' h
    cases l <;> cases l' <;> first | rfl | exact absurd h (by decide)
  have hnames := (h.sublist (map_language_sublist hmake languages)).map hinj
  rwa [List.map_map] at hnames

variable (tree out make) in
theorem answers_generationReport (hmake : ∀ l file, make l = .ok file → file.language = l)
    {languages : List Language} (h : languages.Nodup) (quiet : Bool) :
    Answers make languages out quiet tree
      (generationReport quiet (languages.map fun l ↦ resultOf out l (make l)))
      (afterWriting tree out (languages.filterMap fun l ↦ (make l).toOption)) := by
  obtain ⟨errors, hreport, herrors⟩ := generationReport_eq out make quiet languages
  rw [hreport]
  refine ⟨delivers_afterWriting (nodup_names hmake h), rfl, fun hall ↦ if_pos (herrors.mpr hall),
    fun ⟨l, hl, e, he⟩ ↦ if_neg fun hnil ↦ ?_⟩
  obtain ⟨file, hfile⟩ := herrors.mp hnil l hl
  cases he.symm.trans hfile

theorem Answers.exit_ne_one {languages : List Language} {quiet : Bool} {report : Report}
    {later : FileTree} (h : Answers make languages out quiet tree report later) :
    report.exit ≠ 1 := by
  by_cases hall : ∀ l ∈ languages, ∃ file, make l = .ok file
  · rw [h.exit_zero hall]
    decide
  · obtain ⟨l, hl, hno⟩ : ∃ l ∈ languages, ∀ file, make l ≠ .ok file := by simpa using hall
    cases hm : make l with
    | error e =>
      rw [h.exit_two ⟨l, hl, e, hm⟩]
      decide
    | ok file => exact absurd hm (hno file)

end Writing

section Requests

theorem nodup_eraseDups (languages : List Language) : languages.eraseDups.Nodup := by
  induction hn : languages.length using Nat.strong_induction_on generalizing languages with
  | _ n ih =>
    cases languages with
    | nil => simp
    | cons l languages =>
      rw [List.eraseDups_cons, List.nodup_cons, List.mem_eraseDups]
      refine ⟨by simp, ih _ ?_ _ rfl⟩
      have := List.length_filter_le (fun other ↦ !other == l) languages
      rw [List.length_cons] at hn
      omega

def Given.requested (given : Given) : List Language :=
  if given.languages.isEmpty then Language.all else given.languages

theorem Given.languages_eq {given : Given} {files : List String} {tables : Option String}
    {out : String} {languages : List Language} {options : BindingOptions}
    (h : given.command .generate = .ok (.generate files tables out languages options)) :
    languages = given.requested.eraseDups := by
  rw [Given.command] at h
  split at h
  · cases h
  dsimp only at h
  split at h
  · cases h
  split at h
  · cases h
  cases h
  rw [Given.requested]
  split
  · decide
  · rfl

variable (tree : FileTree) (files : List String) (tables : Option String) (out : String)
  (languages : List Language) (options : BindingOptions) (quiet : Bool)

/-- A request to write bindings is carried out completely, up to the languages that have no
bindings, or not at all. -/
structure AllOrNothing : Prop where
  exit_one : (∃ report later, runOn ⟨.generate files tables out languages options, quiet⟩ tree =
      (some report, later) ∧ report.exit = 1) ↔ ¬ ∃ found, Loads tree files tables found
  of_not_loads : (¬ ∃ found, Loads tree files tables found) → ∃ errors,
    runOn ⟨.generate files tables out languages options, quiet⟩ tree =
      (some ⟨1, [], errors⟩, tree)
  of_loads : ∀ t m, Loads tree files tables (t, m) → ∃ report later,
    runOn ⟨.generate files tables out languages options, quiet⟩ tree = (some report, later) ∧
      Answers (bindings options m t) languages out quiet tree report later

variable {tree files tables languages}

theorem language_bindings {t : Tables} {m : Model} {l : Language} {file : BindingFile}
    (h : bindings options m t l = .ok file) : file.language = l := by
  obtain ⟨text, -, rfl⟩ := (Attempt.map_eq_ok_iff _ _ _).mp h
  rfl

theorem run_of_loads {t : Tables} {m : Model} (h : Loads tree files tables (t, m))
    (hout : ∀ l ∈ languages, CanWrite tree out l.fileName) :
    runOn ⟨.generate files tables out languages options, quiet⟩ tree =
      (some (generationReport quiet
          (languages.map fun l ↦ resultOf out l (bindings options m t l))),
        afterWriting tree out (languages.filterMap fun l ↦ (bindings options m t l).toOption)) := by
  obtain ⟨outcome, houtcome, hrun⟩ := run_load tree files tables
  rw [runOn, run, run_bind_eq hrun]
  cases houtcome with
  | loads h' =>
    obtain rfl := h.unique h'
    have hwrite := run_writeBindings (bindings options m t)
      (fun _ _ ↦ language_bindings options) hout
    have hgenerate : (generate .inMemory quiet out languages options t m).run tree = _ :=
      run_bind_eq hwrite _
    exact run_bind_eq hgenerate _
  | breaksOff hbreaks => exact absurd ⟨_, h⟩ hbreaks.not_loads
  | fails _ _ hnot => exact absurd ⟨_, h⟩ hnot

theorem run_of_breaksOff (h : BreaksOff tree files tables) :
    runOn ⟨.generate files tables out languages options, quiet⟩ tree = (none, tree) := by
  obtain ⟨outcome, houtcome, hrun⟩ := run_load tree files tables
  rw [runOn, run, run_bind_eq hrun]
  cases houtcome with
  | loads h' => exact absurd ⟨_, h'⟩ h.not_loads
  | breaksOff => rfl
  | fails _ hnot => exact absurd h hnot

theorem run_of_not_loads (h : ¬ BreaksOff tree files tables)
    (h' : ¬ ∃ found, Loads tree files tables found) :
    ∃ message, runOn ⟨.generate files tables out languages options, quiet⟩ tree =
      (some (.invalid message), tree) := by
  obtain ⟨outcome, houtcome, hrun⟩ := run_load tree files tables
  rw [runOn, run, run_bind_eq hrun]
  cases houtcome with
  | loads hloads => exact absurd ⟨_, hloads⟩ h'
  | breaksOff hbreaks => exact absurd hbreaks h
  | fails message => exact ⟨message, rfl⟩

theorem allOrNothing_of_not_breaksOff (hlanguages : languages.Nodup)
    (hout : ∀ l ∈ languages, CanWrite tree out l.fileName) (h : ¬ BreaksOff tree files tables) :
    AllOrNothing tree files tables out languages options quiet := by
  have hanswers (t : Tables) (m : Model) := answers_generationReport tree out
    (bindings options m t) (fun _ _ ↦ language_bindings options) hlanguages quiet
  refine ⟨⟨?_, fun hno ↦ ?_⟩, fun hno ↦ ?_, fun t m hm ↦
    ⟨_, _, run_of_loads out options quiet hm hout, hanswers t m⟩⟩
  · rintro ⟨report, later, hrun, hexit⟩ ⟨⟨t, m⟩, hm⟩
    cases hrun.symm.trans (run_of_loads out options quiet hm hout)
    exact (hanswers t m).exit_ne_one hexit
  · obtain ⟨message, hrun⟩ := run_of_not_loads out options quiet h hno
    exact ⟨_, tree, hrun, rfl⟩
  · obtain ⟨message, hrun⟩ := run_of_not_loads out options quiet h hno
    exact ⟨[message], hrun⟩

variable {out options} in
/-- Every request to write bindings into a folder in which that is possible is carried out
completely or not at all, just when no file breaks the reading off. A file that does ends inside an
escape, and then there is no answer. -/
theorem allOrNothing_iff {given : Given} (h : given.command .generate =
      .ok (.generate files tables out languages options))
    (hout : ∀ l ∈ languages, (tree.write? out l.fileName "").isSome) :
    languages = given.requested.eraseDups ∧
      (AllOrNothing tree files tables out languages options quiet ↔
        ¬ BreaksOff tree files tables) ∧
      (BreaksOff tree files tables →
        runOn ⟨.generate files tables out languages options, quiet⟩ tree = (none, tree) ∧
          ∃ path ∈ files, ∃ text, tree.read? path = some text ∧
            EndsAfterBackslash text.toList) := by
  have hlanguages := given.languages_eq h
  refine ⟨hlanguages, ⟨fun hall hbreaks ↦ ?_, fun hnot ↦ ?_⟩, fun hbreaks ↦
    ⟨run_of_breaksOff out options quiet hbreaks, hbreaks.exists_file⟩⟩
  · obtain ⟨errors, hrun⟩ := hall.of_not_loads hbreaks.not_loads
    rw [run_of_breaksOff out options quiet hbreaks] at hrun
    cases hrun
  · exact allOrNothing_of_not_breaksOff out options quiet (hlanguages ▸ nodup_eraseDups _)
      (fun l hl ↦ canWrite_of_write? (hout l hl)) hnot

/-- A file with nothing in it but a quote and a backslash. -/
def cutTree : FileTree :=
  ofFiles [("a.graphql", "\"\\")]

theorem breaksOff_cutTree : BreaksOff cutTree ["a.graphql"] none := by
  have hread : Load.readFile 0 (.ofText "a.graphql" "\"\\") = .error .cutEscape := by
    rw [Load.readFile, Document.parse?, if_pos (by decide +kernel)]
  refine ⟨rfl, [.ofText "a.graphql" "\"\\"], by decide +kernel, ?_⟩
  rw [Schema.load, Load.readFiles, hread]
  rfl

/-- The run on it is broken off, so there is no exit code. -/
theorem not_allOrNothing_cutTree :
    (∀ l ∈ Language.all, (cutTree.write? "gen" l.fileName "").isSome) ∧
      ¬ AllOrNothing cutTree ["a.graphql"] none "gen" Language.all ⟨⟨true, none⟩, true⟩ false := by
  refine ⟨by decide +kernel, fun hall ↦ ?_⟩
  obtain ⟨errors, hrun⟩ := hall.of_not_loads breaksOff_cutTree.not_loads
  rw [run_of_breaksOff _ _ _ breaksOff_cutTree] at hrun
  cases hrun

def storeTree : FileTree :=
  ofFiles [("store.graphql", "enum Store \x7b PLAY_STORE PlayStore \x7d")]

def storeGiven : Given :=
  ⟨[.noHeader], some "gen", none, none, [.kotlin, .swift, .kotlin], ["store.graphql"]⟩

theorem allOrNothing_storeTree :
    storeGiven.command .generate =
        .ok (.generate ["store.graphql"] none "gen" [.kotlin, .swift] ⟨⟨false, none⟩, true⟩) ∧
      (∀ l ∈ [Language.kotlin, .swift], (storeTree.write? "gen" l.fileName "").isSome) ∧
      AllOrNothing storeTree ["store.graphql"] none "gen" [.kotlin, .swift] ⟨⟨false, none⟩, true⟩
        false ∧
      (runOn ⟨.generate ["store.graphql"] none "gen" [.kotlin, .swift] ⟨⟨false, none⟩, true⟩,
        false⟩ storeTree).1.map (·.exit) = some 2 := by
  have hcommand : storeGiven.command .generate =
      .ok (.generate ["store.graphql"] none "gen" [.kotlin, .swift] ⟨⟨false, none⟩, true⟩) := by
    decide
  have hout : ∀ l ∈ [Language.kotlin, .swift], (storeTree.write? "gen" l.fileName "").isSome := by
    decide +kernel
  obtain ⟨-, hiff, hbreaks⟩ := allOrNothing_iff false hcommand hout
  refine ⟨hcommand, hout, hiff.mpr fun h ↦ ?_, by decide +kernel⟩
  obtain ⟨-, path, hpath, text, htext, hends⟩ := hbreaks h
  obtain rfl := List.mem_singleton.mp hpath
  have hread : storeTree.read? "store.graphql" =
      some "enum Store \x7b PLAY_STORE PlayStore \x7d" := by
    decide +kernel
  obtain rfl := Option.some_inj.mp (hread.symm.trans htext)
  rw [← endsInEscape_iff] at hends
  exact absurd hends (by decide +kernel)

end Requests

end SchemaBindings.CommandLine
