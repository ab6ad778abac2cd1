import SchemaBindings.Proofs.Target.Defaults
import SchemaBindings.Proofs.Target.Parameters
import SchemaBindings.Proofs.Template.Blocks

namespace SchemaBindings

open Model Template Text Place Fragment

theorem exists_intercalate_eq_append (separator : List Char) {block : List Char}
    {blocks : List (List Char)} (h : block ∈ blocks) :
    ∃ front back, separator.intercalate blocks = front ++ (block ++ back) ∧
      (front = [] ∨ ∃ others, front = others ++ separator) ∧
      (back = [] ∨ ∃ others, back = separator ++ others) := by
  induction blocks with
  | nil => cases h
  | cons first blocks ih =>
    cases blocks with
    | nil =>
      obtain rfl := List.mem_singleton.mp h
      exact ⟨[], [], by simp, .inl rfl, .inl rfl⟩
    | cons second blocks =>
      rw [List.intercalate_cons_cons]
      rcases List.mem_cons.mp h with rfl | h
      · exact ⟨[], separator ++ separator.intercalate (second :: blocks), by simp, .inl rfl,
          .inr ⟨_, rfl⟩⟩
      · obtain ⟨front, back, heq, hfront, hback⟩ := ih h
        refine ⟨first ++ separator ++ front, back, by rw [heq]; simp, .inr ?_, hback⟩
        rcases hfront with rfl | ⟨others, rfl⟩
        · exact ⟨first, by simp⟩
        · exact ⟨first ++ separator ++ others, by simp⟩

namespace Target

variable {t : Target}

section Head

variable {scope : Scope} {pieces : List Fragment}

theorem endsLine_of_getLast? (h : pieces.getLast? = some (.text "\n")) :
    EndsLine (Piece.allContents t.operations pieces scope) := by
  obtain ⟨front, rfl⟩ := List.getLast?_eq_some_iff.mp h
  rw [Piece.allContents_append]
  exact endsLine_concat _

theorem endsLine_whenHolds {condition : Place} (h : pieces.getLast? = some (.text "\n")) :
    EndsLine ((whenHolds condition pieces).contents t.operations scope) := by
  rw [whenHolds, Piece.contents]
  split
  · exact endsLine_of_getLast? h
  · exact endsLine_nil

theorem exists_contents_file (options : FileOptions) (body : List Char) : ∃ head, EndsLine head ∧
    Piece.allContents t.operations (t.language.template .file) (.root (t.fileJson options body)) =
      head ++ (body ++ ['\n']) := by
  have hbody : (key "body").spelling t.operations (.root (t.fileJson options body)) = body := by
    have hmember : (t.fileJson options body).member? "body" = some (.string (.ofList body)) := rfl
    rw [Scope.root, spelling_text hmember, String.toList_ofList]
  have happend (lead : List Fragment) :
      Piece.allContents t.operations (lead ++ [.value (key "body"), .text "\n"])
          (.root (t.fileJson options body)) =
        Piece.allContents t.operations lead (.root (t.fileJson options body)) ++
          (body ++ ['\n']) := by
    rw [Piece.allContents_append, Piece.allContents_cons, Piece.contents_value, hbody]
    rfl
  cases t.language with
  | kotlin =>
    refine ⟨_, ?_, happend Kotlin.fileTemplate.dropLast.dropLast⟩
    exact (endsLine_whenHolds rfl).append ((endsLine_whenHolds rfl).append endsLine_nil)
  | swift =>
    refine ⟨_, ?_, happend Swift.fileTemplate.dropLast.dropLast⟩
    exact endsLine_of_getLast? rfl
  | dart =>
    refine ⟨_, ?_, happend Dart.fileTemplate.dropLast.dropLast⟩
    exact (endsLine_whenHolds rfl).append ((endsLine_whenHolds rfl).append endsLine_nil)
  | typeScript =>
    refine ⟨_, ?_, happend TypeScript.fileTemplate.dropLast.dropLast⟩
    exact (endsLine_whenHolds rfl).append endsLine_nil
  | gdScript =>
    refine ⟨_, ?_, happend GdScript.fileTemplate.dropLast.dropLast⟩
    exact endsLine_of_getLast? rfl

end Head

/-- A declaration stands in its file on lines of its own. It is tidied once more, as if it stood
alone. -/
theorem exists_eq_append_of_fileText {options : FileOptions} {text : List Char}
    (h : t.fileText options = .ok text) {p : Part} (hp : p ∈ t.model.parts) {part : List Char}
    (hpart : t.partText p = .ok part) (hfilled : ¬ allBlank part) :
    ∃ before after, text = before ++ tidy (trimEnd part) ++ after ∧ EndsLine before := by
  obtain ⟨-, -, h⟩ := (Attempt.bind_eq_ok_iff _ _ _).mp h
  obtain ⟨texts, htexts, h⟩ := (Attempt.bind_eq_ok_iff _ _ _).mp h
  rw [declarationTexts_eq_mapM] at htexts
  obtain ⟨part', hmem, hpart'⟩ := Attempt.exists_ok_of_mapM_of_mem htexts p hp
  obtain rfl : part' = part := Except.ok.inj (hpart'.symm.trans hpart)
  have hblock : trimEnd part' ∈ (texts.map trimEnd).filter (· ≠ []) := by
    refine List.mem_filter.mpr ⟨List.mem_map_of_mem hmem, ?_⟩
    simpa [trimEnd_eq_nil_iff] using hfilled
  obtain ⟨head, hhead, hcontents⟩ := exists_contents_file (t := t) options (joinDeclarations texts)
  obtain ⟨front, back, hjoin, hfront, hback⟩ :=
    exists_intercalate_eq_append ['\n', '\n'] hblock
  have hfront : EndsLine front := by
    rcases hfront with rfl | ⟨others, rfl⟩
    · exact endsLine_nil
    · simp [EndsLine]
  obtain ⟨rest, hrest⟩ : ∃ rest, back ++ ['\n'] = '\n' :: rest := by
    rcases hback with rfl | ⟨others, rfl⟩
    · exact ⟨[], rfl⟩
    · exact ⟨_, rfl⟩
  have htext : text = tidy (head ++ front ++ (trimEnd part' ++ '\n' :: rest)) := by
    rw [eq_tidy_of_write h, hcontents, joinDeclarations, hjoin, ← hrest]
    simp
  rw [htext]
  exact exists_tidy_eq_append (hhead.append hfront) (by rwa [allBlank_trimEnd])
    (trimEnd_trimEnd _) rest

theorem input_mem_parts {m : Model} {i : InputType} (hi : i ∈ m.inputs) :
    Part.input i ∈ m.parts := by
  simp only [Model.parts, List.mem_append]
  exact .inl (.inl (.inr (List.mem_map_of_mem hi)))

theorem fileText_of_bindings {options : BindingOptions} {m : Model} {tables : Tables}
    {language : Language} {file : BindingFile} (h : bindings options m tables language = .ok file) :
    fileText ⟨language, options.selected m, tables⟩ options.toFileOptions =
      .ok file.contents.toList := by
  obtain ⟨text, htext, rfl⟩ := (Attempt.map_eq_ok_iff _ _ _).mp h
  rw [htext, String.toList_ofList]

theorem exists_tidy_of_fileText {options : FileOptions} {text : List Char}
    (h : t.fileText options = .ok text) : ∃ cs, text = tidy cs := by
  obtain ⟨-, -, h⟩ := (Attempt.bind_eq_ok_iff _ _ _).mp h
  obtain ⟨texts, -, h⟩ := (Attempt.bind_eq_ok_iff _ _ _).mp h
  exact ⟨_, eq_tidy_of_write h⟩

/-- What replaces an input type stands in the file as it is tidied. Its own text stands there only
if it obeys the rules for blank lines, and when it starts with a line that is not blank this is
enough. -/
theorem bindings_replacement {options : BindingOptions} {m : Model} {tables : Tables}
    {language : Language} {file : BindingFile} (h : bindings options m tables language = .ok file)
    {i : InputType} (hi : i ∈ (options.selected m).inputs) {custom : CustomInput}
    (hcustom : tables.customInput? i.name language.text = some custom) {declaration : String}
    (hdeclaration : custom.declaration = some declaration)
    (hfilled : ¬ allBlank declaration.toList) :
    let block := trimEnd declaration.toList
    let contents := file.contents.toList
    (∃ before after, contents = before ++ tidy block ++ after ∧ EndsLine before) ∧
      (block <:+: contents → IsTidied (filledLines block) (filledLines block)) ∧
      ((∀ line ∈ (splitLines block).head?, ¬ allBlank line) →
        (block <:+: contents ↔ IsTidied (splitLines block) (splitLines block))) := by
  intro block contents
  have htext := fileText_of_bindings h
  have hpart : partText ⟨language, options.selected m, tables⟩ (.input i) =
      .ok declaration.toList := by
    have hcustom : customInput? ⟨language, options.selected m, tables⟩ i.name = some custom :=
      hcustom
    simp only [partText, inputText, hcustom, hdeclaration, Option.getD_some]
  obtain ⟨before, after, hplace, hbefore⟩ :=
    exists_eq_append_of_fileText htext (input_mem_parts hi) hpart hfilled
  have hrules (hstands : block <:+: contents) :
      IsTidied (filledLines block) (filledLines block) := by
    obtain ⟨cs, hcs⟩ := exists_tidy_of_fileText htext
    have hcontents : contents = tidy cs := hcs
    rw [hcontents] at hstands
    exact isTidied_of_infix_tidy hstands (by rwa [allBlank_trimEnd]) (trimEnd_trimEnd _)
  refine ⟨⟨before, after, hplace, hbefore⟩, hrules,
    fun hfirst ↦ ⟨fun hstands ↦ ?_, fun htidied ↦ ?_⟩⟩
  · rw [← filledLines_eq_self hfirst]
    exact hrules hstands
  · rw [tidy_eq_of_isTidied htidied] at hplace
    exact ⟨before, '\n' :: after, by simpa using hplace.symm⟩

def criteriaSources : Sources :=
  [.ofText "filter.graphql" "input Filter \x7b lowest: Int \x7d"]

def helpDeclaration (help : String) : String :=
  "class Criteria \x7b\n    val help = \"\"\"" ++ help ++ "\"\"\"\n\x7d"

def helpTables (help : String) : Tables :=
  { Tables.empty with
    customInputs := [("Filter", [("kotlin", ⟨"Criteria", some (helpDeclaration help)⟩)])] }

theorem customInput?_helpTables {help name : String} (h : name == "Filter") : ∃ custom,
    (helpTables help).customInput? name Language.kotlin.text = some custom ∧
      custom.declaration = some (helpDeclaration help) := by
  rw [beq_iff_eq.mp h]
  exact ⟨_, rfl, rfl⟩

theorem bindings_replacement_help : ∃ loaded m file i custom,
    Schema.load criteriaSources = .ok loaded ∧
      Model.build loaded (helpTables "Lowest\n\nten") = .ok m ∧
      bindings ⟨anyOptions, true⟩ m (helpTables "Lowest\n\nten") .kotlin = .ok file ∧
      i ∈ m.inputs ∧
      (helpTables "Lowest\n\nten").customInput? i.name Language.kotlin.text = some custom ∧
      custom.declaration = some (helpDeclaration "Lowest\n\nten") ∧
      ¬ allBlank (helpDeclaration "Lowest\n\nten").toList ∧
      trimEnd (helpDeclaration "Lowest\n\nten").toList <:+: file.contents.toList := by
  have hrun : Attempt.succeeds (Schema.load criteriaSources) (fun loaded ↦
      Attempt.succeeds (Model.build loaded (helpTables "Lowest\n\nten")) fun m ↦
        Attempt.succeeds (bindings ⟨anyOptions, true⟩ m (helpTables "Lowest\n\nten") .kotlin)
          fun _ ↦ m.inputs.any fun i ↦ i.name == "Filter") = true := by
    decide +kernel
  obtain ⟨loaded, hload, hrun⟩ := (Attempt.succeeds_iff _ _).mp hrun
  obtain ⟨m, hbuild, hrun⟩ := (Attempt.succeeds_iff _ _).mp hrun
  obtain ⟨file, hfile, hany⟩ := (Attempt.succeeds_iff _ _).mp hrun
  obtain ⟨i, hi, hname⟩ := List.any_eq_true.mp hany
  obtain ⟨custom, hcustom, hdeclaration⟩ := customInput?_helpTables hname
  have hfilled : ¬ allBlank (helpDeclaration "Lowest\n\nten").toList := by decide
  have hplaced := bindings_replacement hfile hi hcustom hdeclaration hfilled
  exact ⟨loaded, m, file, i, custom, hload, hbuild, hfile, hi, hcustom, hdeclaration, hfilled,
    (hplaced.2.2 (by decide)).mpr (by decide)⟩

/-- A line of the text that ends with a colon is taken for the opening of a block, so the blank line
behind it goes. -/
theorem not_verbatim_help :
    ¬∀ (sources : Sources) (loaded : LoadedSchema) (tables : Tables) (m : Model)
      (options : BindingOptions) (language : Language) (file : BindingFile),
      Schema.load sources = .ok loaded → Model.build loaded tables = .ok m →
      bindings options m tables language = .ok file → ∀ i ∈ (options.selected m).inputs,
      ∀ custom declaration, tables.customInput? i.name language.text = some custom →
        custom.declaration = some declaration → ¬ allBlank declaration.toList →
        trimEnd declaration.toList <:+: file.contents.toList := by
  intro h
  have hrun : Attempt.succeeds (Schema.load criteriaSources) (fun loaded ↦
      Attempt.succeeds (Model.build loaded (helpTables "Lowest:\n\nten")) fun m ↦
        Attempt.succeeds (bindings ⟨anyOptions, true⟩ m (helpTables "Lowest:\n\nten") .kotlin)
          fun file ↦ m.inputs.any fun i ↦ i.name == "Filter" &&
            !decide (trimEnd (helpDeclaration "Lowest:\n\nten").toList <:+:
              file.contents.toList)) = true := by
    decide +kernel
  obtain ⟨loaded, hload, hrun⟩ := (Attempt.succeeds_iff _ _).mp hrun
  obtain ⟨m, hbuild, hrun⟩ := (Attempt.succeeds_iff _ _).mp hrun
  obtain ⟨file, hfile, hany⟩ := (Attempt.succeeds_iff _ _).mp hrun
  obtain ⟨i, hi, hnot⟩ := List.any_eq_true.mp hany
  obtain ⟨hname, hnot⟩ := Bool.and_eq_true_iff.mp hnot
  obtain ⟨custom, hcustom, hdeclaration⟩ := customInput?_helpTables hname
  have hstands := h criteriaSources loaded _ m ⟨anyOptions, true⟩ .kotlin file hload hbuild hfile
    i hi custom _ hcustom hdeclaration (by decide)
  rw [decide_eq_true hstands] at hnot
  cases hnot

end Target

end SchemaBindings
