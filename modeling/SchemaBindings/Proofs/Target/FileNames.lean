import SchemaBindings.Proofs.Target.Declarations

namespace SchemaBindings

open Model Template

theorem Declared.exists_eq_clash_of_clash? {declared : List Declared} {o : Obstacle}
    (h : clash? declared = some o) :
    ∃ first second identifier, o = .clash first second identifier := by
  unfold clash? at h
  generalize [] = seen at h
  induction declared generalizing seen with
  | nil => cases h
  | cons d ds ih =>
    rw [clashAfter?] at h
    split at h
    · cases h
      exact ⟨_, _, _, rfl⟩
    · exact ih _ h

namespace Target

variable {t : Target}

theorem eq_none_of_refuse {c : Construct} {o : Option Obstacle} {u : Unit}
    (h : refuse c o = .ok u) : o = none := by
  cases o with
  | none => rfl
  | some o => cases h

variable (t) in
/-- The identifiers of scalars that are kept free though only a comment mentions them. -/
def unwrittenIdentifiers : List String :=
  if t.language = .gdScript then t.model.scalars.map fun s ↦ t.language.typeName s.name else []

theorem map_extraIdentifiers :
    t.extraIdentifiers.map (·.identifier) =
      t.model.enums.flatMap t.enumExtras ++ t.model.unions.flatMap t.unionExtras := by
  have hvariants : t.variantClasses.map (·.identifier) = t.model.unions.flatMap fun u ↦
      if u.kind = .wrapper then
        u.members.map fun m ↦ t.language.typeName u.name ++ t.language.variantName m.name
      else [] := by
    rw [variantClasses]
    induction t.model.unions with
    | nil => rfl
    | cons u us ih =>
      by_cases hu : u.kind = .wrapper
      · simp [hu, ih, Function.comp_def]
      · simp [hu, ih]
  unfold extraIdentifiers enumExtras unionExtras
  cases hl : t.language <;> simp [hvariants, hl, Function.comp_def, ← List.map_eq_flatMap]

theorem flatMap_partIdentifiers_perm :
    (t.model.parts.flatMap t.partIdentifiers ++ t.unwrittenIdentifiers).Perm
      (t.fileIdentifiers.map (·.identifier)) := by
  have hscalars : (t.model.scalars.flatMap fun s ↦ t.partIdentifiers (.scalar s)) ++
      t.unwrittenIdentifiers = t.model.scalars.map fun s ↦ t.language.typeName s.name := by
    by_cases hl : t.language = .gdScript
    · simp [partIdentifiers, unwrittenIdentifiers, hl]
    · simp [partIdentifiers, unwrittenIdentifiers, hl, ← List.map_eq_flatMap]
  have henums : (t.model.enums.flatMap fun e ↦ t.partIdentifiers (.enum e)).Perm
      (t.model.enums.map (fun e ↦ t.language.typeName e.name) ++
        t.model.enums.flatMap t.enumExtras) :=
    (List.map_append_flatMap_perm _ _ _).symm
  have hunions : (t.model.unions.flatMap fun u ↦ t.partIdentifiers (.union u)).Perm
      (t.model.unions.map (fun u ↦ t.language.typeName u.name) ++
        t.model.unions.flatMap t.unionExtras) :=
    (List.map_append_flatMap_perm _ _ _).symm
  have hparts : t.model.parts.flatMap t.partIdentifiers =
      (t.model.scalars.flatMap fun s ↦ t.partIdentifiers (.scalar s)) ++
        (t.model.enums.flatMap fun e ↦ t.partIdentifiers (.enum e)) ++
        t.model.interfaces.map (fun r ↦ t.language.typeName r.name) ++
        t.model.objects.map (fun r ↦ t.language.typeName r.name) ++
        t.model.inputs.map (fun i ↦ (t.inputIdentifier i).identifier) ++
        (t.model.unions.flatMap fun u ↦ t.partIdentifiers (.union u)) ++
        t.model.operations.map (fun o ↦ t.language.typeName o.typeName ++ "Resolver") := by
    simp only [Model.parts, List.flatMap_append, List.flatMap_map]
    simp only [List.map_eq_flatMap, partIdentifiers]
  have hfile : t.fileIdentifiers.map (·.identifier) =
      t.model.scalars.map (fun s ↦ t.language.typeName s.name) ++
        t.model.enums.map (fun e ↦ t.language.typeName e.name) ++
        t.model.interfaces.map (fun r ↦ t.language.typeName r.name) ++
        t.model.objects.map (fun r ↦ t.language.typeName r.name) ++
        t.model.inputs.map (fun i ↦ (t.inputIdentifier i).identifier) ++
        t.model.unions.map (fun u ↦ t.language.typeName u.name) ++
        t.model.operations.map (fun o ↦ t.language.typeName o.typeName ++ "Resolver") ++
        (t.model.enums.flatMap t.enumExtras ++ t.model.unions.flatMap t.unionExtras) := by
    simp only [fileIdentifiers, List.map_append, List.map_map, map_extraIdentifiers]
    rfl
  rw [hparts, hfile, ← hscalars]
  refine List.perm_iff_count.mpr fun identifier ↦ ?_
  have henums := henums.count_eq identifier
  have hunions := hunions.count_eq identifier
  simp only [List.count_append] at henums hunions ⊢
  omega

theorem exists_mapM_written? {parts : List Part} {texts : List (List Char)}
    (h : parts.mapM t.partText = .ok texts) :
    ∃ written, parts.mapM t.written? = some written ∧ written.map (·.text) = texts := by
  induction parts generalizing texts with
  | nil =>
    cases h
    exact ⟨[], rfl, rfl⟩
  | cons p parts ih =>
    rw [List.mapM_cons] at h
    obtain ⟨text, htext, h⟩ := (Attempt.bind_eq_ok_iff _ _ _).mp h
    obtain ⟨others, hothers, h⟩ := (Attempt.bind_eq_ok_iff _ _ _).mp h
    cases h
    obtain ⟨w, hw, rfl⟩ := exists_written?_of_partText htext
    obtain ⟨written, hwritten, rfl⟩ := ih hothers
    exact ⟨w :: written, by rw [List.mapM_cons, hw, hwritten]; rfl, rfl⟩

theorem map_names_of_mapM_written? {parts : List Part} {written : List Written}
    (h : parts.mapM t.written? = some written) :
    written.map Written.names = parts.map t.partIdentifiers := by
  induction parts generalizing written with
  | nil =>
    cases h
    rfl
  | cons p parts ih =>
    rw [List.mapM_cons] at h
    obtain ⟨w, hw, h⟩ := Option.bind_eq_some_iff.mp h
    obtain ⟨others, hothers, h⟩ := Option.bind_eq_some_iff.mp h
    cases h
    rw [List.map_cons, List.map_cons, names_of_written? hw, ih hothers]

/-- If bindings are written at all, the parts of the file declare their identifiers and no others,
and all of these are distinct. Where two identifiers of the file are the same, the file is refused
as a construct that the language lacks. -/
theorem fileText_declares_distinct (t : Target) (options : FileOptions) :
    (∀ text, t.fileText options = .ok text → ∃ written : List Written,
      t.model.parts.mapM t.written? = some written ∧
      t.write .file (t.fileJson options (joinDeclarations (written.map (·.text)))) = .ok text ∧
      written.map Written.names = t.model.parts.map t.partIdentifiers ∧
      (written.flatMap Written.names).Nodup ∧
      (written.flatMap Written.names ++ t.unwrittenIdentifiers).Perm
        (t.fileIdentifiers.map (·.identifier))) ∧
    (¬ (t.fileIdentifiers.map (·.identifier)).Nodup → ∃ first second identifier,
      t.fileText options = .error
        (.unsupported (.file t.language.fileName) (.clash first second identifier))) := by
  constructor
  · intro text h
    obtain ⟨_, hrefuse, h⟩ := (Attempt.bind_eq_ok_iff _ _ _).mp h
    obtain ⟨texts, htexts, h⟩ := (Attempt.bind_eq_ok_iff _ _ _).mp h
    rw [declarationTexts_eq_mapM] at htexts
    obtain ⟨written, hwritten, rfl⟩ := exists_mapM_written? htexts
    have hnames := map_names_of_mapM_written? hwritten
    have hperm : (written.flatMap Written.names ++ t.unwrittenIdentifiers).Perm
        (t.fileIdentifiers.map (·.identifier)) := by
      rw [List.flatMap_def, hnames, ← List.flatMap_def]
      exact flatMap_partIdentifiers_perm
    have hdistinct : (t.fileIdentifiers.map (·.identifier)).Nodup :=
      Declared.clash?_eq_none.mp (eq_none_of_refuse hrefuse)
    exact ⟨written, hwritten, h, hnames, (hperm.nodup_iff.mpr hdistinct).of_append_left, hperm⟩
  · intro hrepeated
    cases hclash : Declared.clash? t.fileIdentifiers with
    | none => exact absurd (Declared.clash?_eq_none.mp hclash) hrepeated
    | some o =>
      obtain ⟨first, second, identifier, rfl⟩ := Declared.exists_eq_clash_of_clash? hclash
      exact ⟨first, second, identifier, by rw [fileText, hclash]; rfl⟩

def petModel (others : List RecordType) : Model :=
  { Model.empty (.signed ["pet.graphql"]) with
    objects := ⟨"Cat", none, .stable, [], []⟩ :: others
    unions := [⟨"Pet", none, .stable, .wrapper, [⟨"cat", "Cat", none, none, .stable⟩]⟩] }

/-- The class around a member of a wrapper can be in the way of an object. -/
theorem fileText_petModel :
    (∃ text written, fileText ⟨.dart, petModel [], .empty⟩ anyOptions = .ok text ∧
      (petModel []).parts.mapM (written? ⟨.dart, petModel [], .empty⟩) = some written ∧
      written.map Written.names = [["Cat"], ["Pet", "PetCat"]] ∧
      (written.flatMap Written.names).Nodup) ∧
    ∃ first second identifier,
      fileText ⟨.dart, petModel [⟨"PetCat", none, .stable, [], []⟩], .empty⟩ anyOptions = .error
        (.unsupported (.file "types.dart") (.clash first second identifier)) := by
  have hrun : Attempt.succeeds (fileText ⟨.dart, petModel [], .empty⟩ anyOptions)
      (fun _ ↦ true) = true := by decide +kernel
  obtain ⟨text, htext, -⟩ := (Attempt.succeeds_iff _ _).mp hrun
  obtain ⟨written, hwritten, -, hnames, hnodup, -⟩ :=
    (fileText_declares_distinct ⟨.dart, petModel [], .empty⟩ anyOptions).1 text htext
  refine ⟨⟨text, written, htext, hwritten, hnames.trans (by decide +kernel), hnodup⟩, ?_⟩
  exact (fileText_declares_distinct
    ⟨.dart, petModel [⟨"PetCat", none, .stable, [], []⟩], .empty⟩ anyOptions).2 (by decide +kernel)

end Target

end SchemaBindings
