import SchemaBindings.Proofs.Model.Faults
import SchemaBindings.Proofs.Model.References
import SchemaBindings.Proofs.Schema.Annotations

namespace SchemaBindings

open Sdl Model Attempt

namespace Tables

def olderNames (t : Tables) : List String :=
  t.legacyAliases.flatMap (·.2)

def renamings (t : Tables) : List (String × String) :=
  t.legacyAliases.flatMap fun row ↦ row.2.map (·, row.1)

def defaultRows (t : Tables) : List PlatformDefault :=
  t.platformDefaults.flatMap fun row ↦ row.2.map fun f ↦ ⟨row.1, f.1, f.2⟩

end Tables

namespace Model

def EnumType.valueNames (e : EnumType) : List String :=
  e.values.map (·.name)

def fielded (m : Model) : List (String × List Field) :=
  m.objects.map (fun t ↦ (t.name, t.fields)) ++ m.inputs.map (fun t ↦ (t.name, t.fields)) ++
    m.interfaces.map fun t ↦ (t.name, t.fields)

/-- The enum can get all older names: each is for a value of it, and no name is taken twice. -/
structure EnumType.Admits (e : EnumType) (t : Tables) : Prop where
  canonical : ∀ row ∈ t.legacyAliases, row.1 ∈ e.valueNames
  distinct : t.olderNames.Nodup
  free : ∀ name ∈ t.olderNames, name ∉ e.valueNames

end Model

/-- Every row of the tables finds its target. -/
structure Tables.Fits (t : Tables) (s : Schema) (m : Model) : Prop where
  aliases : t.legacyAliases = [] ∨ ∃ e ∈ m.enums, e.name = t.errorCodeEnum ∧ e.Admits t
  defaults : ∀ row ∈ t.platformDefaults, ∃ type ∈ m.fielded, type.1 = row.1 ∧
    ∀ f ∈ row.2, f.1 ∈ type.2.map (·.name)
  inputs : ∀ row ∈ t.customInputs, ∃ type ∈ s.types, type.name = row.1 ∧ type.kind = .inputObject

def Sources.valueNames (sources : Sources) (name : String) : List String :=
  ((Merge.declarations sources.definitions ++ Merge.extensions sources.definitions).filter
    (·.definition.name.text == name)).flatMap fun part ↦ part.definition.values.map (·.name.text)

/-- The model holds all rows of the tables, and else what it holds without tables. -/
structure Tables.ShownIn (t : Tables) (sources : Sources) (bare m : Model) : Prop where
  values_nodup : ∀ e ∈ m.enums, e.valueNames.Nodup
  values_eq : ∀ e ∈ m.enums, e.valueNames = sources.valueNames e.name
  ordinals : ∀ e ∈ m.enums, e.values.map (·.ordinal) = List.range e.values.length
  aliases : ∀ e ∈ m.enums, e.name = t.errorCodeEnum →
    e.aliases.map (fun a ↦ (a.name, a.canonical)) = t.renamings
  alias_ordinals : ∀ e ∈ m.enums, ∀ a ∈ e.aliases,
    ∃ v ∈ e.values, v.name = a.canonical ∧ v.ordinal = a.ordinal
  no_aliases : ∀ e ∈ m.enums, e.name ≠ t.errorCodeEnum → e.aliases = []
  defaults : m.platformDefaults = t.defaultRows
  others : { m with enums := m.enums.map EnumType.withoutAliases, platformDefaults := [] } = bare

namespace Model.EnumType

/-- The older names that a row gives to the value it is for. -/
def aliasesFrom (e : EnumType) (row : String × List String) : List EnumAlias :=
  (e.value? row.1).toList.flatMap fun v ↦ row.2.map (⟨·, row.1, v.ordinal⟩)

def gain (e : EnumType) (aliases : List EnumAlias) : EnumType :=
  { e with aliases := e.aliases ++ aliases }

/-- The names are new to the enum and differ from each other. -/
def Lacks (e : EnumType) (names : List String) : Prop :=
  names.Nodup ∧ ∀ name ∈ names, name ∉ e.valueNames ∧ name ∉ e.aliases.map (·.name)

theorem gain_nil (e : EnumType) : e.gain [] = e := by
  rw [gain, List.append_nil]

theorem gain_gain (e : EnumType) (as bs : List EnumAlias) :
    (e.gain as).gain bs = e.gain (as ++ bs) := by
  simp only [gain, List.append_assoc]

theorem lacks_append {e : EnumType} {as : List EnumAlias} {names : List String}
    (h : as.map (·.name) = names) (others : List String) :
    e.Lacks (names ++ others) ↔ e.Lacks names ∧ (e.gain as).Lacks others := by
  have hvalues : (e.gain as).valueNames = e.valueNames := rfl
  have haliases : (e.gain as).aliases.map (·.name) = e.aliases.map (·.name) ++ names := by
    rw [gain, List.map_append, h]
  simp only [Lacks, hvalues, haliases, List.nodup_append, List.mem_append, not_or]
  grind

theorem value?_isSome_iff (e : EnumType) (name : String) :
    (∃ v, e.value? name = some v) ↔ name ∈ e.valueNames := by
  rw [← Option.isSome_iff_exists, value?, List.find?_isSome, valueNames, List.mem_map]
  simp only [beq_iff_eq]

theorem aliasesFrom_of_value? {e : EnumType} {row : String × List String} {v : EnumValue}
    (h : e.value? row.1 = some v) : e.aliasesFrom row = row.2.map (⟨·, row.1, v.ordinal⟩) := by
  rw [aliasesFrom, h]
  exact List.flatMap_singleton _ _

theorem map_aliasesFrom {α : Type} {e : EnumType} {row : String × List String}
    (h : row.1 ∈ e.valueNames) {f : EnumAlias → α} {g : String → String → α}
    (hf : ∀ a, f a = g a.name a.canonical) :
    (e.aliasesFrom row).map f = row.2.map (g · row.1) := by
  obtain ⟨v, hv⟩ := (e.value?_isSome_iff row.1).mpr h
  rw [aliasesFrom_of_value? hv, List.map_map]
  exact List.map_congr_left fun name _ ↦ hf _

theorem names_aliasesFrom {e : EnumType} {row : String × List String}
    (h : row.1 ∈ e.valueNames) : (e.aliasesFrom row).map (·.name) = row.2 := by
  rw [map_aliasesFrom h (g := fun name _ ↦ name) fun _ ↦ rfl, List.map_id']

end Model.EnumType

def Tables.rename (t : Tables) (e : EnumType) : EnumType :=
  if e.name = t.errorCodeEnum then e.gain (t.legacyAliases.flatMap e.aliasesFrom) else e

namespace Model.Build

section Aliases

variable {e e' : EnumType}

theorem addAlias_eq_ok_iff {canonical older : String} {ordinal : Nat} :
    addAlias canonical ordinal e older = .ok e' ↔
      e.Lacks [older] ∧ e' = e.gain [⟨older, canonical, ordinal⟩] := by
  have htaken : (e.values.any (·.name == older) || e.aliases.any (·.name == older)) = true ↔
      ¬ e.Lacks [older] := by
    simp only [Bool.or_eq_true, List.any_eq_true, beq_iff_eq, EnumType.Lacks,
      List.nodup_singleton, List.forall_mem_singleton, EnumType.valueNames, List.mem_map, true_and]
    exact or_iff_not_and_not
  unfold addAlias
  split
  next h => exact iff_of_false nofun fun hnew ↦ htaken.mp h hnew.1
  next h =>
    rw [Except.ok.injEq, eq_comm]
    exact (and_iff_right (not_not.mp (htaken.not.mp h))).symm

theorem foldlM_addAlias_eq_ok_iff {canonical : String} {ordinal : Nat} (older : List String) :
    older.foldlM (addAlias canonical ordinal) e = .ok e' ↔
      e.Lacks older ∧ e' = e.gain (older.map (⟨·, canonical, ordinal⟩)) := by
  induction older generalizing e with
  | nil =>
    rw [List.foldlM_nil, pure_eq_ok_iff, List.map_nil, EnumType.gain_nil, eq_comm]
    exact (and_iff_right ⟨List.nodup_nil, nofun⟩).symm
  | cons name older ih =>
    have hname : [EnumAlias.mk name canonical ordinal].map (·.name) = [name] := rfl
    have hcons : e.Lacks (name :: older) ↔
        e.Lacks [name] ∧ (e.gain [⟨name, canonical, ordinal⟩]).Lacks older :=
      EnumType.lacks_append hname older
    simp only [List.foldlM_cons, bind_eq_ok_iff, addAlias_eq_ok_iff, ih, hcons]
    constructor
    · rintro ⟨_, ⟨hname, rfl⟩, holder, rfl⟩
      exact ⟨⟨hname, holder⟩, EnumType.gain_gain _ _ _⟩
    · rintro ⟨⟨hname, holder⟩, rfl⟩
      exact ⟨_, ⟨hname, rfl⟩, holder, (EnumType.gain_gain e [_] _).symm⟩

theorem addAliases_eq_ok_iff {row : String × List String} :
    addAliases e row = .ok e' ↔
      (row.1 ∈ e.valueNames ∧ e.Lacks row.2) ∧ e' = e.gain (e.aliasesFrom row) := by
  have hmem := e.value?_isSome_iff row.1
  rw [addAliases]
  cases hv : e.value? row.1 with
  | none =>
    refine iff_of_false nofun fun h ↦ ?_
    obtain ⟨v, hsome⟩ := hmem.mpr h.1.1
    rw [hv] at hsome
    cases hsome
  | some v =>
    rw [EnumType.aliasesFrom_of_value? hv, and_iff_right (hmem.mp ⟨v, hv⟩)]
    exact foldlM_addAlias_eq_ok_iff row.2

/-- Adding the rows one after the other succeeds exactly if each is for a value of the enum and the
names of all rows together are new. -/
theorem foldlM_addAliases_eq_ok_iff (rows : List (String × List String)) :
    rows.foldlM addAliases e = .ok e' ↔
      ((∀ row ∈ rows, row.1 ∈ e.valueNames) ∧ e.Lacks (rows.flatMap (·.2))) ∧
        e' = e.gain (rows.flatMap e.aliasesFrom) := by
  induction rows generalizing e with
  | nil =>
    rw [List.foldlM_nil, pure_eq_ok_iff, List.flatMap_nil, List.flatMap_nil, EnumType.gain_nil,
      eq_comm]
    exact (and_iff_right ⟨nofun, List.nodup_nil, nofun⟩).symm
  | cons row rows ih =>
    simp only [List.foldlM_cons, bind_eq_ok_iff, addAliases_eq_ok_iff, ih, List.forall_mem_cons,
      List.flatMap_cons]
    -- Neither the values nor what a row adds depend on the aliases added before it.
    constructor
    · rintro ⟨_, ⟨⟨hmem, hrow⟩, rfl⟩, ⟨hmems, hrows⟩, rfl⟩
      have hlacks : e.Lacks (row.2 ++ rows.flatMap (·.2)) :=
        (EnumType.lacks_append (EnumType.names_aliasesFrom hmem) _).mpr ⟨hrow, hrows⟩
      exact ⟨⟨⟨hmem, hmems⟩, hlacks⟩, EnumType.gain_gain _ _ _⟩
    · rintro ⟨⟨⟨hmem, hmems⟩, hlacks⟩, rfl⟩
      obtain ⟨hrow, hrows⟩ := (EnumType.lacks_append (EnumType.names_aliasesFrom hmem) _).mp hlacks
      exact ⟨_, ⟨⟨hmem, hrow⟩, rfl⟩, ⟨hmems, hrows⟩, (EnumType.gain_gain _ _ _).symm⟩

theorem replaceFirst_key_eq_map {α : Type} {key : α → String} {as : List α}
    (h : (as.map key).Nodup) {a : α} (ha : a ∈ as) {f : α → α}
    (hf : ∀ b, key b ≠ key a → f b = b) :
    replaceFirst (key · == key a) (f a) as = as.map f := by
  induction as with
  | nil => cases ha
  | cons b as ih =>
    obtain ⟨hnew, h⟩ := List.nodup_cons.mp h
    rw [replaceFirst, List.map_cons]
    rcases List.mem_cons.mp ha with rfl | ha
    · have hrest : ∀ b ∈ as, f b = b := fun b hb ↦
        hf b fun he ↦ hnew (he ▸ List.mem_map_of_mem hb)
      rw [if_pos (beq_self_eq_true _), List.map_congr_left hrest, List.map_id']
    · have hne : key b ≠ key a := fun he ↦ hnew (he ▸ List.mem_map_of_mem ha)
      rw [if_neg (by simpa using hne), ih h ha, hf b hne]

theorem rename_of_nil {t : Tables} (h : t.legacyAliases = []) : t.rename = id := by
  funext e
  rw [Tables.rename, h, List.flatMap_nil, EnumType.gain_nil, ite_self]
  rfl

theorem lacks_iff_of_aliases_eq_nil (h : e.aliases = []) (names : List String) :
    e.Lacks names ↔ names.Nodup ∧ ∀ name ∈ names, name ∉ e.valueNames := by
  rw [EnumType.Lacks, h]
  simp only [List.map_nil, List.not_mem_nil, not_false_iff, and_true]

theorem applyAliases_eq_ok_iff {t : Tables} {m m' : Model} (hn : (m.enums.map (·.name)).Nodup)
    (hplain : ∀ e ∈ m.enums, e.aliases = []) :
    applyAliases t m = .ok m' ↔
      (t.legacyAliases = [] ∨ ∃ e ∈ m.enums, e.name = t.errorCodeEnum ∧ e.Admits t) ∧
        m' = { m with enums := m.enums.map t.rename } := by
  by_cases hnil : t.legacyAliases = []
  · rw [applyAliases, if_pos (List.isEmpty_iff.mpr hnil), and_iff_right (Or.inl hnil),
      rename_of_nil hnil, List.map_id, Except.ok.injEq, eq_comm]
  have hfind : (∃ e ∈ m.enums, e.name = t.errorCodeEnum ∧ e.Admits t) ↔
      ∃ e, m.enum? t.errorCodeEnum = some e ∧ e.Admits t := exists_mem_key_iff hn _ _
  rw [applyAliases, if_neg (List.isEmpty_iff.not.mpr hnil), or_iff_right hnil, hfind]
  cases he : m.enum? t.errorCodeEnum with
  | none =>
    refine iff_of_false nofun ?_
    rintro ⟨⟨_, ⟨⟩, -⟩, -⟩
  | some e =>
    obtain ⟨hmem, hname⟩ := (find?_key_eq_some_iff hn _ e).mp he
    have hadmits : ((∀ row ∈ t.legacyAliases, row.1 ∈ e.valueNames) ∧ e.Lacks t.olderNames) ↔
        e.Admits t := by
      rw [lacks_iff_of_aliases_eq_nil (hplain e hmem)]
      exact ⟨fun h ↦ ⟨h.1, h.2.1, h.2.2⟩, fun h ↦ ⟨h.canonical, h.distinct, h.free⟩⟩
    have hreplace : replaceFirst (·.name == t.errorCodeEnum)
        (e.gain (t.legacyAliases.flatMap e.aliasesFrom)) m.enums = m.enums.map t.rename := by
      have hmap := replaceFirst_key_eq_map (f := t.rename) hn hmem fun b hb ↦
        if_neg (hname ▸ hb)
      rwa [Tables.rename, if_pos hname, hname] at hmap
    simp only [bind_eq_ok_iff, pure_eq_ok_iff, foldlM_addAliases_eq_ok_iff, Option.some_inj,
      exists_eq_left']
    rw [← hadmits]
    constructor
    · rintro ⟨_, ⟨hrows, rfl⟩, rfl⟩
      exact ⟨hrows, by rw [hreplace]⟩
    · rintro ⟨hrows, rfl⟩
      exact ⟨_, ⟨hrows, rfl⟩, by rw [hreplace]⟩

end Aliases

section Defaults

variable {t : Tables} {m m' : Model}

theorem fieldsOf?_eq_find? (m : Model) (name : String) :
    fieldsOf? m name = (m.fielded.find? (·.1 == name)).map (·.2) := by
  simp only [fielded, List.find?_append, List.find?_map, Option.map_or, Option.map_map,
    Option.or_assoc]
  rfl

theorem platformDefault_eq_ok_iff (type : String) (fields : List Field)
    (row : String × List (String × String)) (d : PlatformDefault) :
    platformDefault type fields row = .ok d ↔
      row.1 ∈ fields.map (·.name) ∧ d = ⟨type, row.1, row.2⟩ := by
  have hany : fields.any (·.name == row.1) = true ↔ row.1 ∈ fields.map (·.name) := by
    simp only [List.any_eq_true, beq_iff_eq, List.mem_map]
  unfold platformDefault
  split
  next h => rw [and_iff_right (hany.mp h), Except.ok.injEq, eq_comm]
  next h => exact iff_of_false nofun fun hd ↦ h (hany.mpr hd.1)

theorem platformDefaults_eq_ok_iff (h : (m.fielded.map (·.1)).Nodup)
    (row : String × List (String × List (String × String))) (ds : List PlatformDefault) :
    platformDefaults m row = .ok ds ↔
      (∃ type ∈ m.fielded, type.1 = row.1 ∧ ∀ f ∈ row.2, f.1 ∈ type.2.map (·.name)) ∧
        ds = row.2.map fun f ↦ ⟨row.1, f.1, f.2⟩ := by
  rw [platformDefaults, fieldsOf?_eq_find?, exists_mem_key_iff h]
  cases hf : m.fielded.find? (·.1 == row.1) with
  | none =>
    refine iff_of_false nofun ?_
    rintro ⟨⟨_, ⟨⟩, -⟩, -⟩
  | some type =>
    simp only [Option.some_inj, exists_eq_left']
    exact mapM_eq_ok_iff (platformDefault_eq_ok_iff row.1 type.2) row.2 ds

theorem applyDefaults_eq_ok_iff (h : (m.fielded.map (·.1)).Nodup) :
    applyDefaults t m = .ok m' ↔
      (∀ row ∈ t.platformDefaults, ∃ type ∈ m.fielded, type.1 = row.1 ∧
        ∀ f ∈ row.2, f.1 ∈ type.2.map (·.name)) ∧
      m' = { m with platformDefaults := t.defaultRows } := by
  simp only [applyDefaults, bind_eq_ok_iff, pure_eq_ok_iff,
    mapM_eq_ok_iff (platformDefaults_eq_ok_iff h), Tables.defaultRows, List.flatMap_def]
  constructor
  · rintro ⟨_, ⟨hrows, rfl⟩, rfl⟩
    exact ⟨hrows, rfl⟩
  · rintro ⟨hrows, rfl⟩
    exact ⟨_, ⟨hrows, rfl⟩, rfl⟩

end Defaults

end Model.Build

def Model.withTables (m : Model) (t : Tables) : Model :=
  { m with enums := m.enums.map t.rename, platformDefaults := t.defaultRows }

section Applying

variable {sources : Sources} {s : LoadedSchema} {t : Tables} {bare m : Model}

namespace Model.Build

theorem checkCustomInput_eq_ok_iff (h : Loaded sources s) (name : String) :
    checkCustomInput s.schema name = .ok () ↔
      ∃ type ∈ s.schema.types, type.name = name ∧ type.kind = .inputObject := by
  have hkind : checkCustomInput s.schema name = .ok () ↔
      s.schema.kind? name = some .inputObject := by
    unfold checkCustomInput
    cases s.schema.kind? name with
    | none => exact iff_of_false nofun nofun
    | some kind => cases kind <;> simp
  rw [hkind, Schema.kind?, kindOf?_eq_some_iff h.names_nodup h.names_new]
  constructor
  · intro hrefers
    generalize he : TypeKind.inputObject = kind at hrefers ⊢
    cases hrefers with
    | builtin => cases he
    | @declared type ht => exact ⟨type, ht, rfl, rfl⟩
  · rintro ⟨type, ht, rfl, he⟩
    exact he ▸ .declared ht

/-- What applying tables rests on. -/
structure Targets (m : Model) : Prop where
  enums_nodup : (m.enums.map (·.name)).Nodup
  fielded_nodup : (m.fielded.map (·.1)).Nodup
  aliases_eq_nil : ∀ e ∈ m.enums, e.aliases = []

theorem applyTables_eq_ok_iff (h : Loaded sources s) (hm : Targets bare) :
    applyTables s.schema t bare = .ok m ↔ t.Fits s.schema bare ∧ m = bare.withTables t := by
  have hfielded : (({ bare with enums := bare.enums.map t.rename } : Model).fielded.map
    (·.1)).Nodup := hm.fielded_nodup
  have hinputs := forM_eq_ok_iff
    (fun row : String × List (String × CustomInput) ↦ checkCustomInput_eq_ok_iff h row.1)
    t.customInputs
  simp only [applyTables, bind_eq_ok_iff, pure_eq_ok_iff,
    applyAliases_eq_ok_iff hm.enums_nodup hm.aliases_eq_nil]
  constructor
  · rintro ⟨_, ⟨haliases, rfl⟩, _, hdefaults, ⟨⟩, hchecked, rfl⟩
    obtain ⟨hrows, rfl⟩ := (applyDefaults_eq_ok_iff hfielded).mp hdefaults
    exact ⟨⟨haliases, hrows, hinputs.mp hchecked⟩, rfl⟩
  · rintro ⟨hfits, rfl⟩
    exact ⟨_, ⟨hfits.aliases, rfl⟩, _,
      (applyDefaults_eq_ok_iff hfielded).mpr ⟨hfits.defaults, rfl⟩, (),
      hinputs.mpr hfits.inputs, rfl⟩

theorem applyTables_empty (h : m.platformDefaults = []) (schema : Schema) :
    applyTables schema .empty m = .ok m := by
  have hempty : ({ m with platformDefaults := [] } : Model) = m := by rw [← h]
  exact congrArg Except.ok hempty

end Model.Build

structure Model.EnumType.Lists (e : EnumType) (type : SchemaType) : Prop where
  name_eq : e.name = type.name
  values_eq : e.valueNames = type.values.map (·.2.name.text)
  ordinals : e.values.map (·.ordinal) = List.range e.values.length
  aliases_eq_nil : e.aliases = []

namespace Model.Build

variable {c : Context} {m' : Model}

theorem lists_of_mapM {type : SchemaType} {values : List EnumValue} (status : Status)
    (h : type.values.zipIdx.mapM (fun p ↦ enumValue c type.name p.2 p.1.1 p.1.2) = .ok values) :
    (EnumType.mk type.name type.description status values []).Lists type := by
  have hvalue (p : (Nat × EnumValueDefinition) × Nat) (v : EnumValue)
      (hv : enumValue c type.name p.2 p.1.1 p.1.2 = .ok v) :
      v.name = p.1.2.name.text ∧ v.ordinal = p.2 := by
    obtain ⟨_, -, hv⟩ := (bind_eq_ok_iff _ _ _).mp hv
    cases hv
    exact ⟨rfl, rfl⟩
  have hnames := map_eq_of_mapM EnumValue.name (·.1.2.name.text) h fun p v hv ↦ (hvalue p v hv).1
  have hordinals := map_eq_of_mapM EnumValue.ordinal (·.2) h fun p v hv ↦ (hvalue p v hv).2
  have hlength : values.length = type.values.length := by
    have hlengths := congrArg List.length hordinals
    rwa [List.length_map, List.length_map, List.length_zipIdx] at hlengths
  refine ⟨rfl, hnames.trans ?_, ?_, rfl⟩
  · conv_rhs => rw [← List.zipIdx_map_fst 0 type.values, List.map_map]
    rfl
  · rw [hordinals, List.zipIdx_map_snd, hlength, List.range_eq_range']

theorem enums_of_addDeclaration {type : SchemaType} (h : addDeclaration c m type = .ok m') :
    m'.platformDefaults = m.platformDefaults ∧ ∀ e ∈ m'.enums, e ∈ m.enums ∨ e.Lists type := by
  cases Build.adds_of_addDeclaration h with
  | enum _ hvalues =>
    refine ⟨rfl, fun e he ↦ (List.mem_append.mp he).imp id fun he ↦ ?_⟩
    rw [List.mem_singleton.mp he]
    exact lists_of_mapM _ hvalues
  | scalar | wrapper | object | interface | input | union => exact ⟨rfl, fun _ ↦ Or.inl⟩

theorem enums_of_declareAll (h : declareAll s = .ok m) :
    m.platformDefaults = [] ∧ ∀ e ∈ m.enums, ∃ type ∈ s.schema.types, e.Lists type := by
  have hrun := foldlM_preserves
    (fun done (m : Model) ↦ m.platformDefaults = [] ∧ ∀ e ∈ m.enums, ∃ type ∈ done, e.Lists type)
    (fun done type m m' hdone hadd ↦ by
      obtain ⟨hsame, henums⟩ := enums_of_addDeclaration hadd
      refine ⟨hsame.trans hdone.1, fun e he ↦ ?_⟩
      rcases henums e he with he | he
      · obtain ⟨type', ht, hlists⟩ := hdone.2 e he
        exact ⟨type', List.mem_append_left _ ht, hlists⟩
      · exact ⟨type, List.mem_append_right _ (List.mem_singleton_self _), he⟩)
    [] h ⟨rfl, nofun⟩
  refine ⟨hrun.1, fun e he ↦ ?_⟩
  obtain ⟨type, ht, hlists⟩ := hrun.2 e he
  exact ⟨type, (List.mem_filter.mp ht).1, hlists⟩

theorem build_eq_applyTables (h : Model.build s .empty = .ok bare) :
    (∀ e ∈ bare.enums, ∃ type ∈ s.schema.types, e.Lists type) ∧
      ∀ t, Model.build s t = applyTables s.schema t bare := by
  have hfaults := (List.append_eq_nil_iff.mp (faults_eq_nil h)).1
  rw [build_eq hfaults] at h
  obtain ⟨declared, hdeclared, h⟩ := (bind_eq_ok_iff _ _ _).mp h
  obtain ⟨os, hos, h⟩ := (bind_eq_ok_iff _ _ _).mp h
  obtain ⟨hnone, henums⟩ := enums_of_declareAll hdeclared
  have hempty := applyTables_empty (m := { declared with operations := os }) hnone s.schema
  rw [hempty, Except.ok.injEq] at h
  subst h
  refine ⟨henums, fun t ↦ ?_⟩
  rw [build_eq hfaults, hdeclared, hos]
  rfl

theorem targets_of_build (h : Loaded sources s) (hbare : Model.build s .empty = .ok bare) :
    Targets bare := by
  obtain ⟨c, rfl, hholds, -⟩ := holds_of_build
    (fun type ht ↦ (h.types_wellFormed type ht).implements_interfaces)
    (fun type ht ↦ (h.types_wellFormed type ht).members_objects) hbare
  have hn := h.names_nodup.sublist ((List.filter_sublist (p := isDeclared c)).map (·.name))
  have henums : ([NamedKind.enum].flatMap bare.names).Nodup := hholds.names_nodup hn (by decide)
  have hfielded : ([NamedKind.object, .input, .interface].flatMap bare.names).Nodup :=
    hholds.names_nodup hn (by decide)
  refine ⟨?_, ?_, fun e he ↦ ?_⟩
  · simpa only [List.flatMap_singleton, Model.names] using henums
  · simp only [List.flatMap_cons, List.flatMap_nil, List.append_nil, Model.names,
      ← List.append_assoc] at hfielded
    rw [fielded, List.map_append, List.map_append, List.map_map, List.map_map, List.map_map]
    exact hfielded
  · obtain ⟨type, -, hlists⟩ := (build_eq_applyTables hbare).1 e he
    exact hlists.aliases_eq_nil

end Model.Build

open Model.Build in
/-- With tables, exactly those builds succeed in which the rows fit what a build without tables
yields. -/
theorem build_eq_ok_iff_fits (h : Loaded sources s) (hbare : Model.build s .empty = .ok bare) :
    Model.build s t = .ok m ↔ t.Fits s.schema bare ∧ m = bare.withTables t := by
  rw [(build_eq_applyTables hbare).2]
  exact applyTables_eq_ok_iff h (targets_of_build h hbare)

theorem Loaded.values_eq (h : Loaded sources s) {type : SchemaType} (ht : type ∈ s.schema.types) :
    type.values.map (·.2.name.text) = sources.valueNames type.name := by
  rw [h.types_eq] at ht
  obtain ⟨part, hpart, rfl⟩ := List.mem_map.mp ht
  have hone : (Merge.declarations sources.definitions).filter
      (·.definition.name.text == part.definition.name.text) = [part] :=
    filter_eq_singleton h.wellFormed.names_nodup hpart (beq_self_eq_true _)
      fun _ _ hname ↦ beq_iff_eq.mp hname
  rw [Sources.valueNames, SchemaType.name_mk, List.filter_append, hone]
  simp only [SchemaType.values, SchemaType.collect, SchemaType.parts, List.map_flatMap,
    List.map_map, Function.comp_def]
  rfl

theorem Tables.name_rename (t : Tables) (e : EnumType) : (t.rename e).name = e.name := by
  unfold Tables.rename
  split <;> rfl

theorem Tables.values_rename (t : Tables) (e : EnumType) : (t.rename e).values = e.values := by
  unfold Tables.rename
  split <;> rfl

theorem Tables.withoutAliases_rename (t : Tables) (e : EnumType) :
    (t.rename e).withoutAliases = e.withoutAliases := by
  unfold Tables.rename
  split <;> rfl

theorem Tables.aliases_rename (t : Tables) {e : EnumType} (h : e.aliases = []) :
    (t.rename e).aliases =
      if e.name = t.errorCodeEnum then t.legacyAliases.flatMap e.aliasesFrom else [] := by
  unfold Tables.rename
  split
  · rw [EnumType.gain, h, List.nil_append]
  · exact h

theorem exists_value_of_mem_aliasesFrom {e : EnumType} {row : String × List String} {a : EnumAlias}
    (h : a ∈ e.aliasesFrom row) : ∃ v ∈ e.values, v.name = a.canonical ∧ v.ordinal = a.ordinal := by
  obtain ⟨v, hv, ha⟩ := List.mem_flatMap.mp h
  obtain ⟨name, -, rfl⟩ := List.mem_map.mp ha
  have hfound : e.value? row.1 = some v := Option.mem_toList.mp hv
  exact ⟨v, List.mem_of_find?_eq_some hfound, by simpa using List.find?_some hfound, rfl⟩

open Model.Build in
theorem Tables.Fits.canonical (hfits : t.Fits s.schema bare) (hm : Targets bare) {e : EnumType}
    (he : e ∈ bare.enums) (hname : e.name = t.errorCodeEnum) :
    ∀ row ∈ t.legacyAliases, row.1 ∈ e.valueNames := by
  rcases hfits.aliases with hnil | ⟨e', he', hname', hadmits⟩
  · rw [hnil]
    exact nofun
  · obtain rfl := List.inj_on_of_nodup_map hm.enums_nodup he' he (hname'.trans hname.symm)
    exact hadmits.canonical

open Model.Build in
theorem shownIn_withTables (h : Loaded sources s) (hbare : Model.build s .empty = .ok bare)
    (hfits : t.Fits s.schema bare) : t.ShownIn sources bare (bare.withTables t) := by
  have hm := targets_of_build h hbare
  have hlists := (build_eq_applyTables hbare).1
  have hnone : bare.platformDefaults = [] :=
    congrArg Model.platformDefaults ((build_eq_ok_iff_fits h hbare).mp hbare).2
  have hvalues (e : EnumType) : (t.rename e).valueNames = e.valueNames := by
    rw [EnumType.valueNames, t.values_rename]
    rfl
  refine ⟨List.forall_mem_map.mpr fun e he ↦ ?_, List.forall_mem_map.mpr fun e he ↦ ?_,
    List.forall_mem_map.mpr fun e he ↦ ?_, List.forall_mem_map.mpr fun e he ↦ ?_,
    List.forall_mem_map.mpr fun e he ↦ ?_, List.forall_mem_map.mpr fun e he ↦ ?_, rfl, ?_⟩
  · obtain ⟨type, ht, hl⟩ := hlists e he
    rw [hvalues, hl.values_eq]
    exact (h.types_wellFormed type ht).values_nodup
  · obtain ⟨type, ht, hl⟩ := hlists e he
    rw [hvalues, t.name_rename, hl.values_eq, hl.name_eq, h.values_eq ht]
  · obtain ⟨type, ht, hl⟩ := hlists e he
    rw [t.values_rename]
    exact hl.ordinals
  · intro hname
    rw [t.name_rename] at hname
    rw [t.aliases_rename (hm.aliases_eq_nil e he), if_pos hname, List.map_flatMap]
    exact List.flatMap_congr fun row hrow ↦
      EnumType.map_aliasesFrom (hfits.canonical hm he hname row hrow) fun _ ↦ rfl
  · intro a ha
    rw [t.aliases_rename (hm.aliases_eq_nil e he)] at ha
    split at ha
    · obtain ⟨row, -, ha⟩ := List.mem_flatMap.mp ha
      rw [t.values_rename]
      exact exists_value_of_mem_aliasesFrom ha
    · cases ha
  · intro hname
    rw [t.name_rename] at hname
    rw [t.aliases_rename (hm.aliases_eq_nil e he), if_neg hname]
  · have hsame : ∀ e ∈ bare.enums, (t.rename e).withoutAliases = e := by
      intro e he
      rw [t.withoutAliases_rename, EnumType.withoutAliases, ← hm.aliases_eq_nil e he]
    rw [Model.withTables, List.map_map, Function.comp_def, List.map_congr_left hsame, List.map_id',
      ← hnone]

/-- Tables are applied as a whole, exactly if every row of them finds its target. -/
theorem Tables.applied_iff_fits_of_load (hload : Schema.load sources = .ok s)
    (hbare : Model.build s .empty = .ok bare) (tables : Tables) :
    ((∃ m, Model.build s tables = .ok m) ↔ tables.Fits s.schema bare) ∧
      ∀ m, Model.build s tables = .ok m → tables.ShownIn sources bare m := by
  have h := loaded_of_load hload
  refine ⟨⟨?_, fun hfits ↦ ?_⟩, fun m hm ↦ ?_⟩
  · rintro ⟨m, hm⟩
    exact ((build_eq_ok_iff_fits h hbare).mp hm).1
  · exact ⟨_, (build_eq_ok_iff_fits h hbare).mpr ⟨hfits, rfl⟩⟩
  · obtain ⟨hfits, rfl⟩ := (build_eq_ok_iff_fits h hbare).mp hm
    exact shownIn_withTables h hbare hfits

end Applying

def codeSources : Sources :=
  [.ofText "query.graphql" "type Query \x7b find(by: Filter): Node \x7d enum Color \x7b RED \x7d",
    .ofText "codes.graphql" "enum ErrorCode \x7b NOT_FOUND \x7d interface Node \x7b id: Int \x7d",
    .ofText "more.graphql"
      "extend enum ErrorCode \x7b DENIED \x7d input Filter \x7b limit: Int \x7d"]

def codeTables : Tables :=
  ⟨"ErrorCode", [("DENIED", ["FORBIDDEN"]), ("NOT_FOUND", ["MISSING", "GONE"])],
    [("Node", [("id", [("swift", "0")])]), ("Filter", [("limit", [("kotlin", "10")])])],
    [("Filter", [("swift", ⟨"Query.Filter", none⟩)])]⟩

theorem Tables.codeTables_applied :
    ∃ loaded bare m, Schema.load codeSources = .ok loaded ∧ Model.build loaded .empty = .ok bare ∧
      Model.build loaded codeTables = .ok m ∧
      m.enums.map (·.aliases) = [[], [⟨"FORBIDDEN", "DENIED", 1⟩, ⟨"MISSING", "NOT_FOUND", 0⟩,
        ⟨"GONE", "NOT_FOUND", 0⟩]] ∧
      codeTables.Fits loaded.schema bare ∧ codeTables.ShownIn codeSources bare m := by
  have hrun : Attempt.succeeds (Schema.load codeSources) (fun loaded ↦
      Attempt.succeeds (Model.build loaded .empty) fun _ ↦
        Attempt.succeeds (Model.build loaded codeTables) fun m ↦
          m.enums.map (·.aliases) = [[], [⟨"FORBIDDEN", "DENIED", 1⟩, ⟨"MISSING", "NOT_FOUND", 0⟩,
            ⟨"GONE", "NOT_FOUND", 0⟩]]) = true := by decide +kernel
  obtain ⟨loaded, hload, hrun⟩ := (Attempt.succeeds_iff _ _).mp hrun
  obtain ⟨bare, hbare, hrun⟩ := (Attempt.succeeds_iff _ _).mp hrun
  obtain ⟨m, hm, haliases⟩ := (Attempt.succeeds_iff _ _).mp hrun
  obtain ⟨happlied, hshown⟩ := Tables.applied_iff_fits_of_load hload hbare codeTables
  exact ⟨loaded, bare, m, hload, hbare, hm, of_decide_eq_true haliases, happlied.mp ⟨m, hm⟩,
    hshown m hm⟩

end SchemaBindings
