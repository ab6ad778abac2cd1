import SchemaBindings.Proofs.Model.Values
import SchemaBindings.Proofs.Model.Written

namespace SchemaBindings.Model

theorem encodes_text (s : String) : Encodes Json.text? s (IsText s) := by
  rintro _ rfl
  exact ⟨trivial, rfl⟩

theorem encodes_textOrNull (s : Option String) :
    Encodes (readOptional Json.text?) s (· = textOrNull s) := by
  rintro _ rfl
  cases s <;> exact ⟨trivial, rfl⟩

theorem encodes_type (t : TypeExpr) : Encodes TypeExpr.ofJson? t (· = t.toJson) := by
  rintro _ rfl
  exact ⟨t.isPlain_toJson, t.ofJson?_toJson⟩

theorem encodes_status (s : Status) : Encodes Status.ofJson? s (· = s.toJson) := by
  rintro _ rfl
  exact ⟨trivial, s.ofJson?_toJson⟩

theorem encodes_ordinal {n : Nat} (h : n ≤ 4294967295) : Encodes readOrdinal n (· = .int n) := by
  rintro _ rfl
  refine ⟨?_, ?_⟩
  · simp only [Json.IsPlain, Json.maxNegative, Json.maxUnsigned]
    omega
  · rw [readOrdinal, if_pos (by omega)]
    rfl

theorem encodes_unionKind (k : UnionKind) :
    Encodes (readChoice [.native, .wrapper] UnionKind.text) k (IsText k.text) := by
  rintro _ rfl
  cases k <;> exact ⟨trivial, rfl⟩

theorem encodes_operationKind (k : OperationKind) :
    Encodes (readChoice OperationKind.all OperationKind.text) k (IsText k.text) := by
  rintro _ rfl
  cases k <;> exact ⟨trivial, rfl⟩

/-- A value that is read back as it was. -/
structure Value.IsStorable (v : Value) : Prop where
  leaves : ∀ l ∈ v.leaves, l.IsExact
  names : ∀ names ∈ v.nameLists, names.Nodup

def AreStorable (defaults : List (TypeExpr × Value)) : Prop :=
  ∀ d ∈ defaults, d.2.IsStorable

theorem encodes_defaultValue {type : TypeExpr} {v : Option Value}
    (h : AreStorable (v.toList.map (type, ·))) :
    Encodes (readOptional Value.ofJson?) v (· = Json.ofOption Value.toJson v) := by
  rintro _ rfl
  cases v with
  | none => exact ⟨trivial, rfl⟩
  | some v =>
    have hv : v.IsStorable := h (type, v) (List.mem_singleton_self _)
    have hread : readOptional Value.ofJson? v.toJson = (Value.ofJson? v.toJson).map some := by
      cases v <;> rfl
    refine ⟨Value.isPlain_toJson hv.leaves, ?_⟩
    rw [Json.ofOption, hread, Value.ofJson?_toJson hv.leaves hv.names, Option.map_some]

theorem AreStorable.of_mem {α : Type} {defaults : α → List (TypeExpr × Value)} {items : List α}
    (h : AreStorable (items.flatMap defaults)) {a : α} (ha : a ∈ items) :
    AreStorable (defaults a) :=
  fun d hd ↦ h d (List.mem_flatMap_of_mem ha hd)

theorem Argument.encodes {a : Argument} (h : AreStorable a.defaults) :
    Encodes Argument.ofJson? a a.Written := by
  rintro _ ⟨members, rfl, hmembers⟩
  have hkeys : ["name", "type", "default_value", "description", "deprecation"].Nodup := by decide
  have hname := encodes_text a.name
  have htype := encodes_type a.type
  have hdefault := encodes_defaultValue h
  have hdescription := encodes_textOrNull a.description
  have hdeprecation := encodes_textOrNull a.deprecation
  refine ⟨hmembers.isPlain ?_, ?_⟩
  · simp only [parts, List.forall_mem_cons]
    exact ⟨hname.isPlain, htype.isPlain, hdefault.isPlain, hdescription.isPlain,
      hdeprecation.isPlain, List.forall_mem_nil _⟩
  · simp only [Argument.ofJson?, Json.asRecord?, readDescription, Option.bind_eq_bind,
      Option.bind_some, hmembers.requiredMember_eq hkeys 0 hname rfl,
      hmembers.requiredMember_eq hkeys 1 htype rfl, hmembers.defaultMember_eq hkeys 2 hdefault rfl,
      hmembers.defaultMember_eq hkeys 3 hdescription rfl,
      hmembers.defaultMember_eq hkeys 4 hdeprecation rfl]

theorem encodes_arguments {arguments : List Argument}
    (h : AreStorable (arguments.flatMap Argument.defaults)) :
    Encodes (readList Argument.ofJson?) arguments (IsArray Argument.Written arguments) :=
  encodes_list fun _ ha ↦ Argument.encodes (h.of_mem ha)

theorem Field.encodes {f : Field} (h : AreStorable f.defaults) :
    Encodes Field.ofJson? f f.Written := by
  rintro _ ⟨members, rfl, hmembers⟩
  have hkeys : ["name", "type", "arguments", "default_value", "description", "deprecation",
    "status"].Nodup := by decide
  have hname := encodes_text f.name
  have htype := encodes_type f.type
  have harguments := encodes_arguments fun d hd ↦ h d (List.mem_append_right _ hd)
  have hdefault := encodes_defaultValue fun d hd ↦ h d (List.mem_append_left _ hd)
  have hdescription := encodes_textOrNull f.description
  have hdeprecation := encodes_textOrNull f.deprecation
  have hstatus := encodes_status f.status
  refine ⟨hmembers.isPlain ?_, ?_⟩
  · simp only [parts, List.forall_mem_cons]
    exact ⟨hname.isPlain, htype.isPlain, harguments.isPlain, hdefault.isPlain,
      hdescription.isPlain, hdeprecation.isPlain, hstatus.isPlain, List.forall_mem_nil _⟩
  · simp only [Field.ofJson?, Json.asRecord?, readDescription, readStatus, Option.bind_eq_bind,
      Option.bind_some, hmembers.requiredMember_eq hkeys 0 hname rfl,
      hmembers.requiredMember_eq hkeys 1 htype rfl,
      hmembers.defaultMember_eq hkeys 2 harguments rfl,
      hmembers.defaultMember_eq hkeys 3 hdefault rfl,
      hmembers.defaultMember_eq hkeys 4 hdescription rfl,
      hmembers.defaultMember_eq hkeys 5 hdeprecation rfl,
      hmembers.defaultMember_eq hkeys 6 hstatus rfl]

theorem encodes_fields {fields : List Field} (h : AreStorable (fields.flatMap Field.defaults)) :
    Encodes (readList Field.ofJson?) fields (IsArray Field.Written fields) :=
  encodes_list fun _ hf ↦ Field.encodes (h.of_mem hf)

theorem EnumValue.encodes {v : EnumValue} (h : v.ordinal ≤ 4294967295) :
    Encodes EnumValue.ofJson? v v.Written := by
  rintro _ ⟨members, rfl, hmembers⟩
  have hkeys : ["name", "ordinal", "description", "deprecation", "status"].Nodup := by decide
  have hname := encodes_text v.name
  have hordinal := encodes_ordinal h
  have hdescription := encodes_textOrNull v.description
  have hdeprecation := encodes_textOrNull v.deprecation
  have hstatus := encodes_status v.status
  refine ⟨hmembers.isPlain ?_, ?_⟩
  · simp only [parts, List.forall_mem_cons]
    exact ⟨hname.isPlain, hordinal.isPlain, hdescription.isPlain, hdeprecation.isPlain,
      hstatus.isPlain, List.forall_mem_nil _⟩
  · simp only [EnumValue.ofJson?, Json.asRecord?, readDescription, readStatus, Option.bind_eq_bind,
      Option.bind_some, hmembers.requiredMember_eq hkeys 0 hname rfl,
      hmembers.requiredMember_eq hkeys 1 hordinal rfl,
      hmembers.defaultMember_eq hkeys 2 hdescription rfl,
      hmembers.defaultMember_eq hkeys 3 hdeprecation rfl,
      hmembers.defaultMember_eq hkeys 4 hstatus rfl]

theorem EnumAlias.encodes {a : EnumAlias} (h : a.ordinal ≤ 4294967295) :
    Encodes EnumAlias.ofJson? a a.Written := by
  rintro _ ⟨members, rfl, hmembers⟩
  have hkeys : ["name", "canonical", "ordinal"].Nodup := by decide
  have hname := encodes_text a.name
  have hcanonical := encodes_text a.canonical
  have hordinal := encodes_ordinal h
  refine ⟨hmembers.isPlain ?_, ?_⟩
  · simp only [parts, List.forall_mem_cons]
    exact ⟨hname.isPlain, hcanonical.isPlain, hordinal.isPlain, List.forall_mem_nil _⟩
  · simp only [EnumAlias.ofJson?, Json.asRecord?, Option.bind_eq_bind, Option.bind_some,
      hmembers.requiredMember_eq hkeys 0 hname rfl,
      hmembers.requiredMember_eq hkeys 1 hcanonical rfl,
      hmembers.requiredMember_eq hkeys 2 hordinal rfl]

/-- Whether the ordinals of an enum have their place in a word of 32 bits. -/
def EnumType.HasOrdinals (e : EnumType) : Prop :=
  (∀ v ∈ e.values, v.ordinal ≤ 4294967295) ∧ ∀ a ∈ e.aliases, a.ordinal ≤ 4294967295

instance (e : EnumType) : Decidable e.HasOrdinals :=
  inferInstanceAs (Decidable (_ ∧ _))

theorem EnumType.encodes {e : EnumType} (h : e.HasOrdinals) :
    Encodes EnumType.ofJson? e e.Written := by
  rintro _ ⟨members, rfl, hmembers⟩
  have hkeys : ["name", "description", "status", "values", "aliases"].Nodup := by decide
  have hname := encodes_text e.name
  have hdescription := encodes_textOrNull e.description
  have hstatus := encodes_status e.status
  have hvalues := encodes_list fun v hv ↦ EnumValue.encodes (h.1 v hv)
  have haliases := encodes_list fun a ha ↦ EnumAlias.encodes (h.2 a ha)
  refine ⟨hmembers.isPlain ?_, ?_⟩
  · simp only [parts, List.forall_mem_cons]
    exact ⟨hname.isPlain, hdescription.isPlain, hstatus.isPlain, hvalues.isPlain, haliases.isPlain,
      List.forall_mem_nil _⟩
  · simp only [EnumType.ofJson?, Json.asRecord?, readDescription, readStatus, Option.bind_eq_bind,
      Option.bind_some, hmembers.requiredMember_eq hkeys 0 hname rfl,
      hmembers.defaultMember_eq hkeys 1 hdescription rfl,
      hmembers.defaultMember_eq hkeys 2 hstatus rfl, hmembers.requiredMember_eq hkeys 3 hvalues rfl,
      hmembers.defaultMember_eq hkeys 4 haliases rfl]

theorem RecordType.encodes {r : RecordType} (h : AreStorable (r.fields.flatMap Field.defaults)) :
    Encodes RecordType.ofJson? r r.Written := by
  rintro _ ⟨members, rfl, hmembers⟩
  have hkeys : ["name", "description", "status", "implements", "fields"].Nodup := by decide
  have hname := encodes_text r.name
  have hdescription := encodes_textOrNull r.description
  have hstatus := encodes_status r.status
  have himplements := encodes_list fun s (_ : s ∈ r.implements) ↦ encodes_text s
  have hfields := encodes_fields h
  refine ⟨hmembers.isPlain ?_, ?_⟩
  · simp only [parts, List.forall_mem_cons]
    exact ⟨hname.isPlain, hdescription.isPlain, hstatus.isPlain, himplements.isPlain,
      hfields.isPlain, List.forall_mem_nil _⟩
  · simp only [RecordType.ofJson?, Json.asRecord?, readDescription, readStatus, readTexts,
      Option.bind_eq_bind, Option.bind_some, hmembers.requiredMember_eq hkeys 0 hname rfl,
      hmembers.defaultMember_eq hkeys 1 hdescription rfl,
      hmembers.defaultMember_eq hkeys 2 hstatus rfl,
      hmembers.defaultMember_eq hkeys 3 himplements rfl,
      hmembers.requiredMember_eq hkeys 4 hfields rfl]

theorem InputType.encodes {i : InputType} (h : AreStorable (i.fields.flatMap Field.defaults)) :
    Encodes InputType.ofJson? i i.Written := by
  rintro _ ⟨members, rfl, hmembers⟩
  have hkeys : ["name", "description", "status", "fields"].Nodup := by decide
  have hname := encodes_text i.name
  have hdescription := encodes_textOrNull i.description
  have hstatus := encodes_status i.status
  have hfields := encodes_fields h
  refine ⟨hmembers.isPlain ?_, ?_⟩
  · simp only [parts, List.forall_mem_cons]
    exact ⟨hname.isPlain, hdescription.isPlain, hstatus.isPlain, hfields.isPlain,
      List.forall_mem_nil _⟩
  · simp only [InputType.ofJson?, Json.asRecord?, readDescription, readStatus, Option.bind_eq_bind,
      Option.bind_some, hmembers.requiredMember_eq hkeys 0 hname rfl,
      hmembers.defaultMember_eq hkeys 1 hdescription rfl,
      hmembers.defaultMember_eq hkeys 2 hstatus rfl, hmembers.requiredMember_eq hkeys 3 hfields rfl]

theorem UnionMember.encodes {m : UnionMember} :
    Encodes UnionMember.ofJson? m m.Written := by
  rintro _ ⟨members, rfl, hmembers⟩
  have hkeys : ["name", "type_name", "description", "deprecation", "status"].Nodup := by decide
  have hname := encodes_text m.name
  have htype := encodes_text m.typeName
  have hdescription := encodes_textOrNull m.description
  have hdeprecation := encodes_textOrNull m.deprecation
  have hstatus := encodes_status m.status
  refine ⟨hmembers.isPlain ?_, ?_⟩
  · simp only [parts, List.forall_mem_cons]
    exact ⟨hname.isPlain, htype.isPlain, hdescription.isPlain, hdeprecation.isPlain,
      hstatus.isPlain, List.forall_mem_nil _⟩
  · simp only [UnionMember.ofJson?, Json.asRecord?, readDescription, readStatus,
      Option.bind_eq_bind, Option.bind_some, hmembers.requiredMember_eq hkeys 0 hname rfl,
      hmembers.requiredMember_eq hkeys 1 htype rfl,
      hmembers.defaultMember_eq hkeys 2 hdescription rfl,
      hmembers.defaultMember_eq hkeys 3 hdeprecation rfl,
      hmembers.defaultMember_eq hkeys 4 hstatus rfl]

theorem UnionType.encodes {u : UnionType} :
    Encodes UnionType.ofJson? u u.Written := by
  rintro _ ⟨members, rfl, hmembers⟩
  have hkeys : ["name", "description", "status", "kind", "members"].Nodup := by decide
  have hname := encodes_text u.name
  have hdescription := encodes_textOrNull u.description
  have hstatus := encodes_status u.status
  have hkind := encodes_unionKind u.kind
  have hcases := encodes_list fun m (_ : m ∈ u.members) ↦ m.encodes
  refine ⟨hmembers.isPlain ?_, ?_⟩
  · simp only [parts, List.forall_mem_cons]
    exact ⟨hname.isPlain, hdescription.isPlain, hstatus.isPlain, hkind.isPlain, hcases.isPlain,
      List.forall_mem_nil _⟩
  · simp only [UnionType.ofJson?, Json.asRecord?, readDescription, readStatus, Option.bind_eq_bind,
      Option.bind_some, hmembers.requiredMember_eq hkeys 0 hname rfl,
      hmembers.defaultMember_eq hkeys 1 hdescription rfl,
      hmembers.defaultMember_eq hkeys 2 hstatus rfl, hmembers.requiredMember_eq hkeys 3 hkind rfl,
      hmembers.requiredMember_eq hkeys 4 hcases rfl]

theorem ScalarType.encodes {s : ScalarType} :
    Encodes ScalarType.ofJson? s s.Written := by
  rintro _ ⟨members, rfl, hmembers⟩
  have hkeys : ["name", "description", "status"].Nodup := by decide
  have hname := encodes_text s.name
  have hdescription := encodes_textOrNull s.description
  have hstatus := encodes_status s.status
  refine ⟨hmembers.isPlain ?_, ?_⟩
  · simp only [parts, List.forall_mem_cons]
    exact ⟨hname.isPlain, hdescription.isPlain, hstatus.isPlain, List.forall_mem_nil _⟩
  · simp only [ScalarType.ofJson?, Json.asRecord?, readDescription, readStatus, Option.bind_eq_bind,
      Option.bind_some, hmembers.requiredMember_eq hkeys 0 hname rfl,
      hmembers.defaultMember_eq hkeys 1 hdescription rfl,
      hmembers.defaultMember_eq hkeys 2 hstatus rfl]

theorem OperationField.encodes {f : OperationField} (h : AreStorable f.defaults) :
    Encodes OperationField.ofJson? f f.Written := by
  rintro _ ⟨members, rfl, hmembers⟩
  have hkeys : ["name", "arguments", "return_type", "description", "deprecation",
    "status"].Nodup := by decide
  have hname := encodes_text f.name
  have harguments := encodes_arguments h
  have htype := encodes_type f.returnType
  have hdescription := encodes_textOrNull f.description
  have hdeprecation := encodes_textOrNull f.deprecation
  have hstatus := encodes_status f.status
  refine ⟨hmembers.isPlain ?_, ?_⟩
  · simp only [parts, List.forall_mem_cons]
    exact ⟨hname.isPlain, harguments.isPlain, htype.isPlain, hdescription.isPlain,
      hdeprecation.isPlain, hstatus.isPlain, List.forall_mem_nil _⟩
  · simp only [OperationField.ofJson?, Json.asRecord?, readDescription, readStatus,
      Option.bind_eq_bind, Option.bind_some, hmembers.requiredMember_eq hkeys 0 hname rfl,
      hmembers.defaultMember_eq hkeys 1 harguments rfl,
      hmembers.requiredMember_eq hkeys 2 htype rfl,
      hmembers.defaultMember_eq hkeys 3 hdescription rfl,
      hmembers.defaultMember_eq hkeys 4 hdeprecation rfl,
      hmembers.defaultMember_eq hkeys 5 hstatus rfl]

theorem Operation.encodes {o : Operation}
    (h : AreStorable (o.fields.flatMap OperationField.defaults)) :
    Encodes Operation.ofJson? o o.Written := by
  rintro _ ⟨members, rfl, hmembers⟩
  have hkeys : ["kind", "type_name", "fields"].Nodup := by decide
  have hkind := encodes_operationKind o.kind
  have htype := encodes_text o.typeName
  have hfields := encodes_list fun f hf ↦ OperationField.encodes (h.of_mem hf)
  refine ⟨hmembers.isPlain ?_, ?_⟩
  · simp only [parts, List.forall_mem_cons]
    exact ⟨hkind.isPlain, htype.isPlain, hfields.isPlain, List.forall_mem_nil _⟩
  · simp only [Operation.ofJson?, Json.asRecord?, Option.bind_eq_bind, Option.bind_some,
      hmembers.requiredMember_eq hkeys 0 hkind rfl, hmembers.requiredMember_eq hkeys 1 htype rfl,
      hmembers.requiredMember_eq hkeys 2 hfields rfl]

theorem readSortedTexts_eq {values : List (String × String)}
    (h : (values.map (·.1)).Pairwise (· < ·)) :
    readSortedTexts (.object (values.map fun (key, s) ↦ (key, .string s))) = some values := by
  have hread : ((values.map fun (key, s) ↦ (key, Json.string s)).mapM fun member ↦
      (Json.text? member.2).map fun s ↦ (member.1, s)) = some values := by
    clear h
    induction values with
    | nil => rfl
    | cons p values ih =>
      rw [List.map_cons, List.mapM_cons, ih]
      rfl
  rw [readSortedTexts, hread, Option.map_some, KeyedList.sorted_of_pairwise h]

theorem PlatformDefault.encodes {d : PlatformDefault}
    (h : (d.values.map (·.1)).Pairwise (· < ·)) :
    Encodes PlatformDefault.ofJson? d d.Written := by
  rintro _ rfl
  have hread := readSortedTexts_eq h
  refine ⟨⟨trivial, trivial, (Json.havePlain_iff _).mpr ?_, trivial⟩, ?_⟩
  · intro p hp
    obtain ⟨q, -, rfl⟩ := List.mem_map.mp hp
    trivial
  · simp [PlatformDefault.ofJson?, PlatformDefault.toJson, Json.asRecord?, requiredMember,
      Json.member?, Json.text?, hread]

theorem encodes_metadata (m : Metadata) : Encodes Metadata.ofJson? m (· = m.toJson) := by
  rintro _ rfl
  have hsources := encodes_list (fun s (_ : s ∈ m.sources) ↦ encodes_text s) _
    (isArray_map isText_string m.sources)
  refine ⟨⟨hsources.1, trivial, trivial, trivial⟩, ?_⟩
  simp [Metadata.ofJson?, Metadata.toJson, Json.asRecord?, requiredMember, Json.member?,
    Json.text?, hsources.2]

/-- What the numbers and the keys of a model have to be for their types. -/
structure IsTyped (m : Model) : Prop where
  words : ∀ d ∈ m.defaults, ∀ n, .int n ∈ d.2.leaves → isWord n = true
  names : ∀ d ∈ m.defaults, ∀ names ∈ d.2.nameLists, names.Nodup
  ordinals : ∀ e ∈ m.enums, e.HasOrdinals
  languages : ∀ d ∈ m.platformDefaults, (d.values.map (·.1)).Pairwise (· < ·)

def HasNoFloat (m : Model) : Prop :=
  ∀ d ∈ m.defaults, ∀ x, .float x ∉ d.2.leaves

variable {m : Model}

theorem areStorable_defaults (htyped : m.IsTyped) (hfloat : m.HasNoFloat) :
    AreStorable m.defaults := by
  refine fun d hd ↦ ⟨fun l hl ↦ ?_, htyped.names d hd⟩
  cases l with
  | int n => exact htyped.words d hd n hl
  | float x => exact hfloat d hd x hl
  | _ => trivial

theorem encodes (htyped : m.IsTyped) (hfloat : m.HasNoFloat) : Encodes ofJson? m m.Written := by
  rintro _ ⟨members, rfl, hmembers⟩
  have hdefaults := areStorable_defaults htyped hfloat
  simp only [AreStorable, defaults, List.flatMap_assoc, List.forall_mem_append] at hdefaults
  obtain ⟨⟨hrecords, hinputs⟩, hoperations⟩ := hdefaults
  have hkeys : ["metadata", "scalars", "enums", "interfaces", "objects", "inputs", "unions",
    "operations", "platform_defaults"].Nodup := by decide
  have hmetadata := encodes_metadata m.metadata
  have hscalars := encodes_list fun s (_ : s ∈ m.scalars) ↦ s.encodes
  have henums := encodes_list fun e he ↦ EnumType.encodes (htyped.ordinals e he)
  have hinterfaces := encodes_list fun r (hr : r ∈ m.interfaces) ↦
    RecordType.encodes (AreStorable.of_mem hrecords (List.mem_append_right _ hr))
  have hobjects := encodes_list fun r (hr : r ∈ m.objects) ↦
    RecordType.encodes (AreStorable.of_mem hrecords (List.mem_append_left _ hr))
  have hinputs := encodes_list fun i hi ↦ InputType.encodes (AreStorable.of_mem hinputs hi)
  have hunions := encodes_list fun u (_ : u ∈ m.unions) ↦ u.encodes
  have hoperations := encodes_list fun o ho ↦
    Operation.encodes (AreStorable.of_mem hoperations ho)
  have hrows := encodes_list fun d hd ↦ PlatformDefault.encodes (htyped.languages d hd)
  refine ⟨hmembers.isPlain ?_, ?_⟩
  · simp only [memberParts, List.forall_mem_cons]
    exact ⟨hmetadata.isPlain, hscalars.isPlain, henums.isPlain, hinterfaces.isPlain,
      hobjects.isPlain, hinputs.isPlain, hunions.isPlain, hoperations.isPlain, hrows.isPlain,
      List.forall_mem_nil _⟩
  · simp only [ofJson?, Json.asRecord?, Option.bind_eq_bind, Option.bind_some,
      hmembers.requiredMember_eq hkeys 0 hmetadata rfl,
      hmembers.requiredMember_eq hkeys 1 hscalars rfl,
      hmembers.requiredMember_eq hkeys 2 henums rfl,
      hmembers.requiredMember_eq hkeys 3 hinterfaces rfl,
      hmembers.requiredMember_eq hkeys 4 hobjects rfl,
      hmembers.requiredMember_eq hkeys 5 hinputs rfl,
      hmembers.requiredMember_eq hkeys 6 hunions rfl,
      hmembers.requiredMember_eq hkeys 7 hoperations rfl,
      hmembers.requiredMember_eq hkeys 8 hrows rfl]

/-- A model without decimal defaults is read back as it was, from its text and from every text in
which parts with their defaults are left out. -/
theorem readsBack_of_written (htyped : m.IsTyped) (hfloat : m.HasNoFloat) :
    (Json.parse? (Json.pretty m.toJson).toList).bind ofJson? = some m ∧
      ∀ j, m.Written j → ofJson? j = some m ∧
        (Json.parse? (Json.pretty j).toList).bind ofJson? = some m := by
  have hread {j : Json} (hj : m.Written j) : ofJson? j = some m ∧
      (Json.parse? (Json.pretty j).toList).bind ofJson? = some m := by
    obtain ⟨hplain, hread⟩ := encodes htyped hfloat j hj
    exact ⟨hread, by rw [Json.parse?_pretty hplain, Option.bind_some, hread]⟩
  exact ⟨(hread m.written_toJson).2, fun j hj ↦ hread hj⟩

def crewModel : Model :=
  { empty (.signed ["crew.graphql"]) with
    scalars := [⟨"Day", some "A \"day\"\n", .future⟩]
    enums := [⟨"Rank", none, .stable, [⟨"MATE", 0, none, none, .stable⟩], [⟨"FIRST", "MATE", 0⟩]⟩]
    inputs := [⟨"Filter", none, .stable,
      [⟨"any", .list (.named ⟨"Filter", .input⟩), [],
        some (.list [.null, .object [("min", .int (-9223372036854775808)), ("any", .list [])]]),
        none, none, .stable⟩]⟩]
    platformDefaults := [⟨"Filter", "any", [("kotlin", "null"), ("swift", "nil")]⟩] }

def crewJson : Json :=
  .object [("metadata", crewModel.metadata.toJson),
    ("scalars", .array [.object [("name", .string "Day"),
      ("description", .string "A \"day\"\n"), ("status", .string "future")]]),
    ("enums", .array [.object [("name", .string "Rank"),
      ("values", .array [.object [("name", .string "MATE"), ("ordinal", .int 0)]]),
      ("aliases", .array [.object [("name", .string "FIRST"), ("canonical", .string "MATE"),
        ("ordinal", .int 0)]])]]),
    ("interfaces", .array []), ("objects", .array []),
    ("inputs", .array [.object [("name", .string "Filter"),
      ("fields", .array [.object [("name", .string "any"),
        ("type", (TypeExpr.list (.named ⟨"Filter", .input⟩)).toJson),
        ("default_value", (Value.list [.null, .object [("min", .int (-9223372036854775808)),
          ("any", .list [])]]).toJson)]])]]),
    ("unions", .array []), ("operations", .array []),
    ("platform_defaults", .array [.object [("type_name", .string "Filter"),
      ("field_name", .string "any"),
      ("values", .object [("kotlin", .string "null"), ("swift", .string "nil")])]])]

theorem defaults_crewModel : crewModel.defaults = [(.list (.named ⟨"Filter", .input⟩),
    .list [.null, .object [("min", .int (-9223372036854775808)), ("any", .list [])]])] :=
  rfl

theorem written_crewJson : crewModel.Written crewJson := by
  refine ⟨_, rfl, .written rfl (.written ⟨_, rfl, .cons ?scalar .nil⟩
    (.written ⟨_, rfl, .cons ?enum .nil⟩ (.written ⟨_, rfl, .nil⟩ (.written ⟨_, rfl, .nil⟩
    (.written ⟨_, rfl, .cons ?input .nil⟩ (.written ⟨_, rfl, .nil⟩ (.written ⟨_, rfl, .nil⟩
    (.written ⟨_, rfl, .cons rfl .nil⟩ .nil))))))))⟩
  case scalar => exact ⟨_, rfl, .written rfl (.written rfl (.written rfl .nil))⟩
  case enum =>
    refine ⟨_, rfl, .written rfl (.missing rfl (.missing rfl (.written ⟨_, rfl, .cons ?_ .nil⟩
      (.written ⟨_, rfl, .cons ?_ .nil⟩ .nil))))⟩
    · exact ⟨_, rfl, .written rfl (.written rfl (.missing rfl (.missing rfl (.missing rfl .nil))))⟩
    · exact ⟨_, rfl, .written rfl (.written rfl (.written rfl .nil))⟩
  case input =>
    refine ⟨_, rfl, .written rfl (.missing rfl (.missing rfl
      (.written ⟨_, rfl, .cons ?_ .nil⟩ .nil)))⟩
    exact ⟨_, rfl, .written rfl (.written rfl (.missing rfl (.written rfl (.missing rfl
      (.missing rfl (.missing rfl .nil))))))⟩

theorem readsBack_crewModel : crewModel.IsTyped ∧ crewModel.HasNoFloat ∧
    crewModel.Written crewJson ∧ ofJson? crewJson = some crewModel ∧
      (Json.parse? (Json.pretty crewModel.toJson).toList).bind ofJson? = some crewModel := by
  have htyped : crewModel.IsTyped := by
    refine ⟨?_, ?_, ?_, ?_⟩
    · rw [defaults_crewModel]
      simp [Value.leaves, Value.itemLeaves, Value.fieldLeaves, isWord]
    · rw [defaults_crewModel]
      decide
    · decide
    · decide
  have hfloat : crewModel.HasNoFloat := by
    rw [HasNoFloat, defaults_crewModel]
    simp [Value.leaves, Value.itemLeaves, Value.fieldLeaves]
  obtain ⟨hfull, hshort⟩ := readsBack_of_written htyped hfloat
  exact ⟨htyped, hfloat, written_crewJson, (hshort _ written_crewJson).1, hfull⟩

end SchemaBindings.Model
