import SchemaBindings.Proofs.Model.Decoding
import SchemaBindings.Proofs.Target.Shapes
import SchemaBindings.Target.Bindings

namespace SchemaBindings

open Model Template

/-- What an operation expects of its arguments, and what it then gives. -/
def TemplateOp.shape? : TemplateOp → List Shape → Option Shape
  | .type, [.type] => some .text
  | .typeName, [.text] => some .text
  | .fieldName, [.text] => some .text
  | .caseName, [.text] => some .text
  | .variantName, [.text] => some .text
  | .constant, [.text] => some .text
  | .quoted, [.text] => some .text
  | .doc _, [.optionalText, .text] => some .text
  | .deprecated _, [.optionalText] => some .text
  | .fieldDefault, [.text, .record true _] => some .text
  | .literal, [.value, .type] => some .text
  | .isRequired, [.type] => some .flag
  | .isInherited, [.text, .text] => some .flag
  | .supertypes, [.text] => some (.list .text)
  | .join, [.list .text, .text] => some .text
  | .isEqual, [.text, .text] => some .flag
  | _, _ => none

theorem Target.literal_answers (t : Target) {value type : Json} (hvalue : Shape.value.Fits value)
    (htype : Shape.type.Fits type) :
    ∃ s, t.operations .literal [some value, some type] = some (.string s) := by
  obtain ⟨e, he⟩ := htype
  rcases hvalue with rfl | ⟨v, hv⟩
  · exact ⟨"", rfl⟩
  · have hanswer : t.operations .literal [some value, some type] =
        (Value.ofJson? value).bind fun value ↦ (TypeExpr.ofJson? type).map fun type ↦
          .string ((t.literal? value type).getD "") := by
      cases value <;> first | rfl | cases hv
    exact ⟨(t.literal? v e).getD "", by rw [hanswer, hv, he]; rfl⟩

theorem exists_item_of_fits_one {shape : Shape} {items : List Json}
    (h : List.Forall₂ Shape.Fits [shape] items) : ∃ j, items = [j] ∧ shape.Fits j := by
  obtain ⟨j, rest, hj, hrest, rfl⟩ := List.forall₂_cons_left_iff.mp h
  obtain rfl := List.forall₂_nil_left_iff.mp hrest
  exact ⟨j, rfl, hj⟩

theorem exists_items_of_fits_two {shape shape' : Shape} {items : List Json}
    (h : List.Forall₂ Shape.Fits [shape, shape'] items) :
    ∃ j k, items = [j, k] ∧ shape.Fits j ∧ shape'.Fits k := by
  obtain ⟨j, rest, hj, hrest, rfl⟩ := List.forall₂_cons_left_iff.mp h
  obtain ⟨k, rfl, hk⟩ := exists_item_of_fits_one hrest
  exact ⟨j, k, rfl, hj, hk⟩

theorem Target.keeps (t : Target) : Keeps t.operations TemplateOp.shape? := by
  intro op shapes result hresult items hfits
  have hspelled (op : TemplateOp) (spell : String → String)
      (hop : ∀ name, t.operations op [some (.string name)] = some (.string (spell name)))
      (hfits : List.Forall₂ Shape.Fits [.text] items) :
      ∃ j, t.operations op (items.map some) = some j ∧ Shape.text.Fits j := by
    obtain ⟨_, rfl, name, rfl⟩ := exists_item_of_fits_one hfits
    exact ⟨.string (spell name), hop name, spell name, rfl⟩
  unfold TemplateOp.shape? at hresult
  split at hresult
  · cases hresult
    obtain ⟨j, rfl, e, he⟩ := exists_item_of_fits_one hfits
    exact ⟨.string (t.typeText e), by simp [operations, he], _, rfl⟩
  · cases hresult
    exact hspelled _ t.language.typeName (fun _ ↦ rfl) hfits
  · cases hresult
    exact hspelled _ t.language.fieldName (fun _ ↦ rfl) hfits
  · cases hresult
    exact hspelled _ t.language.caseName (fun _ ↦ rfl) hfits
  · cases hresult
    exact hspelled _ t.language.variantName (fun _ ↦ rfl) hfits
  · cases hresult
    exact hspelled _ Naming.Style.constant.apply (fun _ ↦ rfl) hfits
  · cases hresult
    exact hspelled _ (fun s ↦ .ofList (t.dialect.textLiteral s.toList)) (fun _ ↦ rfl) hfits
  · cases hresult
    obtain ⟨description, status, rfl, -, -⟩ := exists_items_of_fits_two hfits
    exact ⟨_, rfl, _, rfl⟩
  · cases hresult
    obtain ⟨reason, rfl, -⟩ := exists_item_of_fits_one hfits
    exact ⟨_, rfl, _, rfl⟩
  · cases hresult
    obtain ⟨owner, field, rfl, ⟨name, rfl⟩, hfield, -⟩ := exists_items_of_fits_two hfits
    obtain ⟨f, hf⟩ := hfield rfl
    exact ⟨.string (t.fieldDefault name f), by simp [operations, hf, Json.text?], _, rfl⟩
  · cases hresult
    obtain ⟨value, type, rfl, hvalue, htype⟩ := exists_items_of_fits_two hfits
    obtain ⟨s, hs⟩ := t.literal_answers hvalue htype
    exact ⟨.string s, hs, s, rfl⟩
  · cases hresult
    obtain ⟨j, rfl, e, he⟩ := exists_item_of_fits_one hfits
    exact ⟨.bool e.isRequired, by simp [operations, he], _, rfl⟩
  · cases hresult
    obtain ⟨_, _, rfl, ⟨owner, rfl⟩, field, rfl⟩ := exists_items_of_fits_two hfits
    exact ⟨.bool (t.isInherited owner field), rfl, _, rfl⟩
  · cases hresult
    obtain ⟨_, rfl, name, rfl⟩ := exists_item_of_fits_one hfits
    refine ⟨.array ((t.supertypes name).map .string), rfl, _, rfl, fun i hi ↦ ?_⟩
    obtain ⟨s, -, rfl⟩ := List.mem_map.mp hi
    exact ⟨s, rfl⟩
  · cases hresult
    obtain ⟨_, _, rfl, ⟨list, rfl, -⟩, separator, rfl⟩ := exists_items_of_fits_two hfits
    exact ⟨_, rfl, _, rfl⟩
  · cases hresult
    obtain ⟨a, b, rfl, -, -⟩ := exists_items_of_fits_two hfits
    exact ⟨.bool (a == b), rfl, _, rfl⟩
  · cases hresult

namespace Shape

def declaration (others : List (String × Shape)) : Shape :=
  .record false ([("name", .text), ("description", .optionalText), ("status", .text)] ++ others)

def argument : Shape :=
  .record false [("name", .text), ("type", .type), ("default_value", .value),
    ("description", .optionalText), ("deprecation", .optionalText)]

def field (others : List (String × Shape)) : Shape :=
  .record true ([("name", .text), ("type", .type), ("arguments", .list argument),
    ("description", .optionalText), ("deprecation", .optionalText), ("status", .text)] ++ others)

def enumValue : Shape :=
  declaration [("ordinal", .number), ("deprecation", .optionalText)]

def enumAlias : Shape :=
  .record false [("name", .text), ("canonical", .text), ("ordinal", .number)]

def unionMember : Shape :=
  declaration [("type_name", .text), ("deprecation", .optionalText)]

def operationField : Shape :=
  declaration [("arguments", .list argument), ("return_type", .type),
    ("deprecation", .optionalText)]

def method : Shape :=
  declaration [("deprecation", .optionalText), ("params", .text), ("return_type", .text),
    ("stub", .text)]

def classes : Shape :=
  declaration [("base", .optionalText), ("also_implements", .list .text),
    ("fields", .list (field []))]

def property : Shape :=
  field [("stored", .text), ("witness", .optionalText)]

def properties : Shape :=
  declaration [("implements", .list .text), ("reference", .flag), ("fields", .list property)]

def fields : Shape :=
  declaration [("implements", .list .text), ("fields", .list (field []))]

def file : Shape :=
  .record false [("language", .text), ("file_name", .text), ("header", .flag),
    ("package", .optionalText), ("generator", .text), ("version", .text), ("sources", .list .text),
    ("body", .text)]

end Shape

def Language.classShape (l : Language) : Shape :=
  if l = .gdScript then .classes else .fields

/-- The shape of the nodes that a language has for a kind of declaration. -/
def Language.nodeShape (l : Language) : TemplateKind → Shape
  | .file => .file
  | .scalar => .declaration []
  | .enum => .declaration [("values", .list .enumValue), ("aliases", .list .enumAlias)]
  | .interface => l.classShape
  | .object => if l = .swift then .properties else l.classShape
  | .input =>
    if l = .swift then .properties else .declaration [("fields", .list (.field []))]
  | .union => .declaration ([("kind", .text), ("members", .list .unionMember)] ++
      if l = .swift then [("indirect", .flag)] else [])
  | .operation => .record false [("type_name", .text),
      ("fields", .list (if l = .gdScript then .method else .operationField))]

theorem Language.allCheck_template (l : Language) (kind : TemplateKind) :
    Piece.allCheck TemplateOp.shape? (l.template kind) [l.nodeShape kind] = true := by
  cases l <;> cases kind <;> decide +kernel

namespace Target

variable (t : Target)

def classNode (r : RecordType) : Json :=
  if t.language = .gdScript then (ClassShape.ofRecord t.model r).toJson else r.toJson

def unionNode (u : UnionType) : Json :=
  if t.language = .swift then .object (u.entries ++ [("indirect", .bool (t.storesItself u.name))])
  else u.toJson

def operationNode (o : Operation) : Json :=
  if t.language = .gdScript then t.methodsJson o else o.toJson

/-- A node for which a template is written when bindings are. -/
inductive Renders (options : FileOptions) : TemplateKind → Json → Prop
  | scalar {s : ScalarType} (hs : s ∈ t.model.scalars) : Renders options .scalar s.toJson
  | enum {e : EnumType} (he : e ∈ t.model.enums) : Renders options .enum e.toJson
  | interface {r : RecordType} (hr : r ∈ t.model.interfaces) :
      Renders options .interface (t.classNode r)
  | object {r : RecordType} (hr : r ∈ t.model.objects) (hl : t.language ≠ .swift) :
      Renders options .object (t.classNode r)
  | objectRecord {r : RecordType} {record : Record} (hr : r ∈ t.model.objects)
      (hl : t.language = .swift) (h : t.record r = .ok record) :
      Renders options .object record.toJson
  | input {i : InputType} (hi : i ∈ t.model.inputs) (hl : t.language ≠ .swift) :
      Renders options .input i.toJson
  | inputRecord {i : InputType} {record : Record} (hi : i ∈ t.model.inputs)
      (hl : t.language = .swift) (h : t.record i.asRecord = .ok record) :
      Renders options .input record.toJson
  | union {u : UnionType} (hu : u ∈ t.model.unions) : Renders options .union (t.unionNode u)
  | operation {o : Operation} (ho : o ∈ t.model.operations) :
      Renders options .operation (t.operationNode o)
  | file (body : List Char) : Renders options .file (t.fileJson options body)

end Target

section Fitting

theorem fits_ofText? (s : Option String) : Shape.optionalText.Fits (Json.ofText? s) :=
  ⟨s, rfl⟩

theorem fits_string (s : String) : Shape.text.Fits (.string s) :=
  ⟨s, rfl⟩

theorem fits_list {α : Type} {f : α → Json} {as : List α} {item : Shape}
    (h : ∀ a ∈ as, item.Fits (f a)) : (Shape.list item).Fits (.array (as.map f)) := by
  refine ⟨_, rfl, fun i hi ↦ ?_⟩
  obtain ⟨a, ha, rfl⟩ := List.mem_map.mp hi
  exact h a ha

theorem fits_texts (names : List String) :
    (Shape.list .text).Fits (.array (names.map .string)) :=
  fits_list fun s _ ↦ fits_string s

theorem fits_type (e : TypeExpr) : Shape.type.Fits e.toJson :=
  ⟨e, e.ofJson?_toJson⟩

theorem fits_status (s : Status) : Shape.text.Fits s.toJson :=
  ⟨s.text, rfl⟩

theorem fits_default {type : TypeExpr} {v : Option Value}
    (h : AreReadable (v.toList.map (type, ·))) :
    Shape.value.Fits (Json.ofOption Value.toJson v) := by
  cases v with
  | none => exact Or.inl rfl
  | some v => exact Or.inr (Value.exists_ofJson?_toJson (h (type, v) (List.mem_singleton_self _)))

theorem hasAll_cons {key : String} {shape : Shape} {members : List (String × Shape)}
    {j inner : Json} (hkey : j.member? key = some inner) (h : shape.Fits inner)
    (hrest : Shape.HasAll members j) : Shape.HasAll ((key, shape) :: members) j :=
  ⟨⟨inner, hkey, h⟩, hrest⟩

theorem fits_argument {a : Argument} (h : AreReadable a.defaults) : Shape.argument.Fits a.toJson :=
  ⟨nofun, hasAll_cons rfl (fits_string a.name) <| hasAll_cons rfl (fits_type a.type) <|
    hasAll_cons rfl (fits_default h) <| hasAll_cons rfl (fits_ofText? a.description) <|
    hasAll_cons rfl (fits_ofText? a.deprecation) trivial⟩

theorem hasAll_append {members others : List (String × Shape)} {j : Json}
    (h : Shape.HasAll members j) (hothers : Shape.HasAll others j) :
    Shape.HasAll (members ++ others) j := by
  induction members with
  | nil => exact hothers
  | cons p members ih => exact ⟨h.1, ih h.2⟩

theorem fits_field {f : Field} (h : AreReadable f.defaults) {more : List (String × Json)}
    {others : List (String × Shape)} (hmore : ∀ p ∈ more, p.1 ∉ f.entries.map (·.1))
    (hothers : Shape.HasAll others (.object (f.entries ++ more))) :
    (Shape.field others).Fits (.object (f.entries ++ more)) := by
  have hmember (key : String) (hkey : key ∈ f.entries.map (·.1)) :
      (Json.object (f.entries ++ more)).member? key = (Json.object f.entries).member? key := by
    refine Json.member?_append fun hmem ↦ ?_
    obtain ⟨p, hp, rfl⟩ := List.mem_map.mp hmem
    exact hmore p hp hkey
  have hkeys : f.entries.map (·.1) = ["name", "type", "arguments", "default_value", "description",
      "deprecation", "status"] := rfl
  have harguments : (Shape.list .argument).Fits (.array (f.arguments.map Argument.toJson)) :=
    fits_list fun a ha ↦ fits_argument fun d hd ↦
      h d (List.mem_append_right _ (List.mem_flatMap.mpr ⟨a, ha, hd⟩))
  refine ⟨fun _ ↦ ?_, hasAll_append ?_ hothers⟩
  · rw [Field.ofJson?_append hmore]
    exact Field.exists_ofJson?_toJson h
  · rw [hkeys] at hmember
    exact hasAll_cons (hmember "name" (by decide)) (fits_string f.name) <|
      hasAll_cons (hmember "type" (by decide)) (fits_type f.type) <|
      hasAll_cons (hmember "arguments" (by decide)) harguments <|
      hasAll_cons (hmember "description" (by decide)) (fits_ofText? f.description) <|
      hasAll_cons (hmember "deprecation" (by decide)) (fits_ofText? f.deprecation) <|
      hasAll_cons (hmember "status" (by decide)) (fits_status f.status) trivial

theorem fits_fields {fs : List Field} (h : AreReadable (fs.flatMap Field.defaults)) :
    (Shape.list (.field [])).Fits (.array (fs.map Field.toJson)) := by
  refine fits_list fun f hf ↦ ?_
  have hdefaults : AreReadable f.defaults := fun d hd ↦ h d (List.mem_flatMap.mpr ⟨f, hf, hd⟩)
  have hnone : Shape.HasAll [] (.object (f.entries ++ [])) := trivial
  exact fits_field hdefaults nofun hnone

theorem fits_declaration {name : String} {description : Option String} {status : Status}
    {others : List (String × Shape)} {j : Json} (hname : j.member? "name" = some (.string name))
    (hdescription : j.member? "description" = some (Json.ofText? description))
    (hstatus : j.member? "status" = some status.toJson) (h : Shape.HasAll others j) :
    (Shape.declaration others).Fits j :=
  ⟨nofun, hasAll_append (hasAll_cons hname (fits_string name) <|
    hasAll_cons hdescription (fits_ofText? description) <|
    hasAll_cons hstatus (fits_status status) trivial) h⟩

theorem fits_enum (e : EnumType) :
    (Shape.declaration [("values", .list .enumValue), ("aliases", .list .enumAlias)]).Fits
      e.toJson := by
  have hvalue (v : EnumValue) : Shape.enumValue.Fits v.toJson :=
    fits_declaration rfl rfl rfl <| hasAll_cons rfl ⟨v.ordinal, rfl⟩ <|
      hasAll_cons rfl (fits_ofText? v.deprecation) trivial
  have halias (a : EnumAlias) : Shape.enumAlias.Fits a.toJson :=
    ⟨nofun, hasAll_cons rfl (fits_string a.name) <| hasAll_cons rfl (fits_string a.canonical) <|
      hasAll_cons rfl ⟨a.ordinal, rfl⟩ trivial⟩
  exact fits_declaration rfl rfl rfl <| hasAll_cons rfl (fits_list fun v _ ↦ hvalue v) <|
    hasAll_cons rfl (fits_list fun a _ ↦ halias a) trivial

theorem fits_operationField {f : OperationField} (h : AreReadable f.defaults) :
    Shape.operationField.Fits f.toJson := by
  have harguments : (Shape.list .argument).Fits (.array (f.arguments.map Argument.toJson)) :=
    fits_list fun a ha ↦ fits_argument fun d hd ↦ h d (List.mem_flatMap.mpr ⟨a, ha, hd⟩)
  exact fits_declaration rfl rfl rfl <| hasAll_cons rfl harguments <|
    hasAll_cons rfl (fits_type f.returnType) <| hasAll_cons rfl (fits_ofText? f.deprecation) trivial

theorem fits_method (m : Method) : Shape.method.Fits m.toJson :=
  fits_declaration rfl rfl rfl <| hasAll_cons rfl (fits_ofText? m.field.deprecation) <|
    hasAll_cons rfl (fits_string m.parameters) <| hasAll_cons rfl (fits_string m.returnType) <|
    hasAll_cons rfl (fits_string m.placeholder) trivial

end Fitting

section Nodes

variable {t : Target}

theorem fits_operationNode {o : Operation}
    (h : AreReadable (o.fields.flatMap OperationField.defaults)) :
    (t.language.nodeShape .operation).Fits (t.operationNode o) := by
  by_cases hl : t.language = .gdScript
  · rw [Language.nodeShape, if_pos hl, Target.operationNode, if_pos hl]
    have hmethods : (Shape.list .method).Fits
        (.array (o.fields.map fun f ↦ (t.method f).toJson)) :=
      fits_list fun f _ ↦ fits_method (t.method f)
    exact ⟨nofun, hasAll_cons rfl (fits_string o.typeName) <| hasAll_cons rfl hmethods trivial⟩
  · rw [Language.nodeShape, if_neg hl, Target.operationNode, if_neg hl]
    have hfields : (Shape.list .operationField).Fits
        (.array (o.fields.map OperationField.toJson)) :=
      fits_list fun f hf ↦ fits_operationField fun d hd ↦ h d (List.mem_flatMap.mpr ⟨f, hf, hd⟩)
    exact ⟨nofun, hasAll_cons rfl (fits_string o.typeName) <| hasAll_cons rfl hfields trivial⟩

theorem fits_unionNode (u : UnionType) :
    (t.language.nodeShape .union).Fits (t.unionNode u) := by
  have hmember (m : UnionMember) : Shape.unionMember.Fits m.toJson :=
    fits_declaration rfl rfl rfl <| hasAll_cons rfl (fits_string m.typeName) <|
      hasAll_cons rfl (fits_ofText? m.deprecation) trivial
  have hmembers : (Shape.list .unionMember).Fits (.array (u.members.map UnionMember.toJson)) :=
    fits_list fun m _ ↦ hmember m
  by_cases hl : t.language = .swift
  · rw [Language.nodeShape, if_pos hl, Target.unionNode, if_pos hl]
    exact fits_declaration rfl rfl rfl <| hasAll_cons rfl (fits_string u.kind.text) <|
      hasAll_cons rfl hmembers <| hasAll_cons rfl ⟨t.storesItself u.name, rfl⟩ trivial
  · rw [Language.nodeShape, if_neg hl, Target.unionNode, if_neg hl]
    exact fits_declaration rfl rfl rfl <| hasAll_cons rfl (fits_string u.kind.text) <|
      hasAll_cons rfl hmembers trivial

theorem readable_of_subset {fs fs' : List Field} (h : AreReadable (fs.flatMap Field.defaults))
    (hsub : ∀ f ∈ fs', f ∈ fs) : AreReadable (fs'.flatMap Field.defaults) := by
  intro d hd
  obtain ⟨f, hf, hd⟩ := List.mem_flatMap.mp hd
  exact h d (List.mem_flatMap.mpr ⟨f, hsub f hf, hd⟩)

theorem mem_fields_of_mem_ofRecord {m : Model} {r : RecordType} {f : Field}
    (h : f ∈ (ClassShape.ofRecord m r).fields) : f ∈ r.fields := by
  unfold ClassShape.ofRecord at h
  split at h
  · exact h
  · exact (List.mem_filter.mp h).1

theorem fits_classNode {r : RecordType} (h : AreReadable (r.fields.flatMap Field.defaults)) :
    t.language.classShape.Fits (t.classNode r) := by
  by_cases hl : t.language = .gdScript
  · rw [Language.classShape, if_pos hl, Target.classNode, if_pos hl]
    exact fits_declaration rfl rfl rfl <| hasAll_cons rfl (fits_ofText? _) <|
      hasAll_cons rfl (fits_texts _) <|
      hasAll_cons rfl
        (fits_fields (readable_of_subset h fun f ↦ mem_fields_of_mem_ofRecord)) trivial
  · rw [Language.classShape, if_neg hl, Target.classNode, if_neg hl]
    exact fits_declaration rfl rfl rfl <| hasAll_cons rfl (fits_texts r.implements) <|
      hasAll_cons rfl (fits_fields h) trivial

theorem fits_property {p : Property} (h : AreReadable p.field.defaults) :
    Shape.property.Fits p.toJson := by
  refine fits_field h ?_ <| hasAll_cons rfl (fits_string p.stored) <|
    hasAll_cons rfl (fits_ofText? p.witness) trivial
  have hkeys : p.field.entries.map (·.1) = ["name", "type", "arguments", "default_value",
      "description", "deprecation", "status"] := rfl
  simp [hkeys]

theorem field_of_property {implements : List String} {f : Field} {p : Property}
    (h : t.property implements f = .ok p) : p.field = f := by
  unfold Target.property at h
  simp only at h
  split at h
  · cases h
    rfl
  · split at h
    · cases h
    · cases h
      rfl

theorem fits_record {r : RecordType} {record : Record} (hrecord : t.record r = .ok record)
    (h : AreReadable (r.fields.flatMap Field.defaults)) : Shape.properties.Fits record.toJson := by
  obtain ⟨properties, hproperties, hrecord⟩ := (Attempt.bind_eq_ok_iff _ _ _).mp hrecord
  split at hrecord
  · cases hrecord
  cases hrecord
  have hall : (Shape.list .property).Fits (.array (properties.map Property.toJson)) := by
    refine fits_list fun p hp ↦ fits_property fun d hd ↦ ?_
    obtain ⟨f, hf, hok⟩ := Attempt.exists_ok_of_mem_mapM hproperties p hp
    rw [field_of_property hok] at hd
    exact h d (List.mem_flatMap.mpr ⟨f, hf, hd⟩)
  exact fits_declaration rfl rfl rfl <| hasAll_cons rfl (fits_texts _) <|
    hasAll_cons rfl ⟨t.storesItself r.name, rfl⟩ <| hasAll_cons rfl hall trivial

theorem fits_fileJson (options : FileOptions) (body : List Char) :
    Shape.file.Fits (t.fileJson options body) :=
  ⟨nofun, hasAll_cons rfl (fits_string _) <| hasAll_cons rfl (fits_string _) <|
    hasAll_cons rfl ⟨options.header, rfl⟩ <| hasAll_cons rfl (fits_ofText? options.package) <|
    hasAll_cons rfl (fits_string _) <| hasAll_cons rfl (fits_string _) <|
    hasAll_cons rfl (fits_texts _) <| hasAll_cons rfl (fits_string _) trivial⟩

theorem readable_of_mem_records {m : Model} (h : AreReadable m.defaults) {r : RecordType}
    (hr : r ∈ m.records) : AreReadable (r.fields.flatMap Field.defaults) := by
  intro d hd
  obtain ⟨f, hf, hd⟩ := List.mem_flatMap.mp hd
  have hfields : f ∈ m.records.flatMap (·.fields) := List.mem_flatMap.mpr ⟨r, hr, hf⟩
  exact h d (List.mem_append_left _ (List.mem_append_left _ (List.mem_flatMap.mpr
    ⟨f, hfields, hd⟩)))

theorem readable_of_mem_inputs {m : Model} (h : AreReadable m.defaults) {i : InputType}
    (hi : i ∈ m.inputs) : AreReadable (i.fields.flatMap Field.defaults) := by
  intro d hd
  obtain ⟨f, hf, hd⟩ := List.mem_flatMap.mp hd
  have hfields : f ∈ m.inputs.flatMap (·.fields) := List.mem_flatMap.mpr ⟨i, hi, hf⟩
  exact h d (List.mem_append_left _ (List.mem_append_right _ (List.mem_flatMap.mpr
    ⟨f, hfields, hd⟩)))

theorem readable_of_mem_operations {m : Model} (h : AreReadable m.defaults) {o : Operation}
    (ho : o ∈ m.operations) : AreReadable (o.fields.flatMap OperationField.defaults) := by
  intro d hd
  obtain ⟨f, hf, hd⟩ := List.mem_flatMap.mp hd
  have hfields : f ∈ m.operations.flatMap (·.fields) := List.mem_flatMap.mpr ⟨o, ho, hf⟩
  exact h d (List.mem_append_right _ (List.mem_flatMap.mpr ⟨f, hfields, hd⟩))

theorem Target.Renders.fits (h : AreReadable t.model.defaults) {options : FileOptions}
    {kind : TemplateKind} {node : Json} (hnode : t.Renders options kind node) :
    (t.language.nodeShape kind).Fits node := by
  cases hnode with
  | @scalar s hs => exact fits_declaration rfl rfl rfl trivial
  | @enum e he => exact fits_enum e
  | interface hr => exact fits_classNode (readable_of_mem_records h (List.mem_append_right _ hr))
  | object hr hl =>
    rw [Language.nodeShape, if_neg hl]
    exact fits_classNode (readable_of_mem_records h (List.mem_append_left _ hr))
  | objectRecord hr hl hrecord =>
    rw [Language.nodeShape, if_pos hl]
    exact fits_record hrecord (readable_of_mem_records h (List.mem_append_left _ hr))
  | @input i hi hl =>
    rw [Language.nodeShape, if_neg hl]
    exact fits_declaration rfl rfl rfl <|
      hasAll_cons rfl (fits_fields (readable_of_mem_inputs h hi)) trivial
  | inputRecord hi hl hrecord =>
    rw [Language.nodeShape, if_pos hl]
    exact fits_record hrecord (readable_of_mem_inputs h hi)
  | @union u hu => exact fits_unionNode u
  | operation ho => exact fits_operationNode (readable_of_mem_operations h ho)
  | file body => exact fits_fileJson options body

/-- Every template finds in its nodes all that it asks for. -/
theorem Target.Renders.answers (h : AreReadable t.model.defaults) {options : FileOptions}
    {kind : TemplateKind} {node : Json} (hnode : t.Renders options kind node) :
    Piece.AllAnswer t.operations (t.language.template kind) (.root node) :=
  Piece.allAnswer_of_allCheck t.keeps (Scope.shows_root (hnode.fits h))
    (t.language.allCheck_template kind)

theorem Target.Renders.exists_write (h : AreReadable t.model.defaults) {options : FileOptions}
    {kind : TemplateKind} {node : Json} (hnode : t.Renders options kind node) :
    ∃ text, t.write kind node = .ok text := by
  obtain ⟨text, htext⟩ := Piece.exists_writeAll?_of_allAnswer (hnode.answers h)
  refine ⟨Template.tidy text, ?_⟩
  rw [Target.write, Template.write?, htext]

end Nodes

end SchemaBindings
