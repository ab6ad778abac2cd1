import SchemaBindings.Proofs.Model.Members

namespace SchemaBindings.Model

def IsText (s : String) (j : Json) : Prop :=
  j = .string s

def RecordPart.text (key s : String) : RecordPart :=
  .required key (IsText s)

def RecordPart.type (key : String) (t : TypeExpr) : RecordPart :=
  .required key (· = t.toJson)

def RecordPart.ordinal (n : Nat) : RecordPart :=
  .required "ordinal" (· = .int n)

def RecordPart.records {α : Type} (key : String) (writes : α → Json → Prop) (items : List α) :
    RecordPart :=
  .required key (IsArray writes items)

def RecordPart.otherRecords {α : Type} (key : String) (writes : α → Json → Prop) (items : List α) :
    RecordPart :=
  ⟨key, IsArray writes items, items = []⟩

def RecordPart.optionalText (key : String) (s : Option String) : RecordPart :=
  ⟨key, (· = textOrNull s), s = none⟩

def RecordPart.defaultValue (v : Option Value) : RecordPart :=
  ⟨"default_value", (· = Json.ofOption Value.toJson v), v = none⟩

def RecordPart.status (s : Status) : RecordPart :=
  ⟨"status", (· = s.toJson), s = .stable⟩

def Argument.parts (a : Argument) : List RecordPart :=
  [.text "name" a.name, .type "type" a.type, .defaultValue a.defaultValue,
    .optionalText "description" a.description, .optionalText "deprecation" a.deprecation]

def Argument.Written (a : Argument) : Json → Prop :=
  IsObject a.parts

def Field.parts (f : Field) : List RecordPart :=
  [.text "name" f.name, .type "type" f.type, .otherRecords "arguments" Argument.Written f.arguments,
    .defaultValue f.defaultValue, .optionalText "description" f.description,
    .optionalText "deprecation" f.deprecation, .status f.status]

def Field.Written (f : Field) : Json → Prop :=
  IsObject f.parts

def EnumValue.parts (v : EnumValue) : List RecordPart :=
  [.text "name" v.name, .ordinal v.ordinal, .optionalText "description" v.description,
    .optionalText "deprecation" v.deprecation, .status v.status]

def EnumValue.Written (v : EnumValue) : Json → Prop :=
  IsObject v.parts

def EnumAlias.parts (a : EnumAlias) : List RecordPart :=
  [.text "name" a.name, .text "canonical" a.canonical, .ordinal a.ordinal]

def EnumAlias.Written (a : EnumAlias) : Json → Prop :=
  IsObject a.parts

def EnumType.parts (e : EnumType) : List RecordPart :=
  [.text "name" e.name, .optionalText "description" e.description, .status e.status,
    .records "values" EnumValue.Written e.values,
    .otherRecords "aliases" EnumAlias.Written e.aliases]

def EnumType.Written (e : EnumType) : Json → Prop :=
  IsObject e.parts

def RecordType.parts (r : RecordType) : List RecordPart :=
  [.text "name" r.name, .optionalText "description" r.description, .status r.status,
    .otherRecords "implements" IsText r.implements,
    .records "fields" Field.Written r.fields]

def RecordType.Written (r : RecordType) : Json → Prop :=
  IsObject r.parts

def InputType.parts (i : InputType) : List RecordPart :=
  [.text "name" i.name, .optionalText "description" i.description, .status i.status,
    .records "fields" Field.Written i.fields]

def InputType.Written (i : InputType) : Json → Prop :=
  IsObject i.parts

def UnionMember.parts (m : UnionMember) : List RecordPart :=
  [.text "name" m.name, .text "type_name" m.typeName, .optionalText "description" m.description,
    .optionalText "deprecation" m.deprecation, .status m.status]

def UnionMember.Written (m : UnionMember) : Json → Prop :=
  IsObject m.parts

def UnionType.parts (u : UnionType) : List RecordPart :=
  [.text "name" u.name, .optionalText "description" u.description, .status u.status,
    .text "kind" u.kind.text, .records "members" UnionMember.Written u.members]

def UnionType.Written (u : UnionType) : Json → Prop :=
  IsObject u.parts

def ScalarType.parts (s : ScalarType) : List RecordPart :=
  [.text "name" s.name, .optionalText "description" s.description, .status s.status]

def ScalarType.Written (s : ScalarType) : Json → Prop :=
  IsObject s.parts

def OperationField.parts (f : OperationField) : List RecordPart :=
  [.text "name" f.name, .otherRecords "arguments" Argument.Written f.arguments,
    .type "return_type" f.returnType, .optionalText "description" f.description,
    .optionalText "deprecation" f.deprecation, .status f.status]

def OperationField.Written (f : OperationField) : Json → Prop :=
  IsObject f.parts

def Operation.parts (o : Operation) : List RecordPart :=
  [.text "kind" o.kind.text, .text "type_name" o.typeName,
    .records "fields" OperationField.Written o.fields]

def Operation.Written (o : Operation) : Json → Prop :=
  IsObject o.parts

def PlatformDefault.Written (d : PlatformDefault) (j : Json) : Prop :=
  j = d.toJson

def memberParts (m : Model) : List RecordPart :=
  [.required "metadata" (· = m.metadata.toJson), .records "scalars" ScalarType.Written m.scalars,
    .records "enums" EnumType.Written m.enums,
    .records "interfaces" RecordType.Written m.interfaces,
    .records "objects" RecordType.Written m.objects, .records "inputs" InputType.Written m.inputs,
    .records "unions" UnionType.Written m.unions,
    .records "operations" Operation.Written m.operations,
    .records "platform_defaults" PlatformDefault.Written m.platformDefaults]

def Written (m : Model) : Json → Prop :=
  IsObject m.memberParts

theorem isArray_map {α : Type} {writes : α → Json → Prop} {toJson : α → Json}
    (h : ∀ a, writes a (toJson a)) (items : List α) :
    IsArray writes items (.array (items.map toJson)) := by
  refine ⟨_, rfl, ?_⟩
  induction items with
  | nil => exact .nil
  | cons a items ih => exact .cons (h a) ih

theorem isText_string (s : String) : IsText s (.string s) :=
  rfl

theorem Argument.written_toJson (a : Argument) : a.Written a.toJson :=
  ⟨_, rfl, .written rfl (.written rfl (.written rfl (.written rfl (.written rfl .nil))))⟩

theorem Field.written_toJson (f : Field) : f.Written f.toJson :=
  ⟨_, rfl, .written rfl (.written rfl (.written (isArray_map Argument.written_toJson _)
    (.written rfl (.written rfl (.written rfl (.written rfl .nil))))))⟩

theorem EnumValue.written_toJson (v : EnumValue) : v.Written v.toJson :=
  ⟨_, rfl, .written rfl (.written rfl (.written rfl (.written rfl (.written rfl .nil))))⟩

theorem EnumAlias.written_toJson (a : EnumAlias) : a.Written a.toJson :=
  ⟨_, rfl, .written rfl (.written rfl (.written rfl .nil))⟩

theorem EnumType.written_toJson (e : EnumType) : e.Written e.toJson :=
  ⟨_, rfl, .written rfl (.written rfl (.written rfl
    (.written (isArray_map EnumValue.written_toJson _)
      (.written (isArray_map EnumAlias.written_toJson _) .nil))))⟩

theorem RecordType.written_toJson (r : RecordType) : r.Written r.toJson :=
  ⟨_, rfl, .written rfl (.written rfl (.written rfl (.written (isArray_map isText_string _)
    (.written (isArray_map Field.written_toJson _) .nil))))⟩

theorem InputType.written_toJson (i : InputType) : i.Written i.toJson :=
  ⟨_, rfl, .written rfl (.written rfl (.written rfl
    (.written (isArray_map Field.written_toJson _) .nil)))⟩

theorem UnionMember.written_toJson (m : UnionMember) : m.Written m.toJson :=
  ⟨_, rfl, .written rfl (.written rfl (.written rfl (.written rfl (.written rfl .nil))))⟩

theorem UnionType.written_toJson (u : UnionType) : u.Written u.toJson :=
  ⟨_, rfl, .written rfl (.written rfl (.written rfl (.written rfl
    (.written (isArray_map UnionMember.written_toJson _) .nil))))⟩

theorem ScalarType.written_toJson (s : ScalarType) : s.Written s.toJson :=
  ⟨_, rfl, .written rfl (.written rfl (.written rfl .nil))⟩

theorem OperationField.written_toJson (f : OperationField) : f.Written f.toJson :=
  ⟨_, rfl, .written rfl (.written (isArray_map Argument.written_toJson _)
    (.written rfl (.written rfl (.written rfl (.written rfl .nil)))))⟩

theorem Operation.written_toJson (o : Operation) : o.Written o.toJson :=
  ⟨_, rfl, .written rfl (.written rfl
    (.written (isArray_map OperationField.written_toJson _) .nil))⟩

theorem PlatformDefault.written_toJson (d : PlatformDefault) : d.Written d.toJson :=
  rfl

theorem written_toJson (m : Model) : m.Written m.toJson :=
  ⟨_, rfl, .written rfl (.written (isArray_map ScalarType.written_toJson _)
    (.written (isArray_map EnumType.written_toJson _)
    (.written (isArray_map RecordType.written_toJson _)
    (.written (isArray_map RecordType.written_toJson _)
    (.written (isArray_map InputType.written_toJson _)
    (.written (isArray_map UnionType.written_toJson _)
    (.written (isArray_map Operation.written_toJson _)
    (.written (isArray_map PlatformDefault.written_toJson _) .nil))))))))⟩

end SchemaBindings.Model
