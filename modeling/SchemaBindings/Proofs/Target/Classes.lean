import SchemaBindings.Proofs.Target.Enums
import SchemaBindings.Proofs.Target.Placement

namespace SchemaBindings

open Model Template Text Place Fragment

namespace Target

variable (t : Target)

def defaultText (owner : String) (f : Field) : String :=
  ((Field.ofJson? f.toJson).map (t.fieldDefault owner)).getD ""

def assignmentText (owner : String) (f : Field) : String :=
  if t.defaultText owner f = "" then "" else " = " ++ t.defaultText owner f

def supertypesText (lead owner : String) : String :=
  if t.supertypes owner = [] then "" else lead ++ ", ".intercalate (t.supertypes owner)

def kotlinField (owner : String) (f : Field) : Member where
  before := t.comment 1 f.description f.status ++ t.deprecation 1 f.deprecation ++ "    ".toList ++
    (bif t.isInherited owner f.name then "override " else "").toList ++ "val ".toList
  name := t.language.fieldName f.name
  after := ": ".toList ++ (t.typeText f.type).toList ++
    (if t.defaultText owner f = "" then bif f.type.isRequired then "" else " = null"
      else " = " ++ t.defaultText owner f).toList ++ ",\n".toList

def kotlinClass (r : RecordType) : List Char :=
  t.comment 0 r.description r.status ++ (if r.fields = [] then "" else "data ").toList ++
    "class ".toList ++ (t.language.typeName r.name).toList ++ "(\n".toList ++
    r.fields.flatMap (fun f ↦ (t.kotlinField r.name f).text) ++ ")".toList ++
    (t.supertypesText " : " r.name).toList ++ "\n".toList

def constructorParameter (owner : String) (f : Field) : List String :=
  ["    ", bif f.type.isRequired && t.defaultText owner f == "" then "required " else "", "this.",
    t.language.fieldName f.name, t.assignmentText owner f, ",\n"]

def constructorParameters (r : RecordType) : List Char :=
  if r.fields = [] then []
  else "\x7b\n".toList ++
    r.fields.flatMap (fun f ↦ (t.constructorParameter r.name f).flatMap String.toList) ++
    "  \x7d".toList

def dartField (owner : String) (f : Field) : Member where
  before := "\n".toList ++ t.comment 1 f.description f.status ++ t.deprecation 1 f.deprecation ++
    (bif t.isInherited owner f.name then "  @override\n" else "").toList ++ "  final ".toList ++
    (t.typeText f.type).toList ++ " ".toList
  name := t.language.fieldName f.name
  after := ";\n".toList

def dartClass (r : RecordType) : List Char :=
  t.comment 0 r.description r.status ++ "class ".toList ++ (t.language.typeName r.name).toList ++
    (t.supertypesText " implements " r.name).toList ++ " \x7b\n".toList ++ "  const ".toList ++
    (t.language.typeName r.name).toList ++ "(".toList ++ t.constructorParameters r ++
    ");\n".toList ++ r.fields.flatMap (fun f ↦ (t.dartField r.name f).text) ++ "\x7d\n".toList

def gdScriptField (owner : String) (f : Field) : Member where
  before := t.comment 1 f.description f.status ++ t.deprecation 1 f.deprecation ++ "\tvar ".toList
  name := t.language.fieldName f.name
  after := ": ".toList ++ (t.typeText f.type).toList ++ (t.assignmentText owner f).toList ++
    "\n".toList

def baseText : Option String → String
  | none => "RefCounted"
  | some name => if name = "" then "RefCounted" else t.language.typeName name

def alsoText (interfaces : List String) : String :=
  if interfaces = [] then ""
  else "## Also implements " ++ ", ".intercalate (interfaces.map fun name ↦ "`" ++ name ++ "`") ++
    ".\n"

def gdScriptClass (c : ClassShape) : List Char :=
  t.comment 0 c.description c.status ++ (alsoText c.alsoImplements).toList ++ "class ".toList ++
    (t.language.typeName c.name).toList ++ " extends ".toList ++ (t.baseText c.base).toList ++
    ":\n".toList ++
    (if c.fields = [] then "\tpass\n".toList
      else c.fields.flatMap fun f ↦ (t.gdScriptField c.name f).text)

/-- An object as it is written where it is a class, before it is tidied. -/
def classLayout (r : RecordType) : List Char :=
  match t.language with
  | .kotlin => t.kotlinClass r
  | .dart => t.dartClass r
  | .gdScript => t.gdScriptClass (ClassShape.ofRecord t.model r)
  | _ => []

variable {t}

section Fields

variable {owner : String} {f : Field} {node : Json} {last : Bool}
  (howner : node.member? "name" = some (.string owner))

abbrev fieldScope (node : Json) (f : Field) (last : Bool) : Scope :=
  ⟨f.toJson, some last⟩ :: Scope.root node

theorem spelling_fieldDoc : (doc 1).spelling t.operations (fieldScope node f last) =
    t.comment 1 f.description f.status :=
  spelling_doc 1 rfl rfl

theorem spelling_fieldDeprecated :
    (deprecated 1).spelling t.operations (fieldScope node f last) =
      t.deprecation 1 f.deprecation :=
  spelling_deprecated 1 rfl

theorem spelling_fieldIdentifier :
    (fieldName (key "name")).spelling t.operations (fieldScope node f last) =
      (t.language.fieldName f.name).toList :=
  spelling_fieldName rfl

theorem spelling_fieldType : type.spelling t.operations (fieldScope node f last) =
    (t.typeText f.type).toList :=
  spelling_typeOf rfl

theorem holds?_fieldRequired : isRequired.holds? t.operations (fieldScope node f last) =
    some f.type.isRequired :=
  holds?_isRequired rfl

include howner

theorem lookup_owner : (fieldScope node f last).lookup 1 ["name"] = some (some (.string owner)) :=
  Shape.partAt?_cons_of_member? howner

theorem holds?_isInherited : Place.isInherited.holds? t.operations (fieldScope node f last) =
    some (t.isInherited owner f.name) := by
  have hname : (fieldScope node f last).lookup 0 ["name"] = some (some (.string f.name)) := rfl
  simp only [Place.isInherited, outer, key, Expr.holds?, Expr.value?, Expr.values?,
    lookup_owner howner, hname, Option.bind_some, Option.map_some]
  rfl

theorem value?_fieldDefault : Place.fieldDefault.value? t.operations (fieldScope node f last) =
    (Field.ofJson? f.toJson).map fun f ↦ some (.string (t.fieldDefault owner f)) := by
  have hitem : (fieldScope node f last).lookup 0 [] = some (some f.toJson) := rfl
  have hanswer : t.operations .fieldDefault [some (.string owner), some f.toJson] =
      (Field.ofJson? f.toJson).map fun f ↦ .string (t.fieldDefault owner f) := rfl
  simp only [Place.fieldDefault, outer, item, Expr.value?, Expr.values?, lookup_owner howner, hitem,
    Option.bind_some, Option.map_some, hanswer, Option.map_map, Function.comp_def]

theorem spelling_fieldDefault : Place.fieldDefault.spelling t.operations (fieldScope node f last) =
    (t.defaultText owner f).toList := by
  rw [Expr.spelling, value?_fieldDefault howner, defaultText]
  cases Field.ofJson? f.toJson <;> rfl

theorem contents_choice_fieldDefault (yes no : List Fragment) :
    (Piece.choice Place.fieldDefault yes no).contents t.operations (fieldScope node f last) =
      if t.defaultText owner f = "" then
        Piece.allContents t.operations no (fieldScope node f last)
      else Piece.allContents t.operations yes (fieldScope node f last) := by
  rw [Piece.contents, Expr.holds?, value?_fieldDefault howner, defaultText]
  cases Field.ofJson? f.toJson with
  | none => rfl
  | some f =>
    by_cases hempty : t.fieldDefault owner f = ""
    · simp [Json.holds, hempty]
    · simp [Json.holds, hempty]

theorem contents_assignment :
    (whenHolds Place.fieldDefault [" = ", Place.fieldDefault]).contents t.operations
        (fieldScope node f last) = (t.assignmentText owner f).toList := by
  rw [whenHolds, contents_choice_fieldDefault howner, assignmentText]
  split
  · rfl
  · simp [spelling_fieldDefault howner]

theorem contents_kotlinField :
    Piece.allContents t.operations
        [doc 1, deprecated 1, "    ", whenHolds Place.isInherited ["override "], "val ",
          fieldName (key "name"), ": ", type,
          .choice Place.fieldDefault [" = ", Place.fieldDefault]
            [unlessHolds isRequired [" = null"]],
          ",\n"]
        (fieldScope node f last) =
      (t.kotlinField owner f).text := by
  simp only [Piece.allContents_cons, Piece.allContents_nil, Piece.contents_text,
    Piece.contents_value, spelling_fieldDoc, spelling_fieldDeprecated, spelling_fieldIdentifier,
    spelling_fieldType, contents_whenHolds_text (holds?_isInherited howner),
    contents_choice_fieldDefault howner, contents_unlessHolds_text holds?_fieldRequired,
    spelling_fieldDefault howner, Member.text, kotlinField]
  split <;> simp

theorem contents_constructorParameter :
    Piece.allContents t.operations
        ["    ", whenHolds isRequired [unlessHolds Place.fieldDefault ["required "]], "this.",
          fieldName (key "name"), whenHolds Place.fieldDefault [" = ", Place.fieldDefault], ",\n"]
        (fieldScope node f last) =
      (t.constructorParameter owner f).flatMap String.toList := by
  have hrequired : (whenHolds isRequired [unlessHolds Place.fieldDefault ["required "]]).contents
      t.operations (fieldScope node f last) =
      (bif f.type.isRequired && t.defaultText owner f == "" then "required " else "").toList := by
    rw [contents_whenHolds holds?_fieldRequired, Piece.allContents_cons, unlessHolds,
      contents_choice_fieldDefault howner]
    cases f.type.isRequired with
    | false => rfl
    | true =>
      by_cases hempty : t.defaultText owner f = ""
      · simp [hempty]
      · simp [hempty, beq_eq_false_iff_ne.mpr hempty]
  simp only [Piece.allContents_cons, Piece.allContents_nil, Piece.contents_text,
    Piece.contents_value, hrequired, spelling_fieldIdentifier, contents_assignment howner,
    constructorParameter, List.flatMap_cons, List.flatMap_nil]

theorem contents_dartField :
    Piece.allContents t.operations
        ["\n",
          doc 1, deprecated 1, whenHolds Place.isInherited ["  @override\n"], "  final ", type, " ",
          fieldName (key "name"), ";\n"]
        (fieldScope node f last) =
      (t.dartField owner f).text := by
  simp only [Piece.allContents_cons, Piece.allContents_nil, Piece.contents_text,
    Piece.contents_value, spelling_fieldDoc, spelling_fieldDeprecated, spelling_fieldIdentifier,
    spelling_fieldType, contents_whenHolds_text (holds?_isInherited howner), Member.text,
    dartField]
  simp

theorem contents_gdScriptField :
    Piece.allContents t.operations
        [doc 1, deprecated 1, "\tvar ", fieldName (key "name"), ": ", type,
          whenHolds Place.fieldDefault [" = ", Place.fieldDefault], "\n"]
        (fieldScope node f last) =
      (t.gdScriptField owner f).text := by
  simp only [Piece.allContents_cons, Piece.allContents_nil, Piece.contents_text,
    Piece.contents_value, spelling_fieldDoc, spelling_fieldDeprecated, spelling_fieldIdentifier,
    spelling_fieldType, contents_assignment howner, Member.text, gdScriptField]
  simp

end Fields

theorem object_mem_parts {m : Model} {r : RecordType} (hr : r ∈ m.objects) :
    Part.object r ∈ m.parts := by
  simp only [Model.parts, List.mem_append]
  exact .inl (.inl (.inl (.inr (List.mem_map_of_mem hr))))

theorem interface_mem_parts {m : Model} {r : RecordType} (hr : r ∈ m.interfaces) :
    Part.interface r ∈ m.parts := by
  simp only [Model.parts, List.mem_append]
  exact .inl (.inl (.inl (.inl (.inr (List.mem_map_of_mem hr)))))

section Classes

variable {r : RecordType} {c : ClassShape}

theorem value?_supertypes {node : Json} {owner : String}
    (howner : node.member? "name" = some (.string owner)) :
    Place.supertypes.value? t.operations (.root node) =
      some (some (.array ((t.supertypes owner).map .string))) :=
  value?_call (lookup_root howner) rfl

theorem holds?_supertypes {node : Json} {owner : String}
    (howner : node.member? "name" = some (.string owner)) :
    Place.supertypes.holds? t.operations (.root node) = some !(t.supertypes owner).isEmpty := by
  rw [Expr.holds?, value?_supertypes howner, Option.map_some, Option.any_some, Json.holds,
    List.isEmpty_map]

theorem contents_supertypes (lead : String) {node : Json} {owner : String}
    (howner : node.member? "name" = some (.string owner)) :
    (whenHolds Place.supertypes [.text lead, .value (join Place.supertypes ", ")]).contents
        t.operations (.root node) = (t.supertypesText lead owner).toList := by
  have hjoin : (join Place.supertypes ", ").value? t.operations (.root node) =
      some (some (.string (", ".intercalate (t.supertypes owner)))) := by
    have htexts : ((t.supertypes owner).map Json.string).map joinText = t.supertypes owner := by
      rw [List.map_map]
      exact List.map_id _
    have hanswer : t.operations .join
        [some (.array ((t.supertypes owner).map .string)), some (.string ", ")] =
        some (.string (", ".intercalate
          (((t.supertypes owner).map Json.string).map joinText))) := rfl
    simp only [join, Expr.value?, Expr.values?, value?_supertypes howner, Option.bind_some,
      Option.map_some, hanswer, htexts]
  have hspelling : (join Place.supertypes ", ").spelling t.operations (.root node) =
      (", ".intercalate (t.supertypes owner)).toList := by
    rw [Expr.spelling, hjoin]
    rfl
  rw [contents_whenHolds (holds?_supertypes howner), supertypesText]
  by_cases hnone : t.supertypes owner = []
  · simp [hnone]
  · simp [hnone, hspelling]

theorem holds?_fields {node : Json} {fs : List Field}
    (hfields : node.member? "fields" = some (.array (fs.map Field.toJson))) :
    (key "fields").holds? t.operations (.root node) = some !fs.isEmpty := by
  rw [Place.key, holds?_path (lookup_root hfields), Json.holds, List.isEmpty_map]

theorem contents_kotlinClass :
    Piece.allContents t.operations Kotlin.objectTemplate (.root r.toJson) = t.kotlinClass r := by
  have hname : r.toJson.member? "name" = some (.string r.name) := rfl
  have hdoc : (doc 0).spelling t.operations (.root r.toJson) =
      t.comment 0 r.description r.status := spelling_doc 0 rfl rfl
  have htype : (typeName (key "name")).spelling t.operations (.root r.toJson) =
      (t.language.typeName r.name).toList := spelling_typeName hname
  have hfields : (forEach (key "fields") _).contents t.operations (.root r.toJson) =
      r.fields.flatMap fun f ↦ (t.kotlinField r.name f).text :=
    contents_forEach rfl fun _ _ ↦ contents_kotlinField hname
  have hdata : (whenHolds (key "fields") ["data "]).contents t.operations (.root r.toJson) =
      (if r.fields = [] then "" else "data ").toList := by
    rw [contents_whenHolds_text (holds?_fields rfl)]
    cases r.fields <;> rfl
  simp only [Kotlin.objectTemplate, Piece.allContents_cons, Piece.allContents_nil,
    Piece.contents_text, Piece.contents_value, hdoc, htype, hfields, hdata,
    contents_supertypes " : " hname, kotlinClass, List.append_nil, List.append_assoc]

theorem contents_dartClass :
    Piece.allContents t.operations Dart.objectTemplate (.root r.toJson) = t.dartClass r := by
  have hname : r.toJson.member? "name" = some (.string r.name) := rfl
  have hdoc : (doc 0).spelling t.operations (.root r.toJson) =
      t.comment 0 r.description r.status := spelling_doc 0 rfl rfl
  have htype : (typeName (key "name")).spelling t.operations (.root r.toJson) =
      (t.language.typeName r.name).toList := spelling_typeName hname
  have hparameters : (forEach (key "fields") _).contents t.operations (.root r.toJson) =
      r.fields.flatMap fun f ↦ (t.constructorParameter r.name f).flatMap String.toList :=
    contents_forEach rfl fun _ _ ↦ contents_constructorParameter hname
  have hfields : (forEach (key "fields") _).contents t.operations (.root r.toJson) =
      r.fields.flatMap fun f ↦ (t.dartField r.name f).text :=
    contents_forEach rfl fun _ _ ↦ contents_dartField hname
  have hlist : (whenHolds (key "fields") ["\x7b\n", forEach (key "fields")
      ["    ", whenHolds isRequired [unlessHolds Place.fieldDefault ["required "]], "this.",
        fieldName (key "name"), whenHolds Place.fieldDefault [" = ", Place.fieldDefault],
        ",\n"], "  \x7d"]).contents t.operations (.root r.toJson) =
      t.constructorParameters r := by
    have hholds : (key "fields").holds? t.operations (.root r.toJson) = some !r.fields.isEmpty :=
      holds?_fields rfl
    rw [contents_whenHolds hholds, Piece.allContents_cons, Piece.allContents_cons, hparameters,
      constructorParameters]
    by_cases hnone : r.fields = []
    · simp [hnone]
    · simp [hnone]
  simp only [Dart.objectTemplate, Piece.allContents_cons, Piece.allContents_nil,
    Piece.contents_text, Piece.contents_value, hdoc, htype, hlist, hfields,
    contents_supertypes " implements " hname, dartClass, List.append_nil, List.append_assoc]

theorem contents_alsoImplements :
    (whenHolds (key "also_implements")
      ["## Also implements ", forEach (key "also_implements") ["`", item, "`", betweenItems ", "],
        ".\n"]).contents t.operations (.root c.toJson) = (alsoText c.alsoImplements).toList := by
  have hlookup : (Scope.root c.toJson).lookup 0 ["also_implements"] =
      some (some (.array (c.alsoImplements.map .string))) := rfl
  have hname (name : String) (last : Bool) :
      Piece.allContents t.operations ["`", item, "`", betweenItems ", "]
        (⟨.string name, some last⟩ :: Scope.root c.toJson) =
      ("`" ++ name ++ "`").toList ++ if last then [] else ", ".toList := by
    have hitem : item.spelling t.operations (⟨.string name, some last⟩ :: Scope.root c.toJson) =
        name.toList := by
      have hlookup : Scope.lookup (⟨.string name, some last⟩ :: Scope.root c.toJson) 0 [] =
          some (some (.string name)) := rfl
      exact spelling_path hlookup
    simp [hitem, contents_betweenItems]
  have hnames : (forEach (key "also_implements") ["`", item, "`", betweenItems ", "]).contents
      t.operations (.root c.toJson) =
      (", ".intercalate (c.alsoImplements.map fun name ↦ "`" ++ name ++ "`")).toList := by
    rw [Place.key, contents_forEach_separated hlookup hname, String.toList_intercalate,
      List.map_map]
    rfl
  have hholds : (key "also_implements").holds? t.operations (.root c.toJson) =
      some !c.alsoImplements.isEmpty := by
    rw [Place.key, holds?_path hlookup, Json.holds, List.isEmpty_map]
  rw [contents_whenHolds hholds, alsoText]
  cases hnone : c.alsoImplements with
  | nil => rfl
  | cons name names =>
    rw [hnone] at hnames
    simp [hnames]

theorem contents_base : (Piece.choice (key "base") [typeName (key "base")] ["RefCounted"]).contents
    t.operations (.root c.toJson) = (t.baseText c.base).toList := by
  have hlookup : (Scope.root c.toJson).lookup 0 ["base"] = some (some (Json.ofText? c.base)) := rfl
  have hholds : (key "base").holds? t.operations (.root c.toJson) =
      some (Json.ofText? c.base).holds := holds?_path hlookup
  rw [contents_choice hholds]
  cases hsome : c.base with
  | none => simp [Json.ofText?, Json.holds, baseText]
  | some base =>
    rw [hsome] at hlookup
    have hspelling : (typeName (key "base")).spelling t.operations (.root c.toJson) =
        (t.language.typeName base).toList := spelling_call t.operations_typeName hlookup
    by_cases hempty : base = ""
    · simp [Json.ofText?, Json.holds, baseText, hempty]
    · simp [Json.ofText?, Json.holds, baseText, hempty, hspelling]

theorem contents_gdScriptFields :
    (Piece.each (key "fields")
      [doc 1, deprecated 1, "\tvar ", fieldName (key "name"), ": ", type,
        whenHolds Place.fieldDefault [" = ", Place.fieldDefault], "\n"]
      (some ["\tpass\n"])).contents t.operations (.root c.toJson) =
    if c.fields = [] then "\tpass\n".toList
    else c.fields.flatMap fun f ↦ (t.gdScriptField c.name f).text := by
  have hname : c.toJson.member? "name" = some (.string c.name) := rfl
  have hitems : (key "fields").items t.operations (.root c.toJson) = c.fields.map Field.toJson :=
    items_path rfl
  have heach : (forEach (key "fields") _).contents t.operations (.root c.toJson) =
      c.fields.flatMap fun f ↦ (t.gdScriptField c.name f).text :=
    contents_forEach rfl fun _ _ ↦ contents_gdScriptField hname
  rw [contents_each_otherwise hitems, heach]
  simp only [List.map_eq_nil_iff, Piece.allContents_cons, Piece.contents_text,
    Piece.allContents_nil, List.append_nil]

theorem contents_gdScriptClass :
    Piece.allContents t.operations GdScript.classTemplate (.root c.toJson) =
      t.gdScriptClass c := by
  have hdoc : (doc 0).spelling t.operations (.root c.toJson) =
      t.comment 0 c.description c.status := spelling_doc 0 rfl rfl
  have htype : (typeName (key "name")).spelling t.operations (.root c.toJson) =
      (t.language.typeName c.name).toList := spelling_typeName rfl
  simp only [GdScript.classTemplate, Piece.allContents_cons, Piece.allContents_nil,
    Piece.contents_text, Piece.contents_value, hdoc, htype, contents_alsoImplements, contents_base,
    contents_gdScriptFields, gdScriptClass, List.append_nil, List.append_assoc]

theorem not_allBlank_of_mem {cs : List Char} {c : Char} (hc : c ∈ cs) (hblank : ¬ isBlank c) :
    ¬ allBlank cs :=
  fun h ↦ hblank (List.all_eq_true.mp h c hc)

theorem not_allBlank_classLayout
    (hl : t.language = .kotlin ∨ t.language = .dart ∨ t.language = .gdScript) (r : RecordType) :
    ¬ allBlank (t.classLayout r) := by
  have hletter : ¬ isBlank 'c' := by decide
  refine not_allBlank_of_mem ?_ hletter
  rcases hl with hl | hl | hl
  · simp [classLayout, hl, kotlinClass]
  · simp [classLayout, hl, dartClass]
  · simp [classLayout, hl, gdScriptClass]

theorem eq_tidy_of_objectText
    (hl : t.language = .kotlin ∨ t.language = .dart ∨ t.language = .gdScript) {text : List Char}
    (h : t.objectText r = .ok text) : text = tidy (t.classLayout r) := by
  have hwrite : t.write .object (t.classNode r) = .ok text := by
    rcases hl with hl | hl | hl <;> rw [objectText, hl] at h <;> rw [classNode, hl] <;>
      exact eq_ok_of_refuse_bind h
  rw [eq_tidy_of_write hwrite]
  rcases hl with hl | hl | hl
  · rw [classNode, if_neg (by simp [hl]), hl, classLayout, hl]
    exact congrArg tidy contents_kotlinClass
  · rw [classNode, if_neg (by simp [hl]), hl, classLayout, hl]
    exact congrArg tidy contents_dartClass
  · rw [classNode, if_pos hl, hl, classLayout, hl]
    exact congrArg tidy contents_gdScriptClass

theorem eq_tidy_of_interfaceText (hl : t.language = .gdScript) {text : List Char}
    (h : t.interfaceText r = .ok text) : text = tidy (t.classLayout r) := by
  have hwrite : t.write .interface (t.classNode r) = .ok text := by
    rw [interfaceText, hl] at h
    rw [classNode, hl]
    exact eq_ok_of_refuse_bind h
  rw [eq_tidy_of_write hwrite, classNode, if_pos hl, hl, classLayout, hl]
  exact congrArg tidy contents_gdScriptClass

theorem exists_class_of_fileText
    (hl : t.language = .kotlin ∨ t.language = .dart ∨ t.language = .gdScript)
    {options : FileOptions} {text : List Char} (h : t.fileText options = .ok text)
    (hr : r ∈ t.model.objects ∨ t.language = .gdScript ∧ r ∈ t.model.interfaces) :
    ∃ before after, text = before ++ tidy (t.classLayout r) ++ after ∧ EndsLine before := by
  obtain ⟨p, hp, hlayout⟩ : ∃ p ∈ t.model.parts, ∀ part, t.partText p = .ok part →
      part = tidy (t.classLayout r) := by
    rcases hr with hr | ⟨hl, hr⟩
    · exact ⟨.object r, object_mem_parts hr, fun _ ↦ eq_tidy_of_objectText hl⟩
    · exact ⟨.interface r, interface_mem_parts hr, fun _ ↦ eq_tidy_of_interfaceText hl⟩
  obtain ⟨part, hpart⟩ := exists_partText_of_fileText h hp
  obtain rfl := hlayout part hpart
  have hfilled := not_allBlank_classLayout hl r
  obtain ⟨before, after, htext, hbefore⟩ :=
    exists_eq_append_of_fileText h hp hpart (not_allBlank_tidy hfilled)
  rw [tidy_trimEnd_tidy hfilled] at htext
  exact ⟨before, after, htext, hbefore⟩

end Classes

end Target

end SchemaBindings
