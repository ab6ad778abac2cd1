import SchemaBindings.Proofs.Target.Identifiers
import SchemaBindings.Proofs.Target.Parameters

namespace SchemaBindings

open Model Template Place Fragment

/-- A member of an enum with what is written before and after its name. -/
structure Member where
  before : List Char
  name : String
  after : List Char

def Member.text (m : Member) : List Char :=
  m.before ++ m.name.toList ++ m.after

/-- The members that every enum has. -/
def Language.fixedMembers : Language → List String
  | .dart => ["value", "ordinal", "fromValue"]
  | .swift => ["ordinal"]
  | _ => []

namespace Language

variable {l : Language}

theorem notMem_fixedMembers_of_reserved {word : String} (h : word ∈ l.reserved) :
    word ∉ l.fixedMembers ∧ l.dialect.escape.apply word ∉ l.fixedMembers := by
  have hall (l : Language) : ∀ word ∈ l.reserved,
      word ∉ l.fixedMembers ∧ l.dialect.escape.apply word ∉ l.fixedMembers := by
    cases l <;> decide +kernel
  exact hall l word h

theorem identifier_mem_fixedMembers_iff (word : String) :
    l.identifier word ∈ l.fixedMembers ↔ word ∈ l.fixedMembers := by
  by_cases hreserved : word ∈ l.reserved
  · obtain ⟨hword, hescaped⟩ := notMem_fixedMembers_of_reserved hreserved
    rw [identifier_of_mem hreserved]
    exact iff_of_false hescaped hword
  · rw [identifier_of_notMem hreserved]

theorem caseName_mem_fixedMembers_iff (hl : l = .dart ∨ l = .swift) (name : String) :
    l.caseName name ∈ l.fixedMembers ↔ Naming.Style.camel.apply name ∈ l.fixedMembers := by
  have hcase : l.caseName name = l.identifier (Naming.Style.camel.apply name) := by
    rcases hl with rfl | rfl <;> rfl
  rw [hcase, identifier_mem_fixedMembers_iff]

end Language

namespace Target

variable (t : Target)

def dartCase (last : Bool) (v : EnumValue) : Member where
  before := t.comment 1 v.description v.status ++ t.deprecation 1 v.deprecation ++ "  ".toList
  name := t.language.caseName v.name
  after := "(".toList ++ t.dialect.textLiteral v.name.toList ++ ", ".toList ++
    (Json.int v.ordinal).plainText ++ ")".toList ++ (if last then ";" else ",").toList ++
    "\n".toList

def dartCases : List EnumValue → List Member
  | [] => []
  | [v] => [t.dartCase true v]
  | v :: vs => t.dartCase false v :: dartCases vs

def dartValue (e : EnumType) : Member where
  before := "\n".toList ++ "  const ".toList ++ (t.language.typeName e.name).toList ++
    "(this.value, this.ordinal);\n".toList ++ "\n".toList ++
    "  /// Raw value as declared in the schema.\n".toList ++ "  final String ".toList
  name := "value"
  after := ";\n".toList

def dartOrdinal : Member where
  before := "\n".toList ++
    "  /// Position in the schema declaration, kept when future values are left out.\n".toList ++
    "  final int ".toList
  name := "ordinal"
  after := ";\n".toList

def dartAlias (e : EnumType) (a : EnumAlias) : Member where
  before := "\n".toList ++ "  @Deprecated('Use ".toList ++
    (t.language.caseName a.canonical).toList ++ "')\n".toList ++ "  static const ".toList
  name := t.language.caseName a.name
  after := " = ".toList ++ (t.language.typeName e.name).toList ++ ".".toList ++
    (t.language.caseName a.canonical).toList ++ ";\n".toList

def dartReturn (e : EnumType) (rawValue canonical : String) : List String :=
  ["      case ", .ofList (t.dialect.textLiteral rawValue.toList), ":\n", "        return ",
    t.language.typeName e.name, ".", t.language.caseName canonical, ";\n"]

def dartFromValue (e : EnumType) : Member where
  before := "\n".toList ++
    "  /// Looks up a case by raw value, legacy aliases included.\n".toList ++
    "  static ".toList ++ (t.language.typeName e.name).toList ++ "? ".toList
  name := "fromValue"
  after := "(String value) \x7b\n".toList ++ "    switch (value) \x7b\n".toList ++
    e.values.flatMap (fun v ↦ (t.dartReturn e v.name v.name).flatMap String.toList) ++
    e.aliases.flatMap (fun a ↦ (t.dartReturn e a.name a.canonical).flatMap String.toList) ++
    "    \x7d\n".toList ++ "    return null;\n".toList ++ "  \x7d\n".toList

def swiftCase (v : EnumValue) : Member where
  before := t.comment 1 v.description v.status ++ t.deprecation 1 v.deprecation ++
    "    case ".toList
  name := t.language.caseName v.name
  after := " = ".toList ++ t.dialect.textLiteral v.name.toList ++ "\n".toList

def swiftPosition (v : EnumValue) : List String :=
  ["        case .", t.language.caseName v.name, ": return ",
    .ofList (Json.int v.ordinal).plainText, "\n"]

def swiftOrdinal (e : EnumType) : Member where
  before := "\n".toList ++ "    /// Position of the case in the schema declaration.\n".toList ++
    "    public var ".toList
  name := "ordinal"
  after := ": Int \x7b\n".toList ++ "        switch self \x7b\n".toList ++
    e.values.flatMap (fun v ↦ (t.swiftPosition v).flatMap String.toList) ++
    "        \x7d\n".toList ++ "    \x7d\n".toList

def swiftAlias (e : EnumType) (a : EnumAlias) : Member where
  before := "\n".toList ++ "    @available(*, deprecated, renamed: \"".toList ++
    (t.language.caseName a.canonical).toList ++ "\")\n".toList ++
    "    public static let ".toList
  name := t.language.caseName a.name
  after := ": ".toList ++ (t.language.typeName e.name).toList ++ " = .".toList ++
    (t.language.caseName a.canonical).toList ++ "\n".toList

def swiftLegacy (a : EnumAlias) : List String :=
  ["        case ", .ofList (t.dialect.textLiteral a.name.toList), ": self = .",
    t.language.caseName a.canonical, "\n"]

def swiftInitializer (e : EnumType) : List Char :=
  if e.aliases = [] then []
  else "\n".toList ++ "    /// Accepts current raw values and legacy aliases.\n".toList ++
    "    public init?(legacyRawValue: String) \x7b\n".toList ++
    "        switch legacyRawValue \x7b\n".toList ++
    e.aliases.flatMap (fun a ↦ (t.swiftLegacy a).flatMap String.toList) ++
    "        default: self.init(rawValue: legacyRawValue)\n".toList ++ "        \x7d\n".toList ++
    "    \x7d\n".toList

def enumMembers (e : EnumType) : List Member :=
  match t.language with
  | .dart => t.dartCases e.values ++ [t.dartValue e, dartOrdinal] ++
    e.aliases.map (t.dartAlias e) ++ [t.dartFromValue e]
  | .swift => e.values.map t.swiftCase ++ [t.swiftOrdinal e] ++ e.aliases.map (t.swiftAlias e)
  | _ => []

def enumOpening (e : EnumType) : List Char :=
  match t.language with
  | .dart => t.comment 0 e.description e.status ++
    ("enum " ++ t.language.typeName e.name ++ " \x7b\n").toList
  | .swift => t.comment 0 e.description e.status ++
    ("public enum " ++ t.language.typeName e.name ++ ": String, Codable, CaseIterable \x7b\n").toList
  | _ => []

def enumClosing (e : EnumType) : List Char :=
  (match t.language with
    | .swift => t.swiftInitializer e
    | _ => []) ++ "\x7d\n".toList

/-- An enum as it is written, before it is tidied. -/
def enumLayout (e : EnumType) : List Char :=
  t.enumOpening e ++ (t.enumMembers e).flatMap Member.text ++ t.enumClosing e

variable {t}

section Nodes

variable {last : Option Bool} {scope : Scope} {v : EnumValue} {a : EnumAlias}

theorem spelling_valueCase : (caseName (key "name")).spelling t.operations
    (⟨v.toJson, last⟩ :: scope) = (t.language.caseName v.name).toList :=
  spelling_caseName rfl

theorem spelling_valueQuoted : (quoted (key "name")).spelling t.operations
    (⟨v.toJson, last⟩ :: scope) = t.dialect.textLiteral v.name.toList :=
  spelling_quoted rfl

theorem spelling_valueOrdinal : (key "ordinal").spelling t.operations
    (⟨v.toJson, last⟩ :: scope) = (Json.int v.ordinal).plainText :=
  spelling_path (lookup_member rfl)

theorem spelling_valueDoc : (doc 1).spelling t.operations (⟨v.toJson, last⟩ :: scope) =
    t.comment 1 v.description v.status :=
  spelling_doc 1 rfl rfl

theorem spelling_valueDeprecated : (deprecated 1).spelling t.operations
    (⟨v.toJson, last⟩ :: scope) = t.deprecation 1 v.deprecation :=
  spelling_deprecated 1 rfl

theorem spelling_aliasCase : (caseName (key "name")).spelling t.operations
    (⟨a.toJson, last⟩ :: scope) = (t.language.caseName a.name).toList :=
  spelling_caseName rfl

theorem spelling_aliasCanonical : (caseName (key "canonical")).spelling t.operations
    (⟨a.toJson, last⟩ :: scope) = (t.language.caseName a.canonical).toList :=
  spelling_caseName rfl

theorem spelling_aliasQuoted : (quoted (key "name")).spelling t.operations
    (⟨a.toJson, last⟩ :: scope) = t.dialect.textLiteral a.name.toList :=
  spelling_quoted rfl

theorem spelling_enumName {node : Json} {e : EnumType} :
    (typeName (outer "name")).spelling t.operations (⟨node, last⟩ :: Scope.root e.toJson) =
      (t.language.typeName e.name).toList :=
  spelling_call t.operations_typeName rfl

end Nodes

section Repetitions

variable {e : EnumType} {body : List Fragment} {text : EnumValue → List Char}
  {aliasText : EnumAlias → List Char}

theorem contents_values (hbody : ∀ (v : EnumValue) (last : Bool),
      Piece.allContents t.operations body (⟨v.toJson, last⟩ :: Scope.root e.toJson) = text v) :
    (forEach (key "values") body).contents t.operations (.root e.toJson) =
      e.values.flatMap text :=
  contents_forEach rfl hbody

theorem contents_aliases (hbody : ∀ (a : EnumAlias) (last : Bool),
      Piece.allContents t.operations body (⟨a.toJson, last⟩ :: Scope.root e.toJson) =
        aliasText a) :
    (forEach (key "aliases") body).contents t.operations (.root e.toJson) =
      e.aliases.flatMap aliasText :=
  contents_forEach rfl hbody

end Repetitions

section Dart

variable {e : EnumType}

theorem contents_dartCase (v : EnumValue) (last : Bool) :
    Piece.allContents t.operations
        [doc 1, deprecated 1, "  ", caseName (key "name"), "(", quoted (key "name"), ", ",
          key "ordinal", ")", .choice .isLast [";"] [","], "\n"]
        (⟨v.toJson, last⟩ :: Scope.root e.toJson) =
      (t.dartCase last v).text := by
  have hlast : (Piece.choice .isLast [";"] [","] : Fragment).contents t.operations
      (⟨v.toJson, last⟩ :: Scope.root e.toJson) = (if last then ";" else ",").toList := by
    cases last <;> rfl
  simp only [Member.text, dartCase, Piece.allContents_cons, Piece.allContents_nil,
    Piece.contents_text, Piece.contents_value, List.append_nil, List.append_assoc, hlast,
    spelling_valueDoc, spelling_valueDeprecated, spelling_valueCase, spelling_valueQuoted,
    spelling_valueOrdinal]

theorem flatMap_dartCases {f : Scope → List Char} {scope : Scope}
    (h : ∀ (v : EnumValue) (last : Bool), f (⟨v.toJson, last⟩ :: scope) = (t.dartCase last v).text)
    (vs : List EnumValue) :
    (scope.items (vs.map EnumValue.toJson)).flatMap f = (t.dartCases vs).flatMap Member.text := by
  fun_induction dartCases t vs with
  | case1 => rfl
  | case2 v => exact congrArg (· ++ []) (h v true)
  | case3 v vs hne ih =>
    obtain ⟨w, vs, rfl⟩ := List.exists_cons_of_ne_nil hne
    exact congrArg₂ (· ++ ·) (h v false) ih

theorem contents_dartAlias (a : EnumAlias) (last : Bool) :
    Piece.allContents t.operations
        ["\n",
          "  @Deprecated('Use ", caseName (key "canonical"), "')\n",
          "  static const ", caseName (key "name"), " = ", typeName (outer "name"), ".",
          caseName (key "canonical"), ";\n"]
        (⟨a.toJson, last⟩ :: Scope.root e.toJson) =
      (t.dartAlias e a).text := by
  simp only [Member.text, dartAlias, Piece.allContents_cons, Piece.allContents_nil,
    Piece.contents_text, Piece.contents_value, List.append_nil, List.append_assoc,
    spelling_aliasCase, spelling_aliasCanonical, spelling_enumName]

theorem contents_dartReturn (v : EnumValue) (last : Bool) :
    Piece.allContents t.operations
        ["      case ", quoted (key "name"), ":\n",
          "        return ", typeName (outer "name"), ".", caseName (key "name"), ";\n"]
        (⟨v.toJson, last⟩ :: Scope.root e.toJson) =
      (t.dartReturn e v.name v.name).flatMap String.toList := by
  simp only [dartReturn, List.flatMap_cons, List.flatMap_nil, String.toList_ofList,
    Piece.allContents_cons, Piece.allContents_nil, Piece.contents_text, Piece.contents_value,
    spelling_valueCase, spelling_valueQuoted, spelling_enumName]

theorem contents_dartAliasReturn (a : EnumAlias) (last : Bool) :
    Piece.allContents t.operations
        ["      case ", quoted (key "name"), ":\n",
          "        return ", typeName (outer "name"), ".", caseName (key "canonical"), ";\n"]
        (⟨a.toJson, last⟩ :: Scope.root e.toJson) =
      (t.dartReturn e a.name a.canonical).flatMap String.toList := by
  simp only [dartReturn, List.flatMap_cons, List.flatMap_nil, String.toList_ofList,
    Piece.allContents_cons, Piece.allContents_nil, Piece.contents_text, Piece.contents_value,
    spelling_aliasCanonical, spelling_aliasQuoted, spelling_enumName]

theorem contents_dartEnum (hl : t.language = .dart) :
    Piece.allContents t.operations Dart.enumTemplate (.root e.toJson) = t.enumLayout e := by
  have hname : (typeName (key "name")).spelling t.operations (.root e.toJson) =
      (t.language.typeName e.name).toList := spelling_typeName rfl
  have hdoc : (doc 0).spelling t.operations (.root e.toJson) =
      t.comment 0 e.description e.status := spelling_doc 0 rfl rfl
  have hitems : (key "values").items t.operations (.root e.toJson) =
      e.values.map EnumValue.toJson := items_path rfl
  have hcases : (forEach (key "values")
      [doc 1, deprecated 1, "  ", caseName (key "name"), "(", quoted (key "name"), ", ",
        key "ordinal", ")", .choice .isLast [";"] [","], "\n"]).contents t.operations
        (.root e.toJson) = (t.dartCases e.values).flatMap Member.text := by
    rw [forEach, Piece.contents, hitems, flatMap_dartCases contents_dartCase]
  have haliases := contents_aliases (e := e) (contents_dartAlias (t := t))
  have hreturns := contents_values (e := e) (contents_dartReturn (t := t))
  have haliasReturns := contents_aliases (e := e) (contents_dartAliasReturn (t := t))
  simp only [Dart.enumTemplate, enumLayout, enumMembers, enumOpening, enumClosing, hl,
    Piece.allContents_cons, Piece.allContents_nil, Piece.contents_text, Piece.contents_value,
    List.append_nil, List.append_assoc, List.flatMap_append, List.flatMap_cons, List.flatMap_nil,
    List.flatMap_map, String.toList_append, List.nil_append, hdoc, hname, hcases, haliases,
    hreturns, haliasReturns]
  have hvalue : "  final String value;\n".toList =
      "  final String ".toList ++ ("value".toList ++ ";\n".toList) := by decide +kernel
  have hordinal : "  final int ordinal;\n".toList =
      "  final int ".toList ++ ("ordinal".toList ++ ";\n".toList) := by decide +kernel
  have hfromValue : "? fromValue(String value) \x7b\n".toList =
      "? ".toList ++ ("fromValue".toList ++ "(String value) \x7b\n".toList) := by decide +kernel
  simp only [Member.text, dartValue, dartOrdinal, dartFromValue, hl, hvalue, hordinal, hfromValue,
    List.append_assoc]

end Dart

section Swift

variable {e : EnumType}

theorem contents_swiftCase (v : EnumValue) (last : Bool) :
    Piece.allContents t.operations
        [doc 1, deprecated 1, "    case ", caseName (key "name"), " = ", quoted (key "name"), "\n"]
        (⟨v.toJson, last⟩ :: Scope.root e.toJson) =
      (t.swiftCase v).text := by
  simp only [Member.text, swiftCase, Piece.allContents_cons, Piece.allContents_nil,
    Piece.contents_text, Piece.contents_value, List.append_nil, List.append_assoc,
    spelling_valueDoc, spelling_valueDeprecated, spelling_valueCase, spelling_valueQuoted]

theorem contents_swiftPosition (v : EnumValue) (last : Bool) :
    Piece.allContents t.operations
        ["        case .", caseName (key "name"), ": return ", key "ordinal", "\n"]
        (⟨v.toJson, last⟩ :: Scope.root e.toJson) =
      (t.swiftPosition v).flatMap String.toList := by
  simp only [swiftPosition, List.flatMap_cons, List.flatMap_nil, String.toList_ofList,
    Piece.allContents_cons, Piece.allContents_nil, Piece.contents_text, Piece.contents_value,
    spelling_valueCase, spelling_valueOrdinal]

theorem contents_swiftAlias (a : EnumAlias) (last : Bool) :
    Piece.allContents t.operations
        ["\n",
          "    @available(*, deprecated, renamed: \"", caseName (key "canonical"), "\")\n",
          "    public static let ", caseName (key "name"), ": ", typeName (outer "name"), " = .",
          caseName (key "canonical"), "\n"]
        (⟨a.toJson, last⟩ :: Scope.root e.toJson) =
      (t.swiftAlias e a).text := by
  simp only [Member.text, swiftAlias, Piece.allContents_cons, Piece.allContents_nil,
    Piece.contents_text, Piece.contents_value, List.append_nil, List.append_assoc,
    spelling_aliasCase, spelling_aliasCanonical, spelling_enumName]

theorem contents_swiftLegacy (a : EnumAlias) (last : Bool) :
    Piece.allContents t.operations
        ["        case ", quoted (key "name"), ": self = .", caseName (key "canonical"), "\n"]
        (⟨a.toJson, last⟩ :: Scope.root e.toJson) =
      (t.swiftLegacy a).flatMap String.toList := by
  simp only [swiftLegacy, List.flatMap_cons, List.flatMap_nil, String.toList_ofList,
    Piece.allContents_cons, Piece.allContents_nil, Piece.contents_text, Piece.contents_value,
    spelling_aliasQuoted, spelling_aliasCanonical]

theorem holds?_aliases :
    (key "aliases").holds? t.operations (.root e.toJson) = some !e.aliases.isEmpty := by
  have hlookup : (Scope.root e.toJson).lookup 0 ["aliases"] =
      some (some (.array (e.aliases.map EnumAlias.toJson))) := rfl
  rw [Place.key, holds?_path hlookup, Json.holds, List.isEmpty_map]

theorem contents_swiftLegacies :
    (whenHolds (key "aliases")
      [forEach (key "aliases")
         ["\n",
          "    @available(*, deprecated, renamed: \"", caseName (key "canonical"), "\")\n",
          "    public static let ", caseName (key "name"), ": ", typeName (outer "name"), " = .",
          caseName (key "canonical"), "\n"],
       "\n",
       "    /// Accepts current raw values and legacy aliases.\n",
       "    public init?(legacyRawValue: String) \x7b\n",
       "        switch legacyRawValue \x7b\n",
       forEach (key "aliases")
         ["        case ", quoted (key "name"), ": self = .", caseName (key "canonical"), "\n"],
       "        default: self.init(rawValue: legacyRawValue)\n",
       "        \x7d\n",
       "    \x7d\n"]).contents t.operations (.root e.toJson) =
      (e.aliases.map (t.swiftAlias e)).flatMap Member.text ++ t.swiftInitializer e := by
  rw [contents_whenHolds holds?_aliases]
  by_cases hnone : e.aliases = []
  · rw [swiftInitializer, hnone]
    rfl
  · have hempty : (!e.aliases.isEmpty) = true := by simpa using hnone
    rw [if_pos hempty, swiftInitializer, if_neg hnone, List.flatMap_map]
    simp only [Piece.allContents_cons, Piece.allContents_nil, Piece.contents_text, List.append_nil,
      List.append_assoc, contents_aliases contents_swiftAlias,
      contents_aliases contents_swiftLegacy]

theorem contents_swiftEnum (hl : t.language = .swift) :
    Piece.allContents t.operations Swift.enumTemplate (.root e.toJson) = t.enumLayout e := by
  have hname : (typeName (key "name")).spelling t.operations (.root e.toJson) =
      (t.language.typeName e.name).toList := spelling_typeName rfl
  have hdoc : (doc 0).spelling t.operations (.root e.toJson) =
      t.comment 0 e.description e.status := spelling_doc 0 rfl rfl
  have hcases := contents_values (e := e) (contents_swiftCase (t := t))
  have hpositions := contents_values (e := e) (contents_swiftPosition (t := t))
  have hlegacies := contents_swiftLegacies (t := t) (e := e)
  simp only [Swift.enumTemplate, enumLayout, enumMembers, enumOpening, enumClosing, hl,
    Piece.allContents_cons, Piece.allContents_nil, Piece.contents_text, Piece.contents_value,
    List.append_nil, List.append_assoc, List.flatMap_append, List.flatMap_cons, List.flatMap_nil,
    List.flatMap_map, String.toList_append, hdoc, hname, hcases, hpositions, hlegacies]
  have hordinal : "    public var ordinal: Int \x7b\n".toList =
      "    public var ".toList ++ ("ordinal".toList ++ ": Int \x7b\n".toList) := by decide +kernel
  simp only [Member.text, swiftOrdinal, hordinal, List.append_assoc]

end Swift

theorem contents_enum (hl : t.language = .dart ∨ t.language = .swift) (e : EnumType) :
    Piece.allContents t.operations (t.language.template .enum) (.root e.toJson) =
      t.enumLayout e := by
  rcases hl with hl | hl
  · rw [hl]
    exact contents_dartEnum hl
  · rw [hl]
    exact contents_swiftEnum hl

theorem map_name_dartCases (vs : List EnumValue) :
    (t.dartCases vs).map (·.name) = vs.map fun v ↦ t.language.caseName v.name := by
  fun_induction dartCases t vs with
  | case1 => rfl
  | case2 v => rfl
  | case3 v vs hne ih => exact congrArg (t.language.caseName v.name :: ·) ih

theorem enumMembers_of_dart (hl : t.language = .dart) (e : EnumType) :
    t.enumMembers e = t.dartCases e.values ++ [t.dartValue e, dartOrdinal] ++
      e.aliases.map (t.dartAlias e) ++ [t.dartFromValue e] := by
  rw [enumMembers, hl]

theorem enumMembers_of_swift (hl : t.language = .swift) (e : EnumType) :
    t.enumMembers e =
      e.values.map t.swiftCase ++ [t.swiftOrdinal e] ++ e.aliases.map (t.swiftAlias e) := by
  rw [enumMembers, hl]

theorem perm_of_moved {α : Type} (as bs cs ds : List α) :
    (as ++ (bs ++ cs) ++ ds).Perm (as ++ cs ++ (bs ++ ds)) := by
  have hmoved : (as ++ (bs ++ cs) ++ ds).Perm (as ++ (cs ++ bs) ++ ds) :=
    (List.perm_append_comm.append_left as).append_right ds
  simpa only [List.append_assoc] using hmoved

/-- The members are the cases, the older names and the fixed members. -/
theorem enumMembers_perm (hl : t.language = .dart ∨ t.language = .swift) (e : EnumType) :
    ((t.enumMembers e).map (·.name)).Perm
      ((e.values.map (·.name) ++ e.aliases.map (·.name)).map t.language.caseName ++
        t.language.fixedMembers) := by
  rw [List.map_append, List.map_map, List.map_map]
  rcases hl with hl | hl
  · have hfixed : t.language.fixedMembers = ["value", "ordinal"] ++ ["fromValue"] := by
      rw [hl]
      rfl
    have hmembers : (t.enumMembers e).map (·.name) =
        e.values.map (t.language.caseName ∘ (·.name)) ++ (["value", "ordinal"] ++
          e.aliases.map (t.language.caseName ∘ (·.name))) ++ ["fromValue"] := by
      simp only [enumMembers_of_dart hl, List.map_append, map_name_dartCases, List.map_map,
        List.append_assoc]
      rfl
    rw [hmembers, hfixed]
    exact perm_of_moved _ _ _ _
  · have hfixed : t.language.fixedMembers = ["ordinal"] ++ [] := by
      rw [hl]
      rfl
    have hmembers : (t.enumMembers e).map (·.name) =
        e.values.map (t.language.caseName ∘ (·.name)) ++ (["ordinal"] ++
          e.aliases.map (t.language.caseName ∘ (·.name))) ++ [] := by
      simp only [enumMembers_of_swift hl, List.map_append, List.map_map, List.append_assoc,
        List.append_nil]
      rfl
    rw [hmembers, hfixed]
    exact perm_of_moved _ _ _ _

/-- Cases and older names have been found to be distinct, so two members have the same name just if
one of these is spelled like a member that every enum has. -/
theorem enumText_members {e : EnumType} {text : List Char}
    (hl : t.language = .dart ∨ t.language = .swift) (h : t.enumText e = .ok text) :
    text = tidy (t.enumLayout e) ∧
      ((t.enumMembers e).map (·.name)).Perm
        ((e.values.map (·.name) ++ e.aliases.map (·.name)).map t.language.caseName ++
          t.language.fixedMembers) ∧
      (((t.enumMembers e).map (·.name)).Nodup ↔
        ∀ name ∈ e.values.map (·.name) ++ e.aliases.map (·.name),
          Naming.Style.camel.apply name ∉ t.language.fixedMembers) := by
  obtain ⟨_, hrefuse, hwrite⟩ := (Attempt.bind_eq_ok_iff _ _ _).mp h
  have hperm := enumMembers_perm hl e
  refine ⟨by rw [← contents_enum hl]; exact eq_tidy_of_write hwrite, hperm, ?_⟩
  have hdistinct : ((e.values.map (·.name) ++ e.aliases.map (·.name)).map
      t.language.caseName).Nodup := by
    have hclash := Declared.clash?_eq_none.mp (eq_none_of_refuse hrefuse)
    rwa [caseIdentifiers, List.map_map] at hclash
  have hfixed : t.language.fixedMembers.Nodup := by rcases hl with hl | hl <;> rw [hl] <;> decide
  rw [hperm.nodup_iff, List.nodup_append']
  constructor
  · rintro ⟨-, -, hdisjoint⟩ name hname hmem
    exact hdisjoint (List.mem_map_of_mem hname)
      ((Language.caseName_mem_fixedMembers_iff hl name).mpr hmem)
  · refine fun hfree ↦ ⟨hdistinct, hfixed, fun identifier hcase hmem ↦ ?_⟩
    obtain ⟨name, hname, rfl⟩ := List.mem_map.mp hcase
    exact hfree name hname ((Language.caseName_mem_fixedMembers_iff hl name).mp hmem)

def levelEnum (names : List String) : EnumType :=
  ⟨"Level", none, .stable, names.zipIdx.map fun p ↦ ⟨p.1, p.2, none, none, .stable⟩, []⟩

theorem enumText_levelEnum :
    ∃ text, enumText ⟨.dart, .empty (.signed []), .empty⟩ (levelEnum ["LOW", "HIGH"]) = .ok text ∧
      text = tidy (enumLayout ⟨.dart, .empty (.signed []), .empty⟩ (levelEnum ["LOW", "HIGH"])) ∧
      ((enumMembers ⟨.dart, .empty (.signed []), .empty⟩ (levelEnum ["LOW", "HIGH"])).map
        (·.name)).Nodup := by
  have hrun : Attempt.succeeds
      (enumText ⟨.dart, .empty (.signed []), .empty⟩ (levelEnum ["LOW", "HIGH"]))
      (fun _ ↦ true) = true := by decide +kernel
  obtain ⟨text, htext, -⟩ := (Attempt.succeeds_iff _ _).mp hrun
  obtain ⟨hlayout, -, hdistinct⟩ := enumText_members (.inl rfl) htext
  exact ⟨text, htext, hlayout, hdistinct.mpr (by decide +kernel)⟩

/-- A case can have the name of the raw value. -/
theorem not_distinct_value :
    ¬∀ (t : Target) (e : EnumType) (text : List Char), t.language = .dart ∨ t.language = .swift →
      t.enumText e = .ok text → ((t.enumMembers e).map (·.name)).Nodup := by
  intro h
  have hrun : Attempt.succeeds
      (enumText ⟨.dart, .empty (.signed []), .empty⟩ (levelEnum ["VALUE"]))
      (fun _ ↦ true) = true := by decide +kernel
  obtain ⟨text, htext, -⟩ := (Attempt.succeeds_iff _ _).mp hrun
  have hdistinct := h _ _ text (.inl rfl) htext
  have hnames : (enumMembers ⟨.dart, .empty (.signed []), .empty⟩ (levelEnum ["VALUE"])).map
      (·.name) = ["value", "value", "ordinal", "fromValue"] := by decide +kernel
  rw [hnames] at hdistinct
  exact absurd hdistinct (by decide)

end Target

end SchemaBindings
