import SchemaBindings.Proofs.Model.OutputTypes
import SchemaBindings.Target.ClassShape

namespace SchemaBindings

open Sdl Model Model.Build

/-- A type in a language where types of lists may tell the type of their items. -/
inductive StaticType where
  | variant
  | int
  | float
  | bool
  | string
  /-- Lists, and the text of the type of their items if there is one. -/
  | array (item : Option String)
  | declared (name : String)
  deriving Repr, DecidableEq

namespace StaticType

def words : List (String × StaticType) :=
  [("Variant", variant), ("int", int), ("float", float), ("bool", bool), ("String", string),
    ("Array", array none)]

def item? (text : String) : Option String :=
  if "Array[".toList <+: text.toList ∧ "]".toList <:+ text.toList then
    some (.ofList (text.toList.drop 6).dropLast)
  else none

/-- The type that a text is read as. -/
def read (text : String) : StaticType :=
  match words.lookup text with
  | some type => type
  | none =>
    match item? text with
    | some item => array (some item)
    | none => declared text

/-- The literal is the value that variables of the type start with, where the type in the schema has
the name `name` inside of all lists. -/
def IsZero (s : LoadedSchema) (m : Model) (name : String) : StaticType → String → Prop
  | variant, literal => literal = "null"
  | int, literal => literal = "0"
  | float, literal => literal = "0.0"
  | bool, literal => literal = "false"
  | string, literal => literal = "\"\""
  | array _, literal => literal = "[]"
  | declared text, literal => text = Language.gdScript.typeName name ∧
      (s.Declares m composite name ∧ literal = "null" ∨ s.Declares m [.enum] name ∧ literal = "0")

def scalarZeros : List (StaticType × String) :=
  [(int, "0"), (float, "0.0"), (bool, "false"), (string, "\"\"")]

theorem isZero_of_mem_scalarZeros {type : StaticType} {literal : String}
    (h : (type, literal) ∈ scalarZeros) (s : LoadedSchema) (m : Model) (name : String) :
    type.IsZero s m name literal := by
  simp only [scalarZeros, List.mem_cons, Prod.mk.injEq, List.not_mem_nil, or_false] at h
  rcases h with ⟨rfl, rfl⟩ | ⟨rfl, rfl⟩ | ⟨rfl, rfl⟩ | ⟨rfl, rfl⟩ <;> rfl

theorem lookup_words {text : String} (h : ∀ p ∈ words, text ≠ p.1) : words.lookup text = none :=
  List.lookup_eq_none_iff.mpr fun p hp ↦ bne_iff_ne.mpr (h p hp)

theorem read_array (item : String) : read ("Array[" ++ item ++ "]") = array (some item) := by
  have hlist : ("Array[" ++ item ++ "]").toList = "Array[".toList ++ (item.toList ++ [']']) := by
    simp
  have hword : words.lookup ("Array[" ++ item ++ "]") = none := by
    have hplain : ∀ p ∈ words, '[' ∉ p.1.toList := by decide
    refine lookup_words fun p hp heq ↦ hplain p hp ?_
    rw [← heq, hlist]
    exact List.mem_append_left _ (by decide)
  have hbrackets : "Array[".toList <+: ("Array[" ++ item ++ "]").toList ∧
      "]".toList <:+ ("Array[" ++ item ++ "]").toList := by
    rw [hlist]
    exact ⟨List.prefix_append _ _, (List.suffix_append _ _).trans (List.suffix_append _ _)⟩
  have hdrop : ("Array[" ++ item ++ "]").toList.drop 6 = item.toList ++ [']'] := by
    rw [hlist]
    rfl
  have hitem : item? ("Array[" ++ item ++ "]") = some item := by
    rw [item?, if_pos hbrackets, hdrop, List.dropLast_concat, String.ofList_toList]
  rw [read, hword, hitem]

theorem read_typeName {name : String} (h : IsName name) :
    read (Language.gdScript.typeName name) = declared (Language.gdScript.typeName name) := by
  have hvalid := (Language.gdScript.isValid_identifier_iff h.chars).mpr h
  rcases hvalid with ⟨hquotes, -⟩ | ⟨hname, hfree⟩
  · cases hquotes
  have hnew : Language.gdScript.typeName name ∉ Language.gdScript.reserved :=
    hfree.resolve_left nofun
  have hword : words.lookup (Language.gdScript.typeName name) = none := by
    have hreserved : ∀ p ∈ words, p.1 ∈ Language.gdScript.reserved := by decide +kernel
    exact lookup_words fun p hp heq ↦ hnew (heq ▸ hreserved p hp)
  have hitem : item? (Language.gdScript.typeName name) = none := by
    refine if_neg fun hbrackets ↦ ?_
    have hbracket : '[' ∈ (Language.gdScript.typeName name).toList :=
      hbrackets.1.subset (by decide)
    exact absurd (hname.chars _ hbracket) (by decide)
  rw [read, hword, hitem]

end StaticType

namespace Target

open StaticType

theorem placeholder_eq_zero {c : Context} {e : TypeExpr} (hout : c.IsOutput e)
    (hrequired : e.isRequired = true) (hlist : e.isList = false)
    (henum : e.named?.any (·.kind == .enum) = true) : placeholder e = "0" := by
  cases hout with
  | scalar | named | list => cases hrequired
  | nonNull hnull hout =>
    cases hout with
    | scalar => cases henum
    | list => cases hlist
    | nonNull => cases hnull
    | named => exact if_pos (beq_iff_eq.mp henum)

section Texts

variable {t : Target} (ht : t.language = .gdScript)

include ht

theorem typeText_eq_looseType (e : TypeExpr) : t.typeText e = t.looseType e := by
  rw [typeText, ht]

theorem read_list (item : TypeExpr) : read (t.typeText (.list item)) = variant := by
  rw [typeText_eq_looseType ht]
  rfl

theorem read_scalar (name : String) : read (t.typeText (.scalar name)) = variant := by
  rw [typeText_eq_looseType ht]
  rfl

theorem read_namedType {r : NamedType} (hname : IsName r.name) (hkind : r.kind ≠ .input) :
    read (t.namedType r) =
      if r.kind = .scalar then variant else declared (Language.gdScript.typeName r.name) := by
  obtain ⟨name, kind⟩ := r
  rw [namedType, ht]
  cases kind with
  | input => exact absurd rfl hkind
  | scalar => rfl
  | enum | object | interface | union => exact read_typeName hname

theorem read_named {r : NamedType} (hname : IsName r.name) (hkind : r.kind ≠ .input) :
    read (t.typeText (.named r)) =
      if r.kind ∈ composite then declared (Language.gdScript.typeName r.name) else variant := by
  rw [typeText_eq_looseType ht, looseType, apply_ite read, read_namedType ht hname hkind]
  obtain ⟨name, kind⟩ := r
  cases kind with
  | input => exact absurd rfl hkind
  | scalar | enum | object | interface | union => rfl

theorem read_required_named {r : NamedType} (hname : IsName r.name) (hkind : r.kind ≠ .input) :
    read (t.typeText (.nonNull (.named r))) =
      if r.kind = .scalar then variant else declared (Language.gdScript.typeName r.name) := by
  rw [typeText_eq_looseType ht, looseType, apply_ite read, read_namedType ht hname hkind, ht,
    read_typeName hname]
  split
  next henum => rw [henum, if_neg nofun]
  next => rfl

def itemText (t : Target) (item : TypeExpr) : String :=
  if item.named?.any (·.kind == .enum) then "int" else t.typeText item

theorem read_required_list (item : TypeExpr) :
    read (t.typeText (.nonNull (.list item))) =
      array (if typesItems item then some (t.itemText item) else none) := by
  rw [typeText_eq_looseType ht, looseType]
  split
  next hitems =>
    rw [itemText, typeText_eq_looseType ht, dialect, ht]
    exact read_array _
  next => rfl

theorem read_required_scalar {name : String} (h : isBuiltinScalar name) :
    (read (t.typeText (.nonNull (.scalar name))), placeholder (.nonNull (.scalar name))) ∈
      scalarZeros := by
  have hscalars : ∀ name ∈ builtinScalars, (read (Language.gdScript.scalarName name),
      placeholder (.nonNull (.scalar name))) ∈ scalarZeros := by decide +kernel
  rw [typeText_eq_looseType ht, looseType, ht]
  exact hscalars name (List.contains_iff_mem.mp h)

section Outputs

variable {s : LoadedSchema} {m : Model} {e : TypeExpr} (hout : s.context.IsOutput e)
  (hdeclares : ∀ r, e.named? = some r → ∀ kinds : List NamedKind, kinds.Nodup → r.kind ∈ kinds →
    s.Declares m kinds r.name)

include hout hdeclares

theorem isZero_placeholder : (read (t.typeText e)).IsZero s m e.name (placeholder e) := by
  have hclass {r : NamedType} (hr : e.named? = some r) (hkind : r.kind ∈ composite) :
      s.Declares m composite r.name :=
    hdeclares r hr composite (by decide) hkind
  cases hout with
  | scalar h =>
    rw [read_scalar ht]
    rfl
  | list h =>
    rw [read_list ht]
    rfl
  | @named r hname hkind h =>
    rw [read_named ht hname hkind]
    split
    next hcomposite => exact ⟨rfl, .inl ⟨hclass rfl hcomposite, rfl⟩⟩
    next => rfl
  | @nonNull e hnull h =>
    cases h with
    | scalar h => exact isZero_of_mem_scalarZeros (read_required_scalar ht h) s m _
    | list h =>
      rw [read_required_list ht]
      rfl
    | nonNull => cases hnull
    | @named r hname hkind h =>
      rw [read_required_named ht hname hkind, placeholder]
      cases hr : r.kind with
      | input => exact absurd hr hkind
      | scalar => rfl
      | enum => exact ⟨rfl, .inr ⟨hdeclares r rfl [.enum] (by decide) (by simp [hr]), rfl⟩⟩
      | object | interface | union =>
        exact ⟨rfl, .inl ⟨hclass rfl (hr ▸ by decide), rfl⟩⟩

theorem exists_item_of_read_array {text : String} (h : read (t.typeText e) = array (some text)) :
    ∃ item, e = .nonNull (.list item) ∧ item.isRequired = true ∧ item.isList = false ∧
      item.named?.map (·.kind) ≠ some .scalar ∧
      (read text).IsZero s m item.name (placeholder item) := by
  -- Of all types, only required lists have a text with brackets.
  cases hout with
  | scalar =>
    rw [read_scalar ht] at h
    cases h
  | list =>
    rw [read_list ht] at h
    cases h
  | named hname hkind =>
    rw [read_named ht hname hkind] at h
    split at h <;> cases h
  | nonNull hnull hout =>
    cases hout with
    | nonNull => cases hnull
    | scalar hbuiltin =>
      have hzero := read_required_scalar ht hbuiltin
      simp [h, scalarZeros] at hzero
    | named hname hkind =>
      rw [read_required_named ht hname hkind] at h
      split at h <;> cases h
    | @list item hout =>
      rw [read_required_list ht] at h
      split at h
      next hitems =>
        obtain rfl : t.itemText item = text := by simpa using h
        simp only [typesItems, Bool.and_eq_true, Bool.not_eq_true', bne_iff_ne] at hitems
        obtain ⟨⟨hrequired, hlist⟩, hscalar⟩ := hitems
        refine ⟨item, rfl, hrequired, hlist, hscalar, ?_⟩
        rw [itemText]
        split
        next henum => exact placeholder_eq_zero hout hrequired hlist henum
        next => exact isZero_placeholder ht hout hdeclares
      next => cases h

end Outputs

end Texts

/-- The placeholder of a type is the zero of what is announced for it. Where a type is announced for
the items of a list, they are neither null nor lists nor declared scalars, and the same is true of
them. -/
structure AnnouncesPlaceholder (t : Target) (s : LoadedSchema) (m : Model) (e : TypeExpr) :
    Prop where
  zero : (read (t.typeText e)).IsZero s m e.name (placeholder e)
  items : ∀ text, read (t.typeText e) = array (some text) →
    ∃ item, e = .nonNull (.list item) ∧ item.isRequired = true ∧ item.isList = false ∧
      item.named?.map (·.kind) ≠ some .scalar ∧
      (read text).IsZero s m item.name (placeholder item)

/-- Of every type of a field in a built model, the placeholder is the zero of what is announced. -/
theorem announcesPlaceholder_of_build {sources : Sources} {loaded : LoadedSchema} {tables : Tables}
    {m : Model} (hload : Schema.load sources = .ok loaded)
    (hbuild : Model.build loaded tables = .ok m) {t : Target} (ht : t.language = .gdScript)
    {e : TypeExpr} (he : e ∈ m.outputs) : t.AnnouncesPlaceholder loaded m e := by
  have h := loaded_of_load hload
  have hout := h.isOutput_of_build hbuild he
  have hdeclares (r : NamedType) (hr : e.named? = some r) (kinds : List NamedKind)
      (hkinds : kinds.Nodup) (hk : r.kind ∈ kinds) : loaded.Declares m kinds r.name :=
    h.declares_of_build hbuild he hr hkinds hk
  exact ⟨isZero_placeholder ht hout hdeclares,
    fun _ ↦ exists_item_of_read_array ht hout hdeclares⟩

def marketSources : Sources :=
  [.ofText "market.graphql" ("type Item \x7b id: ID! \x7d enum Level \x7b LOW \x7d scalar Date " ++
    "type Query \x7b self: Query level: Level! lowest: Level date: Date! price: Float! " ++
    "items: [Item!]! levels: [Level!]! dates: [Date!]! grid: [[Int!]!]! \x7d")]

def marketPlaceholders : List (String × String) :=
  [("String", "\"\""), ("Query", "null"), ("Level", "0"), ("Variant", "null"), ("Variant", "null"),
    ("float", "0.0"), ("Array[Item]", "[]"), ("Array[int]", "[]"), ("Array", "[]"), ("Array", "[]")]

theorem announcesPlaceholder_of_build_market :
    ∃ loaded m, Schema.load marketSources = .ok loaded ∧ Model.build loaded .empty = .ok m ∧
      m.outputs.map (fun e ↦ (typeText ⟨.gdScript, m, .empty⟩ e, placeholder e)) =
        marketPlaceholders ∧
      ∀ e ∈ m.outputs, AnnouncesPlaceholder ⟨.gdScript, m, .empty⟩ loaded m e := by
  have hrun : Attempt.succeeds (Schema.load marketSources) (fun loaded ↦
      Attempt.succeeds (Model.build loaded .empty) fun m ↦
        m.outputs.map (fun e ↦ (typeText ⟨.gdScript, m, .empty⟩ e, placeholder e)) ==
          marketPlaceholders) = true := by decide +kernel
  obtain ⟨loaded, hload, hrun⟩ := (Attempt.succeeds_iff _ _).mp hrun
  obtain ⟨m, hbuild, houtputs⟩ := (Attempt.succeeds_iff _ _).mp hrun
  exact ⟨loaded, m, hload, hbuild, beq_iff_eq.mp houtputs,
    fun _ he ↦ announcesPlaceholder_of_build hload hbuild rfl he⟩

end Target

end SchemaBindings
