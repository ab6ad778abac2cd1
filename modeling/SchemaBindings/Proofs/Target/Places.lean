import SchemaBindings.Proofs.Target.Headings
import SchemaBindings.Proofs.Template.Contents

namespace SchemaBindings

open Model Template Place

theorem Json.text?_ofText? (s : Option String) : (Json.ofText? s).text? = s := by
  cases s <;> rfl

namespace Target

variable (t : Target)

def comment (level : Nat) (description : Option String) (status : Status) : List Char :=
  match docText? description status.isFuture with
  | some s => t.dialect.docComment (t.dialect.indentation level) s.toList
  | none => []

def deprecation (level : Nat) (reason : Option String) : List Char :=
  match reason with
  | some s => t.dialect.deprecated (t.dialect.indentation level) s.toList
  | none => []

variable {t} {scope : Scope}

theorem spelling_of_value? {e : Place} {text : List Char}
    (h : e.value? t.operations scope = some (some (.string (.ofList text)))) :
    e.spelling t.operations scope = text := by
  rw [Expr.spelling, h]
  exact Json.plainText_ofList text

section Path

variable {outer : Nat} {keys : List String} {j : Json}
  (h : scope.lookup outer keys = some (some j))

include h

theorem spelling_path : (Expr.path outer keys).spelling t.operations scope = j.plainText := by
  rw [Expr.spelling, Expr.value?, h]

theorem holds?_path : (Expr.path outer keys).holds? t.operations scope = some j.holds := by
  rw [Expr.holds?, Expr.value?, h]
  rfl

end Path

theorem items_path {outer : Nat} {keys : List String} {items : List Json}
    (h : scope.lookup outer keys = some (some (.array items))) :
    (Expr.path outer keys).items t.operations scope = items := by
  rw [Expr.items, Expr.value?, h]
  rfl

section Choice

variable {condition : Place} {holds : Bool} {parts : List Fragment}
  (h : condition.holds? t.operations scope = some holds)

include h

theorem contents_choice {others : List Fragment} :
    (Piece.choice condition parts others).contents t.operations scope =
      if holds then Piece.allContents t.operations parts scope
      else Piece.allContents t.operations others scope := by
  rw [Piece.contents, h]
  cases holds <;> rfl

theorem contents_whenHolds : (Fragment.whenHolds condition parts).contents t.operations scope =
    if holds then Piece.allContents t.operations parts scope else [] :=
  contents_choice h

theorem contents_whenHolds_text (s : String) :
    (Fragment.whenHolds condition [.text s]).contents t.operations scope =
      (bif holds then s else "").toList := by
  rw [contents_whenHolds h]
  cases holds
  · rfl
  · exact List.append_nil _

theorem contents_unlessHolds_text (s : String) :
    (Fragment.unlessHolds condition [.text s]).contents t.operations scope =
      (bif holds then "" else s).toList := by
  rw [Fragment.unlessHolds, contents_choice h]
  cases holds
  · exact List.append_nil _
  · rfl

end Choice

section Repetition

variable {α : Type} {toJson : α → Json} {as : List α} {outer : Nat} {keys : List String}
  {body : List Fragment} (hitems : scope.lookup outer keys = some (some (.array (as.map toJson))))

include hitems

theorem contents_forEach {text : α → List Char}
    (hbody : ∀ (a : α) (last : Bool),
      Piece.allContents t.operations body (⟨toJson a, last⟩ :: scope) = text a) :
    (Fragment.forEach (.path outer keys) body).contents t.operations scope = as.flatMap text := by
  rw [Fragment.forEach, Piece.contents, items_path hitems, Scope.flatMap_items hbody]

theorem contents_forEach_separated {text : α → List Char} {separator : List Char}
    (hbody : ∀ (a : α) (last : Bool),
      Piece.allContents t.operations body (⟨toJson a, last⟩ :: scope) =
        text a ++ if last then [] else separator) :
    (Fragment.forEach (.path outer keys) body).contents t.operations scope =
      separator.intercalate (as.map text) := by
  rw [Fragment.forEach, Piece.contents, items_path hitems, Scope.flatMap_items_separated hbody]

theorem exists_writeAll?_of_forEach {text : List Char}
    (h : (Fragment.forEach (.path outer keys) body).write? t.operations scope = some text) {a : α}
    (ha : a ∈ as) :
    ∃ last part,
      Piece.writeAll? t.operations body (⟨toJson a, some last⟩ :: scope) = some part := by
  have hitem : ∃ last, (⟨toJson a, some last⟩ :: scope : Scope) ∈ scope.items (as.map toJson) :=
    Scope.exists_mem_items ha
  obtain ⟨last, hlast⟩ := hitem
  exact ⟨last, Piece.exists_writeAll?_of_each h (by rwa [items_path hitems])⟩

end Repetition

theorem contents_each_otherwise {list : Place} {body otherwise : List Fragment} {items : List Json}
    (h : list.items t.operations scope = items) :
    (Piece.each list body (some otherwise)).contents t.operations scope =
      if items = [] then Piece.allContents t.operations otherwise scope
      else (Fragment.forEach list body).contents t.operations scope := by
  rw [Piece.contents, Fragment.forEach, Piece.contents, h]

theorem value?_call {op : TemplateOp} {outer : Nat} {key : String} {j result : Json}
    (h : scope.lookup outer [key] = some (some j))
    (hop : t.operations op [some j] = some result) :
    (Expr.call op [.path outer [key]]).value? t.operations scope = some (some result) := by
  simp only [Expr.value?, Expr.values?, h, Option.bind_some, Option.map_some, hop]

section Member

variable {node : Json} {last : Option Bool} {name : String}

theorem lookup_member {key : String} {inner : Json} (h : node.member? key = some inner) :
    Scope.lookup (⟨node, last⟩ :: scope) 0 [key] = some (some inner) :=
  Shape.partAt?_cons_of_member? h

theorem spelling_text {key : String} (h : node.member? key = some (.string name)) :
    (Place.key key).spelling t.operations (⟨node, last⟩ :: scope) = name.toList :=
  spelling_path (lookup_member h)

theorem spelling_typeName {key : String} (h : node.member? key = some (.string name)) :
    (typeName (.key key)).spelling t.operations (⟨node, last⟩ :: scope) =
      (t.language.typeName name).toList :=
  spelling_call t.operations_typeName (lookup_member h)

theorem spelling_fieldName {key : String} (h : node.member? key = some (.string name)) :
    (fieldName (.key key)).spelling t.operations (⟨node, last⟩ :: scope) =
      (t.language.fieldName name).toList :=
  spelling_call (fun _ ↦ rfl) (lookup_member h)

theorem spelling_caseName {key : String} (h : node.member? key = some (.string name)) :
    (caseName (.key key)).spelling t.operations (⟨node, last⟩ :: scope) =
      (t.language.caseName name).toList :=
  spelling_call (fun _ ↦ rfl) (lookup_member h)

theorem spelling_quoted {key : String} (h : node.member? key = some (.string name)) :
    (quoted (.key key)).spelling t.operations (⟨node, last⟩ :: scope) =
      t.dialect.textLiteral name.toList :=
  spelling_of_value? (value?_call (lookup_member h) rfl)

theorem spelling_typeOf {key : String} {e : TypeExpr} (h : node.member? key = some e.toJson) :
    (typeOf (.key key)).spelling t.operations (⟨node, last⟩ :: scope) = (t.typeText e).toList := by
  have hop : t.operations .type [some e.toJson] = some (.string (t.typeText e)) := by
    simp only [operations, Option.bind_some, e.ofJson?_toJson, Option.map_some]
  rw [typeOf, Expr.spelling, Place.key, value?_call (lookup_member h) hop]
  rfl

theorem holds?_isRequired {e : TypeExpr} (h : node.member? "type" = some e.toJson) :
    isRequired.holds? t.operations (⟨node, last⟩ :: scope) = some e.isRequired := by
  have hop : t.operations .isRequired [some e.toJson] = some (.bool e.isRequired) := by
    simp only [operations, Option.bind_some, e.ofJson?_toJson, Option.map_some]
  rw [isRequired, Expr.holds?, Place.key, value?_call (lookup_member h) hop]
  rfl

theorem spelling_doc {description : Option String} {status : Status} (level : Nat)
    (hdescription : node.member? "description" = some (Json.ofText? description))
    (hstatus : node.member? "status" = some status.toJson) :
    (doc level).spelling t.operations (⟨node, last⟩ :: scope) =
      t.comment level description status := by
  have hfuture : (status.toJson.text? == some Status.future.text) = status.isFuture := by
    cases status <;> rfl
  refine spelling_of_value? ?_
  simp only [doc, Place.key, Expr.value?, Expr.values?, lookup_member hdescription,
    lookup_member hstatus, Option.bind_some, Option.map_some, operations, Json.text?_ofText?,
    hfuture, comment]
  cases docText? description status.isFuture <;> rfl

theorem spelling_deprecated {reason : Option String} (level : Nat)
    (h : node.member? "deprecation" = some (Json.ofText? reason)) :
    (deprecated level).spelling t.operations (⟨node, last⟩ :: scope) =
      t.deprecation level reason := by
  refine spelling_of_value? ?_
  simp only [deprecated, Place.key, Expr.value?, Expr.values?, lookup_member h, Option.bind_some,
    Option.map_some, operations, Json.text?_ofText?, deprecation]
  cases reason <;> rfl

end Member

end Target

end SchemaBindings
