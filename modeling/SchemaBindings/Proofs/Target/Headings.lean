import SchemaBindings.Proofs.Target.Nodes
import SchemaBindings.Proofs.Template.Outlines

namespace SchemaBindings

open Model Template Text

theorem isWholeLines_concat (text : List Char) : isWholeLines (text ++ ['\n']) = true := by
  simp [isWholeLines]

theorem isWholeLines_append {text others : List Char} (h : isWholeLines text = true)
    (hothers : isWholeLines others = true) : isWholeLines (text ++ others) = true := by
  cases others with
  | nil => rwa [List.append_nil]
  | cons c cs => rwa [isWholeLines, List.getLast?_append_of_ne_nil _ (by simp)]

theorem isWholeLines_flatMap {α : Type} {f : α → List Char}
    (h : ∀ a, isWholeLines (f a) = true) (as : List α) : isWholeLines (as.flatMap f) = true := by
  induction as with
  | nil => rfl
  | cons a as ih =>
    rw [List.flatMap_cons]
    exact isWholeLines_append (h a) ih

theorem Comment.isWholeLines_lines (indent marker text : List Char) :
    isWholeLines (Comment.lines indent marker text) = true := by
  refine isWholeLines_flatMap (fun line ↦ ?_) _
  unfold Comment.line
  split
  · exact isWholeLines_concat _
  · exact isWholeLines_concat _

theorem Dialect.isWholeLines_docComment (d : Dialect) (indent text : List Char) :
    isWholeLines (d.docComment indent text) = true := by
  unfold Dialect.docComment
  split
  · exact Comment.isWholeLines_lines _ _ _
  · have hend : [' ', '*', '/', '\n'] = [' ', '*', '/'] ++ ['\n'] := rfl
    rw [Comment.block, hend, ← List.append_assoc]
    exact isWholeLines_concat _

theorem Dialect.isWholeLines_deprecated (d : Dialect) (indent reason : List Char) :
    isWholeLines (d.deprecated indent reason) = true := by
  unfold Dialect.deprecated
  split
  · exact isWholeLines_concat _
  · exact Comment.isWholeLines_lines _ _ _
  · have hend : " */\n".toList = " */".toList ++ ['\n'] := by decide
    rw [hend, ← List.append_assoc]
    exact isWholeLines_concat _

def Place.isComment : Place → Bool
  | .call (.doc _) _ => true
  | .call (.deprecated _) _ => true
  | _ => false

theorem Json.plainText_ofList (text : List Char) :
    (Json.string (.ofList text)).plainText = text := by
  have hplain : (Json.string (.ofList text)).plainText = (String.ofList text).toList := rfl
  rw [hplain, String.toList_ofList]

theorem isWholeLines_comment {comment : List Char → List Char}
    (h : ∀ text, isWholeLines (comment text) = true) (s : Option String) :
    isWholeLines (Json.string (match s with
      | some s => .ofList (comment s.toList)
      | none => "")).plainText = true := by
  cases s with
  | none => rfl
  | some s => exact (congrArg isWholeLines (Json.plainText_ofList _)).trans (h s.toList)

theorem Target.isWholeLines_operations (t : Target) {op : TemplateOp} {values : List (Option Json)}
    {j : Json} (hop : ∃ level, op = .doc level ∨ op = .deprecated level)
    (hj : t.operations op values = some j) : isWholeLines j.plainText = true := by
  obtain ⟨level, rfl | rfl⟩ := hop
  · rcases values with _ | ⟨description, _ | ⟨status, _ | ⟨_, _⟩⟩⟩ <;> cases hj
    exact isWholeLines_comment (t.dialect.isWholeLines_docComment _) _
  · rcases values with _ | ⟨reason, _ | ⟨_, _⟩⟩ <;> cases hj
    exact isWholeLines_comment (t.dialect.isWholeLines_deprecated _) _

theorem Target.knowsLines (t : Target) : KnowsLines t.operations Place.isComment := by
  intro e scope j he hj
  have hcall : ∃ op arguments, e = .call op arguments ∧
      ∃ level, op = .doc level ∨ op = .deprecated level := by
    unfold Place.isComment at he
    split at he
    · exact ⟨_, _, rfl, _, .inl rfl⟩
    · exact ⟨_, _, rfl, _, .inr rfl⟩
    · cases he
  obtain ⟨op, arguments, rfl, hop⟩ := hcall
  obtain ⟨values, -, hj⟩ := Option.bind_eq_some_iff.mp hj
  obtain ⟨answer, hanswer, hj⟩ := Option.map_eq_some_iff.mp hj
  obtain rfl := Option.some.inj hj
  exact t.isWholeLines_operations hop hanswer

/-- What the headings of a node depend on beside its names. -/
structure Traits where
  hasFields : Bool
  hasInterfaces : Bool
  hasSupertypes : Bool
  isReference : Bool
  isIndirect : Bool
  isWrapper : Bool

def Traits.holds (traits : Traits) : Place → Option Bool
  | .path 0 ["fields"] => some traits.hasFields
  | .path 0 ["implements"] => some traits.hasInterfaces
  | .call .supertypes [.path 0 ["name"]] => some traits.hasSupertypes
  | .path 0 ["reference"] => some traits.isReference
  | .path 0 ["indirect"] => some traits.isIndirect
  | .call .isEqual [.path 0 ["kind"], .text "wrapper"] => some traits.isWrapper
  | _ => none

namespace Language

open Place

def head (lead : String) (name : Place) (ending : String) : Head TemplateOp :=
  ⟨none, lead.toList, .value name :: ending.toList.map .char⟩

def typeHead (lead : String) : Head TemplateOp :=
  head lead (Place.typeName (key "name")) ""

def variantHead (lead : String) : Head TemplateOp :=
  ⟨some (key "members"), lead.toList,
    [.value (Place.typeName (outer "name")), .value (Place.variantName (key "name"))]⟩

def resolverHead (lead : String) : Head TemplateOp :=
  head lead (Place.typeName (key "type_name")) "Resolver"

def heads (traits : Traits) : Language → TemplateKind → List (Head TemplateOp)
  | _, .file => []
  | .kotlin, .scalar => [typeHead "typealias "]
  | .kotlin, .enum => [typeHead "enum class "]
  | .kotlin, .interface => [typeHead "interface "]
  | .kotlin, .object | .kotlin, .input =>
    if traits.hasFields then [typeHead "data class "] else [typeHead "class "]
  | .kotlin, .union =>
    typeHead "sealed interface " :: if traits.isWrapper then [variantHead "data class "] else []
  | .kotlin, .operation => [resolverHead "interface "]
  | .swift, .scalar => [typeHead "public typealias "]
  | .swift, .enum => [typeHead "public enum "]
  | .swift, .interface => [typeHead "public protocol "]
  | .swift, .object | .swift, .input =>
    if traits.isReference then [typeHead "public final class "] else [typeHead "public struct "]
  | .swift, .union =>
    if traits.isIndirect then [typeHead "public indirect enum "] else [typeHead "public enum "]
  | .swift, .operation => [resolverHead "public protocol "]
  | .dart, .scalar => [typeHead "typedef "]
  | .dart, .enum => [typeHead "enum "]
  | .dart, .interface => [typeHead "abstract class "]
  | .dart, .object | .dart, .input => [typeHead "class "]
  | .dart, .union =>
    typeHead "sealed class " :: if traits.isWrapper then [variantHead "final class "] else []
  | .dart, .operation => [resolverHead "abstract class "]
  | .typeScript, .scalar => [typeHead "export type "]
  | .typeScript, .enum =>
    [typeHead "export enum ", head "export const " (Place.typeName (key "name")) "Ordinal"]
  | .typeScript, .interface | .typeScript, .object | .typeScript, .input =>
    [typeHead "export interface "]
  | .typeScript, .union => [typeHead "export type "]
  | .typeScript, .operation => [resolverHead "export interface "]
  | .gdScript, .scalar => []
  | .gdScript, .enum =>
    [typeHead "enum ", head "const " (Place.constant (key "name")) "_BY_VALUE"]
  | .gdScript, .interface | .gdScript, .object | .gdScript, .input | .gdScript, .union =>
    [typeHead "class "]
  | .gdScript, .operation => [resolverHead "class "]

set_option maxRecDepth 20000 in
/-- The templates have these headings and end with a line. -/
theorem outline_template (traits : Traits) (l : Language) {kind : TemplateKind}
    (hkind : kind ≠ .file) :
    Piece.outlineAll? Place.isComment traits.holds (l.template kind) .start =
      some ⟨.start, l.heads traits kind⟩ := by
  obtain ⟨hasFields, hasInterfaces, hasSupertypes, isReference, isIndirect, isWrapper⟩ := traits
  cases kind with
  | file => exact absurd rfl hkind
  | interface => cases l <;> cases hasInterfaces <;> rfl
  | object =>
    cases l with
    | kotlin => cases hasFields <;> rfl
    | swift => cases hasInterfaces <;> cases isReference <;> rfl
    | dart => cases hasSupertypes <;> rfl
    | typeScript => cases hasInterfaces <;> rfl
    | gdScript => rfl
  | input =>
    cases l with
    | kotlin => cases hasFields <;> rfl
    | swift => cases isReference <;> rfl
    | typeScript => cases hasInterfaces <;> rfl
    | _ => rfl
  | union =>
    cases l with
    | kotlin | dart => cases isWrapper <;> rfl
    | swift => cases isIndirect <;> rfl
    | _ => rfl
  | _ => cases l <;> rfl

end Language

namespace Target

open Place

variable (t : Target) (node : Json)

def traits : Traits :=
  let holds (place : Place) := (place.holds? t.operations (.root node)).getD false
  ⟨holds (key "fields"), holds (key "implements"), holds Place.supertypes, holds (key "reference"),
    holds (key "indirect"), holds (isWrapper (key "kind"))⟩

theorem knowsHolding_traits : KnowsHolding t.operations (.root node) (t.traits node).holds := by
  intro e known b hknown hb
  have hvalue : known = (e.holds? t.operations (.root node)).getD false := by
    unfold Traits.holds at hknown
    split at hknown <;> cases hknown <;> rfl
  rw [hvalue, hb, Option.getD_some]

theorem headings_of_template {kind : TemplateKind} (hkind : kind ≠ .file)
    {segments : List Segment} (h : Piece.allSegments? t.operations (t.language.template kind)
      (.root node) = some segments) :
    headings segments = (t.language.heads (t.traits node) kind).flatMap
      (Head.headings t.operations (.root node)) :=
  headings_of_outlineAll? t.knowsLines (t.knowsHolding_traits node)
    (t.language.outline_template (t.traits node) hkind) h

theorem operations_typeName (name : String) :
    t.operations .typeName [some (.string name)] = some (.string (t.language.typeName name)) :=
  rfl

theorem operations_variantName (name : String) :
    t.operations .variantName [some (.string name)] =
      some (.string (t.language.variantName name)) :=
  rfl

theorem operations_constant (name : String) :
    t.operations .constant [some (.string name)] =
      some (.string (Naming.Style.constant.apply name)) :=
  rfl

variable {t node}

theorem spelling_call {op : TemplateOp} {spell : String → String}
    (hop : ∀ name, t.operations op [some (.string name)] = some (.string (spell name)))
    {scope : Scope} {outer : Nat} {key name : String}
    (h : scope.lookup outer [key] = some (some (.string name))) :
    (Expr.call op [.path outer [key]]).spelling t.operations scope = (spell name).toList := by
  have hvalue : (Expr.call op [.path outer [key]]).value? t.operations scope =
      some (some (.string (spell name))) := by
    simp only [Expr.value?, Expr.values?, h, Option.bind_some, Option.map_some, hop]
  rw [Expr.spelling, hvalue]
  rfl

theorem lookup_root {key : String} {inner : Json} (h : node.member? key = some inner) :
    (Scope.root node).lookup 0 [key] = some (some inner) :=
  Shape.partAt?_cons_of_member? h

theorem flatMap_char (cs : List Char) (scope : Scope) :
    (cs.map Symbol.char).flatMap (Symbol.spelling t.operations scope) = cs := by
  induction cs with
  | nil => rfl
  | cons c cs ih => rw [List.map_cons, List.flatMap_cons, ih, Symbol.spelling]; rfl

theorem headings_head (lead ending : String) {name : String} {op : TemplateOp}
    {spell : String → String}
    (hop : ∀ name, t.operations op [some (.string name)] = some (.string (spell name)))
    {key : String} (h : node.member? key = some (.string name)) :
    (Language.head lead (.call op [.path 0 [key]]) ending).headings t.operations (.root node) =
      [⟨lead.toList, (spell name ++ ending).toList⟩] := by
  rw [Head.headings, Language.head]
  simp only [Heading.spell, List.flatMap_cons, flatMap_char, Symbol.spelling,
    spelling_call hop (lookup_root h), String.toList_append]

theorem headings_typeHead {lead name : String} (h : node.member? "name" = some (.string name)) :
    (Language.typeHead lead).headings t.operations (.root node) =
      [⟨lead.toList, (t.language.typeName name).toList⟩] := by
  rw [Language.typeHead, Place.typeName, Place.key, headings_head lead "" t.operations_typeName h,
    String.append_empty]

theorem headings_resolverHead {lead name : String}
    (h : node.member? "type_name" = some (.string name)) :
    (Language.resolverHead lead).headings t.operations (.root node) =
      [⟨lead.toList, (t.language.typeName name ++ "Resolver").toList⟩] :=
  headings_head lead "Resolver" t.operations_typeName h

theorem map_items {α β : Type} {toJson : α → Json} {f : Scope → β} {g : α → β} {scope : Scope}
    (h : ∀ a last, f (⟨toJson a, some last⟩ :: scope) = g a) (as : List α) :
    (scope.items (as.map toJson)).map f = as.map g := by
  induction as with
  | nil => rfl
  | cons a as ih =>
    cases as with
    | nil => exact congrArg (fun b ↦ [b]) (h a true)
    | cons a' as => exact congrArg₂ List.cons (h a false) ih

theorem headings_variantHead {lead : String} (u : UnionType) :
    (Language.variantHead lead).headings t.operations (.root u.toJson) =
      u.members.map fun m ↦
        ⟨lead.toList, (t.language.typeName u.name ++ t.language.variantName m.name).toList⟩ := by
  refine map_items (fun m last ↦ ?_) u.members
  have howner : Scope.lookup (⟨m.toJson, some last⟩ :: Scope.root u.toJson) 1 ["name"] =
      some (some (.string u.name)) := rfl
  have hmember : Scope.lookup (⟨m.toJson, some last⟩ :: Scope.root u.toJson) 0 ["name"] =
      some (some (.string m.name)) := rfl
  have htype := spelling_call t.operations_typeName howner
  have hvariant := spelling_call t.operations_variantName hmember
  simp only [Language.variantHead, Heading.spell, List.flatMap_cons, List.flatMap_nil,
    List.append_nil, Symbol.spelling, Place.typeName, Place.variantName, Place.outer, Place.key,
    htype, hvariant, String.toList_append]

theorem isWrapper_traits (u : UnionType) :
    (t.traits u.toJson).isWrapper = (u.kind == .wrapper) := by
  obtain ⟨name, description, status, kind, members⟩ := u
  cases kind <;> rfl

end Target

end SchemaBindings
