import SchemaBindings.Proofs.Target.Headings
import SchemaBindings.Proofs.Target.Rendering

namespace SchemaBindings

open Model Template

inductive Part where
  | scalar (s : ScalarType)
  | enum (e : EnumType)
  | interface (r : RecordType)
  | object (r : RecordType)
  | input (i : InputType)
  | union (u : UnionType)
  | operation (o : Operation)

def Model.parts (m : Model) : List Part :=
  m.scalars.map .scalar ++ m.enums.map .enum ++ m.interfaces.map .interface ++
    m.objects.map .object ++ m.inputs.map .input ++ m.unions.map .union ++
    m.operations.map .operation

structure Written where
  text : List Char
  headings : List (Heading Char)

def Written.names (w : Written) : List String :=
  w.headings.map fun heading ↦ .ofList heading.name

namespace Language

theorem heads_classes (l : Language) (traits : Traits)
    {kind : TemplateKind} (hkind : kind = .interface ∨ kind = .object ∨ kind = .input) :
    ∃ lead, l.heads traits kind = [Language.typeHead lead] := by
  rcases hkind with rfl | rfl | rfl <;> cases l <;> simp only [Language.heads] <;>
    first | exact ⟨_, rfl⟩ | (split <;> exact ⟨_, rfl⟩)

end Language

namespace Target

variable (t : Target)

def partText : Part → Except BindingError (List Char)
  | .scalar s => t.scalarText s
  | .enum e => t.enumText e
  | .interface r => t.interfaceText r
  | .object r => t.objectText r
  | .input i => t.inputText i
  | .union u => t.unionText u
  | .operation o => t.operationText o

theorem declarationTexts_eq_mapM :
    t.declarationTexts = t.model.parts.mapM t.partText := by
  simp only [declarationTexts, Model.parts, List.mapM_append, List.mapM_map, bind_assoc, pure_bind,
    List.append_assoc]
  rfl

def fromTemplate (kind : TemplateKind) (node : Json) : Option Written :=
  (Piece.allSegments? t.operations (t.language.template kind) (.root node)).map fun segments ↦
    ⟨Template.tidy (Segment.join segments), headings segments⟩

def recordNode? (r : RecordType) (other : Json) : Option Json :=
  if t.language = .swift then (t.record r).toOption.map Record.toJson else some other

/-- What is written for a part, with its headings. An input type that is replaced declares
what replaces it. -/
def written? : Part → Option Written
  | .scalar s => t.fromTemplate .scalar s.toJson
  | .enum e => t.fromTemplate .enum e.toJson
  | .interface r => t.fromTemplate .interface (t.classNode r)
  | .object r => (t.recordNode? r (t.classNode r)).bind (t.fromTemplate .object)
  | .input i =>
    match t.customInput? i.name with
    | some custom => some ⟨(custom.declaration.getD "").toList, [⟨[], custom.typeName.toList⟩]⟩
    | none => (t.recordNode? i.asRecord i.toJson).bind (t.fromTemplate .input)
  | .union u => t.fromTemplate .union (t.unionNode u)
  | .operation o => t.fromTemplate .operation (t.operationNode o)

variable {t}

theorem exists_fromTemplate_of_write {kind : TemplateKind} {node : Json} {text : List Char}
    (h : t.write kind node = .ok text) :
    ∃ w, t.fromTemplate kind node = some w ∧ w.text = text := by
  rw [write, Template.write?, Piece.writeAll?_eq] at h
  rw [fromTemplate]
  cases hsegments : Piece.allSegments? t.operations (t.language.template kind) (.root node) with
  | none =>
    rw [hsegments] at h
    cases h
  | some segments =>
    rw [hsegments] at h
    cases h
    exact ⟨_, rfl, rfl⟩

theorem eq_ok_of_refuse_bind {α : Type} {c : Construct} {o : Option Obstacle}
    {x : Except BindingError α} {a : α} (h : (refuse c o >>= fun _ ↦ x) = .ok a) : x = .ok a := by
  obtain ⟨-, -, h⟩ := (Attempt.bind_eq_ok_iff _ _ _).mp h
  exact h

theorem recordNode?_eq_some_of_record {r : RecordType} {record : Record} {other : Json}
    (hl : t.language = .swift) (h : t.record r = .ok record) :
    t.recordNode? r other = some record.toJson := by
  rw [recordNode?, if_pos hl, h]
  rfl

theorem exists_written?_of_partText {p : Part} {text : List Char}
    (h : t.partText p = .ok text) : ∃ w, t.written? p = some w ∧ w.text = text := by
  cases p with
  | scalar s => exact exists_fromTemplate_of_write h
  | enum e => exact exists_fromTemplate_of_write (eq_ok_of_refuse_bind h)
  | interface r =>
    have h : (do
        refuse (.interface r.name) (Declared.clash? (t.fieldIdentifiers (r.fields.map Field.name)))
        t.write .interface (t.classNode r)) = .ok text := by
      rw [partText, interfaceText] at h
      split at h
      · exact eq_ok_of_refuse_bind h
      · exact h
    exact exists_fromTemplate_of_write (eq_ok_of_refuse_bind h)
  | object r =>
    rw [partText, objectText] at h
    split at h
    next hl =>
      obtain ⟨record, hrecord, h⟩ := (Attempt.bind_eq_ok_iff _ _ _).mp h
      rw [written?, recordNode?_eq_some_of_record hl (eq_ok_of_within hrecord)]
      exact exists_fromTemplate_of_write h
    next hl =>
      rw [written?, recordNode?, if_neg hl]
      exact exists_fromTemplate_of_write (eq_ok_of_refuse_bind h)
  | input i =>
    rw [partText, inputText] at h
    split at h
    next custom hcustom =>
      cases h
      exact ⟨_, by rw [written?, hcustom], rfl⟩
    next hcustom hl =>
      obtain ⟨record, hrecord, h⟩ := (Attempt.bind_eq_ok_iff _ _ _).mp h
      rw [written?, hcustom, recordNode?_eq_some_of_record hl (eq_ok_of_within hrecord)]
      exact exists_fromTemplate_of_write h
    next hcustom hl =>
      rw [written?, hcustom, recordNode?, if_neg hl]
      exact exists_fromTemplate_of_write (eq_ok_of_refuse_bind h)
  | union u => exact exists_fromTemplate_of_write (eq_ok_of_refuse_bind h)
  | operation o => exact exists_fromTemplate_of_write (eq_ok_of_refuse_bind h)

variable (t) in
def enumExtras (e : EnumType) : List String :=
  match t.language with
  | .typeScript => [t.language.typeName e.name ++ "Ordinal"]
  | .gdScript => [Naming.Style.constant.apply e.name ++ "_BY_VALUE"]
  | _ => []

variable (t) in
def unionExtras (u : UnionType) : List String :=
  match t.language with
  | .kotlin | .dart =>
    if u.kind = .wrapper then
      u.members.map fun m ↦ t.language.typeName u.name ++ t.language.variantName m.name
    else []
  | _ => []

variable (t) in
def partIdentifiers : Part → List String
  | .scalar s => if t.language = .gdScript then [] else [t.language.typeName s.name]
  | .enum e => t.language.typeName e.name :: t.enumExtras e
  | .interface r => [t.language.typeName r.name]
  | .object r => [t.language.typeName r.name]
  | .input i => [(t.inputIdentifier i).identifier]
  | .union u => t.language.typeName u.name :: t.unionExtras u
  | .operation o => [t.language.typeName o.typeName ++ "Resolver"]

theorem headings_of_fromTemplate {kind : TemplateKind} (hkind : kind ≠ .file) {node : Json}
    {w : Written} (h : t.fromTemplate kind node = some w) :
    w.headings = (t.language.heads (t.traits node) kind).flatMap
      (Head.headings t.operations (.root node)) := by
  obtain ⟨segments, hsegments, rfl⟩ := Option.map_eq_some_iff.mp h
  exact headings_of_template t node hkind hsegments

theorem names_of_fromTemplate {kind : TemplateKind} (hkind : kind ≠ .file) {node : Json}
    {w : Written} (h : t.fromTemplate kind node = some w) :
    w.names = ((t.language.heads (t.traits node) kind).flatMap
      (Head.headings t.operations (.root node))).map fun heading ↦ .ofList heading.name := by
  rw [Written.names, headings_of_fromTemplate hkind h]

theorem member?_name_classNode (r : RecordType) :
    (t.classNode r).member? "name" = some (.string r.name) := by
  unfold classNode
  split
  · unfold ClassShape.ofRecord
    split <;> rfl
  · rfl

theorem name_and_isReference_of_record {r : RecordType} {record : Record}
    (h : t.record r = .ok record) :
    record.name = r.name ∧ record.isReference = t.storesItself r.name := by
  obtain ⟨properties, -, h⟩ := (Attempt.bind_eq_ok_iff _ _ _).mp h
  split at h <;> cases h
  exact ⟨rfl, rfl⟩

theorem exists_record_of_recordNode? {r : RecordType} {other node : Json}
    (hl : t.language = .swift) (h : t.recordNode? r other = some node) :
    ∃ record, t.record r = .ok record ∧ node = record.toJson := by
  rw [recordNode?, if_pos hl] at h
  obtain ⟨record, hrecord, rfl⟩ := Option.map_eq_some_iff.mp h
  refine ⟨record, ?_, rfl⟩
  cases hok : t.record r with
  | error o =>
    rw [hok] at hrecord
    cases hrecord
  | ok record' =>
    rw [hok] at hrecord
    cases hrecord
    rfl

theorem member?_name_of_recordNode? {r : RecordType} {other node : Json}
    (hother : other.member? "name" = some (.string r.name))
    (h : t.recordNode? r other = some node) : node.member? "name" = some (.string r.name) := by
  by_cases hl : t.language = .swift
  · obtain ⟨record, hrecord, rfl⟩ := exists_record_of_recordNode? hl h
    exact congrArg (fun name ↦ some (Json.string name)) (name_and_isReference_of_record hrecord).1
  · rw [recordNode?, if_neg hl] at h
    cases h
    exact hother

theorem names_of_class {kind : TemplateKind}
    (hkind : kind = .interface ∨ kind = .object ∨ kind = .input) {node : Json} {w : Written}
    (h : t.fromTemplate kind node = some w) {name : String}
    (hname : node.member? "name" = some (.string name)) :
    w.names = [t.language.typeName name] := by
  obtain ⟨lead, hlead⟩ := t.language.heads_classes (t.traits node) hkind
  have hfile : kind ≠ .file := by rcases hkind with rfl | rfl | rfl <;> decide
  rw [names_of_fromTemplate hfile h, hlead, List.flatMap_singleton, headings_typeHead hname]
  simp

/-- Every part declares its identifiers, and nothing else. -/
theorem names_of_written? {p : Part} {w : Written} (h : t.written? p = some w) :
    w.names = t.partIdentifiers p := by
  cases p with
  | scalar s =>
    have hname : s.toJson.member? "name" = some (.string s.name) := rfl
    rw [names_of_fromTemplate (by decide) h, partIdentifiers]
    cases hl : t.language <;> simp [Language.heads, headings_typeHead hname, hl]
  | enum e =>
    have hname : e.toJson.member? "name" = some (.string e.name) := rfl
    have hordinal := headings_head "export const " "Ordinal" (t.operations_typeName) hname
    have htable := headings_head "const " "_BY_VALUE" (t.operations_constant) hname
    rw [names_of_fromTemplate (by decide) h, partIdentifiers, enumExtras]
    cases hl : t.language <;>
      simp [Language.heads, headings_typeHead hname, hl, Place.typeName, Place.constant, Place.key,
        hordinal, htable]
  | interface r => exact names_of_class (.inl rfl) h (member?_name_classNode r)
  | object r =>
    obtain ⟨node, hnode, h⟩ := Option.bind_eq_some_iff.mp h
    exact names_of_class (.inr (.inl rfl)) h
      (member?_name_of_recordNode? (member?_name_classNode r) hnode)
  | input i =>
    simp only [written?] at h
    split at h
    next custom hcustom =>
      cases h
      simp [Written.names, partIdentifiers, inputIdentifier, hcustom]
    next hcustom =>
      obtain ⟨node, hnode, h⟩ := Option.bind_eq_some_iff.mp h
      have hname : node.member? "name" = some (.string i.asRecord.name) :=
        member?_name_of_recordNode? rfl hnode
      rw [names_of_class (.inr (.inr rfl)) h hname, partIdentifiers, inputIdentifier, hcustom]
      rfl
  | union u =>
    have hname : (t.unionNode u).member? "name" = some (.string u.name) := by
      unfold unionNode
      split <;> rfl
    rw [names_of_fromTemplate (by decide) h, partIdentifiers, unionExtras]
    by_cases hl : t.language = .kotlin ∨ t.language = .dart
    · have hnode : t.unionNode u = u.toJson := by
        rw [unionNode, if_neg (by rcases hl with hl | hl <;> rw [hl] <;> decide)]
      have hwrapper : (t.traits u.toJson).isWrapper = true ↔ u.kind = .wrapper := by
        rw [isWrapper_traits, beq_iff_eq]
      rw [hnode] at hname ⊢
      rcases hl with hl | hl <;> simp only [Language.heads, hl, hwrapper] <;> split <;>
        simp [headings_typeHead hname, headings_variantHead, hl, Function.comp_def]
    · push Not at hl
      cases hl' : t.language with
      | kotlin => exact absurd hl' hl.1
      | dart => exact absurd hl' hl.2
      | swift =>
        simp only [Language.heads]
        split <;> simp [headings_typeHead hname, hl']
      | _ => simp [Language.heads, headings_typeHead hname, hl']
  | operation o =>
    have hname : (t.operationNode o).member? "type_name" = some (.string o.typeName) := by
      unfold operationNode
      split <;> rfl
    rw [names_of_fromTemplate (by decide) h, partIdentifiers]
    cases hl : t.language <;> simp [Language.heads, headings_resolverHead hname, hl]

end Target

end SchemaBindings
