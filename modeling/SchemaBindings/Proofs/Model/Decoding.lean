import SchemaBindings.Model.Encoding
import SchemaBindings.Proofs.Attempt
import SchemaBindings.Proofs.Model.Defaults

namespace SchemaBindings.Model

mutual

def Value.leaves : Value → List Value
  | .list items => Value.itemLeaves items
  | .object fields => Value.fieldLeaves fields
  | .int n => [.int n]
  | .float x => [.float x]
  | .string s => [.string s]
  | .boolean b => [.boolean b]
  | .null => [.null]
  | .enum name => [.enum name]

def Value.itemLeaves : List Value → List Value
  | [] => []
  | item :: items => item.leaves ++ Value.itemLeaves items

def Value.fieldLeaves : List (String × Value) → List Value
  | [] => []
  | (_, value) :: fields => value.leaves ++ Value.fieldLeaves fields

end

/-- Whether a value other than a list or an object can be read back. -/
def Value.IsReadable : Value → Prop
  | .int n => isWord n = true
  | .float x => x.isFinite = true
  | _ => True

theorem Value.ofJson?_tagged {kind : ValueKind} {content : Json} {v : Value}
    (h : Value.ofContent? kind content = some v) :
    Value.ofJson? (Value.tagged kind content) = some v := by
  have hkind : requiredMember (Value.tagged kind content) "kind" ValueKind.ofJson? = some kind := by
    cases kind <;> rfl
  have hcontent : Value.ofMembers? kind [("kind", kind.toJson), ("value", content)] =
      some (some v) := by
    simp [Value.ofMembers?, h]
  rw [Value.tagged] at hkind ⊢
  rw [Value.ofJson?, hkind, Option.bind_some, hcontent]
  rfl

mutual

theorem Value.exists_ofJson?_toJson {v : Value} (h : ∀ l ∈ v.leaves, l.IsReadable) :
    ∃ v', Value.ofJson? v.toJson = some v' := by
  match v with
  | .int n =>
    have hn : isWord n = true := h (.int n) (List.mem_singleton_self _)
    exact ⟨.int n, ofJson?_tagged (by rw [ofContent?, if_pos hn])⟩
  | .float x =>
    have hx : x.isFinite = true := h (.float x) (List.mem_singleton_self _)
    refine ⟨.float x, ?_⟩
    rw [toJson, if_pos hx]
    exact ofJson?_tagged rfl
  | .string s => exact ⟨.string s, ofJson?_tagged rfl⟩
  | .boolean b => exact ⟨.boolean b, ofJson?_tagged rfl⟩
  | .null => exact ⟨.null, rfl⟩
  | .enum name => exact ⟨.enum name, ofJson?_tagged rfl⟩
  | .list items =>
    obtain ⟨values, hvalues⟩ := Value.exists_itemsOfJson? h
    exact ⟨.list values, ofJson?_tagged (by rw [ofContent?, hvalues]; rfl)⟩
  | .object fields =>
    obtain ⟨values, hvalues⟩ := Value.exists_fieldsOfJson? h
    exact ⟨_, ofJson?_tagged (by rw [ofContent?, hvalues]; rfl)⟩

theorem Value.exists_itemsOfJson? {items : List Value}
    (h : ∀ l ∈ Value.itemLeaves items, l.IsReadable) :
    ∃ values, Value.itemsOfJson? (Value.itemsToJson items) = some values := by
  match items with
  | [] => exact ⟨[], rfl⟩
  | item :: items =>
    obtain ⟨v, hv⟩ := Value.exists_ofJson?_toJson fun l hl ↦ h l (List.mem_append_left _ hl)
    obtain ⟨vs, hvs⟩ := Value.exists_itemsOfJson? fun l hl ↦ h l (List.mem_append_right _ hl)
    exact ⟨v :: vs, by simp [itemsToJson, itemsOfJson?, hv, hvs]⟩

theorem Value.exists_fieldsOfJson? {fields : List (String × Value)}
    (h : ∀ l ∈ Value.fieldLeaves fields, l.IsReadable) :
    ∃ values, Value.fieldsOfJson? (Value.fieldsToJson fields) = some values := by
  match fields with
  | [] => exact ⟨[], rfl⟩
  | (name, value) :: fields =>
    obtain ⟨v, hv⟩ := Value.exists_ofJson?_toJson fun l hl ↦ h l (List.mem_append_left _ hl)
    obtain ⟨vs, hvs⟩ := Value.exists_fieldsOfJson? fun l hl ↦ h l (List.mem_append_right _ hl)
    exact ⟨(name, v) :: vs, by simp [fieldsToJson, fieldsOfJson?, hv, hvs]⟩

end

theorem NamedType.ofJson?_toJson (t : NamedType) : NamedType.ofJson? t.toJson = some t := by
  obtain ⟨name, kind⟩ := t
  cases kind <;> rfl

theorem TypeExpr.ofJson?_toJson (t : TypeExpr) : TypeExpr.ofJson? t.toJson = some t := by
  induction t with
  | scalar name => rfl
  | named t => rw [toJson, ofJson?, NamedType.ofJson?_toJson, Option.map_some]
  | list t ih => rw [toJson, ofJson?, ih, Option.map_some]
  | nonNull t ih => rw [toJson, ofJson?, ih, Option.map_some]

theorem Status.ofJson?_toJson (s : Status) : Status.ofJson? s.toJson = some s := by
  cases s <;> rfl

theorem readOptional_text (s : Option String) :
    readOptional Json.text? (textOrNull s) = some s := by
  cases s <;> rfl

def AreReadable (defaults : List (TypeExpr × Value)) : Prop :=
  ∀ d ∈ defaults, ∀ l ∈ d.2.leaves, l.IsReadable

theorem exists_readOptional_default {type : TypeExpr} {v : Option Value}
    (h : AreReadable (v.toList.map (type, ·))) :
    ∃ v', readOptional Value.ofJson? (Json.ofOption Value.toJson v) = some v' := by
  cases v with
  | none => exact ⟨none, rfl⟩
  | some v =>
    obtain ⟨v', hv'⟩ := Value.exists_ofJson?_toJson (h (type, v) (List.mem_singleton_self _))
    have hread : readOptional Value.ofJson? v.toJson = (Value.ofJson? v.toJson).map some := by
      cases v <;> rfl
    exact ⟨some v', by rw [Json.ofOption, hread, hv', Option.map_some]⟩

theorem exists_readList {α : Type} {read : Json → Option α} {items : List Json}
    (h : ∀ j ∈ items, ∃ a, read j = some a) : ∃ as, readList read (.array items) = some as :=
  Attempt.exists_mapM_eq_some h

theorem Argument.exists_ofJson?_toJson {a : Argument} (h : AreReadable a.defaults) :
    ∃ a', Argument.ofJson? a.toJson = some a' := by
  obtain ⟨v, hv⟩ := exists_readOptional_default h
  refine ⟨⟨a.name, a.type, v, a.description, a.deprecation⟩, ?_⟩
  simp [Argument.ofJson?, Argument.toJson, Json.asRecord?, requiredMember, defaultMember,
    readDescription, Json.member?, Json.text?, TypeExpr.ofJson?_toJson, readOptional_text, hv]

theorem Json.member?_append {key : String} {members others : List (String × Json)}
    (h : key ∉ others.map (·.1)) :
    (Json.object (members ++ others)).member? key = (Json.object members).member? key := by
  have hnone : others.reverse.find? (·.1 == key) = none := by
    simp only [List.find?_eq_none, List.mem_reverse, beq_iff_eq]
    exact fun p hp he ↦ h (List.mem_map.mpr ⟨p, hp, he⟩)
  rw [Json.member?, List.reverse_append, List.find?_append, hnone, Option.none_or, Json.member?]

theorem Field.ofJson?_append {f : Field} {others : List (String × Json)}
    (hothers : ∀ p ∈ others, p.1 ∉ f.entries.map (·.1)) :
    Field.ofJson? (.object (f.entries ++ others)) = Field.ofJson? f.toJson := by
  have hmember (key : String) (hkey : key ∈ ["name", "type", "arguments", "default_value",
      "description", "deprecation", "status"]) :
      (Json.object (f.entries ++ others)).member? key = (Json.object f.entries).member? key := by
    refine Json.member?_append fun hmem ↦ ?_
    obtain ⟨p, hp, rfl⟩ := List.mem_map.mp hmem
    exact hothers p hp hkey
  simp (disch := decide) only [Field.ofJson?, Field.toJson, Json.asRecord?, requiredMember,
    defaultMember, readDescription, readStatus, Option.bind_eq_bind, Option.bind_some, hmember]

theorem Field.exists_ofJson?_toJson {f : Field} (h : AreReadable f.defaults) :
    ∃ f', Field.ofJson? f.toJson = some f' := by
  obtain ⟨v, hv⟩ := exists_readOptional_default fun d hd ↦ h d (List.mem_append_left _ hd)
  obtain ⟨arguments, harguments⟩ : ∃ arguments,
      readList Argument.ofJson? (.array (f.arguments.map Argument.toJson)) = some arguments := by
    refine exists_readList fun j hj ↦ ?_
    obtain ⟨a, ha, rfl⟩ := List.mem_map.mp hj
    exact Argument.exists_ofJson?_toJson fun d hd ↦
      h d (List.mem_append_right _ (List.mem_flatMap.mpr ⟨a, ha, hd⟩))
  refine ⟨⟨f.name, f.type, arguments, v, f.description, f.deprecation, f.status⟩, ?_⟩
  simp [Field.ofJson?, Field.toJson, Json.asRecord?, requiredMember, defaultMember,
    readDescription, readStatus, Field.entries, Json.member?, Json.text?, TypeExpr.ofJson?_toJson,
    readOptional_text, Status.ofJson?_toJson, hv, harguments]

end SchemaBindings.Model
