import SchemaBindings.Proofs.Model.DefaultOrigins
import SchemaBindings.Proofs.Model.Values

namespace SchemaBindings.KeyedList

variable {α : Type}

theorem nodup_put {l : List (String × α)} (h : (l.map (·.1)).Nodup) (key : String) (value : α) :
    ((put l key value).map (·.1)).Nodup := by
  rw [map_fst_put]
  split
  · exact h
  next hkey => exact h.append (List.nodup_singleton key) (List.disjoint_singleton.mpr hkey)

theorem nodup_ofPairs (pairs : List (String × α)) : ((ofPairs pairs).map (·.1)).Nodup := by
  have hfold (l : List (String × α)) (h : (l.map (·.1)).Nodup) :
      ((pairs.foldl (fun merged p ↦ put merged p.1 p.2) l).map (·.1)).Nodup := by
    induction pairs generalizing l with
    | nil => exact h
    | cons p pairs ih => exact ih _ (nodup_put h p.1 p.2)
  exact hfold [] List.nodup_nil

end SchemaBindings.KeyedList

namespace SchemaBindings.Model

theorem Value.exists_field_of_mem_fieldNameLists {fields : List (String × Value)}
    {names : List String} (h : names ∈ Value.fieldNameLists fields) :
    ∃ p ∈ fields, names ∈ p.2.nameLists := by
  induction fields with
  | nil => cases h
  | cons p fields ih =>
    rcases List.mem_append.mp h with h | h
    · exact ⟨p, List.mem_cons_self, h⟩
    · obtain ⟨q, hq, hnames⟩ := ih h
      exact ⟨q, List.mem_cons_of_mem p hq, hnames⟩

namespace Build

mutual

theorem nodup_of_mem_nameLists (v : Sdl.Value) : ∀ names ∈ (value v).nameLists, names.Nodup := by
  match v with
  | .list items _ => exact nodup_of_mem_itemNameLists items
  | .object fields _ =>
    refine List.forall_mem_cons.mpr ⟨KeyedList.nodup_ofPairs _, fun names hnames ↦ ?_⟩
    obtain ⟨p, hp, hnames⟩ := Value.exists_field_of_mem_fieldNameLists hnames
    exact nodup_of_mem_fieldNameLists fields p (mem_of_mem_ofPairs hp) names hnames
  | .int _ _ | .float _ _ | .string _ _ | .boolean _ _ | .null _ | .variableRef _ | .enum _ =>
    exact nofun

theorem nodup_of_mem_itemNameLists (items : List Sdl.Value) :
    ∀ names ∈ Value.itemNameLists (valueItems items), names.Nodup := by
  match items with
  | [] => exact nofun
  | item :: items =>
    exact List.forall_mem_append.mpr
      ⟨nodup_of_mem_nameLists item, nodup_of_mem_itemNameLists items⟩

theorem nodup_of_mem_fieldNameLists (fields : List (Sdl.Name × Sdl.Value)) :
    ∀ p ∈ valueFields fields, ∀ names ∈ p.2.nameLists, names.Nodup := by
  match fields with
  | [] => exact nofun
  | (name, v) :: fields =>
    exact List.forall_mem_cons.mpr ⟨nodup_of_mem_nameLists v, nodup_of_mem_fieldNameLists fields⟩

end

end Build

theorem nodup_names_of_build {s : LoadedSchema} {tables : Tables} {m : Model}
    (h : Model.build s tables = .ok m) {d : TypeExpr × Value} (hd : d ∈ m.defaults) :
    ∀ names ∈ d.2.nameLists, names.Nodup := by
  obtain ⟨t, -, a, -, given, -, he⟩ := isDefaultOf_of_build h d hd
  rw [he]
  exact Build.nodup_of_mem_nameLists given

theorem Value.ofJson?_tagged_eq (kind : ValueKind) (content : Json) :
    Value.ofJson? (Value.tagged kind content) = Value.ofContent? kind content := by
  have hkind : requiredMember (Value.tagged kind content) "kind" ValueKind.ofJson? = some kind := by
    cases kind <;> rfl
  have hcontent : Value.ofMembers? kind [("kind", kind.toJson), ("value", content)] =
      some (Value.ofContent? kind content) := by
    simp [Value.ofMembers?]
  rw [Value.tagged] at hkind ⊢
  rw [Value.ofJson?, hkind, Option.bind_some, hcontent, Option.getD_some]

mutual

theorem Value.eq_of_ofJson?_toJson {v v' : Value} (hnames : ∀ names ∈ v.nameLists, names.Nodup)
    (h : Value.ofJson? v.toJson = some v') : v' = v := by
  match v with
  | .int n =>
    rw [toJson, ofJson?_tagged_eq, ofContent?] at h
    split at h <;> cases h
    rfl
  | .float x =>
    rw [toJson, ofJson?_tagged_eq] at h
    split at h <;> cases h
    rfl
  | .string _ | .boolean _ | .enum _ =>
    rw [toJson, ofJson?_tagged_eq] at h
    cases h
    rfl
  | .null =>
    cases h
    rfl
  | .list items =>
    rw [toJson, ofJson?_tagged_eq, ofContent?] at h
    obtain ⟨items', hitems, rfl⟩ := Option.map_eq_some_iff.mp h
    rw [Value.eq_of_itemsOfJson? hnames hitems]
  | .object fields =>
    obtain ⟨hfields, hnames⟩ := List.forall_mem_cons.mp hnames
    rw [toJson, ofJson?_tagged_eq, ofContent?] at h
    obtain ⟨fields', hread, rfl⟩ := Option.map_eq_some_iff.mp h
    rw [Value.eq_of_fieldsOfJson? hnames hread, KeyedList.ofPairs_of_nodup hfields]

theorem Value.eq_of_itemsOfJson? {items items' : List Value}
    (hnames : ∀ names ∈ Value.itemNameLists items, names.Nodup)
    (h : Value.itemsOfJson? (Value.itemsToJson items) = some items') : items' = items := by
  match items with
  | [] =>
    cases h
    rfl
  | item :: items =>
    rw [Value.itemNameLists, List.forall_mem_append] at hnames
    obtain ⟨first, hfirst, h⟩ := Option.bind_eq_some_iff.mp h
    obtain ⟨rest, hrest, h⟩ := Option.bind_eq_some_iff.mp h
    cases h
    rw [Value.eq_of_ofJson?_toJson hnames.1 hfirst, Value.eq_of_itemsOfJson? hnames.2 hrest]

theorem Value.eq_of_fieldsOfJson? {fields fields' : List (String × Value)}
    (hnames : ∀ names ∈ Value.fieldNameLists fields, names.Nodup)
    (h : Value.fieldsOfJson? (Value.fieldsToJson fields) = some fields') : fields' = fields := by
  match fields with
  | [] =>
    cases h
    rfl
  | (name, value) :: fields =>
    rw [Value.fieldNameLists, List.forall_mem_append] at hnames
    obtain ⟨first, hfirst, h⟩ := Option.bind_eq_some_iff.mp h
    obtain ⟨rest, hrest, h⟩ := Option.bind_eq_some_iff.mp h
    cases h
    rw [Value.eq_of_ofJson?_toJson hnames.1 hfirst, Value.eq_of_fieldsOfJson? hnames.2 hrest]

end

end SchemaBindings.Model
