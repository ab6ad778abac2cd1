import SchemaBindings.Proofs.Model.Decoding
import SchemaBindings.Proofs.Model.FieldOrigins
import SchemaBindings.Proofs.Sdl.WordSized

namespace SchemaBindings

open Sdl Merge Model Model.Build Attempt

def SchemaType.inputs (t : SchemaType) : List InputValueDefinition :=
  t.fields.flatMap (·.2.arguments) ++ t.inputFields.map (·.2)

def IsDefaultOf (inputs : List InputValueDefinition) (v : Model.Value) : Prop :=
  ∃ a ∈ inputs, ∃ given, a.defaultValue = some given ∧ v = value given

theorem IsDefaultOf.mono {inputs inputs' : List InputValueDefinition} {v : Model.Value}
    (h : IsDefaultOf inputs v) (hsub : ∀ a ∈ inputs, a ∈ inputs') : IsDefaultOf inputs' v := by
  obtain ⟨a, ha, hgiven⟩ := h
  exact ⟨a, hsub a ha, hgiven⟩

section Members

variable {c : Context}

theorem isDefaultOf_of_mem {type : TypeExpr} {a : InputValueDefinition} {d : TypeExpr × Model.Value}
    (hd : d ∈ (a.defaultValue.map value).toList.map (type, ·)) : IsDefaultOf [a] d.2 := by
  obtain ⟨v, hv, rfl⟩ := List.mem_map.mp hd
  obtain ⟨given, hgiven, rfl⟩ := Option.map_eq_some_iff.mp (Option.mem_toList.mp hv)
  exact ⟨a, List.mem_singleton_self a, given, hgiven, rfl⟩

theorem isDefaultOf_argument {owner : String} {a : InputValueDefinition} {a' : Model.Argument}
    (h : argument c owner a = .ok a') : ∀ d ∈ a'.defaults, IsDefaultOf [a] d.2 := by
  obtain ⟨type, -, h⟩ := (bind_eq_ok_iff _ _ _).mp h
  cases h
  exact fun d hd ↦ isDefaultOf_of_mem hd

theorem isDefaultOf_field {owner : String} {file : Nat} {f : FieldDefinition} {f' : Field}
    (h : field c owner file f = .ok f') : ∀ d ∈ f'.defaults, IsDefaultOf f.arguments d.2 := by
  obtain ⟨_, -, h⟩ := (bind_eq_ok_iff _ _ _).mp h
  obtain ⟨type, -, h⟩ := (bind_eq_ok_iff _ _ _).mp h
  obtain ⟨arguments, harguments, h⟩ := (bind_eq_ok_iff _ _ _).mp h
  cases h
  intro d hd
  obtain ⟨a', ha', hd⟩ := List.mem_flatMap.mp hd
  obtain ⟨a, ha, hok⟩ := exists_ok_of_mem_mapM harguments a' ha'
  exact (isDefaultOf_argument hok d hd).mono (by simpa using ha)

theorem isDefaultOf_inputField {owner : String} {file : Nat} {f : InputValueDefinition}
    {f' : Field} (h : inputField c owner file f = .ok f') :
    ∀ d ∈ f'.defaults, IsDefaultOf [f] d.2 := by
  obtain ⟨_, -, h⟩ := (bind_eq_ok_iff _ _ _).mp h
  obtain ⟨type, -, h⟩ := (bind_eq_ok_iff _ _ _).mp h
  cases h
  intro d hd
  rw [Field.defaults, List.flatMap_nil, List.append_nil] at hd
  exact isDefaultOf_of_mem hd

theorem isDefaultOf_of_builds {t : SchemaType} {f : Field} (h : c.Builds t f) :
    ∀ d ∈ f.defaults, IsDefaultOf t.inputs d.2 := by
  obtain ⟨p, hp, hok⟩ := h
  intro d hd
  refine (isDefaultOf_field hok d hd).mono fun a ha ↦ ?_
  exact List.mem_append_left _ (List.mem_flatMap.mpr ⟨p, hp, ha⟩)

theorem isDefaultOf_of_buildsInput {t : SchemaType} {f : Field} (h : c.BuildsInput t f) :
    ∀ d ∈ f.defaults, IsDefaultOf t.inputs d.2 := by
  obtain ⟨p, hp, hok⟩ := h
  intro d hd
  refine (isDefaultOf_inputField hok d hd).mono fun a ha ↦ ?_
  rw [List.mem_singleton.mp ha]
  exact List.mem_append_right _ (List.mem_map.mpr ⟨p, hp, rfl⟩)

end Members

/-- Every default of a built model is the value of a default in the schema. -/
theorem isDefaultOf_of_build {s : LoadedSchema} {tables : Tables} {m : Model}
    (h : Model.build s tables = .ok m) :
    ∀ d ∈ m.defaults, ∃ t ∈ s.schema.types, IsDefaultOf t.inputs d.2 := by
  intro d hd
  simp only [Model.defaults, List.mem_append, List.mem_flatMap] at hd
  rcases hd with (⟨f, ⟨r, hr, hf⟩, hd⟩ | ⟨f, ⟨i, hi, hf⟩, hd⟩) | ⟨f, ⟨o, ho, hf⟩, hd⟩
  · obtain ⟨t, ht, hbuilds⟩ := (originates_of_build h).exists_builds hr hf
    exact ⟨t, ht, isDefaultOf_of_builds hbuilds d hd⟩
  · obtain ⟨t, ht, hbuilds⟩ := (originates_of_build h).exists_buildsInput hi hf
    exact ⟨t, ht, isDefaultOf_of_buildsInput hbuilds d hd⟩
  · obtain ⟨t, ht, f', status, hbuilds, rfl⟩ := builds_of_mem_operations h ho hf
    exact ⟨t, ht, isDefaultOf_of_builds hbuilds d (List.mem_append_right _ hd)⟩

section WholeNumbers

theorem mem_of_mem_put {α : Type} {l : List (String × α)} {key : String} {v : α}
    {p : String × α} (h : p ∈ KeyedList.put l key v) : p ∈ l ∨ p = (key, v) := by
  induction l with
  | nil => exact Or.inr (List.mem_singleton.mp h)
  | cons q l ih =>
    rw [KeyedList.put] at h
    split at h
    next hq =>
      rcases List.mem_cons.mp h with rfl | h
      · exact Or.inr (by rw [hq])
      · exact Or.inl (List.mem_cons_of_mem _ h)
    next =>
      rcases List.mem_cons.mp h with rfl | h
      · exact Or.inl List.mem_cons_self
      · exact (ih h).imp_left (List.mem_cons_of_mem _)

theorem mem_of_mem_foldl_put {α : Type} {l pairs : List (String × α)} {p : String × α}
    (h : p ∈ pairs.foldl (fun merged pair ↦ KeyedList.put merged pair.1 pair.2) l) :
    p ∈ l ∨ p ∈ pairs := by
  induction pairs generalizing l with
  | nil => exact Or.inl h
  | cons q pairs ih =>
    rcases ih h with h | h
    · exact (mem_of_mem_put h).imp_right fun he ↦ List.mem_cons.mpr (Or.inl he)
    · exact Or.inr (List.mem_cons_of_mem _ h)

theorem mem_of_mem_ofPairs {α : Type} {pairs : List (String × α)} {p : String × α}
    (h : p ∈ KeyedList.ofPairs pairs) : p ∈ pairs :=
  (mem_of_mem_foldl_put h).resolve_left nofun

theorem mem_itemLeaves_iff {items : List Model.Value} {l : Model.Value} :
    l ∈ Model.Value.itemLeaves items ↔ ∃ v ∈ items, l ∈ v.leaves := by
  induction items with
  | nil => exact iff_of_false nofun nofun
  | cons v items ih => rw [Model.Value.itemLeaves, List.mem_append, ih, List.exists_mem_cons_iff]

theorem mem_fieldLeaves_iff {fields : List (String × Model.Value)} {l : Model.Value} :
    l ∈ Model.Value.fieldLeaves fields ↔ ∃ p ∈ fields, l ∈ p.2.leaves := by
  induction fields with
  | nil => exact iff_of_false nofun nofun
  | cons p fields ih => rw [Model.Value.fieldLeaves, List.mem_append, ih, List.exists_mem_cons_iff]

mutual

theorem mem_wholeNumbers {v : Sdl.Value} {n : Int} (h : .int n ∈ (value v).leaves) :
    n ∈ v.wholeNumbers := by
  match v with
  | .int m _ =>
    obtain ⟨⟩ := List.mem_singleton.mp h
    exact List.mem_singleton_self n
  | .list items _ => exact mem_itemNumbers h
  | .object fields _ =>
    obtain ⟨p, hp, hl⟩ := mem_fieldLeaves_iff.mp h
    exact mem_fieldNumbers (mem_of_mem_ofPairs hp) hl
  | .variableRef _ | .float _ _ | .string _ _ | .boolean _ _ | .null _ | .enum _ =>
    cases List.mem_singleton.mp h

theorem mem_itemNumbers {items : List Sdl.Value} {n : Int}
    (h : .int n ∈ Model.Value.itemLeaves (valueItems items)) : n ∈ Value.itemNumbers items := by
  match items with
  | [] => cases h
  | item :: items =>
    rcases List.mem_append.mp h with h | h
    · exact List.mem_append_left _ (mem_wholeNumbers h)
    · exact List.mem_append_right _ (mem_itemNumbers h)

theorem mem_fieldNumbers {fields : List (Name × Sdl.Value)} {n : Int} {p : String × Model.Value}
    (hp : p ∈ valueFields fields) (h : .int n ∈ p.2.leaves) : n ∈ Value.fieldNumbers fields := by
  match fields with
  | [] => cases hp
  | (name, v) :: fields =>
    rcases List.mem_cons.mp hp with rfl | hp
    · exact List.mem_append_left _ (mem_wholeNumbers h)
    · exact List.mem_append_right _ (mem_fieldNumbers hp h)

end

theorem exists_part_of_mem_inputs {t : SchemaType} {a : InputValueDefinition} (ha : a ∈ t.inputs) :
    ∃ part ∈ t.parts, a ∈ part.definition.inputs := by
  rcases List.mem_append.mp ha with ha | ha
  · obtain ⟨p, hp, ha⟩ := List.mem_flatMap.mp ha
    obtain ⟨part, hpart, hp⟩ := List.mem_flatMap.mp hp
    obtain ⟨f, hf, rfl⟩ := List.mem_map.mp hp
    exact ⟨part, hpart, List.mem_append_left _ (List.mem_flatMap.mpr ⟨f, hf, ha⟩)⟩
  · obtain ⟨p, hp, rfl⟩ := List.mem_map.mp ha
    obtain ⟨part, hpart, hp⟩ := List.mem_flatMap.mp hp
    obtain ⟨f, hf, rfl⟩ := List.mem_map.mp hp
    exact ⟨part, hpart, List.mem_append_right _ hf⟩

variable {sources : Sources} {s : LoadedSchema} {m : Model}

theorem Loaded.isWordSized (h : Loaded sources s) {t : SchemaType} (ht : t ∈ s.schema.types) :
    ∀ a ∈ t.inputs, a.IsWordSized := by
  intro a ha
  obtain ⟨part, hpart, ha⟩ := exists_part_of_mem_inputs ha
  obtain ⟨d, x, hd, hx, htype⟩ := h.exists_parse? ht hpart
  exact isWordSized_of_parse? hd hx htype ha

theorem isWord_of_load_of_build {tables : Tables} (h : Loaded sources s)
    (hbuild : Model.build s tables = .ok m) {d : TypeExpr × Model.Value} (hd : d ∈ m.defaults)
    {n : Int} (hn : .int n ∈ d.2.leaves) : isWord n = true := by
  obtain ⟨t, ht, a, ha, given, hgiven, he⟩ := isDefaultOf_of_build hbuild d hd
  rw [he] at hn
  exact h.isWordSized ht a ha given hgiven n (mem_wholeNumbers hn)

end WholeNumbers

end SchemaBindings
