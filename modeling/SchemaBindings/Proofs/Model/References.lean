import SchemaBindings.Proofs.Model.Declaring
import SchemaBindings.Proofs.Schema.Loaded

namespace SchemaBindings

namespace Model

def EnumType.withoutAliases (e : EnumType) : EnumType :=
  { e with aliases := [] }

def Field.types (f : Field) : List TypeExpr :=
  f.type :: f.arguments.map (·.type)

def OperationField.types (f : OperationField) : List TypeExpr :=
  f.returnType :: f.arguments.map (·.type)

def names (m : Model) : NamedKind → List String
  | .scalar => m.scalars.map (·.name)
  | .enum => m.enums.map (·.name)
  | .object => m.objects.map (·.name)
  | .interface => m.interfaces.map (·.name)
  | .input => m.inputs.map (·.name)
  | .union => m.unions.map (·.name)

def records (m : Model) : List RecordType :=
  m.objects ++ m.interfaces

def types (m : Model) : List TypeExpr :=
  (m.records.flatMap (·.fields)).flatMap Field.types ++
    (m.inputs.flatMap (·.fields)).flatMap Field.types ++
    (m.operations.flatMap (·.fields)).flatMap OperationField.types

/-- What the fields, the arguments, the operations and the lists of interfaces refer to. -/
def references (m : Model) : List NamedType :=
  m.types.filterMap TypeExpr.named? ++
    (m.records.flatMap (·.implements)).map (⟨·, .interface⟩)

def memberTypes (m : Model) : List String :=
  (m.unions.flatMap (·.members)).map (·.typeName)

end Model

/-- The type is no declaration of a model: it offers an operation or its name is kept for the
language itself. -/
def Schema.LeavesOut (s : Schema) (name : String) : Prop :=
  "__".toList <+: name.toList ∨ s.isRoot name

open Model

/-- The name has one declaration among those of some kinds. The types that the schema leaves out
have none; those that offer an operation have that operation. -/
structure Model.Resolves (s : Schema) (m : Model) (kinds : List NamedKind) (name : String) :
    Prop where
  declared : ¬ s.LeavesOut name → (kinds.flatMap m.names).count name = 1
  leftOut : s.LeavesOut name → ∀ kind, name ∉ m.names kind
  operation : s.isRoot name → ∃ o ∈ m.operations, o.typeName = name

namespace Model.Build

open Sdl Attempt

/-- The name is that of a declared type, which has the kind in the model. -/
def Context.Names (c : Context) (r : NamedType) : Prop :=
  ∃ t ∈ c.schema.types, t.name = r.name ∧ c.namedKind t.name t.kind = r.kind

/-- Whatever declared type a type names exists and has its kind. -/
def Context.Closed (c : Context) (e : TypeExpr) : Prop :=
  ∀ r, e.named? = some r → c.Names r

def composite : List NamedKind :=
  [.object, .interface, .union]

variable {c : Context}

theorem named?_require (e : TypeExpr) : e.require.named? = e.named? := by
  cases e <;> rfl

theorem names_of_kind? {name : String} {kind : TypeKind} (hb : ¬ isBuiltinScalar name)
    (h : c.schema.kind? name = some kind) : c.Names ⟨name, c.namedKind name kind⟩ := by
  simp only [Schema.kind?, kindOf?, hb, Bool.false_eq_true, if_false, Option.map_eq_some_iff] at h
  obtain ⟨t, ht, rfl⟩ := h
  have hname : t.name = name := by simpa using List.find?_some ht
  exact ⟨t, List.mem_of_find?_eq_some ht, hname, by rw [hname]⟩

theorem closed_of_typeExpr {referrer : String} {t : TypeRef} {e : TypeExpr}
    (h : c.typeExpr referrer t = .ok e) : c.Closed e := by
  induction t generalizing e with
  | named name span =>
    simp only [Context.typeExpr] at h
    split at h
    · cases h
      intro r hr
      cases hr
    · rename_i hb
      split at h
      · rename_i kind hk
        cases h
        rintro r ⟨⟩
        exact names_of_kind? hb hk
      · cases h
  | list t span ih =>
    obtain ⟨e', he, rfl⟩ := (map_eq_ok_iff _ _ _).mp h
    have hc : c.Closed e' := ih he
    exact hc
  | nonNull t span ih =>
    obtain ⟨e', he, rfl⟩ := (map_eq_ok_iff _ _ _).mp h
    intro r hr
    rw [named?_require] at hr
    exact ih he r hr

theorem closed_of_argument {owner : String} {a : InputValueDefinition} {a' : Argument}
    (h : argument c owner a = .ok a') : c.Closed a'.type := by
  obtain ⟨e, he, h⟩ := (bind_eq_ok_iff _ _ _).mp h
  cases h
  exact closed_of_typeExpr he

theorem closed_of_field {owner : String} {file : Nat} {f : FieldDefinition} {f' : Field}
    (h : field c owner file f = .ok f') : ∀ e ∈ f'.types, c.Closed e := by
  obtain ⟨_, -, h⟩ := (bind_eq_ok_iff _ _ _).mp h
  obtain ⟨e, he, h⟩ := (bind_eq_ok_iff _ _ _).mp h
  obtain ⟨arguments, ha, h⟩ := (bind_eq_ok_iff _ _ _).mp h
  cases h
  intro e' he'
  rcases List.mem_cons.mp he' with rfl | he'
  · exact closed_of_typeExpr he
  · obtain ⟨a', ha', rfl⟩ := List.mem_map.mp he'
    obtain ⟨a, -, hok⟩ := exists_ok_of_mem_mapM ha a' ha'
    exact closed_of_argument hok

theorem closed_of_inputField {owner : String} {file : Nat} {f : InputValueDefinition} {f' : Field}
    (h : inputField c owner file f = .ok f') : ∀ e ∈ f'.types, c.Closed e := by
  obtain ⟨_, -, h⟩ := (bind_eq_ok_iff _ _ _).mp h
  obtain ⟨e, he, h⟩ := (bind_eq_ok_iff _ _ _).mp h
  cases h
  intro e' he'
  obtain rfl : e' = e := by simpa [Field.types] using he'
  exact closed_of_typeExpr he

theorem closed_of_fields {t : SchemaType} {fs : List Field} (h : fields c t = .ok fs) :
    ∀ e ∈ fs.flatMap Field.types, c.Closed e := by
  intro e he
  obtain ⟨f, hf, he⟩ := List.mem_flatMap.mp he
  obtain ⟨p, -, hok⟩ := exists_ok_of_mem_mapM h f hf
  exact closed_of_field hok e he

theorem record_eq {t : SchemaType} {status : Status} {r : RecordType}
    (h : record c t status = .ok r) :
    r.name = t.name ∧ r.implements = t.implements.map (·.2.text) ∧
      ∀ e ∈ r.fields.flatMap Field.types, c.Closed e := by
  obtain ⟨fs, hfs, h⟩ := (bind_eq_ok_iff _ _ _).mp h
  cases h
  exact ⟨rfl, rfl, closed_of_fields hfs⟩

theorem names_of_wrapperMember {wrapper : String} {file : Nat} {f : FieldDefinition}
    {u : UnionMember} (h : wrapperMember c wrapper file f = .ok u) :
    ∃ kind ∈ composite, c.Names ⟨u.typeName, kind⟩ := by
  unfold wrapperMember at h
  simp only at h
  split at h
  · cases h
  · obtain ⟨e, he, h⟩ := (bind_eq_ok_iff _ _ _).mp h
    have hc := closed_of_typeExpr he
    split at h
    · cases h
    · split at h
      · rename_i name hn
        cases h
        exact ⟨.object, by simp [composite], hc _ hn⟩
      · rename_i name hn
        cases h
        exact ⟨.interface, by simp [composite], hc _ hn⟩
      · rename_i name hn
        cases h
        exact ⟨.union, by simp [composite], hc _ hn⟩
      · cases h

/-- What a model holds once the types in `done` are added. -/
structure Holds (c : Context) (done : List SchemaType) (m : Model) : Prop where
  names : ∀ kind, m.names kind =
    (done.filter fun t ↦ c.namedKind t.name t.kind = kind).map (·.name)
  types : ∀ e ∈ m.types, c.Closed e
  implements : ∀ n ∈ m.records.flatMap (·.implements), c.Names ⟨n, .interface⟩
  members : ∀ n ∈ m.memberTypes, ∃ kind ∈ composite, c.Names ⟨n, kind⟩

theorem holds_empty (metadata : Metadata) : Holds c [] (.empty metadata) where
  names kind := by cases kind <;> rfl
  types := by simp [Model.types, records, Model.empty]
  implements := by simp [records, Model.empty]
  members := by simp [memberTypes, Model.empty]

theorem Holds.add {done : List SchemaType} {m m' : Model} {t : SchemaType}
    (h : Holds c done m) (kind : NamedKind) (hkind : c.namedKind t.name t.kind = kind)
    (names : ∀ k, m'.names k = m.names k ++ if kind = k then [t.name] else [])
    (types : ∀ e ∈ m'.types, e ∈ m.types ∨ c.Closed e)
    (implements : ∀ n ∈ m'.records.flatMap (·.implements),
      n ∈ m.records.flatMap (·.implements) ∨ c.Names ⟨n, .interface⟩)
    (members : ∀ n ∈ m'.memberTypes,
      n ∈ m.memberTypes ∨ ∃ kind ∈ composite, c.Names ⟨n, kind⟩) :
    Holds c (done ++ [t]) m' where
  names k := by
    rw [names, h.names, List.filter_append, List.map_append]
    by_cases hk : kind = k <;> simp [hkind, hk]
  types e he := (types e he).elim (h.types e) id
  implements n hn := (implements n hn).elim (h.implements n) id
  members n hn := (members n hn).elim (h.members n) id

theorem Holds.addRecord {done : List SchemaType} {m m' : Model} {t : SchemaType} {r : RecordType}
    {status : Status} (h : Holds c done m) (kind : NamedKind)
    (hkind : c.namedKind t.name t.kind = kind) (hr : record c t status = .ok r)
    (hi : ∀ n ∈ t.implements, c.Names ⟨n.2.text, .interface⟩)
    (names : ∀ k, m'.names k = m.names k ++ if kind = k then [r.name] else [])
    (records : ∀ r' ∈ m'.records, r' ∈ m.records ∨ r' = r)
    (inputs : m'.inputs = m.inputs) (unions : m'.unions = m.unions)
    (operations : m'.operations = m.operations) : Holds c (done ++ [t]) m' := by
  obtain ⟨hname, himp, hcl⟩ := record_eq hr
  refine h.add kind hkind (hname ▸ names) (fun e he ↦ ?_) (fun n hn ↦ ?_) fun n hn ↦ ?_
  · simp only [Model.types, inputs, operations, List.mem_append] at he ⊢
    rcases he with (he | he) | he
    · simp only [List.mem_flatMap] at he
      obtain ⟨f, ⟨r', hr', hf⟩, he⟩ := he
      rcases records r' hr' with hr' | rfl
      · refine Or.inl (Or.inl (Or.inl ?_))
        simp only [List.mem_flatMap]
        exact ⟨f, ⟨r', hr', hf⟩, he⟩
      · exact Or.inr (hcl e (List.mem_flatMap.mpr ⟨f, hf, he⟩))
    · exact Or.inl (Or.inl (Or.inr he))
    · exact Or.inl (Or.inr he)
  · obtain ⟨r', hr', hn⟩ := List.mem_flatMap.mp hn
    rcases records r' hr' with hr' | rfl
    · exact Or.inl (List.mem_flatMap.mpr ⟨r', hr', hn⟩)
    · rw [himp] at hn
      obtain ⟨p, hp, rfl⟩ := List.mem_map.mp hn
      exact Or.inr (hi p hp)
  · rw [memberTypes, unions] at hn
    exact Or.inl hn

theorem Holds.addDeclaration {done : List SchemaType} {m m' : Model} {t : SchemaType}
    (h : Holds c done m) (hi : ∀ n ∈ t.implements, c.Names ⟨n.2.text, .interface⟩)
    (hm : ∀ n ∈ t.members, ∃ kind ∈ composite, c.Names ⟨n.2.text, kind⟩)
    (hadd : addDeclaration c m t = .ok m') : Holds c (done ++ [t]) m' := by
  cases adds_of_addDeclaration hadd with
  | scalar hk =>
    refine h.add .scalar (by rw [hk]; rfl) (fun k ↦ ?_) (fun e he ↦ Or.inl he)
      (fun n hn ↦ Or.inl hn) fun n hn ↦ Or.inl hn
    cases k <;> simp [Model.names]
  | enum hk =>
    refine h.add .enum (by rw [hk]; rfl) (fun k ↦ ?_) (fun e he ↦ Or.inl he)
      (fun n hn ↦ Or.inl hn) fun n hn ↦ Or.inl hn
    cases k <;> simp [Model.names]
  | @wrapper members hk hw hmem =>
    refine h.add .union (by rw [hk, Context.namedKind, if_pos hw]) (fun k ↦ ?_)
      (fun e he ↦ Or.inl he) (fun n hn ↦ Or.inl hn) fun n hn ↦ ?_
    · cases k <;> simp [Model.names]
    · simp only [memberTypes, List.flatMap_append, List.map_append, List.mem_append] at hn ⊢
      refine hn.imp id fun hn ↦ ?_
      obtain ⟨u, hu, rfl⟩ : ∃ u ∈ members, u.typeName = n := by simpa using hn
      obtain ⟨f, -, hok⟩ := exists_ok_of_mem_mapM hmem u hu
      exact names_of_wrapperMember hok
  | object hk hw hr =>
    refine h.addRecord .object (by rw [hk, Context.namedKind, hw]; rfl) hr hi
      (fun k ↦ ?_) (fun r' hr' ↦ ?_) rfl rfl rfl
    · cases k <;> simp [Model.names]
    · simp only [records, List.mem_append, List.mem_singleton] at hr' ⊢
      tauto
  | interface hk hr =>
    refine h.addRecord .interface (by rw [hk]; rfl) hr hi
      (fun k ↦ ?_) (fun r' hr' ↦ ?_) rfl rfl rfl
    · cases k <;> simp [Model.names]
    · simp only [records, List.mem_append, List.mem_singleton] at hr' ⊢
      tauto
  | @input fs hk hfs =>
    refine h.add .input (by rw [hk]; rfl) (fun k ↦ ?_) (fun e he ↦ ?_)
      (fun n hn ↦ Or.inl hn) fun n hn ↦ Or.inl hn
    · cases k <;> simp [Model.names]
    · simp only [Model.types, records, List.flatMap_append, List.mem_append] at he ⊢
      rcases he with (he | he | he) | he
      · exact Or.inl (Or.inl (Or.inl he))
      · exact Or.inl (Or.inl (Or.inr he))
      · obtain ⟨f, hf, he⟩ : ∃ f ∈ fs, e ∈ f.types := by simpa using he
        obtain ⟨p, -, hok⟩ := exists_ok_of_mem_mapM hfs f hf
        exact Or.inr (closed_of_inputField hok e he)
      · exact Or.inl (Or.inr he)
  | union hk =>
    refine h.add .union (by rw [hk]; rfl) (fun k ↦ ?_) (fun e he ↦ Or.inl he)
      (fun n hn ↦ Or.inl hn) fun n hn ↦ ?_
    · cases k <;> simp [Model.names]
    · simp only [memberTypes, List.flatMap_append, List.map_append, List.mem_append] at hn ⊢
      refine hn.imp id fun hn ↦ ?_
      obtain ⟨p, hp, rfl⟩ : ∃ p ∈ t.members, p.2.text = n := by simpa using hn
      exact hm p hp

theorem closed_of_operation {kind : Sdl.OperationKind} {root : SchemaType} {o : Operation}
    (h : operation c kind root = .ok o) :
    o.typeName = root.name ∧ ∀ e ∈ o.fields.flatMap OperationField.types, c.Closed e := by
  obtain ⟨fs, hfs, h⟩ := (bind_eq_ok_iff _ _ _).mp h
  cases h
  refine ⟨rfl, fun e he ↦ closed_of_fields hfs e ?_⟩
  simpa [operationField, OperationField.types, Field.types] using he

theorem closed_of_operations {os : List Operation} (h : operations c = .ok os) :
    ∀ e ∈ (os.flatMap (·.fields)).flatMap OperationField.types, c.Closed e := by
  intro e he
  simp only [List.mem_flatMap] at he
  obtain ⟨f, ⟨o, ho, hf⟩, he⟩ := he
  obtain ⟨p, -, hok⟩ := exists_ok_of_mem_mapM h o ho
  exact (closed_of_operation hok).2 e (List.mem_flatMap.mpr ⟨f, hf, he⟩)

theorem exists_operation {os : List Operation} (h : operations c = .ok os)
    {kind : Sdl.OperationKind} {root : SchemaType} (hroot : c.schema.root? kind = some root) :
    ∃ o ∈ os, o.typeName = root.name := by
  have hmem : (kind, root) ∈ Sdl.OperationKind.all.filterMap fun kind ↦
      (c.schema.root? kind).map fun root ↦ (kind, root) := by
    refine List.mem_filterMap.mpr ⟨kind, by cases kind <;> simp [Sdl.OperationKind.all], ?_⟩
    rw [hroot, Option.map_some]
  obtain ⟨o, ho, hok⟩ := exists_ok_of_mapM_of_mem h _ hmem
  exact ⟨o, ho, (closed_of_operation hok).1⟩

theorem map_replaceFirst {α β : Type} (f : α → β) (p : α → Bool) (new : α) (as : List α)
    (h : ∀ a, as.find? p = some a → f new = f a) : (replaceFirst p new as).map f = as.map f := by
  induction as with
  | nil => rfl
  | cons a as ih =>
    rw [replaceFirst]
    split
    next hp => simp [h a (by simp [hp])]
    next hp => rw [List.map_cons, List.map_cons, ih fun b hb ↦ h b (by simp [hp, hb])]

theorem withoutAliases_of_addAlias {canonical older : String} {ordinal : Nat} {e e' : EnumType}
    (h : addAlias canonical ordinal e older = .ok e') : e'.withoutAliases = e.withoutAliases := by
  unfold addAlias at h
  split at h
  · cases h
  · cases h
    rfl

theorem withoutAliases_of_addAliases {row : String × List String} {e e' : EnumType}
    (h : addAliases e row = .ok e') : e'.withoutAliases = e.withoutAliases := by
  unfold addAliases at h
  split at h
  · cases h
  · exact foldlM_preserves (fun _ a ↦ a.withoutAliases = e.withoutAliases)
      (fun _ _ _ _ hb hs ↦ (withoutAliases_of_addAlias hs).trans hb) [] h rfl

/-- The tables change no declaration but the aliases of an enum. -/
theorem applyAliases_eq {tables : Tables} {m m' : Model} (h : applyAliases tables m = .ok m') :
    ∃ enums, enums.map EnumType.withoutAliases = m.enums.map EnumType.withoutAliases ∧
      m' = { m with enums } := by
  unfold applyAliases at h
  split at h
  · cases h
    exact ⟨m.enums, rfl, rfl⟩
  · split at h
    · cases h
    next e he =>
      obtain ⟨e', hfold, h⟩ := (bind_eq_ok_iff _ _ _).mp h
      cases h
      have hsame : e'.withoutAliases = e.withoutAliases :=
        foldlM_preserves (fun _ a ↦ a.withoutAliases = e.withoutAliases)
          (fun _ _ _ _ hb hs ↦ (withoutAliases_of_addAliases hs).trans hb) [] hfold rfl
      refine ⟨_, map_replaceFirst _ _ _ _ fun a ha ↦ ?_, rfl⟩
      rw [Model.enum?, ha, Option.some_inj] at he
      rw [hsame, he]

theorem map_eq_of_withoutAliases {α : Type} {enums enums' : List EnumType}
    (h : enums.map EnumType.withoutAliases = enums'.map EnumType.withoutAliases) (f : EnumType → α)
    (hf : ∀ e, f e.withoutAliases = f e) : enums.map f = enums'.map f := by
  have hmap := congrArg (List.map f) h
  rw [List.map_map, List.map_map] at hmap
  have hcomp : f ∘ EnumType.withoutAliases = f := funext hf
  rwa [hcomp] at hmap

theorem applyDefaults_eq {tables : Tables} {m m' : Model} (h : applyDefaults tables m = .ok m') :
    ∃ platformDefaults, m' = { m with platformDefaults } := by
  obtain ⟨rows, -, h⟩ := (bind_eq_ok_iff _ _ _).mp h
  cases h
  exact ⟨_, rfl⟩

theorem names_of_refers {name : String} {kind : TypeKind} (hk : kind ≠ .scalar)
    (h : Refers c.schema.types name kind) : c.Names ⟨name, c.namedKind name kind⟩ := by
  cases h with
  | builtin => exact absurd rfl hk
  | @declared t ht => exact ⟨t, ht, rfl, rfl⟩

theorem namedKind_object_mem (name : String) : c.namedKind name .object ∈ composite := by
  by_cases h : c.wrappers.contains name
  · simp only [Context.namedKind, if_pos h, composite]
    decide
  · simp only [Context.namedKind, if_neg h, composite]
    decide

/-- A built model holds the types that the schema does not leave out, and its operations. -/
theorem holds_of_build {loaded : LoadedSchema} {tables : Tables} {m : Model}
    (hi : ∀ t ∈ loaded.schema.types, ∀ n ∈ t.implements,
      Refers loaded.schema.types n.2.text .interface)
    (hm : ∀ t ∈ loaded.schema.types, ∀ n ∈ t.members, Refers loaded.schema.types n.2.text .object)
    (h : Model.build loaded tables = .ok m) :
    ∃ c : Context, c.loaded = loaded ∧ Holds c (c.schema.types.filter (isDeclared c)) m ∧
      operations c = .ok m.operations := by
  obtain ⟨wrappers, -, h⟩ := (bind_eq_ok_iff _ _ _).mp h
  obtain ⟨declared, hfold, h⟩ := (bind_eq_ok_iff _ _ _).mp h
  obtain ⟨os, hos, h⟩ := (bind_eq_ok_iff _ _ _).mp h
  obtain ⟨aliased, ha, h⟩ := (bind_eq_ok_iff _ _ _).mp h
  obtain ⟨defaulted, hd, h⟩ := (bind_eq_ok_iff _ _ _).mp h
  obtain ⟨_, -, h⟩ := (bind_eq_ok_iff _ _ _).mp h
  cases h
  obtain ⟨enums, henums, rfl⟩ := applyAliases_eq ha
  obtain ⟨platformDefaults, rfl⟩ := applyDefaults_eq hd
  have hnames : enums.map (·.name) = declared.enums.map (·.name) :=
    map_eq_of_withoutAliases henums _ fun _ ↦ rfl
  refine ⟨⟨loaded, wrappers⟩, rfl, ?_, hos⟩
  -- The invariant holds for the types added so far; the tables then rename nothing.
  have hstep := foldlM_preserves (fun done m ↦ (∀ t ∈ done, t ∈ loaded.schema.types) →
      Holds ⟨loaded, wrappers⟩ done m)
    (fun done t m m' hdone hadd hall ↦ by
      have ht : t ∈ loaded.schema.types := hall t (by simp)
      have hbefore := hdone fun t' ht' ↦ hall t' (by simp [ht'])
      refine hbefore.addDeclaration (fun n hn ↦ ?_) (fun n hn ↦ ?_) hadd
      · exact names_of_refers (c := ⟨loaded, wrappers⟩) (by decide) (hi t ht n hn)
      · exact ⟨_, namedKind_object_mem n.2.text,
          names_of_refers (c := ⟨loaded, wrappers⟩) (by decide) (hm t ht n hn)⟩)
    [] hfold fun _ ↦ holds_empty _
  have hdeclared : Holds ⟨loaded, wrappers⟩ _ declared :=
    hstep fun t ht ↦ (List.mem_filter.mp ht).1
  rw [List.nil_append] at hdeclared
  refine ⟨fun kind ↦ ?_, fun e he ↦ ?_, hdeclared.implements, hdeclared.members⟩
  · rw [← hdeclared.names]
    cases kind <;> simp [Model.names, hnames]
  · simp only [Model.types, List.mem_append] at he
    rcases he with he | he
    · exact hdeclared.types e (by simp only [Model.types, List.mem_append]; exact Or.inl he)
    · exact closed_of_operations hos e he

theorem isDeclared_iff (t : SchemaType) : isDeclared c t ↔ ¬ c.schema.LeavesOut t.name := by
  simp only [isDeclared, Schema.LeavesOut, Bool.and_eq_true, Bool.not_eq_true',
    ← Bool.not_eq_true, List.isPrefixOf_iff_prefix, not_or]

theorem Holds.names_nodup {done : List SchemaType} {m : Model} {kinds : List NamedKind}
    (h : Holds c done m) (hn : (done.map (·.name)).Nodup) (hkinds : kinds.Nodup) :
    (kinds.flatMap m.names).Nodup := by
  refine List.nodup_flatMap.mpr ⟨fun kind _ ↦ ?_, ?_⟩
  · rw [h.names]
    exact hn.sublist (List.filter_sublist.map _)
  · refine hkinds.imp_of_mem fun {k k'} _ _ hne name hname hname' ↦ hne ?_
    rw [h.names] at hname hname'
    obtain ⟨u, hu, rfl⟩ := List.mem_map.mp hname
    obtain ⟨u', hu', he⟩ := List.mem_map.mp hname'
    obtain ⟨hmem, hku⟩ := List.mem_filter.mp hu
    obtain ⟨hmem', hku'⟩ := List.mem_filter.mp hu'
    obtain rfl := List.inj_on_of_nodup_map hn hmem' hmem he
    exact (of_decide_eq_true hku).symm.trans (of_decide_eq_true hku')

theorem Holds.count_eq_one {done : List SchemaType} {m : Model} {kinds : List NamedKind}
    {t : SchemaType} (h : Holds c done m) (hn : (done.map (·.name)).Nodup) (hkinds : kinds.Nodup)
    (ht : t ∈ done) (hk : c.namedKind t.name t.kind ∈ kinds) :
    (kinds.flatMap m.names).count t.name = 1 := by
  refine List.count_eq_one_of_mem (h.names_nodup hn hkinds) (List.mem_flatMap.mpr ⟨_, hk, ?_⟩)
  rw [h.names]
  exact List.mem_map.mpr ⟨t, List.mem_filter.mpr ⟨ht, by simp⟩, rfl⟩

theorem lookup_of_mem {α β : Type} [BEq α] [LawfulBEq α] {pairs : List (α × β)} {a : α} {b : β}
    (hn : (pairs.map (·.1)).Nodup) (h : (a, b) ∈ pairs) : pairs.lookup a = some b := by
  induction pairs with
  | nil => simp at h
  | cons p pairs ih =>
    obtain ⟨hnew, hn⟩ := List.nodup_cons.mp hn
    rcases List.mem_cons.mp h with rfl | h
    · exact List.lookup_cons_self
    · have hne : (a == p.1) = false := by
        refine beq_false_of_ne ?_
        rintro rfl
        exact hnew (List.mem_map.mpr ⟨_, h, rfl⟩)
      rw [List.lookup_cons, hne]
      exact ih hn h

theorem exists_root?_eq_some {s : Schema} {t : SchemaType} (hn : (s.types.map (·.name)).Nodup)
    (hroots : (s.roots.map (·.1)).Nodup) (ht : t ∈ s.types) (h : s.isRoot t.name = true) :
    ∃ o, s.root? o = some t := by
  obtain ⟨⟨o, root⟩, hmem, he⟩ := List.any_eq_true.mp h
  obtain rfl : root = t.name := by simpa using he
  have hlookup := lookup_of_mem hroots hmem
  have htype : s.type? t.name = some t := (findType?_eq_some_iff hn _ _).mpr ⟨ht, rfl⟩
  exact ⟨o, by rw [Schema.root?, hlookup, Option.bind_some, htype]⟩

theorem Holds.resolves {m : Model} {kinds : List NamedKind} {name : String} {kind : NamedKind}
    (h : Holds c (c.schema.types.filter (isDeclared c)) m) (hos : operations c = .ok m.operations)
    (hn : (c.schema.types.map (·.name)).Nodup) (hroots : (c.schema.roots.map (·.1)).Nodup)
    (hkinds : kinds.Nodup) (hk : kind ∈ kinds) (hname : c.Names ⟨name, kind⟩) :
    m.Resolves c.schema kinds name := by
  obtain ⟨t, ht, rfl, rfl⟩ := hname
  refine ⟨fun hleft ↦ ?_, fun hleft k hmem ↦ ?_, fun hroot ↦ ?_⟩
  · exact h.count_eq_one (hn.sublist (List.filter_sublist.map _)) hkinds
      (List.mem_filter.mpr ⟨ht, (isDeclared_iff t).mpr hleft⟩) hk
  · rw [h.names] at hmem
    obtain ⟨u, hu, he⟩ := List.mem_map.mp hmem
    have hd := (isDeclared_iff u).mp (List.mem_filter.mp (List.mem_filter.mp hu).1).2
    rw [he] at hd
    exact hd hleft
  · obtain ⟨o, hroot⟩ := exists_root?_eq_some hn hroots ht hroot
    exact exists_operation hos hroot

end Model.Build

theorem exists_wellFormed_of_load {sources : Sources} {loaded : LoadedSchema}
    (h : Schema.load sources = .ok loaded) :
    ∃ definitions, WellFormed definitions ∧ loaded.schema.types = Merge.merged definitions ∧
      loaded.schema.roots =
        (Merge.roots (Merge.merged definitions) (Merge.schemaParts definitions)).roots := by
  have hloaded := loaded_of_load h
  exact ⟨_, hloaded.wellFormed, hloaded.types_eq, hloaded.roots_eq⟩

theorem sublist_map_filterMap {α β : Type} {f : α → Option β} {key : β → α}
    (h : ∀ a b, f a = some b → key b = a) (as : List α) :
    ((as.filterMap f).map key).Sublist as := by
  induction as with
  | nil => exact .refl _
  | cons a as ih =>
    cases hf : f a with
    | none => simpa [hf] using ih.cons a
    | some b =>
      rw [List.filterMap_cons_some hf, List.map_cons, h a b hf]
      exact ih.cons_cons a

theorem Merge.exists_roots_eq (types : List SchemaType) (parts : List Merge.SchemaPart) :
    ∃ f : Sdl.OperationKind → Option String, (Merge.roots types parts).roots =
      Sdl.OperationKind.all.filterMap fun kind ↦ (f kind).map fun name ↦ (kind, name) := by
  unfold Merge.roots
  split
  · refine ⟨fun kind ↦
      if (findType? types kind.defaultTypeName).map SchemaType.kind = some .object then
        some kind.defaultTypeName
      else
        none, List.filterMap_congr fun kind _ ↦ ?_⟩
    dsimp only
    cases (findType? types kind.defaultTypeName).map SchemaType.kind with
    | none => rfl
    | some k => cases k <;> rfl
  · exact ⟨fun kind ↦ (parts.foldl (RootScan.addPart types) ⟨none, [], []⟩).roots.lookup kind, rfl⟩

theorem Merge.nodup_roots (types : List SchemaType) (parts : List Merge.SchemaPart) :
    ((Merge.roots types parts).roots.map (·.1)).Nodup := by
  obtain ⟨f, hf⟩ := Merge.exists_roots_eq types parts
  have hsub : ((Merge.roots types parts).roots.map (·.1)).Sublist Sdl.OperationKind.all := by
    rw [hf]
    refine sublist_map_filterMap (fun kind p hp ↦ ?_) _
    obtain ⟨name, -, rfl⟩ := Option.map_eq_some_iff.mp hp
    rfl
  exact hsub.nodup (by decide)

open Model.Build in
/-- What a model refers to is declared exactly once, among the declarations of its kind, but for the
types that the schema leaves out of the model. -/
theorem Model.resolves_of_load_of_build {sources : Sources} {loaded : LoadedSchema}
    {tables : Tables} {m : Model} (hload : Schema.load sources = .ok loaded)
    (hbuild : Model.build loaded tables = .ok m) :
    (∀ r ∈ m.references, m.Resolves loaded.schema [r.kind] r.name) ∧
      ∀ name ∈ m.memberTypes, m.Resolves loaded.schema [.object, .interface, .union] name := by
  obtain ⟨definitions, hwf, htypes, hroots⟩ := exists_wellFormed_of_load hload
  have hn : (loaded.schema.types.map (·.name)).Nodup := by
    rw [htypes, names_merged]
    exact hwf.names_nodup
  have hr : (loaded.schema.roots.map (·.1)).Nodup := hroots ▸ Merge.nodup_roots _ _
  have hwell := hwf.types
  rw [← htypes] at hwell
  obtain ⟨c, rfl, hholds, hos⟩ := holds_of_build
    (fun t ht ↦ (hwell t ht).implements_interfaces) (fun t ht ↦ (hwell t ht).members_objects) hbuild
  constructor
  · intro r hr'
    refine hholds.resolves hos hn hr (by simp) (List.mem_singleton_self _) ?_
    rcases List.mem_append.mp hr' with hr' | hr'
    · obtain ⟨e, he, hnamed⟩ := List.mem_filterMap.mp hr'
      exact hholds.types e he r hnamed
    · obtain ⟨n, hmem, rfl⟩ := List.mem_map.mp hr'
      exact hholds.implements n hmem
  · intro name hname
    obtain ⟨kind, hkind, hnames⟩ := hholds.members name hname
    exact hholds.resolves hos hn hr (by decide) hkind hnames

def selfSources : Sources :=
  [.ofText "query.graphql" "type Query \x7b self: Query \x7d"]

/-- The type of an operation may be referred to and has no declaration. -/
theorem Model.exists_undeclared_reference :
    ∃ loaded m, Schema.load selfSources = .ok loaded ∧ Model.build loaded .empty = .ok m ∧
      ∃ r ∈ m.references, (m.names r.kind).count r.name ≠ 1 := by
  have hrun : Attempt.succeeds (Schema.load selfSources) (fun loaded ↦
      Attempt.succeeds (Model.build loaded .empty) fun m ↦
        m.references.any fun r ↦ (m.names r.kind).count r.name != 1) = true := by decide +kernel
  obtain ⟨loaded, hload, hrun⟩ := (Attempt.succeeds_iff _ _).mp hrun
  obtain ⟨m, hbuild, hany⟩ := (Attempt.succeeds_iff _ _).mp hrun
  obtain ⟨r, hr, hcount⟩ := List.any_eq_true.mp hany
  exact ⟨loaded, m, hload, hbuild, r, hr, by simpa using hcount⟩

def librarySources : Sources :=
  [.ofText "query.graphql" "type Query \x7b find(by: Filter): [Item!] \x7d\n# => Union\ntype Item \x7b book: Book author: Author \x7d",
    .ofText "items.graphql"
      "interface Node \x7b root: Query! \x7d type Book implements Node \x7b root: Query! \x7d type Author \x7b books: Any \x7d input Filter \x7b name: String \x7d union Any = Book | Author"]

theorem Model.libraryModel_resolves :
    ∃ loaded m, Schema.load librarySources = .ok loaded ∧ Model.build loaded .empty = .ok m ∧
      m.references = [⟨"Query", .object⟩, ⟨"Any", .union⟩, ⟨"Query", .object⟩, ⟨"Item", .union⟩,
        ⟨"Filter", .input⟩, ⟨"Node", .interface⟩] ∧
      m.memberTypes = ["Book", "Author", "Book", "Author"] ∧
      (∀ r ∈ m.references, m.Resolves loaded.schema [r.kind] r.name) ∧
      ∀ name ∈ m.memberTypes, m.Resolves loaded.schema [.object, .interface, .union] name := by
  have hrun : Attempt.succeeds (Schema.load librarySources) (fun loaded ↦
      Attempt.succeeds (Model.build loaded .empty) fun m ↦
        m.references = [⟨"Query", .object⟩, ⟨"Any", .union⟩, ⟨"Query", .object⟩, ⟨"Item", .union⟩,
          ⟨"Filter", .input⟩, ⟨"Node", .interface⟩] ∧
        m.memberTypes = ["Book", "Author", "Book", "Author"]) = true := by decide +kernel
  obtain ⟨loaded, hload, hrun⟩ := (Attempt.succeeds_iff _ _).mp hrun
  obtain ⟨m, hbuild, hm⟩ := (Attempt.succeeds_iff _ _).mp hrun
  obtain ⟨hreferences, hmembers⟩ := of_decide_eq_true hm
  obtain ⟨hr, hn⟩ := resolves_of_load_of_build hload hbuild
  exact ⟨loaded, m, hload, hbuild, hreferences, hmembers, hr, hn⟩

end SchemaBindings
