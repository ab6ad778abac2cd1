import SchemaBindings.Proofs.Model.Faults
import SchemaBindings.Proofs.Model.References
import SchemaBindings.Proofs.Schema.Annotations

namespace SchemaBindings

open Sdl Model Model.Build Attempt

def IsReserved (name : String) : Prop :=
  "__".toList <+: name.toList

/-- The declaration can be marked as a union: it is an object type that offers no operation. -/
def Schema.CanMark (s : Schema) (d : Declaration) : Prop :=
  ¬ d.item.IsMember ∧ s.CanWrap d.owner

/-- The build does not look at the markers of a member: its type is no part of the model, or is
itself marked as a union. A type that offers an operation has all its fields looked at. -/
def LoadedSchema.PassesOver (s : LoadedSchema) (d : Declaration) : Prop :=
  d.item.IsMember ∧ ¬ s.schema.isRoot d.owner.name ∧
    (IsReserved d.owner.name ∨ d.owner.kind = .object ∧ s.isMarked d.owner)

section Refusals

variable {c : Context} {t : SchemaType}

theorem refuseUnionMarker_eq_error {file offset : Nat} {span : Span} {target : String}
    (h : c.hasMarker file offset .union = true) :
    c.refuseUnionMarker file offset span target =
      .error (.unsupportedMarker .union target (span.inFile file)) :=
  if_pos h

theorem refusal_mem_fieldFaults {p : Nat × FieldDefinition} (hp : p ∈ t.fields)
    (h : c.hasMarker p.1 p.2.start .union = true) :
    c.schema.refusal ⟨t, p.1, .field p.2⟩ ∈ fieldFaults c t := by
  refine List.mem_filterMap.mpr ⟨p, hp, ?_⟩
  rw [field, error?_bind, refuseUnionMarker_eq_error h]
  rfl

theorem refusal_mem_memberFaults_of_field {p : Nat × FieldDefinition} (hp : p ∈ t.fields)
    (hkind : t.kind = .object ∨ t.kind = .interface)
    (hwrap : ¬ (t.kind = .object ∧ c.wrappers.contains t.name))
    (h : c.hasMarker p.1 p.2.start .union = true) :
    c.schema.refusal ⟨t, p.1, .field p.2⟩ ∈ memberFaults c t := by
  have hfield := refusal_mem_fieldFaults hp h
  unfold memberFaults
  rcases hkind with hk | hk
  · simp only [hk]
    rwa [if_neg fun hw ↦ hwrap ⟨hk, hw⟩]
  · simpa only [hk] using hfield

theorem refusal_mem_memberFaults_of_inputField {p : Nat × InputValueDefinition}
    (hp : p ∈ t.inputFields) (hkind : t.kind = .inputObject)
    (h : c.hasMarker p.1 p.2.start .union = true) :
    c.schema.refusal ⟨t, p.1, .inputField p.2⟩ ∈ memberFaults c t := by
  unfold memberFaults
  simp only [hkind]
  refine List.mem_filterMap.mpr ⟨p, hp, ?_⟩
  rw [inputField, error?_bind, refuseUnionMarker_eq_error h]
  rfl

theorem refusal_mem_memberFaults_of_value {p : Nat × EnumValueDefinition} (hp : p ∈ t.values)
    (hkind : t.kind = .enum) (h : c.hasMarker p.1 p.2.start .union = true) :
    c.schema.refusal ⟨t, p.1, .value p.2⟩ ∈ memberFaults c t := by
  obtain ⟨i, hi⟩ : ∃ i, (p, i) ∈ t.values.zipIdx := by
    obtain ⟨i, hi, rfl⟩ := List.getElem_of_mem hp
    exact ⟨i, List.mem_zipIdx_iff_getElem?.mpr (List.getElem?_eq_getElem hi)⟩
  unfold memberFaults
  simp only [hkind]
  refine List.mem_filterMap.mpr ⟨(p, i), hi, ?_⟩
  rw [enumValue, error?_bind, refuseUnionMarker_eq_error h]
  rfl

end Refusals

section Marked

variable {sources : Sources} {s : LoadedSchema} {t : SchemaType} {d : Declaration} {m : Marker}

theorem Loaded.wrappers_contains_iff (h : Loaded sources s) (ht : t ∈ s.schema.types) :
    s.context.wrappers.contains t.name = true ↔ s.isMarked t = true := by
  rw [List.contains_iff_mem]
  constructor
  · intro hw
    obtain ⟨u, hu, hname⟩ := List.mem_map.mp hw
    obtain ⟨hmem, hmarked⟩ := List.mem_filter.mp hu
    rwa [List.inj_on_of_nodup_map h.names_nodup hmem ht hname] at hmarked
  · exact fun hmarked ↦ List.mem_map.mpr ⟨t, List.mem_filter.mpr ⟨ht, hmarked⟩, rfl⟩

theorem hasMarker_of_mem_markersOf (hm : m ∈ s.markersOf d) (hk : m.kind = .union) :
    s.context.hasMarker d.file d.start .union = true :=
  List.any_eq_true.mpr ⟨m, hm, by simp [hk]⟩

theorem Loaded.mem_rootTypes (h : Loaded sources s) (ht : t ∈ s.schema.types)
    (hroot : s.schema.isRoot t.name = true) : t ∈ rootTypes s.schema := by
  have hroots : (s.schema.roots.map (·.1)).Nodup := h.roots_eq ▸ Merge.nodup_roots _ _
  obtain ⟨o, ho⟩ := exists_root?_eq_some h.names_nodup hroots ht hroot
  exact List.mem_filterMap.mpr ⟨o, by cases o <;> simp [Sdl.OperationKind.all], ho⟩

theorem mem_faults_of_mem_memberFaults {e : BuildError} (ht : t ∈ s.schema.types)
    (hleft : ¬ s.schema.LeavesOut t.name) (he : e ∈ memberFaults s.context t) : e ∈ faults s := by
  refine List.mem_append_right _ (List.mem_append_left _ (List.mem_flatMap.mpr ⟨t, ?_, he⟩))
  exact List.mem_filter.mpr ⟨ht, (isDeclared_iff t).mpr hleft⟩

theorem Loaded.refusal_mem_of_isMember (h : Loaded sources s) (hd : d ∈ s.schema.declared)
    (hmember : d.item.IsMember) (hlook : ¬ s.PassesOver d)
    (hmark : s.context.hasMarker d.file d.start .union = true) :
    s.schema.refusal d ∈ faults s := by
  obtain ⟨t, ht, hdt⟩ := List.mem_flatMap.mp hd
  have hdeclared (howner : d.owner = t) (hroot : ¬ s.schema.isRoot t.name = true)
      (hmem : s.schema.refusal d ∈ memberFaults s.context t) : s.schema.refusal d ∈ faults s := by
    refine mem_faults_of_mem_memberFaults ht (not_or.mpr ⟨fun hreserved ↦ ?_, hroot⟩) hmem
    subst howner
    exact hlook ⟨hmember, hroot, Or.inl hreserved⟩
  have hother (hkind : t.kind ≠ .object) : ¬ s.schema.isRoot t.name = true :=
    fun hroot ↦ hkind (h.kind_of_isRoot ht hroot)
  rcases (t.mem_declared_iff d).mp hdt with rfl | ⟨p, hp, rfl⟩ | ⟨p, hp, rfl⟩ | ⟨p, hp, rfl⟩
  · exact hmember.elim
  · by_cases hroot : s.schema.isRoot t.name = true
    · refine List.mem_append_right _ (List.mem_append_right _ ?_)
      exact List.mem_flatMap.mpr ⟨t, h.mem_rootTypes ht hroot, refusal_mem_fieldFaults hp hmark⟩
    · refine hdeclared rfl hroot (refusal_mem_memberFaults_of_field hp
        (h.kind_of_mem_fields ht hp) (fun hw ↦ ?_) hmark)
      have hmarked := (h.wrappers_contains_iff ht).mp hw.2
      exact hlook ⟨hmember, hroot, Or.inr ⟨hw.1, hmarked⟩⟩
  · have hk := h.kind_of_mem_inputFields ht hp
    exact hdeclared rfl (hother (by simp [hk]))
      (refusal_mem_memberFaults_of_inputField hp hk hmark)
  · have hk := h.kind_of_mem_values ht hp
    exact hdeclared rfl (hother (by simp [hk])) (refusal_mem_memberFaults_of_value hp hk hmark)

theorem Loaded.refusal_mem_of_not_canMark (h : Loaded sources s) (hd : d ∈ s.schema.declared)
    (hlook : ¬ s.PassesOver d) (hcan : ¬ s.schema.CanMark d)
    (hmark : s.context.hasMarker d.file d.start .union = true) :
    s.schema.refusal d ∈ faults s := by
  by_cases hmember : d.item.IsMember
  · exact h.refusal_mem_of_isMember hd hmember hlook hmark
  · obtain ⟨t, ht, hdt⟩ := List.mem_flatMap.mp hd
    obtain rfl := SchemaType.eq_itself_of_mem_declared hdt hmember
    refine List.mem_append_left _ (List.mem_filterMap.mpr ⟨t, ?_, ?_⟩)
    · exact List.mem_filter.mpr ⟨ht, hmark⟩
    · exact if_neg fun hwrap ↦ hcan ⟨hmember, hwrap⟩

end Marked

section Build

/-- A built model holds the declared types, of which the tables change the aliases of enums only. -/
structure BuiltFrom (s : LoadedSchema) (declared m : Model) : Prop where
  declared_eq : declareAll s = .ok declared
  operations_eq : operations s.context = .ok m.operations
  enums_eq : m.enums.map EnumType.withoutAliases = declared.enums.map EnumType.withoutAliases
  model_eq : m = { declared with
    operations := m.operations, enums := m.enums, platformDefaults := m.platformDefaults }

theorem exists_builtFrom {s : LoadedSchema} {tables : Tables} {m : Model}
    (h : Model.build s tables = .ok m) : ∃ declared, BuiltFrom s declared m := by
  rw [build_eq (List.append_eq_nil_iff.mp (faults_eq_nil h)).1] at h
  obtain ⟨declared, hdeclared, h⟩ := (bind_eq_ok_iff _ _ _).mp h
  obtain ⟨os, hos, h⟩ := (bind_eq_ok_iff _ _ _).mp h
  obtain ⟨aliased, ha, h⟩ := (bind_eq_ok_iff _ _ _).mp h
  obtain ⟨defaulted, hd, h⟩ := (bind_eq_ok_iff _ _ _).mp h
  obtain ⟨_, -, h⟩ := (bind_eq_ok_iff _ _ _).mp h
  cases h
  obtain ⟨enums, henums, rfl⟩ := applyAliases_eq ha
  obtain ⟨platformDefaults, rfl⟩ := applyDefaults_eq hd
  exact ⟨declared, hdeclared, hos, henums, rfl⟩

end Build

section Unions

variable {c : Context} {t : SchemaType} {m m' : Model}

def Model.Wraps (m : Model) (t : SchemaType) : Prop :=
  ∃ u ∈ m.unions, u.name = t.name ∧ u.kind = .wrapper

theorem exists_unions_addDeclaration (h : addDeclaration c m t = .ok m') : ∃ added,
    m'.unions = m.unions ++ added ∧
      (t.kind = .object → c.wrappers.contains t.name →
        ∃ u ∈ added, u.name = t.name ∧ u.kind = .wrapper) ∧
      ∀ u ∈ added, u.kind = .native → ∀ member ∈ u.members, member.typeName = member.name := by
  cases adds_of_addDeclaration h with
  | scalar hk | enum hk | interface hk | input hk =>
    exact ⟨[], (List.append_nil _).symm, fun hobject ↦ absurd (hk.symm.trans hobject) nofun, nofun⟩
  | object _ hw =>
    exact ⟨[], (List.append_nil _).symm, fun _ hw' ↦ absurd (hw.symm.trans hw') nofun, nofun⟩
  | wrapper =>
    refine ⟨_, rfl, fun _ _ ↦ ⟨_, List.mem_singleton_self _, rfl, rfl⟩, fun u hu hnative ↦ ?_⟩
    obtain rfl := List.mem_singleton.mp hu
    cases hnative
  | union hk =>
    refine ⟨_, rfl, fun hobject ↦ absurd (hk.symm.trans hobject) nofun, fun u hu _ member hmem ↦ ?_⟩
    obtain rfl := List.mem_singleton.mp hu
    obtain ⟨n, -, rfl⟩ := List.mem_map.mp hmem
    rfl

theorem wraps_of_declareAll {s : LoadedSchema} (h : declareAll s = .ok m)
    (ht : t ∈ s.schema.types.filter (isDeclared s.context)) (hkind : t.kind = .object)
    (hw : s.context.wrappers.contains t.name) : m.Wraps t := by
  have hall := foldlM_preserves (fun done (m : Model) ↦ ∀ t ∈ done, t.kind = .object →
      s.context.wrappers.contains t.name → m.Wraps t) ?_ [] h nofun
  · exact hall t ht hkind hw
  · intro done t m m' hdone hadd u hu hkind hw
    obtain ⟨added, hadded, hnew, -⟩ := exists_unions_addDeclaration hadd
    rw [Model.Wraps, hadded]
    rcases List.mem_append.mp hu with hu | hu
    · obtain ⟨v, hv, he⟩ := hdone u hu hkind hw
      exact ⟨v, List.mem_append_left _ hv, he⟩
    · obtain rfl := List.mem_singleton.mp hu
      obtain ⟨v, hv, he⟩ := hnew hkind hw
      exact ⟨v, List.mem_append_right _ hv, he⟩

theorem typeName_of_declareAll {s : LoadedSchema} (h : declareAll s = .ok m) :
    ∀ u ∈ m.unions, u.kind = .native → ∀ member ∈ u.members, member.typeName = member.name := by
  refine foldlM_preserves (fun _ (m : Model) ↦ ∀ u ∈ m.unions, u.kind = .native →
    ∀ member ∈ u.members, member.typeName = member.name) ?_ [] h nofun
  intro _ t m m' hdone hadd u hu
  obtain ⟨added, hadded, -, hnew⟩ := exists_unions_addDeclaration hadd
  rw [hadded] at hu
  exact (List.mem_append.mp hu).elim (hdone u) (hnew u)

theorem typeName_of_build {s : LoadedSchema} {tables : Tables}
    (hbuild : Model.build s tables = .ok m) :
    ∀ u ∈ m.unions, u.kind = .native → ∀ member ∈ u.members, member.typeName = member.name := by
  obtain ⟨declared, hfrom⟩ := exists_builtFrom hbuild
  rw [hfrom.model_eq]
  exact typeName_of_declareAll (m := declared) hfrom.declared_eq

theorem Loaded.wraps_of_build {sources : Sources} {s : LoadedSchema} {tables : Tables}
    (h : Loaded sources s) (hbuild : Model.build s tables = .ok m) (ht : t ∈ s.schema.types)
    (hwrap : s.schema.CanWrap t) (hmarked : s.isMarked t = true)
    (hreserved : ¬ IsReserved t.name) : m.Wraps t := by
  obtain ⟨declared, hfrom⟩ := exists_builtFrom hbuild
  have hleft : ¬ s.schema.LeavesOut t.name := not_or.mpr ⟨hreserved, hwrap.2⟩
  have hdone := List.mem_filter.mpr ⟨ht, (isDeclared_iff (c := s.context) t).mpr hleft⟩
  have hcontains := (h.wrappers_contains_iff ht).mpr hmarked
  have hwraps := wraps_of_declareAll hfrom.declared_eq hdone hwrap.1 hcontains
  rw [hfrom.model_eq]
  exact hwraps

end Unions

/-- A union marker is for a single declaration. Unless the build passes over that, it is an object
type and becomes a union if it is part of the model at all, or else the marker is a fault. The first
fault is the error that the build ends in. -/
theorem union_marker_of_load {sources : Sources} {loaded : LoadedSchema}
    (hload : Schema.load sources = .ok loaded) (tables : Tables) {mark : Marker}
    (hm : mark ∈ loaded.markers.markers) (hk : mark.kind = .union) :
    ∃ d, loaded.annotated mark = [d] ∧ (loaded.PassesOver d ∨
      (∀ m, Model.build loaded tables = .ok m → loaded.schema.CanMark d ∧
        (¬ IsReserved d.owner.name → m.Wraps d.owner)) ∧
      (¬ loaded.schema.CanMark d → loaded.schema.refusal d ∈ faults loaded ∧
        ∃ e, (faults loaded).head? = some e ∧ Model.build loaded tables = .error e)) := by
  have h := loaded_of_load hload
  obtain ⟨d, hd, hmd⟩ := h.exists_annotated hm
  have hmark := hasMarker_of_mem_markersOf hmd hk
  refine ⟨d, h.annotated_eq hd hmd, ?_⟩
  by_cases hlook : loaded.PassesOver d
  · exact Or.inl hlook
  have hrefused (hcan : ¬ loaded.schema.CanMark d) :=
    h.refusal_mem_of_not_canMark hd hlook hcan hmark
  refine Or.inr ⟨fun m hbuild ↦ ?_, fun hcan ↦ ⟨hrefused hcan, ?_⟩⟩
  · have hcan : loaded.schema.CanMark d := by
      by_contra hcan
      have hmem := hrefused hcan
      rw [faults_eq_nil hbuild] at hmem
      cases hmem
    refine ⟨hcan, fun hreserved ↦ ?_⟩
    obtain ⟨t, ht, hdt⟩ := List.mem_flatMap.mp hd
    obtain rfl := SchemaType.eq_itself_of_mem_declared hdt hcan.1
    exact h.wraps_of_build hbuild ht hcan.2 hmark hreserved
  · obtain ⟨e, es, he⟩ := List.exists_cons_of_ne_nil (List.ne_nil_of_mem (hrefused hcan))
    have hfirst : (faults loaded).head? = some e := by rw [he, List.head?_cons]
    exact ⟨e, hfirst, build_eq_error hfirst tables⟩

theorem union_marker_markedSources :
    ∃ loaded m, Schema.load markedSources = .ok loaded ∧ Model.build loaded .empty = .ok m ∧
      m.unions.map (·.name) = ["Animal"] ∧
      ⟨.union, 0, 2, 3, ⟨25, 35⟩⟩ ∈ loaded.markers.markers ∧
      ∃ d, loaded.annotated ⟨.union, 0, 2, 3, ⟨25, 35⟩⟩ = [d] ∧ (loaded.PassesOver d ∨
        (∀ m, Model.build loaded .empty = .ok m → loaded.schema.CanMark d ∧
          (¬ IsReserved d.owner.name → m.Wraps d.owner)) ∧
        (¬ loaded.schema.CanMark d → loaded.schema.refusal d ∈ faults loaded ∧
          ∃ e, (faults loaded).head? = some e ∧ Model.build loaded .empty = .error e)) := by
  have hrun : Attempt.succeeds (Schema.load markedSources) (fun s ↦
      decide (⟨.union, 0, 2, 3, ⟨25, 35⟩⟩ ∈ s.markers.markers) &&
        Attempt.succeeds (Model.build s .empty) fun m ↦
          decide (m.unions.map (·.name) = ["Animal"])) = true := by
    decide +kernel
  obtain ⟨loaded, hload, hrun⟩ := (Attempt.succeeds_iff _ _).mp hrun
  obtain ⟨hm, hrun⟩ := Bool.and_eq_true_iff.mp hrun
  obtain ⟨m, hbuild, hunions⟩ := (Attempt.succeeds_iff _ _).mp hrun
  have hm := of_decide_eq_true hm
  exact ⟨loaded, m, hload, hbuild, of_decide_eq_true hunions, hm,
    union_marker_of_load hload .empty hm rfl⟩

def reservedSources : Sources :=
  [.ofText "any.graphql" ("type Query \x7b a: A \x7d\n# => Union\n" ++
    "type __Any \x7b a: A \x7d\ntype A \x7b b: Int \x7d\n")]

/-- The build succeeds although the marked type does not become a union. -/
theorem exists_unheeded_union_marker :
    ∃ loaded m mark, Schema.load reservedSources = .ok loaded ∧
      Model.build loaded .empty = .ok m ∧ mark ∈ loaded.markers.markers ∧ mark.kind = .union ∧
      ∀ t, ¬ m.Wraps t := by
  have hrun : Attempt.succeeds (Schema.load reservedSources) (fun s ↦
      s.markers.markers.any (·.kind == .union) &&
        Attempt.succeeds (Model.build s .empty) fun m ↦ m.unions.isEmpty) = true := by
    decide +kernel
  obtain ⟨loaded, hload, hrun⟩ := (Attempt.succeeds_iff _ _).mp hrun
  obtain ⟨hm, hrun⟩ := Bool.and_eq_true_iff.mp hrun
  obtain ⟨m, hbuild, hunions⟩ := (Attempt.succeeds_iff _ _).mp hrun
  obtain ⟨mark, hmem, hk⟩ := List.any_eq_true.mp hm
  refine ⟨loaded, m, mark, hload, hbuild, hmem, by simpa using hk, ?_⟩
  rintro t ⟨u, hu, -⟩
  rw [List.isEmpty_iff.mp hunions] at hu
  cases hu

end SchemaBindings
