import SchemaBindings.Proofs.Target.ClassChains

namespace SchemaBindings

open Model Template Text

theorem exists_kind_eq_of_refers {types : List SchemaType} {name : String} {kind : Sdl.TypeKind}
    (h : Refers types name kind) (hkind : kind ≠ .scalar) :
    ∃ t ∈ types, t.name = name ∧ t.kind = kind := by
  cases h with
  | builtin => exact absurd rfl hkind
  | @declared t ht => exact ⟨t, ht, rfl, rfl⟩

section Built

variable {sources : Sources} {s : LoadedSchema} {tables : Tables} {m : Model}

theorem Loaded.notMem_names_of_leavesOut (h : Loaded sources s)
    (hbuild : Model.build s tables = .ok m) {name : String} (hleft : s.schema.LeavesOut name)
    (kind : NamedKind) : name ∉ m.names kind := by
  rw [h.mem_names_iff hbuild]
  rintro ⟨t, ht, -, rfl⟩
  exact of_decide_eq_true (List.mem_filter.mp ht).2 hleft

theorem Loaded.exists_object_of_mem_members (h : Loaded sources s)
    (hbuild : Model.build s tables = .ok m) {u : UnionType} (hu : u ∈ m.unions)
    (hnative : u.kind = .native) {member : UnionMember} (hmember : member ∈ u.members) :
    ∃ t ∈ s.schema.types, t.name = member.typeName ∧ t.kind = .object := by
  have houtline : u.outline ∈ m.outlines .union := List.mem_map_of_mem hu
  rw [h.outlines_of_build hbuild] at houtline
  obtain ⟨t, ht, heq⟩ := List.mem_map.mp houtline
  have ht : t ∈ s.schema.types := (List.mem_filter.mp (List.mem_filter.mp ht).1).1
  have hkind : t.unionKind? (s.isMarked t) = some .native :=
    (congrArg Outline.union heq).trans (congrArg some hnative)
  have hunion : t.kind = .union := by
    unfold SchemaType.unionKind? at hkind
    split at hkind
    · assumption
    · split at hkind <;> cases hkind
    all_goals cases hkind
  have hnames : t.members.map (·.2.text) = u.members.map (·.name) := by
    have hmembers := congrArg (fun o ↦ o.members.map MemberOutline.name) heq
    simp only [SchemaType.outline, SchemaType.memberOutlines, hunion, UnionType.outline,
      List.map_map] at hmembers
    exact hmembers
  have hname : member.name ∈ t.members.map (·.2.text) := hnames ▸ List.mem_map_of_mem hmember
  obtain ⟨n, hn, htext⟩ := List.mem_map.mp hname
  rw [typeName_of_build hbuild u hu hnative member hmember, ← htext]
  exact exists_kind_eq_of_refers ((h.types_wellFormed t ht).members_objects n hn) (by decide)

theorem Loaded.mem_names_of_mem_members (h : Loaded sources s)
    (hbuild : Model.build s tables = .ok m) {u : UnionType} (hu : u ∈ m.unions)
    (hnative : u.kind = .native) {member : UnionMember} (hmember : member ∈ u.members)
    (hleft : ¬ s.schema.LeavesOut member.typeName) :
    member.typeName ∈ m.names .object ∨ member.typeName ∈ m.names .union := by
  obtain ⟨t, ht, hname, hobject⟩ := h.exists_object_of_mem_members hbuild hu hnative hmember
  have hmodelled : t ∈ s.schema.modelled :=
    List.mem_filter.mpr ⟨ht, decide_eq_true (hname ▸ hleft)⟩
  rw [h.mem_names_iff hbuild, h.mem_names_iff hbuild]
  cases hmarked : s.isMarked t with
  | false => exact .inl ⟨t, hmodelled, by simp [SchemaType.modelKind, hobject, hmarked], hname⟩
  | true => exact .inr ⟨t, hmodelled, by simp [SchemaType.modelKind, hobject, hmarked], hname⟩

end Built

section Selected

variable {options : BindingOptions} {m : Model}

theorem names_selected_subset (kind : NamedKind) :
    (options.selected m).names kind ⊆ m.names kind := by
  rw [BindingOptions.selected]
  split
  · exact List.Subset.refl _
  · exact (m.names_stable_sublist kind).subset

theorem exists_union_of_mem_selected {u : UnionType} (hu : u ∈ (options.selected m).unions)
    {member : UnionMember} (hmember : member ∈ u.members) : ∃ u' ∈ m.unions,
      u'.kind = u.kind ∧ member ∈ u'.members ∧ ∀ kind, member.typeName ∈ m.names kind →
        member.typeName ∈ (options.selected m).names kind := by
  rw [BindingOptions.selected] at hu ⊢
  split at hu
  next hfuture =>
    rw [if_pos hfuture]
    exact ⟨u, hu, rfl, hmember, fun _ ↦ id⟩
  next hfuture =>
    rw [if_neg hfuture]
    have hkept := not_excludes_of_mem_unions hu member hmember
    obtain ⟨u', hu', -, rfl⟩ := (mem_unions_stable_iff u).mp hu
    refine ⟨u', hu', rfl, (List.mem_filter.mp hmember).1, fun kind hname ↦ ?_⟩
    exact mem_names_stable hname
      (not_isFuture_of_not_excludes hkept _ (List.mem_singleton_self _))

end Selected

namespace Target

theorem typeName_mem_supertypes {t : Target} {u : UnionType} (hu : u ∈ t.model.unions)
    (hnative : u.kind = .native) {member : UnionMember} (hmember : member ∈ u.members) :
    t.language.typeName u.name ∈ t.supertypes member.typeName := by
  refine List.mem_append_right _ (List.mem_map_of_mem (List.mem_filter.mpr ⟨hu, ?_⟩))
  simp only [hnative, beq_self_eq_true, Bool.true_and, List.any_eq_true, beq_iff_eq]
  exact ⟨member, hmember, rfl⟩

/-- The class of a member has the union among its supertypes. It is the only one of its name. -/
theorem bindings_members {sources : Sources} {loaded : LoadedSchema} {tables : Tables} {m : Model}
    (hload : Schema.load sources = .ok loaded) (hbuild : Model.build loaded tables = .ok m)
    {options : BindingOptions} {language : Language}
    (hl : language = .kotlin ∨ language = .dart) {file : BindingFile}
    (h : bindings options m tables language = .ok file) {u : UnionType}
    (hu : u ∈ (options.selected m).unions) (hnative : u.kind = .native) {member : UnionMember}
    (hmember : member ∈ u.members) :
    let m' := options.selected m
    let t : Target := ⟨language, m', tables⟩
    (loaded.schema.LeavesOut member.typeName → ∀ kind, member.typeName ∉ m'.names kind) ∧
      (¬ loaded.schema.LeavesOut member.typeName → member.typeName ∉ m'.names .union →
        ∃ r, m'.objects.filter (·.name = member.typeName) = [r] ∧
          language.typeName u.name ∈ t.supertypes r.name ∧
          ∃ before after, file.contents.toList = before ++ tidy (t.classLayout r) ++ after ∧
            EndsLine before) := by
  intro m' t
  have hloaded := loaded_of_load hload
  obtain ⟨u', hu', hkind, hmember', hselected⟩ := exists_union_of_mem_selected hu hmember
  refine ⟨fun hleft kind hname ↦ ?_, fun hleft hunion ↦ ?_⟩
  · exact hloaded.notMem_names_of_leavesOut hbuild hleft kind (names_selected_subset kind hname)
  · have hobject : member.typeName ∈ m'.names .object := by
      rcases hloaded.mem_names_of_mem_members hbuild hu' (hkind.trans hnative) hmember' hleft with
        hname | hname
      · exact hselected _ hname
      · exact absurd (hselected _ hname) hunion
    obtain ⟨r, hr, hname⟩ := List.mem_map.mp hobject
    have hnames : m'.HasDistinctNames := (hloaded.hasDistinctNames_of_build hbuild).selected options
    have hnodup : (m'.objects.map (·.name)).Nodup := by
      have hrecords := hnames.records
      rw [Model.records, List.map_append] at hrecords
      exact hrecords.of_append_left
    have htext : t.fileText options.toFileOptions = .ok file.contents.toList :=
      fileText_of_bindings h
    refine ⟨r, ?_, ?_, exists_class_of_fileText (hl.imp_right .inl) htext (.inl hr)⟩
    · exact filter_eq_singleton hnodup hr (by simp [hname]) fun b _ hb ↦ by simpa [hname] using hb
    · rw [hname]
      exact typeName_mem_supertypes (t := t) hu hnative hmember

def nodeSources : Sources :=
  [.ofText "node.graphql" ("type Query \x7b node: Node \x7d\n" ++
    "type Cat \x7b name: String \x7d\n" ++
    "# => Union\n" ++
    "type Choice \x7b cat: Cat \x7d\n" ++
    "union Node = Cat | Query | Choice")]

theorem bindings_members_node : ∃ loaded m file,
    Schema.load nodeSources = .ok loaded ∧ Model.build loaded .empty = .ok m ∧
      bindings ⟨anyOptions, true⟩ m .empty .kotlin = .ok file ∧
      (∃ r, m.objects.filter (·.name = "Cat") = [r] ∧
        "Node" ∈ supertypes ⟨.kotlin, m, .empty⟩ r.name ∧
        ∃ before after, file.contents.toList =
          before ++ tidy (classLayout ⟨.kotlin, m, .empty⟩ r) ++ after) ∧
      ∀ kind, "Query" ∉ m.names kind := by
  have hrun : Attempt.succeeds (Schema.load nodeSources) (fun loaded ↦
      decide (¬ loaded.schema.LeavesOut "Cat") && decide (loaded.schema.LeavesOut "Query") &&
      Attempt.succeeds (Model.build loaded .empty) fun m ↦
        Attempt.succeeds (bindings ⟨anyOptions, true⟩ m .empty .kotlin) fun _ ↦
          decide ("Cat" ∉ m.names .union) && m.unions.any fun u ↦
            decide (u.kind = .native ∧ Language.kotlin.typeName u.name = "Node") &&
              decide (u.members.map (·.typeName) = ["Cat", "Query", "Choice"])) = true := by
    decide +kernel
  obtain ⟨loaded, hload, hrun⟩ := (Attempt.succeeds_iff _ _).mp hrun
  simp only [Bool.and_eq_true, decide_eq_true_eq] at hrun
  obtain ⟨⟨hcat, hquery⟩, hrun⟩ := hrun
  obtain ⟨m, hbuild, hrun⟩ := (Attempt.succeeds_iff _ _).mp hrun
  obtain ⟨file, hfile, hrun⟩ := (Attempt.succeeds_iff _ _).mp hrun
  simp only [Bool.and_eq_true, List.any_eq_true, decide_eq_true_eq] at hrun
  obtain ⟨hunion, u, hu, ⟨hnative, hname⟩, hmembers⟩ := hrun
  obtain ⟨cat, hmemcat, hnamecat⟩ : ∃ member ∈ u.members, member.typeName = "Cat" :=
    List.mem_map.mp (by simp [hmembers])
  obtain ⟨query, hmemquery, hnamequery⟩ : ∃ member ∈ u.members, member.typeName = "Query" :=
    List.mem_map.mp (by simp [hmembers])
  have hclass := (bindings_members hload hbuild (.inl rfl) hfile hu hnative hmemcat).2
  have hnone := (bindings_members hload hbuild (.inl rfl) hfile hu hnative hmemquery).1
  rw [hnamecat, hname] at hclass
  rw [hnamequery] at hnone
  obtain ⟨r, hr, hlisted, before, after, htext, -⟩ := hclass hcat hunion
  exact ⟨loaded, m, file, hload, hbuild, hfile, ⟨r, hr, hlisted, before, after, htext⟩,
    hnone hquery⟩

/-- All members of unions but the excepted ones have a class that lists their union. -/
def ListsMembers (excepted : LoadedSchema → Model → UnionMember → Prop) : Prop :=
  ∀ (sources : Sources) (loaded : LoadedSchema) (tables : Tables) (m : Model)
    (options : BindingOptions) (language : Language) (file : BindingFile),
    Schema.load sources = .ok loaded → Model.build loaded tables = .ok m →
    language = .kotlin ∨ language = .dart → bindings options m tables language = .ok file →
    ∀ u ∈ (options.selected m).unions, u.kind = .native → ∀ member ∈ u.members,
      ¬ excepted loaded (options.selected m) member →
      ∃ r ∈ (options.selected m).objects, r.name = member.typeName ∧
        language.typeName u.name ∈ supertypes ⟨language, options.selected m, tables⟩ r.name

/-- Neither the types of operations nor those marked as unions have a class. -/
theorem not_listsMembers :
    ¬ ListsMembers (fun _ _ _ ↦ False) ∧
      ¬ ListsMembers (fun _ m member ↦ member.typeName ∈ m.names .union) ∧
      ¬ ListsMembers (fun loaded _ member ↦ loaded.schema.LeavesOut member.typeName) := by
  have hrun : Attempt.succeeds (Schema.load nodeSources) (fun loaded ↦
      Attempt.succeeds (Model.build loaded .empty) fun m ↦
        Attempt.succeeds (bindings ⟨anyOptions, true⟩ m .empty .kotlin) fun _ ↦
          m.unions.any fun u ↦ decide (u.kind = .native) &&
            (u.members.any fun member ↦ decide (member.typeName ∉ m.names .union) &&
              decide (∀ r ∈ m.objects, r.name ≠ member.typeName)) &&
            u.members.any fun member ↦ decide (¬ loaded.schema.LeavesOut member.typeName) &&
              decide (∀ r ∈ m.objects, r.name ≠ member.typeName)) = true := by
    decide +kernel
  obtain ⟨loaded, hload, hrun⟩ := (Attempt.succeeds_iff _ _).mp hrun
  obtain ⟨m, hbuild, hrun⟩ := (Attempt.succeeds_iff _ _).mp hrun
  obtain ⟨file, hfile, hrun⟩ := (Attempt.succeeds_iff _ _).mp hrun
  simp only [List.any_eq_true, Bool.and_eq_true, decide_eq_true_eq] at hrun
  obtain ⟨u, hu, ⟨hnative, query, hquery, hunion, hnoquery⟩, choice, hchoice, hleft, hnochoice⟩ :=
    hrun
  have hfails {excepted : LoadedSchema → Model → UnionMember → Prop} {member : UnionMember}
      (hmember : member ∈ u.members) (hnot : ¬ excepted loaded m member)
      (hnone : ∀ r ∈ m.objects, r.name ≠ member.typeName) : ¬ ListsMembers excepted := by
    intro h
    obtain ⟨r, hr, hname, -⟩ := h _ loaded _ m ⟨anyOptions, true⟩ .kotlin file hload hbuild
      (.inl rfl) hfile u hu hnative member hmember hnot
    exact hnone r hr hname
  exact ⟨hfails hquery id hnoquery, hfails hquery hunion hnoquery, hfails hchoice hleft hnochoice⟩

end Target

end SchemaBindings
