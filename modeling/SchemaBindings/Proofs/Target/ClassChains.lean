import SchemaBindings.Proofs.Model.Records
import SchemaBindings.Proofs.Target.Classes
import Mathlib.Order.WellFoundedSet

namespace SchemaBindings

open Model Template Text Relation

namespace Model

def RecordType.fieldNames (r : RecordType) : List String :=
  r.fields.map (·.name)

variable (m : Model)

/-- The interface whose class is extended by the class of a declaration. -/
def base? (r : RecordType) : Option RecordType :=
  (ClassShape.ofRecord m r).base.bind m.interface?

def ownFields (r : RecordType) : List String :=
  (ClassShape.ofRecord m r).fields.map (·.name)

/-- The class of the second declaration is extended by that of the first. -/
def HasBase (r b : RecordType) : Prop :=
  m.base? r = some b

inductive Extends : RecordType → List RecordType → Prop
  | root {r : RecordType} : m.base? r = none → Extends r []
  | step {r b : RecordType} {bs : List RecordType} :
      m.base? r = some b → Extends b bs → Extends r (b :: bs)

variable {m} {r b : RecordType} {bs : List RecordType} {name : String}

theorem base?_eq_head? (m : Model) (r : RecordType) :
    m.base? r = (r.implements.filterMap m.interface?).head? := by
  unfold base? ClassShape.ofRecord
  split
  next hnone => simp [hnone]
  next b others hsome =>
    obtain ⟨name, -, hname⟩ : ∃ name ∈ r.implements, m.interface? name = some b :=
      List.mem_filterMap.mp (by simp [hsome])
    have hsame : b.name = name := by simpa using List.find?_some hname
    rw [hsome, Option.bind_some, hsame, hname]
    rfl

theorem mem_interfaces_of_base? (h : m.base? r = some b) : b ∈ m.interfaces := by
  rw [base?_eq_head?] at h
  obtain ⟨name, -, hname⟩ := List.mem_filterMap.mp (List.mem_of_mem_head? h)
  exact List.mem_of_find?_eq_some hname

theorem fields_ofRecord (m : Model) (r : RecordType) : (ClassShape.ofRecord m r).fields =
    r.fields.filter fun f ↦ (m.base? r).all fun b ↦ decide (f.name ∉ b.fieldNames) := by
  rw [base?_eq_head?]
  unfold ClassShape.ofRecord
  split
  next hnone => simp [hnone]
  next base others hsome =>
    refine List.filter_congr fun f _ ↦ ?_
    rw [Bool.eq_iff_iff]
    simp [hsome, RecordType.fieldNames]

theorem mem_ownFields_iff : name ∈ m.ownFields r ↔
    name ∈ r.fieldNames ∧ ∀ b, m.base? r = some b → name ∉ b.fieldNames := by
  simp only [ownFields, fields_ofRecord, RecordType.fieldNames, List.mem_map, List.mem_filter,
    Option.all_eq_true, decide_eq_true_eq]
  constructor
  · rintro ⟨f, ⟨hf, hnot⟩, rfl⟩
    exact ⟨⟨f, hf, rfl⟩, hnot⟩
  · rintro ⟨⟨f, hf, rfl⟩, hnot⟩
    exact ⟨f, ⟨hf, hnot⟩, rfl⟩

theorem ownFields_sublist (m : Model) (r : RecordType) :
    (m.ownFields r).Sublist r.fieldNames := by
  rw [ownFields, fields_ofRecord]
  exact List.filter_sublist.map _

namespace Extends

theorem subset_interfaces (h : m.Extends r bs) : bs ⊆ m.interfaces := by
  induction h with
  | root => exact List.nil_subset _
  | step hbase _ ih => exact List.cons_subset.mpr ⟨mem_interfaces_of_base? hbase, ih⟩

theorem exists_chain_of_hasBase (h : m.Extends r bs) (hbase : m.HasBase r b) :
    ∃ above, bs = b :: above ∧ m.Extends b above := by
  cases h with
  | root hnone => exact absurd (hnone.symm.trans hbase) (by simp)
  | step hbase' h =>
    cases hbase'.symm.trans hbase
    exact ⟨_, rfl, h⟩

theorem unique (h : m.Extends r bs) {bs' : List RecordType} (h' : m.Extends r bs') : bs = bs' := by
  induction h generalizing bs' with
  | root hnone =>
    cases h' with
    | root => rfl
    | step hbase => cases hnone.symm.trans hbase
  | step hbase _ ih =>
    obtain ⟨above, rfl, habove⟩ := h'.exists_chain_of_hasBase hbase
    rw [ih habove]

theorem exists_chain_of_reachable (h : m.Extends r bs) {i : RecordType}
    (hreach : ReflTransGen m.HasBase r i) : ∃ above, m.Extends i above ∧ above <:+ bs := by
  induction hreach with
  | refl => exact ⟨bs, h, List.suffix_rfl⟩
  | tail _ hbase ih =>
    obtain ⟨above, habove, hsuffix⟩ := ih
    obtain ⟨above, rfl, hlast⟩ := habove.exists_chain_of_hasBase hbase
    exact ⟨above, hlast, (List.suffix_cons _ _).trans hsuffix⟩

theorem not_transGen (h : m.Extends r bs) : ¬ TransGen m.HasBase r r := by
  intro hcycle
  obtain ⟨b, hbase, hreach⟩ := TransGen.head'_iff.mp hcycle
  obtain ⟨above, rfl, hb⟩ := h.exists_chain_of_hasBase hbase
  obtain ⟨again, hagain, hsuffix⟩ := hb.exists_chain_of_reachable hreach
  obtain rfl := h.unique hagain
  exact absurd hsuffix.length_le (by simp)

end Extends

/-- On the way from a declaration, the first class stands above the second. -/
def StandsAbove (m : Model) (r a b : RecordType) : Prop :=
  ReflTransGen m.HasBase r b ∧ TransGen m.HasBase b a

theorem wellFoundedOn_standsAbove
    (hacyclic : ∀ i, ReflTransGen m.HasBase r i → ¬ TransGen m.HasBase i i) :
    {i | i ∈ r :: m.interfaces}.WellFoundedOn (m.StandsAbove r) := by
  have : IsStrictOrder RecordType (m.StandsAbove r) :=
    { irrefl := fun i h ↦ hacyclic i h.1 h.2
      trans := fun _ _ _ hab hbc ↦ ⟨hbc.1, hbc.2.trans hab.2⟩ }
  exact (List.finite_toSet _).wellFoundedOn

/-- Interfaces that come back to themselves are all that keeps a chain from ending, for there are
finitely many of them. -/
theorem exists_extends_iff (m : Model) (r : RecordType) : (∃ bs, m.Extends r bs) ↔
    ∀ i, ReflTransGen m.HasBase r i → ¬ TransGen m.HasBase i i := by
  constructor
  · rintro ⟨bs, h⟩ i hreach
    obtain ⟨above, habove, -⟩ := h.exists_chain_of_reachable hreach
    exact habove.not_transGen
  · intro hacyclic
    -- What stands above a class comes before it, so its base has a chain already.
    refine (wellFoundedOn_standsAbove hacyclic).induction
      (P := fun i ↦ ReflTransGen m.HasBase r i → ∃ bs, m.Extends i bs) List.mem_cons_self
      (fun i _ ih hreach ↦ ?_) .refl
    cases hbase : m.base? i with
    | none => exact ⟨[], .root hbase⟩
    | some b =>
      have hb := List.mem_cons_of_mem r (mem_interfaces_of_base? hbase)
      obtain ⟨bs, hbs⟩ := ih b hb ⟨hreach, .single hbase⟩ (hreach.tail hbase)
      exact ⟨b :: bs, .step hbase hbs⟩

namespace Extends

theorem mem_flatMap_ownFields_iff (h : m.Extends r bs) :
    name ∈ (r :: bs).flatMap m.ownFields ↔ ∃ c ∈ r :: bs, name ∈ c.fieldNames := by
  induction h with
  | root hnone => simp [mem_ownFields_iff, hnone]
  | @step r b bs hbase _ ih =>
    rw [List.exists_mem_cons_iff, List.flatMap_cons, List.mem_append, ih, mem_ownFields_iff]
    constructor
    · rintro (⟨hname, -⟩ | habove)
      · exact .inl hname
      · exact .inr habove
    · rintro (hname | habove)
      · by_cases hb : name ∈ b.fieldNames
        · exact .inr ⟨b, List.mem_cons_self, hb⟩
        · refine .inl ⟨hname, fun b' hbase' ↦ ?_⟩
          cases hbase.symm.trans hbase'
          exact hb
      · exact .inr habove

/-- No field is declared twice just if what a class shares with one that stands above it, it shares
with the next one. -/
theorem nodup_flatMap_ownFields_iff (hm : m.HasDistinctNames) (hr : r ∈ m.records)
    (h : m.Extends r bs) : ((r :: bs).flatMap m.ownFields).Nodup ↔
      ∀ c b above, c :: b :: above <:+ r :: bs → ∀ name ∈ c.fieldNames, ∀ a ∈ above,
        name ∈ a.fieldNames → name ∈ b.fieldNames := by
  induction h with
  | @root r _ =>
    refine iff_of_true ?_ fun c b above hsuffix ↦ absurd hsuffix.length_le (by simp)
    simpa using (hm.fields r hr).sublist (ownFields_sublist m r)
  | @step r b bs hbase hb ih =>
    have hown := (hm.fields r hr).sublist (ownFields_sublist m r)
    have hbr : b ∈ m.records := List.mem_append_right _ (mem_interfaces_of_base? hbase)
    have hdisjoint : (m.ownFields r).Disjoint ((b :: bs).flatMap m.ownFields) ↔
        ∀ name ∈ r.fieldNames, ∀ a ∈ bs, name ∈ a.fieldNames → name ∈ b.fieldNames := by
      constructor
      · intro hdisjoint name hname a ha hshared
        by_contra hnot
        refine hdisjoint (mem_ownFields_iff.mpr ⟨hname, fun b' hbase' ↦ ?_⟩)
          (hb.mem_flatMap_ownFields_iff.mpr ⟨a, List.mem_cons_of_mem _ ha, hshared⟩)
        cases hbase.symm.trans hbase'
        exact hnot
      · intro hshared name hname habove
        obtain ⟨hname, hnot⟩ := mem_ownFields_iff.mp hname
        obtain ⟨a, ha, hmem⟩ := hb.mem_flatMap_ownFields_iff.mp habove
        rcases List.mem_cons.mp ha with rfl | ha
        · exact hnot _ hbase hmem
        · exact hnot b hbase (hshared name hname a ha hmem)
    rw [List.flatMap_cons, List.nodup_append', hdisjoint, ih hbr]
    constructor
    · rintro ⟨-, habove, hshared⟩ c b' above hsuffix
      rcases List.suffix_cons_iff.mp hsuffix with heq | hsuffix
      · cases heq
        exact hshared
      · exact habove c b' above hsuffix
    · intro hall
      exact ⟨hown, fun c b' above hsuffix ↦ hall c b' above (hsuffix.trans (List.suffix_cons _ _)),
        hall r b bs List.suffix_rfl⟩

end Extends

end Model

theorem Model.HasDistinctNames.selected {m : Model} (h : m.HasDistinctNames)
    (options : BindingOptions) : (options.selected m).HasDistinctNames := by
  rw [BindingOptions.selected]
  split
  · exact h
  · exact h.stable

namespace Target

variable {t : Target} {r : RecordType} {bs : List RecordType}

def ownIdentifiers (t : Target) (r : RecordType) : List String :=
  (t.model.ownFields r).map t.language.fieldName

theorem nodup_identifiers_of_fileText (hl : t.language = .gdScript) {options : FileOptions}
    {text : List Char} (h : t.fileText options = .ok text) (hr : r ∈ t.model.records) :
    (r.fieldNames.map t.language.fieldName).Nodup := by
  have hnodup {c : Construct} {α : Type} {x : Except BindingError α} {a : α}
      (hx : (refuse c (Declared.clash? (t.fieldIdentifiers (r.fields.map (·.name)))) >>=
        fun _ ↦ x) = .ok a) : (r.fieldNames.map t.language.fieldName).Nodup := by
    obtain ⟨_, hrefuse, -⟩ := (Attempt.bind_eq_ok_iff _ _ _).mp hx
    have hclash := Declared.clash?_eq_none.mp (eq_none_of_refuse hrefuse)
    rwa [fieldIdentifiers, List.map_map] at hclash
  rcases List.mem_append.mp hr with hr | hr
  · obtain ⟨part, hpart⟩ := exists_partText_of_fileText h (object_mem_parts hr)
    rw [partText, objectText, hl] at hpart
    exact hnodup hpart
  · obtain ⟨part, hpart⟩ := exists_partText_of_fileText h (interface_mem_parts hr)
    rw [partText, interfaceText, hl] at hpart
    exact hnodup hpart

theorem nodup_flatMap_ownIdentifiers_iff (hl : t.language = .gdScript) {options : FileOptions}
    {text : List Char} (h : t.fileText options = .ok text) (hr : r ∈ t.model.records)
    (hbs : t.model.Extends r bs) : ((r :: bs).flatMap t.ownIdentifiers).Nodup ↔
      (r :: bs).Pairwise fun c a ↦ (t.ownIdentifiers c).Disjoint (t.ownIdentifiers a) := by
  rw [List.nodup_flatMap]
  refine and_iff_right fun c hc ↦ ?_
  have hc : c ∈ t.model.records := by
    rcases List.mem_cons.mp hc with rfl | hc
    · exact hr
    · exact List.mem_append_right _ (hbs.subset_interfaces hc)
  exact (nodup_identifiers_of_fileText hl h hc).sublist ((t.model.ownFields_sublist c).map _)

/-- A chain of classes ends if and only if no interface on it comes back to itself. The classes on
it then declare every field, and every one of them once if what a class shares with one that stands
above it, it shares with the next one. -/
theorem bindings_class_chains {sources : Sources} {loaded : LoadedSchema} {tables : Tables}
    {m : Model} (hload : Schema.load sources = .ok loaded)
    (hbuild : Model.build loaded tables = .ok m) {options : BindingOptions} {file : BindingFile}
    (h : bindings options m tables .gdScript = .ok file) {r : RecordType}
    (hr : r ∈ (options.selected m).records) :
    let m' := options.selected m
    let t : Target := ⟨.gdScript, m', tables⟩
    (∃ before after, file.contents.toList =
        before ++ tidy (t.gdScriptClass (ClassShape.ofRecord m' r)) ++ after ∧ EndsLine before) ∧
      ((∃ bs, m'.Extends r bs) ↔
        ∀ i, ReflTransGen m'.HasBase r i → ¬ TransGen m'.HasBase i i) ∧
      ∀ bs, m'.Extends r bs →
        r.fieldNames ⊆ (r :: bs).flatMap m'.ownFields ∧
        (((r :: bs).flatMap m'.ownFields).Nodup ↔
          ∀ c b above, c :: b :: above <:+ r :: bs → ∀ name ∈ c.fieldNames, ∀ a ∈ above,
            name ∈ a.fieldNames → name ∈ b.fieldNames) ∧
        (((r :: bs).flatMap t.ownIdentifiers).Nodup ↔
          (r :: bs).Pairwise fun c a ↦ (t.ownIdentifiers c).Disjoint (t.ownIdentifiers a)) := by
  intro m' t
  have hnames : m'.HasDistinctNames :=
    ((loaded_of_load hload).hasDistinctNames_of_build hbuild).selected options
  have htext : t.fileText options.toFileOptions = .ok file.contents.toList := fileText_of_bindings h
  have hplace := exists_class_of_fileText (.inr (.inr rfl)) htext
    ((List.mem_append.mp hr).imp_right fun hr ↦ ⟨rfl, hr⟩)
  refine ⟨hplace, m'.exists_extends_iff r, fun bs hbs ↦ ⟨fun name hname ↦ ?_,
    hbs.nodup_flatMap_ownFields_iff hnames hr, nodup_flatMap_ownIdentifiers_iff rfl htext hr hbs⟩⟩
  exact hbs.mem_flatMap_ownFields_iff.mpr ⟨r, List.mem_cons_self, hname⟩

def receiptSources (entityFields : String) : Sources :=
  [.ofText "receipt.graphql" ("interface Node \x7b id: ID! \x7d\n" ++
    "interface Entity implements Node \x7b " ++ entityFields ++ " \x7d\n" ++
    "type Receipt implements Entity & Node \x7b id: ID! label: String \x7d")]

theorem bindings_class_chains_receipt : ∃ loaded m file r bs,
    Schema.load (receiptSources "id: ID! label: String") = .ok loaded ∧
      Model.build loaded .empty = .ok m ∧
      bindings ⟨anyOptions, true⟩ m .empty .gdScript = .ok file ∧ r ∈ m.objects ∧
      m.Extends r bs ∧ bs.map (·.name) = ["Entity", "Node"] ∧
      r.fieldNames ⊆ (r :: bs).flatMap m.ownFields ∧
      ((r :: bs).flatMap m.ownFields).Nodup := by
  have hrun : Attempt.succeeds (Schema.load (receiptSources "id: ID! label: String")) (fun loaded ↦
      Attempt.succeeds (Model.build loaded .empty) fun m ↦
        Attempt.succeeds (bindings ⟨anyOptions, true⟩ m .empty .gdScript) fun _ ↦
          m.objects.any fun r ↦ (m.base? r).any fun entity ↦ (m.base? entity).any fun node ↦
            (m.base? node).isNone &&
            decide ([entity, node].map (·.name) = ["Entity", "Node"]) &&
            decide (∀ name ∈ r.fieldNames, name ∈ node.fieldNames → name ∈ entity.fieldNames)) =
      true := by
    decide +kernel
  obtain ⟨loaded, hload, hrun⟩ := (Attempt.succeeds_iff _ _).mp hrun
  obtain ⟨m, hbuild, hrun⟩ := (Attempt.succeeds_iff _ _).mp hrun
  obtain ⟨file, hfile, hrun⟩ := (Attempt.succeeds_iff _ _).mp hrun
  simp only [List.any_eq_true, Option.any_eq_true, Option.isNone_iff_eq_none, Bool.and_eq_true,
    decide_eq_true_eq] at hrun
  obtain ⟨r, hr, entity, hentity, node, hnode, ⟨hroot, hnames⟩, hshared⟩ := hrun
  have hchain : m.Extends r [entity, node] := .step hentity (.step hnode (.root hroot))
  have hclasses := bindings_class_chains hload hbuild hfile (List.mem_append_left _ hr)
  obtain ⟨hall, hnodup, -⟩ := hclasses.2.2 _ hchain
  refine ⟨loaded, m, file, r, [entity, node], hload, hbuild, hfile, hr, hchain, hnames, hall,
    hnodup.mpr fun c b above hsuffix name hname a ha hmem ↦ ?_⟩
  rcases List.suffix_cons_iff.mp hsuffix with heq | hsuffix
  · cases heq
    obtain rfl := List.mem_singleton.mp ha
    exact hshared name hname hmem
  · obtain rfl : above = [] := by simpa using hsuffix.length_le
    cases ha

/-- An interface need not repeat what its own interface declares, but then an object below declares
it again. -/
theorem not_declared_once_receipt :
    ¬∀ (sources : Sources) (loaded : LoadedSchema) (tables : Tables) (m : Model)
      (options : BindingOptions) (file : BindingFile), Schema.load sources = .ok loaded →
      Model.build loaded tables = .ok m → bindings options m tables .gdScript = .ok file →
      ∀ r ∈ (options.selected m).records, ∃ bs, (options.selected m).Extends r bs ∧
        ((r :: bs).flatMap (options.selected m).ownFields).Nodup ∧
        r.fieldNames ⊆ (r :: bs).flatMap (options.selected m).ownFields := by
  intro h
  have hrun : Attempt.succeeds (Schema.load (receiptSources "label: String")) (fun loaded ↦
      Attempt.succeeds (Model.build loaded .empty) fun m ↦
        Attempt.succeeds (bindings ⟨anyOptions, true⟩ m .empty .gdScript) fun _ ↦
          m.objects.any fun r ↦ (m.base? r).any fun entity ↦ (m.base? entity).any fun node ↦
            (m.base? node).isNone &&
            decide ([r, entity, node].flatMap m.ownFields = ["id", "label", "id"])) = true := by
    decide +kernel
  obtain ⟨loaded, hload, hrun⟩ := (Attempt.succeeds_iff _ _).mp hrun
  obtain ⟨m, hbuild, hrun⟩ := (Attempt.succeeds_iff _ _).mp hrun
  obtain ⟨file, hfile, hrun⟩ := (Attempt.succeeds_iff _ _).mp hrun
  simp only [List.any_eq_true, Option.any_eq_true, Option.isNone_iff_eq_none, Bool.and_eq_true,
    decide_eq_true_eq] at hrun
  obtain ⟨r, hr, entity, hentity, node, hnode, hroot, hfields⟩ := hrun
  obtain ⟨bs, hbs, hnodup, -⟩ := h _ loaded _ m ⟨anyOptions, true⟩ file hload hbuild hfile r
    (List.mem_append_left _ hr)
  have hchain : m.Extends r [entity, node] := .step hentity (.step hnode (.root hroot))
  obtain rfl := hbs.unique hchain
  have hrepeated : ((r :: [entity, node]).flatMap m.ownFields).Nodup := hnodup
  rw [hfields] at hrepeated
  exact absurd hrepeated (by decide)

end Target

end SchemaBindings
