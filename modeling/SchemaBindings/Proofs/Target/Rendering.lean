import SchemaBindings.Proofs.Model.DefaultOrigins
import SchemaBindings.Proofs.Target.Nodes

namespace SchemaBindings

open Model Template Attempt

def BindingError.IsUnsupported (e : BindingError) : Prop :=
  ∃ c o, e = .unsupported c o

namespace Target

variable {t : Target}

theorem failsOnly_refuse (c : Construct) (o : Option Obstacle) :
    FailsOnly BindingError.IsUnsupported (refuse c o) := by
  cases o with
  | none => exact failsOnly_of_eq_ok rfl
  | some o =>
    rintro e ⟨⟩
    exact ⟨c, o, rfl⟩

theorem failsOnly_within {α : Type} (c : Construct) (x : Except Obstacle α) :
    FailsOnly BindingError.IsUnsupported (within c x) := by
  cases x with
  | ok a => exact failsOnly_of_eq_ok rfl
  | error o =>
    rintro e ⟨⟩
    exact ⟨c, o, rfl⟩

theorem eq_ok_of_within {α : Type} {c : Construct} {x : Except Obstacle α} {a : α}
    (h : within c x = .ok a) : x = .ok a := by
  cases x with
  | ok b =>
    cases h
    rfl
  | error o => cases h

def anyOptions : FileOptions :=
  ⟨false, none⟩

section Declarations

variable (h : AreReadable t.model.defaults)

include h

theorem Renders.failsOnly_write {options : FileOptions} {kind : TemplateKind} {node : Json}
    (hnode : t.Renders options kind node) :
    FailsOnly BindingError.IsUnsupported (t.write kind node) := by
  obtain ⟨text, htext⟩ := hnode.exists_write h
  exact failsOnly_of_eq_ok htext

theorem failsOnly_scalarText {s : ScalarType} (hs : s ∈ t.model.scalars) :
    FailsOnly BindingError.IsUnsupported (t.scalarText s) :=
  Renders.failsOnly_write h (Renders.scalar hs : t.Renders anyOptions _ _)

theorem failsOnly_enumText {e : EnumType} (he : e ∈ t.model.enums) :
    FailsOnly BindingError.IsUnsupported (t.enumText e) :=
  (failsOnly_refuse _ _).bind fun _ _ ↦
    Renders.failsOnly_write h (Renders.enum he : t.Renders anyOptions _ _)

theorem failsOnly_interfaceText {r : RecordType} (hr : r ∈ t.model.interfaces) :
    FailsOnly BindingError.IsUnsupported (t.interfaceText r) := by
  have hwrite : FailsOnly BindingError.IsUnsupported (t.write .interface (t.classNode r)) :=
    Renders.failsOnly_write h (Renders.interface hr : t.Renders anyOptions _ _)
  have hnames : FailsOnly BindingError.IsUnsupported (do
      refuse (.interface r.name) (Declared.clash? (t.fieldIdentifiers (r.fields.map (·.name))))
      t.write .interface (t.classNode r)) :=
    (failsOnly_refuse _ _).bind fun _ _ ↦ hwrite
  by_cases hl : t.language = .swift
  · have htext : t.interfaceText r = (refuse (.interface r.name) (t.narrowing? r) >>= fun _ ↦ do
        refuse (.interface r.name) (Declared.clash? (t.fieldIdentifiers (r.fields.map (·.name))))
        t.write .interface (t.classNode r)) := by
      rw [interfaceText, if_pos hl]
      rfl
    rw [htext]
    exact (failsOnly_refuse _ _).bind fun _ _ ↦ hnames
  · have htext : t.interfaceText r = (do
        refuse (.interface r.name) (Declared.clash? (t.fieldIdentifiers (r.fields.map (·.name))))
        t.write .interface (t.classNode r)) := by
      rw [interfaceText, if_neg hl]
      rfl
    rw [htext]
    exact hnames

theorem failsOnly_objectText {r : RecordType} (hr : r ∈ t.model.objects) :
    FailsOnly BindingError.IsUnsupported (t.objectText r) := by
  unfold objectText
  split
  next hl =>
    refine (failsOnly_within _ _).bind fun record hrecord ↦ ?_
    exact Renders.failsOnly_write h
      (Renders.objectRecord hr hl (eq_ok_of_within hrecord) : t.Renders anyOptions _ _)
  next hother =>
    refine (failsOnly_refuse _ _).bind fun _ _ ↦ ?_
    exact Renders.failsOnly_write h (Renders.object hr hother : t.Renders anyOptions _ _)

theorem failsOnly_inputText {i : InputType} (hi : i ∈ t.model.inputs) :
    FailsOnly BindingError.IsUnsupported (t.inputText i) := by
  unfold inputText
  split
  · exact failsOnly_of_eq_ok rfl
  next hl =>
    refine (failsOnly_within _ _).bind fun record hrecord ↦ ?_
    exact Renders.failsOnly_write h
      (Renders.inputRecord hi hl (eq_ok_of_within hrecord) : t.Renders anyOptions _ _)
  next hother =>
    refine (failsOnly_refuse _ _).bind fun _ _ ↦ ?_
    exact Renders.failsOnly_write h (Renders.input hi hother : t.Renders anyOptions _ _)

theorem failsOnly_unionText {u : UnionType} (hu : u ∈ t.model.unions) :
    FailsOnly BindingError.IsUnsupported (t.unionText u) :=
  (failsOnly_refuse _ _).bind fun _ _ ↦
    Renders.failsOnly_write h (Renders.union hu : t.Renders anyOptions _ _)

theorem failsOnly_operationText {o : Operation} (ho : o ∈ t.model.operations) :
    FailsOnly BindingError.IsUnsupported (t.operationText o) :=
  (failsOnly_refuse _ _).bind fun _ _ ↦
    Renders.failsOnly_write h (Renders.operation ho : t.Renders anyOptions _ _)

theorem failsOnly_declarationTexts :
    FailsOnly BindingError.IsUnsupported t.declarationTexts :=
  (FailsOnly.mapM fun _ hs ↦ failsOnly_scalarText h hs).bind fun _ _ ↦
    (FailsOnly.mapM fun _ he ↦ failsOnly_enumText h he).bind fun _ _ ↦
    (FailsOnly.mapM fun _ hr ↦ failsOnly_interfaceText h hr).bind fun _ _ ↦
    (FailsOnly.mapM fun _ hr ↦ failsOnly_objectText h hr).bind fun _ _ ↦
    (FailsOnly.mapM fun _ hi ↦ failsOnly_inputText h hi).bind fun _ _ ↦
    (FailsOnly.mapM fun _ hu ↦ failsOnly_unionText h hu).bind fun _ _ ↦
    (FailsOnly.mapM fun _ ho ↦ failsOnly_operationText h ho).bind fun _ _ ↦
    failsOnly_of_eq_ok rfl

/-- Where all defaults can be read back, only constructs that a language lacks are in the way. -/
theorem failsOnly_fileText (options : FileOptions) :
    FailsOnly BindingError.IsUnsupported (t.fileText options) :=
  (failsOnly_refuse _ _).bind fun _ _ ↦ (failsOnly_declarationTexts h).bind fun _ _ ↦
    Renders.failsOnly_write h (.file _)

end Declarations

end Target

section Selected

variable {m : Model}

theorem mem_defaults_of_mem_stable {d : TypeExpr × Value} (h : d ∈ m.stable.defaults) :
    d ∈ m.defaults := by
  have hfields {fs : List Field} {removed : List String} {others : List Field}
      (hd : d ∈ (fs.filter (keepsField removed)).flatMap Field.defaults)
      (hsub : ∀ f ∈ fs, f ∈ others) : d ∈ others.flatMap Field.defaults := by
    obtain ⟨f, hf, hd⟩ := List.mem_flatMap.mp hd
    exact List.mem_flatMap.mpr ⟨f, hsub f (List.mem_filter.mp hf).1, hd⟩
  simp only [defaults, List.mem_append] at h ⊢
  rcases h with (h | h) | h
  · obtain ⟨f, hf, hd⟩ := List.mem_flatMap.mp h
    obtain ⟨r', hr', hf⟩ := List.mem_flatMap.mp hf
    obtain ⟨r, hr, -, rfl⟩ := (mem_records_stable_iff r').mp hr'
    refine Or.inl (Or.inl (hfields (List.mem_flatMap.mpr ⟨f, hf, hd⟩) fun f hf ↦ ?_))
    exact List.mem_flatMap.mpr ⟨r, hr, hf⟩
  · obtain ⟨f, hf, hd⟩ := List.mem_flatMap.mp h
    obtain ⟨i', hi', hf⟩ := List.mem_flatMap.mp hf
    obtain ⟨i, hi, -, rfl⟩ := (mem_inputs_stable_iff i').mp hi'
    refine Or.inl (Or.inr (hfields (List.mem_flatMap.mpr ⟨f, hf, hd⟩) fun f hf ↦ ?_))
    exact List.mem_flatMap.mpr ⟨i, hi, hf⟩
  · obtain ⟨f, hf, hd⟩ := List.mem_flatMap.mp h
    obtain ⟨o', ho', hf⟩ := List.mem_flatMap.mp hf
    obtain ⟨o, ho, rfl⟩ := (mem_operations_stable_iff o').mp ho'
    refine Or.inr (List.mem_flatMap.mpr ⟨f, List.mem_flatMap.mpr ⟨o, ho, ?_⟩, hd⟩)
    exact (List.mem_filter.mp hf).1

theorem mem_defaults_of_mem_selected {options : BindingOptions} {d : TypeExpr × Value}
    (h : d ∈ (options.selected m).defaults) : d ∈ m.defaults := by
  unfold BindingOptions.selected at h
  split at h
  · exact h
  · exact mem_defaults_of_mem_stable h

end Selected

def Model.Value.isFinite : Value → Bool
  | .float x => x.isFinite
  | _ => true

/-- The decimal numbers in the defaults are finite. -/
def Model.HasFiniteDefaults (m : Model) : Prop :=
  ∀ d ∈ m.defaults, ∀ l ∈ d.2.leaves, l.isFinite = true

instance (m : Model) : Decidable m.HasFiniteDefaults :=
  inferInstanceAs (Decidable (∀ d ∈ m.defaults, ∀ l ∈ d.2.leaves, l.isFinite = true))

theorem areReadable_of_load_of_build {sources : Sources} {loaded : LoadedSchema} {tables : Tables}
    {m : Model} (hload : Schema.load sources = .ok loaded)
    (hbuild : Model.build loaded tables = .ok m) (hfinite : m.HasFiniteDefaults) :
    AreReadable m.defaults := by
  intro d hd l hl
  cases l with
  | int n => exact isWord_of_load_of_build (loaded_of_load hload) hbuild hd hl
  | float x => exact hfinite d hd (.float x) hl
  | _ => trivial

/-- Bindings for a model that was built from a schema never fail inside a template, since every
template finds in each of its nodes all that it asks for. -/
theorem bindings_of_load_of_build {sources : Sources} {loaded : LoadedSchema} {tables : Tables}
    {m : Model} (hload : Schema.load sources = .ok loaded)
    (hbuild : Model.build loaded tables = .ok m) (hfinite : m.HasFiniteDefaults)
    (options : BindingOptions) (others : Tables) (language : Language) :
    (∀ kind node,
      Target.Renders ⟨language, options.selected m, others⟩ options.toFileOptions kind node →
        Piece.AllAnswer (Target.operations ⟨language, options.selected m, others⟩)
          (language.template kind) (.root node)) ∧
      ((∃ file, bindings options m others language = .ok file) ∨
        ∃ c o, bindings options m others language = .error (.unsupported c o)) := by
  have hall := areReadable_of_load_of_build hload hbuild hfinite
  have hselected : AreReadable (options.selected m).defaults :=
    fun d hd ↦ hall d (mem_defaults_of_mem_selected hd)
  refine ⟨fun kind node hnode ↦ hnode.answers hselected, ?_⟩
  have hfails := Target.failsOnly_fileText (t := ⟨language, options.selected m, others⟩) hselected
    options.toFileOptions
  have hbindings : bindings options m others language =
      (Target.fileText ⟨language, options.selected m, others⟩ options.toFileOptions).map fun text ↦
        ⟨language, .ofList text, .forLanguage (options.selected m) others language⟩ := rfl
  rw [hbindings]
  cases hfile : Target.fileText ⟨language, options.selected m, others⟩ options.toFileOptions with
  | ok text => exact Or.inl ⟨_, rfl⟩
  | error e =>
    obtain ⟨c, o, rfl⟩ := hfails e hfile
    exact Or.inr ⟨c, o, rfl⟩

def scaleSources : Sources :=
  [.ofText "scale.graphql" ("type Query \x7b\n" ++
      "  weigh(factor: Float = 2.5e1, steps: [Int!] = [1, 2]," ++
      " span: Span = \x7b from: 0.5 \x7d): Unit\n" ++
      "\x7d\nenum Unit \x7b GRAM @deprecated TON \x7d\n" ++
      "\"From and to\"\ninput Span \x7b from: Float = 0.0 to: Int = -9223372036854775808 \x7d")]

theorem bindings_scaleSources :
    ∃ loaded m, Schema.load scaleSources = .ok loaded ∧ Model.build loaded .empty = .ok m ∧
      m.HasFiniteDefaults ∧ m.defaults.length = 5 ∧ ∀ options others language,
        (∀ kind node,
          Target.Renders ⟨language, options.selected m, others⟩ options.toFileOptions kind node →
            Piece.AllAnswer (Target.operations ⟨language, options.selected m, others⟩)
              (language.template kind) (.root node)) ∧
          ((∃ file, bindings options m others language = .ok file) ∨
            ∃ c o, bindings options m others language = .error (.unsupported c o)) := by
  have hrun : Attempt.succeeds (Schema.load scaleSources) (fun loaded ↦
      Attempt.succeeds (Model.build loaded .empty) fun m ↦
        m.HasFiniteDefaults ∧ m.defaults.length = 5) = true := by decide +kernel
  obtain ⟨loaded, hload, hrun⟩ := (Attempt.succeeds_iff _ _).mp hrun
  obtain ⟨m, hbuild, hm⟩ := (Attempt.succeeds_iff _ _).mp hrun
  obtain ⟨hfinite, hlength⟩ := of_decide_eq_true hm
  exact ⟨loaded, m, hload, hbuild, hfinite, hlength, fun options others language ↦
    bindings_of_load_of_build hload hbuild hfinite options others language⟩

end SchemaBindings
