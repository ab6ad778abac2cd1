import Mathlib.Algebra.Order.BigOperators.Group.List
import Mathlib.Algebra.Order.Group.Nat
import SchemaBindings.Proofs.Target.Literals

namespace SchemaBindings

open Target (givenFields)

namespace Model

variable (m : Model)

/-- Coercion of input: what a type takes, and what a value is taken for. That an enum has the case
and that required fields are given plays no part in how a value is written, so it is not asked. -/
inductive Coerced : TypeExpr → Value → Value → Prop
  | null {type : TypeExpr} : type.isRequired = false → Coerced type .null .null
  | int {type : TypeExpr} (n : Int) :
      type.optional = .scalar "Int" → Coerced type (.int n) (.int n)
  | float {type : TypeExpr} (x : Double) :
      type.optional = .scalar "Float" → Coerced type (.float x) (.float x)
  | intAsFloat {type : TypeExpr} (n : Int) :
      type.optional = .scalar "Float" →
      Coerced type (.int n) (.float (.ofRatio (n < 0) n.natAbs 1))
  | string {type : TypeExpr} {name : String} (s : String) :
      type.optional = .scalar name → name = "ID" ∨ name = "String" →
      Coerced type (.string s) (.string s)
  | intAsID {type : TypeExpr} (n : Int) :
      type.optional = .scalar "ID" → Coerced type (.int n) (.string (toString n))
  | boolean {type : TypeExpr} (b : Bool) :
      type.optional = .scalar "Boolean" → Coerced type (.boolean b) (.boolean b)
  | enum {type : TypeExpr} {name : String} (case : String) :
      type.optional = .named ⟨name, .enum⟩ → Coerced type (.enum case) (.enum case)
  | declared {type : TypeExpr} {name : String} {v : Value} :
      type.optional = .named ⟨name, .scalar⟩ → v ≠ .null → Coerced type v v
  | list {type item : TypeExpr} {pairs : List (Value × Value)} :
      type.optional = .list item → (∀ pair ∈ pairs, Coerced item pair.1 pair.2) →
      Coerced type (.list (pairs.map Prod.fst)) (.list (pairs.map Prod.snd))
  | single {type item : TypeExpr} {v v' : Value} :
      type.optional = .list item → v ≠ .null → (∀ items, v ≠ .list items) →
      Coerced item v v' → Coerced type v (.list [v'])
  | object {type : TypeExpr} {name : String} {input : InputType}
      {pairs : List (String × Value × Value)} :
      type.optional = .named ⟨name, .input⟩ → m.input? name = some input →
      (∀ given ∈ givenFields input pairs, Coerced given.1.type given.2.1 given.2.2) →
      Coerced type (.object (pairs.map fun p ↦ (p.1, p.2.1)))
        (.object (pairs.map fun p ↦ (p.1, p.2.2)))

/-- Somewhere in the value an integer is given for an identifier, or a single item for a list. -/
inductive Uncoerced : TypeExpr → Value → Prop
  | id {type : TypeExpr} (n : Int) : type.optional = .scalar "ID" → Uncoerced type (.int n)
  | single {type item : TypeExpr} {v : Value} :
      type.optional = .list item → v ≠ .null → (∀ items, v ≠ .list items) → Uncoerced type v
  | item {type item : TypeExpr} {items : List Value} {v : Value} :
      type.optional = .list item → v ∈ items → Uncoerced item v → Uncoerced type (.list items)
  | field {type : TypeExpr} {name : String} {input : InputType} {fields : List (String × Value)}
      {given : Field × Value} :
      type.optional = .named ⟨name, .input⟩ → m.input? name = some input →
      given ∈ givenFields input fields → Uncoerced given.1.type given.2 →
      Uncoerced type (.object fields)

end Model

open Model

theorem Quoting.length_le_quote (q : Quoting) (cs : List Char) :
    cs.length + 2 ≤ (q.quote cs).length := by
  have hbody : cs.length ≤ (q.body cs).length := by
    induction cs with
    | nil => exact Nat.zero_le _
    | cons c cs ih =>
      have hc : 1 ≤ (q.escapeChar c).length := by
        unfold Quoting.escapeChar
        split_ifs <;> simp
      rw [Quoting.body, List.flatMap_cons, List.length_append, List.length_cons]
      rw [Quoting.body] at ih
      omega
  simp only [Quoting.quote, List.length_append, List.length_cons, List.length_nil]
  omega

theorem length_intercalate (separator : String) (texts : List String) :
    (separator.intercalate texts).length =
      (texts.flatMap String.toList).length + (texts.length - 1) * separator.length := by
  rw [← String.length_toList, String.toList_intercalate]
  induction texts with
  | nil => simp
  | cons text texts ih =>
    cases texts with
    | nil => simp
    | cons other texts =>
      rw [List.map_cons, List.map_cons, List.intercalate_cons_cons, ← List.map_cons,
        List.length_append, List.length_append, ih]
      simp only [List.flatMap_cons, List.length_append, List.length_cons, String.length_toList,
        Nat.add_sub_cancel, Nat.add_mul, Nat.one_mul]
      omega

section Longer

variable {α : Type} {f g : α → String} {as : List α}
  (hle : ∀ a ∈ as, (f a).length ≤ (g a).length) (hlt : ∃ a ∈ as, (f a).length < (g a).length)

include hle hlt

theorem length_intercalate_lt (separator : String) (opening : α → String) :
    (separator.intercalate (as.map fun a ↦ opening a ++ f a)).length <
      (separator.intercalate (as.map fun a ↦ opening a ++ g a)).length := by
  have hsum : ((as.map fun a ↦ opening a ++ f a).flatMap String.toList).length <
      ((as.map fun a ↦ opening a ++ g a).flatMap String.toList).length := by
    simp only [List.flatMap_map, List.length_flatMap, String.length_toList, String.length_append]
    refine List.sum_lt_sum _ _ (fun a ha ↦ Nat.add_le_add_left (hle a ha) _) ?_
    obtain ⟨a, ha, hlt⟩ := hlt
    exact ⟨a, ha, Nat.add_lt_add_left hlt _⟩
  simp only [length_intercalate, List.length_map]
  exact Nat.add_lt_add_right hsum _

theorem Dialect.length_lt_listLiteral (d : Dialect) :
    (d.listLiteral (as.map f)).length < (d.listLiteral (as.map g)).length := by
  have hlength : (", ".intercalate (as.map f)).length < (", ".intercalate (as.map g)).length := by
    simpa only [String.empty_append] using length_intercalate_lt hle hlt ", " fun _ ↦ ""
  simp only [listLiteral, String.length_append]
  omega

theorem Dialect.length_lt_objectLiteral? {d : Dialect} {type : String} {name : α → String}
    {literal literal' : String}
    (h : d.objectLiteral? type (as.map fun a ↦ (name a, f a)) = some literal)
    (h' : d.objectLiteral? type (as.map fun a ↦ (name a, g a)) = some literal') :
    literal.length < literal'.length := by
  have hne : as ≠ [] := by
    obtain ⟨a, ha, -⟩ := hlt
    exact List.ne_nil_of_mem ha
  have hlength (sign : String) := length_intercalate_lt hle hlt ", " fun a ↦ name a ++ sign
  unfold objectLiteral? at h h'
  cases hobject : d.object with
  | none =>
    rw [hobject] at h
    cases h
  | call before sign =>
    simp only [hobject, Option.some.injEq, List.map_map, Function.comp_def] at h h'
    rw [← h, ← h']
    simp only [String.length_append, Nat.add_lt_add_iff_right, Nat.add_lt_add_iff_left, hlength]
  | record =>
    simp only [hobject, Option.some.injEq, List.map_map, Function.comp_def, List.isEmpty_map,
      List.isEmpty_iff, hne, if_false] at h h'
    rw [← h, ← h']
    simp only [String.length_append, Nat.add_lt_add_iff_right, Nat.add_lt_add_iff_left, hlength]

end Longer

namespace Target

variable (t : Target)

/-- The literals that the spelling of a type announces. Any literal is one of a declared scalar. -/
inductive Announced : TypeExpr → String → Prop
  | null {type : TypeExpr} : type.isRequired = false → Announced type t.dialect.null
  | int {type : TypeExpr} (n : Int) : type.optional = .scalar "Int" → Announced type (toString n)
  | float {type : TypeExpr} (x : Double) :
      type.optional = .scalar "Float" → Announced type (t.dialect.float.text x)
  | text {type : TypeExpr} {name : String} (s : List Char) :
      type.optional = .scalar name → name = "ID" ∨ name = "String" →
      Announced type (.ofList (t.dialect.textLiteral s))
  | boolean {type : TypeExpr} (b : Bool) :
      type.optional = .scalar "Boolean" → Announced type (if b then "true" else "false")
  | enum {type : TypeExpr} {name : String} (case : String) :
      type.optional = .named ⟨name, .enum⟩ →
      Announced type (t.dialect.caseLiteral (t.language.typeName name) (t.language.caseName case))
  | declared {type : TypeExpr} {name : String} (literal : String) :
      type.optional = .named ⟨name, .scalar⟩ → Announced type literal
  | list {type item : TypeExpr} {literals : List String} :
      type.optional = .list item → (∀ literal ∈ literals, Announced item literal) →
      Announced type (t.dialect.listLiteral literals)
  | object {type : TypeExpr} {name : String} {input : InputType} {literal : String}
      {written : List (Field × String)} :
      type.optional = .named ⟨name, .input⟩ → t.model.input? name = some input →
      (written.map Prod.fst).Sublist input.fields →
      (∀ field ∈ written, Announced field.1.type field.2) →
      t.dialect.objectLiteral? (t.namedType ⟨name, .input⟩)
        (written.map fun field ↦ (t.language.fieldName field.1.name, field.2)) = some literal →
      Announced type literal

variable {t}

theorem name_of_optional {type other : TypeExpr} (h : type.optional = other) :
    type.name = other.name := by
  subst h
  cases type <;> rfl

theorem named?_of_optional {type other : TypeExpr} (h : type.optional = other) :
    type.named? = other.named? := by
  subst h
  cases type <;> rfl

theorem itemType_of_optional {type item : TypeExpr} (h : type.optional = .list item) :
    itemType type = item := by
  rw [itemType, h]

theorem literal?_item {type item : TypeExpr} (h : type.optional = .list item) {v : Value}
    (hv : ∀ items, v ≠ .list items) : t.literal? v type = t.literal? v item := by
  have hname : type.name = item.name := (name_of_optional h).trans rfl
  have hnamed : type.named? = item.named? := (named?_of_optional h).trans rfl
  cases v with
  | list items => exact absurd rfl (hv items)
  | int n => simp only [literal?, hname]
  | enum case => simp only [literal?, hname]
  | object fields => simp only [literal?, hnamed]
  | _ => rfl

theorem uncoerced_list_iff {m : Model} {type item : TypeExpr} (h : type.optional = .list item)
    {items : List Value} :
    m.Uncoerced type (.list items) ↔ ∃ v ∈ items, m.Uncoerced item v := by
  constructor
  · rintro (_ | ⟨-, -, hlist⟩ | ⟨hitem, hv, huncoerced⟩)
    · exact absurd rfl (hlist items)
    · obtain rfl := TypeExpr.list.inj (h.symm.trans hitem)
      exact ⟨_, hv, huncoerced⟩
  · rintro ⟨v, hv, huncoerced⟩
    exact .item h hv huncoerced

theorem uncoerced_object_iff {m : Model} {type : TypeExpr} {name : String} {input : InputType}
    (h : type.optional = .named ⟨name, .input⟩) (hinput : m.input? name = some input)
    {fields : List (String × Value)} :
    m.Uncoerced type (.object fields) ↔
      ∃ given ∈ givenFields input fields, m.Uncoerced given.1.type given.2 := by
  constructor
  · rintro (_ | ⟨hlist, -, -⟩ | _ | ⟨hnamed, hother, hgiven, huncoerced⟩)
    · cases h.symm.trans hlist
    · cases h.symm.trans hnamed
      cases hinput.symm.trans hother
      exact ⟨_, hgiven, huncoerced⟩
  · rintro ⟨given, hgiven, huncoerced⟩
    exact .field h hinput hgiven huncoerced

theorem not_uncoerced_scalar {m : Model} {type : TypeExpr} {name : String} {v : Value}
    (h : type.optional = .scalar name) (hv : ∀ n, v = .int n → name ≠ "ID") :
    ¬m.Uncoerced type v := by
  rintro (⟨n, hid⟩ | ⟨hlist, -, -⟩ | ⟨hlist, -, -⟩ | ⟨hnamed, -, -, -⟩)
  · exact hv n rfl (TypeExpr.scalar.inj (h.symm.trans hid))
  · cases h.symm.trans hlist
  · cases h.symm.trans hlist
  · cases h.symm.trans hnamed

theorem not_uncoerced_named {m : Model} {type : TypeExpr} {named : NamedType} {v : Value}
    (h : type.optional = .named named) (hkind : named.kind ≠ .input) : ¬m.Uncoerced type v := by
  rintro (⟨n, hid⟩ | ⟨hlist, -, -⟩ | ⟨hlist, -, -⟩ | ⟨hnamed, -, -, -⟩)
  · cases h.symm.trans hid
  · cases h.symm.trans hlist
  · cases h.symm.trans hlist
  · cases h.symm.trans hnamed
    exact hkind rfl

/-- The literal that is written, and the one that is announced and should be. A missed coercion
shows in the length: nothing that is written around it makes up for what it leaves out. -/
structure Spelled (t : Target) (type : TypeExpr) (uncoerced : Prop) (literal literal' : String) :
    Prop where
  announced : t.Announced type literal'
  same : ¬uncoerced → literal = literal'
  longer : uncoerced → literal.length < literal'.length

theorem Spelled.length_le {type : TypeExpr} {uncoerced : Prop} {literal literal' : String}
    (h : t.Spelled type uncoerced literal literal') : literal.length ≤ literal'.length := by
  by_cases huncoerced : uncoerced
  · exact (h.longer huncoerced).le
  · exact (congrArg String.length (h.same huncoerced)).le

theorem Spelled.eq_iff {type : TypeExpr} {uncoerced : Prop} {literal literal' : String}
    (h : t.Spelled type uncoerced literal literal') : literal = literal' ↔ ¬uncoerced := by
  refine ⟨fun heq huncoerced ↦ ?_, h.same⟩
  exact absurd (congrArg String.length heq) (h.longer huncoerced).ne

theorem Spelled.refl {type : TypeExpr} {uncoerced : Prop} {literal : String}
    (h : t.Announced type literal) (hcoerced : ¬uncoerced) :
    t.Spelled type uncoerced literal literal :=
  ⟨h, fun _ ↦ rfl, fun huncoerced ↦ absurd huncoerced hcoerced⟩

theorem rel_mapM {α β γ : Type} {f g : α → Option β} {r : α → β → β → Prop} (k : α → β → γ)
    {as : List α} (h : ∀ a ∈ as, Option.Rel (r a) (f a) (g a)) :
    Option.Rel (fun bs cs ↦ ∃ read : List (α × β × β), as = read.map (·.1) ∧
        bs = read.map (fun w ↦ k w.1 w.2.1) ∧ cs = read.map (fun w ↦ k w.1 w.2.2) ∧
        ∀ w ∈ read, r w.1 w.2.1 w.2.2)
      (as.mapM fun a ↦ (f a).map (k a)) (as.mapM fun a ↦ (g a).map (k a)) := by
  induction as with
  | nil => exact .some ⟨[], rfl, rfl, rfl, nofun⟩
  | cons a as ih =>
    obtain ⟨ha, has⟩ := List.forall_mem_cons.mp h
    simp only [List.mapM_cons, Option.bind_eq_bind, Option.pure_def]
    generalize f a = fa, g a = ga at ha
    cases ha with
    | none => exact .none
    | @some b c hbc =>
      generalize as.mapM (fun a ↦ (f a).map (k a)) = bs,
        as.mapM (fun a ↦ (g a).map (k a)) = cs at ih
      cases ih has with
      | none => exact .none
      | some hread =>
        obtain ⟨read, rfl, rfl, rfl, hread⟩ := hread
        exact .some ⟨(a, b, c) :: read, rfl, rfl, rfl, List.forall_mem_cons.mpr ⟨hbc, hread⟩⟩

theorem literals?_eq_mapM (items : List Value) (type : TypeExpr) :
    t.literals? items type = items.mapM (t.literal? · type) := by
  induction items with
  | nil => rfl
  | cons item items ih =>
    rw [literals?, ih, List.mapM_cons]
    simp only [Option.map_eq_bind]
    rfl

theorem givenFields_map {α β : Type} (input : InputType) (given : List (String × α)) (f : α → β) :
    givenFields input (given.map fun p ↦ (p.1, f p.2)) =
      (givenFields input given).map fun p ↦ (p.1, f p.2) := by
  have hlookup (name : String) :
      (given.map fun p ↦ (p.1, f p.2)).lookup name = (given.lookup name).map f := by
    induction given with
    | nil => rfl
    | cons p given ih =>
      rw [List.map_cons, List.lookup_cons, List.lookup_cons, ih]
      split <;> rfl
  rw [givenFields, givenFields, List.map_filterMap]
  simp only [hlookup, Option.map_map, Function.comp_def]

theorem writtenFields_eq_mapM (input : InputType) (fields : List (String × Value)) :
    t.writtenFields (givenFields input (t.fieldLiterals fields)) =
      (givenFields input fields).mapM fun given ↦
        (t.literal? given.2 given.1.type).map fun literal ↦
          (t.language.fieldName given.1.name, literal) := by
  rw [givenFields_fieldLiterals, writtenFields, List.mapM_map]
  rfl

theorem map_fst_givenFields_sublist {α : Type} (input : InputType) (given : List (String × α)) :
    ((givenFields input given).map Prod.fst).Sublist input.fields := by
  have hfilter : (givenFields input given).map Prod.fst =
      input.fields.filter fun field ↦ (given.lookup field.name).isSome := by
    rw [givenFields, List.map_filterMap, ← List.filterMap_eq_filter]
    refine congrArg (List.filterMap · input.fields) (funext fun field ↦ ?_)
    cases hvalue : given.lookup field.name <;> simp [Option.guard, hvalue]
  rw [hfilter]
  exact List.filter_sublist

theorem length_lt_singleton (literal : String) :
    literal.length < (t.dialect.listLiteral [literal]).length := by
  have hmarks : 0 < t.dialect.listMarks.1.length := by
    unfold dialect
    cases t.language <;> decide
  rw [Dialect.listLiteral, String.length_append, String.length_append, length_intercalate]
  simp only [List.flatMap_singleton, String.length_toList]
  omega

theorem rel_listLiteral {type item : TypeExpr} (htype : type.optional = .list item)
    {pairs : List (Value × Value)}
    (h : ∀ pair ∈ pairs, Option.Rel (t.Spelled item (t.model.Uncoerced item pair.1))
      (t.literal? pair.1 item) (t.literal? pair.2 item)) :
    Option.Rel (t.Spelled type (t.model.Uncoerced type (.list (pairs.map Prod.fst))))
      (t.literal? (.list (pairs.map Prod.fst)) type)
      (t.literal? (.list (pairs.map Prod.snd)) type) := by
  have hitems := rel_mapM (fun _ literal ↦ literal) h
  simp only [Option.map_id'] at hitems
  simp only [literal?, itemType_of_optional htype, literals?_eq_mapM, List.mapM_map,
    Function.comp_def]
  generalize pairs.mapM (fun pair ↦ t.literal? pair.1 item) = ls,
    pairs.mapM (fun pair ↦ t.literal? pair.2 item) = ls' at hitems
  cases hitems with
  | none => exact .none
  | some hread =>
    obtain ⟨read, rfl, rfl, rfl, hread⟩ := hread
    have huncoerced : t.model.Uncoerced type (.list ((read.map (·.1)).map Prod.fst)) ↔
        ∃ w ∈ read, t.model.Uncoerced item w.1.1 := by
      simp [uncoerced_list_iff htype]
    refine .some ⟨.list htype ?_, fun hcoerced ↦ ?_, fun hmissed ↦ ?_⟩
    · exact List.forall_mem_map.mpr fun w hw ↦ (hread w hw).announced
    · refine congrArg t.dialect.listLiteral (List.map_congr_left fun w hw ↦ (hread w hw).same ?_)
      exact fun hw' ↦ hcoerced (huncoerced.mpr ⟨w, hw, hw'⟩)
    · obtain ⟨w, hw, hw'⟩ := huncoerced.mp hmissed
      exact t.dialect.length_lt_listLiteral (fun w hw ↦ (hread w hw).length_le)
        ⟨w, hw, (hread w hw).longer hw'⟩

theorem rel_objectLiteral {type : TypeExpr} {name : String} {input : InputType}
    (htype : type.optional = .named ⟨name, .input⟩) (hinput : t.model.input? name = some input)
    {pairs : List (String × Value × Value)}
    (h : ∀ given ∈ givenFields input pairs,
      Option.Rel (t.Spelled given.1.type (t.model.Uncoerced given.1.type given.2.1))
        (t.literal? given.2.1 given.1.type) (t.literal? given.2.2 given.1.type)) :
    Option.Rel (t.Spelled type (t.model.Uncoerced type (.object (pairs.map fun p ↦ (p.1, p.2.1)))))
      (t.literal? (.object (pairs.map fun p ↦ (p.1, p.2.1))) type)
      (t.literal? (.object (pairs.map fun p ↦ (p.1, p.2.2))) type) := by
  have hnamed : type.named? = some ⟨name, .input⟩ := named?_of_optional htype
  have hfields := rel_mapM (fun given literal ↦ (t.language.fieldName given.1.name, literal)) h
  have hsublist := map_fst_givenFields_sublist input pairs
  simp only [literal?, hnamed, Option.bind_some, hinput, writtenFields_eq_mapM, givenFields_map,
    List.mapM_map, Function.comp_def]
  split
  · exact .none
  generalize (givenFields input pairs).mapM (fun given ↦ (t.literal? given.2.1 given.1.type).map
      fun literal ↦ (t.language.fieldName given.1.name, literal)) = ls,
    (givenFields input pairs).mapM (fun given ↦ (t.literal? given.2.2 given.1.type).map
      fun literal ↦ (t.language.fieldName given.1.name, literal)) = ls' at hfields
  cases hfields with
  | none => exact .none
  | some hread =>
    obtain ⟨read, hgiven, rfl, rfl, hread⟩ := hread
    rw [hgiven] at hsublist
    have huncoerced : t.model.Uncoerced type (.object (pairs.map fun p ↦ (p.1, p.2.1))) ↔
        ∃ w ∈ read, t.model.Uncoerced w.1.1.type w.1.2.1 := by
      simp [uncoerced_object_iff htype hinput, givenFields_map, hgiven]
    by_cases hobject : t.dialect.object = .none
    · simp only [Dialect.objectLiteral?, hobject, Option.bind_some]
      exact .none
    obtain ⟨literal, hliteral⟩ := Dialect.exists_objectLiteral? hobject
      (t.namedType ⟨name, .input⟩) (read.map fun w ↦ (t.language.fieldName w.1.1.name, w.2.1))
    obtain ⟨literal', hliteral'⟩ := Dialect.exists_objectLiteral? hobject
      (t.namedType ⟨name, .input⟩) (read.map fun w ↦ (t.language.fieldName w.1.1.name, w.2.2))
    rw [Option.bind_some, Option.bind_some, hliteral, hliteral']
    refine .some ⟨?_, fun hcoerced ↦ ?_, fun hmissed ↦ ?_⟩
    · have hfields : ((read.map fun w ↦ (w.1.1, w.2.2)).map Prod.fst).Sublist input.fields := by
        simpa [Function.comp_def] using hsublist
      refine .object htype hinput hfields ?_ ?_
      · exact List.forall_mem_map.mpr fun w hw ↦ (hread w hw).announced
      · rw [List.map_map]
        exact hliteral'
    · have hsame : read.map (fun w ↦ (t.language.fieldName w.1.1.name, w.2.1)) =
          read.map fun w ↦ (t.language.fieldName w.1.1.name, w.2.2) := by
        refine List.map_congr_left fun w hw ↦ ?_
        rw [(hread w hw).same fun hw' ↦ hcoerced (huncoerced.mpr ⟨w, hw, hw'⟩)]
      rw [hsame, hliteral'] at hliteral
      exact (Option.some.inj hliteral).symm
    · obtain ⟨w, hw, hw'⟩ := huncoerced.mp hmissed
      exact Dialect.length_lt_objectLiteral? (fun w hw ↦ (hread w hw).length_le)
        ⟨w, hw, (hread w hw).longer hw'⟩ hliteral hliteral'

theorem rel_literal? {type : TypeExpr} {v v' : Value} (h : t.model.Coerced type v v') :
    Option.Rel (t.Spelled type (t.model.Uncoerced type v)) (t.literal? v type)
      (t.literal? v' type) := by
  induction h with
  | null hnull =>
    refine .some (.refl (.null hnull) ?_)
    rintro (_ | ⟨-, hne, -⟩ | _ | _)
    exact hne rfl
  | int n htype =>
    rw [literal?, name_of_optional htype, if_neg (by decide)]
    exact .some (.refl (.int n htype) (not_uncoerced_scalar htype fun _ _ ↦ by decide))
  | float x htype =>
    exact .some (.refl (.float x htype) (not_uncoerced_scalar htype fun _ _ ↦ by decide))
  | intAsFloat n htype =>
    rw [literal?, literal?, name_of_optional htype, if_pos (by decide)]
    exact .some (.refl (.float _ htype) (not_uncoerced_scalar htype fun _ _ ↦ by decide))
  | string s htype hname =>
    exact .some (.refl (.text s.toList htype hname) (not_uncoerced_scalar htype nofun))
  | intAsID n htype =>
    rw [literal?, literal?, name_of_optional htype, if_neg (by decide)]
    refine .some ⟨.text _ htype (.inl rfl), fun hcoerced ↦ ?_, fun _ ↦ ?_⟩
    · exact absurd (.id n htype) hcoerced
    · have hlength := t.dialect.quoting.length_le_quote (toString n).toList
      rw [String.length_toList] at hlength
      rw [String.length_ofList, Dialect.textLiteral]
      omega
  | boolean b htype =>
    exact .some (.refl (.boolean b htype) (not_uncoerced_scalar htype nofun))
  | @enum type name case htype =>
    rw [literal?, name_of_optional htype]
    exact .some (.refl (.enum case htype) (not_uncoerced_named htype nofun))
  | @declared type name v htype hv =>
    cases t.literal? v type with
    | none => exact .none
    | some literal =>
      exact .some (.refl (.declared literal htype) (not_uncoerced_named htype nofun))
  | list htype _ ih => exact rel_listLiteral htype ih
  | @single type item v v' htype hnull hlist _ ih =>
    rw [literal?_item htype hlist]
    simp only [literal?, literals?, itemType_of_optional htype]
    generalize t.literal? v item = l, t.literal? v' item = l' at ih
    cases ih with
    | none => exact .none
    | some hspelled =>
      -- The item may miss a coercion of its own; the marks of the list are missed in any case.
      refine .some ⟨.list htype ?_, fun hcoerced ↦ ?_, fun _ ↦ ?_⟩
      · exact List.forall_mem_singleton.mpr hspelled.announced
      · exact absurd (.single htype hnull hlist) hcoerced
      · exact hspelled.length_le.trans_lt (length_lt_singleton _)
  | object htype hinput _ ih => exact rel_objectLiteral htype hinput ih

/-- A value has a literal if what it is taken for has one. That one is announced by the type, and
the literal of the value is the same if and only if no coercion is missed. -/
theorem literal?_of_coerced {type : TypeExpr} {v v' : Value} (h : t.model.Coerced type v v') :
    (t.literal? v type = none → t.literal? v' type = none) ∧
      ∀ literal, t.literal? v type = some literal →
        ∃ literal', t.literal? v' type = some literal' ∧ t.Announced type literal' ∧
          (literal = literal' ↔ ¬t.model.Uncoerced type v) := by
  have hrel := rel_literal? h
  generalize t.literal? v type = l, t.literal? v' type = l' at hrel
  cases hrel with
  | none => exact ⟨fun _ ↦ rfl, nofun⟩
  | @some literal literal' hspelled =>
    refine ⟨nofun, fun _ heq ↦ ?_⟩
    obtain rfl := Option.some.inj heq
    exact ⟨literal', rfl, hspelled.announced, hspelled.eq_iff⟩

def placeModel : Model :=
  { Model.empty (.signed []) with
    enums := [⟨"State", none, .stable, [⟨"OPEN", 0, none, none, .stable⟩], []⟩]
    inputs := [⟨"Place", none, .stable,
      [⟨"id", .nonNull (.scalar "ID"), [], none, none, none, .stable⟩,
        ⟨"state", .named ⟨"State", .enum⟩, [], none, none, none, .stable⟩,
        ⟨"position", .list (.nonNull (.scalar "Float")), [], none, none, none, .stable⟩]⟩] }

def placeValues : List (String × Value × Value) :=
  [("position", .list [.int 1, .float (.ofRatio false 5 2)],
      .list [.float (.ofRatio false 1 1), .float (.ofRatio false 5 2)]),
    ("state", .enum "OPEN", .enum "OPEN"), ("id", .string "7", .string "7")]

theorem literal?_of_coerced_place :
    placeModel.Coerced (.named ⟨"Place", .input⟩)
        (.object (placeValues.map fun p ↦ (p.1, p.2.1)))
        (.object (placeValues.map fun p ↦ (p.1, p.2.2))) ∧
      Announced ⟨.kotlin, placeModel, .empty⟩ (.named ⟨"Place", .input⟩)
        "Place(id = \"7\", state = State.OPEN, position = listOf(1.0, 2.5))" ∧
      ¬placeModel.Uncoerced (.named ⟨"Place", .input⟩)
        (.object (placeValues.map fun p ↦ (p.1, p.2.1))) := by
  have hposition : placeModel.Coerced (.list (.nonNull (.scalar "Float")))
      (.list [.int 1, .float (.ofRatio false 5 2)])
      (.list [.float (.ofRatio false 1 1), .float (.ofRatio false 5 2)]) := by
    refine @Coerced.list placeModel _ _ [(.int 1, .float (.ofRatio false 1 1)),
      (.float (.ofRatio false 5 2), .float (.ofRatio false 5 2))] rfl ?_
    exact List.forall_mem_cons.mpr ⟨.intAsFloat 1 rfl,
      List.forall_mem_singleton.mpr (.float _ rfl)⟩
  have hcoerced : placeModel.Coerced (.named ⟨"Place", .input⟩)
      (.object (placeValues.map fun p ↦ (p.1, p.2.1)))
      (.object (placeValues.map fun p ↦ (p.1, p.2.2))) := by
    refine .object rfl rfl ?_
    refine List.forall_mem_cons.mpr ⟨.string _ rfl (.inl rfl),
      List.forall_mem_cons.mpr ⟨.enum _ rfl, List.forall_mem_singleton.mpr hposition⟩⟩
  obtain ⟨literal, hliteral, hannounced, hiff⟩ :=
    (literal?_of_coerced (t := ⟨.kotlin, placeModel, .empty⟩) hcoerced).2
      "Place(id = \"7\", state = State.OPEN, position = listOf(1.0, 2.5))" (by decide +kernel)
  have hsame : literal = "Place(id = \"7\", state = State.OPEN, position = listOf(1.0, 2.5))" :=
    Option.some.inj (hliteral.symm.trans (by decide +kernel))
  subst hsame
  exact ⟨hcoerced, hannounced, hiff.mp rfl⟩

/-- An integer for an identifier is written without quotes. -/
theorem not_announced_id :
    ¬∀ (t : Target) (type : TypeExpr) (v v' : Value) (literal : String),
      t.language ≠ .gdScript → t.model.Coerced type v v' → t.literal? v type = some literal →
        t.Announced type literal := by
  intro h
  have hannounced := h ⟨.kotlin, .empty (.signed []), .empty⟩ (.scalar "ID") (.int 5)
    (.string "5") "5" (by decide) (.intAsID 5 rfl) (by decide)
  generalize hliteral : "5" = literal at hannounced
  cases hannounced with
  | null _ => exact absurd hliteral (by decide)
  | text s _ _ =>
    have hfirst := congrArg (·.toList.head?) hliteral
    simp [dialect, Language.dialect, Dialect.kotlin, Dialect.textLiteral, Quoting.quote] at hfirst
  | int _ htype => exact absurd htype (by decide)
  | float _ htype => exact absurd htype (by decide)
  | boolean _ htype => exact absurd htype (by decide)
  | enum _ htype => cases htype
  | declared _ htype => cases htype
  | list htype _ => cases htype
  | object htype _ _ _ _ => cases htype

end Target

end SchemaBindings
