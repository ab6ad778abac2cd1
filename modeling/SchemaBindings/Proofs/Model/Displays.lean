import SchemaBindings.Proofs.Model.DefaultOrigins
import SchemaBindings.Proofs.Model.DistinctNames
import SchemaBindings.Proofs.Sdl.Literals

namespace SchemaBindings

open Sdl Sentence Naming Model Model.Build

namespace Model

mutual

def Value.mapStrings (f : String → String) : Value → Value
  | .string s => .string (f s)
  | .list items => .list (Value.mapItems f items)
  | .object fields => .object (Value.mapFields f fields)
  | .int n => .int n
  | .float x => .float x
  | .boolean b => .boolean b
  | .null => .null
  | .enum name => .enum name

def Value.mapItems (f : String → String) : List Value → List Value
  | [] => []
  | item :: items => item.mapStrings f :: Value.mapItems f items

def Value.mapFields (f : String → String) : List (String × Value) → List (String × Value)
  | [] => []
  | (name, value) :: fields => (name, value.mapStrings f) :: Value.mapFields f fields

end

section Strings

variable {f : String → String}

mutual

theorem Value.mapStrings_eq_iff (v : Value) :
    v.mapStrings f = v ↔ ∀ s, .string s ∈ v.leaves → f s = s := by
  match v with
  | .string s => simp [mapStrings, leaves]
  | .list items => simp [mapStrings, leaves, Value.mapItems_eq_iff items]
  | .object fields => simp [mapStrings, leaves, Value.mapFields_eq_iff fields]
  | .int _ | .float _ | .boolean _ | .null | .enum _ => simp [mapStrings, leaves]

theorem Value.mapItems_eq_iff (items : List Value) :
    Value.mapItems f items = items ↔ ∀ s, .string s ∈ Value.itemLeaves items → f s = s := by
  match items with
  | [] => simp [mapItems, itemLeaves]
  | item :: items =>
    simp only [mapItems, itemLeaves, List.cons.injEq, Value.mapStrings_eq_iff item,
      Value.mapItems_eq_iff items, List.mem_append, or_imp, forall_and]

theorem Value.mapFields_eq_iff (fields : List (String × Value)) :
    Value.mapFields f fields = fields ↔ ∀ s, .string s ∈ Value.fieldLeaves fields → f s = s := by
  match fields with
  | [] => simp [mapFields, fieldLeaves]
  | (name, value) :: fields =>
    simp only [mapFields, fieldLeaves, List.cons.injEq, Prod.mk.injEq, true_and,
      Value.mapStrings_eq_iff value, Value.mapFields_eq_iff fields, List.mem_append, or_imp,
      forall_and]

end

end Strings

theorem toList_displayItems (items : List Value) : (Value.displayItems items).toList =
    [',', ' '].intercalate (items.map fun item ↦ item.display.toList) := by
  match items with
  | [] => rfl
  | [item] => simp [Value.displayItems]
  | item :: item' :: items =>
    have hrest := toList_displayItems (item' :: items)
    rw [Value.displayItems, String.toList_append, String.toList_append, hrest, List.map_cons,
      List.map_cons, List.map_cons, List.intercalate_cons_cons]
    · rfl
    · exact nofun

theorem toList_displayFields (fields : List (String × Value)) :
    (Value.displayFields fields).toList = [',', ' '].intercalate
      (fields.map fun p ↦ p.1.toList ++ [':', ' '] ++ p.2.display.toList) := by
  match fields with
  | [] => rfl
  | [(name, value)] => simp [Value.displayFields]
  | (name, value) :: field :: fields =>
    have hrest := toList_displayFields (field :: fields)
    rw [Value.displayFields, String.toList_append, String.toList_append, hrest, List.map_cons,
      List.map_cons, List.map_cons, List.intercalate_cons_cons]
    · simp
    · exact nofun

end Model

/-- The displayed value is a constant value, which is the same but for its strings. -/
def Rereads (v : Model.Value) : Prop :=
  StandsFor v.display.toList (IsValue true) fun w ↦ value w = v.mapStrings reread

section Leaves

theorem rereads_int {n : Int} (h : -2 ^ 63 ≤ n ∧ n < 2 ^ 63) : Rereads (.int n) := by
  obtain ⟨c, cs, hcs, -⟩ := Json.exists_toString_eq_cons n
  have hdenotes := denotes_toString n
  rw [Rereads, Value.display]
  rw [hcs] at hdenotes ⊢
  exact standsFor_token (fun rest hrest ↦ scan_number hdenotes hrest) (by decide)
    fun span ↦ ⟨_, .int rfl hdenotes h, rfl⟩

theorem rereads_string (s : String) : Rereads (.string s) := by
  have hopen := staysOpen_flatMap s.toList
  rw [Rereads, Value.display, Text.quoted, String.toList_ofList, List.cons_append]
  refine standsFor_token (fun rest hrest ↦ scan_string hopen hrest) nofun fun span ↦
    ⟨_, .string rfl, ?_⟩
  rw [value, Value.mapStrings, reread, stringValue]
  exact congrArg (Model.Value.string ∘ String.ofList ∘ unescape) (stripMarks_append ['"'] _)

theorem rereads_keyword {v : Model.Value} {k : Keyword} {w : Span → Sdl.Value}
    (h : v.display = k.text) (hw : ∀ t : Token, t.kind = .keyword k → IsValue true [t] (w t.span))
    (hv : ∀ span, value (w span) = v.mapStrings reread) : Rereads v := by
  have hword : IsIdentifier k.text.toList ∧ wordKind (.ofList k.text.toList) = .keyword k := by
    cases k <;> decide
  rw [Rereads, h]
  refine standsFor_word hword.1 fun span ↦ ⟨_, hw _ hword.2, hv span⟩

theorem rereads_enum {name : String} (h : IsIdentifier name.toList)
    (hk : wordKind name ∉ [.keyword .trueValue, .keyword .falseValue, .keyword .nullValue]) :
    Rereads (.enum name) := by
  refine standsFor_word h fun span ↦ ⟨_, .enum (.mk (isName_wordKind _)) ?_, ?_⟩
  · rwa [String.ofList_toList]
  · rw [value, Value.mapStrings, String.ofList_toList]
    rfl

end Leaves

section Nesting

theorem valueItems_of_forall₂ {items : List Model.Value} {ws : List Sdl.Value}
    (h : List.Forall₂ (fun v w ↦ value w = v.mapStrings reread) items ws) :
    valueItems ws = Value.mapItems reread items := by
  induction h with
  | nil => rfl
  | cons hw _ ih => rw [valueItems, Value.mapItems, hw, ih]

theorem rereads_list {items : List Model.Value} (h : ∀ item ∈ items, Rereads item) :
    Rereads (.list items) := by
  have hitems := (standsFor_intercalate h).bracketed (o := '[') (c := ']') rfl rfl (by decide)
  rw [← toList_displayItems] at hitems
  rw [Rereads, Value.display, String.toList_append, String.toList_append]
  refine hitems.imp fun ts ws hws hvalues ↦ ⟨_, .list hws, ?_⟩
  rw [value, Value.mapStrings, valueItems_of_forall₂ hvalues]

theorem valueFields_of_forall₂ {fields : List (String × Model.Value)}
    {ws : List (Name × Sdl.Value)}
    (h : List.Forall₂ (fun p w ↦ w.1.text = .ofList p.1.toList ∧
      value w.2 = p.2.mapStrings reread) fields ws) :
    valueFields ws = Value.mapFields reread fields := by
  induction h with
  | nil => rfl
  | @cons p w fields ws hw _ ih =>
    rw [valueFields, Value.mapFields, hw.1, hw.2, ih, String.ofList_toList]

theorem map_fst_mapFields (f : String → String) (fields : List (String × Model.Value)) :
    (Value.mapFields f fields).map (·.1) = fields.map (·.1) := by
  induction fields with
  | nil => rfl
  | cons p fields ih => rw [Value.mapFields, List.map_cons, List.map_cons, ih]

theorem rereads_object {fields : List (String × Model.Value)} (hnames : (fields.map (·.1)).Nodup)
    (h : ∀ p ∈ fields, IsIdentifier p.1.toList ∧ Rereads p.2) : Rereads (.object fields) := by
  have hentries (p : String × Model.Value) (hp : p ∈ fields) := (h p hp).2.entry (h p hp).1
  have hfields := (standsFor_intercalate hentries).bracketed (o := '\x7b') (c := '\x7d') rfl rfl
    (by decide)
  rw [← toList_displayFields] at hfields
  rw [Rereads, Value.display, String.toList_append, String.toList_append]
  refine hfields.imp fun ts ws hws hvalues ↦ ⟨_, .object hws, ?_⟩
  rw [value, Value.mapStrings, valueFields_of_forall₂ hvalues, KeyedList.ofPairs_of_nodup]
  rwa [map_fst_mapFields]

end Nesting

section Literals

mutual

theorem rereads_of_isValue {w : Sdl.Value} {ts : List Token} (h : IsValue true ts w)
    (hts : ∀ t ∈ ts, t.IsWord) (hfloat : ∀ x, .float x ∉ (value w).leaves) :
    Rereads (value w) := by
  match w with
  | .variableRef _ =>
    cases h with
    | variableRef hconstant => cases hconstant
  | .int n _ =>
    cases h with
    | int _ _ hn => exact rereads_int hn
  | .float x _ => exact absurd (List.mem_singleton_self _) (hfloat x)
  | .string s _ => exact rereads_string s
  | .boolean true _ => exact rereads_keyword (k := .trueValue) rfl (fun t ↦ .true) fun _ ↦ rfl
  | .boolean false _ => exact rereads_keyword (k := .falseValue) rfl (fun t ↦ .false) fun _ ↦ rfl
  | .null _ => exact rereads_keyword (k := .nullValue) rfl (fun t ↦ .null) fun _ ↦ rfl
  | .enum name =>
    cases h with
    | @enum t _ hname hk =>
      obtain ⟨hn⟩ := hname
      obtain ⟨hidentifier, hkind⟩ := hts t (List.mem_singleton_self t) hn
      exact rereads_enum (by rwa [String.toList_ofList]) (hkind ▸ hk)
  | .list items _ =>
    cases h with
    | list h =>
      obtain @⟨o, c, us, _, -, hm, -⟩ := h
      have hus : ∀ t ∈ us, t.IsWord := fun t ht ↦ hts t (by simp [ht])
      exact rereads_list fun v hv ↦ rereads_of_mem_items hm hus v hv
        fun x hx ↦ hfloat x (mem_itemLeaves_iff.mpr ⟨v, hv, hx⟩)
  | .object fields _ =>
    cases h with
    | object h =>
      obtain @⟨o, c, us, _, -, hm, -⟩ := h
      have hus : ∀ t ∈ us, t.IsWord := fun t ht ↦ hts t (by simp [ht])
      -- What a repeated field overwrites is not displayed, so only the fields that stay count.
      exact rereads_object (KeyedList.nodup_ofPairs _) fun p hp ↦
        rereads_of_mem_fields hm hus p (mem_of_mem_ofPairs hp)
          fun x hx ↦ hfloat x (mem_fieldLeaves_iff.mpr ⟨p, hp, hx⟩)

theorem rereads_of_mem_items {items : List Sdl.Value} {ts : List Token}
    (h : Many (IsValue true) ts items) (hts : ∀ t ∈ ts, t.IsWord) :
    ∀ v ∈ valueItems items, (∀ x, .float x ∉ v.leaves) → Rereads v := by
  match items with
  | [] => exact nofun
  | item :: items =>
    cases h with
    | cons h hs =>
      obtain ⟨hitem, hitems⟩ := List.forall_mem_append.mp hts
      exact List.forall_mem_cons.mpr
        ⟨rereads_of_isValue h hitem, rereads_of_mem_items hs hitems⟩

theorem rereads_of_mem_fields {fields : List (Name × Sdl.Value)} {ts : List Token}
    (h : Many (Entry (IsValue true)) ts fields) (hts : ∀ t ∈ ts, t.IsWord) :
    ∀ p ∈ valueFields fields, (∀ x, .float x ∉ p.2.leaves) →
      IsIdentifier p.1.toList ∧ Rereads p.2 := by
  match fields with
  | [] => exact nofun
  | (name, v) :: fields =>
    cases h with
    | cons h hs =>
      obtain ⟨hfield, hfields⟩ := List.forall_mem_append.mp hts
      obtain @⟨tn, tv, c, _, _, hn, -, hv⟩ := h
      obtain @⟨t, hn⟩ := hn
      refine List.forall_mem_cons.mpr ⟨fun hfloat ↦ ⟨?_, ?_⟩, rereads_of_mem_fields hs hfields⟩
      · have hidentifier := (hfield t (by simp) hn).1
        rwa [String.toList_ofList]
      · exact rereads_of_isValue hv (fun u hu ↦ hfield u (by simp [hu])) hfloat

end

end Literals

/-- A default without decimal numbers is displayed as a constant value, which is read without a
fault. It is the same value with its strings read again, so it is the default exactly if all
characters in its strings are kept. -/
theorem isConstant_display {text : List Char} {d : Document}
    (h : Document.parse? text = some ⟨d, []⟩) {x : Definition} (hx : x ∈ d.definitions)
    {t : TypeDefinition} (ht : x.type? = some t) {a : InputValueDefinition} (ha : a ∈ t.inputs)
    {w : Sdl.Value} (hw : a.defaultValue = some w) (hfloat : ∀ x, .float x ∉ (value w).leaves) :
    ∃ w', IsConstant (value w).display.toList w' ∧ value w' = (value w).mapStrings reread ∧
      (value w' = value w ↔ ∀ s, .string s ∈ (value w).leaves → ∀ c ∈ s.toList, IsKept c) := by
  obtain ⟨us, hus, hinput⟩ := exists_infix_of_parse? (fun _ _ ↦ rfl) contains_inputs h hx ht ha
  obtain ⟨vs, hvs, hvalue⟩ := contains_default hinput w (Option.mem_toList.mpr hw)
  have hwords : ∀ t ∈ vs, t.IsWord := fun t ht ↦ isWord_of_mem_tokens ((hvs.trans hus).subset ht)
  obtain ⟨w', hconstant, hsame⟩ := (rereads_of_isValue hvalue hwords hfloat).exists_isConstant
  refine ⟨w', hconstant, hsame, ?_⟩
  simp only [hsame, Value.mapStrings_eq_iff, reread_eq_iff]

section Places

def placeText : List Char :=
  ("input Filter \x7b in: Place = \x7b name: \"a\\tb\", seasons: [SPRING, -1], open: true \x7d " ++
    "\x7d").toList

def placeDefault : Sdl.Value :=
  .object [(⟨"name", ⟨29, 33⟩⟩, .string "a\tb" ⟨35, 41⟩),
    (⟨"seasons", ⟨43, 50⟩⟩, .list [.enum ⟨"SPRING", ⟨53, 59⟩⟩, .int (-1) ⟨61, 63⟩] ⟨52, 64⟩),
    (⟨"open", ⟨66, 70⟩⟩, .boolean true ⟨72, 76⟩)] ⟨27, 78⟩

def placeInput : InputValueDefinition :=
  ⟨none, ⟨"in", ⟨15, 17⟩⟩, .named "Place" ⟨19, 24⟩, some placeDefault, [], ⟨15, 78⟩⟩

def placeType : TypeDefinition :=
  ⟨none, ⟨"Filter", ⟨6, 12⟩⟩, [], .input [placeInput], ⟨0, 80⟩⟩

theorem isConstant_display_place :
    Document.parse? placeText = some ⟨⟨[.type placeType], ⟨0, 80⟩⟩, []⟩ ∧
      (value placeDefault).display =
        "\x7bname: \"a\\tb\", seasons: [SPRING, -1], open: true\x7d" ∧
      ∃ w, IsConstant (value placeDefault).display.toList w ∧ value w = value placeDefault := by
  have hparse : Document.parse? placeText = some ⟨⟨[.type placeType], ⟨0, 80⟩⟩, []⟩ := rfl
  have hleaves : (value placeDefault).leaves =
      [.string "a\tb", .enum "SPRING", .int (-1), .boolean true] := rfl
  obtain ⟨w, hconstant, -, hkept⟩ := isConstant_display hparse (List.mem_singleton_self _) rfl
    (List.mem_singleton_self placeInput) rfl (by simp [hleaves])
  refine ⟨hparse, by decide, w, hconstant, hkept.mpr fun s hs ↦ ?_⟩
  obtain rfl : s = "a\tb" := by simpa [hleaves] using hs
  have hkept : IsKept 'a' ∧ IsKept '\t' ∧ IsKept 'b' := by decide
  simpa using hkept

end Places

/-- A zero, as its code point in the schema, is displayed as a zero digit behind a backslash, and
that is read as the digit. -/
theorem not_isConstant_display_zero :
    ¬ ∀ (text : List Char) (d : Document), Document.parse? text = some ⟨d, []⟩ →
      ∀ x ∈ d.definitions, ∀ t, x.type? = some t → ∀ a ∈ t.inputs, ∀ w, a.defaultValue = some w →
        (∀ x, .float x ∉ (value w).leaves) →
          ∃ w', IsConstant (value w).display.toList w' ∧ value w' = value w := by
  intro hall
  let zero : Sdl.Value := .string "\x00" ⟨22, 30⟩
  let input : InputValueDefinition :=
    ⟨none, ⟨"s", ⟨10, 11⟩⟩, .named "String" ⟨13, 19⟩, some zero, [], ⟨10, 30⟩⟩
  let type : TypeDefinition := ⟨none, ⟨"I", ⟨6, 7⟩⟩, [], .input [input], ⟨0, 32⟩⟩
  obtain ⟨w, hconstant, hsame⟩ := hall "input I \x7b s: String = \"\\u0000\" \x7d".toList
    ⟨[.type type], ⟨0, 32⟩⟩ rfl _ (List.mem_singleton_self _) type rfl input
    (List.mem_singleton_self _) zero rfl (by simp [zero, value, Value.leaves])
  obtain ⟨w', hconstant', hsame'⟩ := (rereads_string "\x00").exists_isConstant
  rw [hconstant.unique hconstant', hsame'] at hsame
  have hkept := (reread_eq_iff "\x00").mp (Model.Value.string.inj hsame)
  exact absurd (hkept _ (List.mem_singleton_self _)) (by decide)

end SchemaBindings
