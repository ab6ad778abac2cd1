import SchemaBindings.Proofs.Sdl.Concatenation
import SchemaBindings.Proofs.Sdl.Starts

namespace SchemaBindings.Sdl

/-- A part of a document that has a span. -/
inductive Node where
  | name (n : Name)
  | description (d : Description)
  | typeRef (t : TypeRef)
  | value (v : Value)
  | argument (a : Argument)
  | directive (d : Directive)
  | inputValue (d : InputValueDefinition)
  | field (d : FieldDefinition)
  | enumValue (d : EnumValueDefinition)
  | operation (o : OperationType)
  | definition (x : Definition)

namespace Definition

def span : Definition → Span
  | schema d | schemaExtension d => d.span
  | type d | typeExtension d => d.span
  | directive d => d.span

def description? : Definition → Option Description
  | schema d | schemaExtension d => d.description
  | type d | typeExtension d => d.description
  | directive d => d.description

def undescribed : Definition → Definition
  | schema d => schema { d with description := none }
  | type d => type { d with description := none }
  | directive d => directive { d with description := none }
  | schemaExtension d => schemaExtension d
  | typeExtension d => typeExtension d

end Definition

namespace Node

def span : Node → Span
  | name n => n.span
  | description d => d.span
  | typeRef t => t.span
  | value v => v.span
  | argument a => a.span
  | directive d => d.span
  | inputValue d => d.span
  | field d => d.span
  | enumValue d => d.span
  | operation o => o.span
  | definition x => x.span

def described (d : Option Description) (n : Node) : List Node :=
  d.toList.map description ++ [n]

def ofInputValue (d : InputValueDefinition) : List Node :=
  described d.description (inputValue d)

def ofField (d : FieldDefinition) : List Node :=
  described d.description (field d)

def ofEnumValue (d : EnumValueDefinition) : List Node :=
  described d.description (enumValue d)

def ofDefinition (x : Definition) : List Node :=
  described x.description? (definition x)

def ofBody : TypeBody → List Node
  | .object _ fields | .interface _ fields => fields.flatMap ofField
  | .enum values => values.flatMap ofEnumValue
  | .input fields => fields.flatMap ofInputValue
  | .scalar | .union _ => []

def ofType (d : TypeDefinition) : List Node :=
  [name d.name] ++ d.implements.map name ++ d.directives.map directive ++ d.members.map name ++
    ofBody d.body

def ofSchema (d : SchemaDefinition) : List Node :=
  d.directives.map directive ++ d.operations.map operation

/-- The nodes directly inside a node, in the order in which they are written. The description of a
declaration stands before it. -/
def children : Node → List Node
  | name _ | description _ => []
  | typeRef (.named ..) => []
  | typeRef (.list t _) | typeRef (.nonNull t _) => [typeRef t]
  | value (.variableRef n) | value (.enum n) => [name n]
  | value (.list items _) => items.map value
  | value (.object fields _) => fields.flatMap fun f ↦ [name f.1, value f.2]
  | value _ => []
  | argument a => [name a.name, value a.value]
  | directive d => [name d.name] ++ d.arguments.map argument
  | inputValue d =>
    [name d.name, typeRef d.type] ++ d.defaultValue.toList.map value ++ d.directives.map directive
  | field d =>
    [name d.name] ++ d.arguments.flatMap ofInputValue ++ [typeRef d.type] ++
      d.directives.map directive
  | enumValue d => [name d.name] ++ d.directives.map directive
  | operation o => [name o.typeName]
  | definition (.schema d) | definition (.schemaExtension d) => ofSchema d
  | definition (.type d) | definition (.typeExtension d) => ofType d
  | definition (.directive d) => [name d.name] ++ d.arguments.flatMap ofInputValue

def isVariable : Node → Bool
  | value (.variableRef _) => true
  | _ => false

/-- The tokens of a node that its span covers. That of a variable leaves out the mark in front of
its name. -/
def spanned (n : Node) (us : List Token) : List Token :=
  if n.isVariable then us.tail else us

open Sentence

/-- The tokens spell the node. A description is no part of what it describes. -/
def Spelled (us : List Token) : Node → Prop
  | name n => IsName us n
  | description d => IsDescription us d
  | typeRef t => IsTypeRef us t
  | value v => ∃ constant, IsValue constant us v
  | argument a => IsArgument us a
  | directive d => IsDirective us d
  | inputValue d => IsInputValue us { d with description := none }
  | field d => IsField us { d with description := none }
  | enumValue d => IsEnumValue us { d with description := none }
  | operation o => IsOperationType us o
  | definition x => IsDefinition us x.undescribed

end Node

namespace Sentence

structure Successive (ts : List Token) : Prop where
  lt : ∀ t ∈ ts, t.span.start < t.span.stop
  pairwise : ts.Pairwise fun t u ↦ t.span.stop ≤ u.span.start

theorem Successive.sublist {ts us : List Token} (h : Successive us) (hs : ts.Sublist us) :
    Successive ts :=
  ⟨fun t ht ↦ h.lt t (hs.subset ht), h.pairwise.sublist hs⟩

/-- The span reaches from the start of one of the tokens to the end of one. -/
def Bounded (ts : List Token) (s : Span) : Prop :=
  ∃ first ∈ ts, ∃ last ∈ ts, s = ⟨first.span.start, last.span.stop⟩

variable {ts us : List Token} {s s' : Span} {t : Token}

theorem Bounded.mono (h : Bounded us s) (hs : us ⊆ ts) : Bounded ts s := by
  obtain ⟨first, hfirst, last, hlast, rfl⟩ := h
  exact ⟨first, hs hfirst, last, hs hlast, rfl⟩

theorem bounded_covered (h : ts ≠ []) : Bounded ts (covered ts) := by
  refine ⟨ts.head h, List.head_mem h, ts.getLast h, List.getLast_mem h, ?_⟩
  rw [covered, List.head?_eq_some_head h, List.getLast?_eq_some_getLast h]

theorem bounded_span (h : t ∈ ts) : Bounded ts t.span :=
  ⟨t, h, t, h, rfl⟩

theorem Bounded.stop_le (ho : Successive (ts ++ us)) (h : Bounded ts s) (h' : Bounded us s') :
    s.stop ≤ s'.start := by
  obtain ⟨-, -, last, hlast, rfl⟩ := h
  obtain ⟨first, hfirst, -, -, rfl⟩ := h'
  exact (List.pairwise_append.mp ho.pairwise).2.2 last hlast first hfirst

theorem start_covered_le (ho : Successive ts) (h : t ∈ ts) :
    (covered ts).start ≤ t.span.start := by
  obtain ⟨u, us, rfl⟩ := List.exists_cons_of_ne_nil (List.ne_nil_of_mem h)
  rw [start_covered]
  obtain rfl | hmem := List.mem_cons.mp h
  · exact le_rfl
  · have hle := (List.pairwise_cons.mp ho.pairwise).1 t hmem
    exact (ho.lt u List.mem_cons_self).le.trans hle

theorem le_stop_covered (ho : Successive ts) (h : t ∈ ts) : t.span.stop ≤ (covered ts).stop := by
  obtain ⟨us, u, rfl⟩ : ∃ us u, ts = us ++ [u] :=
    ⟨_, _, (List.dropLast_concat_getLast (List.ne_nil_of_mem h)).symm⟩
  have hstop : (covered (us ++ [u])).stop = u.span.stop := by
    simp only [covered, List.getLast?_concat]
    cases us <;> rfl
  rw [hstop]
  obtain hmem | hmem := List.mem_append.mp h
  · have hle := (List.pairwise_append.mp ho.pairwise).2.2 t hmem u (List.mem_singleton_self u)
    exact hle.trans (ho.lt u (List.mem_append_right _ (List.mem_singleton_self u))).le
  · rw [List.mem_singleton.mp hmem]

theorem Bounded.within (ho : Successive ts) (h : Bounded ts s) :
    (covered ts).start ≤ s.start ∧ s.stop ≤ (covered ts).stop := by
  obtain ⟨first, hfirst, last, hlast, rfl⟩ := h
  exact ⟨start_covered_le ho hfirst, le_stop_covered ho hlast⟩

end Sentence

namespace Node

open Sentence

variable {n : Node} {ts us : List Token}

theorem span_typeRef {t : TypeRef} (h : IsTypeRef us t) : t.span = covered us := by
  cases h with
  | nullable h =>
    cases h with
    | named h =>
      obtain ⟨-⟩ := h
      rfl
    | list => rfl
  | nonNull => rfl

theorem span_definition {x : Definition} (h : IsDefinition us x.undescribed) :
    x.span = covered us := by
  cases x with
  | schema d =>
    obtain ⟨description, directives, operations, span⟩ := d
    cases h with
    | schema hd hs =>
      cases hs
      cases hd
      rfl
    | extension hx => cases hx
  | type d =>
    obtain ⟨description, name, directives, body, span⟩ := d
    cases h with
    | type hd ht =>
      cases ht
      cases hd
      rfl
    | extension hx => cases hx
  | directive d =>
    obtain ⟨description, name, arguments, repeatable, locations, span⟩ := d
    cases h with
    | directive hd hx =>
      cases hx
      cases hd
      rfl
    | extension hx => cases hx
  | schemaExtension | typeExtension =>
    cases h with
    | extension hx =>
      cases hx
      rfl

theorem Spelled.span_eq_covered (h : n.Spelled us) (hn : n.isVariable = false) :
    n.span = covered us := by
  cases n with
  | name =>
    obtain ⟨-⟩ := h
    rfl
  | description => cases h <;> rfl
  | typeRef => exact span_typeRef h
  | value =>
    obtain ⟨constant, h⟩ := h
    cases h with
    | variableRef => cases hn
    | enum h =>
      obtain ⟨-⟩ := h
      rfl
    | _ => rfl
  | argument =>
    obtain ⟨-⟩ := h
    rfl
  | directive =>
    obtain ⟨-⟩ := h
    rfl
  | operation =>
    obtain ⟨-⟩ := h
    rfl
  | inputValue d =>
    obtain ⟨description, name, type, default, directives, span⟩ := d
    obtain ⟨hd, -, -, -⟩ := h
    cases hd
    rfl
  | field d =>
    obtain ⟨description, name, arguments, type, directives, span⟩ := d
    obtain ⟨hd, -, -, -, -⟩ := h
    cases hd
    rfl
  | enumValue d =>
    obtain ⟨description, name, directives, span⟩ := d
    obtain ⟨hd, -, -, -⟩ := h
    cases hd
    rfl
  | definition => exact span_definition h

theorem Spelled.span_variable (h : n.Spelled us) (hn : n.isVariable) :
    ∃ mark word, us = [mark, word] ∧ n.span = word.span := by
  cases n with
  | value v =>
    obtain ⟨constant, h⟩ := h
    cases h with
    | @variableRef mark _ _ _ _ hname =>
      obtain @⟨word, -⟩ := hname
      exact ⟨mark, word, rfl, rfl⟩
    | _ => cases hn
  | _ => cases hn

theorem Spelled.ne_nil (h : n.Spelled us) : us ≠ [] := by
  suffices hcons : ∃ t ts, us = t :: ts by
    obtain ⟨t, ts, rfl⟩ := hcons
    exact List.cons_ne_nil t ts
  have hopens {α : Type} {G : Phrase α} {first : TokenKind → Prop} (hG : Opens G first) {a : α}
      (h : G us a) : ∃ t ts, us = t :: ts := by
    obtain ⟨t, ts, hts, -⟩ := hG us a h
    exact ⟨t, ts, hts⟩
  cases n with
  | name => exact hopens opens_name h
  | description => exact hopens opens_description h
  | typeRef =>
    cases h with
    | nullable h =>
      cases h with
      | named h => exact hopens opens_name h
      | list => exact ⟨_, _, rfl⟩
    | nonNull h =>
      cases h with
      | named h =>
        obtain ⟨-⟩ := h
        exact ⟨_, _, rfl⟩
      | list => exact ⟨_, _, rfl⟩
  | value =>
    obtain ⟨constant, h⟩ := h
    exact hopens (opens_value constant) h
  | argument => exact hopens opens_argument h
  | directive => exact hopens opens_directive h
  | inputValue => exact hopens opens_inputValue h
  | field => exact hopens opens_field h
  | enumValue => exact hopens opens_enumValue h
  | operation =>
    obtain ⟨-, -, -⟩ := h
    exact ⟨_, _, rfl⟩
  | definition => exact hopens opens_definition h

theorem Spelled.spanned_ne_nil (h : n.Spelled us) : n.spanned us ≠ [] := by
  cases hn : n.isVariable with
  | true =>
    obtain ⟨mark, word, rfl, -⟩ := h.span_variable hn
    simp [spanned, hn]
  | false => simpa [spanned, hn] using h.ne_nil

/-- The span of a node starts where the first of its tokens does, the mark of a variable aside, and
stops where the last does. -/
theorem Spelled.span_eq (h : n.Spelled us) : n.span = covered (n.spanned us) := by
  cases hn : n.isVariable with
  | true =>
    obtain ⟨mark, word, rfl, hspan⟩ := h.span_variable hn
    simpa [spanned, hn, covered] using hspan
  | false => simpa [spanned, hn] using h.span_eq_covered hn

theorem spanned_subset (n : Node) (us : List Token) : n.spanned us ⊆ us := by
  rw [spanned]
  split
  · exact (List.tail_sublist us).subset
  · exact List.Subset.refl us

theorem Spelled.bounded (h : n.Spelled us) : Bounded us n.span := by
  rw [h.span_eq]
  exact (bounded_covered h.spanned_ne_nil).mono (n.spanned_subset us)

/-- The nodes are spelled by tokens among these, one after the other. -/
structure Holds (ts : List Token) (ns : List Node) : Prop where
  spelled : ∀ n ∈ ns, ∃ us, us <:+: ts ∧ n.Spelled us
  pairwise : Successive ts → ns.Pairwise fun m n ↦ m.span.stop ≤ n.span.start

theorem concatenates_holds : Concatenates Holds where
  nil := ⟨by simp, fun _ ↦ .nil⟩
  token _ := ⟨by simp, fun _ ↦ .nil⟩
  append := by
    intro ts us ms ns hms hns
    constructor
    · intro n hn
      obtain hn | hn := List.mem_append.mp hn
      · obtain ⟨vs, hvs, hn⟩ := hms.spelled n hn
        exact ⟨vs, hvs.trans (List.prefix_append ts us).isInfix, hn⟩
      · obtain ⟨vs, hvs, hn⟩ := hns.spelled n hn
        exact ⟨vs, hvs.trans (List.suffix_append ts us).isInfix, hn⟩
    · intro ho
      apply List.pairwise_append.mpr
      refine ⟨hms.pairwise (ho.sublist (List.sublist_append_left ts us)),
        hns.pairwise (ho.sublist (List.sublist_append_right ts us)), ?_⟩
      intro m hm n hn
      obtain ⟨vs, hvs, hm⟩ := hms.spelled m hm
      obtain ⟨ws, hws, hn⟩ := hns.spelled n hn
      exact Bounded.stop_le ho (hm.bounded.mono hvs.subset) (hn.bounded.mono hws.subset)

theorem Spelled.holds (h : n.Spelled us) : Holds us [n] :=
  ⟨by simpa using ⟨us, List.infix_rfl, h⟩, fun _ ↦ List.pairwise_singleton _ _⟩

theorem holds_described {d : Option Description} (hd : Optional IsDescription ts d)
    (h : n.Spelled us) : Holds (ts ++ us) (described d n) := by
  apply concatenates_holds.append _ h.holds
  cases hd with
  | absent => exact concatenates_holds.nil
  | present hd => exact Spelled.holds (n := .description _) hd

section Lists

variable {α : Type} {G : Phrase α} {items : α → List Node}

theorem lists_name : Lists Holds IsName fun n ↦ [name n] :=
  fun _ n h ↦ Spelled.holds (n := .name n) h

theorem lists_typeRef : Lists Holds IsTypeRef fun t ↦ [typeRef t] :=
  fun _ t h ↦ Spelled.holds (n := .typeRef t) h

theorem lists_value (constant : Bool) : Lists Holds (IsValue constant) fun v ↦ [value v] :=
  fun _ v h ↦ Spelled.holds (n := .value v) ⟨constant, h⟩

theorem lists_argument : Lists Holds IsArgument fun a ↦ [argument a] :=
  fun _ a h ↦ Spelled.holds (n := .argument a) h

theorem lists_directives : Lists Holds (Many IsDirective) (·.map directive) := by
  have h : Lists Holds IsDirective fun d ↦ [directive d] :=
    fun _ d h ↦ Spelled.holds (n := .directive d) h
  simpa only [List.map_eq_flatMap] using concatenates_holds.many h

theorem lists_operation : Lists Holds IsOperationType fun o ↦ [operation o] :=
  fun _ o h ↦ Spelled.holds (n := .operation o) h

theorem lists_entry (h : Lists Holds G items) :
    Lists Holds (Entry G) fun e ↦ [name e.1] ++ items e.2 := by
  intro ts e he
  obtain ⟨hn, -, ha⟩ := he
  exact concatenates_holds.append (concatenates_holds.before (lists_name hn) _) (h ha)

theorem lists_inputValue : Lists Holds IsInputValue ofInputValue := by
  intro ts d h
  obtain ⟨hd, he, hv, hds⟩ := h
  exact holds_described hd (.mk .absent he hv hds)

theorem lists_field : Lists Holds IsField ofField := by
  intro ts d h
  obtain ⟨hd, hn, has, ht, hds⟩ := h
  exact holds_described hd (.mk .absent hn has ht hds)

theorem lists_enumValue : Lists Holds IsEnumValue ofEnumValue := by
  intro ts d h
  obtain ⟨hd, hn, hk, hds⟩ := h
  exact holds_described hd (.mk .absent hn hk hds)

theorem lists_definition : Lists Holds IsDefinition ofDefinition := by
  intro ts x h
  cases h with
  | schema hd hs =>
    obtain ⟨hk, hds, hos⟩ := hs
    have h : IsDefinition ([] ++ _) _ := .schema .absent (.mk hk hds hos)
    exact holds_described hd h
  | type hd ht =>
    obtain ⟨hk, hn, hb⟩ := ht
    have h : IsDefinition ([] ++ _) _ := .type .absent (.mk hk hn hb)
    exact holds_described hd h
  | directive hd hx =>
    obtain ⟨ht, ha, hn, has, hr, ho, hl⟩ := hx
    have h : IsDefinition ([] ++ _) _ := .directive .absent (.mk ht ha hn has hr ho hl)
    exact holds_described hd h
  | extension hx =>
    have h := IsDefinition.extension hx
    cases hx with
    | schema he hs =>
      obtain ⟨-, -, -⟩ := hs
      exact Spelled.holds (n := .definition _) h
    | type he ht =>
      obtain ⟨-, -, -⟩ := ht
      exact Spelled.holds (n := .definition _) h

end Lists

section Children

theorem holds_childrenOfTypeRef {t : TypeRef} (h : IsTypeRef us t) :
    Holds us (typeRef t).children := by
  have hnullable {us : List Token} {t : TypeRef} (h : IsNullable us t) :
      Holds us (typeRef t).children := by
    cases h with
    | named => exact concatenates_holds.tokens _
    | list _ h _ =>
      exact concatenates_holds.before (concatenates_holds.behind _ (lists_typeRef h)) _
  cases h with
  | nullable h => exact hnullable h
  | nonNull h _ => exact concatenates_holds.before (lists_typeRef (.nullable h)) _

theorem holds_childrenOfValue {constant : Bool} {v : Value} (h : IsValue constant us v) :
    Holds us (value v).children := by
  cases h with
  | variableRef _ _ h => exact concatenates_holds.behind _ (lists_name h)
  | enum h => exact lists_name h
  | list h =>
    rw [children, List.map_eq_flatMap]
    exact concatenates_holds.bracketed (lists_value constant) h
  | object h => exact concatenates_holds.bracketed (lists_entry (lists_value constant)) h
  | _ => exact concatenates_holds.tokens _

theorem lists_namesBehind (k : TokenKind) (mark : Punctuator) :
    Lists Holds (NamesBehind k mark) (·.map name) := by
  intro ts ns h
  cases h with
  | absent => exact concatenates_holds.nil
  | present h =>
    change Holds ts (ns.map name)
    rw [List.map_eq_flatMap]
    exact concatenates_holds.preceded (concatenates_holds.separated lists_name) h

theorem holds_ofSchema {d : Option Description} {x : SchemaDefinition} (h : IsSchema d us x) :
    Holds us (ofSchema x) := by
  obtain ⟨-, hds, hos⟩ := h
  rw [ofSchema, List.map_eq_flatMap (f := operation)]
  exact concatenates_holds.append (concatenates_holds.behind _ (lists_directives hds))
    (concatenates_holds.enclosed lists_operation hos)

theorem holds_braced {α : Type} {G : Phrase α} {items : α → List Node} {body : List α → TypeBody}
    (h : Lists Holds G items) {ds : List Directive} {b : TypeBody}
    (hb : Braced G body us (ds, b)) :
    ∃ as, b = body as ∧ Holds us (ds.map directive ++ as.flatMap items) := by
  obtain ⟨hds, has⟩ := hb
  have hmembers := concatenates_holds.enclosed h has
  exact ⟨_, rfl, concatenates_holds.append (lists_directives hds) hmembers⟩

theorem holds_ofType {d : Option Description} {x : TypeDefinition} (h : IsTypeDefinition d us x) :
    Holds us (ofType x) := by
  have append := @concatenates_holds.append
  obtain @⟨t, _, _, _, _, _, _, -, hn, hb⟩ := h
  have hname := concatenates_holds.behind [t] (lists_name hn)
  simp only [ofType, TypeDefinition.implements, TypeDefinition.members]
  cases hb with
  | object hi hb | interface hi hb =>
    obtain ⟨fields, rfl, hfields⟩ := holds_braced lists_field hb
    simpa [ofBody] using append hname (append (lists_namesBehind _ _ hi) hfields)
  | enum hb =>
    obtain ⟨values, rfl, hvalues⟩ := holds_braced lists_enumValue hb
    simpa [ofBody] using append hname hvalues
  | input hb =>
    obtain ⟨fields, rfl, hfields⟩ := holds_braced lists_inputValue hb
    simpa [ofBody] using append hname hfields
  | union hds hms =>
    simpa [ofBody] using append hname (append (lists_directives hds) (lists_namesBehind _ _ hms))
  | scalar hds => simpa [ofBody] using append hname (lists_directives hds)

theorem holds_ofDirective {d : Option Description} {x : DirectiveDefinition}
    (h : IsDirectiveDefinition d us x) : Holds us (definition (.directive x)).children := by
  obtain ⟨-, -, hn, has, -, -, -⟩ := h
  apply concatenates_holds.before
  apply concatenates_holds.before
  apply concatenates_holds.before
  exact concatenates_holds.append (concatenates_holds.behind _ (lists_name hn))
    (concatenates_holds.enclosed lists_inputValue has)

theorem holds_childrenOfDefinition {x : Definition} (h : IsDefinition us x.undescribed) :
    Holds us (definition x).children := by
  cases x with
  | schema d =>
    cases h with
    | schema _ h => exact concatenates_holds.behind _ (holds_ofSchema h :)
    | extension h => cases h
  | type d =>
    cases h with
    | type _ h => exact concatenates_holds.behind _ (holds_ofType h :)
    | extension h => cases h
  | directive d =>
    cases h with
    | directive _ h => exact concatenates_holds.behind _ (holds_ofDirective h :)
    | extension h => cases h
  | schemaExtension d =>
    cases h with
    | extension h =>
      cases h with
      | schema _ h => exact concatenates_holds.behind _ (holds_ofSchema h :)
  | typeExtension d =>
    cases h with
    | extension h =>
      cases h with
      | type _ h => exact concatenates_holds.behind _ (holds_ofType h :)

theorem Spelled.holds_children (h : n.Spelled us) : Holds us n.children := by
  have append := @concatenates_holds.append
  cases n with
  | name | description => exact concatenates_holds.tokens us
  | typeRef => exact holds_childrenOfTypeRef h
  | value =>
    obtain ⟨constant, h⟩ := h
    exact holds_childrenOfValue h
  | argument =>
    obtain ⟨h⟩ := h
    exact lists_entry (lists_value false) h
  | directive =>
    obtain ⟨-, hn, has⟩ := h
    rw [children, List.map_eq_flatMap]
    exact append (concatenates_holds.behind _ (lists_name hn))
      (concatenates_holds.enclosed lists_argument has)
  | operation =>
    obtain ⟨-, -, hn⟩ := h
    exact concatenates_holds.behind _ (lists_name hn)
  | inputValue d =>
    obtain ⟨description, name, type, default, directives, span⟩ := d
    obtain ⟨-, he, hv, hds⟩ := h
    apply concatenates_holds.behind
    have hdefault := concatenates_holds.optional (concatenates_holds.preceded (lists_value true)) hv
    rw [children, List.map_eq_flatMap (f := value)]
    exact append (append (lists_entry lists_typeRef he) hdefault) (lists_directives hds)
  | field d =>
    obtain ⟨description, name, arguments, type, directives, span⟩ := d
    obtain ⟨-, hn, has, ht, hds⟩ := h
    apply concatenates_holds.behind
    have harguments := concatenates_holds.enclosed lists_inputValue has
    have htype := concatenates_holds.preceded lists_typeRef ht
    exact append (append (append (lists_name hn) harguments) htype) (lists_directives hds)
  | enumValue d =>
    obtain ⟨description, name, directives, span⟩ := d
    obtain ⟨-, hn, -, hds⟩ := h
    apply concatenates_holds.behind
    exact append (lists_name hn) (lists_directives hds)
  | definition => exact holds_childrenOfDefinition h

end Children

end Node

end SchemaBindings.Sdl
