import SchemaBindings.Proofs.Sdl.Layout
import SchemaBindings.Proofs.Sdl.Nodes

namespace SchemaBindings.Sdl

/-- From the start of a declaration, its description included, to its end. -/
def extent (d : Option Description) (s : Span) : Span :=
  ⟨startOf d s, s.stop⟩

def InputValueDefinition.extents (d : InputValueDefinition) : List Span :=
  [extent d.description d.span]

def EnumValueDefinition.extents (d : EnumValueDefinition) : List Span :=
  [extent d.description d.span]

def FieldDefinition.extents (d : FieldDefinition) : List Span :=
  extent d.description d.span :: d.arguments.flatMap (·.extents)

def TypeBody.extents : TypeBody → List Span
  | .object _ fields | .interface _ fields => fields.flatMap (·.extents)
  | .enum values => values.flatMap (·.extents)
  | .input fields => fields.flatMap (·.extents)
  | .scalar | .union _ => []

def Definition.inner : Definition → List Span
  | .schema _ | .schemaExtension _ => []
  | .type d | .typeExtension d => d.body.extents
  | .directive d => d.arguments.flatMap (·.extents)

def Definition.extents (x : Definition) : List Span :=
  extent x.description? x.span :: x.inner

namespace Document

def extents (d : Document) : List Span :=
  d.definitions.flatMap (·.extents)

def nodes (d : Document) : List Node :=
  d.definitions.flatMap Node.ofDefinition

inductive Contains (d : Document) : Node → Prop
  | node {n : Node} (h : n ∈ d.nodes) : Contains d n
  | child {m n : Node} (hm : Contains d m) (hn : n ∈ m.children) : Contains d n

end Document

namespace Sentence

variable {ts us pre post td : List Token} {s s' : Span} {d : Option Description}

theorem Bounded.start_lt (ho : Successive (ts ++ us)) (h : Bounded ts s) (h' : Bounded us s') :
    s.start < s'.start := by
  obtain ⟨first, hfirst, -, -, rfl⟩ := h
  obtain ⟨first', hfirst', -, -, rfl⟩ := h'
  have hlt := ho.lt first (List.mem_append_left us hfirst)
  exact hlt.trans_le ((List.pairwise_append.mp ho.pairwise).2.2 first hfirst first' hfirst')

theorem Bounded.stop_lt (ho : Successive (ts ++ us)) (h : Bounded ts s) (h' : Bounded us s') :
    s.stop < s'.stop := by
  obtain ⟨-, -, last, hlast, rfl⟩ := h
  obtain ⟨-, -, last', hlast', rfl⟩ := h'
  have hle := (List.pairwise_append.mp ho.pairwise).2.2 last hlast last' hlast'
  exact hle.trans_lt (ho.lt last' (List.mem_append_right ts hlast'))

/-- The earlier one starts first. It has stopped before the later one starts, or stops behind it. -/
def Nested (s s' : Span) : Prop :=
  s.start < s'.start ∧ (s.stop ≤ s'.start ∨ s'.stop < s.stop)

theorem Bounded.nested (ho : Successive (ts ++ us)) (h : Bounded ts s) (h' : Bounded us s') :
    Nested s s' :=
  ⟨h.start_lt ho h', .inl (h.stop_le ho h')⟩

theorem Bounded.nested_covered (ho : Successive (pre ++ us ++ post)) (hpre : pre ≠ [])
    (hpost : post ≠ []) (h : Bounded us s) : Nested (covered (pre ++ us ++ post)) s := by
  have hfirst := (bounded_covered hpre).start_lt (ho.sublist (List.sublist_append_left _ post)) h
  have hlast := (h.mono (List.subset_append_right pre us)).stop_lt ho (bounded_covered hpost)
  have hwithin := ((bounded_covered hpre).mono (by simp)).within ho
  have hwithin' := ((bounded_covered hpost).mono (by simp)).within ho
  exact ⟨hwithin.1.trans_lt hfirst, .inr (hlast.trans_le hwithin'.2)⟩

/-- The spans lie in the tokens, and each two of them are apart or strictly nested. -/
structure Nest (ts : List Token) (es : List Span) : Prop where
  bounded : ∀ e ∈ es, Bounded ts e
  pairwise : es.Pairwise Nested

def Nests (ts : List Token) (es : List Span) : Prop :=
  Successive ts → Nest ts es

theorem concatenates_nests : Concatenates Nests where
  nil _ := ⟨by simp, .nil⟩
  token _ _ := ⟨by simp, .nil⟩
  append := by
    intro ts us es es' h h' ho
    have h := h (ho.sublist (List.sublist_append_left ts us))
    have h' := h' (ho.sublist (List.sublist_append_right ts us))
    constructor
    · exact List.forall_mem_append.mpr
        ⟨fun e he ↦ (h.bounded e he).mono (List.subset_append_left ts us),
          fun e he ↦ (h'.bounded e he).mono (List.subset_append_right ts us)⟩
    · apply List.pairwise_append.mpr
      exact ⟨h.pairwise, h'.pairwise,
        fun e he e' he' ↦ (h.bounded e he).nested ho (h'.bounded e' he')⟩

def NestsInside (ts : List Token) (es : List Span) : Prop :=
  es = [] ∨ ∃ pre us post, ts = pre ++ us ++ post ∧ pre ≠ [] ∧ post ≠ [] ∧ Nests us es

theorem NestsInside.behind (h : NestsInside us es) (ts : List Token) :
    NestsInside (ts ++ us) es := by
  obtain rfl | ⟨pre, us, post, rfl, hpre, hpost, h⟩ := h
  · exact .inl rfl
  · exact .inr ⟨ts ++ pre, us, post, by simp, by simp [hpre], hpost, h⟩

theorem NestsInside.before (h : NestsInside ts es) (us : List Token) :
    NestsInside (ts ++ us) es := by
  obtain rfl | ⟨pre, ts, post, rfl, hpre, hpost, h⟩ := h
  · exact .inl rfl
  · exact .inr ⟨pre, ts, post ++ us, by simp, hpre, by simp [hpost], h⟩

theorem extent_covered (hd : Optional IsDescription td d) (hus : us ≠ [])
    (ho : Successive (td ++ us)) : extent d (covered us) = covered (td ++ us) := by
  cases hd with
  | absent => rfl
  | present hd =>
    obtain ⟨u, us, rfl⟩ := List.exists_cons_of_ne_nil hus
    have hmin (t : Token) (ho : Successive ([t] ++ u :: us)) :
        (⟨min t.span.start (covered (u :: us)).start, (covered (u :: us)).stop⟩ : Span) =
          covered ([t] ++ u :: us) := by
      have hlt := (bounded_span (List.mem_singleton_self t)).start_lt ho
        (bounded_covered (List.cons_ne_nil u us))
      rw [min_eq_left hlt.le]
      exact (covered_cons (List.cons_ne_nil u us)).symm
    cases hd <;> exact hmin _ ho

theorem NestsInside.declared (h : NestsInside us es) (hd : Optional IsDescription td d)
    (hus : us ≠ []) : Nests (td ++ us) (extent d (covered us) :: es) := by
  intro ho
  rw [extent_covered hd hus ho]
  have hcovered := bounded_covered (List.append_ne_nil_of_right_ne_nil td hus)
  obtain rfl | ⟨pre, vs, post, hvs, hpre, hpost, hes⟩ := h.behind td
  · exact ⟨by simpa using hcovered, List.pairwise_singleton _ _⟩
  · rw [hvs] at ho hcovered ⊢
    have hes := hes (ho.sublist (by simp))
    constructor
    · refine List.forall_mem_cons.mpr ⟨hcovered, fun e he ↦ ?_⟩
      exact (hes.bounded e he).mono (by simp)
    · refine List.pairwise_cons.mpr ⟨fun e he ↦ ?_, hes.pairwise⟩
      exact (hes.bounded e he).nested_covered ho hpre hpost

section Lists

variable {α : Type} {G : Phrase α} {items : α → List Span}

theorem lists_enclosed {opening closing : Punctuator} (h : Lists Nests G items) :
    Lists NestsInside (Enclosed opening closing G) (·.flatMap items) := by
  intro ts as has
  cases has with
  | absent => exact .inl rfl
  | present has =>
    obtain ⟨-, hm, -⟩ := has
    exact .inr ⟨_, _, _, rfl, by simp, by simp, concatenates_nests.many h hm⟩

theorem lists_inputValue : Lists Nests IsInputValue (·.extents) := by
  intro ts d h
  obtain ⟨hd, ⟨⟨-⟩, -, -⟩, -, -⟩ := h
  exact NestsInside.declared (.inl rfl) hd (by simp)

theorem lists_enumValue : Lists Nests IsEnumValue (·.extents) := by
  intro ts d h
  obtain ⟨hd, -, -, -⟩ := h
  exact NestsInside.declared (.inl rfl) hd (by simp)

theorem lists_field : Lists Nests IsField (·.extents) := by
  intro ts d h
  obtain ⟨hd, ⟨-⟩, has, -, -⟩ := h
  have harguments := lists_enclosed lists_inputValue has
  exact (((harguments.behind _).before _).before _).declared hd (by simp)

theorem lists_braced {body : List α → TypeBody} (h : Lists Nests G items)
    (hbody : ∀ as, (body as).extents = as.flatMap items) :
    Lists NestsInside (Braced G body) (·.2.extents) := by
  intro ts b hb
  obtain @⟨td, ta, ds, as, -, has⟩ := hb
  have hmembers : NestsInside ta (as.flatMap items) := lists_enclosed h has
  rw [← hbody] at hmembers
  exact hmembers.behind td

theorem lists_typeBody (k : Keyword) : Lists NestsInside (IsTypeBody k) (·.2.extents) := by
  intro ts b hb
  cases hb with
  | object _ hb | interface _ hb => exact (lists_braced lists_field (fun _ ↦ rfl) hb).behind _
  | enum hb => exact lists_braced lists_enumValue (fun _ ↦ rfl) hb
  | input hb => exact lists_braced lists_inputValue (fun _ ↦ rfl) hb
  | union | scalar => exact .inl rfl

theorem lists_type {d : Option Description} :
    Lists NestsInside (IsTypeDefinition d) (·.body.extents) := by
  intro ts x hx
  obtain ⟨-, -, hb⟩ := hx
  exact (lists_typeBody _ hb).behind _

theorem lists_definition : Lists Nests IsDefinition (·.extents) := by
  intro ts x h
  cases h with
  | schema hd hs =>
    obtain ⟨-, -, -⟩ := hs
    exact NestsInside.declared (.inl rfl) hd (by simp)
  | type hd ht =>
    have hinner := lists_type ht
    obtain ⟨-, -, -⟩ := ht
    exact hinner.declared hd (by simp)
  | directive hd hx =>
    obtain ⟨-, -, -, has, -, -, -⟩ := hx
    have harguments := lists_enclosed lists_inputValue has
    exact ((((harguments.behind _).before _).before _).before _).declared hd (by simp)
  | extension hx =>
    cases hx with
    | schema he hs =>
      obtain ⟨-, -, -⟩ := hs
      exact NestsInside.declared (.inl rfl) .absent (by simp)
    | type he ht =>
      have hinner := lists_type ht
      obtain ⟨-, -, -⟩ := ht
      exact (hinner.behind [_]).declared .absent (by simp)

end Lists

end Sentence

open Sentence

theorem successive_tokens (text : List Char) : Successive (tokens text) :=
  ⟨fun t ht ↦ ((laidOut_tokens text).proper t ht).2, (laidOut_tokens text).pairwise⟩

theorem Sentence.Bounded.within_tokenize {text : List Char} {s : Span}
    (h : Bounded (tokens text) s) :
    (covered (tokenize text)).start ≤ s.start ∧ s.stop ≤ (covered (tokenize text)).stop := by
  obtain ⟨hstart, -⟩ := h.within (successive_tokens text)
  obtain ⟨first, hfirst, last, hlast, rfl⟩ := h
  rw [tokenize, covered_end]
  refine ⟨?_, ((laidOut_tokens text).within.2 last hlast).2⟩
  obtain ⟨u, us, hus⟩ := List.exists_cons_of_ne_nil (List.ne_nil_of_mem hfirst)
  rw [hus, start_covered] at hstart
  rw [hus]
  exact hstart

theorem Node.Spelled.within {m n : Node} {us : List Token} (h : m.Spelled us)
    (ho : Successive us) (hn : n ∈ m.children) :
    m.span.start ≤ n.span.start ∧ n.span.stop ≤ m.span.stop := by
  cases hm : m.isVariable with
  | false =>
    obtain ⟨vs, hvs, hn⟩ := h.holds_children.spelled n hn
    rw [h.span_eq_covered hm]
    exact (hn.bounded.mono hvs.subset).within ho
  | true =>
    cases m with
    | value v =>
      cases v with
      | variableRef name =>
        obtain rfl := List.mem_singleton.mp hn
        exact ⟨le_rfl, le_rfl⟩
      | _ => cases hm
    | _ => cases hm

theorem Node.Spelled.span_ne_covered {n : Node} {us : List Token} (h : n.Spelled us)
    (ho : Successive us) (hn : n.isVariable) : n.span ≠ covered us := by
  obtain ⟨mark, word, rfl, hspan⟩ := h.span_variable hn
  have hmark := bounded_span (List.mem_singleton_self mark)
  have hword := bounded_span (List.mem_singleton_self word)
  have hlt : mark.span.start < word.span.start := hmark.start_lt ho hword
  intro heq
  rw [hspan] at heq
  exact hlt.ne' (congrArg Span.start heq :)

theorem Document.Contains.spelled {d : Document} {n : Node} {ts : List Token} (h : d.Contains n)
    (hd : Node.Holds ts d.nodes) : ∃ us, us <:+: ts ∧ n.Spelled us := by
  induction h with
  | node h => exact hd.spelled _ h
  | child _ hn ih =>
    obtain ⟨us, hus, hm⟩ := ih
    obtain ⟨vs, hvs, hn⟩ := hm.holds_children.spelled _ hn
    exact ⟨vs, hvs.trans hus, hn⟩

/-- The spans of a document nest as the tokens that spell its nodes do. -/
structure Document.SpansNest (d : Document) (ts : List Token) : Prop where
  covers : ∀ n, d.Contains n → ∃ us, us <:+: ts ∧ n.Spelled us ∧
    n.spanned us ≠ [] ∧ n.span = covered (n.spanned us)
  inside : ∀ m, d.Contains m → ∀ n ∈ m.children,
    m.span.start ≤ n.span.start ∧ n.span.stop ≤ m.span.stop
  inOrder : ∀ m, d.Contains m → m.children.Pairwise fun n n' ↦ n.span.stop ≤ n'.span.start
  nodes_inside : ∀ n ∈ d.nodes, d.span.start ≤ n.span.start ∧ n.span.stop ≤ d.span.stop
  nodes_inOrder : d.nodes.Pairwise fun n n' ↦ n.span.stop ≤ n'.span.start
  extents_nested : d.extents.Pairwise Nested

theorem Document.spansNest_of_parse? {text : List Char} {d : Document}
    (h : Document.parse? text = some ⟨d, []⟩) : d.SpansNest (tokens text) := by
  have ho := successive_tokens text
  obtain ⟨-, hds⟩ := (exists_parse?_iff text d.definitions).mp ⟨d.span, h⟩
  have hnodes : Node.Holds (tokens text) d.nodes :=
    Node.concatenates_holds.many Node.lists_definition hds
  have hextents : Nests (tokens text) d.extents := concatenates_nests.many lists_definition hds
  have hspan : d.span = covered (tokenize text) := by
    obtain ⟨-, hdoc⟩ := (Document.parse?_eq_some_iff text d).mp h
    generalize tokenize text = all at hdoc ⊢
    cases hdoc
    rfl
  have hspelled {n : Node} (hn : d.Contains n) :
      ∃ us, us <:+: tokens text ∧ Successive us ∧ n.Spelled us := by
    obtain ⟨us, hus, hn⟩ := hn.spelled hnodes
    exact ⟨us, hus, ho.sublist hus.sublist, hn⟩
  constructor
  case covers =>
    intro n hn
    obtain ⟨us, hus, -, hn⟩ := hspelled hn
    exact ⟨us, hus, hn, hn.spanned_ne_nil, hn.span_eq⟩
  case inside =>
    intro m hm n hn
    obtain ⟨us, -, ho, hm⟩ := hspelled hm
    exact hm.within ho hn
  case inOrder =>
    intro m hm
    obtain ⟨us, -, ho, hm⟩ := hspelled hm
    exact hm.holds_children.pairwise ho
  case nodes_inside =>
    intro n hn
    obtain ⟨us, hus, hn⟩ := hnodes.spelled n hn
    rw [hspan]
    exact (hn.bounded.mono hus.subset).within_tokenize
  case nodes_inOrder => exact hnodes.pairwise ho
  case extents_nested => exact (hextents ho).pairwise

theorem Document.spansNest_of_parse?_type : ∃ text d,
    text = "\"A\" type A @b(c: $d) \x7b \"E\" e(\"F\" f: [G!] = [1]): H \x7d".toList ∧
      Document.parse? text = some ⟨d, []⟩ ∧ d.extents.length = 3 ∧ d.SpansNest (tokens text) := by
  have hrun : (Document.parse?
      "\"A\" type A @b(c: $d) \x7b \"E\" e(\"F\" f: [G!] = [1]): H \x7d".toList).map
        (fun p ↦ (p.diagnostics, p.document.extents.length)) = some ([], 3) := by
    decide +kernel
  obtain ⟨⟨d, diagnostics⟩, htext, hd⟩ := Option.map_eq_some_iff.mp hrun
  obtain ⟨rfl, hlength⟩ := Prod.mk.inj hd
  exact ⟨_, d, rfl, htext, hlength, spansNest_of_parse? htext⟩

theorem Document.span_variable_ne_covered : ∃ d n,
    Document.parse? "scalar A @b(c: $d)".toList = some ⟨d, []⟩ ∧ d.Contains n ∧
      ¬∃ us, us <:+: tokens "scalar A @b(c: $d)".toList ∧ n.Spelled us ∧ n.span = covered us := by
  let d : Name := ⟨"d", ⟨16, 17⟩⟩
  let c : Argument := ⟨⟨"c", ⟨12, 13⟩⟩, .variableRef d, ⟨12, 17⟩⟩
  let b : Directive := ⟨⟨"b", ⟨10, 11⟩⟩, [c], ⟨9, 18⟩⟩
  let a : Definition := .type ⟨none, ⟨"A", ⟨7, 8⟩⟩, [b], .scalar, ⟨0, 18⟩⟩
  refine ⟨⟨[a], ⟨0, 18⟩⟩, .value (.variableRef d), rfl, ?_, ?_⟩
  · have ha : Contains ⟨[a], ⟨0, 18⟩⟩ (.definition a) := .node (List.mem_singleton_self _)
    have hb : Contains ⟨[a], ⟨0, 18⟩⟩ (.directive b) := ha.child (.tail _ (.head _))
    have hc : Contains ⟨[a], ⟨0, 18⟩⟩ (.argument c) := hb.child (.tail _ (.head _))
    exact hc.child (.tail _ (.head _))
  · intro hus
    obtain ⟨us, hus, hn, hspan⟩ := hus
    exact hn.span_ne_covered ((successive_tokens _).sublist hus.sublist) rfl hspan

end SchemaBindings.Sdl
