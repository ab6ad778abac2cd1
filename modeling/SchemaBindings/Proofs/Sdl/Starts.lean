import SchemaBindings.Proofs.Sdl.Parsing
import SchemaBindings.Proofs.Sdl.Scanning

namespace SchemaBindings.Sdl

open Text

variable {α : Type}

def Increasing (ts : List Token) : Prop :=
  ts.Pairwise fun t u ↦ t.span.start < u.span.start

theorem Increasing.left {ts us : List Token} (h : Increasing (ts ++ us)) : Increasing ts :=
  (List.pairwise_append.mp h).1

theorem Increasing.right {ts us : List Token} (h : Increasing (ts ++ us)) : Increasing us :=
  (List.pairwise_append.mp h).2.1

theorem increasing_tokensFrom (skip offset : Nat) (cs : List Char) :
    Increasing (tokensFrom skip offset cs) := by
  induction cs generalizing skip offset with
  | nil => cases skip <;> exact .nil
  | cons c cs ih =>
    cases skip with
    | succ skip => exact ih skip _
    | zero =>
      rw [tokensFrom]
      split
      · exact ih _ _
      next kind _ =>
        refine List.pairwise_cons.mpr ⟨fun t ht ↦ ?_, ih _ _⟩
        have hstart := (inOrder_tokensFrom _ _ cs).2 t ht
        have hsize := c.utf8Size_pos
        rw [start_of]
        omega

theorem exists_not_isBlank_of_mem_tokens {text : List Char} {t : Token} (ht : t ∈ tokens text)
    (hf : ¬ t.kind.isFault) :
    ∃ pre c rest, text = pre ++ c :: rest ∧ t.span.start = byteLength pre ∧ ¬ isBlank c := by
  obtain ⟨pre, c, rest, kind, htext, hk, rfl⟩ := exists_scan_of_mem_tokensFrom ht
  refine ⟨pre, c, rest, htext, by rw [start_of, Nat.zero_add], fun hc ↦ hf ?_⟩
  rw [kind_of]
  exact (scan_of_isBlank hc rest).2 kind hk

namespace Sentence

/-- What `starts` gives of a tree are starts of tokens that spell it, in their order. -/
def Marks (G : Phrase α) (starts : α → List Nat) : Prop :=
  ∀ ⦃ts a⦄, G ts a → Increasing ts → (starts a).Sublist (ts.map (·.span.start))

variable {G : Phrase α} {starts : α → List Nat}

theorem Marks.many (h : Marks G starts) : Marks (Many G) (List.flatMap starts) := by
  intro ts as hs hts
  induction hs with
  | nil => exact .slnil
  | cons ha _ ih =>
    rw [List.flatMap_cons, List.map_append]
    exact (h ha hts.left).append (ih hts.right)

theorem Marks.enclosed {opening closing : Punctuator} (h : Marks G starts) :
    Marks (Enclosed opening closing G) (List.flatMap starts) := by
  intro ts as hs hts
  cases hs with
  | absent => exact .slnil
  | present hb =>
    obtain ⟨-, hm, -⟩ := hb
    simp only [List.map_append]
    exact ((h.many hm hts.left.right).trans (List.sublist_append_right _ _)).trans
      (List.sublist_append_left _ _)

theorem start_covered (t : Token) (ts : List Token) : (covered (t :: ts)).start = t.span.start := by
  simp [covered, List.getLast?_cons]

theorem startOf_covered {td us : List Token} {u : Token} {d : Option Description}
    (hd : Optional IsDescription td d) (h : Increasing (td ++ u :: us)) :
    [startOf d (covered (u :: us))].Sublist ((td ++ [u]).map (·.span.start)) := by
  cases hd with
  | absent => simp [startOf, start_covered]
  | present hd =>
    have hmin (t : Token) (h : Increasing ([t] ++ u :: us)) :
        min t.span.start (covered (u :: us)).start = t.span.start := by
      have hlt := (List.pairwise_cons.mp h).1 u (by simp)
      rw [start_covered]
      omega
    cases hd <;> simp [startOf, hmin _ h]

theorem sublist_startOf {td us : List Token} {d : Option Description}
    (hd : Optional IsDescription td d) (hus : us ≠ []) (h : Increasing (td ++ us)) :
    [startOf d (covered us)].Sublist ((td ++ us).map (·.span.start)) := by
  obtain ⟨u, us, rfl⟩ := List.exists_cons_of_ne_nil hus
  refine (startOf_covered hd h).trans (List.Sublist.map _ ?_)
  exact (List.append_sublist_append_left td).mpr (by simp)

theorem marks_field : Marks IsField fun f ↦ [f.start] := by
  intro ts f hf hts
  obtain ⟨hd, ⟨-⟩, -, -, -⟩ := hf
  exact sublist_startOf hd (by simp) hts

theorem marks_inputValue : Marks IsInputValue fun f ↦ [f.start] := by
  intro ts f hf hts
  obtain ⟨hd, ⟨⟨-⟩, -, -⟩, -, -⟩ := hf
  exact sublist_startOf hd (by simp) hts

theorem marks_enumValue : Marks IsEnumValue fun v ↦ [v.start] := by
  intro ts v hv hts
  obtain ⟨hd, -, -, -⟩ := hv
  exact sublist_startOf hd (by simp) hts

end Sentence

def TypeBody.memberStarts : TypeBody → List Nat
  | .object _ fields | .interface _ fields => fields.map (·.start)
  | .input fields => fields.map (·.start)
  | .enum values => values.map (·.start)
  | .scalar | .union _ => []

/-- Where the type of a definition and its members start. Only the members of an extension are
declared by it. -/
def Definition.starts : Definition → List Nat
  | .type d => d.start :: d.body.memberStarts
  | .typeExtension d => d.body.memberStarts
  | .schema _ | .schemaExtension _ | .directive _ => []

namespace Sentence

theorem marks_braced {G : Phrase α} {start : α → Nat} {body : List α → TypeBody}
    (h : Marks G fun a ↦ [start a]) (hb : ∀ as, (body as).memberStarts = as.map start) :
    Marks (Braced G body) (·.2.memberStarts) := by
  intro ts x hx hts
  obtain ⟨-, ha⟩ := hx
  have hmembers := h.enclosed ha hts.right
  rw [← List.map_eq_flatMap, ← hb] at hmembers
  rw [List.map_append]
  exact hmembers.trans (List.sublist_append_right _ _)

theorem marks_typeBody (k : Keyword) : Marks (IsTypeBody k) (·.2.memberStarts) := by
  intro ts b hb hts
  cases hb with
  | object _ hb =>
    rw [List.map_append]
    exact (marks_braced marks_field (fun _ ↦ rfl) hb hts.right).trans
      (List.sublist_append_right _ _)
  | interface _ hb =>
    rw [List.map_append]
    exact (marks_braced marks_field (fun _ ↦ rfl) hb hts.right).trans
      (List.sublist_append_right _ _)
  | union => exact List.nil_sublist _
  | enum hb => exact marks_braced marks_enumValue (fun _ ↦ rfl) hb hts
  | input hb => exact marks_braced marks_inputValue (fun _ ↦ rfl) hb hts
  | scalar => exact List.nil_sublist _

theorem sublist_starts_type {td ts : List Token} {d : Option Description} {t : TypeDefinition}
    (hd : Optional IsDescription td d) (ht : IsTypeDefinition d ts t)
    (h : Increasing (td ++ ts)) :
    (t.start :: t.body.memberStarts).Sublist ((td ++ ts).map (·.span.start)) := by
  obtain @⟨u, _, tn, tb, _, _, _, _, -, hb⟩ := ht
  have hmembers := marks_typeBody _ hb h.right.right
  have hstart := startOf_covered hd (show Increasing (td ++ u :: (tn ++ tb)) by simpa using h)
  have hboth := hstart.append (hmembers.trans (List.sublist_append_right (tn.map (·.span.start)) _))
  simpa [TypeDefinition.start] using hboth

theorem marks_definition : Marks IsDefinition Definition.starts := by
  intro ts x hx hts
  cases hx with
  | schema => exact List.nil_sublist _
  | type hd ht => exact sublist_starts_type hd ht hts
  | directive => exact List.nil_sublist _
  | extension hx =>
    cases hx with
    | schema => exact List.nil_sublist _
    | type he ht =>
      have h := sublist_starts_type .absent ht hts.right
      exact ((List.sublist_cons_self _ _).trans h).trans (by simp)

end Sentence

/-- What a text declares starts where tokens of it start, each with another one. -/
theorem sublist_starts_of_parse? {text : List Char} {d : Document}
    (h : Document.parse? text = some ⟨d, []⟩) :
    (d.definitions.flatMap Definition.starts).Sublist ((tokens text).map (·.span.start)) := by
  obtain ⟨-, hds⟩ := (exists_parse?_iff text d.definitions).mp ⟨d.span, h⟩
  exact Sentence.marks_definition.many hds (increasing_tokensFrom 0 0 text)

theorem exists_char_of_mem_starts {text : List Char} {d : Document}
    (h : Document.parse? text = some ⟨d, []⟩) {offset : Nat}
    (ho : offset ∈ d.definitions.flatMap Definition.starts) :
    ∃ pre c rest, text = pre ++ c :: rest ∧ offset = byteLength pre ∧ ¬ isBlank c := by
  obtain ⟨t, ht, rfl⟩ := List.mem_map.mp ((sublist_starts_of_parse? h).subset ho)
  have hf := not_isFault_of_parse? (by simp [h]) t ht
  exact exists_not_isBlank_of_mem_tokens ht hf

theorem nodup_starts {text : List Char} {d : Document}
    (h : Document.parse? text = some ⟨d, []⟩) :
    (d.definitions.flatMap Definition.starts).Nodup := by
  have hlt := List.pairwise_map.mpr (increasing_tokensFrom 0 0 text)
  exact (hlt.imp Nat.ne_of_lt).sublist (sublist_starts_of_parse? h)

end SchemaBindings.Sdl
