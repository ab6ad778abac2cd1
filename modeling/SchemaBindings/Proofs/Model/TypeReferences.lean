import SchemaBindings.Model.Build
import SchemaBindings.Proofs.Attempt
import SchemaBindings.Proofs.Model.Levels
import SchemaBindings.Proofs.Schema.Loaded
import SchemaBindings.Proofs.Sdl.Significant

namespace SchemaBindings

open Sdl Naming Text Model Model.Build

namespace Sdl

def TypeRef.MarksOnce : TypeRef → Prop
  | .named _ _ => True
  | .list t _ => t.MarksOnce
  | .nonNull t _ => t.isNonNull = false ∧ t.MarksOnce

def Token.IsProper (t : Token) : Prop :=
  (∀ p, t.kind = .punctuator p → t.text = p.text.toList) ∧ (t.kind.isName → IsIdentifier t.text)

theorem isProper_of_mem_tokens {text : List Char} {t : Token} (ht : t ∈ tokens text) :
    t.IsProper :=
  ⟨(inOrder_tokens text).text_eq t ht, isIdentifier_of_mem_tokens ht⟩

/-- Nothing in a token separates tokens, and the token is not cut off. -/
def Token.IsSolid (t : Token) : Prop :=
  t.kind ≠ .cutEscape ∧ Sdl.IsSolid t.text

theorem isSolid_of_isName {t : Token} (ht : t.IsProper) (hk : t.kind.isName) : t.IsSolid := by
  refine ⟨fun hcut ↦ by simp [hcut, TokenKind.isName] at hk, fun c hc ↦ ?_⟩
  refine of_isNameChar (P := fun c ↦ isSeparator c = false ∧ c ≠ '#') ?_ ((ht.2 hk).chars c hc)
  decide

theorem isSolid_of_punctuator {t : Token} (ht : t.IsProper) {p : Punctuator}
    (hk : t.kind = .punctuator p) : t.IsSolid := by
  refine ⟨by simp [hk], ?_⟩
  rw [ht.1 p hk]
  cases p <;> simp [Sdl.IsSolid, Punctuator.text] <;> decide

/-- The tokens spell a reference, which can be read off their texts. -/
structure Spelling (ts : List Token) (r : TypeRef) : Prop where
  ne_nil : ts ≠ []
  solid : ∀ t ∈ ts, t.IsSolid
  span_eq : r.span = Sentence.covered ts
  text_eq : ts.flatMap (·.text) = r.display.toList
  marksOnce : r.MarksOnce
  name : IsIdentifier r.name.toList

namespace Sentence

mutual

theorem spelling_of_isTypeRef {ts : List Token} {r : TypeRef} (h : IsTypeRef ts r)
    (hts : ∀ t ∈ ts, t.IsProper) : Spelling ts r := by
  cases h with
  | nullable h => exact (spelling_of_isNullable h hts).1
  | @nonNull ts b r h hb =>
    obtain ⟨hts, hbang⟩ := List.forall_mem_append.mp hts
    have hproper := List.forall_mem_singleton.mp hbang
    obtain ⟨hr, hnull⟩ := spelling_of_isNullable h hts
    refine ⟨by simp, ?_, rfl, ?_, ⟨hnull, hr.marksOnce⟩, hr.name⟩
    · exact List.forall_mem_append.mpr
        ⟨hr.solid, List.forall_mem_singleton.mpr (isSolid_of_punctuator hproper hb)⟩
    · simp [hr.text_eq, hproper.1 _ hb, TypeRef.display, Punctuator.text]

theorem spelling_of_isNullable {ts : List Token} {r : TypeRef} (h : IsNullable ts r)
    (hts : ∀ t ∈ ts, t.IsProper) : Spelling ts r ∧ r.isNonNull = false := by
  cases h with
  | named hn =>
    obtain @⟨t, hk⟩ := hn
    have hproper := List.forall_mem_singleton.mp hts
    refine ⟨⟨by simp, List.forall_mem_singleton.mpr (isSolid_of_isName hproper hk), ?_, ?_, trivial,
      ?_⟩, rfl⟩
    · simp [covered, TypeRef.span]
    · simp [TypeRef.display]
    · simpa [TypeRef.name] using hproper.2 hk
  | @list o c ts r ho h hc =>
    obtain ⟨hfront, hclose⟩ := List.forall_mem_append.mp hts
    obtain ⟨hopen, hts⟩ := List.forall_mem_append.mp hfront
    have ho' := List.forall_mem_singleton.mp hopen
    have hc' := List.forall_mem_singleton.mp hclose
    have hr := spelling_of_isTypeRef h hts
    refine ⟨⟨by simp, ?_, rfl, ?_, hr.marksOnce, hr.name⟩, rfl⟩
    · refine List.forall_mem_append.mpr ⟨List.forall_mem_append.mpr ⟨?_, hr.solid⟩, ?_⟩
      · exact List.forall_mem_singleton.mpr (isSolid_of_punctuator ho' ho)
      · exact List.forall_mem_singleton.mpr (isSolid_of_punctuator hc' hc)
    · simp [hr.text_eq, ho'.1 _ ho, hc'.1 _ hc, TypeRef.display, Punctuator.text]

end

end Sentence

end Sdl

namespace Model.TypeExpr

section Display

theorem toList_display_list (item : TypeExpr) :
    (list item).display.toList = '[' :: (item.display.toList ++ [']']) := by
  simp [display]

theorem toList_display_nonNull (type : TypeExpr) :
    (nonNull type).display.toList = type.display.toList ++ ['!'] := by
  simp [display]

variable {e : TypeExpr} (h : ∀ c ∈ e.name.toList, isNameChar c)

include h

theorem filter_display : e.display.toList.filter isNameChar = e.name.toList := by
  have hmarks : isNameChar '[' = false ∧ isNameChar ']' = false ∧ isNameChar '!' = false := by
    decide
  induction e with
  | scalar name => exact List.filter_eq_self.mpr h
  | named type => exact List.filter_eq_self.mpr h
  | list item ih =>
    have hitem := ih h
    rw [toList_display_list]
    simpa [hmarks, name] using hitem
  | nonNull type ih =>
    have htype := ih h
    rw [toList_display_nonNull]
    simpa [hmarks, name] using htype

theorem count_display : e.display.toList.count '[' = e.listDepth := by
  have hname {text : String} (htext : ∀ c ∈ text.toList, isNameChar c) :
      text.toList.count '[' = 0 :=
    List.count_eq_zero.mpr fun hmem ↦ absurd (htext _ hmem) (by decide)
  induction e with
  | scalar name => exact hname h
  | named type => exact hname h
  | list item ih =>
    have hitem := ih h
    rw [toList_display_list]
    simp [hitem, listDepth]
  | nonNull type ih =>
    have htype := ih h
    rw [toList_display_nonNull]
    simp [htype, listDepth]

theorem getLast?_display : e.display.toList.getLast? = some '!' ↔ e.isRequired = true := by
  have hname {text : String} (htext : ∀ c ∈ text.toList, isNameChar c) :
      text.toList.getLast? ≠ some '!' :=
    fun hlast ↦ absurd (htext _ (List.mem_of_getLast? hlast)) (by decide)
  cases e with
  | scalar name => exact iff_of_false (hname h) nofun
  | named type => exact iff_of_false (hname h) nofun
  | list item =>
    rw [toList_display_list, ← List.cons_append, List.getLast?_append]
    exact iff_of_false (by simp) nofun
  | nonNull type =>
    rw [toList_display_nonNull]
    simp [isRequired]

end Display

/-- The type is the one that a text spells. Its name is what remains of the text without marks, its
lists are the opening brackets, and it is non-null if a mark comes last. -/
structure IsWrittenAs (e : TypeExpr) (written : List Char) : Prop where
  display_eq : e.display.toList = significant false written
  marksOnce : e.MarksOnce
  name_eq : e.name.toList = (significant false written).filter isNameChar
  listDepth_eq : e.listDepth = (significant false written).count '['
  isRequired_iff : e.isRequired = true ↔ (significant false written).getLast? = some '!'

theorem isWrittenAs {e : TypeExpr} {written : List Char}
    (h : e.display.toList = significant false written) (honce : e.MarksOnce)
    (hchars : ∀ c ∈ e.name.toList, isNameChar c) : e.IsWrittenAs written where
  display_eq := h
  marksOnce := honce
  name_eq := by rw [← h, filter_display hchars]
  listDepth_eq := by rw [← h, count_display hchars]
  isRequired_iff := by rw [← h, getLast?_display hchars]

end Model.TypeExpr

theorem Model.Build.Context.exists_typeExpr {c : Context} {r : TypeRef} (hr : r.MarksOnce)
    {kind : TypeKind} (hkind : c.schema.kind? r.name = some kind) (referrer : String) :
    ∃ e, c.typeExpr referrer r = .ok e ∧ e.display = r.display ∧ e.name = r.name ∧
      e.isRequired = r.isNonNull ∧ e.MarksOnce := by
  induction r with
  | named name span =>
    have hkind : c.schema.kind? name = some kind := hkind
    simp only [typeExpr, hkind]
    split
    · exact ⟨_, rfl, rfl, rfl, rfl, trivial⟩
    · exact ⟨_, rfl, rfl, rfl, rfl, trivial⟩
  | list r span ih =>
    obtain ⟨e, he, hdisplay, hname, -, honce⟩ := ih hr hkind
    exact ⟨.list e, by rw [typeExpr, he]; rfl, by rw [TypeExpr.display, hdisplay]; rfl, hname, rfl,
      honce⟩
  | nonNull r span ih =>
    obtain ⟨e, he, hdisplay, hname, hrequired, honce⟩ := ih hr.2 hkind
    rw [hr.1] at hrequired
    have hmarked : e.require = .nonNull e := by
      cases e with
      | nonNull => cases hrequired
      | _ => rfl
    exact ⟨.nonNull e, by rw [typeExpr, he, ← hmarked]; rfl,
      by rw [TypeExpr.display, hdisplay]; rfl, hname, rfl, hrequired, honce⟩

def SchemaType.references (t : SchemaType) : List (Nat × TypeRef) :=
  t.collect TypeDefinition.references

section Loaded

variable {sources : Sources} {s : LoadedSchema} {t : SchemaType}

theorem Loaded.exists_kind? (h : Loaded sources s) (ht : t ∈ s.schema.types) {file : Nat}
    {r : TypeRef} (hr : (file, r) ∈ t.references) : ∃ kind, s.schema.kind? r.name = some kind := by
  have hwf := h.types_wellFormed t ht
  have hrefers : ∃ kind, Refers s.schema.types r.name kind := by
    obtain ⟨part, hpart, hr⟩ := List.mem_flatMap.mp hr
    obtain ⟨r', hr, he⟩ := List.mem_map.mp hr
    cases he
    have hmem {α : Type} {items : TypeDefinition → List α} {a : α}
        (ha : a ∈ items part.definition) : (part.file, a) ∈ t.collect items :=
      List.mem_flatMap.mpr ⟨part, hpart, List.mem_map.mpr ⟨a, ha, rfl⟩⟩
    rcases List.mem_append.mp hr with hr | hr
    · obtain ⟨f, hf, rfl⟩ := List.mem_map.mp hr
      obtain ⟨kind, hkind, -⟩ := hwf.field_types _ (hmem hf)
      exact ⟨kind, hkind⟩
    · obtain ⟨a, ha, rfl⟩ := List.mem_map.mp hr
      rcases List.mem_append.mp ha with ha | ha
      · obtain ⟨f, hf, ha⟩ := List.mem_flatMap.mp ha
        obtain ⟨kind, hkind, -⟩ := hwf.argument_types _ (hmem hf) a ha
        exact ⟨kind, hkind⟩
      · obtain ⟨kind, hkind, -⟩ := hwf.inputField_types _ (hmem ha)
        exact ⟨kind, hkind⟩
  obtain ⟨kind, hkind⟩ := hrefers
  exact ⟨kind, (kindOf?_eq_some_iff h.names_nodup h.names_new _ _).mpr hkind⟩

theorem Loaded.exists_spelling (h : Loaded sources s) (ht : t ∈ s.schema.types) {file : Nat}
    {r : TypeRef} (hr : (file, r) ∈ t.references) :
    ∃ ts, ts <:+: tokens (sources.file file).chars ∧ Spelling ts r := by
  obtain ⟨part, hpart, hr⟩ := List.mem_flatMap.mp hr
  obtain ⟨r', hr, he⟩ := List.mem_map.mp hr
  cases he
  obtain ⟨d, x, hd, hx, htype⟩ := h.exists_parse? ht hpart
  obtain ⟨ts, hts, hg⟩ := Sentence.exists_infix_of_parse? (fun _ _ ↦ rfl)
    Sentence.contains_references hd hx htype hr
  exact ⟨ts, hts, Sentence.spelling_of_isTypeRef hg fun t ht ↦
    isProper_of_mem_tokens (hts.subset ht)⟩

theorem Loaded.exists_isWrittenAs (h : Loaded sources s) (ht : t ∈ s.schema.types) {file : Nat}
    {r : TypeRef} (hr : (file, r) ∈ t.references) (wrappers : List String) (referrer : String) :
    ∃ e written, Context.typeExpr ⟨s, wrappers⟩ referrer r = .ok e ∧
      sliceBytes? r.span.start r.span.stop (sources.file file).chars = some written ∧
      e.display = r.display ∧ e.IsWrittenAs written := by
  obtain ⟨kind, hkind⟩ := h.exists_kind? ht hr
  obtain ⟨ts, hts, hspelling⟩ := h.exists_spelling ht hr
  obtain ⟨written, hwritten, htext⟩ := exists_slice_of_infix hts hspelling.ne_nil hspelling.solid
  obtain ⟨e, he, hdisplay, hname, -, honce⟩ :=
    Context.exists_typeExpr (c := ⟨s, wrappers⟩) hspelling.marksOnce hkind referrer
  refine ⟨e, written, he, by rwa [hspelling.span_eq], hdisplay, ?_⟩
  refine TypeExpr.isWrittenAs ?_ honce (hname ▸ hspelling.name.chars)
  rw [hdisplay, htext, hspelling.text_eq]

end Loaded

/-- Every reference of a loaded schema has a type, whatever the context. The type is written as the
reference is in its file, without what separates tokens. Its name is what remains of that without
marks, its lists are the opening brackets, and it is non-null if a mark comes last. -/
theorem typeExpr_of_load {sources : Sources} {s : LoadedSchema} (h : Schema.load sources = .ok s)
    {t : SchemaType} (ht : t ∈ s.schema.types) {file : Nat} {r : TypeRef}
    (hr : (file, r) ∈ t.references) (wrappers : List String) (referrer : String) :
    ∃ e written, Context.typeExpr ⟨s, wrappers⟩ referrer r = .ok e ∧
      sliceBytes? r.span.start r.span.stop (sources.file file).chars = some written ∧
      e.display.toList = significant false written ∧ e.display = r.display ∧ e.MarksOnce ∧
      e.name.toList = (significant false written).filter isNameChar ∧
      e.listDepth = (significant false written).count '[' ∧
      (e.isRequired = true ↔ (significant false written).getLast? = some '!') := by
  obtain ⟨e, written, he, hslice, hdisplay, hwritten⟩ :=
    (loaded_of_load h).exists_isWrittenAs ht hr wrappers referrer
  exact ⟨e, written, he, hslice, hwritten.display_eq, hdisplay, hwritten.marksOnce,
    hwritten.name_eq, hwritten.listDepth_eq, hwritten.isRequired_iff⟩

def commentSources : Sources :=
  [.ofText "all.graphql" "type Query \x7b all(of: [ID ,\n# each\n ! ] !): Query \x7d"]

theorem typeExpr_of_load_comment :
    ∃ s t r e, Schema.load commentSources = .ok s ∧ t ∈ s.schema.types ∧ (0, r) ∈ t.references ∧
      Context.typeExpr ⟨s, []⟩ "" r = .ok e ∧
      sliceBytes? r.span.start r.span.stop (commentSources.file 0).chars =
        some "[ID ,\n# each\n ! ] !".toList ∧
      e.display = "[ID!]!" ∧ e.name = "ID" ∧ e.listDepth = 1 ∧ e.isRequired = true := by
  have hrun : Attempt.succeeds (Schema.load commentSources) (fun s ↦
      s.schema.types.any fun t ↦ t.references.any fun p ↦ p.1 == 0 &&
        sliceBytes? p.2.span.start p.2.span.stop (commentSources.file 0).chars ==
          some "[ID ,\n# each\n ! ] !".toList) = true := by decide +kernel
  obtain ⟨s, hload, hrun⟩ := (Attempt.succeeds_iff _ _).mp hrun
  simp only [List.any_eq_true, Bool.and_eq_true, beq_iff_eq] at hrun
  obtain ⟨t, ht, ⟨file, r⟩, hr, rfl, hslice⟩ := hrun
  obtain ⟨e, written, he, hwritten, hdisplay, -, -, hname, hdepth, hrequired⟩ :=
    typeExpr_of_load hload ht hr [] ""
  obtain rfl := Option.some.inj (hwritten.symm.trans hslice)
  have htext : significant false "[ID ,\n# each\n ! ] !".toList = "[ID!]!".toList := by decide
  rw [htext] at hdisplay hname hdepth hrequired
  refine ⟨s, t, r, e, hload, ht, hr, he, hslice, String.toList_injective hdisplay,
    String.toList_injective (hname.trans ?_), hdepth.trans ?_, hrequired.mpr ?_⟩ <;> decide

end SchemaBindings
