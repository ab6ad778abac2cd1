import SchemaBindings.Proofs.Target.Declarations
import Mathlib.Logic.Relation

namespace SchemaBindings

open Model Template Relation

namespace Target

variable {next : String → List String}

theorem exists_chain_of_mem_reached {remaining pending : List String} {name : String}
    (h : name ∈ reached next remaining pending) :
    ∃ start ∈ pending, ReflTransGen (fun a b ↦ b ∈ next a) start name := by
  fun_induction reached next remaining pending with
  | case1 => cases h
  | case2 remaining first pending hfirst ih =>
    rcases List.mem_cons.mp h with rfl | h
    · exact ⟨name, by simp, .refl⟩
    · obtain ⟨start, hstart, hchain⟩ := ih h
      rcases List.mem_append.mp hstart with hstart | hstart
      · exact ⟨first, by simp, .head hstart hchain⟩
      · exact ⟨start, by simp [hstart], hchain⟩
  | case3 remaining first pending _ ih =>
    obtain ⟨start, hstart, hchain⟩ := ih h
    exact ⟨start, by simp [hstart], hchain⟩

theorem reached_closed (next : String → List String) (remaining pending : List String) :
    (∀ name ∈ pending, name ∈ remaining → name ∈ reached next remaining pending) ∧
      ∀ name ∈ reached next remaining pending, ∀ stored ∈ next name, stored ∈ remaining →
        stored ∈ reached next remaining pending := by
  fun_induction reached next remaining pending with
  | case1 => simp
  | case2 remaining first pending hfirst ih =>
    obtain ⟨hpending, hclosed⟩ := ih
    have hremains {name : String} (hname : name ∈ remaining)
        (h : name ∈ remaining.erase first →
          name ∈ reached next (remaining.erase first) (next first ++ pending)) :
        name ∈ first :: reached next (remaining.erase first) (next first ++ pending) := by
      by_cases hsame : name = first
      · simp [hsame]
      · exact List.mem_cons_of_mem _ (h ((List.mem_erase_of_ne hsame).mpr hname))
    constructor
    · intro name hname hremaining
      rcases List.mem_cons.mp hname with rfl | hname
      · exact List.mem_cons_self
      · exact hremains hremaining (hpending name (List.mem_append_right _ hname))
    · intro name hname stored hstored hremaining
      refine hremains hremaining fun herased ↦ ?_
      rcases List.mem_cons.mp hname with rfl | hname
      · exact hpending stored (List.mem_append_left _ hstored) herased
      · exact hclosed name hname stored hstored herased
  | case3 remaining first pending hfirst ih =>
    obtain ⟨hpending, hclosed⟩ := ih
    refine ⟨fun name hname hremaining ↦ ?_, hclosed⟩
    rcases List.mem_cons.mp hname with rfl | hname
    · exact absurd hremaining hfirst
    · exact hpending name hname hremaining

variable (t : Target)

/-- A value of the first type holds one of the second. -/
def Stores (a b : String) : Prop :=
  b ∈ t.storedIn a

variable {t}

theorem mem_storingTypes_of_stores {a b : String} (h : t.Stores a b) : a ∈ t.storingTypes := by
  have hname {α : Type} {f : α → String} {as : List α} {found : α}
      (hfound : as.find? (f · == a) = some found) : a ∈ as.map f :=
    List.mem_map.mpr
      ⟨found, List.mem_of_find?_eq_some hfound, by simpa using List.find?_some hfound⟩
  unfold Stores storedIn at h
  unfold storingTypes
  split at h
  next hobject => exact List.mem_append_left _ (List.mem_append_left _ (hname hobject))
  next _ hinput => exact List.mem_append_left _ (List.mem_append_right _ (hname hinput))
  next _ _ hunion => exact List.mem_append_right _ (hname hunion)
  · cases h

/-- The search finds whatever a chain leads to. -/
theorem mem_reached_of_chain {name other : String} (h : TransGen t.Stores name other)
    (hother : other ∈ t.storingTypes) :
    other ∈ reached t.storedIn t.storingTypes (t.storedIn name) := by
  obtain ⟨hpending, hclosed⟩ := reached_closed t.storedIn t.storingTypes (t.storedIn name)
  induction h with
  | single hstored => exact hpending _ hstored hother
  | tail _ hstored ih => exact hclosed _ (ih (mem_storingTypes_of_stores hstored)) _ hstored hother

theorem storesItself_iff (name : String) :
    t.storesItself name = true ↔ TransGen t.Stores name name := by
  rw [storesItself, List.contains_iff_mem]
  constructor
  · intro h
    obtain ⟨start, hstart, hchain⟩ := exists_chain_of_mem_reached h
    exact .head' hstart hchain
  · intro h
    obtain ⟨stored, hstored, -⟩ := TransGen.head'_iff.mp h
    exact mem_reached_of_chain h (mem_storingTypes_of_stores hstored)

def storedName? : Part → Option String
  | .object r => some r.name
  | .input i => some i.name
  | .union u => some u.name
  | _ => none

def valueLead : Part → List Char
  | .union _ => "public enum ".toList
  | _ => "public struct ".toList

def referenceLead : Part → List Char
  | .union _ => "public indirect enum ".toList
  | _ => "public final class ".toList

theorem valueLead_ne (p : Part) : valueLead p ≠ [] ∧ valueLead p ≠ referenceLead p := by
  have hstruct : "public struct ".toList ≠ [] ∧
      "public struct ".toList ≠ "public final class ".toList := by decide
  have henum : "public enum ".toList ≠ [] ∧
      "public enum ".toList ≠ "public indirect enum ".toList := by decide
  cases p with
  | union u => exact henum
  | _ => exact hstruct

variable (t) in
/-- Whether values of a name are written as structs or as enums that are not indirect. -/
def IsValueType (name : String) : Prop :=
  ∃ p ∈ t.model.parts, storedName? p = some name ∧ ∃ w, t.written? p = some w ∧
    ∃ heading ∈ w.headings, heading.lead = valueLead p

theorem leads_of_head (scope : Scope) {lead : String} :
    ((Language.typeHead lead).headings t.operations scope).map (·.lead) = [lead.toList] :=
  rfl

variable (t) in
theorem isReference_traits (record : Record) :
    (t.traits record.toJson).isReference = record.isReference := by
  obtain ⟨name, description, status, implements, isReference, properties⟩ := record
  cases isReference <;> rfl

theorem isIndirect_traits {u : UnionType} (hl : t.language = .swift) :
    (t.traits (t.unionNode u)).isIndirect = t.storesItself u.name := by
  rw [unionNode, if_pos hl]
  cases t.storesItself u.name <;> rfl

theorem leads_of_fromTemplate {kind : TemplateKind} (hkind : kind ≠ .file) {node : Json}
    {w : Written} (h : t.fromTemplate kind node = some w) {lead : String}
    (hheads : t.language.heads (t.traits node) kind = [Language.typeHead lead]) :
    w.headings.map (·.lead) = [lead.toList] := by
  rw [headings_of_fromTemplate hkind h, hheads, List.flatMap_singleton, leads_of_head]

theorem leads_of_record (hl : t.language = .swift) {kind : TemplateKind}
    (hkind : kind = .object ∨ kind = .input) {r : RecordType} {other : Json} {w : Written}
    (h : (t.recordNode? r other).bind (t.fromTemplate kind) = some w) :
    w.headings.map (·.lead) = [(if t.storesItself r.name then "public final class "
      else "public struct ").toList] := by
  obtain ⟨node, hnode, h⟩ := Option.bind_eq_some_iff.mp h
  obtain ⟨record, hok, rfl⟩ := exists_record_of_recordNode? hl hnode
  refine leads_of_fromTemplate (by rcases hkind with rfl | rfl <;> decide) h ?_
  rw [← (name_and_isReference_of_record hok).2, ← t.isReference_traits, hl]
  rcases hkind with rfl | rfl <;> cases hb : (t.traits record.toJson).isReference <;>
    simp [Language.heads, hb]

theorem leads_of_written? (hl : t.language = .swift) {p : Part} {name : String}
    (hname : storedName? p = some name) {w : Written} (hw : t.written? p = some w) :
    (∃ i custom, p = .input i ∧ t.customInput? i.name = some custom ∧
        w.headings.map (·.lead) = [[]]) ∨
      w.headings.map (·.lead) = [if t.storesItself name then referenceLead p else valueLead p] := by
  cases p with
  | object r =>
    obtain rfl := Option.some.inj hname
    refine .inr ((leads_of_record hl (.inl rfl) hw).trans ?_)
    cases t.storesItself r.name <;> rfl
  | input i =>
    obtain rfl := Option.some.inj hname
    simp only [written?] at hw
    split at hw
    next custom hcustom =>
      cases hw
      exact .inl ⟨i, custom, rfl, hcustom, rfl⟩
    · refine .inr ((leads_of_record hl (.inr rfl) hw).trans ?_)
      rw [show i.asRecord.name = i.name from rfl]
      cases t.storesItself i.name <;> rfl
  | union u =>
    obtain rfl := Option.some.inj hname
    have hheads : t.language.heads (t.traits (t.unionNode u)) .union =
        [Language.typeHead (if t.storesItself u.name then "public indirect enum "
          else "public enum ")] := by
      rw [← isIndirect_traits hl, hl]
      cases hb : (t.traits (t.unionNode u)).isIndirect <;> simp [Language.heads, hb]
    refine .inr ((leads_of_fromTemplate (by decide) hw hheads).trans ?_)
    cases t.storesItself u.name <;> rfl
  | _ => cases hname

theorem storesItself_eq_false_of_isValueType (hl : t.language = .swift) {name : String}
    (h : t.IsValueType name) : t.storesItself name = false := by
  obtain ⟨p, -, hname, w, hw, heading, hheading, hlead⟩ := h
  have hmem : valueLead p ∈ w.headings.map (·.lead) := List.mem_map.mpr ⟨heading, hheading, hlead⟩
  rcases leads_of_written? hl hname hw with ⟨_, _, _, _, hleads⟩ | hleads
  · rw [hleads, List.mem_singleton] at hmem
    exact absurd hmem (valueLead_ne p).1
  · rw [hleads, List.mem_singleton] at hmem
    cases hstores : t.storesItself name with
    | false => rfl
    | true => exact absurd (hmem.trans (if_pos hstores)) (valueLead_ne p).2

/-- A type stores itself if a non-empty chain of stored types leads from it back to it; types that
are written as values never do. -/
theorem storesItself_iff_and_acyclic (m : Model) (tables : Tables) :
    (∀ name, storesItself ⟨.swift, m, tables⟩ name = true ↔
      TransGen (Stores ⟨.swift, m, tables⟩) name name) ∧
    (∀ name, IsValueType ⟨.swift, m, tables⟩ name →
      ¬ TransGen (Stores ⟨.swift, m, tables⟩) name name) ∧
    ∀ name, ¬ TransGen (fun a b ↦ Stores ⟨.swift, m, tables⟩ a b ∧
      IsValueType ⟨.swift, m, tables⟩ a ∧ IsValueType ⟨.swift, m, tables⟩ b) name name := by
  have hvalues (name : String) (hname : IsValueType ⟨.swift, m, tables⟩ name) :
      ¬ TransGen (Stores ⟨.swift, m, tables⟩) name name := by
    rw [← storesItself_iff, storesItself_eq_false_of_isValueType rfl hname]
    exact Bool.false_ne_true
  refine ⟨storesItself_iff, hvalues, fun name hchain ↦ ?_⟩
  obtain ⟨other, ⟨-, hname, -⟩, -⟩ := TransGen.head'_iff.mp hchain
  exact hvalues name hname (hchain.lift id fun _ _ hstep ↦ hstep.1)

end Target

end SchemaBindings
