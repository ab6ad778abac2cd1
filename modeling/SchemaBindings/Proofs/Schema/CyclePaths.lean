import SchemaBindings.Proofs.Schema.InputCycles
import SchemaBindings.Proofs.Schema.Loading
import Mathlib.Data.List.Chain

namespace SchemaBindings.Validation

open Sdl Relation

/-- A value of the input object `a` must hold one of the input object `b`, because of the field
`f`. -/
structure RequiresBy (types : List SchemaType) (a b : String) (f : Nat × InputValueDefinition) :
    Prop where
  owner : ∃ t ∈ types, t.name = a ∧ t.kind = .inputObject ∧ f ∈ t.inputFields
  target : ∃ t ∈ types, t.name = b ∧ t.kind = .inputObject
  type : ∃ inner outer, f.2.type = .nonNull (.named b inner) outer

def InputEdge (types : List SchemaType) (a b : String) : Prop :=
  ∃ f, RequiresBy types a b f

/-- The issue names a cycle of input objects and points at the field that closes it. -/
def ReportsCycle (types : List SchemaType) (issue : SchemaIssue) : Prop :=
  ∃ cycle owner target f,
    issue = ⟨.inputCycle (cycle ++ [target]), f.2.span.inFile f.1⟩ ∧
      cycle.head? = some target ∧ cycle.getLast? = some owner ∧ cycle.Nodup ∧
      List.IsChain (InputEdge types) (cycle ++ [target]) ∧ RequiresBy types owner target f

variable {types : List SchemaType}

theorem RequiresBy.inputEdge {a b : String} {f : Nat × InputValueDefinition}
    (h : RequiresBy types a b f) : InputEdge types a b :=
  ⟨f, h⟩

theorem ReportsCycle.code_eq {issue : SchemaIssue} (h : ReportsCycle types issue) :
    issue.fault.code = .inputCycle := by
  obtain ⟨_, _, _, _, rfl, -⟩ := h
  rfl

theorem ReportsCycle.exists_transGen {issue : SchemaIssue} (h : ReportsCycle types issue) :
    ∃ name, TransGen (InputEdge types) name name := by
  obtain ⟨cycle, owner, target, f, -, hhead, hlast, -, hchain, hf⟩ := h
  cases cycle with
  | nil => cases hhead
  | cons a cycle =>
    obtain rfl : a = target := by simpa using hhead
    have hreach : ReflTransGen (InputEdge types) a owner :=
      List.relationReflTransGen_of_exists_isChain_cons cycle hchain.left_of_append
        (by simpa [List.getLast?_eq_some_getLast] using hlast)
    exact ⟨a, TransGen.tail' hreach hf.inputEdge⟩

/-- The search may stand at `node` after `path`: a path of required fields that meets no input
object twice. -/
structure Leads (types : List SchemaType) (path : List String) (node : String) : Prop where
  chain : List.IsChain (InputEdge types) (path ++ [node])
  nodup : (path ++ [node]).Nodup
  inputs : ∀ p ∈ path ++ [node], ∃ t ∈ types, t.name = p ∧ t.kind = .inputObject

theorem leads_nil {t : SchemaType} (ht : t ∈ types) (hk : t.kind = .inputObject) :
    Leads types [] t.name := by
  refine ⟨.singleton _, by simp, fun p hp ↦ ?_⟩
  rw [List.mem_singleton.mp hp]
  exact ⟨t, ht, rfl, hk⟩

variable {path : List String} {node : String} {need : Need}

theorem Leads.append (h : Leads types path node)
    (hneed : RequiresBy types node need.target (need.file, need.field))
    (hnew : need.target ∉ path ++ [node]) : Leads types (path ++ [node]) need.target := by
  refine ⟨h.chain.append (.singleton _) ?_, ?_, ?_⟩
  · simpa using hneed.inputEdge
  · refine List.nodup_append.mpr ⟨h.nodup, by simp, fun p hp q hq he ↦ hnew ?_⟩
    rwa [← List.mem_singleton.mp hq, ← he]
  · rw [List.forall_mem_append]
    exact ⟨h.inputs, List.forall_mem_singleton.mpr hneed.target⟩

theorem Leads.length_lt (h : Leads types path node) : path.length < types.length := by
  have hnames : path ++ [node] ⊆ types.map (·.name) := by
    intro p hp
    obtain ⟨t, ht, rfl, -⟩ := h.inputs p hp
    exact List.mem_map_of_mem ht
  have hle := (List.subperm_of_subset h.nodup hnames).length_le
  simp only [List.length_append, List.length_singleton, List.length_map] at hle
  omega

theorem exists_dropWhile_eq_cons {l : List String} {a : String} (h : a ∈ l) :
    ∃ before after, l = before ++ a :: after ∧ l.dropWhile (· != a) = a :: after := by
  induction l with
  | nil => cases h
  | cons b l ih =>
    by_cases hb : b = a
    · exact ⟨[], l, by simp [hb], by simp [hb]⟩
    · obtain ⟨before, after, hl, hdrop⟩ := ih (by simpa [Ne.symm hb] using h)
      exact ⟨b :: before, after, by rw [hl, List.cons_append], by simpa [hb] using hdrop⟩

theorem Leads.reportsCycle (h : Leads types path node)
    (hneed : RequiresBy types node need.target (need.file, need.field))
    (hmem : need.target ∈ path ++ [node]) :
    ReportsCycle types
      ⟨.inputCycle ((path ++ [node]).dropWhile (· != need.target) ++ [need.target]),
        need.field.span.inFile need.file⟩ := by
  obtain ⟨before, after, hsplit, hdrop⟩ := exists_dropWhile_eq_cons hmem
  have hsuffix : need.target :: after <:+ path ++ [node] := ⟨before, hsplit.symm⟩
  have hlast : (need.target :: after).getLast? = some node := by
    rw [← List.getLast?_append_of_ne_nil before (List.cons_ne_nil _ _), ← hsplit,
      List.getLast?_concat]
  rw [hdrop]
  refine ⟨_, node, need.target, (need.file, need.field), rfl, rfl, hlast,
    hsuffix.sublist.nodup h.nodup, (h.chain.suffix hsuffix).append (.singleton _) ?_, hneed⟩
  simpa [hlast] using hneed.inputEdge

section Search

variable (hn : (types.map (·.name)).Nodup)
include hn

theorem requiresBy_of_mem_needs (hnode : ∃ t ∈ types, t.name = node ∧ t.kind = .inputObject)
    (hneed : need ∈ needs types node) :
    RequiresBy types node need.target (need.file, need.field) := by
  obtain ⟨t, ht, rfl, hk⟩ := hnode
  have htarget : Needs types t.name need.target := ⟨need, hneed, rfl⟩
  rw [mem_needs_iff hn t ht, needsOf, List.mem_filterMap] at hneed
  obtain ⟨⟨file, f⟩, hf, hneed⟩ := hneed
  refine ⟨⟨t, ht, rfl, hk, ?_⟩, htarget.target_mem, ?_⟩ <;> grind

theorem Leads.requiresBy (h : Leads types path node) (hneed : need ∈ needs types node) :
    RequiresBy types node need.target (need.file, need.field) :=
  requiresBy_of_mem_needs hn (h.inputs node (by simp)) hneed

theorem reportsCycle_visit (depth : Nat) (h : Leads types path node) (s : CycleSearch)
    (hs : ∀ issue ∈ s.issues, ReportsCycle types issue) :
    ∀ issue ∈ (visit types depth path node s).issues, ReportsCycle types issue := by
  induction depth generalizing path node s with
  | zero => exact hs
  | succ depth ih =>
    rw [visit_succ]
    refine List.foldlRecOn (needs types node) _
      (motive := fun s : CycleSearch ↦ ∀ issue ∈ s.issues, ReportsCycle types issue) hs
      fun s hs need hneed ↦ ?_
    have hby := h.requiresBy hn hneed
    unfold follow
    split
    · rename_i hmem
      refine List.forall_mem_append.mpr ⟨hs, List.forall_mem_singleton.mpr ?_⟩
      exact h.reportsCycle hby (by simpa using hmem)
    · rename_i hnew
      split
      · exact hs
      · exact ih (h.append hby (by simpa using hnew)) s hs

theorem reportsCycle_of_mem_checkCycles :
    ∀ issue ∈ checkCycles types, ReportsCycle types issue := by
  refine List.foldlRecOn types _
    (motive := fun s : CycleSearch ↦ ∀ issue ∈ s.issues, ReportsCycle types issue) (by simp)
    fun s hs t ht ↦ ?_
  split
  · rename_i hk
    exact reportsCycle_visit hn _ (leads_nil ht hk.1) s hs
  · exact hs

/-- The search never comes to the end of its depth: a greater depth changes nothing. -/
theorem visit_succ_eq (depth : Nat) (h : Leads types path node)
    (hdepth : types.length ≤ depth + path.length) (s : CycleSearch) :
    visit types (depth + 1) path node s = visit types depth path node s := by
  induction depth generalizing path node s with
  | zero =>
    have := h.length_lt
    omega
  | succ depth ih =>
    rw [visit_succ, visit_succ]
    have hfold : (needs types node).foldl (follow types (depth + 1) (path ++ [node])) s =
        (needs types node).foldl (follow types depth (path ++ [node])) s := by
      refine List.foldl_ext _ _ _ fun s need hneed ↦ ?_
      have hby := h.requiresBy hn hneed
      unfold follow
      split
      · rfl
      · rename_i hnew
        split
        · rfl
        · refine ih (h.append hby (by simpa using hnew)) ?_ s
          rw [List.length_append, List.length_singleton]
          omega
    rw [hfold]

end Search

theorem needs_of_inputEdge (hn : (types.map (·.name)).Nodup)
    (hb : ∀ t ∈ types, t.name ∉ builtinScalars) {a b : String} (h : InputEdge types a b) :
    Needs types a b := by
  obtain ⟨f, ⟨t, ht, rfl, -, hf⟩, ⟨u, hu, rfl, hk⟩, htype⟩ := h
  exact (needs_iff_requires hn hb _ _).mpr ⟨t, ht, rfl, hk ▸ .declared hu, f, hf, htype⟩

/-- Among merged types the search for cycles reports one exactly if the required fields of input
objects form one, and every path that it reports is a cycle, which the reported field closes. -/
theorem checkCycles_reports {definitions : List Placed}
    (h : Merge.types definitions = .ok types) :
    ((∃ issue ∈ checkCycles types, issue.fault.code = .inputCycle) ↔
      ∃ name, TransGen (InputEdge types) name name) ∧
    ∀ issue ∈ checkCycles types, ReportsCycle types issue := by
  obtain ⟨hb, hn, -, rfl⟩ := (Merge.types_eq_ok_iff _ _).mp h
  rw [← names_merged] at hn
  replace hb : ∀ t ∈ Merge.merged definitions, t.name ∉ builtinScalars := by
    intro t ht
    obtain ⟨d, hd, rfl⟩ := List.mem_map.mp ht
    exact hb d hd
  refine ⟨⟨fun h ↦ ?_, fun h ↦ ?_⟩, reportsCycle_of_mem_checkCycles hn⟩
  · obtain ⟨issue, hissue, -⟩ := h
    exact (reportsCycle_of_mem_checkCycles hn issue hissue).exists_transGen
  · obtain ⟨name, hcycle⟩ := h
    have hneeds : InputEdge (Merge.merged definitions) ≤ Needs (Merge.merged definitions) :=
      fun _ _ ↦ needs_of_inputEdge hn hb
    have hne : checkCycles (Merge.merged definitions) ≠ [] := fun hnil ↦
      checkCycles_eq_nil_iff.mp hnil name (TransGen.mono hneeds _ _ hcycle)
    obtain ⟨issue, hissue⟩ := List.exists_mem_of_ne_nil _ hne
    exact ⟨issue, hissue, (reportsCycle_of_mem_checkCycles hn issue hissue).code_eq⟩

def ringSources : Sources :=
  [.ofText "ring.graphql" "input A \x7b b: B! list: [A!]! \x7d input B \x7b a: A! \x7d",
    .ofText "self.graphql" "extend input B \x7b self: B! \x7d"]

theorem checkCycles_ringSources :
    ∃ types, Merge.types ringSources.definitions = .ok types ∧
      (checkCycles types).map (·.fault) = [.inputCycle ["A", "B", "A"], .inputCycle ["B", "B"]] ∧
      (∃ name, TransGen (InputEdge types) name name) ∧
      ∀ issue ∈ checkCycles types, ReportsCycle types issue := by
  have htypes : Merge.types ringSources.definitions = .ok (Merge.merged ringSources.definitions) :=
    (Merge.types_eq_ok_iff _ _).mpr ⟨by decide +kernel, by decide +kernel, by decide +kernel, rfl⟩
  have hfound : (checkCycles (Merge.merged ringSources.definitions)).map (·.fault) =
      [.inputCycle ["A", "B", "A"], .inputCycle ["B", "B"]] := by
    decide +kernel
  obtain ⟨hiff, hall⟩ := checkCycles_reports htypes
  obtain ⟨issue, hissue, hfault⟩ : ∃ issue ∈ checkCycles (Merge.merged ringSources.definitions),
      issue.fault = .inputCycle ["B", "B"] := by
    rw [← List.mem_map, hfound]
    decide
  exact ⟨_, htypes, hfound, hiff.mp ⟨issue, hissue, by rw [hfault]; rfl⟩, hall⟩

end SchemaBindings.Validation
