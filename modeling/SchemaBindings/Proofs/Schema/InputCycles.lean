import SchemaBindings.Schema.Validation
import Mathlib.Data.List.Perm.Subperm
import Mathlib.Logic.Relation

namespace SchemaBindings.Validation

open Relation

variable (types : List SchemaType)

/-- The type called `a` has a required field of the input object `b`. -/
def Needs (a b : String) : Prop :=
  ∃ need ∈ needs types a, need.target = b

def follow (depth : Nat) (path : List String) (s : CycleSearch) (need : Need) : CycleSearch :=
  if path.contains need.target then
    let cycle := path.dropWhile (· != need.target) ++ [need.target]
    { s with issues := s.issues ++ [⟨.inputCycle cycle, need.field.span.inFile need.file⟩] }
  else if s.done.contains need.target then s
  else visit types depth path need.target s

theorem visit_succ (depth : Nat) (path : List String) (node : String) (s : CycleSearch) :
    visit types (depth + 1) path node s =
      { (needs types node).foldl (follow types depth (path ++ [node])) s with
        done := node :: ((needs types node).foldl (follow types depth (path ++ [node])) s).done } :=
  rfl

variable {types}

theorem Needs.target_mem {a b : String} (h : Needs types a b) :
    ∃ t ∈ types, t.name = b ∧ t.kind = .inputObject := by
  obtain ⟨need, hneed, rfl⟩ := h
  have hkind : kindOf? types need.target = some .inputObject := by
    unfold needs at hneed
    cases hf : findType? types a with
    | none => simp [hf] at hneed
    | some t =>
      simp only [hf, needsOf, List.mem_filterMap] at hneed
      obtain ⟨⟨file, f⟩, -, hf⟩ := hneed
      grind
  unfold kindOf? at hkind
  split at hkind
  · cases hkind
  · obtain ⟨t, ht, hk⟩ := Option.map_eq_some_iff.mp hkind
    exact ⟨t, List.mem_of_find?_eq_some ht, by simpa using List.find?_some ht, hk⟩

theorem Needs.target_mem_names {a b : String} (h : Needs types a b) :
    b ∈ types.map (·.name) := by
  obtain ⟨t, ht, rfl, -⟩ := h.target_mem
  exact List.mem_map_of_mem ht

theorem issues_foldl_eq {α : Type} {f : CycleSearch → α → CycleSearch} (l : List α)
    (hf : ∀ a ∈ l, ∀ s, (f s a).issues = s.issues) (s : CycleSearch) :
    (l.foldl f s).issues = s.issues := by
  induction l generalizing s with
  | nil => rfl
  | cons a l ih =>
    rw [List.foldl_cons, ih fun b hb ↦ hf b (by simp [hb])]
    exact hf a (by simp) s

/-- Without cycles the search reports nothing: a type on the path needs the current one, so the
current one cannot need it. -/
theorem issues_visit (hac : ∀ n, ¬ TransGen (Needs types) n n) (depth : Nat) (path : List String)
    (node : String) (s : CycleSearch) (hpath : ∀ p ∈ path, TransGen (Needs types) p node) :
    (visit types depth path node s).issues = s.issues := by
  induction depth generalizing path node s with
  | zero => rfl
  | succ depth ih =>
    have hreach : ∀ p ∈ path ++ [node], ReflTransGen (Needs types) p node := by
      intro p hp
      rcases List.mem_append.mp hp with hp | hp
      · exact (hpath p hp).to_reflTransGen
      · rw [List.mem_singleton.mp hp]
    rw [visit_succ]
    refine issues_foldl_eq _ (fun need hneed s ↦ ?_) s
    have hedge : Needs types node need.target := ⟨need, hneed, rfl⟩
    -- All of the path needs what `node` needs, so meeting one of it again would be a cycle.
    have hto : ∀ p ∈ path ++ [node], TransGen (Needs types) p need.target :=
      fun p hp ↦ TransGen.tail' (hreach p hp) hedge
    unfold follow
    split
    · rename_i hc
      exact absurd (hto _ (by simpa using hc)) (hac _)
    · split
      · rfl
      · exact ih _ _ _ hto

/-- Every type of the list needs only types further down in it. -/
def Settled (types : List SchemaType) : List String → Prop
  | [] => True
  | n :: rest => (∀ m, Needs types n m → m ∈ rest) ∧ Settled types rest

theorem Settled.mem_of_needs {l : List String} (h : Settled types l) {n m : String} (hn : n ∈ l)
    (hm : Needs types n m) : m ∈ l := by
  induction l with
  | nil => cases hn
  | cons a l ih =>
    rcases List.mem_cons.mp hn with rfl | hn
    · exact List.mem_cons_of_mem _ (h.1 m hm)
    · exact List.mem_cons_of_mem _ (ih h.2 hn)

theorem Settled.mem_of_transGen {l : List String} (h : Settled types l) {n m : String}
    (hn : n ∈ l) (hm : TransGen (Needs types) n m) : m ∈ l := by
  induction hm with
  | single hm => exact h.mem_of_needs hn hm
  | tail _ hm ih => exact h.mem_of_needs ih hm

theorem Settled.not_transGen {l : List String} (h : Settled types l) {n : String} (hn : n ∈ l) :
    ¬ TransGen (Needs types) n n := by
  induction l with
  | nil => cases hn
  | cons a l ih =>
    by_cases hl : n ∈ l
    · exact ih h.2 hl
    · obtain rfl : n = a := by simpa [hl] using hn
      intro hc
      obtain ⟨m, hm, hr⟩ := TransGen.head'_iff.mp hc
      rcases reflTransGen_iff_eq_or_transGen.mp hr with rfl | hr
      · exact hl (h.1 _ hm)
      · exact hl (h.2.mem_of_transGen (h.1 m hm) hr)

theorem issues_prefix_foldl {α : Type} {f : CycleSearch → α → CycleSearch}
    (hf : ∀ s a, s.issues <+: (f s a).issues) (l : List α) (s : CycleSearch) :
    s.issues <+: (l.foldl f s).issues := by
  induction l generalizing s with
  | nil => exact List.prefix_rfl
  | cons a l ih => exact (hf s a).trans (ih (f s a))

theorem issues_prefix_visit (depth : Nat) (path : List String) (node : String) (s : CycleSearch) :
    s.issues <+: (visit types depth path node s).issues := by
  induction depth generalizing path node s with
  | zero => exact List.prefix_rfl
  | succ depth ih =>
    rw [visit_succ]
    refine issues_prefix_foldl (fun s need ↦ ?_) _ s
    unfold follow
    split
    · exact List.prefix_append _ _
    · split
      · exact List.prefix_rfl
      · exact ih _ _ _

/-- What a part of the search from `s` to `s'` without a finding has done. -/
structure Completed (types : List SchemaType) (s s' : CycleSearch) : Prop where
  settled : Settled types s'.done
  done : s.done ⊆ s'.done

theorem foldl_completed {α : Type} {f : CycleSearch → α → CycleSearch} (asked : α → String → Prop)
    (hmono : ∀ s a, s.issues <+: (f s a).issues) (l : List α)
    (hf : ∀ a ∈ l, ∀ s, Settled types s.done → (f s a).issues = [] →
      Completed types s (f s a) ∧ ∀ n, asked a n → n ∈ (f s a).done)
    (s : CycleSearch) (hs : Settled types s.done) (hi : (l.foldl f s).issues = []) :
    Completed types s (l.foldl f s) ∧ ∀ a ∈ l, ∀ n, asked a n → n ∈ (l.foldl f s).done := by
  induction l generalizing s with
  | nil => exact ⟨⟨hs, List.Subset.refl _⟩, by simp⟩
  | cons a l ih =>
    rw [List.foldl_cons] at hi ⊢
    have hfirst : (f s a).issues = [] :=
      List.prefix_nil.mp (hi ▸ issues_prefix_foldl hmono l (f s a))
    obtain ⟨hstep, hasked⟩ := hf a (by simp) s hs hfirst
    obtain ⟨hrest, hall⟩ := ih (fun b hb ↦ hf b (by simp [hb])) (f s a) hstep.settled hi
    refine ⟨⟨hrest.settled, fun n hn ↦ hrest.done (hstep.done hn)⟩, ?_⟩
    intro b hb n hn
    rcases List.mem_cons.mp hb with rfl | hb
    · exact hrest.done (hasked n hn)
    · exact hall b hb n hn

/-- A visit without a finding makes its type done. A path names every type at most once, so it
cannot be longer than the list of types. -/
theorem visit_completed (depth : Nat) (path : List String) (node : String) (s : CycleSearch)
    (hdepth : types.length ≤ depth + path.length) (hnodup : (path ++ [node]).Nodup)
    (hnames : ∀ p ∈ path ++ [node], p ∈ types.map (·.name)) (hs : Settled types s.done)
    (hissues : (visit types depth path node s).issues = []) :
    Completed types s (visit types depth path node s) ∧
      node ∈ (visit types depth path node s).done := by
  induction depth generalizing path node s with
  | zero =>
    -- The names on the path are distinct and declared, so the path is too short for this.
    have hle := (List.subperm_of_subset hnodup hnames).length_le
    simp only [List.length_append, List.length_singleton, List.length_map] at hle
    omega
  | succ depth ih =>
    have hmono : ∀ s need, s.issues <+: (follow types depth (path ++ [node]) s need).issues := by
      intro s need
      unfold follow
      split
      · exact List.prefix_append _ _
      · split
        · exact List.prefix_rfl
        · exact issues_prefix_visit _ _ _ _
    have hstep : ∀ need ∈ needs types node, ∀ s, Settled types s.done →
        (follow types depth (path ++ [node]) s need).issues = [] →
        Completed types s (follow types depth (path ++ [node]) s need) ∧
          ∀ n, need.target = n → n ∈ (follow types depth (path ++ [node]) s need).done := by
      intro need hneed s hs hi
      unfold follow at hi ⊢
      split at hi
      · simp at hi
      · rename_i hpath
        rw [if_neg hpath]
        split at hi
        · rename_i hdone
          rw [if_pos hdone]
          exact ⟨⟨hs, List.Subset.refl _⟩, by rintro n rfl; simpa using hdone⟩
        · rename_i hdone
          rw [if_neg hdone]
          have hedge : Needs types node need.target := ⟨need, hneed, rfl⟩
          have hfresh : need.target ∉ path ++ [node] := by simpa using hpath
          obtain ⟨hc, hmem⟩ := ih (path ++ [node]) need.target s
            (by simp only [List.length_append, List.length_singleton]; omega)
            (List.nodup_append.mpr ⟨hnodup, by simp, by
              intro p hp q hq he
              obtain rfl := he
              exact hfresh (List.mem_singleton.mp hq ▸ hp)⟩)
            (by
              intro p hp
              rcases List.mem_append.mp hp with hp | hp
              · exact hnames p hp
              · exact List.mem_singleton.mp hp ▸ hedge.target_mem_names)
            hs hi
          exact ⟨hc, by rintro n rfl; exact hmem⟩
    rw [visit_succ] at hissues ⊢
    obtain ⟨hc, hall⟩ := foldl_completed (fun need n ↦ need.target = n) hmono _ hstep s hs hissues
    refine ⟨⟨⟨?_, hc.settled⟩, fun n hn ↦ List.mem_cons_of_mem _ (hc.done hn)⟩, by simp⟩
    intro m h
    obtain ⟨need, hneed, rfl⟩ := h
    exact hall need hneed _ rfl

theorem checkCycles_eq_nil_iff :
    checkCycles types = [] ↔ ∀ name, ¬ TransGen (Needs types) name name := by
  let start (s : CycleSearch) (t : SchemaType) : CycleSearch :=
    if t.kind = .inputObject ∧ ¬ s.done.contains t.name then visit types types.length [] t.name s
    else s
  have hmono : ∀ s t, s.issues <+: (start s t).issues := by
    intro s t
    dsimp only [start]
    split
    · exact issues_prefix_visit _ _ _ _
    · exact List.prefix_rfl
  constructor
  · intro hnil name hc
    have hstep : ∀ t ∈ types, ∀ s, Settled types s.done → (start s t).issues = [] →
        Completed types s (start s t) ∧
          ∀ n, (t.kind = .inputObject ∧ t.name = n) → n ∈ (start s t).done := by
      intro t ht s hs hi
      dsimp only [start] at hi ⊢
      split at hi
      · rename_i hvisit
        rw [if_pos hvisit]
        obtain ⟨hcompleted, hmem⟩ := visit_completed types.length [] t.name s (by simp) (by simp)
          (by simpa using ⟨t, ht, rfl⟩) hs hi
        exact ⟨hcompleted, by rintro n ⟨-, rfl⟩; exact hmem⟩
      · rename_i hskip
        rw [if_neg hskip]
        refine ⟨⟨hs, List.Subset.refl _⟩, ?_⟩
        intro n h
        obtain ⟨hk, rfl⟩ := h
        simpa [hk] using hskip
    obtain ⟨hcompleted, hall⟩ := foldl_completed (fun t n ↦ t.kind = .inputObject ∧ t.name = n)
      hmono types hstep ⟨[], []⟩ trivial hnil
    obtain ⟨m, -, hm⟩ := TransGen.tail'_iff.mp hc
    obtain ⟨t, ht, rfl, hk⟩ := hm.target_mem
    exact hcompleted.settled.not_transGen (hall t ht _ ⟨hk, rfl⟩) hc
  · intro hac
    refine issues_foldl_eq (f := start) types (fun t _ s ↦ ?_) ⟨[], []⟩
    dsimp only [start]
    split
    · exact issues_visit hac _ _ _ _ (by simp)
    · rfl

end SchemaBindings.Validation
