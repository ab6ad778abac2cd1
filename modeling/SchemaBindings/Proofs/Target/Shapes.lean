import SchemaBindings.Proofs.Template.Answers
import SchemaBindings.Target.Place
import Mathlib.Data.List.Forall2

namespace SchemaBindings

open Model Template

/-- What a template can rely on in a node. -/
inductive Shape where
  | text
  | optionalText
  | number
  | flag
  | type
  | value
  /-- An object with some members, maybe one that can be read as a field of the model. -/
  | record (isField : Bool) (members : List (String × Shape))
  | list (item : Shape)
  deriving Repr

namespace Shape

mutual

def Fits : Shape → Json → Prop
  | .text, j => ∃ s, j = .string s
  | .optionalText, j => ∃ s, j = Json.ofText? s
  | .number, j => ∃ n, j = .int n
  | .flag, j => ∃ b, j = .bool b
  | .type, j => ∃ t, TypeExpr.ofJson? j = some t
  | .value, j => j = .null ∨ ∃ v, Value.ofJson? j = some v
  | .record isField members, j => (isField → ∃ f, Field.ofJson? j = some f) ∧ HasAll members j
  | .list item, j => ∃ items, j = .array items ∧ ∀ i ∈ items, item.Fits i

def HasAll : List (String × Shape) → Json → Prop
  | [], _ => True
  | (key, shape) :: members, j =>
    (∃ inner, j.member? key = some inner ∧ shape.Fits inner) ∧ HasAll members j

end

def at? : List String → Shape → Option Shape
  | [], shape => some shape
  | key :: keys, .record _ members => (members.lookup key).bind (at? keys)
  | _ :: _, _ => none

def present : Shape → Shape
  | .optionalText => .text
  | shape => shape

/-- The shape of a node of which the member under a key holds. -/
def assume (key : String) : Shape → Shape
  | .record isField members =>
    .record isField (members.map fun p ↦ if p.1 = key then (p.1, p.2.present) else p)
  | shape => shape

theorem HasAll.exists_member {members : List (String × Shape)} {j : Json} (h : HasAll members j)
    {key : String} {shape : Shape} (hkey : members.lookup key = some shape) :
    ∃ inner, j.member? key = some inner ∧ shape.Fits inner := by
  induction members with
  | nil => cases hkey
  | cons p members ih =>
    obtain ⟨hfirst, hrest⟩ := h
    rw [List.lookup_cons] at hkey
    split at hkey
    next hp =>
      obtain rfl : key = p.1 := by simpa using hp
      obtain rfl := Option.some.inj hkey
      exact hfirst
    next => exact ih hrest hkey

theorem partAt?_cons_of_member? {key : String} {keys : List String} {j inner : Json}
    (h : j.member? key = some inner) : j.partAt? (key :: keys) = inner.partAt? keys := by
  cases j with
  | object members =>
    rw [Json.partAt?, h]
    exact nofun
  | _ => cases h

theorem Fits.exists_partAt? {keys : List String} {shape inner : Shape} {j : Json}
    (h : shape.Fits j) (hat : at? keys shape = some inner) :
    ∃ k, j.partAt? keys = some (some k) ∧ inner.Fits k := by
  induction keys generalizing shape j with
  | nil =>
    obtain rfl := Option.some.inj hat
    exact ⟨j, rfl, h⟩
  | cons key keys ih =>
    cases shape with
    | record isField members =>
      obtain ⟨next, hnext, hat⟩ := Option.bind_eq_some_iff.mp hat
      obtain ⟨k, hk, hfits⟩ := h.2.exists_member hnext
      rw [partAt?_cons_of_member? hk]
      exact ih hfits hat
    | _ => cases hat

theorem Fits.present {shape : Shape} {j : Json} (h : shape.Fits j) (hj : j.holds = true) :
    shape.present.Fits j := by
  cases shape with
  | optionalText =>
    obtain ⟨s, rfl⟩ := h
    cases s with
    | some s => exact ⟨s, rfl⟩
    | none => cases hj
  | _ => exact h

theorem HasAll.assume {members : List (String × Shape)} {j : Json} (h : HasAll members j)
    {key : String} (hkey : ∀ inner, j.member? key = some inner → inner.holds = true) :
    HasAll (members.map fun p ↦ if p.1 = key then (p.1, p.2.present) else p) j := by
  induction members with
  | nil => trivial
  | cons p members ih =>
    obtain ⟨⟨inner, hmember, hfits⟩, hrest⟩ := h
    rw [List.map_cons]
    split
    next hp => exact ⟨⟨inner, hmember, hfits.present (hkey inner (hp ▸ hmember))⟩, ih hrest⟩
    next => exact ⟨⟨inner, hmember, hfits⟩, ih hrest⟩

theorem Fits.assume {shape : Shape} {j : Json} (h : shape.Fits j) {key : String}
    (hkey : ∀ inner, j.member? key = some inner → inner.holds = true) :
    (shape.assume key).Fits j := by
  cases shape with
  | record isField members => exact ⟨h.1, h.2.assume hkey⟩
  | _ => exact h

end Shape

namespace Template

variable {Op : Type} (signature : Op → List Shape → Option Shape)

mutual

def Expr.shape? (shapes : List Shape) : Expr Op → Option Shape
  | .path outer keys => shapes[outer]?.bind (Shape.at? keys)
  | .isLast => if 2 ≤ shapes.length then some .flag else none
  | .text _ => some .text
  | .call op arguments => (Expr.shapes? shapes arguments).bind (signature op)

def Expr.shapes? (shapes : List Shape) : List (Expr Op) → Option (List Shape)
  | [] => some []
  | e :: es => (e.shape? shapes).bind fun first ↦ (Expr.shapes? shapes es).map (first :: ·)

end

/-- The shapes of the nodes where a condition holds. Only conditions on a member say more. -/
def Expr.assume (shapes : List Shape) : Expr Op → List Shape
  | .path 0 [key] =>
    match shapes with
    | [] => []
    | shape :: shapes => shape.assume key :: shapes
  | _ => shapes

mutual

def Piece.checks : Piece Op → List Shape → Bool
  | .text _, _ => true
  | .value e, shapes => (e.shape? signature shapes).isSome
  | .choice condition yes no, shapes => (condition.shape? signature shapes).isSome &&
    Piece.allCheck yes (condition.assume shapes) && Piece.allCheck no shapes
  | .each list body none, shapes =>
    match list.shape? signature shapes with
    | some (.list item) => Piece.allCheck body (item :: shapes)
    | _ => false
  | .each list body (some otherwise), shapes =>
    match list.shape? signature shapes with
    | some (.list item) => Piece.allCheck body (item :: shapes) && Piece.allCheck otherwise shapes
    | _ => false

def Piece.allCheck : List (Piece Op) → List Shape → Bool
  | [], _ => true
  | piece :: pieces, shapes => piece.checks shapes && Piece.allCheck pieces shapes

end

variable {signature} {operations : Operations Op}

/-- Operations give what their signatures promise. -/
def Keeps (operations : Operations Op) (signature : Op → List Shape → Option Shape) : Prop :=
  ∀ op shapes result, signature op shapes = some result →
    ∀ items : List Json, List.Forall₂ Shape.Fits shapes items →
      ∃ j, operations op (items.map some) = some j ∧ result.Fits j

/-- The nodes in sight have the shapes. Inside a repetition there is a current item. -/
structure Scope.Shows (scope : Scope) (shapes : List Shape) : Prop where
  nodes : List.Forall₂ (fun shape (frame : Frame) ↦ shape.Fits frame.node) shapes scope
  inside : 2 ≤ shapes.length → ∃ last, scope.head?.bind (·.isLast) = some last

theorem Scope.shows_root {shape : Shape} {node : Json} (h : shape.Fits node) :
    (Scope.root node).Shows [shape] where
  nodes := .cons h .nil
  inside hlength := absurd hlength (by simp)

theorem Scope.Shows.items {scope : Scope} {shapes : List Shape} (h : scope.Shows shapes)
    {item : Shape} {items : List Json} (hitems : ∀ i ∈ items, item.Fits i) :
    ∀ inner ∈ scope.items items, inner.Shows (item :: shapes) := by
  induction items with
  | nil => exact nofun
  | cons i items ih =>
    have hfirst : item.Fits i := hitems i (by simp)
    have hone (last : Bool) : Scope.Shows (⟨i, some last⟩ :: scope) (item :: shapes) :=
      ⟨.cons hfirst h.nodes, fun _ ↦ ⟨last, rfl⟩⟩
    intro inner hinner
    cases items with
    | nil =>
      obtain rfl := List.mem_singleton.mp hinner
      exact hone true
    | cons j items =>
      rcases List.mem_cons.mp hinner with rfl | hinner
      · exact hone false
      · exact ih (fun k hk ↦ hitems k (List.mem_cons_of_mem i hk)) inner hinner

theorem Scope.Shows.exists_lookup {scope : Scope} {shapes : List Shape} (h : scope.Shows shapes)
    {outer : Nat} {keys : List String} {shape : Shape}
    (hshape : shapes[outer]?.bind (Shape.at? keys) = some shape) :
    ∃ j, scope.lookup outer keys = some (some j) ∧ shape.Fits j := by
  obtain ⟨around, haround, hat⟩ := Option.bind_eq_some_iff.mp hshape
  obtain ⟨hlt, hget⟩ := List.getElem?_eq_some_iff.mp haround
  have hlt' : outer < scope.length := h.nodes.length_eq ▸ hlt
  have hfits := h.nodes.get hlt hlt'
  simp only [List.get_eq_getElem, hget] at hfits
  rw [Scope.lookup, List.getElem?_eq_getElem hlt']
  exact hfits.exists_partAt? hat

theorem Scope.Shows.assume {scope : Scope} {shapes : List Shape} (h : scope.Shows shapes)
    {condition : Expr Op} (hholds : condition.holds? operations scope = some true) :
    scope.Shows (condition.assume shapes) := by
  unfold Expr.assume
  split
  next key =>
    obtain ⟨hnodes, hinside⟩ := h
    cases hnodes with
    | nil => exact ⟨.nil, hinside⟩
    | @cons shape frame shapes frames hfirst hrest =>
      refine ⟨.cons (hfirst.assume fun inner hinner ↦ ?_) hrest, by simpa using hinside⟩
      have hvalue : (Expr.path 0 [key] : Expr Op).value? operations (frame :: frames) =
          some (some inner) := Shape.partAt?_cons_of_member? hinner
      rw [Expr.holds?, hvalue] at hholds
      exact Option.some.inj hholds
  next => exact h

mutual

theorem Expr.answers_of_shape? (hkeeps : Keeps operations signature) {scope : Scope}
    {shapes : List Shape} (h : scope.Shows shapes) {e : Expr Op} {shape : Shape}
    (hshape : e.shape? signature shapes = some shape) :
    e.Answers operations scope ∧
      ∃ j, e.value? operations scope = some (some j) ∧ shape.Fits j := by
  match e with
  | .path outer keys =>
    obtain ⟨j, hj, hfits⟩ := h.exists_lookup hshape
    exact ⟨⟨j, hj⟩, j, hj, hfits⟩
  | .isLast =>
    rw [Expr.shape?] at hshape
    split at hshape
    next hlength =>
      obtain ⟨last, hlast⟩ := h.inside hlength
      obtain rfl := Option.some.inj hshape
      exact ⟨⟨last, hlast⟩, .bool last, by rw [Expr.value?, hlast]; rfl, last, rfl⟩
    next => cases hshape
  | .text s =>
    obtain rfl := Option.some.inj hshape
    exact ⟨trivial, .string s, rfl, s, rfl⟩
  | .call op arguments =>
    obtain ⟨argumentShapes, harguments, hresult⟩ := Option.bind_eq_some_iff.mp hshape
    obtain ⟨hall, items, hvalues, hfits⟩ := Expr.allAnswer_of_shapes? hkeeps h harguments
    obtain ⟨j, hj, hjfits⟩ := hkeeps _ _ _ hresult _ hfits
    refine ⟨⟨hall, _, j, hvalues, hj⟩, j, ?_, hjfits⟩
    rw [Expr.value?, hvalues, Option.bind_some, hj]
    rfl

theorem Expr.allAnswer_of_shapes? (hkeeps : Keeps operations signature) {scope : Scope}
    {shapes : List Shape} (h : scope.Shows shapes) {es : List (Expr Op)} {found : List Shape}
    (hshapes : Expr.shapes? signature shapes es = some found) :
    Expr.AllAnswer operations scope es ∧ ∃ items : List Json,
      Expr.values? operations scope es = some (items.map some) ∧
        List.Forall₂ Shape.Fits found items := by
  match es with
  | [] =>
    obtain rfl := Option.some.inj hshapes
    exact ⟨trivial, [], rfl, .nil⟩
  | e :: es =>
    obtain ⟨first, hfirst, hrest⟩ := Option.bind_eq_some_iff.mp hshapes
    obtain ⟨rest, hothers, rfl⟩ := Option.map_eq_some_iff.mp hrest
    obtain ⟨hanswers, j, hj, hfits⟩ := Expr.answers_of_shape? hkeeps h hfirst
    obtain ⟨hall, items, hvalues, hallFit⟩ := Expr.allAnswer_of_shapes? hkeeps h hothers
    refine ⟨⟨hanswers, hall⟩, j :: items, ?_, .cons hfits hallFit⟩
    rw [Expr.values?, hj, hvalues]
    rfl

end

theorem Expr.exists_repeated? (hkeeps : Keeps operations signature) {scope : Scope}
    {shapes : List Shape} (h : scope.Shows shapes) {list : Expr Op} {item : Shape}
    (hlist : list.shape? signature shapes = some (.list item)) :
    list.Answers operations scope ∧
      ∃ j items, list.value? operations scope = some (some j) ∧ j.repeated? = some items ∧
        ∀ inner ∈ scope.items items, inner.Shows (item :: shapes) := by
  obtain ⟨hanswers, j, hj, items, rfl, hitems⟩ := Expr.answers_of_shape? hkeeps h hlist
  exact ⟨hanswers, .array items, items, hj, rfl, h.items hitems⟩

mutual

theorem Piece.answers_of_checks (hkeeps : Keeps operations signature) {scope : Scope}
    {shapes : List Shape} (h : scope.Shows shapes) {piece : Piece Op}
    (hchecks : piece.checks signature shapes = true) : piece.Answers operations scope := by
  match piece with
  | .text s => trivial
  | .value e =>
    obtain ⟨shape, hshape⟩ := Option.isSome_iff_exists.mp hchecks
    exact (Expr.answers_of_shape? hkeeps h hshape).1
  | .choice condition yes no =>
    rw [Piece.checks, Bool.and_eq_true, Bool.and_eq_true] at hchecks
    obtain ⟨⟨hcondition, hyes⟩, hno⟩ := hchecks
    obtain ⟨shape, hshape⟩ := Option.isSome_iff_exists.mp hcondition
    exact ⟨(Expr.answers_of_shape? hkeeps h hshape).1,
      fun hholds ↦ Piece.allAnswer_of_allCheck hkeeps (h.assume hholds) hyes,
      fun _ ↦ Piece.allAnswer_of_allCheck hkeeps h hno⟩
  | .each list body none =>
    rw [Piece.checks] at hchecks
    split at hchecks
    next item hlist =>
      obtain ⟨hanswers, j, items, hj, hitems, hshows⟩ := Expr.exists_repeated? hkeeps h hlist
      exact ⟨hanswers, j, items, hj, hitems, fun inner hinner ↦
        Piece.allAnswer_of_allCheck hkeeps (hshows inner hinner) hchecks⟩
    next => cases hchecks
  | .each list body (some otherwise) =>
    rw [Piece.checks] at hchecks
    split at hchecks
    next item hlist =>
      obtain ⟨hbody, hotherwise⟩ := Bool.and_eq_true_iff.mp hchecks
      obtain ⟨hanswers, j, items, hj, hitems, hshows⟩ := Expr.exists_repeated? hkeeps h hlist
      exact ⟨hanswers, j, items, hj, hitems, fun inner hinner ↦
        Piece.allAnswer_of_allCheck hkeeps (hshows inner hinner) hbody,
        fun _ ↦ Piece.allAnswer_of_allCheck hkeeps h hotherwise⟩
    next => cases hchecks

theorem Piece.allAnswer_of_allCheck (hkeeps : Keeps operations signature) {scope : Scope}
    {shapes : List Shape} (h : scope.Shows shapes) {pieces : List (Piece Op)}
    (hchecks : Piece.allCheck signature pieces shapes = true) :
    Piece.AllAnswer operations pieces scope := by
  match pieces with
  | [] => trivial
  | piece :: pieces =>
    obtain ⟨hfirst, hrest⟩ := Bool.and_eq_true_iff.mp hchecks
    exact ⟨Piece.answers_of_checks hkeeps h hfirst, Piece.allAnswer_of_allCheck hkeeps h hrest⟩

end

end Template

end SchemaBindings
