import SchemaBindings.Proofs.Template.Headings

namespace SchemaBindings.Template

variable {Op : Type} (operations : Operations Op)

inductive Symbol (Op : Type) where
  | char (c : Char)
  | value (e : Expr Op)

def Expr.spelling (scope : Scope) (e : Expr Op) : List Char :=
  match e.value? operations scope with
  | some (some j) => j.plainText
  | _ => []

def Symbol.spelling (scope : Scope) : Symbol Op → List Char
  | .char c => [c]
  | .value e => e.spelling operations scope

def Heading.spell (scope : Scope) (heading : Heading (Symbol Op)) : Heading Char :=
  ⟨heading.lead, heading.name.flatMap (Symbol.spelling operations scope)⟩

def Column.spell (scope : Scope) : Column (Symbol Op) → Column Char
  | .start => .start
  | .lead text => .lead text
  | .name before symbols => .name before (symbols.flatMap (Symbol.spelling operations scope))
  | .rest => .rest

def Reading.spell (scope : Scope) (r : Reading (Symbol Op)) : Reading Char :=
  ⟨r.column.spell operations scope, r.headings.map (Heading.spell operations scope)⟩

def Expr.items (scope : Scope) (list : Expr Op) : List Json :=
  match list.value? operations scope with
  | some value => (value.bind Json.repeated?).getD []
  | none => []

/-- A heading of a template, maybe one for each item of a list. -/
structure Head (Op : Type) where
  list : Option (Expr Op)
  heading : Heading (Symbol Op)

def Head.headings (scope : Scope) (head : Head Op) : List (Heading Char) :=
  match head.list with
  | none => [head.heading.spell operations scope]
  | some list => (scope.items (list.items operations scope)).map fun inner ↦
    head.heading.spell operations inner

/-- The headings of a piece, and the column after it. -/
structure Outline (Op : Type) where
  column : Column (Symbol Op)
  heads : List (Head Op)

namespace Outline

variable {operations}

def common? : Option (Outline Op) → Option (Outline Op) → Option (Outline Op)
  | some ⟨.start, []⟩, some ⟨.start, []⟩ => some ⟨.start, []⟩
  | some ⟨.rest, []⟩, some ⟨.rest, []⟩ => some ⟨.rest, []⟩
  | _, _ => none

def repeated? (list : Expr Op) : Column (Symbol Op) → Option (Outline Op) → Option (Outline Op)
  | .start, some ⟨.start, []⟩ => some ⟨.start, []⟩
  | .rest, some ⟨.rest, []⟩ => some ⟨.rest, []⟩
  | .start, some ⟨.start, [⟨none, heading⟩]⟩ => some ⟨.start, [⟨some list, heading⟩]⟩
  | _, _ => none

def andThen (o : Outline Op) (next : Column (Symbol Op) → Option (Outline Op)) :
    Option (Outline Op) :=
  (next o.column).map fun after ↦ ⟨after.column, o.heads ++ after.heads⟩

end Outline

section Static

variable (wholeLines : Expr Op → Bool)

mutual

/-- The outline of a piece. `wholeLines` knows values that are whole lines, and `holds` which values
hold or not. Inside a repetition nothing is known to hold. -/
def Piece.outline? (holds : Expr Op → Option Bool) :
    Piece Op → Column (Symbol Op) → Option (Outline Op)
  | .text s, column =>
    let r := column.afterText Symbol.char s.toList
    some ⟨r.column, r.headings.map fun heading ↦ ⟨none, heading⟩⟩
  | .value e, column =>
    match column, wholeLines e with
    | .start, false => none
    | column, _ => some ⟨column.afterValue true [.value e], []⟩
  | .choice condition yes no, column =>
    let first := outlineAll? holds yes column
    let second := outlineAll? holds no column
    (Outline.common? first second).or
      ((holds condition).bind fun known ↦ if known then first else second)
  | .each list body none, column =>
    Outline.repeated? list column (outlineAll? (fun _ ↦ none) body column)
  | .each list body (some otherwise), column =>
    Outline.common? (Outline.repeated? list column (outlineAll? (fun _ ↦ none) body column))
      (outlineAll? (fun _ ↦ none) otherwise column)

def Piece.outlineAll? (holds : Expr Op → Option Bool) :
    List (Piece Op) → Column (Symbol Op) → Option (Outline Op)
  | [], column => some ⟨column, []⟩
  | piece :: pieces, column =>
    (piece.outline? holds column).bind fun o ↦ o.andThen fun next ↦ outlineAll? holds pieces next

end

end Static

section Sound

variable {operations} {scope : Scope}

theorem Column.afterChar_spell (column : Column (Symbol Op)) (c : Char) :
    (column.spell operations scope).afterChar id c =
      (column.afterChar Symbol.char c).spell operations scope := by
  cases column with
  | start | rest =>
    simp only [Column.spell, afterChar, Reading.spell, List.map_nil]
    split_ifs <;> rfl
  | lead text =>
    simp only [Column.spell, afterChar]
    split_ifs <;> rfl
  | name before symbols =>
    simp only [Column.spell, afterChar]
    split_ifs <;> simp [Reading.spell, Column.spell, Heading.spell, Symbol.spelling]

theorem Reading.spell_andThen {r : Reading (Symbol Op)}
    {next : Column (Symbol Op) → Reading (Symbol Op)} {next' : Column Char → Reading Char}
    (h : ∀ column : Column (Symbol Op),
      next' (column.spell operations scope) = (next column).spell operations scope) :
    (r.spell operations scope).andThen next' = (r.andThen next).spell operations scope := by
  simp [andThen, spell, h]

theorem Column.afterText_spell (column : Column (Symbol Op)) (cs : List Char) :
    (column.spell operations scope).afterText id cs =
      (column.afterText Symbol.char cs).spell operations scope := by
  induction cs generalizing column with
  | nil => rfl
  | cons c cs ih => rw [afterText, afterText, afterChar_spell, Reading.spell_andThen ih]

theorem Column.afterValue_spell (column : Column (Symbol Op)) (whole : Bool) (e : Expr Op) :
    (column.spell operations scope).afterValue whole (e.spelling operations scope) =
      (column.afterValue whole [.value e]).spell operations scope := by
  cases column with
  | start => cases whole <;> rfl
  | lead text => simp [Column.spell, afterValue, Symbol.spelling]
  | name before symbols => simp [Column.spell, afterValue, Symbol.spelling]
  | rest => rfl

theorem Column.afterValue_eq {ν : Type} {column : Column ν} {whole : Bool}
    (h : column = .start → whole = true) (value : List ν) :
    column.afterValue whole value = column.afterValue true value := by
  cases column with
  | start => rw [h rfl]
  | _ => rfl

variable (operations scope) in
def Outline.Describes (o : Outline Op) (column : Column (Symbol Op)) (segments : List Segment) :
    Prop :=
  (column.spell operations scope).afterSegments segments =
    ⟨o.column.spell operations scope, o.heads.flatMap (Head.headings operations scope)⟩

namespace Outline

theorem describes_nil (column : Column (Symbol Op)) :
    Describes operations scope ⟨column, []⟩ column [] :=
  rfl

theorem Describes.andThen {o after : Outline Op} {column : Column (Symbol Op)}
    {segments others : List Segment} (h : o.Describes operations scope column segments)
    (hafter : after.Describes operations scope o.column others) :
    Describes operations scope ⟨after.column, o.heads ++ after.heads⟩ column
      (segments ++ others) := by
  simp only [Describes, Column.afterSegments_append] at h hafter ⊢
  simp [h, Reading.andThen, hafter]

theorem eq_of_common? {a b : Option (Outline Op)} {o : Outline Op} (h : common? a b = some o) :
    a = some o ∧ b = some o := by
  unfold common? at h
  split at h <;> cases h <;> exact ⟨rfl, rfl⟩

theorem repeated?_cases {list : Expr Op} {column : Column (Symbol Op)} {body : Option (Outline Op)}
    {o : Outline Op} (h : repeated? list column body = some o) :
    (column = .start ∨ column = .rest) ∧ o.column = column ∧
      ((body = some ⟨column, []⟩ ∧ o.heads = []) ∨
        ∃ heading, body = some ⟨column, [⟨none, heading⟩]⟩ ∧ o.heads = [⟨some list, heading⟩]) := by
  unfold repeated? at h
  split at h <;> cases h
  · exact ⟨.inl rfl, rfl, .inl ⟨rfl, rfl⟩⟩
  · exact ⟨.inr rfl, rfl, .inl ⟨rfl, rfl⟩⟩
  · exact ⟨.inl rfl, rfl, .inr ⟨_, rfl, rfl⟩⟩

theorem describes_each (scope : Scope) {o : Outline Op} {body : Scope → Option (List Segment)}
    (hcolumn : o.column = .start ∨ o.column = .rest) {inners : List Scope}
    (hbody : ∀ inner ∈ inners, ∀ segments, body inner = some segments →
      o.Describes operations inner o.column segments)
    {parts : List (List Segment)} (hparts : inners.mapM body = some parts) :
    (o.column.spell operations scope).afterSegments parts.flatten =
      ⟨o.column.spell operations scope,
        inners.flatMap fun inner ↦ o.heads.flatMap (Head.headings operations inner)⟩ := by
  induction inners generalizing parts with
  | nil =>
    cases hparts
    rfl
  | cons inner inners ih =>
    rw [List.mapM_cons] at hparts
    obtain ⟨first, hfirst, hparts⟩ := Option.bind_eq_some_iff.mp hparts
    obtain ⟨others, hothers, hparts⟩ := Option.bind_eq_some_iff.mp hparts
    cases hparts
    have hfirst := hbody inner List.mem_cons_self first hfirst
    have hothers := ih (fun i hi ↦ hbody i (List.mem_cons_of_mem inner hi)) hothers
    have hsame : o.column.spell operations inner = o.column.spell operations scope := by
      rcases hcolumn with h | h <;> rw [h] <;> rfl
    rw [Describes, hsame] at hfirst
    rw [List.flatten_cons, Column.afterSegments_append, hfirst, Reading.andThen, hothers,
      List.flatMap_cons]

theorem describes_repeated {list : Expr Op} {column : Column (Symbol Op)}
    {body : Option (Outline Op)} {o : Outline Op} (h : repeated? list column body = some o)
    {write : Scope → Option (List Segment)} {parts : List (List Segment)}
    (hbody : ∀ b ∈ body, ∀ inner segments, write inner = some segments →
      b.Describes operations inner column segments)
    (hparts : (scope.items (list.items operations scope)).mapM write = some parts) :
    o.Describes operations scope column parts.flatten := by
  obtain ⟨hcolumn, hsame, ⟨rfl, hheads⟩ | ⟨heading, rfl, hheads⟩⟩ := repeated?_cases h
  · have heach := describes_each scope (o := ⟨column, []⟩) hcolumn
      (fun inner _ ↦ hbody _ rfl inner) hparts
    rw [Describes, heach, hsame, hheads]
    simp
  · have heach := describes_each scope (o := ⟨column, [⟨none, heading⟩]⟩) hcolumn
      (fun inner _ ↦ hbody _ rfl inner) hparts
    rw [Describes, heach, hsame, hheads]
    simp [Head.headings, List.map_eq_flatMap]

end Outline

def KnowsLines (operations : Operations Op) (wholeLines : Expr Op → Bool) : Prop :=
  ∀ e scope j, wholeLines e = true → e.value? operations scope = some (some j) →
    isWholeLines j.plainText = true

def KnowsHolding (operations : Operations Op) (scope : Scope)
    (holds : Expr Op → Option Bool) : Prop :=
  ∀ e known b, holds e = some known → e.holds? operations scope = some b → known = b

theorem knowsHolding_none (scope : Scope) : KnowsHolding operations scope fun _ ↦ none :=
  nofun

variable {wholeLines : Expr Op → Bool}

theorem describes_value (hlines : KnowsLines operations wholeLines) {e : Expr Op}
    {column : Column (Symbol Op)} {o : Outline Op} {holds : Expr Op → Option Bool}
    (ho : Piece.outline? wholeLines holds (.value e) column = some o) {j : Json}
    (hj : e.value? operations scope = some (some j)) :
    o.Describes operations scope column [.inserted j.plainText] := by
  obtain ⟨hwhole, rfl⟩ : (column = .start → wholeLines e = true) ∧
      o = ⟨column.afterValue true [.value e], []⟩ := by
    unfold Piece.outline? at ho
    split at ho
    · cases ho
    next h =>
      refine ⟨fun hstart ↦ (Bool.not_eq_false _).mp fun hfalse ↦ h hstart hfalse, ?_⟩
      exact (Option.some.inj ho).symm
  have hspelling : e.spelling operations scope = j.plainText := by rw [Expr.spelling, hj]
  have hstart : column.spell operations scope = .start → isWholeLines j.plainText = true := by
    intro hstart
    cases column with
    | start => exact hlines e scope j (hwhole rfl) hj
    | _ => cases hstart
  rw [Outline.Describes, Column.afterSegments_singleton, Column.afterSegment,
    Column.afterValue_eq hstart, ← hspelling, Column.afterValue_spell]
  rfl

mutual

theorem Piece.describes_of_outline? (hlines : KnowsLines operations wholeLines) {scope : Scope}
    {holds : Expr Op → Option Bool} (hholds : KnowsHolding operations scope holds)
    {piece : Piece Op} {column : Column (Symbol Op)} {o : Outline Op}
    (ho : piece.outline? wholeLines holds column = some o) {segments : List Segment}
    (hsegments : piece.segments? operations scope = some segments) :
    o.Describes operations scope column segments := by
  match piece with
  | .text s =>
    cases ho
    cases hsegments
    rw [Outline.Describes, Column.afterSegments_singleton, Column.afterSegment,
      Column.afterText_spell]
    simp only [Reading.spell, List.flatMap_map, Head.headings, ← List.map_eq_flatMap]
  | .value e =>
    obtain ⟨value, hvalue, hsegments⟩ := Option.bind_eq_some_iff.mp hsegments
    obtain ⟨j, rfl, rfl⟩ := Option.map_eq_some_iff.mp hsegments
    exact describes_value hlines ho hvalue
  | .choice condition yes no =>
    obtain ⟨b, hb, hsegments⟩ := Option.bind_eq_some_iff.mp hsegments
    have hwritten : (if b then Piece.outlineAll? wholeLines holds yes column
        else Piece.outlineAll? wholeLines holds no column) = some o := by
      rw [Piece.outline?, Option.or_eq_some_iff] at ho
      rcases ho with ho | ⟨-, ho⟩
      · obtain ⟨hyes, hno⟩ := Outline.eq_of_common? ho
        rw [hyes, hno, ite_self]
      · obtain ⟨known, hknown, ho⟩ := Option.bind_eq_some_iff.mp ho
        rw [← hholds condition known b hknown hb]
        exact ho
    cases b with
    | true => exact Piece.describes_of_outlineAll? hlines hholds hwritten hsegments
    | false => exact Piece.describes_of_outlineAll? hlines hholds hwritten hsegments
  | .each list body none =>
    obtain ⟨value, hvalue, hsegments⟩ := Option.bind_eq_some_iff.mp hsegments
    obtain ⟨items, hitems, hsegments⟩ := Option.bind_eq_some_iff.mp hsegments
    obtain ⟨parts, hparts, rfl⟩ := Option.map_eq_some_iff.mp hsegments
    have hlist : list.items operations scope = items := by simp only [Expr.items, hvalue, hitems,
      Option.getD_some]
    refine Outline.describes_repeated ho (fun b hb inner segments h ↦ ?_) (hlist ▸ hparts)
    exact Piece.describes_of_outlineAll? hlines (knowsHolding_none _) hb h
  | .each list body (some otherwise) =>
    obtain ⟨hbody, hotherwise⟩ := Outline.eq_of_common? ho
    obtain ⟨value, hvalue, hsegments⟩ := Option.bind_eq_some_iff.mp hsegments
    split at hsegments
    · exact Piece.describes_of_outlineAll? hlines (knowsHolding_none _) hotherwise hsegments
    · exact Piece.describes_of_outlineAll? hlines (knowsHolding_none _) hotherwise hsegments
    next items _ hitems =>
      obtain ⟨parts, hparts, rfl⟩ := Option.map_eq_some_iff.mp hsegments
      have hlist : list.items operations scope = items := by simp only [Expr.items, hvalue, hitems,
        Option.getD_some]
      refine Outline.describes_repeated hbody (fun b hb inner segments h ↦ ?_) (hlist ▸ hparts)
      exact Piece.describes_of_outlineAll? hlines (knowsHolding_none _) hb h

theorem Piece.describes_of_outlineAll? (hlines : KnowsLines operations wholeLines) {scope : Scope}
    {holds : Expr Op → Option Bool} (hholds : KnowsHolding operations scope holds)
    {pieces : List (Piece Op)} {column : Column (Symbol Op)} {o : Outline Op}
    (ho : Piece.outlineAll? wholeLines holds pieces column = some o) {segments : List Segment}
    (hsegments : Piece.allSegments? operations pieces scope = some segments) :
    o.Describes operations scope column segments := by
  match pieces with
  | [] =>
    cases ho
    cases hsegments
    exact Outline.describes_nil column
  | piece :: pieces =>
    obtain ⟨first, hfirst, ho⟩ := Option.bind_eq_some_iff.mp ho
    obtain ⟨rest, hrest, rfl⟩ := Option.map_eq_some_iff.mp ho
    obtain ⟨written, hwritten, hsegments⟩ := Option.bind_eq_some_iff.mp hsegments
    obtain ⟨others, hothers, rfl⟩ := Option.map_eq_some_iff.mp hsegments
    exact (Piece.describes_of_outline? hlines hholds hfirst hwritten).andThen
      (Piece.describes_of_outlineAll? hlines hholds hrest hothers)

end

/-- A template declares what its outline says. -/
theorem headings_of_outlineAll? (hlines : KnowsLines operations wholeLines) {scope : Scope}
    {holds : Expr Op → Option Bool} (hholds : KnowsHolding operations scope holds)
    {template : List (Piece Op)} {o : Outline Op}
    (ho : Piece.outlineAll? wholeLines holds template .start = some o) {segments : List Segment}
    (hsegments : Piece.allSegments? operations template scope = some segments) :
    headings segments = o.heads.flatMap (Head.headings operations scope) :=
  congrArg Reading.headings (Piece.describes_of_outlineAll? hlines hholds ho hsegments)

end Sound

end SchemaBindings.Template
