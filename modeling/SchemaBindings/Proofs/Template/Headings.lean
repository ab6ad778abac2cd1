import SchemaBindings.Proofs.Template.Answers

namespace SchemaBindings.Template

variable {Op : Type} (operations : Operations Op)

/-- A stretch of written text. -/
inductive Segment where
  | fixed (text : List Char)
  | inserted (text : List Char)
  deriving DecidableEq

def Segment.text : Segment → List Char
  | fixed text => text
  | inserted text => text

mutual

def Piece.segments? : Piece Op → Scope → Option (List Segment)
  | .text s, _ => some [.fixed s.toList]
  | .value e, scope => (e.value? operations scope).bind fun value ↦
    value.map fun j ↦ [.inserted j.plainText]
  | .choice condition yes no, scope =>
    (condition.holds? operations scope).bind fun holds ↦
      if holds then allSegments? yes scope else allSegments? no scope
  | .each list body none, scope =>
    (list.value? operations scope).bind fun value ↦
      (value.bind Json.repeated?).bind fun items ↦
        ((scope.items items).mapM fun inner ↦ allSegments? body inner).map List.flatten
  | .each list body (some otherwise), scope =>
    (list.value? operations scope).bind fun value ↦
      match value.bind Json.repeated? with
      | none | some [] => allSegments? otherwise scope
      | some items =>
        ((scope.items items).mapM fun inner ↦ allSegments? body inner).map List.flatten

def Piece.allSegments? : List (Piece Op) → Scope → Option (List Segment)
  | [], _ => some []
  | piece :: pieces, scope =>
    (piece.segments? scope).bind fun segments ↦ (allSegments? pieces scope).map (segments ++ ·)

end

def Segment.join (segments : List Segment) : List Char :=
  segments.flatMap Segment.text

theorem Segment.join_append (segments others : List Segment) :
    join (segments ++ others) = join segments ++ join others :=
  List.flatMap_append

theorem Segment.join_flatten (parts : List (List Segment)) :
    join parts.flatten = (parts.map join).flatten := by
  induction parts with
  | nil => rfl
  | cons first parts ih => rw [List.flatten_cons, join_append, ih, List.map_cons, List.flatten_cons]

theorem mapM_map_join {α : Type} {f : α → Option (List Segment)} {g : α → Option (List Char)}
    (h : ∀ a, g a = (f a).map Segment.join) (as : List α) :
    (as.mapM g).map List.flatten = ((as.mapM f).map List.flatten).map Segment.join := by
  obtain rfl : g = fun a ↦ (f a).map Segment.join := funext h
  have hall : as.mapM (fun a ↦ (f a).map Segment.join) =
      (as.mapM f).map (List.map Segment.join) := by
    induction as with
    | nil => rfl
    | cons a as ih =>
      rw [List.mapM_cons, List.mapM_cons, ih]
      cases f a with
      | none => rfl
      | some first => cases as.mapM f <;> rfl
  rw [hall, Option.map_map, Option.map_map]
  congr 1
  exact funext fun parts ↦ (Segment.join_flatten parts).symm

mutual

theorem Piece.write?_eq (piece : Piece Op) (scope : Scope) :
    piece.write? operations scope = (piece.segments? operations scope).map Segment.join := by
  match piece with
  | .text s => simp [Piece.write?, Piece.segments?, Segment.join, Segment.text]
  | .value e =>
    rw [Piece.write?, Piece.segments?]
    cases e.value? operations scope with
    | none => rfl
    | some value => cases value <;> simp [Segment.join, Segment.text]
  | .choice condition yes no =>
    rw [Piece.write?, Piece.segments?]
    cases condition.holds? operations scope with
    | none => rfl
    | some holds =>
      cases holds
      · exact writeAll?_eq no scope
      · exact writeAll?_eq yes scope
  | .each list body none =>
    rw [Piece.write?, Piece.segments?]
    cases list.value? operations scope with
    | none => rfl
    | some value =>
      simp only [Option.bind_some]
      cases value.bind Json.repeated? with
      | none => rfl
      | some items => exact mapM_map_join (writeAll?_eq body) _
  | .each list body (some otherwise) =>
    rw [Piece.write?, Piece.segments?]
    cases list.value? operations scope with
    | none => rfl
    | some value =>
      simp only [Option.bind_some]
      rcases value.bind Json.repeated? with _ | (_ | ⟨first, items⟩)
      · exact writeAll?_eq otherwise scope
      · exact writeAll?_eq otherwise scope
      · exact mapM_map_join (writeAll?_eq body) _

theorem Piece.writeAll?_eq (pieces : List (Piece Op)) (scope : Scope) :
    Piece.writeAll? operations pieces scope =
      (Piece.allSegments? operations pieces scope).map Segment.join := by
  match pieces with
  | [] => rfl
  | piece :: pieces =>
    rw [Piece.writeAll?, Piece.allSegments?, Piece.write?_eq piece, Piece.writeAll?_eq pieces]
    cases piece.segments? operations scope with
    | none => rfl
    | some segments =>
      cases Piece.allSegments? operations pieces scope with
      | none => rfl
      | some others => exact congrArg some (Segment.join_append segments others).symm

end

/-- A line that declares a name: the text before the name, and what the name is made of. -/
structure Heading (ν : Type) where
  lead : List Char
  name : List ν
  deriving DecidableEq

/-- Where the reading of a text stands in its line. -/
inductive Column (ν : Type) where
  | start
  /-- After fixed text that begins the line with a letter. -/
  | lead (text : List Char)
  /-- Inside the name that is inserted after it. -/
  | name (lead : List Char) (name : List ν)
  | rest
  deriving DecidableEq

/-- A column, and the headings that end before it. -/
structure Reading (ν : Type) where
  column : Column ν
  headings : List (Heading ν)
  deriving DecidableEq

def isNameChar (c : Char) : Bool :=
  c.isAlphanum || c == '_'

section Reading

variable {ν : Type} (symbol : Char → ν)

def Reading.andThen (r : Reading ν) (next : Column ν → Reading ν) : Reading ν :=
  ⟨(next r.column).column, r.headings ++ (next r.column).headings⟩

theorem Reading.andThen_assoc (r : Reading ν) (next after : Column ν → Reading ν) :
    (r.andThen next).andThen after = r.andThen fun column ↦ (next column).andThen after := by
  simp [andThen]

theorem Reading.andThen_done (r : Reading ν) : (r.andThen fun column ↦ ⟨column, []⟩) = r := by
  simp [andThen]

namespace Column

def afterChar : Column ν → Char → Reading ν
  | .start, c => ⟨if c = '\n' then .start else if c.isAlpha then .lead [c] else .rest, []⟩
  | .lead text, c => if c = '\n' then ⟨.start, [⟨text, []⟩]⟩ else ⟨.lead (text ++ [c]), []⟩
  | .name before symbols, c =>
    if isNameChar c then ⟨.name before (symbols ++ [symbol c]), []⟩
    else ⟨if c = '\n' then .start else .rest, [⟨before, symbols⟩]⟩
  | .rest, c => ⟨if c = '\n' then .start else .rest, []⟩

def afterText : Column ν → List Char → Reading ν
  | column, [] => ⟨column, []⟩
  | column, c :: cs => (column.afterChar symbol c).andThen fun next ↦ next.afterText cs

/-- Reads an inserted value. Where a line begins, whole lines may be inserted. -/
def afterValue (wholeLines : Bool) (value : List ν) : Column ν → Column ν
  | .start => if wholeLines then .start else .rest
  | .lead text => .name text value
  | .name before symbols => .name before (symbols ++ value)
  | .rest => .rest

end Column

end Reading

def isWholeLines (text : List Char) : Bool :=
  text.getLast?.all (· == '\n')

namespace Column

def afterSegment (column : Column Char) : Segment → Reading Char
  | .fixed text => column.afterText id text
  | .inserted text => ⟨column.afterValue (isWholeLines text) text, []⟩

def afterSegments : Column Char → List Segment → Reading Char
  | column, [] => ⟨column, []⟩
  | column, segment :: segments =>
    (column.afterSegment segment).andThen fun next ↦ next.afterSegments segments

theorem afterSegments_singleton (column : Column Char) (segment : Segment) :
    column.afterSegments [segment] = column.afterSegment segment :=
  Reading.andThen_done _

theorem afterSegments_append (column : Column Char) (segments others : List Segment) :
    column.afterSegments (segments ++ others) =
      (column.afterSegments segments).andThen fun next ↦ next.afterSegments others := by
  induction segments generalizing column with
  | nil => simp [afterSegments, Reading.andThen]
  | cons segment segments ih =>
    simp only [List.cons_append, afterSegments, ih, Reading.andThen_assoc]

end Column

def headings (segments : List Segment) : List (Heading Char) :=
  (Column.start.afterSegments segments).headings

end SchemaBindings.Template
