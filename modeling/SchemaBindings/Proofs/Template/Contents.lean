import SchemaBindings.Proofs.Template.Outlines

namespace SchemaBindings.Template

variable {Op : Type} (operations : Operations Op)

mutual

def Piece.contents : Piece Op → Scope → List Char
  | .text s, _ => s.toList
  | .value e, scope => e.spelling operations scope
  | .choice condition yes no, scope =>
    if condition.holds? operations scope = some true then allContents yes scope
    else allContents no scope
  | .each list body none, scope =>
    (scope.items (list.items operations scope)).flatMap fun inner ↦ allContents body inner
  | .each list body (some otherwise), scope =>
    if list.items operations scope = [] then allContents otherwise scope
    else (scope.items (list.items operations scope)).flatMap fun inner ↦ allContents body inner

def Piece.allContents : List (Piece Op) → Scope → List Char
  | [], _ => []
  | piece :: pieces, scope => piece.contents scope ++ allContents pieces scope

end

variable {operations} {scope : Scope}

@[simp]
theorem Piece.contents_text (s : String) :
    (text s : Piece Op).contents operations scope = s.toList :=
  rfl

@[simp]
theorem Piece.contents_value (e : Expr Op) :
    (value e).contents operations scope = e.spelling operations scope :=
  rfl

@[simp]
theorem Piece.allContents_nil : allContents operations ([] : List (Piece Op)) scope = [] :=
  rfl

@[simp]
theorem Piece.allContents_cons (piece : Piece Op) (pieces : List (Piece Op)) :
    allContents operations (piece :: pieces) scope =
      piece.contents operations scope ++ allContents operations pieces scope :=
  rfl

theorem Piece.allContents_append (front back : List (Piece Op)) :
    allContents operations (front ++ back) scope =
      allContents operations front scope ++ allContents operations back scope := by
  induction front with
  | nil => rfl
  | cons piece front ih => rw [List.cons_append, allContents_cons, allContents_cons, ih,
      List.append_assoc]

theorem flatten_of_mapM_eq_some {α : Type} {f : α → Option (List Char)} {g : α → List Char}
    (h : ∀ a text, f a = some text → text = g a) {as : List α} {texts : List (List Char)}
    (htexts : as.mapM f = some texts) : texts.flatten = as.flatMap g := by
  induction as generalizing texts with
  | nil =>
    cases htexts
    rfl
  | cons a as ih =>
    rw [List.mapM_cons] at htexts
    obtain ⟨first, hfirst, htexts⟩ := Option.bind_eq_some_iff.mp htexts
    obtain ⟨rest, hrest, htexts⟩ := Option.bind_eq_some_iff.mp htexts
    cases htexts
    rw [List.flatten_cons, List.flatMap_cons, h a first hfirst, ih hrest]

mutual

theorem Piece.eq_contents_of_write? {piece : Piece Op} {scope : Scope} {text : List Char}
    (h : piece.write? operations scope = some text) : text = piece.contents operations scope := by
  match piece with
  | .text s => exact (Option.some.inj h).symm
  | .value e =>
    obtain ⟨value, hvalue, h⟩ := Option.bind_eq_some_iff.mp h
    obtain ⟨j, rfl, rfl⟩ := Option.map_eq_some_iff.mp h
    rw [contents, Expr.spelling, hvalue]
  | .choice condition yes no =>
    obtain ⟨holds, hholds, h⟩ := Option.bind_eq_some_iff.mp h
    rw [contents, hholds]
    cases holds with
    | true => exact Piece.eq_allContents_of_writeAll? h
    | false => exact Piece.eq_allContents_of_writeAll? h
  | .each list body none =>
    obtain ⟨value, hvalue, h⟩ := Option.bind_eq_some_iff.mp h
    obtain ⟨items, hitems, h⟩ := Option.bind_eq_some_iff.mp h
    obtain ⟨texts, htexts, rfl⟩ := Option.map_eq_some_iff.mp h
    have hlist : list.items operations scope = items := by
      simp only [Expr.items, hvalue, hitems, Option.getD_some]
    rw [contents, hlist]
    exact flatten_of_mapM_eq_some (fun inner text ↦ Piece.eq_allContents_of_writeAll?) htexts
  | .each list body (some otherwise) =>
    obtain ⟨value, hvalue, h⟩ := Option.bind_eq_some_iff.mp h
    have hlist : list.items operations scope = (value.bind Json.repeated?).getD [] := by
      simp only [Expr.items, hvalue]
    rw [contents, hlist]
    split at h
    next hnone =>
      rw [hnone]
      exact Piece.eq_allContents_of_writeAll? h
    next hnil =>
      rw [hnil]
      exact Piece.eq_allContents_of_writeAll? h
    next items hne hitems =>
      obtain ⟨texts, htexts, rfl⟩ := Option.map_eq_some_iff.mp h
      rw [hitems, Option.getD_some, if_neg hne]
      exact flatten_of_mapM_eq_some (fun inner text ↦ Piece.eq_allContents_of_writeAll?) htexts

theorem Piece.eq_allContents_of_writeAll? {pieces : List (Piece Op)} {scope : Scope}
    {text : List Char} (h : Piece.writeAll? operations pieces scope = some text) :
    text = Piece.allContents operations pieces scope := by
  match pieces with
  | [] => exact (Option.some.inj h).symm
  | piece :: pieces =>
    obtain ⟨first, hfirst, h⟩ := Option.bind_eq_some_iff.mp h
    obtain ⟨rest, hrest, rfl⟩ := Option.map_eq_some_iff.mp h
    rw [allContents, ← Piece.eq_contents_of_write? hfirst,
      ← Piece.eq_allContents_of_writeAll? hrest]

end

theorem Piece.exists_write?_of_mem {pieces : List (Piece Op)} {text : List Char}
    (h : Piece.writeAll? operations pieces scope = some text) {piece : Piece Op}
    (hpiece : piece ∈ pieces) : ∃ part, piece.write? operations scope = some part := by
  induction pieces generalizing text with
  | nil => cases hpiece
  | cons first pieces ih =>
    obtain ⟨part, hpart, h⟩ := Option.bind_eq_some_iff.mp h
    obtain ⟨rest, hrest, -⟩ := Option.map_eq_some_iff.mp h
    rcases List.mem_cons.mp hpiece with rfl | hpiece
    · exact ⟨part, hpart⟩
    · exact ih hrest hpiece

theorem Piece.exists_writeAll?_of_choice {condition : Expr Op} {yes no : List (Piece Op)}
    {text : List Char} (h : (choice condition yes no).write? operations scope = some text)
    (hholds : condition.holds? operations scope = some true) :
    ∃ part, Piece.writeAll? operations yes scope = some part := by
  rw [write?, hholds] at h
  exact ⟨text, h⟩

theorem exists_mapM_eq_some_iff {α β : Type} {f : α → Option β} {as : List α} :
    (∃ bs, as.mapM f = some bs) ↔ ∀ a ∈ as, ∃ b, f a = some b := by
  refine ⟨?_, Attempt.exists_mapM_eq_some⟩
  rintro ⟨bs, h⟩
  induction as generalizing bs with
  | nil => exact nofun
  | cons a as ih =>
    rw [List.mapM_cons] at h
    obtain ⟨b, hb, h⟩ := Option.bind_eq_some_iff.mp h
    obtain ⟨rest, hrest, -⟩ := Option.bind_eq_some_iff.mp h
    exact List.forall_mem_cons.mpr ⟨⟨b, hb⟩, ih rest hrest⟩

theorem Piece.exists_writeAll?_of_each {list : Expr Op} {body : List (Piece Op)} {text : List Char}
    (h : (each list body none).write? operations scope = some text) {inner : Scope}
    (hinner : inner ∈ scope.items (list.items operations scope)) :
    ∃ part, Piece.writeAll? operations body inner = some part := by
  obtain ⟨value, hvalue, h⟩ := Option.bind_eq_some_iff.mp h
  obtain ⟨items, hitems, h⟩ := Option.bind_eq_some_iff.mp h
  obtain ⟨texts, htexts, -⟩ := Option.map_eq_some_iff.mp h
  have hlist : list.items operations scope = items := by
    simp only [Expr.items, hvalue, hitems, Option.getD_some]
  exact exists_mapM_eq_some_iff.mp ⟨texts, htexts⟩ inner (hlist ▸ hinner)

section Items

variable {α : Type} {toJson : α → Json} {f : Scope → List Char} {g : α → List Char}

theorem Scope.exists_mem_items {a : α} {as : List α} (h : a ∈ as) :
    ∃ last, ⟨toJson a, some last⟩ :: scope ∈ scope.items (as.map toJson) := by
  induction as with
  | nil => cases h
  | cons first as ih =>
    cases as with
    | nil =>
      obtain rfl := List.mem_singleton.mp h
      exact ⟨true, List.mem_cons_self⟩
    | cons second as =>
      rcases List.mem_cons.mp h with rfl | h
      · exact ⟨false, List.mem_cons_self⟩
      · obtain ⟨last, hlast⟩ := ih h
        exact ⟨last, List.mem_cons_of_mem _ hlast⟩

theorem Scope.flatMap_items (h : ∀ a last, f (⟨toJson a, some last⟩ :: scope) = g a)
    (as : List α) : (scope.items (as.map toJson)).flatMap f = as.flatMap g := by
  induction as with
  | nil => rfl
  | cons a as ih =>
    cases as with
    | nil => exact congrArg (· ++ []) (h a true)
    | cons second as => exact congrArg₂ (· ++ ·) (h a false) ih

theorem Scope.flatMap_items_separated {separator : List Char}
    (h : ∀ a last, f (⟨toJson a, some last⟩ :: scope) = g a ++ if last then [] else separator)
    (as : List α) :
    (scope.items (as.map toJson)).flatMap f = separator.intercalate (as.map g) := by
  induction as with
  | nil => rfl
  | cons a as ih =>
    cases as with
    | nil =>
      have hlast := h a true
      simpa [Scope.items] using hlast
    | cons second as =>
      have hfirst := h a false
      have hcons : (scope.items ((a :: second :: as).map toJson)).flatMap f =
          f (⟨toJson a, some false⟩ :: scope) ++
            (scope.items ((second :: as).map toJson)).flatMap f := rfl
      rw [hcons, ih, hfirst]
      simp only [List.map_cons, List.intercalate_cons_cons, Bool.false_eq_true, if_false,
        List.append_assoc]

end Items

end SchemaBindings.Template
