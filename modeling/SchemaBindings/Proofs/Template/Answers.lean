import SchemaBindings.Proofs.Attempt
import SchemaBindings.Template.Evaluation

namespace SchemaBindings.Template

variable {Op : Type} (operations : Operations Op)

mutual

/-- Everything that an expression looks up is there, and its operations have a result. -/
def Expr.Answers (scope : Scope) : Expr Op → Prop
  | .path outer keys => ∃ j, scope.lookup outer keys = some (some j)
  | .isLast => ∃ last, scope.head?.bind (·.isLast) = some last
  | .text _ => True
  | .call op arguments => Expr.AllAnswer scope arguments ∧
    ∃ values j, Expr.values? operations scope arguments = some values ∧
      operations op values = some j

def Expr.AllAnswer (scope : Scope) : List (Expr Op) → Prop
  | [] => True
  | e :: es => e.Answers scope ∧ Expr.AllAnswer scope es

end

mutual

/-- So do the expressions of all parts of a piece that are written. A repetition is over something
that can be repeated. -/
def Piece.Answers : Piece Op → Scope → Prop
  | .text _, _ => True
  | .value e, scope => e.Answers operations scope
  | .choice condition yes no, scope => condition.Answers operations scope ∧
    (condition.holds? operations scope = some true → Piece.AllAnswer yes scope) ∧
    (condition.holds? operations scope = some false → Piece.AllAnswer no scope)
  | .each list body none, scope => list.Answers operations scope ∧
    ∃ j items, list.value? operations scope = some (some j) ∧ j.repeated? = some items ∧
      ∀ inner ∈ scope.items items, Piece.AllAnswer body inner
  | .each list body (some otherwise), scope => list.Answers operations scope ∧
    ∃ j items, list.value? operations scope = some (some j) ∧ j.repeated? = some items ∧
      (∀ inner ∈ scope.items items, Piece.AllAnswer body inner) ∧
      (items = [] → Piece.AllAnswer otherwise scope)

def Piece.AllAnswer : List (Piece Op) → Scope → Prop
  | [], _ => True
  | piece :: pieces, scope => piece.Answers scope ∧ Piece.AllAnswer pieces scope

end

variable {operations}

theorem Expr.exists_value?_of_answers {scope : Scope} {e : Expr Op}
    (h : e.Answers operations scope) : ∃ j, e.value? operations scope = some (some j) := by
  cases e with
  | path outer keys =>
    obtain ⟨j, hj⟩ := h
    exact ⟨j, hj⟩
  | isLast =>
    obtain ⟨last, hlast⟩ := h
    exact ⟨.bool last, by rw [Expr.value?, hlast]; rfl⟩
  | text s => exact ⟨.string s, rfl⟩
  | call op arguments =>
    obtain ⟨-, values, j, hvalues, hj⟩ := h
    exact ⟨j, by rw [Expr.value?, hvalues, Option.bind_some, hj]; rfl⟩

mutual

theorem Piece.exists_write?_of_answers {piece : Piece Op} {scope : Scope}
    (h : piece.Answers operations scope) : ∃ text, piece.write? operations scope = some text := by
  match piece with
  | .text s => exact ⟨s.toList, rfl⟩
  | .value e =>
    obtain ⟨j, hj⟩ := Expr.exists_value?_of_answers h
    exact ⟨j.plainText, by rw [Piece.write?, hj]; rfl⟩
  | .choice condition yes no =>
    obtain ⟨hcondition, hyes, hno⟩ := h
    obtain ⟨j, hj⟩ := Expr.exists_value?_of_answers hcondition
    have hholds : condition.holds? operations scope = some j.holds := by
      rw [Expr.holds?, hj]
      rfl
    rw [Piece.write?, hholds]
    cases hb : j.holds with
    | true => exact Piece.exists_writeAll?_of_allAnswer (hyes (hb ▸ hholds))
    | false => exact Piece.exists_writeAll?_of_allAnswer (hno (hb ▸ hholds))
  | .each list body none =>
    obtain ⟨-, j, items, hj, hitems, hbody⟩ := h
    obtain ⟨texts, htexts⟩ := Attempt.exists_mapM_eq_some fun inner hinner ↦
      Piece.exists_writeAll?_of_allAnswer (hbody inner hinner)
    exact ⟨texts.flatten, by simp only [Piece.write?, hj, Option.bind_some, hitems, htexts,
      Option.map_some]⟩
  | .each list body (some otherwise) =>
    obtain ⟨-, j, items, hj, hitems, hbody, hotherwise⟩ := h
    rw [Piece.write?, hj]
    cases items with
    | nil =>
      simp only [Option.bind_some, hitems]
      exact Piece.exists_writeAll?_of_allAnswer (hotherwise rfl)
    | cons first rest =>
      obtain ⟨texts, htexts⟩ := Attempt.exists_mapM_eq_some fun inner hinner ↦
        Piece.exists_writeAll?_of_allAnswer (hbody inner hinner)
      exact ⟨texts.flatten, by simp only [Option.bind_some, hitems, htexts, Option.map_some]⟩

theorem Piece.exists_writeAll?_of_allAnswer {pieces : List (Piece Op)} {scope : Scope}
    (h : Piece.AllAnswer operations pieces scope) :
    ∃ text, Piece.writeAll? operations pieces scope = some text := by
  match pieces with
  | [] => exact ⟨[], rfl⟩
  | piece :: pieces =>
    obtain ⟨text, htext⟩ := Piece.exists_write?_of_answers h.1
    obtain ⟨rest, hrest⟩ := Piece.exists_writeAll?_of_allAnswer h.2
    exact ⟨text ++ rest, by rw [Piece.writeAll?, htext, hrest]; rfl⟩

end

end SchemaBindings.Template
