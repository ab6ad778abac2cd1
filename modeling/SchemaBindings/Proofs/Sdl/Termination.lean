import SchemaBindings.Proofs.Sdl.Iteration
import SchemaBindings.Proofs.Sdl.Layout
import SchemaBindings.Proofs.Sdl.Steps

namespace SchemaBindings.Sdl

namespace Cursor

variable {c d : Cursor}

theorem Step.upcoming_suffix (h : c.Step d) : d.upcoming <:+ c.upcoming := by
  cases h with
  | advance => exact upcoming_advance_suffix c
  | report => exact List.suffix_rfl

theorem endOffset_skipFaults (c : Cursor) (ts : List Token) :
    (c.skipFaults ts).endOffset = c.endOffset := by
  induction ts generalizing c with
  | nil => rfl
  | cons t ts ih =>
    rw [skipFaults]
    split
    · exact ih _
    · rfl

theorem Step.endOffset_eq (h : c.Step d) : d.endOffset = c.endOffset := by
  cases h with
  | advance =>
    rw [Cursor.advance]
    split
    · rfl
    · exact endOffset_skipFaults _ _
  | report => rfl

/-- The tokens that are left start one after the other, the last one before the input ends. -/
structure Ordered (c : Cursor) : Prop where
  pairwise : c.upcoming.Pairwise fun t u ↦ t.span.start < u.span.start
  lt_end : ∀ t ∈ c.upcoming, t.span.start < c.endOffset

theorem Ordered.of_suffix (h : c.Ordered) (hs : d.upcoming <:+ c.upcoming)
    (hend : d.endOffset = c.endOffset) : d.Ordered :=
  ⟨h.pairwise.sublist hs.sublist, fun t ht ↦ hend ▸ h.lt_end t (hs.subset ht)⟩

theorem Ordered.start_lt (h : c.Ordered) (hs : d.upcoming <:+ c.upcoming)
    (hend : d.endOffset = c.endOffset) (hne : d.upcoming ≠ c.upcoming) :
    c.span.start < d.span.start := by
  obtain ⟨front, hfront⟩ := hs
  cases front with
  | nil => exact absurd hfront hne
  | cons t front =>
    have hpair := h.pairwise
    have ht := h.lt_end t (hfront ▸ List.mem_append_left _ List.mem_cons_self)
    rw [← hfront, List.cons_append, List.pairwise_cons] at hpair
    have hc : c.span.start = t.span.start := by rw [span, ← hfront]; rfl
    rw [hc]
    cases hd : d.upcoming with
    | nil =>
      rw [span, hd, hend]
      exact ht
    | cons u us =>
      rw [span, hd]
      exact hpair.1 u (List.mem_append_right _ (hd ▸ List.mem_cons_self))

/-- Between two places in a text no step leads back, and the offset is the same only where no token
has been taken. -/
structure Onward (c d : Cursor) : Prop where
  suffix : d.upcoming <:+ c.upcoming
  start_le : c.span.start ≤ d.span.start
  eq_of_start_eq : d.span.start = c.span.start → d.upcoming = c.upcoming

theorem Moves.upcoming_suffix (h : c.Moves d) :
    d.upcoming <:+ c.upcoming ∧ d.endOffset = c.endOffset := by
  induction h with
  | refl => exact ⟨List.suffix_rfl, rfl⟩
  | tail _ hstep ih =>
    exact ⟨hstep.upcoming_suffix.trans ih.1, hstep.endOffset_eq.trans ih.2⟩

theorem Moves.onward (h : c.Moves d) (hc : c.Ordered) : c.Onward d := by
  obtain ⟨hs, hend⟩ := h.upcoming_suffix
  by_cases he : d.upcoming = c.upcoming
  · have hspan : d.span = c.span := by rw [span, span, he, hend]
    exact ⟨hs, hspan ▸ le_rfl, fun _ ↦ he⟩
  · have hlt := hc.start_lt hs hend he
    exact ⟨hs, hlt.le, fun h ↦ absurd h hlt.ne'⟩

theorem ordered_start (text : List Char) : (start (tokens text) (Sdl.endOffset text)).Ordered := by
  have hlaid := laidOut_tokens text
  have hall : (⟨tokens text, Sdl.endOffset text, 0, #[]⟩ : Cursor).Ordered := by
    constructor
    · apply hlaid.pairwise.imp_of_mem
      intro t u ht _ hle
      exact Nat.lt_of_lt_of_le (hlaid.proper t ht).2 hle
    · intro t ht
      exact Nat.lt_of_lt_of_le (hlaid.proper t ht).2 (hlaid.within.2 t ht).2
  exact hall.of_suffix (upcoming_skipFaults_suffix _ _) (endOffset_skipFaults _ _)

theorem atEnd_of_kind_ne (h : c.kind ≠ .endOfInput) : c.atEnd = false := by
  cases hu : c.upcoming with
  | nil =>
    rw [kind, hu] at h
    exact absurd rfl h
  | cons t ts => simp [atEnd, hu]

end Cursor

namespace Grammar

open Cursor SchemaBindings.Sdl.Parser

def entry (inner : Parser Value) : Parser (Name × Value) := do
  let n ← name
  expect (.punctuator .colon)
  return (n, ← inner)

def nextName : Parser Name := do
  advance
  name

def nextLocation? : Parser (Option DirectiveLocation) := do
  if ← eat (.punctuator .pipe) then location? else return none

def skipped : Parser (List Unit) :=
  many (fun k ↦ !startsDefinition k) (pure ())

/-- A definition, or what is passed over up to the next one. Only where there is no definition and
no token has been taken for it, the current one is passed over in any case. -/
def definitionTurn : Parser (Option Definition) := do
  let before ← look (·.upcoming.length)
  match ← definition? with
  | some d => return some d
  | none =>
    if (← look (·.upcoming.length)) = before then advance
    let _ ← skipped
    return none

/-- The loops of the grammar, each with one of its turns. -/
inductive Loop : {α : Type} → Parser (List α) → Parser (Option α) → Prop
  | definitions : Loop (many (fun _ ↦ true) definitionOrSkip) (turn (fun _ ↦ true) definitionTurn)
  | skipped : Loop skipped (turn (fun k ↦ !startsDefinition k) advance)
  | operations : Loop (upTo .braceClose operationType?)
      (turn (· != .punctuator .braceClose) operationType?)
  | separatedNames (mark : Punctuator) : Loop (many (· == .punctuator mark) nextName)
      (turn (· == .punctuator mark) nextName)
  | locations : Loop nextLocation?.collect nextLocation?
  | directives : Loop directives (turn (· == .punctuator .at) directive)
  | enumValues : Loop (upTo .braceClose enumValue)
      (turn (· != .punctuator .braceClose) enumValue.progress)
  | fields : Loop (upTo .braceClose field) (turn (· != .punctuator .braceClose) field.progress)
  | inputValues (closing : Punctuator) : Loop (upTo closing inputValue)
      (turn (· != .punctuator closing) inputValue.progress)
  | arguments : Loop (upTo .parenClose argument)
      (turn (· != .punctuator .parenClose) argument.progress)
  | items (constant : Bool) : Loop (upTo .bracketClose (value constant))
      (turn (· != .punctuator .bracketClose) (value constant).progress)
  | entries (constant : Bool) : Loop (upTo .braceClose (entry (value constant)))
      (turn (· != .punctuator .braceClose) (entry (value constant)).progress)

section Taking

variable {α : Type} {c : Cursor}

theorem run_eat (k : TokenKind) (c : Cursor) :
    (eat k).run c = if c.kind = k then (true, c.advance) else (false, c) := by
  change Parser.run (if c.kind = k then advance >>= fun _ ↦ pure true else pure false) c = _
  split <;> rfl

theorem takes_eat {mark : Punctuator} (h : ((eat (.punctuator mark)).run c).1) :
    (eat (.punctuator mark)).Takes c := by
  rw [Takes, run_eat]
  rw [run_eat] at h
  split at h
  next hkind =>
    rw [if_pos hkind]
    exact takes_advance (atEnd_of_kind_ne (by simp [hkind]))
  next => cases h

theorem takes_typeRest (d : Option Description) (body : Parser (List Directive × TypeBody))
    (h : c.atEnd = false) : (typeRest d body).Takes c :=
  takes_bind ((takes_advance h).bind _)

theorem pays_typeDefinition? (d : Option Description) (c : Cursor) :
    (typeDefinition? d).Pays c := by
  have htype (body : Parser (List Directive × TypeBody)) {k : Keyword}
      (h : c.kind = .keyword k) : (some <$> typeRest d body).Pays c :=
    ((takes_typeRest d body (atEnd_of_kind_ne (by simp [h]))).bind _).pays
  apply pays_kind_bind
  split
  next h => exact htype _ h
  next h => exact htype _ h
  next h => exact htype _ h
  next h => exact htype _ h
  next h => exact htype _ h
  next h => exact htype _ h
  next => exact pays_none

theorem takes_schema (d : Option Description) (h : c.atEnd = false) : (schema d).Takes c :=
  takes_bind ((takes_advance h).bind _)

theorem takes_directiveDefinition (d : Option Description) (h : c.atEnd = false) :
    (directiveDefinition d).Takes c :=
  takes_bind ((takes_advance h).bind _)

theorem takes_extension? (h : c.atEnd = false) : extension?.Takes c :=
  takes_bind ((takes_advance h).bind _)

theorem pays_definition? (c : Cursor) : definition?.Pays c := by
  apply pays_bind
  generalize (description?.run c).1 = d
  generalize (description?.run c).2 = c
  apply pays_kind_bind
  split
  next h => exact ((takes_schema d (atEnd_of_kind_ne (by simp [h]))).bind _).pays
  next h => exact ((takes_directiveDefinition d (atEnd_of_kind_ne (by simp [h]))).bind _).pays
  next h =>
    have hend : c.atEnd = false := atEnd_of_kind_ne (by simp [h])
    cases d with
    | none => exact (takes_extension? hend).pays
    | some d =>
      apply Takes.pays
      apply takes_bind
      exact takes_extension? (c := c.report _) hend
  next =>
    have htype := pays_typeDefinition? d c
    intro hsome
    cases hfound : ((typeDefinition? d).run c).1 with
    | none =>
      simp only [bind, hfound] at hsome
      cases hsome
    | some found => exact Takes.bind (htype (by rw [hfound]; rfl)) _

theorem takes_operationType? (h : c.atEnd = false) : operationType?.Takes c := by
  apply takes_bind
  apply takes_kind_bind
  split
  · apply takes_bind
    exact (takes_advance (c := c.report _) h).bind _
  · exact (takes_advance h).bind _

theorem takes_nextName (h : c.atEnd = false) : nextName.Takes c :=
  (takes_advance h).bind _

theorem takes_directive (h : c.atEnd = false) : directive.Takes c :=
  takes_bind ((takes_advance h).bind _)

theorem pays_nextLocation? (c : Cursor) : nextLocation?.Pays c := by
  intro hsome
  have hpipe : ((eat (.punctuator .pipe)).run c).1 := by
    by_contra hpipe
    simp only [nextLocation?, bind, hpipe] at hsome
    cases hsome
  exact (takes_eat hpipe).bind _

end Taking

theorem definitionOrSkip_eq : definitionOrSkip = definitionTurn := by
  apply ext_run
  intro c
  have hpays := pays_definition? c
  cases hfound : (definition?.run c).1 with
  | some d =>
    have hrun := run_progress_of_takes (hpays (by rw [hfound]; rfl))
    simp only [definitionOrSkip, definitionTurn, bind, look, hrun, hfound]
  | none =>
    by_cases hlen : (definition?.run c).2.upcoming.length = c.upcoming.length
    · simp only [definitionOrSkip, definitionTurn, bind, look, run_progress, hfound, hlen, if_true]
      rfl
    · simp only [definitionOrSkip, definitionTurn, bind, look, run_progress, hfound, hlen, if_false]
      rfl

theorem skipped_eq : skipped = (turn (fun k ↦ !startsDefinition k) advance).collect := by
  change (turn _ (pure () : Parser Unit).progress).collect = _
  congr 2
  apply ext_run
  intro c
  rw [run_progress]
  exact if_pos rfl

theorem Loop.pays {α : Type} {loop : Parser (List α)} {p : Parser (Option α)} (h : Loop loop p) :
    loop = p.collect ∧ ∀ c, p.Pays c := by
  cases h with
  | definitions =>
    have htakes (c : Cursor) (h : c.atEnd = false) (_ : true) : definitionOrSkip.Takes c :=
      (takes_progress _ h).bind _
    rw [← definitionOrSkip_eq]
    exact ⟨many_eq_collect htakes, fun c ↦ pays_turn (htakes c)⟩
  | skipped => exact ⟨skipped_eq, fun c ↦ pays_turn fun h _ ↦ takes_advance h⟩
  | operations =>
    exact ⟨many_eq_collect fun c h _ ↦ takes_operationType? h,
      fun c ↦ pays_turn fun h _ ↦ takes_operationType? h⟩
  | separatedNames =>
    exact ⟨many_eq_collect fun c h _ ↦ takes_nextName h,
      fun c ↦ pays_turn fun h _ ↦ takes_nextName h⟩
  | locations => exact ⟨rfl, pays_nextLocation?⟩
  | directives =>
    exact ⟨many_eq_collect fun c h _ ↦ takes_directive h,
      fun c ↦ pays_turn fun h _ ↦ takes_directive h⟩
  | enumValues | fields | inputValues | arguments | items | entries =>
    exact ⟨rfl, fun c ↦ pays_turn fun h _ ↦ takes_progress _ h⟩

theorem Loop.iterates {α : Type} {loop : Parser (List α)} {p : Parser (Option α)}
    (h : Loop loop p) (c : Cursor) : Iterates p c (loop.run c).1 (loop.run c).2 := by
  obtain ⟨rfl, hpays⟩ := h.pays
  exact iterates_collect hpays c

section Nesting

variable {c : Cursor}

theorem callsLater_typeRefStep : CallsLater typeRefStep := by
  intro c p q h
  apply run_bind_congr
  apply run_bind_congr
  cases hopen : ((eat (.punctuator .bracketOpen)).run (offset.run c).2).1 with
  | true => exact run_bind_congr_left (h _ (takes_eat hopen)) _
  | false => rfl

theorem run_enclosed_congr {α : Type} {opening closing : Punctuator} {p q : Parser (List α)}
    (h : AgreeBehind c p q) :
    (enclosed opening closing p).run c = (enclosed opening closing q).run c := by
  apply run_bind_congr
  cases hopen : ((eat (.punctuator opening)).run c).1 with
  | true => exact run_bind_congr_left (h _ (takes_eat hopen)) _
  | false => rfl

theorem agreeBehind_upTo {α : Type} (closing : Punctuator) {p q : Parser α}
    (h : AgreeBehind c p q) : AgreeBehind c (upTo closing p) (upTo closing q) := by
  intro d hd
  apply run_many_congr
  intro e he
  exact h e (Nat.lt_of_le_of_lt he hd)

theorem agreeBehind_entry {p q : Parser Value} (h : AgreeBehind c p q) :
    AgreeBehind c (entry p) (entry q) := by
  intro d hd
  apply run_bind_congr
  apply run_bind_congr
  apply run_bind_congr_left
  apply h
  have hname := (name.forward d).length_le
  have hcolon := ((expect (.punctuator .colon)).forward (name.run d).2).length_le
  exact Nat.lt_of_le_of_lt (hcolon.trans hname) hd

theorem callsLater_valueStep (constant : Bool) : CallsLater (valueStep constant) := by
  intro c p q h
  apply run_bind_congr
  apply run_bind_congr
  cases (kind.run (offset.run c).2).1 with
  | punctuator mark =>
    cases mark with
    | bracketOpen => exact run_bind_congr_left (run_enclosed_congr (agreeBehind_upTo _ h)) _
    | braceOpen =>
      exact run_bind_congr_left (run_enclosed_congr (agreeBehind_upTo _ (agreeBehind_entry h))) _
    | _ => rfl
  | keyword word => cases word <;> rfl
  | _ => rfl

theorem typeRef_eq : typeRef = typeRefStep typeRef :=
  nested_eq callsLater_typeRefStep

theorem value_eq (constant : Bool) : value constant = valueStep constant (value constant) :=
  nested_eq (callsLater_valueStep constant)

end Nesting

end Grammar

open Cursor Grammar SchemaBindings.Sdl.Parser

/-- From one cursor on, steps lead to another one where no token is left, and never back. -/
structure Cursor.Finishes (c d : Cursor) : Prop where
  moves : c.Moves d
  upcoming : d.upcoming = []
  onward : ∀ e e', c.Moves e → e.Moves e' → e.Onward e'

theorem finishes_document (text : List Char) :
    (start (tokens text) (Sdl.endOffset text)).Finishes
      (document.run (.start (tokens text) (Sdl.endOffset text))).2 where
  moves := stepwise_document.moves _
  upcoming := upcoming_document _
  onward := by
    intro e e' he hmoves
    obtain ⟨hs, hend⟩ := Moves.upcoming_suffix he
    exact Moves.onward hmoves ((ordered_start text).of_suffix hs hend)

/-- A text whose last string is not cut off behind a backslash is read to its end, without a step
back. Each loop goes through its turns, of which only the last may take no token, and types and
values are unfoldings of themselves that start over behind a token. -/
theorem finishes_parse? {text : List Char} (h : ¬EndsAfterBackslash text) :
    (∃ d c, document.run (.start (tokens text) (Sdl.endOffset text)) = (d, c) ∧
      Document.parse? text = some ⟨d, c.diagnostics.toList⟩ ∧
      (start (tokens text) (Sdl.endOffset text)).Finishes c) ∧
    (∀ (α : Type) (loop : Parser (List α)) (p : Parser (Option α)), Loop loop p →
      ∀ e, Iterates p e (loop.run e).1 (loop.run e).2) ∧
    (typeRef = typeRefStep typeRef ∧ CallsLater typeRefStep) ∧
    ∀ constant, value constant = valueStep constant (value constant) ∧
      CallsLater (valueStep constant) := by
  rw [← endsInEscape_iff] at h
  refine ⟨⟨_, _, rfl, if_neg h, finishes_document text⟩, fun α loop p hloop ↦ hloop.iterates,
    ⟨typeRef_eq, callsLater_typeRefStep⟩, fun constant ↦ ?_⟩
  exact ⟨value_eq constant, callsLater_valueStep constant⟩

/-- A text of misplaced tokens, with faults before the first and after the last one. -/
theorem finishes_parse?_misplaced :
    ∃ text, text = "% \x7b type A \x7b ) [ : = ! \x7d \"".toList ∧ ¬EndsAfterBackslash text ∧
      ∃ d c, document.run (.start (tokens text) (Sdl.endOffset text)) = (d, c) ∧
        Document.parse? text = some ⟨d, c.diagnostics.toList⟩ ∧
        (start (tokens text) (Sdl.endOffset text)).Finishes c := by
  refine ⟨_, rfl, ?_⟩
  have h : ¬EndsAfterBackslash "% \x7b type A \x7b ) [ : = ! \x7d \"".toList := by
    rw [← endsInEscape_iff]
    decide
  exact ⟨h, (finishes_parse? h).1⟩

end SchemaBindings.Sdl
