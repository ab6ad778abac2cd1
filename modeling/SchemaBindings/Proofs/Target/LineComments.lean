import SchemaBindings.Proofs.Target.Headings
import SchemaBindings.Proofs.Text.Paragraphs

namespace SchemaBindings.Comment

open Text

/-- The lines of source code. A line feed, a carriage return or both together end a line, and no
line begins behind the last of them. -/
def codeLines : List Char → List (List Char)
  | [] => []
  | '\r' :: '\n' :: cs => [] :: codeLines cs
  | c :: cs =>
    if c = '\n' ∨ c = '\r' then [] :: codeLines cs
    else match codeLines cs with
      | [] => [[c]]
      | line :: lines => (c :: line) :: lines

def IsMarked (mark code : List Char) : Prop :=
  ∀ line ∈ codeLines code, mark <+: line

instance (mark code : List Char) : Decidable (IsMarked mark code) :=
  inferInstanceAs (Decidable (∀ line ∈ codeLines code, _))

/-- Whatever a carriage return within a line of the text sets off begins with the mark itself. -/
def KeepsMark (mark text : List Char) : Prop :=
  ∀ p ∈ paragraphs text, ¬allBlank p → ∀ line ∈ (codeLines p).tail, mark <+: line

instance (mark text : List Char) : Decidable (KeepsMark mark text) :=
  inferInstanceAs (Decidable (∀ p ∈ paragraphs text, _))

theorem codeLines_cons {c : Char} (hc : c ≠ '\n' ∧ c ≠ '\r') (cs : List Char) :
    codeLines (c :: cs) = (c :: (codeLines cs).headD []) :: (codeLines cs).tail := by
  rw [codeLines, if_neg (by simp [hc])]
  · cases codeLines cs <;> rfl
  · exact fun _ he _ ↦ hc.2 he

theorem codeLines_return {cs : List Char} (h : cs.head? ≠ some '\n') :
    codeLines ('\r' :: cs) = [] :: codeLines cs := by
  rw [codeLines, if_pos (.inr rfl)]
  rintro tail - rfl
  exact h rfl

theorem codeLines_ne_nil {cs : List Char} (h : cs ≠ []) : codeLines cs ≠ [] := by
  fun_cases codeLines cs with
  | case1 => exact absurd rfl h
  | _ => simp_all

theorem codeLines_append_feed {cs : List Char} (h : '\n' ∉ cs) (rest : List Char) :
    codeLines (cs ++ '\n' :: rest) =
      (if cs = [] then [[]] else codeLines cs) ++ codeLines rest := by
  induction cs with
  | nil => simp [codeLines]
  | cons c cs ih =>
    obtain ⟨hc, hcs⟩ := not_or.mp (List.mem_cons.not.mp h)
    rw [if_neg (List.cons_ne_nil c cs), List.cons_append]
    by_cases hreturn : c = '\r'
    · subst hreturn
      cases cs with
      | nil => rfl
      | cons d cs =>
        have hd : d ≠ '\n' := fun he ↦ hcs (by simp [he])
        rw [codeLines_return (by simpa using hd), codeLines_return (by simpa using hd), ih hcs,
          if_neg (List.cons_ne_nil d cs), List.cons_append]
    · have hplain : c ≠ '\n' ∧ c ≠ '\r' := ⟨Ne.symm hc, hreturn⟩
      rw [codeLines_cons hplain, codeLines_cons hplain, ih hcs]
      cases cs with
      | nil => rfl
      | cons d cs =>
        obtain ⟨line, lines, hlines⟩ :=
          List.exists_cons_of_ne_nil (codeLines_ne_nil (List.cons_ne_nil d cs))
        rw [if_neg (List.cons_ne_nil d cs), hlines]
        rfl

theorem codeLines_append {lead : List Char} (hne : lead ≠ [])
    (h : ∀ c ∈ lead, c ≠ '\n' ∧ c ≠ '\r') (cs : List Char) :
    codeLines (lead ++ cs) = (lead ++ (codeLines cs).headD []) :: (codeLines cs).tail := by
  induction lead with
  | nil => exact absurd rfl hne
  | cons c lead ih =>
    obtain ⟨hc, hlead⟩ := List.forall_mem_cons.mp h
    rw [List.cons_append, codeLines_cons hc]
    cases lead with
    | nil => rfl
    | cons d lead => rw [ih (List.cons_ne_nil d lead) hlead]; rfl

section Mark

variable {indent marker : List Char} (hmark : ∀ c ∈ indent ++ marker, c ≠ '\n' ∧ c ≠ '\r')

include hmark

theorem isMarked_line_append_iff {p : List Char} (hp : '\n' ∉ p) (rest : List Char) :
    IsMarked (indent ++ marker) (line indent marker p ++ rest) ↔
      (¬allBlank p → ∀ line ∈ (codeLines p).tail, indent ++ marker <+: line) ∧
        IsMarked (indent ++ marker) rest := by
  have hfeed : '\n' ∉ indent ++ marker := fun hmem ↦ (hmark _ hmem).1 rfl
  unfold line
  generalize indent ++ marker = mark at hmark hfeed
  split
  next hblank =>
    have hlines : ∀ line ∈ if mark = [] then [[]] else codeLines mark, mark <+: line := by
      split
      next hnil => simp [hnil]
      next hne =>
        have hone := codeLines_append hne hmark []
        rw [List.append_nil] at hone
        simp [hone, codeLines]
    rw [List.append_assoc, List.singleton_append, IsMarked, codeLines_append_feed hfeed,
      List.forall_mem_append]
    exact ⟨fun h ↦ ⟨fun hp ↦ absurd hblank hp, h.2⟩, fun h ↦ ⟨hlines, h.2⟩⟩
  next hblank =>
    have hlead : ∀ c ∈ mark ++ [' '], c ≠ '\n' ∧ c ≠ '\r' :=
      List.forall_mem_append.mpr ⟨hmark, by simp⟩
    have hall : '\n' ∉ mark ++ [' '] ++ p := by
      intro hmem
      rcases List.mem_append.mp hmem with hmem | hmem
      · exact (hlead _ hmem).1 rfl
      · exact hp hmem
    have htext : mark ++ ' ' :: p ++ ['\n'] ++ rest = mark ++ [' '] ++ p ++ '\n' :: rest := by
      simp
    have hbegins : mark <+: mark ++ [' '] ++ (codeLines p).headD [] := by
      rw [List.append_assoc]
      exact List.prefix_append _ _
    rw [htext, IsMarked, codeLines_append_feed hall, if_neg (by simp),
      codeLines_append (by simp) hlead, List.forall_mem_append, List.forall_mem_cons]
    exact ⟨fun h ↦ ⟨fun _ ↦ h.1.2, h.2⟩, fun h ↦ ⟨⟨hbegins, h.1 hblank⟩, h.2⟩⟩

theorem isMarked_lines_iff (text : List Char) :
    IsMarked (indent ++ marker) (lines indent marker text) ↔
      KeepsMark (indent ++ marker) text := by
  have hparts (ps : List (List Char)) (hps : ∀ p ∈ ps, '\n' ∉ p) :
      IsMarked (indent ++ marker) (ps.flatMap (line indent marker)) ↔
        ∀ p ∈ ps, ¬allBlank p → ∀ line ∈ (codeLines p).tail, indent ++ marker <+: line := by
    induction ps with
    | nil => simp [IsMarked, codeLines]
    | cons p ps ih =>
      obtain ⟨hp, hps⟩ := List.forall_mem_cons.mp hps
      rw [List.flatMap_cons, isMarked_line_append_iff hmark hp, ih hps, List.forall_mem_cons]
  exact hparts _ fun p ↦ notMem_of_mem_paragraphs

end Mark

theorem endsLine_of_isWholeLines {code : List Char} (h : Template.isWholeLines code = true) :
    EndsLine code := by
  intro c hc
  rw [Template.isWholeLines, Option.mem_def.mp hc] at h
  simpa using h

/-- The comments of a language with line comments are whole lines. All of them begin with the
indentation and the marker of a comment exactly if no carriage return in the text sets off a line
that does not. -/
theorem docComment_isMarked_iff {l : Language} {marker : String}
    (hl : l.dialect.comment = .lines marker) {indent : List Char}
    (hindent : ∀ c ∈ indent, c ≠ '\n' ∧ c ≠ '\r') (text : List Char) :
    EndsLine (l.dialect.docComment indent text) ∧
      (IsMarked (indent ++ marker.toList) (l.dialect.docComment indent text) ↔
        KeepsMark (indent ++ marker.toList) text) ∧
      (l.dialect.deprecation = .comment → EndsLine (l.dialect.deprecated indent text) ∧
        (IsMarked (indent ++ marker.toList) (l.dialect.deprecated indent text) ↔
          KeepsMark (indent ++ marker.toList) ("@deprecated: ".toList ++ text))) := by
  have hmarker : ∀ c ∈ marker.toList, c ≠ '\n' ∧ c ≠ '\r' := by
    cases l <;> cases hl <;> simp
  have hmark : ∀ c ∈ indent ++ marker.toList, c ≠ '\n' ∧ c ≠ '\r' :=
    List.forall_mem_append.mpr ⟨hindent, hmarker⟩
  refine ⟨?_, ?_, fun hdeprecated ↦ ⟨?_, ?_⟩⟩
  · exact endsLine_of_isWholeLines (l.dialect.isWholeLines_docComment indent text)
  · rw [Dialect.docComment, hl]
    exact isMarked_lines_iff hmark text
  · exact endsLine_of_isWholeLines (l.dialect.isWholeLines_deprecated indent text)
  · rw [Dialect.deprecated, hl, hdeprecated]
    exact isMarked_lines_iff hmark _

/-- Carriage returns before line feeds, and one that a blank line holds, set off no line. -/
theorem docComment_isMarked_table :
    Language.gdScript.dialect.comment = .lines "##" ∧ (∀ c ∈ ['\t'], c ≠ '\n' ∧ c ≠ '\r') ∧
      IsMarked "\t##".toList (Language.gdScript.dialect.docComment ['\t'] "a\r\n \r \nb".toList) ∧
      IsMarked "\t##".toList
        (Language.gdScript.dialect.deprecated ['\t'] "a\r\n \r \nb".toList) := by
  have hindent : ∀ c ∈ ['\t'], c ≠ '\n' ∧ c ≠ '\r' := by simp
  obtain ⟨-, hdoc, hdeprecated⟩ :=
    docComment_isMarked_iff (l := .gdScript) rfl hindent "a\r\n \r \nb".toList
  exact ⟨rfl, hindent, hdoc.mpr (by decide), (hdeprecated rfl).2.mpr (by decide)⟩

/-- What follows a carriage return alone stands outside the comment. -/
theorem not_isMarked_return :
    ¬∀ (l : Language) (marker : String), l.dialect.comment = .lines marker →
      ∀ indent text : List Char, (∀ c ∈ indent, c ≠ '\n' ∧ c ≠ '\r') →
        (EndsLine (l.dialect.docComment indent text) ∧
          IsMarked (indent ++ marker.toList) (l.dialect.docComment indent text)) ∧
        (l.dialect.deprecation = .comment → EndsLine (l.dialect.deprecated indent text) ∧
          IsMarked (indent ++ marker.toList) (l.dialect.deprecated indent text)) := by
  intro h
  have hmarked := (h .dart "///" rfl [] ['a', '\r', 'b'] (List.forall_mem_nil _)).1.2
  exact absurd hmarked (by decide)

end SchemaBindings.Comment
