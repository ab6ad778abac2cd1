import SchemaBindings.Proofs.Sdl.Layout
import SchemaBindings.Proofs.Sdl.Parsing
import SchemaBindings.Proofs.Sdl.Steps

namespace SchemaBindings.Sdl

structure Reports (d : Diagnostic) (t : Token) : Prop where
  spans : d.labels.map (·.span) = [t.span]
  code : d.code = .unterminatedString ↔ t.text.head? = some '"'
  title : d.code ≠ .unterminatedString → d.title = "invalid token"

theorem reports_faultDiagnostic (t : Token) : Reports t.faultDiagnostic t := by
  by_cases hquote : t.text.head? = some '"'
  · rw [Token.faultDiagnostic, if_pos hquote]
    exact ⟨rfl, iff_of_true rfl hquote, fun h ↦ absurd rfl h⟩
  · rw [Token.faultDiagnostic, if_neg hquote]
    exact ⟨rfl, iff_of_false nofun hquote, fun _ ↦ rfl⟩

theorem isLexical_faultDiagnostic (t : Token) : t.faultDiagnostic.isLexical := by
  have h := reports_faultDiagnostic t
  by_cases hcode : t.faultDiagnostic.code = .unterminatedString
  · simp [Diagnostic.isLexical, hcode]
  · simp [Diagnostic.isLexical, h.title hcode]

def lexicalFaults (ts : List Token) : List Diagnostic :=
  (ts.filter (·.kind.isFault)).map Token.faultDiagnostic

namespace Cursor

def reported (c : Cursor) : List Diagnostic :=
  c.diagnostics.toList.filter (·.isLexical)

/-- The lexical faults that are reported so far, and those behind the current token. -/
def allFaults (c : Cursor) : List Diagnostic :=
  c.reported ++ lexicalFaults c.upcoming.tail

theorem reported_report (c : Cursor) (d : Diagnostic) :
    (c.report d).reported = c.reported ++ [d].filter (·.isLexical) := by
  simp [reported, report]

theorem allFaults_skipFaults (c : Cursor) (ts : List Token) :
    (c.skipFaults ts).allFaults = c.reported ++ lexicalFaults ts := by
  induction ts generalizing c with
  | nil => rfl
  | cons t ts ih =>
    rw [skipFaults]
    split
    next hfault =>
      have hskipped : ({ c.report t.faultDiagnostic with consumedTo := t.span.stop } :
          Cursor).reported = c.reported ++ [t.faultDiagnostic] := by
        change (c.report t.faultDiagnostic).reported = _
        simp [reported_report, isLexical_faultDiagnostic]
      rw [ih, hskipped, List.append_assoc]
      simp [lexicalFaults, hfault]
    next hfault => simp [allFaults, reported, lexicalFaults, hfault]

theorem allFaults_advance (c : Cursor) : c.advance.allFaults = c.allFaults := by
  cases h : c.upcoming with
  | nil => simp [advance, h]
  | cons t ts =>
    simp only [advance, h, allFaults_skipFaults]
    simp [allFaults, reported, h]

theorem Step.allFaults_eq {c c' : Cursor} (h : c.Step c') : c'.allFaults = c.allFaults := by
  cases h with
  | advance => exact allFaults_advance c
  | report d hd =>
    simp only [allFaults, reported_report, List.filter_cons, hd, Bool.false_eq_true, if_false,
      List.filter_nil, List.append_nil]
    rfl

theorem Moves.allFaults_eq {c c' : Cursor} (h : c.Moves c') : c'.allFaults = c.allFaults := by
  induction h with
  | refl => rfl
  | tail _ hstep ih => exact hstep.allFaults_eq.trans ih

end Cursor

/-- Where the reading of a document ends, the faults of all tokens are reported. -/
theorem reported_document (ts : List Token) (stop : Nat) :
    (Grammar.document.run (.start ts stop)).2.reported = lexicalFaults ts := by
  have hmoves := Grammar.stepwise_document.moves (.start ts stop)
  calc (Grammar.document.run (.start ts stop)).2.reported
      = (Grammar.document.run (.start ts stop)).2.allFaults := by
        simp [Cursor.allFaults, upcoming_document, lexicalFaults]
    _ = (Cursor.start ts stop).allFaults := hmoves.allFaults_eq
    _ = lexicalFaults ts := Cursor.allFaults_skipFaults _ ts

/-- A text whose last string is not cut off behind a backslash can be read, and the diagnostics
about characters that form no token are, in order, one for each faulty token. -/
theorem forall₂_reports_parse? {text : List Char} (h : ¬EndsAfterBackslash text) :
    ∃ parsed, Document.parse? text = some parsed ∧
      List.Forall₂ Reports (parsed.diagnostics.filter (·.isLexical))
        ((tokenize text).filter (·.kind.isFault)) := by
  rw [← endsInEscape_iff] at h
  refine ⟨_, if_neg h, ?_⟩
  have hend : (tokenize text).filter (·.kind.isFault) = (tokens text).filter (·.kind.isFault) := by
    simp [tokenize, TokenKind.isFault]
  have hreported := reported_document (tokens text) (endOffset text)
  rw [Cursor.reported] at hreported
  rw [hend, hreported, lexicalFaults, List.forall₂_map_left_iff, List.forall₂_same]
  intro t _
  exact reports_faultDiagnostic t

/-- Faults before the first token, inside a field and at the end of the text. -/
theorem forall₂_reports_parse?_three :
    ∃ text, text = "% type A \x7b b: 1x \"oops".toList ∧ ¬EndsAfterBackslash text ∧
      ((tokenize text).filter (·.kind.isFault)).map (·.span) = [⟨0, 1⟩, ⟨14, 15⟩, ⟨17, 22⟩] ∧
      ∃ parsed, Document.parse? text = some parsed ∧
        List.Forall₂ Reports (parsed.diagnostics.filter (·.isLexical))
          ((tokenize text).filter (·.kind.isFault)) := by
  refine ⟨_, rfl, ?_⟩
  have h : ¬EndsAfterBackslash "% type A \x7b b: 1x \"oops".toList := by
    rw [← endsInEscape_iff]
    decide
  exact ⟨h, by decide, forall₂_reports_parse? h⟩

end SchemaBindings.Sdl
