import SchemaBindings.Proofs.Naming.Identifiers
import SchemaBindings.Proofs.Sdl.Layout
import SchemaBindings.Proofs.Sdl.Scanning
import SchemaBindings.Proofs.Sdl.Sentence

namespace SchemaBindings.Sdl

open Text Naming

/-- The characters of a text that separate nothing. A comment goes on to the end of its line. -/
def significant (inComment : Bool) : List Char → List Char
  | [] => []
  | c :: cs =>
    if isLineEnd c then significant false cs
    else if inComment then significant true cs
    else if c == '#' then significant true cs
    else if isSeparator c then significant false cs
    else c :: significant false cs

def IsSolid (cs : List Char) : Prop :=
  ∀ c ∈ cs, isSeparator c = false ∧ c ≠ '#'

theorem significant_append_of_isSolid {cs : List Char} (h : IsSolid cs) (rest : List Char) :
    significant false (cs ++ rest) = cs ++ significant false rest := by
  induction cs with
  | nil => rfl
  | cons c cs ih =>
    obtain ⟨⟨hsep, hcomment⟩, hcs⟩ := List.forall_mem_cons.mp h
    have hline : isLineEnd c = false := by
      simp only [isSeparator, Bool.or_eq_false_iff] at hsep
      exact hsep.1.1.2
    simp [significant, hsep, hcomment, hline, ih hcs]

theorem significant_comment {body rest : List Char} (h : ∀ c ∈ body, isLineEnd c = false)
    (hrest : ∀ c ∈ rest.head?, isLineEnd c = true) :
    significant true (body ++ rest) = significant false rest := by
  induction body with
  | nil =>
    cases rest with
    | nil => rfl
    | cons c rest => simp [significant, hrest c rfl]
  | cons c body ih =>
    obtain ⟨hc, hbody⟩ := List.forall_mem_cons.mp h
    simp [significant, hc, ih hbody]

theorem significant_gap {gap text rest : List Char} (h : Separates gap (text ++ rest))
    (hne : text ≠ []) : significant false (gap ++ text) = significant false text := by
  generalize hall : text ++ rest = all at h
  induction h with
  | nil => rfl
  | @separator c gap _ hc _ ih =>
    rw [List.cons_append, ← ih hall]
    simp only [List.mem_cons, List.not_mem_nil, or_false] at hc
    rcases hc with rfl | rfl | rfl | rfl | rfl | rfl <;> rfl
  | @comment body gap _ hbody hend _ ih =>
    subst hall
    rw [← ih rfl, List.cons_append, List.append_assoc]
    refine significant_comment (by simpa [isLineEnd] using hbody) fun c hc ↦ ?_
    have hhead : c ∈ (gap ++ (text ++ rest)).head? := by
      rwa [← List.append_assoc, List.head?_append_of_ne_nil]
      simp [hne]
    simpa [isLineEnd] using hend c hhead

section Tokens

open Sentence

variable {pre cs : List Char} {ts : List Token} {stop : Nat}

theorem LaidOut.drop {before : List Token} (h : LaidOut pre cs (before ++ ts) stop)
    (hne : ts ≠ []) :
    ∃ front rest, cs = front ++ rest ∧ LaidOut (pre ++ front) rest ts stop := by
  induction before generalizing pre cs with
  | nil => exact ⟨[], cs, rfl, by simpa using h⟩
  | cons t before ih =>
    generalize hall : t :: before ++ ts = all at h
    cases h with
    | done => cases hall
    | @token _ gap rest _ _ _ _ _ _ _ _ hlaid =>
      obtain ⟨rfl, rfl⟩ := List.cons.inj hall
      obtain ⟨front, back, rfl, hdropped⟩ := ih hlaid
      exact ⟨gap ++ (t.text ++ front), back, by simp, by simpa using hdropped⟩
    | cut =>
      obtain ⟨-, hnil⟩ := List.cons.inj hall
      exact absurd (List.append_eq_nil_iff.mp hnil).2 hne

theorem covered_cons_cons (t u : Token) (us : List Token) :
    covered (t :: u :: us) = ⟨t.span.start, (covered (u :: us)).stop⟩ := by
  simp [covered, List.getLast?_cons]

/-- What solid tokens cover, from the first to the last, consists of their texts and of what
separates them. -/
theorem LaidOut.exists_slice {t : Token} {after : List Token}
    (h : LaidOut pre cs (t :: ts ++ after) stop)
    (hts : ∀ u ∈ t :: ts, u.kind ≠ .cutEscape ∧ IsSolid u.text) :
    ∃ gap slice rest, cs = gap ++ (slice ++ rest) ∧ Separates gap (slice ++ rest) ∧ slice ≠ [] ∧
      covered (t :: ts) = ⟨byteLength (pre ++ gap), byteLength (pre ++ gap ++ slice)⟩ ∧
      significant false slice = (t :: ts).flatMap (·.text) := by
  induction ts generalizing pre cs t with
  | nil =>
    obtain ⟨hcut, hsolid⟩ := hts t (by simp)
    cases h with
    | @token _ gap rest _ _ _ hgap hne _ _ hspan _ =>
      refine ⟨gap, t.text, rest, rfl, hgap, hne, by simp [covered, hspan], ?_⟩
      have htext := significant_append_of_isSolid hsolid []
      simpa [significant] using htext
    | cut => exact absurd (kind_of _ _ _) hcut
  | cons u ts ih =>
    obtain ⟨⟨-, hsolid⟩, hrest⟩ := List.forall_mem_cons.mp hts
    cases h with
    | @token _ gap rest _ _ _ hgap hne _ _ hspan h =>
      obtain ⟨gap', slice, rest, rfl, hgap', hslice, hcovered, htext⟩ := ih h hrest
      refine ⟨gap, t.text ++ (gap' ++ slice), rest, by simp, by simpa using hgap, by simp [hne],
        ?_, ?_⟩
      · rw [covered_cons_cons, hcovered, hspan]
        simp
      · rw [significant_append_of_isSolid hsolid, significant_gap hgap' hslice, htext]
        rfl

theorem exists_slice_of_infix {text : List Char} (h : ts <:+: tokens text) (hne : ts ≠ [])
    (hts : ∀ t ∈ ts, t.kind ≠ .cutEscape ∧ IsSolid t.text) :
    ∃ slice, sliceBytes? (covered ts).start (covered ts).stop text = some slice ∧
      significant false slice = ts.flatMap (·.text) := by
  obtain ⟨before, after, hall⟩ := h
  have hlaid := laidOut_tokens text
  rw [← hall, List.append_assoc] at hlaid
  obtain ⟨t, ts, rfl⟩ := List.exists_cons_of_ne_nil hne
  obtain ⟨front, rest, rfl, hlaid⟩ := hlaid.drop (by simp)
  obtain ⟨gap, slice, rest, rfl, -, -, hcovered, htext⟩ := hlaid.exists_slice hts
  refine ⟨slice, ?_, htext⟩
  have hslice := sliceBytes?_append (front ++ gap) slice rest
  rw [hcovered, List.nil_append]
  simpa [Nat.add_assoc] using hslice

end Tokens

section Names

theorem kind_scanString (cs : List Char) :
    (scanString cs).kind ∈ [some .invalid, some .cutEscape, some .string] := by
  fun_induction scanString cs with
  | case1 => simp
  | case2 => simp
  | case3 c cs found ih => exact ih
  | case4 => simp
  | case5 => simp
  | case6 c cs _ _ _ _ found ih => exact ih

theorem scan_eq_scanName {c : Char} {cs : List Char} {k : TokenKind}
    (h : (scan c cs).kind = some k) (hk : k.isName) :
    isNameStart c = true ∧ scan c cs = scanName c cs := by
  by_cases hsep : isSeparator c
  · simp [scan, hsep] at h
  by_cases hcomment : c == '#'
  · simp [scan, hsep, hcomment] at h
  by_cases hquote : c == '"'
  · simp only [scan, hsep, hcomment, hquote, Bool.false_eq_true, if_false, if_true] at h
    split at h
    next rest =>
      rcases kind_scanBlockString rest with hblock | hblock
      all_goals
        cases hblock.symm.trans h
        cases hk
    next =>
      have hstring := kind_scanString cs
      simp only [h, List.mem_cons, Option.some.injEq, List.not_mem_nil, or_false] at hstring
      rcases hstring with rfl | rfl | rfl <;> cases hk
  by_cases hnumber : c == '-' || c.isDigit
  · simp only [scan, hsep, hcomment, hquote, hnumber, Bool.false_eq_true, if_false, if_true] at h
    unfold scanNumber at h
    simp only at h
    repeat' split at h
    all_goals
      cases h
      cases hk
  by_cases hname : isNameStart c
  · exact ⟨hname, by simp [scan, hsep, hcomment, hquote, hnumber, hname]⟩
  simp only [scan, hsep, hcomment, hquote, hnumber, hname, Bool.false_eq_true, if_false] at h
  repeat' split at h
  all_goals
    cases h
    cases hk

theorem isIdentifier_of_mem_tokens {text : List Char} {t : Token} (ht : t ∈ tokens text)
    (hk : t.kind.isName) : IsIdentifier t.text := by
  obtain ⟨pre, c, rest, kind, -, hscan, rfl⟩ := exists_scan_of_mem_tokensFrom ht
  rw [kind_of] at hk
  have hcut : kind ≠ .cutEscape := by
    rintro rfl
    cases hk
  obtain ⟨hstart, hsame⟩ := scan_eq_scanName hscan hk
  rw [text_of hcut, hsame, more_scanName, take_countWhile]
  refine ⟨hstart, List.forall_mem_cons.mpr ⟨isNameChar_of_isNameStart hstart, ?_⟩⟩
  exact List.all_eq_true.mp List.all_takeWhile

end Names

end SchemaBindings.Sdl
