import SchemaBindings.Proofs.Sdl.Comments
import SchemaBindings.Proofs.Source.Openings
import Mathlib.Data.List.Chain

namespace SchemaBindings.Sdl

open Text

/-- What may stand before `rest` and belong to no token. A comment goes on to the end of its
line. -/
inductive Separates : (gap rest : List Char) → Prop
  | nil {rest : List Char} : Separates [] rest
  | separator {c : Char} {gap rest : List Char} :
      c ∈ [' ', '\t', '\r', '\n', ',', '\ufeff'] → Separates gap rest → Separates (c :: gap) rest
  | comment {body gap rest : List Char} :
      (∀ c ∈ body, c ≠ '\n' ∧ c ≠ '\r') → (∀ c ∈ (gap ++ rest).head?, c = '\n' ∨ c = '\r') →
      Separates gap rest → Separates ('#' :: (body ++ gap)) rest

/-- The characters behind the opening quote of a string leave it open. A backslash takes the next
character with it. -/
inductive StaysOpen : List Char → Prop
  | nil : StaysOpen []
  | escape {c : Char} {cs : List Char} : StaysOpen cs → StaysOpen ('\\' :: c :: cs)
  | char {c : Char} {cs : List Char} :
      c ∉ ['\\', '"', '\n', '\r'] → StaysOpen cs → StaysOpen (c :: cs)

/-- The text ends inside a string that a quote opens, directly after a backslash. -/
def EndsAfterBackslash (text : List Char) : Prop :=
  ∃ front body, text = front ++ '"' :: (body ++ ['\\']) ∧ StaysOpen body ∧
    ∃ t ∈ tokens text, t.span.start = byteLength front

/-- The bytes between two spans, if there are any, are a part of the text that separates tokens. -/
def Apart (text : List Char) (a b : Span) : Prop :=
  a.stop = b.start ∨ ∃ before gap after, text = before ++ (gap ++ after) ∧
    byteLength before = a.stop ∧ byteLength (before ++ gap) = b.start ∧ Separates gap after

theorem Apart.of_stop_eq {text : List Char} {a a' b : Span} (h : Apart text a b)
    (hstop : a.stop = a'.stop) : Apart text a' b := by
  unfold Apart at h ⊢
  rwa [← hstop]

section OpenStrings

theorem exists_body_of_scanString_cut {cs : List Char}
    (h : (scanString cs).kind = some .cutEscape) :
    (scanString cs).more = cs.length ∧ ∃ body, cs = body ++ ['\\'] ∧ StaysOpen body := by
  fun_induction scanString cs with
  | case1 => cases h
  | case2 => exact ⟨rfl, [], rfl, .nil⟩
  | case3 c cs found ih =>
    obtain ⟨hmore, body, rfl, hbody⟩ := ih h
    exact ⟨by simp [found, hmore], '\\' :: c :: body, rfl, hbody.escape⟩
  | case4 => cases h
  | case5 => cases h
  | case6 c cs hend hescape hquote hline found ih =>
    obtain ⟨hmore, body, rfl, hbody⟩ := ih h
    have hc : c ≠ '\\' := fun he ↦ by
      cases body with
      | nil => exact hescape _ _ he rfl
      | cons d body => exact hescape _ _ he rfl
    refine ⟨by simp [found, hmore], c :: body, rfl, hbody.char ?_⟩
    simp_all [isLineEnd]

theorem scanString_append_of_staysOpen {body : List Char} (h : StaysOpen body) (rest : List Char) :
    scanString (body ++ rest) = ⟨(scanString rest).kind, (scanString rest).more + body.length⟩ := by
  induction h with
  | nil => rfl
  | escape _ ih =>
    rw [List.cons_append, List.cons_append, scanString, ih]
    rfl
  | char hc _ ih =>
    simp only [List.mem_cons, List.not_mem_nil, or_false, not_or] at hc
    obtain ⟨hback, hquote, hline, hreturn⟩ := hc
    rw [List.cons_append, scanString_cons hback, ih]
    simp [isLineEnd, hquote, hline, hreturn, Nat.add_assoc]

theorem scanString_of_staysOpen {body : List Char} (h : StaysOpen body) :
    scanString (body ++ ['\\']) = ⟨some .cutEscape, body.length + 1⟩ := by
  rw [scanString_append_of_staysOpen h, scanString, Nat.add_comm]

theorem kind_scanBlockString (cs : List Char) :
    (scanBlockString cs).kind = some .invalid ∨ (scanBlockString cs).kind = some .blockString := by
  fun_induction scanBlockString cs with
  | case1 => exact .inl rfl
  | case2 => exact .inr rfl
  | case3 cs rest ih => exact ih
  | case4 c cs _ _ rest ih => exact ih

theorem scan_eq_scanString {c : Char} {cs : List Char} {k : TokenKind}
    (h : (scan c cs).kind = some k) (hk : k = .string ∨ k = .cutEscape) :
    c = '"' ∧ scan c cs = scanString cs := by
  by_cases hsep : isSeparator c
  · simp [scan, hsep] at h
  by_cases hcomment : c == '#'
  · simp [scan, hsep, hcomment] at h
  by_cases hquote : c == '"'
  · simp only [scan, hsep, hcomment, hquote, Bool.false_eq_true, if_false, if_true] at h ⊢
    refine ⟨beq_iff_eq.mp hquote, ?_⟩
    split at h
    next rest =>
      rcases kind_scanBlockString rest with hblock | hblock
      all_goals rcases hk with rfl | rfl <;> cases hblock.symm.trans h
    next => rfl
  by_cases hnumber : c == '-' || c.isDigit
  · simp only [scan, hsep, hcomment, hquote, hnumber, Bool.false_eq_true, if_false, if_true] at h
    unfold scanNumber at h
    simp only at h
    repeat' split at h
    all_goals rcases hk with rfl | rfl <;> cases h
  by_cases hname : isNameStart c
  · simp only [scan, hsep, hcomment, hquote, hnumber, hname, Bool.false_eq_true, if_false,
      if_true] at h
    unfold scanName at h
    simp only at h
    split at h <;> rcases hk with rfl | rfl <;> cases h
  simp only [scan, hsep, hcomment, hquote, hnumber, hname, Bool.false_eq_true, if_false] at h
  repeat' split at h
  all_goals rcases hk with rfl | rfl <;> cases h

theorem scan_eq_scanString_of_not_opens {cs : List Char} (h : ¬ ['"', '"'] <+: cs) :
    scan '"' cs = scanString cs := by
  have hsep : ¬ isSeparator '"' := by decide
  have hcomment : ¬ '"' == '#' := by decide
  have hquote : '"' == '"' := by decide
  simp only [scan, hsep, hcomment, hquote, Bool.false_eq_true, if_false, if_true]
  split
  next rest => exact absurd ⟨rest, rfl⟩ h
  next => rfl

theorem scan_quote {c : Char} (hc : c ≠ '"') (cs : List Char) :
    scan '"' (c :: cs) = scanString (c :: cs) :=
  scan_eq_scanString_of_not_opens fun h ↦ hc (List.cons_prefix_cons.mp h).1.symm

theorem scan_append_of_staysOpen {body : List Char} (h : StaysOpen body) {c : Char} (hc : c ≠ '"')
    (rest : List Char) : scan '"' (body ++ c :: rest) = scanString (body ++ c :: rest) := by
  cases h with
  | nil => exact scan_quote hc rest
  | escape => rfl
  | char hd _ => exact scan_quote (fun he ↦ hd (by simp [he])) _

theorem scan_of_staysOpen {body : List Char} (h : StaysOpen body) :
    scan '"' (body ++ ['\\']) = ⟨some .cutEscape, body.length + 1⟩ := by
  rw [← scanString_of_staysOpen h]
  exact scan_append_of_staysOpen h (by decide) []

end OpenStrings

section Tiling

/-- The tokens of `cs`, which follows `pre` in a text, up to the place at which the reading
stops. -/
inductive LaidOut : (pre cs : List Char) → List Token → (stop : Nat) → Prop
  | done {pre gap : List Char} : Separates gap [] → LaidOut pre gap [] (byteLength (pre ++ gap))
  | token {pre gap rest : List Char} {t : Token} {ts : List Token} {stop : Nat} :
      Separates gap (t.text ++ rest) → t.text ≠ [] → t.kind ≠ .endOfInput → t.kind ≠ .cutEscape →
      t.span = ⟨byteLength (pre ++ gap), byteLength (pre ++ gap ++ t.text)⟩ →
      LaidOut (pre ++ gap ++ t.text) rest ts stop →
      LaidOut pre (gap ++ (t.text ++ rest)) (t :: ts) stop
  | cut {pre gap body : List Char} :
      Separates gap ('"' :: (body ++ ['\\'])) → StaysOpen body →
      LaidOut pre (gap ++ '"' :: (body ++ ['\\']))
        [.of .cutEscape (byteLength (pre ++ gap)) ('"' :: (body ++ ['\\']))]
        (byteLength (pre ++ (gap ++ '"' :: (body ++ ['\\']))) + 1)

variable {pre cs : List Char} {ts : List Token} {stop : Nat}

theorem LaidOut.separator {c : Char} (hc : c ∈ [' ', '\t', '\r', '\n', ',', '\ufeff'])
    (h : LaidOut (pre ++ [c]) cs ts stop) : LaidOut pre (c :: cs) ts stop := by
  have hpre (gap : List Char) : pre ++ [c] ++ gap = pre ++ c :: gap := List.append_cons .. |>.symm
  cases h with
  | done hgap => exact hpre cs ▸ .done (hgap.separator hc)
  | token hgap hne hend hcut hspan hrest =>
    rw [hpre] at hspan hrest
    exact .token (hgap.separator hc) hne hend hcut hspan hrest
  | cut hgap hbody =>
    rw [hpre, hpre]
    exact .cut (hgap.separator hc) hbody

theorem LaidOut.comment {body : List Char} (hbody : ∀ c ∈ body, c ≠ '\n' ∧ c ≠ '\r')
    (hend : ∀ c ∈ cs.head?, c = '\n' ∨ c = '\r') (h : LaidOut (pre ++ '#' :: body) cs ts stop) :
    LaidOut pre ('#' :: (body ++ cs)) ts stop := by
  have hpre (gap : List Char) : pre ++ '#' :: body ++ gap = pre ++ '#' :: (body ++ gap) := by simp
  cases h with
  | done hgap => exact hpre cs ▸ .done (hgap.comment hbody (by simpa using hend))
  | @token _ gap rest t ts _ hgap hne hkind hcut hspan hrest =>
    rw [hpre] at hspan hrest
    have hall := LaidOut.token (hgap.comment hbody hend) hne hkind hcut hspan hrest
    simpa using hall
  | @cut _ gap tail hgap hopen =>
    rw [hpre, hpre]
    have hall : LaidOut pre ('#' :: (body ++ gap) ++ '"' :: (tail ++ ['\\'])) _ _ :=
      .cut (hgap.comment hbody hend) hopen
    simpa using hall

theorem span_of {kind : TokenKind} (h : kind ≠ .cutEscape) (offset : Nat) (text : List Char) :
    (Token.of kind offset text).span = ⟨offset, offset + byteLength text⟩ := by
  unfold Token.of
  split
  · exact absurd rfl h
  · rfl

theorem LaidOut.of_token {kind : TokenKind} {text rest : List Char} (hend : kind ≠ .endOfInput)
    (hcut : kind ≠ .cutEscape) (hne : text ≠ []) (h : LaidOut (pre ++ text) rest ts stop) :
    LaidOut pre (text ++ rest) (.of kind (byteLength pre) text :: ts) stop := by
  have htext := text_of hcut (byteLength pre) text
  have hspan := span_of hcut (byteLength pre) text
  rw [← kind_of kind (byteLength pre) text] at hend hcut
  have hall : LaidOut pre ([] ++ ((Token.of kind (byteLength pre) text).text ++ rest))
      (.of kind (byteLength pre) text :: ts) stop :=
    .token .nil (by rwa [htext]) hend hcut (by simp [hspan, htext])
      (by rwa [htext, List.append_nil])
  rwa [htext] at hall

theorem tokensFrom_take {n : Nat} (h : n ≤ cs.length) (offset : Nat) :
    tokensFrom n offset cs = tokensFrom 0 (offset + byteLength (cs.take n)) (cs.drop n) := by
  have hlength := tokensFrom_length offset (cs.take n) (cs.drop n)
  rwa [List.length_take_of_le h, List.take_append_drop] at hlength

theorem exists_eq_line_append (cs : List Char) : ∃ body rest, cs = body ++ rest ∧
    (∀ c ∈ body, isLineEnd c = false) ∧ ∀ c ∈ rest.head?, isLineEnd c := by
  refine ⟨cs.takeWhile fun c ↦ !isLineEnd c, cs.dropWhile fun c ↦ !isLineEnd c,
    List.takeWhile_append_dropWhile.symm, fun c hc ↦ ?_, fun c hc ↦ ?_⟩
  · simpa using List.all_eq_true.mp List.all_takeWhile c hc
  · have hnot := List.head?_dropWhile_not (fun c ↦ !isLineEnd c) cs
    rw [Option.mem_def.mp hc] at hnot
    simpa using hnot

theorem mem_of_isSeparator {c : Char} (h : isSeparator c) :
    c ∈ [' ', '\t', '\r', '\n', ',', '\ufeff'] := by
  simp only [isSeparator, isLineEnd, Bool.or_eq_true, beq_iff_eq] at h
  rcases h with (((rfl | rfl) | rfl | rfl) | rfl) | rfl <;> decide

theorem exists_laidOut_step {c : Char}
    (h : ∀ pre, ∃ stop, LaidOut pre (cs.drop (scan c cs).more)
      (tokensFrom 0 (byteLength pre) (cs.drop (scan c cs).more)) stop) :
    ∃ stop, LaidOut pre (c :: cs) (tokensFrom 0 (byteLength pre) (c :: cs)) stop := by
  have hsplit := List.take_append_drop (scan c cs).more cs
  rw [tokensFrom, tokensFrom_take (more_scan_le c cs)]
  obtain ⟨stop, hstop⟩ := h (pre ++ c :: cs.take (scan c cs).more)
  have hoffset : byteLength pre + c.utf8Size + byteLength (cs.take (scan c cs).more) =
      byteLength (pre ++ c :: cs.take (scan c cs).more) := by
    rw [byteLength_append, byteLength_cons, Nat.add_assoc]
  rw [hoffset]
  cases hk : (scan c cs).kind with
  | none =>
    refine ⟨stop, ?_⟩
    obtain ⟨hsep, hmore⟩ | ⟨rfl, -⟩ := scan_kind_none hk
    · rw [hmore] at hstop ⊢
      exact LaidOut.separator (mem_of_isSeparator hsep) hstop
    · obtain ⟨body, rest, rfl, hbody, hrest⟩ := exists_eq_line_append cs
      rw [scan_comment hbody hrest, List.take_left, List.drop_left] at hstop ⊢
      exact LaidOut.comment (by simpa [isLineEnd] using hbody) (by simpa [isLineEnd] using hrest)
        hstop
  | some kind =>
    by_cases hcut : kind = .cutEscape
    · subst hcut
      obtain ⟨rfl, hscan⟩ := scan_eq_scanString hk (.inr rfl)
      rw [hscan] at hk
      obtain ⟨hmore, body, rfl, hbody⟩ := exists_body_of_scanString_cut hk
      rw [hscan, hmore, List.drop_length, List.take_length]
      have hall : LaidOut pre ([] ++ '"' :: (body ++ ['\\'])) _ _ := .cut .nil hbody
      rw [List.append_nil] at hall
      exact ⟨_, hall⟩
    · have hend : kind ≠ .endOfInput := by
        rcases kind_scan c cs kind hk with hplain | ⟨p, rfl, -⟩
        · exact hplain.1
        · simp
      have hall := LaidOut.of_token hend hcut (List.cons_ne_nil _ _) hstop
      rw [List.cons_append, hsplit] at hall
      exact ⟨stop, hall⟩

theorem exists_laidOut (pre cs : List Char) :
    ∃ stop, LaidOut pre cs (tokensFrom 0 (byteLength pre) cs) stop := by
  -- By induction on the length; one step takes at least one character.
  induction hn : cs.length using Nat.strong_induction_on generalizing pre cs with
  | _ n ih =>
    cases cs with
    | nil => exact ⟨_, .done .nil⟩
    | cons c cs =>
      refine exists_laidOut_step fun pre ↦ ih _ ?_ pre _ rfl
      rw [← hn, List.length_drop, List.length_cons]
      omega

theorem byteLength_pos {cs : List Char} (h : cs ≠ []) : 0 < byteLength cs := by
  obtain ⟨c, cs, rfl⟩ := List.exists_cons_of_ne_nil h
  have := c.utf8Size_pos
  rw [byteLength_cons]
  omega

theorem LaidOut.proper (h : LaidOut pre cs ts stop) :
    ∀ t ∈ ts, t.kind ≠ .endOfInput ∧ t.span.start < t.span.stop := by
  induction h with
  | done => simp
  | token _ hne hend _ hspan _ ih =>
    refine List.forall_mem_cons.mpr ⟨⟨hend, ?_⟩, ih⟩
    have := byteLength_pos hne
    rw [hspan, byteLength_append (_ ++ _)]
    simp only
    omega
  | cut =>
    refine List.forall_mem_singleton.mpr ⟨nofun, ?_⟩
    simp only [Token.of]
    omega

theorem LaidOut.within (h : LaidOut pre cs ts stop) :
    byteLength pre ≤ stop ∧ ∀ t ∈ ts, byteLength pre ≤ t.span.start ∧ t.span.stop ≤ stop := by
  induction h with
  | done => simp
  | token _ _ _ _ hspan _ ih =>
    obtain ⟨hstop, hts⟩ := ih
    simp only [byteLength_append] at hspan hstop hts
    refine ⟨by omega, List.forall_mem_cons.mpr ⟨?_, fun t ht ↦ ?_⟩⟩
    · rw [hspan]
      simp only
      omega
    · have := hts t ht
      omega
  | cut =>
    simp only [List.forall_mem_singleton, Token.of, byteLength_append]
    omega

theorem LaidOut.pairwise (h : LaidOut pre cs ts stop) :
    ts.Pairwise fun t u ↦ t.span.stop ≤ u.span.start := by
  induction h with
  | done => simp
  | token _ _ _ _ hspan hrest ih =>
    refine List.pairwise_cons.mpr ⟨fun u hu ↦ ?_, ih⟩
    rw [hspan]
    exact (hrest.within.2 u hu).1
  | cut => simp

theorem LaidOut.isChain (h : LaidOut pre cs ts stop) :
    List.IsChain (Apart (pre ++ cs))
      (.empty (byteLength pre) :: (ts.map (·.span) ++ [.empty stop])) := by
  induction h with
  | @done pre gap hgap =>
    refine List.isChain_pair.mpr (.inr ⟨pre, gap, [], by simp, rfl, rfl, hgap⟩)
  | @token pre gap rest t ts stop hgap _ _ _ hspan _ ih =>
    have htext : pre ++ gap ++ t.text ++ rest = pre ++ (gap ++ (t.text ++ rest)) := by simp
    rw [htext] at ih
    refine List.isChain_cons_cons.mpr ⟨.inr ⟨pre, gap, t.text ++ rest, rfl, rfl, ?_, hgap⟩, ?_⟩
    · simp only [hspan]
    · exact ih.imp_head fun hz ↦ hz.of_stop_eq (by simp only [hspan, Span.empty])
  | @cut pre gap body hgap _ =>
    refine List.isChain_cons_cons.mpr ⟨.inr ⟨pre, gap, _, rfl, rfl, ?_, hgap⟩,
      List.isChain_pair.mpr (.inl ?_)⟩
    · simp only [Token.of]
    · simp only [Token.of, Span.empty, byteLength_append]
      omega

theorem LaidOut.slice_eq (h : LaidOut pre cs ts stop) : ∀ t ∈ ts, t.kind ≠ .cutEscape →
    sliceBytes? t.span.start t.span.stop (pre ++ cs) = some t.text := by
  induction h with
  | done => simp
  | @token pre gap rest t ts stop _ _ _ _ hspan _ ih =>
    refine List.forall_mem_cons.mpr ⟨fun _ ↦ ?_, by simpa using ih⟩
    have hslice := sliceBytes?_append (pre ++ gap) t.text rest
    rw [hspan, byteLength_append (pre ++ gap)]
    simpa using hslice
  | cut => simp [Token.of]

theorem LaidOut.stop_eq (h : LaidOut pre cs ts stop) :
    (∀ t ∈ ts, t.kind ≠ .cutEscape) ∧ stop = byteLength (pre ++ cs) ∨
      ∃ before front body, pre ++ cs = front ++ '"' :: (body ++ ['\\']) ∧ StaysOpen body ∧
        ts = before ++ [.of .cutEscape (byteLength front) ('"' :: (body ++ ['\\']))] ∧
        (∀ t ∈ before, t.kind ≠ .cutEscape) ∧ stop = byteLength (pre ++ cs) + 1 := by
  induction h with
  | done => exact .inl ⟨by simp, rfl⟩
  | @token pre gap rest t ts stop _ _ _ hcut _ _ ih =>
    have htext : pre ++ gap ++ t.text ++ rest = pre ++ (gap ++ (t.text ++ rest)) := by simp
    rw [htext] at ih
    obtain ⟨hts, hstop⟩ | ⟨before, front, body, htext, hbody, rfl, hbefore, hstop⟩ := ih
    · exact .inl ⟨List.forall_mem_cons.mpr ⟨hcut, hts⟩, hstop⟩
    · exact .inr ⟨t :: before, front, body, htext, hbody, rfl,
        List.forall_mem_cons.mpr ⟨hcut, hbefore⟩, hstop⟩
  | @cut pre gap body hgap hbody =>
    exact .inr ⟨[], pre ++ gap, body, by simp, hbody, rfl, by simp, rfl⟩

end Tiling

section Exception

variable {text : List Char}

theorem eq_of_start_eq {front rest : List Char} {c : Char} {t : Token}
    (ht : t ∈ tokens (front ++ c :: rest)) (hstart : t.span.start = byteLength front) :
    ∃ kind, (scan c rest).kind = some kind ∧
      t = .of kind (byteLength front) (c :: rest.take (scan c rest).more) := by
  obtain ⟨p, d, q, kind, htext, hk, rfl⟩ := exists_scan_of_mem_tokensFrom ht
  rw [start_of, Nat.zero_add] at hstart
  obtain rfl : p = front := eq_of_byteLength_eq htext.symm hstart
  obtain ⟨rfl, rfl⟩ := List.cons.inj (List.append_cancel_left htext)
  exact ⟨kind, hk, by rw [Nat.zero_add]⟩

theorem endsInEscape_of_endsAfterBackslash (h : EndsAfterBackslash text) : endsInEscape text := by
  obtain ⟨front, body, rfl, hbody, t, ht, hstart⟩ := h
  obtain ⟨kind, hk, rfl⟩ := eq_of_start_eq ht hstart
  rw [scan_of_staysOpen hbody] at hk
  cases hk
  exact List.any_eq_true.mpr ⟨_, ht, by simp [kind_of]⟩

theorem tokens_of_endsInEscape (h : endsInEscape text) : EndsAfterBackslash text ∧
    ∃ before fault, tokens text = before ++ [fault] ∧ (∀ t ∈ before, t.kind ≠ .cutEscape) ∧
      fault.kind = .cutEscape ∧ fault.span.stop = byteLength text + 1 := by
  obtain ⟨t, ht, hk⟩ := List.any_eq_true.mp h
  obtain ⟨stop, hlaid⟩ : ∃ stop, LaidOut [] text (tokens text) stop := exists_laidOut [] text
  obtain ⟨hnone, -⟩ | ⟨before, front, body, htext, hbody, htokens, hbefore, -⟩ := hlaid.stop_eq
  · exact absurd (beq_iff_eq.mp hk) (hnone t ht)
  rw [List.nil_append] at htext
  have hfault : Token.of .cutEscape (byteLength front) ('"' :: (body ++ ['\\'])) ∈ tokens text :=
    htokens ▸ List.mem_append_right _ (List.mem_singleton_self _)
  refine ⟨⟨front, body, htext, hbody, _, hfault, rfl⟩, before, _, htokens, hbefore, rfl, ?_⟩
  rw [htext, byteLength_append]
  rfl

theorem endsInEscape_iff : endsInEscape text ↔ EndsAfterBackslash text :=
  ⟨fun h ↦ (tokens_of_endsInEscape h).1, endsInEscape_of_endsAfterBackslash⟩

/-- The reading stops at the end of the text or, behind an escape that is cut off, one byte
later. -/
theorem laidOut_tokens (text : List Char) : LaidOut [] text (tokens text) (endOffset text) := by
  obtain ⟨stop, h⟩ : ∃ stop, LaidOut [] text (tokens text) stop := exists_laidOut [] text
  suffices stop = endOffset text from this ▸ h
  rw [endOffset]
  obtain ⟨hnone, hstop⟩ | ⟨before, front, body, -, -, htokens, -, hstop⟩ := h.stop_eq
  · rwa [if_neg (by simpa [endsInEscape] using hnone)]
  · rwa [if_pos (by simp [endsInEscape, htokens, kind_of])]

/-- The offsets in a text of less than 4 GiB are numbers of 32 bits. -/
theorem lt_size_of_mem_tokenize (h : byteLength text + 1 < UInt32.size) {t : Token}
    (ht : t ∈ tokenize text) : t.span.start < UInt32.size ∧ t.span.stop < UInt32.size := by
  have hend : endOffset text ≤ byteLength text + 1 := by
    rw [endOffset]
    split <;> omega
  have hlt : endOffset text < UInt32.size := Nat.lt_of_le_of_lt hend h
  rcases List.mem_append.mp ht with ht | ht
  · have hstop := ((laidOut_tokens text).within.2 t ht).2
    have hstart := ((laidOut_tokens text).proper t ht).2
    omega
  · obtain rfl := List.mem_singleton.mp ht
    exact ⟨hlt, hlt⟩

theorem slice_of_mem_tokens {t : Token} (ht : t ∈ tokens text) (hk : t.kind ≠ .cutEscape) :
    sliceBytes? t.span.start t.span.stop text = some t.text :=
  (laidOut_tokens text).slice_eq t ht hk

theorem slice_of_mem_tokenize (h : ¬ EndsAfterBackslash text) {t : Token}
    (ht : t ∈ tokenize text) : sliceBytes? t.span.start t.span.stop text = some t.text := by
  rw [← endsInEscape_iff] at h
  rcases List.mem_append.mp ht with ht | ht
  · refine slice_of_mem_tokens ht fun hk ↦ h (List.any_eq_true.mpr ⟨t, ht, by simp [hk]⟩)
  · obtain rfl := List.mem_singleton.mp ht
    have hslice := sliceBytes?_append text [] []
    simpa [endOffset, h, Span.empty] using hslice

theorem slice_of_run {α : Type} (h : ¬ EndsAfterBackslash text) (p : Parser α) {c : Cursor}
    (hc : (p.run (.start (tokens text) (endOffset text))).2 = c) (hend : c.atEnd = false) :
    sliceBytes? c.span.start c.span.stop text = some c.text := by
  have hsuffix : c.upcoming <:+ tokens text :=
    (hc ▸ p.forward _).trans (Cursor.upcoming_skipFaults_suffix _ _)
  cases hts : c.upcoming with
  | nil => simp [Cursor.atEnd, hts] at hend
  | cons t ts =>
    rw [Cursor.span, Cursor.text, hts]
    have ht : t ∈ tokens text := hsuffix.subset (hts ▸ List.mem_cons_self)
    exact slice_of_mem_tokenize h (List.mem_append_left _ ht)

/-- The tokens of a text and the separators between them are the whole text. Every token can be cut
out of it, and the text can be read, unless a string is cut off directly after a backslash. -/
theorem tokenize_covers (text : List Char) :
    (∃ before, tokenize text = before ++ [⟨.endOfInput, .empty (endOffset text), []⟩] ∧
      ∀ t ∈ before, t.kind ≠ .endOfInput ∧ t.span.start < t.span.stop) ∧
    (tokenize text).Pairwise (fun t u ↦ t.span.stop ≤ u.span.start) ∧
    List.IsChain (Apart text) (.empty 0 :: (tokenize text).map (·.span)) ∧
    (¬ EndsAfterBackslash text →
      (∀ t ∈ tokenize text, sliceBytes? t.span.start t.span.stop text = some t.text) ∧
      (∀ (α : Type) (p : Parser α) (c : Cursor),
        (p.run (.start (tokens text) (endOffset text))).2 = c → c.atEnd = false →
          sliceBytes? c.span.start c.span.stop text = some c.text) ∧
      ∃ parsed, Document.parse? text = some parsed) ∧
    (EndsAfterBackslash text → ∃ before fault,
      tokenize text = before ++ [fault, ⟨.endOfInput, .empty (byteLength text + 1), []⟩] ∧
      (∀ t ∈ before, sliceBytes? t.span.start t.span.stop text = some t.text) ∧
      fault.kind.isFault ∧ fault.span.stop = byteLength text + 1 ∧
      Document.parse? text = none) := by
  have hlaid := laidOut_tokens text
  refine ⟨⟨tokens text, rfl, hlaid.proper⟩, ?_, ?_, fun h ↦ ?_, fun h ↦ ?_⟩
  · refine List.pairwise_append.mpr ⟨hlaid.pairwise, List.pairwise_singleton _ _, ?_⟩
    intro t ht u hu
    obtain rfl := List.mem_singleton.mp hu
    exact (hlaid.within.2 t ht).2
  · simpa [tokenize] using hlaid.isChain
  · refine ⟨fun t ↦ slice_of_mem_tokenize h, fun α p c ↦ slice_of_run h p, ?_⟩
    rw [← endsInEscape_iff] at h
    exact ⟨_, if_neg h⟩
  · rw [← endsInEscape_iff] at h
    obtain ⟨-, before, fault, htokens, hbefore, hk, hstop⟩ := tokens_of_endsInEscape h
    refine ⟨before, fault, ?_, fun t ht ↦ ?_, by rw [hk]; rfl, hstop, if_pos h⟩
    · simp [tokenize, htokens, endOffset, h]
    · exact slice_of_mem_tokens (htokens ▸ List.mem_append_left _ ht) (hbefore t ht)

/-- A quote alone can be read, one before a last backslash cannot. -/
theorem tokenize_covers_quote :
    (¬ EndsAfterBackslash ['"'] ∧ ∃ parsed, Document.parse? ['"'] = some parsed) ∧
    EndsAfterBackslash ['é', '"', '\\'] ∧ ∃ before fault,
      tokenize ['é', '"', '\\'] = before ++ [fault, ⟨.endOfInput, .empty 5, []⟩] ∧
      (∀ t ∈ before, sliceBytes? t.span.start t.span.stop ['é', '"', '\\'] = some t.text) ∧
      fault.kind.isFault ∧ fault.span.stop = 5 ∧ Document.parse? ['é', '"', '\\'] = none := by
  have hopen : ¬ EndsAfterBackslash ['"'] := by
    rw [← endsInEscape_iff]
    decide
  have hcut : EndsAfterBackslash ['é', '"', '\\'] := by
    rw [← endsInEscape_iff]
    decide
  exact ⟨⟨hopen, ((tokenize_covers ['"']).2.2.2.1 hopen).2.2⟩, hcut,
    (tokenize_covers ['é', '"', '\\']).2.2.2.2 hcut⟩

end Exception

end SchemaBindings.Sdl
