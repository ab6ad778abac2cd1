import SchemaBindings.Proofs.Json.Scalars
import SchemaBindings.Proofs.Naming.Identifiers
import SchemaBindings.Proofs.Sdl.Joining
import SchemaBindings.Proofs.Sdl.Parsing
import SchemaBindings.Proofs.Sdl.Quoted
import SchemaBindings.Proofs.Sdl.Significant
import Mathlib.Data.List.TakeWhile

namespace SchemaBindings.Sdl

open Text Naming Sentence

variable {α β : Type}

/-- Nothing follows, or a mark that can stand behind a part of a value. -/
def Delimits (rest : List Char) : Prop :=
  ∀ c ∈ rest.head?, c ∈ [',', ':', ']', '\x7d']

theorem delimits_cons {c : Char} (h : c ∈ [',', ':', ']', '\x7d']) (rest : List Char) :
    Delimits (c :: rest) := by
  intro d hd
  obtain rfl := Option.some.inj hd
  exact h

theorem Delimits.cases {rest : List Char} (h : Delimits rest) :
    rest = [] ∨ ∃ d tail, rest = d :: tail ∧ EndsWord d ∧ d ≠ '"' := by
  cases rest with
  | nil => exact Or.inl rfl
  | cons d tail =>
    have hd := h d rfl
    simp only [List.mem_cons, List.not_mem_nil, or_false] at hd
    rcases hd with rfl | rfl | rfl | rfl
    all_goals exact Or.inr ⟨_, tail, rfl, ⟨by decide, by decide⟩, by decide⟩

/-- Wherever the text stands, if such a mark or nothing follows, its tokens are no faults and spell
a tree that has the property. -/
def StandsFor (text : List Char) (G : Phrase α) (P : α → Prop) : Prop :=
  ∀ offset rest, Delimits rest → ∃ ts a,
    tokensFrom 0 offset (text ++ rest) =
      ts ++ tokensFrom 0 (offset + byteLength text) rest ∧
      (∀ t ∈ ts, ¬ t.kind.isFault) ∧ G ts a ∧ P a

theorem not_isFault_punctuator (p : Punctuator) : ¬ (TokenKind.punctuator p).isFault :=
  nofun

theorem tokensFrom_punctuator {c : Char} {p : Punctuator} (h : Punctuator.ofChar? c = some p)
    (offset : Nat) (rest : List Char) : tokensFrom 0 offset (c :: rest) =
      ⟨.punctuator p, ⟨offset, offset + c.utf8Size⟩, [c]⟩ ::
        tokensFrom 0 (offset + c.utf8Size) rest := by
  unfold Punctuator.ofChar? at h
  split at h <;> cases h <;> rfl

section Combining

variable {G : Phrase α} {H : Phrase β} {P : α → Prop} {Q : β → Prop} {text text' : List Char}

theorem StandsFor.imp (h : StandsFor text G P)
    (himp : ∀ ts a, G ts a → P a → ∃ b, H ts b ∧ Q b) : StandsFor text H Q := by
  intro offset rest hrest
  obtain ⟨ts, a, htokens, hts, ha, hP⟩ := h offset rest hrest
  obtain ⟨b, hb, hQ⟩ := himp ts a ha hP
  exact ⟨ts, b, htokens, hts, hb, hQ⟩

theorem StandsFor.cons {Ps : List α → Prop} (h : StandsFor text G P)
    (h' : StandsFor text' (Many G) Ps) :
    StandsFor (text ++ [',', ' '] ++ text') (Many G)
      fun as ↦ ∃ a as', as = a :: as' ∧ P a ∧ Ps as' := by
  intro offset rest hrest
  obtain ⟨us, as, htokens', hus, has, hPs⟩ := h' (offset + byteLength text + 2) rest hrest
  obtain ⟨ts, a, htokens, hts, ha, hP⟩ := h offset (',' :: ' ' :: (text' ++ rest))
    (delimits_cons (by decide) _)
  refine ⟨ts ++ us, a :: as, ?_, List.forall_mem_append.mpr ⟨hts, hus⟩, .cons ha has, a, as, rfl,
    hP, hPs⟩
  have hskip : tokensFrom 0 (offset + byteLength text) (',' :: ' ' :: (text' ++ rest)) =
      tokensFrom 0 (offset + byteLength text + 2) (text' ++ rest) := rfl
  have hlength : byteLength [',', ' '] = 2 := rfl
  rw [hskip, htokens'] at htokens
  simp only [byteLength_append, hlength, ← Nat.add_assoc]
  simpa using htokens

theorem standsFor_intercalate {γ : Type} {f : γ → List Char} {R : γ → α → Prop} {xs : List γ}
    (h : ∀ x ∈ xs, StandsFor (f x) G (R x)) :
    StandsFor ([',', ' '].intercalate (xs.map f)) (Many G) (List.Forall₂ R xs) := by
  induction xs with
  | nil => exact fun offset rest _ ↦ ⟨[], [], by simp, nofun, .nil, .nil⟩
  | cons x xs ih =>
    obtain ⟨hx, hxs⟩ := List.forall_mem_cons.mp h
    cases xs with
    | nil =>
      have hsingle : [',', ' '].intercalate ([x].map f) = f x := by simp
      rw [hsingle]
      refine hx.imp fun ts a ha hR ↦ ⟨[a], ?_, .cons hR .nil⟩
      simpa using Many.cons ha .nil
    | cons y xs =>
      have hcons := hx.cons (ih hxs)
      rw [List.map_cons, List.map_cons, List.intercalate_cons_cons]
      refine StandsFor.imp (by simpa using hcons) fun ts as has hall ↦ ⟨as, has, ?_⟩
      obtain ⟨a, as, rfl, hR, hRs⟩ := hall
      exact .cons hR hRs

theorem StandsFor.bracketed {o c : Char} {opening closing : Punctuator} {Ps : List α → Prop}
    (ho : Punctuator.ofChar? o = some opening) (hc : Punctuator.ofChar? c = some closing)
    (hmark : c ∈ [',', ':', ']', '\x7d']) (h : StandsFor text (Many G) Ps) :
    StandsFor (o :: text ++ [c]) (Bracketed opening closing G) Ps := by
  intro offset rest hrest
  obtain ⟨ts, as, htokens, hts, has, hPs⟩ := h (offset + o.utf8Size) (c :: rest)
    (delimits_cons hmark rest)
  let first : Token := ⟨.punctuator opening, ⟨offset, offset + o.utf8Size⟩, [o]⟩
  let stop := offset + o.utf8Size + byteLength text
  let last : Token := ⟨.punctuator closing, ⟨stop, stop + c.utf8Size⟩, [c]⟩
  refine ⟨[first] ++ ts ++ [last], as, ?_, ?_, .mk rfl has rfl, hPs⟩
  · rw [tokensFrom_punctuator hc] at htokens
    simp [tokensFrom_punctuator ho, htokens, first, last, stop, Nat.add_assoc]
  · simp only [List.forall_mem_append, List.forall_mem_singleton]
    exact ⟨⟨not_isFault_punctuator opening, hts⟩, not_isFault_punctuator closing⟩

end Combining

section Tokens

variable {G : Phrase α} {P : α → Prop} {c : Char} {cs : List Char} {kind : TokenKind}

theorem standsFor_token
    (hscan : ∀ rest, Delimits rest → scan c (cs ++ rest) = ⟨some kind, cs.length⟩)
    (hkind : ¬ kind.isFault) (hG : ∀ span, ∃ a, G [⟨kind, span, c :: cs⟩] a ∧ P a) :
    StandsFor (c :: cs) G P := by
  intro offset rest hrest
  obtain ⟨a, ha, hP⟩ := hG ⟨offset, offset + byteLength (c :: cs)⟩
  have hcut : kind ≠ .cutEscape := fun he ↦ hkind (he ▸ rfl)
  exact ⟨_, a, tokensFrom_of_scan (hscan rest hrest) hcut offset, by simpa using hkind, ha, hP⟩

end Tokens

section Words

variable {c : Char} {cs rest : List Char}

def wordKind (word : String) : TokenKind :=
  ((Keyword.ofText? word).map .keyword).getD .name

theorem isName_wordKind (word : String) : (wordKind word).isName = true := by
  unfold wordKind
  cases Keyword.ofText? word <;> rfl

theorem not_isFault_wordKind (word : String) : ¬ (wordKind word).isFault := by
  unfold wordKind
  cases Keyword.ofText? word <;> simp [TokenKind.isFault]

theorem scanName_eq (h : ∀ d ∈ cs, isNameChar d) (hrest : Delimits rest) :
    scanName c (cs ++ rest) = ⟨some (wordKind (.ofList (c :: cs))), cs.length⟩ := by
  have hown : scanName c (cs ++ rest) = scanName c cs := by
    rcases hrest.cases with rfl | ⟨d, tail, rfl, hd, -⟩
    · rw [List.append_nil]
    · exact scanName_append tail hd c cs
  have htail : cs.takeWhile isNameChar = cs := List.takeWhile_eq_self_iff.mpr h
  rw [hown]
  simp only [scanName, wordKind, htail]
  cases Keyword.ofText? (.ofList (c :: cs)) <;> rfl

theorem not_isSeparator_of_isNameChar (h : isNameChar c) :
    isSeparator c = false ∧ (c == '#') = false ∧ (c == '"') = false := by
  refine of_isNameChar (P := fun c ↦ isSeparator c = false ∧ (c == '#') = false ∧
    (c == '"') = false) ?_ h
  decide +kernel

theorem not_isDigit_of_isNameStart (h : isNameStart c) : (c == '-' || c.isDigit) = false := by
  refine of_isNameChar (P := fun c ↦ isNameStart c → (c == '-' || c.isDigit) = false) ?_
    (isNameChar_of_isNameStart h) h
  decide +kernel

def Token.IsWord (t : Token) : Prop :=
  t.kind.isName → IsIdentifier t.text ∧ t.kind = wordKind (.ofList t.text)

theorem isWord_of_mem_tokens {text : List Char} {t : Token} (ht : t ∈ tokens text) : t.IsWord := by
  intro hk
  refine ⟨isIdentifier_of_mem_tokens ht hk, ?_⟩
  obtain ⟨pre, c, rest, kind, -, hscan, rfl⟩ := exists_scan_of_mem_tokensFrom ht
  rw [kind_of] at hk ⊢
  have hcut : kind ≠ .cutEscape := fun he ↦ by simp [he, TokenKind.isName] at hk
  obtain ⟨-, hsame⟩ := scan_eq_scanName hscan hk
  rw [text_of hcut, hsame, more_scanName, take_countWhile]
  rw [hsame, scanName] at hscan
  unfold wordKind
  cases hword : Keyword.ofText? (.ofList (c :: rest.takeWhile isNameChar)) with
  | none => simp_all
  | some k => simp_all

theorem scan_word (h : IsIdentifier (c :: cs)) (hrest : Delimits rest) :
    scan c (cs ++ rest) = ⟨some (wordKind (.ofList (c :: cs))), cs.length⟩ := by
  obtain ⟨hc, hcs⟩ := List.forall_mem_cons.mp h.chars
  have hstart : isNameStart c = true := h.head
  obtain ⟨hsep, hcomment, hquote⟩ := not_isSeparator_of_isNameChar hc
  rw [← scanName_eq hcs hrest]
  simp only [scan, hsep, hcomment, hquote, not_isDigit_of_isNameStart hstart, hstart,
    Bool.false_eq_true, if_false, if_true]

theorem standsFor_word {α : Type} {word : List Char} {G : Phrase α} {P : α → Prop}
    (h : IsIdentifier word) (hG : ∀ span, ∃ a, G [⟨wordKind (.ofList word), span, word⟩] a ∧ P a) :
    StandsFor word G P := by
  cases word with
  | nil => exact absurd h.head (by decide)
  | cons c cs =>
    exact standsFor_token (fun rest hrest ↦ scan_word h hrest) (not_isFault_wordKind _) hG

theorem standsFor_name {word : List Char} (h : IsIdentifier word) :
    StandsFor word Sentence.IsName fun n ↦ n.text = .ofList word :=
  standsFor_word h fun _ ↦ ⟨_, .mk (isName_wordKind _), rfl⟩

theorem StandsFor.entry {α : Type} {G : Phrase α} {P : α → Prop} {name text : List Char}
    (hname : IsIdentifier name) (h : StandsFor text G P) :
    StandsFor (name ++ [':', ' '] ++ text) (Entry G) fun e ↦ e.1.text = .ofList name ∧ P e.2 := by
  intro offset rest hrest
  let place := offset + byteLength name
  obtain ⟨us, a, htokens', hus, ha, hP⟩ := h (place + 2) rest hrest
  obtain ⟨ts, n, htokens, hts, hn, htext⟩ := standsFor_name hname offset
    (':' :: ' ' :: (text ++ rest)) (delimits_cons (by decide) _)
  let colon : Token := ⟨.punctuator .colon, ⟨place, place + 1⟩, [':']⟩
  have hfaults : ∀ t ∈ ts ++ [colon] ++ us, ¬ t.kind.isFault := by
    simp only [List.forall_mem_append, List.forall_mem_singleton]
    exact ⟨⟨hts, not_isFault_punctuator .colon⟩, hus⟩
  refine ⟨ts ++ [colon] ++ us, (n, a), ?_, hfaults, .mk hn rfl ha, htext, hP⟩
  have hskip : tokensFrom 0 place (':' :: ' ' :: (text ++ rest)) =
      colon :: tokensFrom 0 (place + 2) (text ++ rest) := rfl
  have hlength : byteLength [':', ' '] = 2 := rfl
  rw [hskip, htokens'] at htokens
  simp only [byteLength_append, hlength, ← Nat.add_assoc]
  simpa using htokens

end Words

section Numbers

theorem scanNumber_eq {first : Char} {ds rest : List Char} (hds : ∀ d ∈ ds, d.isDigit)
    (hfirst : first = '-' → ds ≠ []) (hrest : Delimits rest) :
    scanNumber first (ds ++ rest) = ⟨some .int, ds.length⟩ := by
  have hown : scanNumber first (ds ++ rest) = scanNumber first ds := by
    rcases hrest.cases with rfl | ⟨d, tail, rfl, hd, -⟩
    · rw [List.append_nil]
    · exact scanNumber_append tail hd first ds
  have hwhole : countWhile Char.isDigit ds = ds.length := by
    rw [countWhile, List.takeWhile_eq_self_iff.mpr hds]
  rw [hown]
  simp [scanNumber, hwhole, fractionLength, exponentMarkLength]
  simpa using hfirst

theorem numeral_toDigits (n : Nat) : numeral (Nat.toDigits 10 n) = n := by
  rw [← decimalValue_eq_numeral]
  exact Nat.ofDigitChars_ten_toDigits

theorem denotes_toString (n : Int) : Denotes (toString n).toList n := by
  cases n with
  | ofNat n =>
    have hdenotes := Denotes.nonneg Nat.toDigits_ne_nil (Json.isDigit_toDigits n)
    rw [numeral_toDigits] at hdenotes
    rwa [Json.toList_toString_ofNat]
  | negSucc n =>
    have hdenotes := Denotes.neg Nat.toDigits_ne_nil (Json.isDigit_toDigits (n + 1))
    rw [numeral_toDigits] at hdenotes
    rwa [Json.toList_toString_negSucc]

theorem scan_number {c : Char} {cs rest : List Char} {n : Int} (h : Denotes (c :: cs) n)
    (hrest : Delimits rest) : scan c (cs ++ rest) = ⟨some .int, cs.length⟩ := by
  have hsplit : (c = '-' ∧ cs ≠ [] ∨ c.isDigit) ∧ ∀ d ∈ cs, d.isDigit := by
    cases h with
    | nonneg _ hd => exact ⟨Or.inr (hd c (by simp)), fun d hd' ↦ hd d (by simp [hd'])⟩
    | neg hne hd => exact ⟨Or.inl ⟨rfl, hne⟩, hd⟩
  obtain ⟨⟨rfl, hne⟩ | hc, hcs⟩ := hsplit
  · exact scanNumber_eq hcs (fun _ ↦ hne) hrest
  · have hname : isNameChar c := by simp [isNameChar, Char.isAlphanum, hc]
    obtain ⟨hsep, hcomment, hquote⟩ := not_isSeparator_of_isNameChar hname
    have hsign : c = '-' → cs ≠ [] := by
      rintro rfl
      exact absurd hc (by decide)
    have hscan : scan c (cs ++ rest) = scanNumber c (cs ++ rest) := by
      simp [scan, hsep, hcomment, hquote, hc]
    rw [hscan, scanNumber_eq hcs hsign hrest]

end Numbers

section Strings

theorem scan_string {body rest : List Char} (h : StaysOpen body) (hrest : Delimits rest) :
    scan '"' (body ++ ['"'] ++ rest) = ⟨some .string, (body ++ ['"']).length⟩ := by
  refine scan_quoted_append h fun c hc ↦ ?_
  rcases hrest.cases with rfl | ⟨d, tail, rfl, -, hd⟩
  · cases hc
  · cases hc
    exact hd

end Strings

section Constants

/-- The text is a constant value and nothing else, and reading it meets no fault. -/
def IsConstant (text : List Char) (w : Value) : Prop :=
  ∃ c : Cursor, (Grammar.value true).run (.start (tokens text) (endOffset text)) = (w, c) ∧
    c.atEnd = true ∧ c.diagnostics = #[]

theorem IsConstant.unique {text : List Char} {w w' : Value} (h : IsConstant text w)
    (h' : IsConstant text w') : w = w' := by
  obtain ⟨c, hrun, -⟩ := h
  obtain ⟨c', hrun', -⟩ := h'
  exact congrArg Prod.fst (hrun.symm.trans hrun')

theorem isConstant_of_isValue {text : List Char} {w : Value}
    (hfaults : ∀ t ∈ tokens text, ¬ t.kind.isFault) (h : IsValue true (tokens text) w) :
    IsConstant text w := by
  obtain ⟨hready, hpassed⟩ := passed_start (inOrder_tokens text) hfaults (endOffset text)
  have hreads := (parses_value true _).complete hready ⟨_, hpassed, h⟩ trivial
  exact ⟨_, hreads.2.1, rfl, rfl⟩

theorem StandsFor.exists_isConstant {text : List Char} {P : Value → Prop}
    (h : StandsFor text (IsValue true) P) : ∃ w, IsConstant text w ∧ P w := by
  obtain ⟨ts, w, htokens, hfaults, hw, hP⟩ := h 0 [] nofun
  have hall : tokens text = ts := by simpa [tokens, tokensFrom] using htokens
  subst hall
  exact ⟨w, isConstant_of_isValue hfaults hw, hP⟩

end Constants

end SchemaBindings.Sdl
