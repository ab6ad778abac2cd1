import SchemaBindings.Proofs.Sdl.Layout

namespace SchemaBindings.Sdl

open Text

namespace ByteLexer

/-- A token at the front of some bytes, and by how many of them the reading advances. -/
structure Lexeme where
  kind : TokenKind
  length : Nat
  deriving DecidableEq

def Lexeme.after (n : Nat) (x : Lexeme) : Lexeme :=
  ⟨x.kind, n + x.length⟩

def peek (p : Char → Bool) (bs : List UInt8) : Bool :=
  bs.head?.any fun b ↦ p (.ofUInt8 b)

def span (p : Char → Bool) (bs : List UInt8) : Nat :=
  (bs.takeWhile fun b ↦ p (.ofUInt8 b)).length

def opens (text : List Char) (bs : List UInt8) : Bool :=
  (bytes text).isPrefixOf bs

/-- A backslash takes the next byte with it, be it the first of several or beyond the end. -/
def string (bs : List UInt8) : Lexeme :=
  match bs with
  | [] => ⟨.invalid, 0⟩
  | b :: rest =>
    if isLineEnd (.ofUInt8 b) then ⟨.invalid, 0⟩
    else if Char.ofUInt8 b == '"' then ⟨.string, 1⟩
    else if Char.ofUInt8 b == '\\' then (string (rest.drop 1)).after 2
    else (string rest).after 1
termination_by bs.length
decreasing_by all_goals grind

def blockString (bs : List UInt8) : Lexeme :=
  match bs with
  | [] => ⟨.invalid, 0⟩
  | b :: rest =>
    if opens ['"', '"', '"'] (b :: rest) then ⟨.blockString, 3⟩
    else if opens ['\\', '"', '"', '"'] (b :: rest) then (blockString (rest.drop 3)).after 4
    else (blockString rest).after 1
termination_by bs.length
decreasing_by all_goals grind

def quoted (bs : List UInt8) : Lexeme :=
  if opens ['"', '"'] bs then (blockString (bs.drop 2)).after 2 else string bs

def fraction (bs : List UInt8) : Nat :=
  if peek (· == '.') bs && peek Char.isDigit (bs.drop 1) then 1 + span Char.isDigit (bs.drop 1)
  else 0

def exponentMark (bs : List UInt8) : Nat :=
  if peek (fun c ↦ c == 'e' || c == 'E') bs then
    if peek (fun c ↦ c == '+' || c == '-') (bs.drop 1) then 2 else 1
  else 0

def number (bs : List UInt8) : Lexeme :=
  let sign := if peek (· == '-') bs then 1 else 0
  let whole := span Char.isDigit (bs.drop sign)
  if whole = 0 then ⟨.invalid, sign⟩
  else
    let fraction := fraction (bs.drop (sign + whole))
    let mark := exponentMark (bs.drop (sign + whole + fraction))
    let exponent :=
      if mark = 0 then 0 else span Char.isDigit (bs.drop (sign + whole + fraction + mark))
    let length := sign + whole + fraction + mark + exponent
    if mark ≠ 0 ∧ exponent = 0 then ⟨.invalid, length⟩
    else if peek (fun c ↦ c.isAlpha || c == '_' || c == '.') (bs.drop length) then
      ⟨.invalid, length⟩
    else ⟨if fraction + mark = 0 then .int else .float, length⟩

def name? (bs : List UInt8) : Option Lexeme :=
  let length := span isNameChar bs
  (sliceUtf8? 0 length bs).map fun word ↦
    match Keyword.all.find? fun k ↦ bytes k.text.toList == word with
    | some k => ⟨.keyword k, length⟩
    | none => ⟨.name, length⟩

/-- The token that begins with `b`. A slice that begins or ends inside a character gives nothing. -/
def lexeme? (b : UInt8) (rest : List UInt8) : Option Lexeme :=
  match Punctuator.ofChar? (.ofUInt8 b) with
  | some p => some ⟨.punctuator p, 1⟩
  | none =>
    if opens ['.', '.', '.'] (b :: rest) then some ⟨.punctuator .spread, 3⟩
    else if Char.ofUInt8 b == '"' then some ((quoted rest).after 1)
    else if Char.ofUInt8 b == '-' || (Char.ofUInt8 b).isDigit then some (number (b :: rest))
    else if isNameStart (.ofUInt8 b) then name? (b :: rest)
    else if isBoundary 0 (b :: rest) then some ⟨.invalid, width b⟩
    else none

def isGap (c : Char) : Bool :=
  c == ' ' || c == '\t' || isLineEnd c || c == ','

def ignored (bs : List UInt8) : Nat :=
  match bs with
  | [] => 0
  | b :: rest =>
    if isGap (.ofUInt8 b) then 1 + ignored rest
    else if Char.ofUInt8 b == '#' then
      let comment := span (fun c ↦ !isLineEnd c) rest
      1 + comment + ignored (rest.drop comment)
    else if opens ['\ufeff'] (b :: rest) then 3 + ignored (rest.drop 2)
    else 0
termination_by bs.length
decreasing_by all_goals grind

theorem span_pos {p : Char → Bool} {b : UInt8} (h : p (.ofUInt8 b)) (rest : List UInt8) :
    0 < span p (b :: rest) := by
  rw [span, List.takeWhile_cons_of_pos (by exact h), List.length_cons]
  exact Nat.succ_pos _

theorem number_pos {b : UInt8} (h : Char.ofUInt8 b == '-' || (Char.ofUInt8 b).isDigit)
    (rest : List UInt8) : 0 < (number (b :: rest)).length := by
  have hfirst : 0 < (if peek (· == '-') (b :: rest) then 1 else 0) ∨
      (if peek (· == '-') (b :: rest) then 1 else 0) = 0 ∧ 0 < span Char.isDigit (b :: rest) := by
    rcases Bool.or_eq_true _ _ ▸ h with hb | hb
    · exact .inl (by rw [peek, List.head?_cons, Option.any_some, if_pos hb]; decide)
    · split
      · exact .inl Nat.one_pos
      · exact .inr ⟨rfl, span_pos hb rest⟩
  unfold number
  simp only
  generalize (if peek (· == '-') (b :: rest) then 1 else 0) = sign at hfirst ⊢
  rcases hfirst with hsign | ⟨rfl, hwhole⟩
  · repeat' split
    all_goals
      simp only
      omega
  · rw [List.drop_zero]
    repeat' split
    all_goals
      simp only
      omega

theorem lexeme?_pos {b : UInt8} {rest : List UInt8} {x : Lexeme} (h : lexeme? b rest = some x) :
    0 < x.length := by
  unfold lexeme? at h
  split at h
  · cases h
    exact Nat.one_pos
  split at h
  · cases h
    exact Nat.succ_pos 2
  split at h
  · cases h
    exact Nat.add_pos_left Nat.one_pos _
  split at h
  next hnumber =>
    cases h
    exact number_pos hnumber rest
  split at h
  next hname =>
    obtain ⟨word, -, rfl⟩ := Option.map_eq_some_iff.mp h
    have hspan := span_pos (isNameChar_of_isNameStart hname) rest
    split <;> exact hspan
  split at h
  · cases h
    unfold width
    simp only
    repeat' split
    all_goals decide
  · cases h

/-- The tokens of the bytes from `offset` on with their spans, the end of the input last. -/
def lex (offset : Nat) (bs : List UInt8) : Option (List (TokenKind × Span)) :=
  let start := offset + ignored bs
  match _hbs : bs.drop (ignored bs) with
  | [] => some [(.endOfInput, .empty start)]
  | b :: rest =>
    match _hx : lexeme? b rest with
    | none => none
    | some x =>
      (lex (start + x.length) ((b :: rest).drop x.length)).map
        ((x.kind, ⟨start, start + x.length⟩) :: ·)
termination_by bs.length
decreasing_by
  have hlength := congrArg List.length _hbs
  have hpos := lexeme?_pos _hx
  simp at hlength ⊢
  omega

theorem lex_eq (offset : Nat) (bs : List UInt8) : lex offset bs =
    match bs.drop (ignored bs) with
    | [] => some [(.endOfInput, .empty (offset + ignored bs))]
    | b :: rest =>
      (lexeme? b rest).bind fun x ↦
        (lex (offset + ignored bs + x.length) ((b :: rest).drop x.length)).map
          ((x.kind, ⟨offset + ignored bs, offset + ignored bs + x.length⟩) :: ·) := by
  rw [lex]
  split
  next h => rw [h]
  next b rest h =>
    rw [h]
    simp only
    split
    next hx => rw [hx]; rfl
    next x hx => rw [hx]; rfl

theorem lex_of_ignored {a bs : List UInt8} (h : ignored (a ++ bs) = a.length + ignored bs)
    (offset : Nat) : lex offset (a ++ bs) = lex (offset + a.length) bs := by
  rw [lex_eq, lex_eq (offset + a.length), h, ← List.drop_drop, List.drop_left, Nat.add_assoc]

theorem lex_nil (offset : Nat) : lex offset [] = some [(.endOfInput, .empty offset)] := by
  rw [lex_eq, ignored]
  rfl

end ByteLexer

end SchemaBindings.Sdl
