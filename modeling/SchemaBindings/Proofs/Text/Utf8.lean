import Mathlib.Data.List.TakeWhile
import SchemaBindings.Text.Bytes

namespace SchemaBindings.Text

def bytes (cs : List Char) : List UInt8 :=
  cs.flatMap String.utf8EncodeChar

variable {c : Char} {cs : List Char} {b : UInt8}

theorem bytes_cons (c : Char) (cs : List Char) :
    bytes (c :: cs) = String.utf8EncodeChar c ++ bytes cs :=
  List.flatMap_cons

theorem bytes_append (a b : List Char) : bytes (a ++ b) = bytes a ++ bytes b :=
  List.flatMap_append

theorem length_bytes (cs : List Char) : (bytes cs).length = byteLength cs := by
  induction cs with
  | nil => rfl
  | cons c cs ih =>
    rw [bytes_cons, List.length_append, String.length_utf8EncodeChar, ih, byteLength_cons]

theorem drop_bytes (cs : List Char) (n : Nat) :
    (bytes cs).drop (byteLength (cs.take n)) = bytes (cs.drop n) := by
  have hsplit : bytes cs = bytes (cs.take n) ++ bytes (cs.drop n) := by
    rw [← bytes_append, List.take_append_drop]
  rw [hsplit, ← length_bytes, List.drop_left]

theorem utf8EncodeChar_append_inj {c d : Char} {r s : List UInt8}
    (h : String.utf8EncodeChar c ++ r = String.utf8EncodeChar d ++ s) : c = d ∧ r = s := by
  have hdecode := congrArg (fun bs : List UInt8 ↦ bs.toByteArray.utf8DecodeChar? 0) h
  simp only [List.toByteArray_append, ByteArray.utf8DecodeChar?_utf8EncodeChar_append] at hdecode
  obtain rfl := Option.some.inj hdecode
  exact ⟨rfl, List.append_cancel_left h⟩

theorem utf8EncodeChar_ne_nil (c : Char) : String.utf8EncodeChar c ≠ [] := by
  rw [List.ne_nil_iff_length_pos, String.length_utf8EncodeChar]
  exact c.utf8Size_pos

theorem bytes_prefix_iff {a cs : List Char} : bytes a <+: bytes cs ↔ a <+: cs := by
  induction a generalizing cs with
  | nil => simp [bytes]
  | cons c a ih =>
    cases cs with
    | nil => simp [bytes]
    | cons d cs =>
      rw [bytes_cons, bytes_cons, List.cons_prefix_cons, ← ih]
      constructor
      · rintro ⟨rest, h⟩
        rw [List.append_assoc] at h
        obtain ⟨hc, hrest⟩ := utf8EncodeChar_append_inj h
        exact ⟨hc, rest, hrest⟩
      · rintro ⟨rfl, rest, h⟩
        exact ⟨rest, by rw [List.append_assoc, h]⟩

theorem bytes_injective : Function.Injective bytes := by
  intro a b h
  exact (bytes_prefix_iff.mp (h ▸ List.prefix_rfl)).eq_of_length_le
    (bytes_prefix_iff.mp (h ▸ List.prefix_rfl)).length_le

def width (lead : UInt8) : Nat :=
  if lead.toNat < 0x80 then 1
  else if lead.toNat < 0xE0 then 2
  else if lead.toNat < 0xF0 then 3
  else 4

def isContinuation (b : UInt8) : Bool :=
  0x80 ≤ b.toNat && b.toNat < 0xC0

theorem le_of_isContinuation (h : isContinuation b) : 0x80 ≤ b.toNat := by
  rw [isContinuation, Bool.and_eq_true, decide_eq_true_iff] at h
  exact h.1

theorem isContinuation_ofNat (n : Nat) : isContinuation (UInt8.ofNat (n % 64 + 128)) := by
  have hlt : n % 64 + 128 < 256 := by omega
  rw [isContinuation, UInt8.toNat_ofNat_of_lt' hlt, Bool.and_eq_true, decide_eq_true_iff,
    decide_eq_true_iff]
  omega

/-- A byte that begins a character of several bytes, and the bytes that go on with it. -/
def IsWide (c : Char) : Prop :=
  ∃ lead bs, String.utf8EncodeChar c = lead :: bs ∧ 0xC0 ≤ lead.toNat ∧ width lead = c.utf8Size ∧
    ∀ b ∈ bs, isContinuation b

theorem isWide_of_lead {n : Nat} {bs : List UInt8}
    (h : String.utf8EncodeChar c = UInt8.ofNat n :: bs) (hn : 0xC0 ≤ n ∧ n < 256)
    (hw : (if n < 0xE0 then 2 else if n < 0xF0 then 3 else 4) = bs.length + 1)
    (hbs : ∀ b ∈ bs, isContinuation b) : IsWide c := by
  have hlead : (UInt8.ofNat n).toNat = n := UInt8.toNat_ofNat_of_lt' hn.2
  refine ⟨_, bs, h, by omega, ?_, hbs⟩
  rw [← String.length_utf8EncodeChar, h, List.length_cons, ← hw, width, hlead,
    if_neg (by omega)]

theorem toNat_ofUInt8 (b : UInt8) : (Char.ofUInt8 b).val.toNat = b.toNat :=
  UInt8.toNat_toUInt32 b

theorem ascii_or_isWide (c : Char) :
    (∃ b, String.utf8EncodeChar c = [b] ∧ Char.ofUInt8 b = c ∧ b.toNat < 0x80) ∨
      0x80 ≤ c.val.toNat ∧ IsWide c := by
  have hcode := String.utf8EncodeChar.eq_1 c
  by_cases h₁ : c.val.toNat ≤ 127
  · rw [if_pos h₁] at hcode
    have hb : (UInt8.ofNat c.val.toNat).toNat = c.val.toNat :=
      UInt8.toNat_ofNat_of_lt' (Nat.lt_of_le_of_lt h₁ (by decide))
    refine .inl ⟨_, hcode, Char.ext (UInt32.toNat_inj.mp ?_), by omega⟩
    rw [toNat_ofUInt8, hb]
  rw [if_neg h₁] at hcode
  refine .inr ⟨by omega, ?_⟩
  by_cases h₂ : c.val.toNat ≤ 2047
  · rw [if_pos h₂] at hcode
    refine isWide_of_lead hcode (by omega) (by rw [if_pos (by omega)]; rfl) ?_
    simp only [List.mem_singleton, forall_eq, isContinuation_ofNat]
  rw [if_neg h₂] at hcode
  by_cases h₃ : c.val.toNat ≤ 65535
  · rw [if_pos h₃] at hcode
    refine isWide_of_lead hcode (by omega)
      (by rw [if_neg (by omega), if_pos (by omega)]; rfl) ?_
    simp only [List.forall_mem_cons, List.mem_singleton, forall_eq, isContinuation_ofNat, and_self]
  · rw [if_neg h₃] at hcode
    refine isWide_of_lead hcode (by omega)
      (by rw [if_neg (by omega), if_neg (by omega)]; rfl) ?_
    simp only [List.forall_mem_cons, List.mem_singleton, forall_eq, isContinuation_ofNat, and_self]

/-- The bytes of a character, the first of which begins it. -/
structure Encodes (lead : UInt8) (bs : List UInt8) (c : Char) : Prop where
  eq : String.utf8EncodeChar c = lead :: bs
  length_eq : bs.length + 1 = c.utf8Size
  width_eq : width lead = c.utf8Size
  not_isContinuation : isContinuation lead = false
  le : ∀ b ∈ bs, 0x80 ≤ b.toNat

theorem exists_encodes (c : Char) : ∃ lead bs, Encodes lead bs c := by
  have hlength {lead : UInt8} {bs : List UInt8} (h : String.utf8EncodeChar c = lead :: bs) :
      bs.length + 1 = c.utf8Size := by
    rw [← String.length_utf8EncodeChar, h, List.length_cons]
  obtain ⟨lead, hcode, -, hlt⟩ | ⟨-, lead, bs, hcode, hlead, hwidth, hbs⟩ := ascii_or_isWide c
  · refine ⟨lead, [], hcode, hlength hcode, ?_, ?_, by simp⟩
    · rw [← hlength hcode, width, if_pos hlt, List.length_nil]
    · rw [isContinuation, decide_eq_false (Nat.not_le.mpr hlt), Bool.false_and]
  · refine ⟨lead, bs, hcode, hlength hcode, hwidth, ?_, fun b hb ↦ le_of_isContinuation (hbs b hb)⟩
    rw [isContinuation, decide_eq_false (Nat.not_lt.mpr hlead), Bool.and_false]

/-- Only ASCII characters satisfy `p`. -/
def IsAscii (p : Char → Bool) : Prop :=
  ∀ c, p c → c.val.toNat < 0x80

section Ascii

variable {p : Char → Bool}

theorem IsAscii.eq_false (hp : IsAscii p) (hc : 0x80 ≤ c.val.toNat) : p c = false :=
  Bool.eq_false_iff.mpr fun h ↦ Nat.not_lt.mpr hc (hp c h)

theorem IsAscii.ofUInt8_eq_false (hp : IsAscii p) (hb : 0x80 ≤ b.toNat) :
    p (.ofUInt8 b) = false :=
  hp.eq_false (by rwa [toNat_ofUInt8])

theorem IsAscii.or {q : Char → Bool} (hp : IsAscii p) (hq : IsAscii q) :
    IsAscii fun c ↦ p c || q c :=
  fun c h ↦ (Bool.or_eq_true _ _ ▸ h).elim (hp c) (hq c)

theorem isAscii_beq {d : Char} (h : d.val.toNat < 0x80) : IsAscii (· == d) :=
  fun _ hd ↦ (beq_iff_eq.mp hd) ▸ h

theorem IsAscii.apply_ofUInt8 (hp : IsAscii p) (hb : b ∈ String.utf8EncodeChar c) :
    p (.ofUInt8 b) = p c := by
  obtain ⟨lead, hcode, rfl, -⟩ | ⟨hc, hwide⟩ := ascii_or_isWide c
  · rw [hcode] at hb
    rw [List.mem_singleton.mp hb]
  · obtain ⟨lead, bs, hcode, hlead, -, hbs⟩ := hwide
    rw [hp.eq_false hc]
    refine hp.ofUInt8_eq_false ?_
    rcases List.mem_cons.mp (hcode ▸ hb) with rfl | hb
    · omega
    · exact le_of_isContinuation (hbs b hb)

theorem takeWhile_bytes {f : UInt8 → Bool}
    (h : ∀ c, ∀ b ∈ String.utf8EncodeChar c, f b = p c) (cs : List Char) :
    (bytes cs).takeWhile f = bytes (cs.takeWhile p) := by
  induction cs with
  | nil => rfl
  | cons c cs ih =>
    rw [bytes_cons]
    cases hc : p c with
    | true =>
      rw [List.takeWhile_append_of_pos fun b hb ↦ (h c b hb).trans hc, ih,
        List.takeWhile_cons_of_pos hc, bytes_cons]
    | false =>
      obtain ⟨b, bs, hcode⟩ := List.exists_cons_of_ne_nil (utf8EncodeChar_ne_nil c)
      have hb : f b = false := (h c b (hcode ▸ List.mem_cons_self)).trans hc
      rw [List.takeWhile_cons_of_neg (by simp [hc]), hcode, List.cons_append,
        List.takeWhile_cons_of_neg (by simp [hb])]
      rfl

end Ascii

/-- Whether bytes can be cut at `offset`: a character begins there, or they end. -/
def isBoundary (offset : Nat) (bs : List UInt8) : Bool :=
  offset ≤ bs.length && !(bs.drop offset).head?.any isContinuation

/-- The bytes from `start` up to `stop`, unless one of them lies inside a character or beyond the
end. -/
def sliceUtf8? (start stop : Nat) (bs : List UInt8) : Option (List UInt8) :=
  if start ≤ stop && isBoundary start bs && isBoundary stop bs then
    some ((bs.drop start).take (stop - start))
  else none

theorem isContinuation_getElem_utf8EncodeChar {offset : Nat} (h : offset < c.utf8Size)
    (hpos : 0 < offset) :
    ∃ b, (String.utf8EncodeChar c)[offset]? = some b ∧ isContinuation b := by
  obtain ⟨lead, hcode, -⟩ | ⟨-, lead, bs, hcode, -, -, hbs⟩ := ascii_or_isWide c
  · rw [← String.length_utf8EncodeChar, hcode, List.length_singleton] at h
    omega
  · rw [← String.length_utf8EncodeChar, hcode, List.length_cons] at h
    obtain ⟨offset, rfl⟩ := Nat.exists_eq_add_one.mpr hpos
    have hlt : offset < bs.length := Nat.lt_of_succ_lt_succ h
    refine ⟨bs[offset], ?_, hbs _ (List.getElem_mem hlt)⟩
    rw [hcode, List.getElem?_cons_succ, List.getElem?_eq_getElem hlt]

theorem head?_utf8EncodeChar (c : Char) (rest : List UInt8) :
    (String.utf8EncodeChar c ++ rest).head?.any isContinuation = false := by
  obtain ⟨lead, bs, h⟩ := exists_encodes c
  rw [h.eq, List.cons_append, List.head?_cons, Option.any_some, h.not_isContinuation]

theorem isBoundary_append (a b : List UInt8) (n : Nat) :
    isBoundary (a.length + n) (a ++ b) = isBoundary n b := by
  rw [isBoundary, isBoundary, List.length_append, ← List.drop_drop, List.drop_left]
  simp

theorem isBoundary_bytes_iff {offset : Nat} :
    isBoundary offset (bytes cs) ↔ ∃ p r, cs = p ++ r ∧ byteLength p = offset := by
  induction cs generalizing offset with
  | nil =>
    rw [isBoundary]
    simp [bytes, eq_comm]
  | cons c cs ih =>
    rcases Nat.lt_or_ge offset c.utf8Size with hlt | hge
    · rcases Nat.eq_zero_or_pos offset with rfl | hpos
      · refine iff_of_true ?_ ⟨[], c :: cs, rfl, rfl⟩
        rw [isBoundary, List.drop_zero, bytes_cons, head?_utf8EncodeChar]
        rfl
      · refine iff_of_false ?_ ?_
        · obtain ⟨b, hb, hcont⟩ := isContinuation_getElem_utf8EncodeChar hlt hpos
          rw [isBoundary, bytes_cons, List.head?_drop,
            List.getElem?_append_left (by rwa [String.length_utf8EncodeChar]), hb, Option.any_some,
            hcont]
          simp
        · rintro ⟨p, r, hcs, rfl⟩
          obtain ⟨rfl, -⟩ | ⟨p, rfl, -⟩ := List.cons_eq_append_iff.mp hcs
          · exact Nat.lt_irrefl _ hpos
          · rw [byteLength_cons] at hlt
            omega
    · obtain ⟨rest, rfl⟩ := Nat.exists_eq_add_of_le hge
      rw [bytes_cons, ← String.length_utf8EncodeChar, isBoundary_append, ih]
      constructor
      · rintro ⟨p, r, rfl, rfl⟩
        exact ⟨c :: p, r, rfl, by rw [byteLength_cons, String.length_utf8EncodeChar]⟩
      · rintro ⟨p, r, hcs, hp⟩
        rw [String.length_utf8EncodeChar] at hp
        obtain ⟨rfl, -⟩ | ⟨p, rfl, rfl⟩ := List.cons_eq_append_iff.mp hcs
        · have := c.utf8Size_pos
          rw [byteLength_nil] at hp
          omega
        · exact ⟨p, r, rfl, Nat.add_left_cancel hp⟩

theorem dropBytes?_eq_some_iff {n : Nat} {r : List Char} :
    dropBytes? n cs = some r ↔ ∃ p, cs = p ++ r ∧ byteLength p = n := by
  refine ⟨fun h ↦ ?_, fun ⟨p, hcs, hp⟩ ↦ by rw [hcs, ← hp, dropBytes?_append]⟩
  fun_induction dropBytes? n cs with
  | case1 => exact ⟨[], by simpa using h, rfl⟩
  | case2 => cases h
  | case3 n c cs hle ih =>
    obtain ⟨p, rfl, hp⟩ := ih h
    exact ⟨c :: p, rfl, by rw [byteLength_cons]; omega⟩
  | case4 => cases h

theorem takeBytes?_eq_some_iff {n : Nat} {p : List Char} :
    takeBytes? n cs = some p ↔ ∃ r, cs = p ++ r ∧ byteLength p = n := by
  refine ⟨fun h ↦ ?_, fun ⟨r, hcs, hp⟩ ↦ by rw [hcs, ← hp, takeBytes?_append]⟩
  fun_induction takeBytes? n cs generalizing p with
  | case1 => cases h; exact ⟨_, rfl, rfl⟩
  | case2 => cases h
  | case3 n c cs hle ih =>
    obtain ⟨q, hq, rfl⟩ := Option.map_eq_some_iff.mp h
    obtain ⟨r, rfl, hp⟩ := ih hq
    exact ⟨r, rfl, by rw [byteLength_cons]; omega⟩
  | case4 => cases h

theorem sliceUtf8?_bytes (start stop : Nat) (cs : List Char) :
    sliceUtf8? start stop (bytes cs) = (sliceBytes? start stop cs).map bytes := by
  rw [sliceUtf8?, sliceBytes?]
  rcases Nat.lt_or_ge stop start with hlt | hle
  · rw [if_neg (by simp; omega), if_neg (by omega)]
    rfl
  rw [if_pos hle]
  cases hdrop : dropBytes? start cs with
  | none =>
    rw [if_neg]
    · rfl
    intro h
    simp only [Bool.and_eq_true] at h
    obtain ⟨p, r, hcs, hp⟩ := isBoundary_bytes_iff.mp h.1.2
    cases hdrop.symm.trans (dropBytes?_eq_some_iff.mpr ⟨p, hcs, hp⟩)
  | some rest =>
    obtain ⟨p, rfl, rfl⟩ := dropBytes?_eq_some_iff.mp hdrop
    have hbefore : isBoundary (byteLength p) (bytes (p ++ rest)) :=
      isBoundary_bytes_iff.mpr ⟨p, rest, rfl, rfl⟩
    obtain ⟨n, rfl⟩ := Nat.exists_eq_add_of_le hle
    have hafter :
        isBoundary (byteLength p + n) (bytes (p ++ rest)) = isBoundary n (bytes rest) := by
      rw [bytes_append, ← length_bytes, isBoundary_append]
    rw [Option.bind_some, hbefore, hafter, decide_eq_true hle, Bool.true_and, Bool.true_and,
      Nat.add_sub_cancel_left, bytes_append, ← length_bytes, List.drop_left]
    cases htake : takeBytes? n rest with
    | none =>
      rw [if_neg]
      · rfl
      intro h
      obtain ⟨q, r, hrest, hq⟩ := isBoundary_bytes_iff.mp h
      cases htake.symm.trans (takeBytes?_eq_some_iff.mpr ⟨r, hrest, hq⟩)
    | some q =>
      obtain ⟨r, rfl, rfl⟩ := takeBytes?_eq_some_iff.mp htake
      rw [if_pos (isBoundary_bytes_iff.mpr ⟨q, r, rfl, rfl⟩), bytes_append, ← length_bytes,
        List.take_left]
      rfl

end SchemaBindings.Text
