import SchemaBindings.Proofs.Source.Openings

namespace SchemaBindings

namespace Text

def lineFeed : UInt8 := 10

theorem lineFeed_not_mem_utf8EncodeChar {c : Char} (h : c ≠ '\n') :
    lineFeed ∉ String.utf8EncodeChar c := by
  have hascii : IsAscii (· == '\n') := by
    rintro _ h
    rw [beq_iff_eq.mp h]
    decide
  intro hmem
  exact h (beq_iff_eq.mp (hascii.apply_ofUInt8 hmem).symm)

theorem lineFeed_not_mem_bytes {cs : List Char} (h : '\n' ∉ cs) : lineFeed ∉ bytes cs := by
  intro hmem
  obtain ⟨c, hc, hmem⟩ := List.mem_flatMap.mp hmem
  exact lineFeed_not_mem_utf8EncodeChar (fun he ↦ h (he ▸ hc)) hmem

/-- Where the line feeds among some bytes stand; the first byte stands at `offset`. -/
def feedsFrom (offset : Nat) : List UInt8 → List Nat
  | [] => []
  | b :: bs =>
    if b = lineFeed then offset :: feedsFrom (offset + 1) bs else feedsFrom (offset + 1) bs

/-- Where the lines start: at the first byte, and behind each line feed. -/
def lineStarts (bs : List UInt8) : List Nat :=
  0 :: (feedsFrom 0 bs).map (· + 1)

theorem feedsFrom_append {bs : List UInt8} (h : lineFeed ∉ bs) (offset : Nat) (rest : List UInt8) :
    feedsFrom offset (bs ++ rest) = feedsFrom (offset + bs.length) rest := by
  induction bs generalizing offset with
  | nil => rfl
  | cons b bs ih =>
    obtain ⟨hb, hbs⟩ := not_or.mp (List.mem_cons.not.mp h)
    rw [List.cons_append, feedsFrom, if_neg (Ne.symm hb), ih hbs, List.length_cons]
    congr 1
    omega

theorem le_of_mem_feedsFrom {offset feed : Nat} {bs : List UInt8} (h : feed ∈ feedsFrom offset bs) :
    offset ≤ feed := by
  induction bs generalizing offset with
  | nil => cases h
  | cons b bs ih =>
    rw [feedsFrom] at h
    split at h
    · rcases List.mem_cons.mp h with rfl | h
      · exact Nat.le_refl _
      · exact Nat.le_of_succ_le (ih h)
    · exact Nat.le_of_succ_le (ih h)

theorem pairwise_feedsFrom (offset : Nat) (bs : List UInt8) :
    (feedsFrom offset bs).Pairwise (· < ·) := by
  induction bs generalizing offset with
  | nil => exact .nil
  | cons b bs ih =>
    rw [feedsFrom]
    split
    · exact .cons (fun _ h ↦ le_of_mem_feedsFrom h) (ih _)
    · exact ih _

theorem pairwise_lineStarts (bs : List UInt8) : (lineStarts bs).Pairwise (· < ·) := by
  refine .cons (fun start h ↦ ?_) ?_
  · obtain ⟨feed, -, rfl⟩ := List.mem_map.mp h
    exact Nat.succ_pos feed
  · exact (pairwise_feedsFrom 0 bs).map _ fun _ _ ↦ Nat.succ_lt_succ

theorem lt_of_mem_feedsFrom {offset feed : Nat} {bs : List UInt8} (h : feed ∈ feedsFrom offset bs) :
    feed < offset + bs.length := by
  induction bs generalizing offset with
  | nil => cases h
  | cons b bs ih =>
    have hrest (h : feed ∈ feedsFrom (offset + 1) bs) : feed < offset + (b :: bs).length := by
      have := ih h
      rw [List.length_cons]
      omega
    rw [feedsFrom] at h
    split at h
    · rcases List.mem_cons.mp h with rfl | h
      · exact Nat.lt_add_of_pos_right (Nat.succ_pos _)
      · exact hrest h
    · exact hrest h

/-- The lines of a text of less than 4 GiB start at numbers of 32 bits. -/
theorem lt_size_of_mem_lineStarts {bs : List UInt8} (h : bs.length < UInt32.size) {start : Nat}
    (hstart : start ∈ lineStarts bs) : start < UInt32.size := by
  rcases List.mem_cons.mp hstart with rfl | hstart
  · decide
  · obtain ⟨feed, hfeed, rfl⟩ := List.mem_map.mp hstart
    have := lt_of_mem_feedsFrom hfeed
    omega

theorem length_takeWhile_feedsFrom (base offset : Nat) (bs : List UInt8) :
    ((feedsFrom base bs).takeWhile (· + 1 ≤ base + offset)).length =
      (bs.take offset).count lineFeed := by
  induction bs generalizing base offset with
  | nil => simp [feedsFrom]
  | cons b bs ih =>
    cases offset with
    | zero =>
      rw [List.take_zero, List.count_nil, List.length_eq_zero_iff, List.takeWhile_eq_nil_iff]
      intro hlt
      have := le_of_mem_feedsFrom (List.getElem_mem hlt)
      simp
      omega
    | succ offset =>
      have hrest := ih (base + 1) offset
      rw [show base + 1 + offset = base + (offset + 1) by omega] at hrest
      rw [List.take_succ_cons, List.count_cons, ← hrest, feedsFrom]
      split
      next hb =>
        rw [List.takeWhile_cons_of_pos (by simp), List.length_cons, if_pos (beq_iff_eq.mpr hb)]
      next hb =>
        rw [if_neg (beq_iff_eq.not.mpr hb)]
        rfl

theorem length_takeWhile_lineStarts (bs : List UInt8) (offset : Nat) :
    ((lineStarts bs).takeWhile (· ≤ offset)).length = (bs.take offset).count lineFeed + 1 := by
  rw [lineStarts, List.takeWhile_cons_of_pos (by simp), List.length_cons, List.takeWhile_map,
    List.length_map]
  have hfeeds := length_takeWhile_feedsFrom 0 offset bs
  simp only [Nat.zero_add] at hfeeds
  exact congrArg (· + 1) hfeeds

/-- Narrows the positions in which the last start at or before `offset` can be: they are `size` many
from `base` on, and half of them go with each look at the table. -/
def narrow (starts : List Nat) (offset base size : Nat) : Nat :=
  if size ≤ 1 then base
  else
    narrow starts offset
      (if offset < starts.getD (base + size / 2) 0 then base else base + size / 2)
      (size - size / 2)
termination_by size
decreasing_by omega

/-- The position of `offset` in ascending starts, or as an error the one in which it could be
put. -/
def bisect (starts : List Nat) (offset : Nat) : Except Nat Nat :=
  let i := narrow starts offset 0 starts.length
  match starts[i]? with
  | none => .error i
  | some start =>
    if start = offset then .ok i else if start < offset then .error (i + 1) else .error i

def lineNumber (starts : List Nat) (offset : Nat) : Nat :=
  match bisect starts offset with
  | .ok i => i + 1
  | .error i => i

section Search

variable {starts : List Nat} (h : starts.Pairwise (· < ·)) (offset : Nat)

include h

theorem le_iff_lt_length_takeWhile {i : Nat} (hi : i < starts.length) :
    starts[i] ≤ offset ↔ i < (starts.takeWhile (· ≤ offset)).length := by
  induction starts generalizing i with
  | nil => cases hi
  | cons start starts ih =>
    obtain ⟨hfirst, hrest⟩ := List.pairwise_cons.mp h
    by_cases hstart : start ≤ offset
    · rw [List.takeWhile_cons_of_pos (by simpa using hstart), List.length_cons]
      cases i with
      | zero => exact iff_of_true hstart (Nat.succ_pos _)
      | succ i => exact (ih hrest (Nat.lt_of_succ_lt_succ hi)).trans Nat.succ_lt_succ_iff.symm
    · rw [List.takeWhile_cons_of_neg (by simpa using hstart)]
      refine iff_of_false (fun hle ↦ hstart ?_) (Nat.not_lt_zero i)
      cases i with
      | zero => exact hle
      | succ i => exact (hfirst _ (List.getElem_mem _)).le.trans hle

/-- The search keeps the last start at or before the offset among the positions that are left. -/
theorem narrow_add_one {base size : Nat} (hsize : base + size ≤ starts.length)
    (hbase : base < (starts.takeWhile (· ≤ offset)).length)
    (hstop : (starts.takeWhile (· ≤ offset)).length ≤ base + size) :
    narrow starts offset base size + 1 = (starts.takeWhile (· ≤ offset)).length := by
  fun_induction narrow starts offset base size with
  | case1 base size hle => omega
  | case2 base size hlt ih =>
    have hmid : base + size / 2 < starts.length := by omega
    have hiff := le_iff_lt_length_takeWhile h offset hmid
    have hget : starts.getD (base + size / 2) 0 = starts[base + size / 2] := by
      rw [List.getD_eq_getElem?_getD, List.getElem?_eq_getElem hmid, Option.getD_some]
    rw [hget]
    simp only [hget, dite_eq_ite] at ih
    refine ih ?_ ?_ ?_
    all_goals split <;> omega

/-- The line that the search finds is the last one that starts at or before the offset. -/
theorem lineNumber_eq_length_takeWhile (hfirst : starts.head? = some 0) :
    lineNumber starts offset = (starts.takeWhile (· ≤ offset)).length := by
  obtain ⟨others, rfl⟩ := List.head?_eq_some_iff.mp hfirst
  have hpos : 0 < ((0 :: others).takeWhile (· ≤ offset)).length := by
    rw [List.takeWhile_cons_of_pos (by simp)]
    exact Nat.succ_pos _
  have hlength := (List.takeWhile_prefix (l := 0 :: others) (· ≤ offset)).length_le
  have hlast := narrow_add_one h offset (Nat.zero_add _).le hpos (by omega)
  have hlt : narrow (0 :: others) offset 0 (0 :: others).length < (0 :: others).length := by omega
  have hle := (le_iff_lt_length_takeWhile h offset hlt).mpr (by omega)
  rw [lineNumber, bisect, List.getElem?_eq_getElem hlt]
  dsimp only
  split_ifs with heq hless
  · exact hlast
  · exact hlast
  · omega

end Search

end Text

open Text

theorem Line.map_start_enumerate (number start : Nat) (cs : List Char) :
    (enumerate number start (splitLines cs)).map (·.start) =
      start :: (feedsFrom start (bytes cs)).map (· + 1) := by
  unfold splitLines
  induction cs generalizing number start with
  | nil => rfl
  | cons c cs ih =>
    by_cases hc : c == '\n'
    · have hrest := ih (number + 1) (start + 1)
      obtain rfl := beq_iff_eq.mp hc
      rw [splitAt, if_pos hc, enumerate, List.map_cons, byteLength_nil, Nat.add_zero, hrest]
      rfl
    · obtain ⟨piece, pieces, hs, hcons⟩ := splitAt_cons_of_neg (p := (· == '\n')) hc cs
      have hfeed := lineFeed_not_mem_utf8EncodeChar (mt beq_iff_eq.mpr hc)
      have hrest := ih number (start + c.utf8Size)
      rw [hs, enumerate, List.map_cons, List.cons.injEq] at hrest
      rw [hcons, enumerate, List.map_cons, bytes_cons, feedsFrom_append hfeed,
        String.length_utf8EncodeChar, ← hrest.2, byteLength_cons, ← Nat.add_assoc start]

namespace SourceFile

variable (f : SourceFile)

def bytes : List UInt8 :=
  f.text.toByteArray.data.toList

theorem bytes_eq : f.bytes = Text.bytes f.chars := by
  have htext : f.text = .ofList f.chars := String.ofList_toList.symm
  rw [bytes, htext, String.toByteArray_ofList, List.utf8Encode, List.data_toByteArray]
  rfl

theorem map_start_lines : f.lines.map (·.start) = lineStarts f.bytes := by
  rw [f.lines_eq, Line.ofText, Line.map_start_enumerate, bytes_eq]
  rfl

theorem exists_takeWhile_eq (offset : Nat) :
    ∃ before, f.lines.takeWhile (·.start ≤ offset) = before ++ [f.lineAt offset] := by
  have hne : f.lines.takeWhile (·.start ≤ offset) ≠ [] := by
    intro hnil
    have hstarts := congrArg List.length (List.takeWhile_map (f := Line.start) (p := (· ≤ offset))
      (l := f.lines))
    rw [map_start_lines, length_takeWhile_lineStarts, List.length_map] at hstarts
    exact absurd (hstarts.trans (congrArg List.length hnil)) (Nat.succ_ne_zero _)
  refine ⟨(f.lines.takeWhile (·.start ≤ offset)).dropLast, ?_⟩
  rw [lineAt, List.getLast?_eq_some_getLast hne, Option.getD_some, List.dropLast_concat_getLast hne]

theorem lineOf_eq_length (offset : Nat) :
    f.lineOf offset = (f.lines.takeWhile (·.start ≤ offset)).length := by
  obtain ⟨before, hbefore⟩ := f.exists_takeWhile_eq offset
  have hlines := (List.takeWhile_append_dropWhile (p := (·.start ≤ offset)) (l := f.lines)).symm
  rw [hbefore, List.append_assoc, List.singleton_append, f.lines_eq, Line.ofText] at hlines
  rw [lineOf, Line.number_of_enumerate hlines, hbefore, List.length_append, List.length_singleton,
    Nat.add_comm]

theorem length_takeWhile_lines (offset : Nat) : (f.lines.takeWhile (·.start ≤ offset)).length =
    ((lineStarts f.bytes).takeWhile (· ≤ offset)).length := by
  rw [← map_start_lines, List.takeWhile_map, List.length_map]
  rfl

theorem lineOf_eq_count (offset : Nat) :
    f.lineOf offset = (f.bytes.take offset).count lineFeed + 1 := by
  rw [lineOf_eq_length, length_takeWhile_lines, length_takeWhile_lineStarts]

theorem lineOf_eq_lineNumber (offset : Nat) :
    f.lineOf offset = lineNumber (lineStarts f.bytes) offset := by
  rw [lineOf_eq_length, length_takeWhile_lines,
    lineNumber_eq_length_takeWhile (pairwise_lineStarts _) offset rfl]

end SourceFile

end SchemaBindings
