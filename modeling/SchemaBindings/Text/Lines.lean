import SchemaBindings.Text.Blank

namespace SchemaBindings.Text

/-- The pieces of a text between the characters that satisfy `p`. There is always one. -/
def splitAt (p : Char → Bool) : List Char → List (List Char)
  | [] => [[]]
  | c :: cs =>
    if p c then [] :: splitAt p cs
    else match splitAt p cs with
      | [] => [[c]]
      | piece :: pieces => (c :: piece) :: pieces

def splitLines (cs : List Char) : List (List Char) :=
  splitAt (· == '\n') cs

def dropFinalReturn (cs : List Char) : List Char :=
  if cs.getLast? = some '\r' then cs.dropLast else cs

/-- The lines of a text. A line ends with a line feed or with the text, and a carriage return before
the line feed belongs to the line end. -/
def paragraphs (cs : List Char) : List (List Char) :=
  let pieces := splitLines cs
  let ended := pieces.dropLast.map dropFinalReturn
  match pieces.getLast? with
  | none | some [] => ended
  | some last => ended ++ [last]

def joinLines (lines : List (List Char)) : List Char :=
  ['\n'].intercalate lines

theorem splitAt_ne_nil (p : Char → Bool) (cs : List Char) : splitAt p cs ≠ [] := by
  cases cs with
  | nil => simp [splitAt]
  | cons c cs =>
    rw [splitAt]
    split
    · simp
    · split <;> simp

theorem splitAt_cons_of_neg {p : Char → Bool} {c : Char} (h : ¬ p c) (cs : List Char) :
    ∃ piece pieces, splitAt p cs = piece :: pieces ∧
      splitAt p (c :: cs) = (c :: piece) :: pieces := by
  cases hs : splitAt p cs with
  | nil => exact absurd hs (splitAt_ne_nil p cs)
  | cons piece pieces => exact ⟨piece, pieces, rfl, by simp [splitAt, h, hs]⟩

theorem not_mem_of_mem_splitAt {p : Char → Bool} {cs piece : List Char}
    (h : piece ∈ splitAt p cs) : ∀ c ∈ piece, ¬ p c := by
  induction cs generalizing piece with
  | nil => simp_all [splitAt]
  | cons d cs ih =>
    by_cases hd : p d
    · rw [splitAt, if_pos hd, List.mem_cons] at h
      rcases h with rfl | h
      · simp
      · exact ih h
    · obtain ⟨first, others, hs, hc⟩ := splitAt_cons_of_neg hd cs
      rw [hc, List.mem_cons] at h
      rcases h with rfl | h
      · intro c hcm
        rcases List.mem_cons.mp hcm with rfl | hcm
        · exact hd
        · exact ih (by simp [hs]) c hcm
      · exact ih (by simp [hs, h])

theorem joinLines_splitLines (cs : List Char) : joinLines (splitLines cs) = cs := by
  unfold splitLines
  induction cs with
  | nil => rfl
  | cons c cs ih =>
    by_cases hc : c == '\n'
    · rw [splitAt, if_pos hc]
      obtain rfl : c = '\n' := by simpa using hc
      cases hs : splitAt (· == '\n') cs with
      | nil => exact absurd hs (splitAt_ne_nil _ cs)
      | cons piece pieces => rw [hs] at ih; simpa [joinLines, List.intercalate] using ih
    · obtain ⟨first, others, hs, hcons⟩ := splitAt_cons_of_neg (p := (· == '\n')) hc cs
      rw [hs] at ih
      rw [hcons]
      cases others with
      | nil => simpa [joinLines, List.intercalate] using ih
      | cons second others => simpa [joinLines, List.intercalate] using ih

end SchemaBindings.Text
