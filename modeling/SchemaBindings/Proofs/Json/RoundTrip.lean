import SchemaBindings.Proofs.Json.Scalars

namespace SchemaBindings.Json

mutual

/-- A value without decimals, of which all whole numbers have a place in JSON. -/
def IsPlain : Json → Prop
  | .int n => -(maxNegative : Int) ≤ n ∧ n ≤ maxUnsigned
  | .float _ => False
  | .array items => ArePlain items
  | .object members => HavePlain members
  | _ => True

def ArePlain : List Json → Prop
  | [] => True
  | item :: items => item.IsPlain ∧ ArePlain items

def HavePlain : List (String × Json) → Prop
  | [] => True
  | (_, value) :: members => value.IsPlain ∧ HavePlain members

end

theorem arePlain_iff (items : List Json) : ArePlain items ↔ ∀ j ∈ items, j.IsPlain := by
  induction items with
  | nil => simp [ArePlain]
  | cons item items ih => simp [ArePlain, ih]

theorem havePlain_iff (members : List (String × Json)) :
    HavePlain members ↔ ∀ p ∈ members, p.2.IsPlain := by
  induction members with
  | nil => simp [HavePlain]
  | cons p members ih => simp [HavePlain, ih]

def AreBlank (cs : List Char) : Prop :=
  ∀ c ∈ cs, isBlankChar c = true

theorem skipBlanks_append {blanks : List Char} (h : AreBlank blanks) (cs : List Char) :
    skipBlanks (blanks ++ cs) = skipBlanks cs :=
  List.dropWhile_append_of_pos h

theorem skipBlanks_cons {c : Char} (h : isBlankChar c = false) (cs : List Char) :
    skipBlanks (c :: cs) = c :: cs := by
  rw [skipBlanks, List.dropWhile_cons_of_neg (by simp [h])]

theorem areBlank_freshLine (level : Nat) : AreBlank (freshLine level) := by
  intro c hc
  rcases List.mem_cons.mp hc with rfl | hc
  · rfl
  · rw [List.eq_of_mem_replicate hc]
    rfl

theorem areBlank_nil : AreBlank [] :=
  nofun

theorem areBlank_space : AreBlank [' '] := by
  intro c hc
  rw [List.mem_singleton.mp hc]
  rfl

theorem endsNumber_prettyItems (level : Nat) (items : List Json) (rest : List Char) :
    EndsNumber (prettyItems level items ++ rest) := by
  cases items with
  | nil => rintro c ⟨⟩; exact .inr rfl
  | cons item items => rintro c ⟨⟩; exact .inl rfl

theorem endsNumber_prettyMembers (level : Nat) (members : List (String × Json))
    (rest : List Char) : EndsNumber (prettyMembers level members ++ rest) := by
  cases members with
  | nil => rintro c ⟨⟩; exact .inr rfl
  | cons p members => rintro c ⟨⟩; exact .inl rfl

def ReadsValues (depth : Nat) : Prop :=
  ∀ (j : Json) (level : Nat) (blanks rest : List Char), j.IsPlain → AreBlank blanks →
    EndsNumber rest → (writePretty level j).length ≤ depth →
      readValue depth (blanks ++ (writePretty level j ++ rest)) = some (j, rest)

def ReadsItems (depth : Nat) : Prop :=
  ∀ (item : Json) (items : List Json) (level : Nat) (blanks rest : List Char), item.IsPlain →
    ArePlain items → AreBlank blanks →
    (writePretty (level + 1) item ++ prettyItems level items).length ≤ depth →
      readItems depth (blanks ++ (writePretty (level + 1) item ++
        (prettyItems level items ++ rest))) = some (item :: items, rest)

def ReadsMembers (depth : Nat) : Prop :=
  ∀ (key : String) (value : Json) (members : List (String × Json)) (level : Nat)
    (blanks rest : List Char), value.IsPlain → HavePlain members → AreBlank blanks →
    (writePretty (level + 1) value ++ prettyMembers level members).length ≤ depth →
      readMembers depth (blanks ++ (quoteText key ++ (':' :: ' ' ::
        (writePretty (level + 1) value ++ (prettyMembers level members ++ rest))))) =
          some ((key, value) :: members, rest)

theorem length_prettyItems_pos (level : Nat) (items : List Json) :
    0 < (prettyItems level items).length := by
  cases items <;> simp [prettyItems]

theorem length_prettyMembers_pos (level : Nat) (members : List (String × Json)) :
    0 < (prettyMembers level members).length := by
  cases members <;> simp [prettyMembers]

theorem readsItems_succ {depth : Nat} (hvalues : ReadsValues depth) (hitems : ReadsItems depth) :
    ReadsItems (depth + 1) := by
  intro item items level blanks rest hitem hplain hblanks hlength
  have hpos := length_prettyItems_pos level items
  rw [List.length_append] at hlength
  have hvalue := hvalues item (level + 1) blanks (prettyItems level items ++ rest) hitem hblanks
    (endsNumber_prettyItems level items rest) (by omega)
  rw [readItems, hvalue, Option.bind_eq_bind, Option.bind_some]
  cases items with
  | nil =>
    have hskip : skipBlanks (prettyItems level [] ++ rest) = ']' :: rest := by
      rw [prettyItems, List.append_assoc, skipBlanks_append (areBlank_freshLine level)]
      rfl
    simp only [hskip]
  | cons next items =>
    obtain ⟨hnext, hplain⟩ := hplain
    have hskip : skipBlanks (prettyItems level (next :: items) ++ rest) = ',' ::
        (freshLine (level + 1) ++ (writePretty (level + 1) next ++
          (prettyItems level items ++ rest))) := by
      rw [prettyItems, List.cons_append, skipBlanks_cons rfl]
      simp only [List.append_assoc]
    have hothers := hitems next items level (freshLine (level + 1)) rest hnext hplain
      (areBlank_freshLine _) (by simp [prettyItems] at hlength ⊢; omega)
    simp only [hskip, hothers]
    rfl

theorem quoteText_append (s : String) (rest : List Char) :
    quoteText s ++ rest = '"' :: (s.toList.flatMap escapeChar ++ '"' :: rest) := by
  simp [quoteText]

theorem skipBlanks_quoteText {blanks : List Char} (h : AreBlank blanks) (s : String)
    (rest : List Char) : skipBlanks (blanks ++ (quoteText s ++ rest)) =
      '"' :: (s.toList.flatMap escapeChar ++ '"' :: rest) := by
  rw [skipBlanks_append h, quoteText_append, skipBlanks_cons rfl]

theorem readsMembers_succ {depth : Nat} (hvalues : ReadsValues depth)
    (hmembers : ReadsMembers depth) : ReadsMembers (depth + 1) := by
  intro key value members level blanks rest hvalue hplain hblanks hlength
  have hpos := length_prettyMembers_pos level members
  rw [List.length_append] at hlength
  have hvalue := hvalues value (level + 1) [' '] (prettyMembers level members ++ rest) hvalue
    areBlank_space (endsNumber_prettyMembers level members rest) (by omega)
  rw [List.cons_append, List.nil_append] at hvalue
  rw [readMembers, skipBlanks_quoteText hblanks]
  have hcolon (cs : List Char) : skipBlanks (':' :: cs) = ':' :: cs := skipBlanks_cons rfl cs
  simp only [readString_quoteText, Option.bind_eq_bind, Option.bind_some, hcolon, hvalue]
  cases members with
  | nil =>
    have hskip : skipBlanks (prettyMembers level [] ++ rest) = '\x7d' :: rest := by
      rw [prettyMembers, List.append_assoc, skipBlanks_append (areBlank_freshLine level)]
      rfl
    simp only [hskip]
  | cons p members =>
    obtain ⟨next, value'⟩ := p
    obtain ⟨hnext, hplain⟩ := hplain
    have hskip : skipBlanks (prettyMembers level ((next, value') :: members) ++ rest) = ',' ::
        (freshLine (level + 1) ++ (quoteText next ++ (':' :: ' ' ::
          (writePretty (level + 1) value' ++ (prettyMembers level members ++ rest))))) := by
      rw [prettyMembers, List.cons_append, skipBlanks_cons rfl]
      simp only [List.append_assoc]
      rfl
    have hothers := hmembers next value' members level (freshLine (level + 1)) rest hnext hplain
      (areBlank_freshLine _) (by simp [prettyMembers] at hlength ⊢; omega)
    simp only [hskip, hothers]
    rfl

theorem StartsNumber.not_isBlankChar {c : Char} (h : StartsNumber c) : isBlankChar c = false := by
  simp only [isBlankChar, Bool.or_eq_false_iff, beq_eq_false_iff_ne]
  exact ⟨⟨⟨h.ne (by decide), h.ne (by decide)⟩, h.ne (by decide)⟩, h.ne (by decide)⟩

theorem readValue_number {depth : Nat} {c : Char} {cs : List Char} (h : StartsNumber c) :
    readValue (depth + 1) (c :: cs) = readNumber (c :: cs) := by
  rw [readValue, skipBlanks_cons h.not_isBlankChar]
  split
  case h_7 => rfl
  all_goals
    rename_i heq
    exact absurd (List.cons.inj heq).1 (h.ne (by decide))

theorem exists_writePretty_eq_cons (level : Nat) {j : Json} (h : j.IsPlain) :
    ∃ c cs, writePretty level j = c :: cs ∧ isBlankChar c = false ∧ c ≠ ']' := by
  cases j with
  | null => exact ⟨_, _, rfl, rfl, by decide⟩
  | bool b => cases b <;> exact ⟨_, _, rfl, rfl, by decide⟩
  | int n =>
    obtain ⟨c, cs, hcs, hc⟩ := exists_toString_eq_cons n
    exact ⟨c, cs, hcs, hc.not_isBlankChar, hc.ne (by decide)⟩
  | float x => exact h.elim
  | string s => exact ⟨_, _, rfl, rfl, by decide⟩
  | array items => cases items <;> exact ⟨_, _, rfl, rfl, by decide⟩
  | object members =>
    cases members with
    | nil => exact ⟨_, _, rfl, rfl, by decide⟩
    | cons p members => exact ⟨_, _, rfl, rfl, by decide⟩

theorem readsValues_succ {depth : Nat} (hitems : ReadsItems depth) (hmembers : ReadsMembers depth) :
    ReadsValues (depth + 1) := by
  intro j level blanks rest hplain hblanks hrest hlength
  have hskip : readValue (depth + 1) (blanks ++ (writePretty level j ++ rest)) =
      readValue (depth + 1) (writePretty level j ++ rest) := by
    rw [readValue, readValue, skipBlanks_append hblanks]
  rw [hskip]
  cases j with
  | null => rfl
  | bool b => cases b <;> rfl
  | int n =>
    obtain ⟨c, cs, hcs, hc⟩ := exists_toString_eq_cons n
    have hread := readNumber_toString hplain.1 hplain.2 hrest
    have htext : writePretty level (.int n) = (toString n).toList := rfl
    rw [htext]
    rw [hcs, List.cons_append] at hread ⊢
    rw [readValue_number hc, hread]
  | float x => exact hplain.elim
  | string s =>
    have htext : writePretty level (.string s) = quoteText s := rfl
    rw [htext, quoteText_append, readValue, skipBlanks_cons rfl]
    simp only [readString_quoteText]
    rfl
  | array items =>
    cases items with
    | nil => rfl
    | cons item items =>
      obtain ⟨hitem, hothers⟩ := hplain
      obtain ⟨c, cs, hcs, hc, hclose⟩ := exists_writePretty_eq_cons (level + 1) hitem
      have hread := hitems item items level [] rest hitem hothers areBlank_nil
        (by simp [writePretty] at hlength ⊢; omega)
      rw [List.nil_append, hcs, List.cons_append] at hread
      rw [writePretty, List.cons_append, readValue, skipBlanks_cons rfl]
      simp only [List.append_assoc, hcs, List.cons_append]
      rw [skipBlanks_append (areBlank_freshLine _), skipBlanks_cons hc]
      split
      · next heq => exact absurd (List.cons.inj heq).1 hclose
      · rw [hread]
        rfl
  | object members =>
    cases members with
    | nil => rfl
    | cons p members =>
      obtain ⟨key, value⟩ := p
      obtain ⟨hvalue, hothers⟩ := hplain
      have hread := hmembers key value members level [] rest hvalue hothers areBlank_nil
        (by simp [writePretty] at hlength ⊢; omega)
      rw [List.nil_append, quoteText_append] at hread
      rw [writePretty, List.cons_append, readValue, skipBlanks_cons rfl]
      simp only [List.append_assoc, skipBlanks_quoteText (areBlank_freshLine (level + 1))]
      exact congrArg (Option.map _) hread

theorem readsBack (depth : Nat) : ReadsValues depth ∧ ReadsItems depth ∧ ReadsMembers depth := by
  -- By induction on a bound of the length: what stands inside a value is shorter than its text.
  induction depth with
  | zero =>
    refine ⟨?_, ?_, ?_⟩
    · intro j level blanks rest hplain hblanks hrest hlength
      obtain ⟨c, cs, hcs, -⟩ := exists_writePretty_eq_cons level hplain
      simp [hcs] at hlength
    · intro item items level blanks rest hitem hplain hblanks hlength
      have hpos := length_prettyItems_pos level items
      simp only [List.length_append] at hlength
      omega
    · intro key value members level blanks rest hvalue hplain hblanks hlength
      have hpos := length_prettyMembers_pos level members
      simp only [List.length_append] at hlength
      omega
  | succ depth ih =>
    obtain ⟨hvalues, hitems, hmembers⟩ := ih
    exact ⟨readsValues_succ hitems hmembers, readsItems_succ hvalues hitems,
      readsMembers_succ hvalues hmembers⟩

/-- What is written over several lines is read back. -/
theorem parse?_pretty {j : Json} (h : j.IsPlain) : parse? (pretty j).toList = some j := by
  have hread := (readsBack (2 * (writePretty 0 j).length + 1)).1 j 0 [] [] h areBlank_nil nofun
    (by omega)
  rw [List.nil_append, List.append_nil] at hread
  rw [pretty, String.toList_ofList, parse?, hread]
  rfl

end SchemaBindings.Json
