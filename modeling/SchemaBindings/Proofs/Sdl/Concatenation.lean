import SchemaBindings.Proofs.Sdl.Sentence

namespace SchemaBindings.Sdl.Sentence

variable {α β : Type}

/-- The relation holds of tokens in a row if it holds of their parts, and single tokens add
nothing. -/
structure Concatenates (R : List Token → List β → Prop) : Prop where
  nil : R [] []
  token (t : Token) : R [t] []
  append {ts us : List Token} {bs cs : List β} (h : R ts bs) (h' : R us cs) :
    R (ts ++ us) (bs ++ cs)

/-- The relation holds between the tokens of a tree and what the tree has to list. -/
def Lists (R : List Token → List β → Prop) (G : Phrase α) (items : α → List β) : Prop :=
  ∀ ⦃ts a⦄, G ts a → R ts (items a)

namespace Concatenates

variable {R : List Token → List β → Prop} (hR : Concatenates R)

include hR

theorem tokens (ts : List Token) : R ts [] := by
  induction ts with
  | nil => exact hR.nil
  | cons t ts ih => exact hR.append (hR.token t) ih

theorem behind (ts : List Token) {us : List Token} {bs : List β} (h : R us bs) :
    R (ts ++ us) bs :=
  hR.append (hR.tokens ts) h

theorem before {ts : List Token} {bs : List β} (h : R ts bs) (us : List Token) :
    R (ts ++ us) bs :=
  bs.append_nil ▸ hR.append h (hR.tokens us)

variable {G : Phrase α} {items : α → List β} (h : Lists R G items)

include h

theorem many : Lists R (Many G) (·.flatMap items) := by
  intro ts as hs
  induction hs with
  | nil => exact hR.nil
  | cons ha _ ih => exact hR.append (h ha) ih

theorem optional : Lists R (Optional G) (·.toList.flatMap items) := by
  intro ts o ho
  cases ho with
  | absent => exact hR.nil
  | present ha =>
    simpa using h ha

theorem bracketed {opening closing : Punctuator} :
    Lists R (Bracketed opening closing G) (·.flatMap items) := by
  intro ts as hs
  obtain ⟨-, hm, -⟩ := hs
  exact hR.before (hR.behind _ (hR.many h hm)) _

theorem enclosed {opening closing : Punctuator} :
    Lists R (Enclosed opening closing G) (·.flatMap items) := by
  intro ts as hs
  cases hs with
  | absent => exact hR.nil
  | present hs => exact hR.bracketed h hs

theorem preceded {k : TokenKind} : Lists R (Preceded k G) items := by
  intro ts a ha
  obtain ⟨-, ha⟩ := ha
  exact hR.behind _ (h ha)

theorem separated {mark : Punctuator} : Lists R (Separated mark G) (·.flatMap items) := by
  intro ts as hs
  obtain ⟨-, ⟨ha, hs⟩⟩ := hs
  exact hR.behind _ (hR.append (h ha) (hR.many (hR.preceded h) hs))

end Concatenates

end SchemaBindings.Sdl.Sentence
