import SchemaBindings.Sdl.Grammar
import Mathlib.Logic.Relation

namespace SchemaBindings

def Diagnostic.isLexical (d : Diagnostic) : Bool :=
  d.code == .unterminatedString || d.title == "invalid token"

namespace Sdl

namespace Cursor

inductive Step : Cursor → Cursor → Prop
  | advance (c : Cursor) : Step c c.advance
  | report (c : Cursor) (d : Diagnostic) (h : d.isLexical = false) : Step c (c.report d)

abbrev Moves : Cursor → Cursor → Prop :=
  Relation.ReflTransGen Step

end Cursor

/-- All that the parser does are steps of the cursor. -/
class Parser.Stepwise {α : Type} (p : Parser α) : Prop where
  moves (c : Cursor) : c.Moves (p.run c).2

namespace Parser

variable {α β : Type} {p q : Parser α}

section Combinators

instance stepwise_pure (a : α) : (pure a : Parser α).Stepwise :=
  ⟨fun _ ↦ .refl⟩

instance stepwise_look (f : Cursor → α) : (look f).Stepwise :=
  ⟨fun _ ↦ .refl⟩

instance : kind.Stepwise :=
  stepwise_look _

instance : offset.Stepwise :=
  stepwise_look _

instance (start : Nat) : (spanFrom start).Stepwise :=
  stepwise_look _

instance : advance.Stepwise :=
  ⟨fun c ↦ .single (.advance c)⟩

theorem stepwise_report {d : Diagnostic} (h : d.isLexical = false) : (report d).Stepwise :=
  ⟨fun c ↦ .single (.report c d h)⟩

theorem stepwise_unexpected (message : String) (h : message ≠ "invalid token") :
    (unexpected message).Stepwise := by
  constructor
  intro c
  apply Relation.ReflTransGen.single
  apply Cursor.Step.report
  simpa [Diagnostic.isLexical, Diagnostic.labelled] using h

theorem Stepwise.bind [hp : p.Stepwise] {f : α → Parser β} (hf : ∀ a, (f a).Stepwise) :
    (p >>= f).Stepwise :=
  ⟨fun c ↦ (hp.moves c).trans ((hf _).moves _)⟩

instance [p.Stepwise] {f : α → Parser β} [hf : ∀ a, (f a).Stepwise] : (p >>= f).Stepwise :=
  .bind hf

instance [p.Stepwise] (f : α → β) : (f <$> p).Stepwise :=
  .bind fun a ↦ stepwise_pure (f a)

instance [hp : p.Stepwise] [hq : q.Stepwise] {P : Prop} [Decidable P] :
    (if P then p else q).Stepwise := by
  split
  · exact hp
  · exact hq

instance (k : TokenKind) : (eat k).Stepwise := by
  unfold eat
  infer_instance

instance (k : TokenKind) : (expect k).Stepwise := by
  unfold expect
  have hreport (span : Span) (text : String) :
      (report (.labelled .unexpectedToken "unexpected token" span text)).Stepwise :=
    stepwise_report rfl
  infer_instance

instance [p.Stepwise] : p.progress.Stepwise := by
  unfold Parser.progress
  infer_instance

end Combinators

section Loops

theorem stepwise_collectUpTo (item : Parser (Option α)) [item.Stepwise] (n : Nat) :
    (item.collectUpTo n).Stepwise := by
  induction n with
  | zero => exact stepwise_pure []
  | succ n ih =>
    apply Stepwise.bind
    intro found
    cases found <;> infer_instance

instance (item : Parser (Option α)) [item.Stepwise] : item.collect.Stepwise :=
  ⟨fun c ↦ (stepwise_collectUpTo item (c.upcoming.length + 1)).moves c⟩

instance (more : TokenKind → Bool) [p.Stepwise] : (many more p).Stepwise := by
  unfold many
  infer_instance

theorem stepwise_unfoldUpTo [Inhabited α] {step : Parser α → Parser α}
    (h : ∀ inner : Parser α, inner.Stepwise → (step inner).Stepwise) (n : Nat) :
    (unfoldUpTo step n).Stepwise := by
  induction n with
  | zero => exact stepwise_pure default
  | succ n ih => exact h _ ⟨ih.moves⟩

theorem stepwise_nested [Inhabited α] {step : Parser α → Parser α}
    (h : ∀ inner : Parser α, inner.Stepwise → (step inner).Stepwise) : (nested step).Stepwise :=
  ⟨fun c ↦ (stepwise_unfoldUpTo h (c.upcoming.length + 1)).moves c⟩

end Loops

end Parser

namespace Grammar

open SchemaBindings.Sdl.Parser

variable {α : Type}

instance : word.Stepwise :=
  stepwise_look _

instance : name.Stepwise := by
  have := stepwise_unexpected "expected name" (by decide)
  dsimp only [name]
  infer_instance

instance : description?.Stepwise := by
  apply Stepwise.bind
  intro kind
  dsimp only
  split <;> infer_instance

instance (opening closing : Punctuator) (items : Parser (List α)) [items.Stepwise] :
    (enclosed opening closing items).Stepwise := by
  dsimp only [enclosed]
  infer_instance

instance (closing : Punctuator) (item : Parser α) [item.Stepwise] :
    (upTo closing item).Stepwise := by
  dsimp only [upTo]
  infer_instance

instance (separator : Punctuator) : (separatedNames separator).Stepwise := by
  dsimp only [separatedNames]
  infer_instance

instance : typeRef.Stepwise := by
  apply stepwise_nested
  intro inner hinner
  dsimp only [typeRefStep]
  apply Stepwise.bind
  intro start
  apply Stepwise.bind
  intro bracket
  split <;> infer_instance

instance (constant : Bool) : (value constant).Stepwise := by
  have hvalue := stepwise_unexpected "expected value" (by decide)
  have hrange := stepwise_unexpected "integer literal out of range" (by decide)
  have hvariable (span : Span) : (report (.labelled .invalidSyntax "unexpected variable" span
      "default values must be constant")).Stepwise := stepwise_report rfl
  apply stepwise_nested
  intro inner hinner
  apply Stepwise.bind
  intro start
  apply Stepwise.bind
  intro kind
  dsimp only
  split <;> infer_instance

instance : argument.Stepwise := by
  dsimp only [argument]
  infer_instance

instance : directive.Stepwise := by
  dsimp only [directive]
  infer_instance

instance : directives.Stepwise := by
  dsimp only [directives]
  infer_instance

instance : inputValue.Stepwise := by
  dsimp only [inputValue]
  infer_instance

instance : arguments.Stepwise := by
  dsimp only [arguments]
  infer_instance

instance : field.Stepwise := by
  dsimp only [field]
  infer_instance

instance : fields.Stepwise := by
  dsimp only [fields]
  infer_instance

instance : enumValue.Stepwise := by
  have := stepwise_unexpected "enum values cannot be `true`, `false` or `null`"
    (by decide)
  dsimp only [enumValue]
  infer_instance

instance : implements.Stepwise := by
  dsimp only [implements]
  infer_instance

instance (d : Option Description) (body : Parser (List Directive × TypeBody)) [body.Stepwise] :
    (typeRest d body).Stepwise := by
  dsimp only [typeRest]
  infer_instance

instance (d : Option Description) : (typeDefinition? d).Stepwise := by
  apply Stepwise.bind
  intro kind
  dsimp only [objectBody, interfaceBody, unionBody, enumBody, inputBody, scalarBody]
  split <;> infer_instance

instance : operationType?.Stepwise := by
  have := stepwise_unexpected "expected operation type" (by decide)
  apply Stepwise.bind
  intro start
  apply Stepwise.bind
  intro kind
  split <;> infer_instance

instance (d : Option Description) : (schema d).Stepwise := by
  dsimp only [schema]
  infer_instance

instance : location?.Stepwise := by
  have := stepwise_unexpected "expected directive location" (by decide)
  apply Stepwise.bind
  intro word
  split <;> infer_instance

instance : locations.Stepwise := by
  apply Stepwise.bind
  intro _
  apply Stepwise.bind
  intro first
  split <;> infer_instance

instance (d : Option Description) : (directiveDefinition d).Stepwise := by
  dsimp only [directiveDefinition]
  infer_instance

instance : extension?.Stepwise := by
  have := stepwise_unexpected "expected a type kind after `extend`" (by decide)
  apply Stepwise.bind
  intro start
  apply Stepwise.bind
  intro _
  apply Stepwise.bind
  intro kind
  split
  · infer_instance
  · apply Stepwise.bind
    intro found
    split <;> infer_instance

instance : definition?.Stepwise := by
  have := stepwise_unexpected "expected a type system definition" (by decide)
  have hextension (span : Span) : (report (.labelled .invalidSyntax "unexpected description" span
      "extensions cannot carry a description")).Stepwise := stepwise_report rfl
  apply Stepwise.bind
  intro description
  apply Stepwise.bind
  intro kind
  dsimp only
  split
  · infer_instance
  · infer_instance
  · split <;> infer_instance
  · apply Stepwise.bind
    intro found
    split <;> infer_instance

instance : definitionOrSkip.Stepwise := by
  apply Stepwise.bind
  intro found
  split <;> infer_instance

instance stepwise_document : document.Stepwise := by
  dsimp only [document]
  infer_instance

end Grammar

end Sdl

end SchemaBindings
