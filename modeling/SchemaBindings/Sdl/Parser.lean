import SchemaBindings.Sdl.Cursor

namespace SchemaBindings.Sdl

/-- A step that reads a value and moves the cursor forward, or leaves it where it is, and loses no
fault. -/
structure Parser (α : Type) where
  run : Cursor → α × Cursor
  forward : ∀ c, (run c).2.upcoming <:+ c.upcoming
  accounts : ∀ c, c.faultCount ≤ (run c).2.faultCount

namespace Parser

variable {α β : Type}

instance : Monad Parser where
  pure a := ⟨fun c => (a, c), fun _ => List.suffix_rfl, fun _ => Nat.le_refl _⟩
  bind p f :=
    ⟨fun c => (f (p.run c).1).run (p.run c).2,
      fun c => ((f (p.run c).1).forward _).trans (p.forward c),
      fun c => Nat.le_trans (p.accounts c) ((f (p.run c).1).accounts _)⟩

def look (f : Cursor → α) : Parser α :=
  ⟨fun c => (f c, c), fun _ => List.suffix_rfl, fun _ => Nat.le_refl _⟩

def report (d : Diagnostic) : Parser Unit :=
  ⟨fun c => ((), c.report d), fun _ => List.suffix_rfl,
    fun c => c.faultCount_report d ▸ Nat.le_succ _⟩

def advance : Parser Unit :=
  ⟨fun c => ((), c.advance), Cursor.upcoming_advance_suffix,
    fun c => Nat.le_of_eq c.faultCount_advance.symm⟩

def kind : Parser TokenKind :=
  look Cursor.kind

def offset : Parser Nat :=
  look (·.span.start)

def spanFrom (start : Nat) : Parser Span :=
  look fun c => ⟨start, max c.consumedTo start⟩

def unexpected (message : String) : Parser Unit :=
  ⟨fun c =>
    ((), c.report (.labelled .invalidSyntax message c.span (message ++ ", found " ++ c.found))),
    fun _ => List.suffix_rfl, fun c => c.faultCount_report _ ▸ Nat.le_succ _⟩

def eat (k : TokenKind) : Parser Bool := do
  if (← kind) = k then
    advance
    return true
  else return false

def expect (k : TokenKind) : Parser Unit := do
  unless ← eat k do
    let (span, found) ← look fun c => (c.span, c.found)
    report (.labelled .unexpectedToken "unexpected token" span
      ("expected `" ++ k.display ++ "`, found " ++ found))

def collectUpTo (item : Parser (Option α)) : Nat → Parser (List α)
  | 0 => pure []
  | n + 1 => do
    match ← item with
    | some a => return a :: (← collectUpTo item n)
    | none => return []

/-- Collects what `item` yields until it yields nothing. An item takes at least one token, so there
are not more items than tokens. -/
def collect (item : Parser (Option α)) : Parser (List α) :=
  ⟨fun c => (collectUpTo item (c.upcoming.length + 1)).run c,
    fun c => (collectUpTo item (c.upcoming.length + 1)).forward c,
    fun c => (collectUpTo item (c.upcoming.length + 1)).accounts c⟩

/-- Runs `p` and passes over a token if `p` took none. -/
def progress (p : Parser α) : Parser α := do
  let before ← look (·.upcoming.length)
  let a ← p
  if (← look (·.upcoming.length)) = before then advance
  return a

def many (more : TokenKind → Bool) (item : Parser α) : Parser (List α) :=
  collect do
    if (← look Cursor.atEnd) || !more (← kind) then return none
    else return some (← item.progress)

def later (p : Unit → Parser α) : Parser α :=
  ⟨fun c => (p ()).run c, fun c => (p ()).forward c, fun c => (p ()).accounts c⟩

/-- The parser that results from putting `step` into itself `n` times. -/
def unfoldUpTo [Inhabited α] (step : Parser α → Parser α) : Nat → Parser α
  | 0 => pure default
  | n + 1 => step (later fun _ => unfoldUpTo step n)

/-- A parser that contains itself. `step` may use its argument only after it has taken a token, so
the tokens that are left bound the nesting. -/
def nested [Inhabited α] (step : Parser α → Parser α) : Parser α :=
  ⟨fun c => (unfoldUpTo step (c.upcoming.length + 1)).run c,
    fun c => (unfoldUpTo step (c.upcoming.length + 1)).forward c,
    fun c => (unfoldUpTo step (c.upcoming.length + 1)).accounts c⟩

end Parser

end SchemaBindings.Sdl
