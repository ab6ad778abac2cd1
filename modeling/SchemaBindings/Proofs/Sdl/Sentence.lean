import SchemaBindings.Sdl.Grammar
import Mathlib.Data.Nat.Digits.Defs

namespace SchemaBindings.Sdl

/-- Which tokens spell which tree. -/
abbrev Phrase (α : Type) :=
  List Token → α → Prop

namespace Sentence

variable {α : Type}

def covered (ts : List Token) : Span :=
  match ts.head?, ts.getLast? with
  | some first, some last => ⟨first.span.start, last.span.stop⟩
  | _, _ => .empty 0

inductive Many (G : Phrase α) : Phrase (List α)
  | nil : Many G [] []
  | cons {ts us : List Token} {a : α} {as : List α} (h : G ts a) (hs : Many G us as) :
      Many G (ts ++ us) (a :: as)

inductive Optional (G : Phrase α) : Phrase (Option α)
  | absent : Optional G [] none
  | present {ts : List Token} {a : α} (h : G ts a) : Optional G ts (some a)

/-- A token that may be left out. -/
inductive Flag (k : TokenKind) : Phrase Bool
  | absent : Flag k [] false
  | present {t : Token} (h : t.kind = k) : Flag k [t] true

/-- Items between two marks. -/
inductive Bracketed (opening closing : Punctuator) (G : Phrase α) : Phrase (List α)
  | mk {o c : Token} {ts : List Token} {as : List α} (ho : o.kind = .punctuator opening)
      (h : Many G ts as) (hc : c.kind = .punctuator closing) :
      Bracketed opening closing G ([o] ++ ts ++ [c]) as

/-- Items between two marks, or nothing at all. -/
inductive Enclosed (opening closing : Punctuator) (G : Phrase α) : Phrase (List α)
  | absent : Enclosed opening closing G [] []
  | present {ts : List Token} {as : List α} (h : Bracketed opening closing G ts as) :
      Enclosed opening closing G ts as

inductive Preceded (k : TokenKind) (G : Phrase α) : Phrase α
  | mk {t : Token} {ts : List Token} {a : α} (hk : t.kind = k) (h : G ts a) :
      Preceded k G ([t] ++ ts) a

inductive Joined (mark : Punctuator) (G : Phrase α) : Phrase (List α)
  | mk {ts us : List Token} {a : α} {as : List α} (h : G ts a)
      (hs : Many (Preceded (.punctuator mark) G) us as) : Joined mark G (ts ++ us) (a :: as)

/-- At least one item, with a mark between each two and perhaps before the first. -/
inductive Separated (mark : Punctuator) (G : Phrase α) : Phrase (List α)
  | mk {ts us : List Token} {b : Bool} {as : List α} (hl : Flag (.punctuator mark) ts b)
      (h : Joined mark G us as) : Separated mark G (ts ++ us) as

inductive IsName : Phrase Name
  | mk {t : Token} (h : t.kind.isName) : IsName [t] ⟨.ofList t.text, t.span⟩

inductive IsDescription : Phrase Description
  | string {t : Token} (h : t.kind = .string) :
      IsDescription [t] ⟨.ofList (stringValue t.text), t.span⟩
  | block {t : Token} (h : t.kind = .blockString) :
      IsDescription [t] ⟨.ofList (blockStringValue t.text), t.span⟩

inductive Entry (G : Phrase α) : Phrase (Name × α)
  | mk {tn tv : List Token} {c : Token} {n : Name} {v : α} (hn : IsName tn n)
      (hc : c.kind = .punctuator .colon) (hv : G tv v) : Entry G (tn ++ [c] ++ tv) (n, v)

mutual

/-- A type with at most one mark that it admits no null. -/
inductive IsTypeRef : Phrase TypeRef
  | nullable {ts : List Token} {t : TypeRef} (h : IsNullable ts t) : IsTypeRef ts t
  | nonNull {ts : List Token} {b : Token} {t : TypeRef} (h : IsNullable ts t)
      (hb : b.kind = .punctuator .bang) : IsTypeRef (ts ++ [b]) (.nonNull t (covered (ts ++ [b])))

/-- A name or a type between brackets. -/
inductive IsNullable : Phrase TypeRef
  | named {ts : List Token} {n : Name} (h : IsName ts n) : IsNullable ts (.named n.text n.span)
  | list {o c : Token} {ts : List Token} {t : TypeRef} (ho : o.kind = .punctuator .bracketOpen)
      (h : IsTypeRef ts t) (hc : c.kind = .punctuator .bracketClose) :
      IsNullable ([o] ++ ts ++ [c]) (.list t (covered ([o] ++ ts ++ [c])))

end

def numeral (ds : List Char) : Nat :=
  Nat.ofDigits 10 (ds.reverse.map fun d ↦ d.toNat - '0'.toNat)

/-- The number that decimal digits with an optional minus sign denote. -/
inductive Denotes : List Char → Int → Prop
  | nonneg {ds : List Char} (hne : ds ≠ []) (hd : ∀ d ∈ ds, d.isDigit) : Denotes ds (numeral ds)
  | neg {ds : List Char} (hne : ds ≠ []) (hd : ∀ d ∈ ds, d.isDigit) :
      Denotes ('-' :: ds) (-numeral ds)

/-- A value. Variables are values only where a value need not be constant. -/
inductive IsValue (constant : Bool) : Phrase Value
  | variableRef {d : Token} {tn : List Token} {n : Name} (hc : constant = false)
      (hd : d.kind = .punctuator .dollar) (hn : IsName tn n) :
      IsValue constant ([d] ++ tn) (.variableRef n)
  | int {t : Token} {n : Int} (h : t.kind = .int) (hn : Denotes t.text n)
      (hw : -2 ^ 63 ≤ n ∧ n < 2 ^ 63) : IsValue constant [t] (.int n t.span)
  | float {t : Token} (h : t.kind = .float) :
      IsValue constant [t] (.float ((Double.parse? t.text).getD (.zero false)) t.span)
  | string {t : Token} (h : t.kind = .string) :
      IsValue constant [t] (.string (.ofList (stringValue t.text)) t.span)
  | blockString {t : Token} (h : t.kind = .blockString) :
      IsValue constant [t] (.string (.ofList (blockStringValue t.text)) t.span)
  | true {t : Token} (h : t.kind = .keyword .trueValue) :
      IsValue constant [t] (.boolean true t.span)
  | false {t : Token} (h : t.kind = .keyword .falseValue) :
      IsValue constant [t] (.boolean false t.span)
  | null {t : Token} (h : t.kind = .keyword .nullValue) : IsValue constant [t] (.null t.span)
  | enum {t : Token} {n : Name} (hn : IsName [t] n)
      (hk : t.kind ∉ [.keyword .trueValue, .keyword .falseValue, .keyword .nullValue]) :
      IsValue constant [t] (.enum n)
  | list {ts : List Token} {vs : List Value}
      (h : Bracketed .bracketOpen .bracketClose (IsValue constant) ts vs) :
      IsValue constant ts (.list vs (covered ts))
  | object {ts : List Token} {fs : List (Name × Value)}
      (h : Bracketed .braceOpen .braceClose (Entry (IsValue constant)) ts fs) :
      IsValue constant ts (.object fs (covered ts))

inductive IsArgument : Phrase Argument
  | mk {ts : List Token} {n : Name} {v : Value} (h : Entry (IsValue false) ts (n, v)) :
      IsArgument ts ⟨n, v, covered ts⟩

inductive IsDirective : Phrase Directive
  | mk {a : Token} {tn ta : List Token} {n : Name} {as : List Argument}
      (ha : a.kind = .punctuator .at) (hn : IsName tn n)
      (has : Enclosed .parenOpen .parenClose IsArgument ta as) :
      IsDirective ([a] ++ tn ++ ta) ⟨n, as, covered ([a] ++ tn ++ ta)⟩

/-- An argument or an input field. Its description is no part of its span. -/
inductive IsInputValue : Phrase InputValueDefinition
  | mk {td te tv ts : List Token} {d : Option Description} {n : Name} {t : TypeRef}
      {v : Option Value} {ds : List Directive} (hd : Optional IsDescription td d)
      (he : Entry IsTypeRef te (n, t))
      (hv : Optional (Preceded (.punctuator .equals) (IsValue true)) tv v)
      (hds : Many IsDirective ts ds) :
      IsInputValue (td ++ (te ++ tv ++ ts)) ⟨d, n, t, v, ds, covered (te ++ tv ++ ts)⟩

inductive IsField : Phrase FieldDefinition
  | mk {td tn ta tt ts : List Token} {d : Option Description} {n : Name}
      {as : List InputValueDefinition} {t : TypeRef} {ds : List Directive}
      (hd : Optional IsDescription td d) (hn : IsName tn n)
      (has : Enclosed .parenOpen .parenClose IsInputValue ta as)
      (ht : Preceded (.punctuator .colon) IsTypeRef tt t) (hds : Many IsDirective ts ds) :
      IsField (td ++ (tn ++ ta ++ tt ++ ts)) ⟨d, n, as, t, ds, covered (tn ++ ta ++ tt ++ ts)⟩

inductive IsEnumValue : Phrase EnumValueDefinition
  | mk {td ts : List Token} {t : Token} {d : Option Description} {n : Name} {ds : List Directive}
      (hd : Optional IsDescription td d) (hn : IsName [t] n)
      (hk : t.kind ∉ [.keyword .trueValue, .keyword .falseValue, .keyword .nullValue])
      (hds : Many IsDirective ts ds) :
      IsEnumValue (td ++ ([t] ++ ts)) ⟨d, n, ds, covered ([t] ++ ts)⟩

inductive NamesBehind (k : TokenKind) (mark : Punctuator) : Phrase (List Name)
  | absent : NamesBehind k mark [] []
  | present {ts : List Token} {ns : List Name} (h : Preceded k (Separated mark IsName) ts ns) :
      NamesBehind k mark ts ns

abbrev IsImplements : Phrase (List Name) :=
  NamesBehind (.keyword .implements) .ampersand

abbrev IsMembers : Phrase (List Name) :=
  NamesBehind (.punctuator .equals) .pipe

inductive Braced (G : Phrase α) (body : List α → TypeBody) : Phrase (List Directive × TypeBody)
  | mk {td ta : List Token} {ds : List Directive} {as : List α} (hd : Many IsDirective td ds)
      (ha : Enclosed .braceOpen .braceClose G ta as) : Braced G body (td ++ ta) (ds, body as)

inductive IsTypeBody : Keyword → Phrase (List Directive × TypeBody)
  | object {ti tb : List Token} {is : List Name} {b : List Directive × TypeBody}
      (hi : IsImplements ti is) (hb : Braced IsField (.object is) tb b) :
      IsTypeBody .type (ti ++ tb) b
  | interface {ti tb : List Token} {is : List Name} {b : List Directive × TypeBody}
      (hi : IsImplements ti is) (hb : Braced IsField (.interface is) tb b) :
      IsTypeBody .interface (ti ++ tb) b
  | union {td tm : List Token} {ds : List Directive} {ms : List Name}
      (hd : Many IsDirective td ds) (hm : IsMembers tm ms) :
      IsTypeBody .union (td ++ tm) (ds, .union ms)
  | enum {tb : List Token} {b : List Directive × TypeBody} (hb : Braced IsEnumValue .enum tb b) :
      IsTypeBody .enum tb b
  | input {tb : List Token} {b : List Directive × TypeBody} (hb : Braced IsInputValue .input tb b) :
      IsTypeBody .input tb b
  | scalar {td : List Token} {ds : List Directive} (hd : Many IsDirective td ds) :
      IsTypeBody .scalar td (ds, .scalar)

inductive IsTypeDefinition (d : Option Description) : Phrase TypeDefinition
  | mk {t : Token} {k : Keyword} {tn tb : List Token} {n : Name} {ds : List Directive}
      {body : TypeBody} (hk : t.kind = .keyword k) (hn : IsName tn n)
      (hb : IsTypeBody k tb (ds, body)) :
      IsTypeDefinition d ([t] ++ tn ++ tb) ⟨d, n, ds, body, covered ([t] ++ tn ++ tb)⟩

def keywordOf : OperationKind → Keyword
  | .query => .query
  | .mutation => .mutation
  | .subscription => .subscription

inductive IsOperationType : Phrase OperationType
  | mk {t c : Token} {tn : List Token} {o : OperationKind} {n : Name}
      (hk : t.kind = .keyword (keywordOf o)) (hc : c.kind = .punctuator .colon)
      (hn : IsName tn n) : IsOperationType ([t] ++ [c] ++ tn) ⟨o, n, covered ([t] ++ [c] ++ tn)⟩

inductive IsSchema (d : Option Description) : Phrase SchemaDefinition
  | mk {t : Token} {td tp : List Token} {ds : List Directive} {os : List OperationType}
      (hk : t.kind = .keyword .schema) (hd : Many IsDirective td ds)
      (ho : Enclosed .braceOpen .braceClose IsOperationType tp os) :
      IsSchema d ([t] ++ td ++ tp) ⟨d, ds, os, covered ([t] ++ td ++ tp)⟩

inductive IsLocation : Phrase DirectiveLocation
  | mk {t : Token} {l : DirectiveLocation} (h : t.text = l.text.toList) : IsLocation [t] l

inductive IsDirectiveDefinition (d : Option Description) : Phrase DirectiveDefinition
  | mk {t a o : Token} {tn ta tr tl : List Token} {n : Name} {as : List InputValueDefinition}
      {r : Bool} {ls : List DirectiveLocation} (ht : t.kind = .keyword .directive)
      (ha : a.kind = .punctuator .at) (hn : IsName tn n)
      (has : Enclosed .parenOpen .parenClose IsInputValue ta as)
      (hr : Flag (.keyword .repeatable) tr r) (ho : o.kind = .keyword .on)
      (hl : Separated .pipe IsLocation tl ls) :
      IsDirectiveDefinition d ([t] ++ [a] ++ tn ++ ta ++ tr ++ [o] ++ tl)
        ⟨d, n, as, r, ls, covered ([t] ++ [a] ++ tn ++ ta ++ tr ++ [o] ++ tl)⟩

/-- An extension has no description. Its span starts at the word that opens it. -/
inductive IsExtension : Phrase Definition
  | schema {e : Token} {ts : List Token} {s : SchemaDefinition} (he : e.kind = .keyword .extend)
      (hs : IsSchema none ts s) :
      IsExtension ([e] ++ ts) (.schemaExtension { s with span := covered ([e] ++ ts) })
  | type {e : Token} {ts : List Token} {t : TypeDefinition} (he : e.kind = .keyword .extend)
      (ht : IsTypeDefinition none ts t) :
      IsExtension ([e] ++ ts) (.typeExtension { t with span := covered ([e] ++ ts) })

inductive IsDefinition : Phrase Definition
  | schema {td ts : List Token} {d : Option Description} {s : SchemaDefinition}
      (hd : Optional IsDescription td d) (hs : IsSchema d ts s) :
      IsDefinition (td ++ ts) (.schema s)
  | type {td ts : List Token} {d : Option Description} {t : TypeDefinition}
      (hd : Optional IsDescription td d) (ht : IsTypeDefinition d ts t) :
      IsDefinition (td ++ ts) (.type t)
  | directive {td ts : List Token} {d : Option Description} {x : DirectiveDefinition}
      (hd : Optional IsDescription td d) (hx : IsDirectiveDefinition d ts x) :
      IsDefinition (td ++ ts) (.directive x)
  | extension {ts : List Token} {x : Definition} (hx : IsExtension ts x) : IsDefinition ts x

/-- The definitions of a text up to the end of its input. -/
inductive IsDocument : Phrase Document
  | mk {ts : List Token} {e : Token} {ds : List Definition} (h : Many IsDefinition ts ds)
      (he : e.kind = .endOfInput) : IsDocument (ts ++ [e]) ⟨ds, covered (ts ++ [e])⟩

end Sentence

end SchemaBindings.Sdl
