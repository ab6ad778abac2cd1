import SchemaBindings.Proofs.Sdl.Joining
import SchemaBindings.Proofs.Sdl.Parsing

namespace SchemaBindings.Sdl

def Name.bare (n : Name) : Name :=
  ⟨n.text, .empty 0⟩

def Description.bare (d : Description) : Description :=
  ⟨d.value, .empty 0⟩

def TypeRef.bare : TypeRef → TypeRef
  | named n _ => named n (.empty 0)
  | list t _ => list t.bare (.empty 0)
  | nonNull t _ => nonNull t.bare (.empty 0)

mutual

def Value.bare : Value → Value
  | .variableRef name => .variableRef name.bare
  | .int n _ => .int n (.empty 0)
  | .float x _ => .float x (.empty 0)
  | .string s _ => .string s (.empty 0)
  | .boolean b _ => .boolean b (.empty 0)
  | .null _ => .null (.empty 0)
  | .enum name => .enum name.bare
  | .list items _ => .list (Value.bareItems items) (.empty 0)
  | .object fields _ => .object (Value.bareFields fields) (.empty 0)

def Value.bareItems : List Value → List Value
  | [] => []
  | item :: items => item.bare :: Value.bareItems items

def Value.bareFields : List (Name × Value) → List (Name × Value)
  | [] => []
  | (name, value) :: fields => (name.bare, value.bare) :: Value.bareFields fields

end

def Argument.bare (a : Argument) : Argument :=
  ⟨a.name.bare, a.value.bare, .empty 0⟩

def Directive.bare (d : Directive) : Directive :=
  ⟨d.name.bare, d.arguments.map Argument.bare, .empty 0⟩

def InputValueDefinition.bare (d : InputValueDefinition) : InputValueDefinition :=
  ⟨d.description.map Description.bare, d.name.bare, d.type.bare, d.defaultValue.map Value.bare,
    d.directives.map Directive.bare, .empty 0⟩

def FieldDefinition.bare (d : FieldDefinition) : FieldDefinition :=
  ⟨d.description.map Description.bare, d.name.bare, d.arguments.map InputValueDefinition.bare,
    d.type.bare, d.directives.map Directive.bare, .empty 0⟩

def EnumValueDefinition.bare (d : EnumValueDefinition) : EnumValueDefinition :=
  ⟨d.description.map Description.bare, d.name.bare, d.directives.map Directive.bare, .empty 0⟩

def TypeBody.bare : TypeBody → TypeBody
  | scalar => scalar
  | object implements fields =>
    object (implements.map Name.bare) (fields.map FieldDefinition.bare)
  | interface implements fields =>
    interface (implements.map Name.bare) (fields.map FieldDefinition.bare)
  | union members => union (members.map Name.bare)
  | enum values => enum (values.map EnumValueDefinition.bare)
  | input fields => input (fields.map InputValueDefinition.bare)

def TypeDefinition.bare (d : TypeDefinition) : TypeDefinition :=
  ⟨d.description.map Description.bare, d.name.bare, d.directives.map Directive.bare, d.body.bare,
    .empty 0⟩

def OperationType.bare (o : OperationType) : OperationType :=
  ⟨o.operation, o.typeName.bare, .empty 0⟩

def SchemaDefinition.bare (d : SchemaDefinition) : SchemaDefinition :=
  ⟨d.description.map Description.bare, d.directives.map Directive.bare,
    d.operations.map OperationType.bare, .empty 0⟩

def DirectiveDefinition.bare (d : DirectiveDefinition) : DirectiveDefinition :=
  ⟨d.description.map Description.bare, d.name.bare, d.arguments.map InputValueDefinition.bare,
    d.repeatable, d.locations, .empty 0⟩

def Definition.bare : Definition → Definition
  | schema d => schema d.bare
  | schemaExtension d => schemaExtension d.bare
  | type d => type d.bare
  | typeExtension d => typeExtension d.bare
  | directive d => directive d.bare

/-- The same tokens, but for where they stand. -/
def SameSigns (us ts : List Token) : Prop :=
  us.map Token.sign = ts.map Token.sign

namespace SameSigns

variable {us ts ts' : List Token} {t : Token}

theorem nil (h : SameSigns us []) : us = [] :=
  List.map_eq_nil_iff.mp h

theorem singleton (h : SameSigns us [t]) : ∃ u, us = [u] ∧ u.kind = t.kind ∧ u.text = t.text := by
  obtain ⟨u, rfl, hu⟩ := List.map_eq_singleton_iff.mp h
  obtain ⟨hk, ht⟩ := Prod.mk.inj hu
  exact ⟨u, rfl, hk, ht⟩

theorem append (h : SameSigns us (ts ++ ts')) :
    ∃ vs vs', us = vs ++ vs' ∧ SameSigns vs ts ∧ SameSigns vs' ts' := by
  rw [SameSigns, List.map_append] at h
  exact List.map_eq_append_iff.mp h

end SameSigns

namespace Sentence

variable {α β γ : Type} {G : Phrase α} {bare : α → β}

/-- What tokens spell is, but for its places, what the same tokens spell elsewhere. -/
def Movable (G : Phrase α) (bare : α → β) : Prop :=
  ∀ ⦃ts a⦄, G ts a → ∀ ⦃us⦄, SameSigns us ts → ∃ b, G us b ∧ bare b = bare a

theorem Movable.many (h : Movable G bare) : Movable (Many G) (List.map bare) := by
  intro ts as hs
  induction hs with
  | nil =>
    intro us hu
    obtain rfl := hu.nil
    exact ⟨[], .nil, rfl⟩
  | cons ha _ ih =>
    intro us hu
    obtain ⟨vs, ws, rfl, hv, hw⟩ := hu.append
    obtain ⟨b, hb, he⟩ := h ha hv
    obtain ⟨bs, hbs, hes⟩ := ih hw
    exact ⟨b :: bs, .cons hb hbs, by rw [List.map_cons, List.map_cons, he, hes]⟩

theorem Movable.optional (h : Movable G bare) : Movable (Optional G) (Option.map bare) := by
  intro ts a ha us hu
  cases ha with
  | absent =>
    obtain rfl := hu.nil
    exact ⟨none, .absent, rfl⟩
  | present ha =>
    obtain ⟨b, hb, he⟩ := h ha hu
    exact ⟨some b, .present hb, congrArg some he⟩

theorem movable_flag (k : TokenKind) : Movable (Flag k) id := by
  intro ts b hb us hu
  cases hb with
  | absent =>
    obtain rfl := hu.nil
    exact ⟨false, .absent, rfl⟩
  | present hk =>
    obtain ⟨u, rfl, hk', -⟩ := hu.singleton
    exact ⟨true, .present (hk'.trans hk), rfl⟩

theorem movable_bracketed {opening closing : Punctuator} {ts us : List Token} {as : List α}
    {bare : List α → β} (h : Bracketed opening closing G ts as)
    (hm : ∀ ⦃ts us⦄, Many G ts as → SameSigns us ts → ∃ bs, Many G us bs ∧ bare bs = bare as)
    (hu : SameSigns us ts) : ∃ bs, Bracketed opening closing G us bs ∧ bare bs = bare as := by
  obtain ⟨ho, has, hc⟩ := h
  obtain ⟨_, _, rfl, hu, hcs⟩ := hu.append
  obtain ⟨_, ws, rfl, hos, hw⟩ := hu.append
  obtain ⟨o, rfl, hok, -⟩ := hos.singleton
  obtain ⟨c, rfl, hck, -⟩ := hcs.singleton
  obtain ⟨bs, hbs, he⟩ := hm has hw
  exact ⟨bs, .mk (hok.trans ho) hbs (hck.trans hc), he⟩

theorem Movable.enclosed {opening closing : Punctuator} (h : Movable G bare) :
    Movable (Enclosed opening closing G) (List.map bare) := by
  intro ts as hs us hu
  cases hs with
  | absent =>
    obtain rfl := hu.nil
    exact ⟨[], .absent, rfl⟩
  | present hb =>
    obtain ⟨bs, hbs, he⟩ := movable_bracketed hb (fun _ _ hm hu ↦ h.many hm hu) hu
    exact ⟨bs, .present hbs, he⟩

theorem Movable.preceded {k : TokenKind} (h : Movable G bare) : Movable (Preceded k G) bare := by
  intro ts a ha us hu
  obtain ⟨hk, ha⟩ := ha
  obtain ⟨_, ws, rfl, ht, hw⟩ := hu.append
  obtain ⟨u, rfl, hk', -⟩ := ht.singleton
  obtain ⟨b, hb, he⟩ := h ha hw
  exact ⟨b, .mk (hk'.trans hk) hb, he⟩

theorem Movable.separated {mark : Punctuator} (h : Movable G bare) :
    Movable (Separated mark G) (List.map bare) := by
  intro ts as hs us hu
  obtain ⟨hl, ⟨ha, hs⟩⟩ := hs
  obtain ⟨vs, ws, rfl, hv, hw⟩ := hu.append
  obtain ⟨ws, xs, rfl, hw, hx⟩ := hw.append
  obtain ⟨b, hflag, -⟩ := movable_flag _ hl hv
  obtain ⟨first, hfirst, he⟩ := h ha hw
  obtain ⟨others, hothers, hes⟩ := h.preceded.many hs hx
  exact ⟨first :: others, .mk hflag (.mk hfirst hothers), by
    rw [List.map_cons, List.map_cons, he, hes]⟩

theorem movable_name : Movable IsName Name.bare := by
  intro ts n hn us hu
  obtain ⟨hk⟩ := hn
  obtain ⟨u, rfl, hk', ht⟩ := hu.singleton
  exact ⟨_, .mk (hk' ▸ hk), by rw [Name.bare, Name.bare, ht]⟩

theorem movable_description : Movable IsDescription Description.bare := by
  intro ts d hd us hu
  cases hd with
  | string hk =>
    obtain ⟨u, rfl, hk', ht⟩ := hu.singleton
    exact ⟨_, .string (hk'.trans hk), by rw [Description.bare, Description.bare, ht]⟩
  | block hk =>
    obtain ⟨u, rfl, hk', ht⟩ := hu.singleton
    exact ⟨_, .block (hk'.trans hk), by rw [Description.bare, Description.bare, ht]⟩

theorem movable_entry {ts us : List Token} {n : Name} {a : α} (h : Entry G ts (n, a))
    (hv : ∀ ⦃ts us⦄, G ts a → SameSigns us ts → ∃ b, G us b ∧ bare b = bare a)
    (hu : SameSigns us ts) :
    ∃ n' b, Entry G us (n', b) ∧ n'.bare = n.bare ∧ bare b = bare a := by
  obtain ⟨hn, hc, ha⟩ := h
  obtain ⟨_, xs, rfl, hu, hx⟩ := hu.append
  obtain ⟨vs, _, rfl, hns, hcs⟩ := hu.append
  obtain ⟨c, rfl, hck, -⟩ := hcs.singleton
  obtain ⟨n', hn', hne⟩ := movable_name hn hns
  obtain ⟨b, hb, he⟩ := hv ha hx
  exact ⟨n', b, .mk hn' (hck.trans hc) hb, hne, he⟩

mutual

theorem movable_typeRef {ts us : List Token} {t : TypeRef} (h : IsTypeRef ts t)
    (hu : SameSigns us ts) : ∃ t', IsTypeRef us t' ∧ t'.bare = t.bare := by
  cases h with
  | nullable h =>
    obtain ⟨t', ht', he⟩ := movable_nullable h hu
    exact ⟨t', .nullable ht', he⟩
  | nonNull h hb =>
    obtain ⟨vs, _, rfl, hv, hbs⟩ := hu.append
    obtain ⟨b, rfl, hbk, -⟩ := hbs.singleton
    obtain ⟨t', ht', he⟩ := movable_nullable h hv
    exact ⟨_, .nonNull ht' (hbk.trans hb), by rw [TypeRef.bare, TypeRef.bare, he]⟩

theorem movable_nullable {ts us : List Token} {t : TypeRef} (h : IsNullable ts t)
    (hu : SameSigns us ts) : ∃ t', IsNullable us t' ∧ t'.bare = t.bare := by
  cases h with
  | named hn =>
    obtain ⟨n, hn, he⟩ := movable_name hn hu
    exact ⟨_, .named hn, by rw [TypeRef.bare, TypeRef.bare, (Name.mk.inj he).1]⟩
  | list ho h hc =>
    obtain ⟨_, _, rfl, hu, hcs⟩ := hu.append
    obtain ⟨_, ws, rfl, hos, hw⟩ := hu.append
    obtain ⟨o, rfl, hok, -⟩ := hos.singleton
    obtain ⟨c, rfl, hck, -⟩ := hcs.singleton
    obtain ⟨t', ht', he⟩ := movable_typeRef h hw
    exact ⟨_, .list (hok.trans ho) ht' (hck.trans hc), by rw [TypeRef.bare, TypeRef.bare, he]⟩

end

mutual

theorem movable_value {constant : Bool} {v : Value} {ts us : List Token}
    (h : IsValue constant ts v) (hu : SameSigns us ts) :
    ∃ v', IsValue constant us v' ∧ v'.bare = v.bare := by
  match v with
  | .variableRef n =>
    cases h with
    | variableRef hc hd hn =>
      obtain ⟨_, ws, rfl, hds, hw⟩ := hu.append
      obtain ⟨d, rfl, hdk, -⟩ := hds.singleton
      obtain ⟨n', hn', he⟩ := movable_name hn hw
      exact ⟨_, .variableRef hc (hdk.trans hd) hn', by rw [Value.bare, Value.bare, he]⟩
  | .int n _ =>
    cases h with
    | int hk hn hw =>
      obtain ⟨u, rfl, hk', ht⟩ := hu.singleton
      exact ⟨.int n u.span, .int (hk'.trans hk) (ht ▸ hn) hw, rfl⟩
  | .float x _ =>
    cases h with
    | float hk =>
      obtain ⟨u, rfl, hk', ht⟩ := hu.singleton
      exact ⟨_, .float (hk'.trans hk), by rw [Value.bare, Value.bare, ht]⟩
  | .string s _ =>
    cases h with
    | string hk =>
      obtain ⟨u, rfl, hk', ht⟩ := hu.singleton
      exact ⟨_, .string (hk'.trans hk), by rw [Value.bare, Value.bare, ht]⟩
    | blockString hk =>
      obtain ⟨u, rfl, hk', ht⟩ := hu.singleton
      exact ⟨_, .blockString (hk'.trans hk), by rw [Value.bare, Value.bare, ht]⟩
  | .boolean b _ =>
    cases h with
    | true hk =>
      obtain ⟨u, rfl, hk', -⟩ := hu.singleton
      exact ⟨_, .true (hk'.trans hk), rfl⟩
    | false hk =>
      obtain ⟨u, rfl, hk', -⟩ := hu.singleton
      exact ⟨_, .false (hk'.trans hk), rfl⟩
  | .null _ =>
    cases h with
    | null hk =>
      obtain ⟨u, rfl, hk', -⟩ := hu.singleton
      exact ⟨_, .null (hk'.trans hk), rfl⟩
  | .enum n =>
    cases h with
    | enum hn hk =>
      obtain ⟨u, rfl, hk', -⟩ := hu.singleton
      obtain ⟨n', hn', he⟩ := movable_name hn hu
      exact ⟨_, .enum hn' (hk' ▸ hk), by rw [Value.bare, Value.bare, he]⟩
  | .list items _ =>
    cases h with
    | list h =>
      obtain ⟨items', h', he⟩ := movable_bracketed h (fun _ _ hm ↦ movable_items hm) hu
      exact ⟨_, .list h', by rw [Value.bare, Value.bare, he]⟩
  | .object fields _ =>
    cases h with
    | object h =>
      obtain ⟨fields', h', he⟩ := movable_bracketed h (fun _ _ hm ↦ movable_fields hm) hu
      exact ⟨_, .object h', by rw [Value.bare, Value.bare, he]⟩

theorem movable_items {constant : Bool} {items : List Value} {ts us : List Token}
    (h : Many (IsValue constant) ts items) (hu : SameSigns us ts) :
    ∃ items', Many (IsValue constant) us items' ∧
      Value.bareItems items' = Value.bareItems items := by
  match items with
  | [] =>
    cases h
    obtain rfl := hu.nil
    exact ⟨[], .nil, rfl⟩
  | item :: items =>
    cases h with
    | cons h hs =>
      obtain ⟨vs, ws, rfl, hv, hw⟩ := hu.append
      obtain ⟨item', h', he⟩ := movable_value h hv
      obtain ⟨items', hs', hes⟩ := movable_items hs hw
      exact ⟨item' :: items', .cons h' hs', by rw [Value.bareItems, Value.bareItems, he, hes]⟩

theorem movable_fields {constant : Bool} {fields : List (Name × Value)} {ts us : List Token}
    (h : Many (Entry (IsValue constant)) ts fields) (hu : SameSigns us ts) :
    ∃ fields', Many (Entry (IsValue constant)) us fields' ∧
      Value.bareFields fields' = Value.bareFields fields := by
  match fields with
  | [] =>
    cases h
    obtain rfl := hu.nil
    exact ⟨[], .nil, rfl⟩
  | (name, value) :: fields =>
    cases h with
    | cons h hs =>
      obtain ⟨vs, ws, rfl, hv, hw⟩ := hu.append
      obtain ⟨name', value', h', hn, he⟩ :=
        movable_entry h (fun _ _ h hu ↦ movable_value h hu) hv
      obtain ⟨fields', hs', hes⟩ := movable_fields hs hw
      exact ⟨(name', value') :: fields', .cons h' hs', by
        rw [Value.bareFields, Value.bareFields, hn, he, hes]⟩

end

theorem movable_argument : Movable IsArgument Argument.bare := by
  intro ts a ha us hu
  obtain ⟨h⟩ := ha
  obtain ⟨n, v, h', hn, hv⟩ := movable_entry h (fun _ _ h hu ↦ movable_value h hu) hu
  exact ⟨_, .mk h', by rw [Argument.bare, Argument.bare, hn, hv]⟩

theorem movable_directive : Movable IsDirective Directive.bare := by
  intro ts d hd us hu
  obtain ⟨ha, hn, has⟩ := hd
  obtain ⟨_, ws, rfl, hu, hw⟩ := hu.append
  obtain ⟨_, vs, rfl, hat, hv⟩ := hu.append
  obtain ⟨a, rfl, hak, -⟩ := hat.singleton
  obtain ⟨n, hn', hne⟩ := movable_name hn hv
  obtain ⟨as, has', he⟩ := movable_argument.enclosed has hw
  exact ⟨_, .mk (hak.trans ha) hn' has', by rw [Directive.bare, Directive.bare, hne, he]⟩

theorem movable_inputValue : Movable IsInputValue InputValueDefinition.bare := by
  intro ts a ha us hu
  obtain ⟨hd, hentry, hdefault, hds⟩ := ha
  obtain ⟨us, _, rfl, hud, hu⟩ := hu.append
  obtain ⟨_, ws, rfl, hu, huds⟩ := hu.append
  obtain ⟨vs, xs, rfl, hue, hudefault⟩ := hu.append
  obtain ⟨d, hd', hde⟩ := movable_description.optional hd hud
  obtain ⟨n, t, hentry', hn, ht⟩ := movable_entry hentry (fun _ _ h hu ↦ movable_typeRef h hu) hue
  obtain ⟨v, hv, hve⟩ := Movable.optional
    (Movable.preceded fun _ _ h _ hu ↦ movable_value h hu) hdefault hudefault
  obtain ⟨ds, hds', hdse⟩ := movable_directive.many hds huds
  exact ⟨_, .mk hd' hentry' hv hds', by
    rw [InputValueDefinition.bare, InputValueDefinition.bare, hde, hn, ht, hve, hdse]⟩

theorem movable_field : Movable IsField FieldDefinition.bare := by
  intro ts f hf us hu
  obtain ⟨hd, hn, has, ht, hds⟩ := hf
  obtain ⟨us, _, rfl, hud, hu⟩ := hu.append
  obtain ⟨_, ws, rfl, hu, huds⟩ := hu.append
  obtain ⟨_, xs, rfl, hu, hut⟩ := hu.append
  obtain ⟨vs, as, rfl, hun, huas⟩ := hu.append
  obtain ⟨d, hd', hde⟩ := movable_description.optional hd hud
  obtain ⟨n, hn', hne⟩ := movable_name hn hun
  obtain ⟨as, has', hase⟩ := movable_inputValue.enclosed has huas
  obtain ⟨t, ht', hte⟩ := Movable.preceded (fun _ _ h _ hu ↦ movable_typeRef h hu) ht hut
  obtain ⟨ds, hds', hdse⟩ := movable_directive.many hds huds
  exact ⟨_, .mk hd' hn' has' ht' hds', by
    rw [FieldDefinition.bare, FieldDefinition.bare, hde, hne, hase, hte, hdse]⟩

theorem movable_enumValue : Movable IsEnumValue EnumValueDefinition.bare := by
  intro ts v hv us hu
  obtain ⟨hd, hn, hk, hds⟩ := hv
  obtain ⟨us, _, rfl, hud, hu⟩ := hu.append
  obtain ⟨_, ws, rfl, hun, huds⟩ := hu.append
  obtain ⟨u, rfl, huk, -⟩ := hun.singleton
  obtain ⟨d, hd', hde⟩ := movable_description.optional hd hud
  obtain ⟨n, hn', hne⟩ := movable_name hn hun
  obtain ⟨ds, hds', hdse⟩ := movable_directive.many hds huds
  exact ⟨_, .mk hd' hn' (huk ▸ hk) hds', by
    rw [EnumValueDefinition.bare, EnumValueDefinition.bare, hde, hne, hdse]⟩

theorem movable_namesBehind (k : TokenKind) (mark : Punctuator) :
    Movable (NamesBehind k mark) (List.map Name.bare) := by
  intro ts ns hns us hu
  cases hns with
  | absent =>
    obtain rfl := hu.nil
    exact ⟨[], .absent, rfl⟩
  | present h =>
    obtain ⟨ns', h', he⟩ := movable_name.separated.preceded h hu
    exact ⟨ns', .present h', he⟩

def bareBody (b : List Directive × TypeBody) : List Directive × TypeBody :=
  (b.1.map Directive.bare, b.2.bare)

theorem movable_braced {body : List α → TypeBody} (body' : List α → TypeBody) (h : Movable G bare)
    (hbody : ∀ as bs, bs.map bare = as.map bare → (body' bs).bare = (body as).bare)
    {ts us : List Token} {b : List Directive × TypeBody} (hb : Braced G body ts b)
    (hu : SameSigns us ts) : ∃ b', Braced G body' us b' ∧ bareBody b' = bareBody b := by
  obtain ⟨hd, ha⟩ := hb
  obtain ⟨vs, ws, rfl, hv, hw⟩ := hu.append
  obtain ⟨ds, hd', hde⟩ := movable_directive.many hd hv
  obtain ⟨as, ha', hae⟩ := h.enclosed ha hw
  exact ⟨_, .mk hd' ha', Prod.ext hde (hbody _ _ hae)⟩

theorem movable_typeBody (k : Keyword) : Movable (IsTypeBody k) bareBody := by
  intro ts b hb us hu
  cases hb with
  | object hi hb =>
    obtain ⟨vs, ws, rfl, hv, hw⟩ := hu.append
    obtain ⟨is, hi', hie⟩ := movable_namesBehind _ _ hi hv
    obtain ⟨b', hb', he⟩ := movable_braced (.object is) movable_field
      (fun _ _ h ↦ by rw [TypeBody.bare, TypeBody.bare, hie, h]) hb hw
    exact ⟨b', .object hi' hb', he⟩
  | interface hi hb =>
    obtain ⟨vs, ws, rfl, hv, hw⟩ := hu.append
    obtain ⟨is, hi', hie⟩ := movable_namesBehind _ _ hi hv
    obtain ⟨b', hb', he⟩ := movable_braced (.interface is) movable_field
      (fun _ _ h ↦ by rw [TypeBody.bare, TypeBody.bare, hie, h]) hb hw
    exact ⟨b', .interface hi' hb', he⟩
  | union hd hm =>
    obtain ⟨vs, ws, rfl, hv, hw⟩ := hu.append
    obtain ⟨ds, hd', hde⟩ := movable_directive.many hd hv
    obtain ⟨ms, hm', hme⟩ := movable_namesBehind _ _ hm hw
    exact ⟨_, .union hd' hm', by simp only [bareBody, TypeBody.bare, hde, hme]⟩
  | enum hb =>
    obtain ⟨b', hb', he⟩ := movable_braced .enum movable_enumValue
      (fun _ _ h ↦ by rw [TypeBody.bare, TypeBody.bare, h]) hb hu
    exact ⟨b', .enum hb', he⟩
  | input hb =>
    obtain ⟨b', hb', he⟩ := movable_braced .input movable_inputValue
      (fun _ _ h ↦ by rw [TypeBody.bare, TypeBody.bare, h]) hb hu
    exact ⟨b', .input hb', he⟩
  | scalar hd =>
    obtain ⟨ds, hd', hde⟩ := movable_directive.many hd hu
    exact ⟨_, .scalar hd', by simp only [bareBody, TypeBody.bare, hde]⟩

theorem movable_typeDefinition {d d' : Option Description}
    (hd : d'.map Description.bare = d.map Description.bare) {ts us : List Token}
    {t : TypeDefinition} (h : IsTypeDefinition d ts t) (hu : SameSigns us ts) :
    ∃ t', IsTypeDefinition d' us t' ∧ t'.bare = t.bare := by
  obtain ⟨hk, hn, hb⟩ := h
  obtain ⟨_, ws, rfl, hu, hw⟩ := hu.append
  obtain ⟨_, vs, rfl, hut, hv⟩ := hu.append
  obtain ⟨t, rfl, htk, -⟩ := hut.singleton
  obtain ⟨n, hn', hne⟩ := movable_name hn hv
  obtain ⟨⟨ds, body⟩, hb', hbe⟩ := movable_typeBody _ hb hw
  obtain ⟨hde, hbe⟩ := Prod.mk.inj hbe
  exact ⟨_, .mk (htk.trans hk) hn' hb', by
    rw [TypeDefinition.bare, TypeDefinition.bare, hd, hne, hde, hbe]⟩

theorem movable_operationType : Movable IsOperationType OperationType.bare := by
  intro ts o ho us hu
  obtain ⟨hk, hc, hn⟩ := ho
  obtain ⟨_, ws, rfl, hu, hw⟩ := hu.append
  obtain ⟨_, _, rfl, hut, huc⟩ := hu.append
  obtain ⟨t, rfl, htk, -⟩ := hut.singleton
  obtain ⟨c, rfl, hck, -⟩ := huc.singleton
  obtain ⟨n, hn', hne⟩ := movable_name hn hw
  exact ⟨_, .mk (htk.trans hk) (hck.trans hc) hn', by
    rw [OperationType.bare, OperationType.bare, hne]⟩

theorem movable_schema {d d' : Option Description}
    (hd : d'.map Description.bare = d.map Description.bare) {ts us : List Token}
    {s : SchemaDefinition} (h : IsSchema d ts s) (hu : SameSigns us ts) :
    ∃ s', IsSchema d' us s' ∧ s'.bare = s.bare := by
  obtain ⟨hk, hds, hos⟩ := h
  obtain ⟨_, ws, rfl, hu, hw⟩ := hu.append
  obtain ⟨_, vs, rfl, hut, hv⟩ := hu.append
  obtain ⟨t, rfl, htk, -⟩ := hut.singleton
  obtain ⟨ds, hds', hdse⟩ := movable_directive.many hds hv
  obtain ⟨os, hos', hose⟩ := movable_operationType.enclosed hos hw
  exact ⟨_, .mk (htk.trans hk) hds' hos', by
    rw [SchemaDefinition.bare, SchemaDefinition.bare, hd, hdse, hose]⟩

theorem movable_location : Movable IsLocation id := by
  intro ts l hl us hu
  obtain ⟨ht⟩ := hl
  obtain ⟨u, rfl, -, ht'⟩ := hu.singleton
  exact ⟨_, .mk (ht'.trans ht), rfl⟩

theorem movable_directiveDefinition {d d' : Option Description}
    (hd : d'.map Description.bare = d.map Description.bare) {ts us : List Token}
    {x : DirectiveDefinition} (h : IsDirectiveDefinition d ts x) (hu : SameSigns us ts) :
    ∃ x', IsDirectiveDefinition d' us x' ∧ x'.bare = x.bare := by
  obtain ⟨ht, ha, hn, has, hr, ho, hl⟩ := h
  obtain ⟨_, ls, rfl, hu, huls⟩ := hu.append
  obtain ⟨_, _, rfl, hu, huo⟩ := hu.append
  obtain ⟨_, rs, rfl, hu, hur⟩ := hu.append
  obtain ⟨_, as, rfl, hu, huas⟩ := hu.append
  obtain ⟨_, ns, rfl, hu, hun⟩ := hu.append
  obtain ⟨_, _, rfl, hut, hua⟩ := hu.append
  obtain ⟨t, rfl, htk, -⟩ := hut.singleton
  obtain ⟨a, rfl, hak, -⟩ := hua.singleton
  obtain ⟨o, rfl, hok, -⟩ := huo.singleton
  obtain ⟨n, hn', hne⟩ := movable_name hn hun
  obtain ⟨as, has', hase⟩ := movable_inputValue.enclosed has huas
  obtain ⟨r, hr', rfl⟩ := movable_flag _ hr hur
  obtain ⟨ls, hl', hle⟩ := movable_location.separated hl huls
  rw [List.map_id, List.map_id] at hle
  exact ⟨_, .mk (htk.trans ht) (hak.trans ha) hn' has' hr' (hok.trans ho) hl', by
    rw [DirectiveDefinition.bare, DirectiveDefinition.bare, hd, hne, hase, hle, id]⟩

theorem movable_definition : Movable IsDefinition Definition.bare := by
  intro ts x hx us hu
  cases hx with
  | schema hd hs =>
    obtain ⟨vs, ws, rfl, hv, hw⟩ := hu.append
    obtain ⟨d, hd', hde⟩ := movable_description.optional hd hv
    obtain ⟨s, hs', he⟩ := movable_schema hde hs hw
    exact ⟨_, .schema hd' hs', congrArg Definition.schema he⟩
  | type hd ht =>
    obtain ⟨vs, ws, rfl, hv, hw⟩ := hu.append
    obtain ⟨d, hd', hde⟩ := movable_description.optional hd hv
    obtain ⟨t, ht', he⟩ := movable_typeDefinition hde ht hw
    exact ⟨_, .type hd' ht', congrArg Definition.type he⟩
  | directive hd hx =>
    obtain ⟨vs, ws, rfl, hv, hw⟩ := hu.append
    obtain ⟨d, hd', hde⟩ := movable_description.optional hd hv
    obtain ⟨x, hx', he⟩ := movable_directiveDefinition hde hx hw
    exact ⟨_, .directive hd' hx', congrArg Definition.directive he⟩
  | extension hx =>
    cases hx with
    | schema he hs =>
      obtain ⟨_, ws, rfl, hue, hw⟩ := hu.append
      obtain ⟨e, rfl, hek, -⟩ := hue.singleton
      obtain ⟨s, hs', hse⟩ := movable_schema rfl hs hw
      exact ⟨_, .extension (.schema (hek.trans he) hs'), congrArg Definition.schemaExtension hse⟩
    | type he ht =>
      obtain ⟨_, ws, rfl, hue, hw⟩ := hu.append
      obtain ⟨e, rfl, hek, -⟩ := hue.singleton
      obtain ⟨t, ht', hte⟩ := movable_typeDefinition rfl ht hw
      exact ⟨_, .extension (.type (hek.trans he) ht'), congrArg Definition.typeExtension hte⟩

end Sentence

theorem Sentence.Many.append {α : Type} {G : Phrase α} {ts us : List Token} {as bs : List α}
    (h : Many G ts as) (h' : Many G us bs) : Many G (ts ++ us) (as ++ bs) := by
  induction h with
  | nil => exact h'
  | cons ha _ ih =>
    rw [List.append_assoc]
    exact .cons ha ih

/-- Two texts with a line end between them are read as one after the other. -/
theorem exists_parse?_append {text text' : List Char} {ds ds' : List Definition}
    (h : ∃ span, Document.parse? text = some ⟨⟨ds, span⟩, []⟩)
    (h' : ∃ span, Document.parse? text' = some ⟨⟨ds', span⟩, []⟩) :
    ∃ es, es.map Definition.bare = ds'.map Definition.bare ∧
      ∃ span, Document.parse? (text ++ '\n' :: text') = some ⟨⟨ds ++ es, span⟩, []⟩ := by
  obtain ⟨hf, hds⟩ := (exists_parse?_iff _ _).mp h
  obtain ⟨hf', hds'⟩ := (exists_parse?_iff _ _).mp h'
  obtain ⟨us, htokens, hsigns⟩ := exists_tokens_append text' hf
  obtain ⟨es, hes, he⟩ := Sentence.movable_definition.many hds' hsigns
  refine ⟨es, he, (exists_parse?_iff _ _).mpr ⟨fun t ht ↦ ?_, htokens ▸ hds.append hes⟩⟩
  rw [htokens, List.mem_append] at ht
  rcases ht with ht | ht
  · exact hf t ht
  · have hmem : t.sign ∈ (tokens text').map Token.sign := hsigns ▸ List.mem_map_of_mem ht
    obtain ⟨u, hu, hsign⟩ := List.mem_map.mp hmem
    rw [← (Prod.mk.inj hsign).1]
    exact hf' u hu

end SchemaBindings.Sdl
