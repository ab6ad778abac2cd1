import SchemaBindings.Proofs.Model.Decoding
import SchemaBindings.Proofs.Json.RoundTrip
import Mathlib.Data.String.Basic

namespace SchemaBindings.KeyedList

variable {α : Type}

theorem put_of_notMem {l : List (String × α)} {key : String} (h : key ∉ l.map (·.1)) (value : α) :
    put l key value = l ++ [(key, value)] := by
  induction l with
  | nil => rfl
  | cons p l ih =>
    rw [List.map_cons, List.mem_cons, not_or] at h
    rw [put, if_neg (Ne.symm h.1), ih h.2, List.cons_append]

theorem foldl_put {front back : List (String × α)} (h : ((front ++ back).map (·.1)).Nodup) :
    back.foldl (fun merged p ↦ put merged p.1 p.2) front = front ++ back := by
  induction back generalizing front with
  | nil => exact (List.append_nil front).symm
  | cons p back ih =>
    have hfront : p.1 ∉ front.map (·.1) := by
      rw [List.map_append, List.nodup_append] at h
      exact fun hmem ↦ h.2.2 _ hmem _ List.mem_cons_self rfl
    rw [List.foldl_cons, put_of_notMem hfront, ih (by simpa using h), List.append_assoc]
    rfl

theorem ofPairs_of_nodup {pairs : List (String × α)} (h : (pairs.map (·.1)).Nodup) :
    ofPairs pairs = pairs :=
  foldl_put h

theorem insert_of_forall_lt {l : List (String × α)} {key : String} (h : ∀ k ∈ l.map (·.1), k < key)
    (value : α) : insert l key value = l ++ [(key, value)] := by
  induction l with
  | nil => rfl
  | cons p l ih =>
    rw [List.map_cons, List.forall_mem_cons] at h
    rw [insert, if_neg (ne_of_lt h.1), if_neg (not_lt_of_gt h.1), ih h.2, List.cons_append]

theorem foldl_insert {front back : List (String × α)}
    (h : ((front ++ back).map (·.1)).Pairwise (· < ·)) :
    back.foldl (fun merged p ↦ insert merged p.1 p.2) front = front ++ back := by
  induction back generalizing front with
  | nil => exact (List.append_nil front).symm
  | cons p back ih =>
    have hfront : ∀ k ∈ front.map (·.1), k < p.1 := by
      rw [List.map_append, List.pairwise_append] at h
      exact fun k hk ↦ h.2.2 k hk _ List.mem_cons_self
    rw [List.foldl_cons, insert_of_forall_lt hfront, ih (by simpa using h), List.append_assoc]
    rfl

theorem sorted_of_pairwise {pairs : List (String × α)}
    (h : (pairs.map (·.1)).Pairwise (· < ·)) : sorted pairs = pairs :=
  foldl_insert h

end SchemaBindings.KeyedList

namespace SchemaBindings.Model

mutual

def Value.nameLists : Value → List (List String)
  | .list items => Value.itemNameLists items
  | .object fields => fields.map (·.1) :: Value.fieldNameLists fields
  | _ => []

def Value.itemNameLists : List Value → List (List String)
  | [] => []
  | item :: items => item.nameLists ++ Value.itemNameLists items

def Value.fieldNameLists : List (String × Value) → List (List String)
  | [] => []
  | (_, value) :: fields => value.nameLists ++ Value.fieldNameLists fields

end

/-- Whether a value other than a list or an object is read back as it was. -/
def Value.IsExact : Value → Prop
  | .int n => isWord n = true
  | .float _ => False
  | _ => True

mutual

theorem Value.ofJson?_toJson {v : Value} (hleaves : ∀ l ∈ v.leaves, l.IsExact)
    (hnames : ∀ names ∈ v.nameLists, names.Nodup) : Value.ofJson? v.toJson = some v := by
  match v with
  | .int n =>
    have hn : isWord n = true := hleaves (.int n) (List.mem_singleton_self _)
    exact ofJson?_tagged (by rw [ofContent?, if_pos hn])
  | .float x => exact (hleaves (.float x) (List.mem_singleton_self _)).elim
  | .string s => exact ofJson?_tagged rfl
  | .boolean b => exact ofJson?_tagged rfl
  | .null => rfl
  | .enum name => exact ofJson?_tagged rfl
  | .list items =>
    exact ofJson?_tagged (by rw [ofContent?, Value.itemsOfJson?_itemsToJson hleaves hnames]; rfl)
  | .object fields =>
    obtain ⟨hfields, hnames⟩ := List.forall_mem_cons.mp hnames
    refine ofJson?_tagged ?_
    rw [ofContent?, Value.fieldsOfJson?_fieldsToJson hleaves hnames, Option.map_some,
      KeyedList.ofPairs_of_nodup hfields]

theorem Value.itemsOfJson?_itemsToJson {items : List Value}
    (hleaves : ∀ l ∈ Value.itemLeaves items, l.IsExact)
    (hnames : ∀ names ∈ Value.itemNameLists items, names.Nodup) :
    Value.itemsOfJson? (Value.itemsToJson items) = some items := by
  match items with
  | [] => rfl
  | item :: items =>
    rw [Value.itemLeaves, List.forall_mem_append] at hleaves
    rw [Value.itemNameLists, List.forall_mem_append] at hnames
    have hitem := Value.ofJson?_toJson hleaves.1 hnames.1
    have hitems := Value.itemsOfJson?_itemsToJson hleaves.2 hnames.2
    simp [itemsToJson, itemsOfJson?, hitem, hitems]

theorem Value.fieldsOfJson?_fieldsToJson {fields : List (String × Value)}
    (hleaves : ∀ l ∈ Value.fieldLeaves fields, l.IsExact)
    (hnames : ∀ names ∈ Value.fieldNameLists fields, names.Nodup) :
    Value.fieldsOfJson? (Value.fieldsToJson fields) = some fields := by
  match fields with
  | [] => rfl
  | (name, value) :: fields =>
    rw [Value.fieldLeaves, List.forall_mem_append] at hleaves
    rw [Value.fieldNameLists, List.forall_mem_append] at hnames
    have hvalue := Value.ofJson?_toJson hleaves.1 hnames.1
    have hfields := Value.fieldsOfJson?_fieldsToJson hleaves.2 hnames.2
    simp [fieldsToJson, fieldsOfJson?, hvalue, hfields]

end

theorem Value.isPlain_tagged (kind : ValueKind) {content : Json} (h : content.IsPlain) :
    (Value.tagged kind content).IsPlain :=
  ⟨trivial, h, trivial⟩

theorem isPlain_int {n : Int} (h : isWord n = true) : (Json.int n).IsPlain := by
  simp only [isWord, Bool.and_eq_true, decide_eq_true_eq] at h
  simp only [Json.IsPlain, Json.maxNegative, Json.maxUnsigned]
  omega

mutual

theorem Value.isPlain_toJson {v : Value} (h : ∀ l ∈ v.leaves, l.IsExact) : v.toJson.IsPlain := by
  match v with
  | .int n => exact isPlain_tagged .int (isPlain_int (h (.int n) (List.mem_singleton_self _)))
  | .float x => exact (h (.float x) (List.mem_singleton_self _)).elim
  | .string s => exact isPlain_tagged .string trivial
  | .boolean b => exact isPlain_tagged .boolean trivial
  | .null => exact ⟨trivial, trivial⟩
  | .enum name => exact isPlain_tagged .enum trivial
  | .list items => exact isPlain_tagged .list (Value.arePlain_itemsToJson h)
  | .object fields => exact isPlain_tagged .object (Value.havePlain_fieldsToJson h)

theorem Value.arePlain_itemsToJson {items : List Value}
    (h : ∀ l ∈ Value.itemLeaves items, l.IsExact) : Json.ArePlain (Value.itemsToJson items) := by
  match items with
  | [] => trivial
  | item :: items =>
    rw [Value.itemLeaves, List.forall_mem_append] at h
    exact ⟨Value.isPlain_toJson h.1, Value.arePlain_itemsToJson h.2⟩

theorem Value.havePlain_fieldsToJson {fields : List (String × Value)}
    (h : ∀ l ∈ Value.fieldLeaves fields, l.IsExact) :
    Json.HavePlain (Value.fieldsToJson fields) := by
  match fields with
  | [] => trivial
  | (_, value) :: fields =>
    rw [Value.fieldLeaves, List.forall_mem_append] at h
    exact ⟨Value.isPlain_toJson h.1, Value.havePlain_fieldsToJson h.2⟩

end

theorem TypeExpr.isPlain_toJson (t : TypeExpr) : t.toJson.IsPlain := by
  induction t with
  | scalar name => exact ⟨trivial, trivial⟩
  | named t => exact ⟨⟨trivial, trivial, trivial⟩, trivial⟩
  | list t ih => exact ⟨ih, trivial⟩
  | nonNull t ih => exact ⟨ih, trivial⟩

end SchemaBindings.Model
