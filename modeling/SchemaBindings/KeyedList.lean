
namespace SchemaBindings.KeyedList

variable {α : Type}

/-- Sets the value of a key: in its place if it has one, at the end otherwise. -/
def put : List (String × α) → String → α → List (String × α)
  | [], key, value => [(key, value)]
  | (k, v) :: rest, key, value =>
    if k = key then (k, value) :: rest else (k, v) :: put rest key value

/-- The pairs with every key once, at its first place and with its last value. -/
def ofPairs (pairs : List (String × α)) : List (String × α) :=
  pairs.foldl (fun merged pair => put merged pair.1 pair.2) []

def insert : List (String × α) → String → α → List (String × α)
  | [], key, value => [(key, value)]
  | (k, v) :: rest, key, value =>
    if k = key then (k, value) :: rest
    else if key < k then (key, value) :: (k, v) :: rest
    else (k, v) :: insert rest key value

/-- The pairs in ascending order of their keys, every key once and with its last value. -/
def sorted (pairs : List (String × α)) : List (String × α) :=
  pairs.foldl (fun merged pair => insert merged pair.1 pair.2) []

theorem map_fst_put (l : List (String × α)) (key : String) (value : α) :
    (put l key value).map (·.1) =
      if key ∈ l.map (·.1) then l.map (·.1) else l.map (·.1) ++ [key] := by
  induction l with
  | nil => simp [put]
  | cons pair rest ih =>
    by_cases h : pair.1 = key
    · simp [put, h]
    · rw [put, if_neg h]
      simp only [List.map_cons, ih, List.mem_cons]
      by_cases hm : key ∈ rest.map (·.1)
      · simp [hm]
      · simp [hm, Ne.symm h]

theorem lookup_put (l : List (String × α)) (key : String) (value : α) (name : String) :
    (put l key value).lookup name = if name = key then some value else l.lookup name := by
  induction l with
  | nil =>
    rw [put, List.lookup_cons]
    split <;> simp_all
  | cons pair rest ih =>
    rw [put]
    split
    next h =>
      rw [List.lookup_cons, List.lookup_cons]
      split <;> simp_all
    next h =>
      rw [List.lookup_cons, List.lookup_cons, ih]
      split <;> simp_all

end SchemaBindings.KeyedList
