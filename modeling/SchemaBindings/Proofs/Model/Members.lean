import SchemaBindings.Model.Encoding
import SchemaBindings.Proofs.Attempt
import SchemaBindings.Proofs.Json.RoundTrip
import Mathlib.Data.List.Forall2

namespace SchemaBindings.Model

/-- Every value of a set can be written in full, and is read as `a`. -/
def Encodes {α : Type} (read : Json → Option α) (a : α) (writes : Json → Prop) : Prop :=
  ∀ j, writes j → j.IsPlain ∧ read j = some a

/-- A part of a record: its key, what may be written for it, and whether it holds its default. -/
structure RecordPart where
  key : String
  writes : Json → Prop
  mayBeMissing : Prop

def RecordPart.required (key : String) (writes : Json → Prop) : RecordPart :=
  ⟨key, writes, False⟩

/-- The members for the parts, in their order. Of the parts that hold their default, any may be
left out. -/
inductive AreMembers : List RecordPart → List (String × Json) → Prop
  | nil : AreMembers [] []
  | written {part : RecordPart} {parts : List RecordPart} {j : Json}
      {members : List (String × Json)} (hj : part.writes j) (h : AreMembers parts members) :
      AreMembers (part :: parts) ((part.key, j) :: members)
  | missing {part : RecordPart} {parts : List RecordPart} {members : List (String × Json)}
      (hmissing : part.mayBeMissing) (h : AreMembers parts members) :
      AreMembers (part :: parts) members

def IsObject (parts : List RecordPart) (j : Json) : Prop :=
  ∃ members, j = .object members ∧ AreMembers parts members

def IsArray {α : Type} (writes : α → Json → Prop) (items : List α) (j : Json) : Prop :=
  ∃ js, j = .array js ∧ List.Forall₂ writes items js

section Members

variable {parts : List RecordPart} {members : List (String × Json)} {part : RecordPart}

theorem AreMembers.isPlain (h : AreMembers parts members)
    (hparts : ∀ part ∈ parts, ∀ j, part.writes j → j.IsPlain) :
    (Json.object members).IsPlain := by
  refine (Json.havePlain_iff members).mpr ?_
  induction h with
  | nil => nofun
  | written hj h ih =>
    rw [List.forall_mem_cons] at hparts ⊢
    exact ⟨hparts.1 _ hj, ih hparts.2⟩
  | missing hmissing h ih => exact ih (List.forall_mem_cons.mp hparts).2

theorem member?_cons (key : String) (j : Json) (members : List (String × Json)) (other : String) :
    (Json.object ((key, j) :: members)).member? other =
      ((Json.object members).member? other).or (if key = other then some j else none) := by
  rw [Json.member?, Json.member?, List.reverse_cons, List.find?_append]
  cases members.reverse.find? (·.1 == other) with
  | some p => rfl
  | none => by_cases h : key = other <;> simp [h]

theorem AreMembers.member?_of_notMem (h : AreMembers parts members) {key : String}
    (hkey : key ∉ parts.map (·.key)) : (Json.object members).member? key = none := by
  induction h with
  | nil => rfl
  | written hj h ih =>
    rw [List.map_cons, List.mem_cons, not_or] at hkey
    rw [member?_cons, ih hkey.2, if_neg (Ne.symm hkey.1)]
    rfl
  | missing hmissing h ih => exact ih fun hmem ↦ hkey (List.mem_cons_of_mem _ hmem)

theorem AreMembers.member?_of_mem (h : AreMembers parts members)
    (hkeys : (parts.map (·.key)).Nodup) (hpart : part ∈ parts) :
    (∃ j, (Json.object members).member? part.key = some j ∧ part.writes j) ∨
      (Json.object members).member? part.key = none ∧ part.mayBeMissing := by
  induction h with
  | nil => exact absurd hpart List.not_mem_nil
  | @written first parts j members hj h ih =>
    rw [List.map_cons, List.nodup_cons] at hkeys
    rw [member?_cons]
    rcases List.mem_cons.mp hpart with rfl | hpart
    · rw [h.member?_of_notMem hkeys.1, if_pos rfl]
      exact .inl ⟨j, rfl, hj⟩
    · have hne : first.key ≠ part.key := fun heq ↦
        hkeys.1 (heq ▸ List.mem_map_of_mem hpart)
      rw [if_neg hne, Option.or_none]
      exact ih hkeys.2 hpart
  | @missing first parts members hmissing h ih =>
    rw [List.map_cons, List.nodup_cons] at hkeys
    rcases List.mem_cons.mp hpart with rfl | hpart
    · exact .inr ⟨h.member?_of_notMem hkeys.1, hmissing⟩
    · exact ih hkeys.2 hpart

end Members

section Parts

variable {α : Type} {read : Json → Option α} {a : α} {writes : Json → Prop}
  {parts : List RecordPart} {members : List (String × Json)} {key : String}

theorem Encodes.isPlain (h : Encodes read a writes) (j : Json) (hj : writes j) : j.IsPlain :=
  (h j hj).1

theorem AreMembers.requiredMember_eq (h : AreMembers parts members)
    (hkeys : (parts.map (·.key)).Nodup) (i : Nat) (hread : Encodes read a writes)
    (hpart : parts[i]? = some (RecordPart.required key writes)) :
    requiredMember (.object members) key read = some a := by
  rcases h.member?_of_mem hkeys (List.mem_of_getElem? hpart) with ⟨j, hj, hwrites⟩ | ⟨-, hmissing⟩
  · rw [requiredMember, show (Json.object members).member? key = some j from hj, Option.bind_some]
    exact (hread j hwrites).2
  · exact hmissing.elim

theorem AreMembers.defaultMember_eq (h : AreMembers parts members)
    (hkeys : (parts.map (·.key)).Nodup) (i : Nat) (hread : Encodes read a writes) {missing : α}
    (hpart : parts[i]? = some (RecordPart.mk key writes (a = missing))) :
    defaultMember (.object members) key missing read = some a := by
  rcases h.member?_of_mem hkeys (List.mem_of_getElem? hpart) with
    ⟨j, hj, hwrites⟩ | ⟨hnone, hmissing⟩
  · rw [defaultMember, show (Json.object members).member? key = some j from hj]
    exact (hread j hwrites).2
  · rw [defaultMember, show (Json.object members).member? key = none from hnone]
    exact congrArg some hmissing.symm

end Parts

section Values

variable {α : Type} {read : Json → Option α}

theorem encodes_list {writes : α → Json → Prop} {items : List α}
    (h : ∀ a ∈ items, Encodes read a (writes a)) :
    Encodes (readList read) items (IsArray writes items) := by
  rintro _ ⟨js, rfl, hjs⟩
  suffices hall : (∀ j ∈ js, j.IsPlain) ∧ js.mapM read = some items from
    ⟨(Json.arePlain_iff js).mpr hall.1, hall.2⟩
  induction hjs with
  | nil => exact ⟨nofun, rfl⟩
  | cons hj hjs ih =>
    rw [List.forall_mem_cons] at h
    obtain ⟨hplain, hread⟩ := h.1 _ hj
    obtain ⟨hplains, hreads⟩ := ih h.2
    exact ⟨List.forall_mem_cons.mpr ⟨hplain, hplains⟩, by simp [hread, hreads]⟩

end Values

end SchemaBindings.Model
