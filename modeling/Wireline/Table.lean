/-!
# Tables

A `Table` holds values under keys, each key once, in the order in which the keys came in. Setting a
key that is there keeps its place. Look-ups after each operation are given by `get?_set`,
`get?_modify`, `get?_erase` and `get?_empty`.
-/

set_option autoImplicit false
set_option relaxedAutoImplicit false

namespace Wireline

/-- Values under keys. -/
structure Table (κ α : Type) where
  entries : List (κ × α)

namespace Table

variable {κ α : Type} [DecidableEq κ]

def empty : Table κ α := ⟨[]⟩

instance : Inhabited (Table κ α) := ⟨empty⟩

/-- The value under a key in a list of entries. -/
def lookup (key : κ) : List (κ × α) → Option α
  | [] => none
  | (k, a) :: rest => if k = key then some a else lookup key rest

/-- Puts a value in place of the one under its key, or at the end. -/
def update (key : κ) (value : α) : List (κ × α) → List (κ × α)
  | [] => [(key, value)]
  | (k, a) :: rest => if k = key then (key, value) :: rest else (k, a) :: update key value rest

def get? (table : Table κ α) (key : κ) : Option α :=
  lookup key table.entries

def contains (table : Table κ α) (key : κ) : Bool :=
  (table.get? key).isSome

def set (table : Table κ α) (key : κ) (value : α) : Table κ α :=
  ⟨update key value table.entries⟩

def erase (table : Table κ α) (key : κ) : Table κ α :=
  ⟨table.entries.filter fun entry ↦ decide (entry.1 ≠ key)⟩

/-- Changes the value under a key, if there is one. -/
def modify (table : Table κ α) (key : κ) (change : α → α) : Table κ α :=
  match table.get? key with
  | some value => table.set key (change value)
  | none => table

omit [DecidableEq κ] in
def keys (table : Table κ α) : List κ :=
  table.entries.map Prod.fst

theorem lookup_update (key other : κ) (value : α) (entries : List (κ × α)) :
    lookup other (update key value entries) =
      if key = other then some value else lookup other entries := by
  induction entries with
  | nil => simp [update, lookup]
  | cons entry rest ih =>
    obtain ⟨k, a⟩ := entry
    by_cases hk : k = key
    · subst hk
      by_cases ho : k = other <;> simp [update, lookup, ho]
    · by_cases ho : k = other
      · subst ho
        simp [update, lookup, hk, Ne.symm hk]
      · simp [update, lookup, hk, ho, ih]

@[simp] theorem get?_empty (key : κ) : (empty : Table κ α).get? key = none := rfl

theorem get?_set (table : Table κ α) (key other : κ) (value : α) :
    (table.set key value).get? other = if key = other then some value else table.get? other :=
  lookup_update key other value table.entries

theorem get?_erase (table : Table κ α) (key other : κ) :
    (table.erase key).get? other = if key = other then none else table.get? other := by
  obtain ⟨entries⟩ := table
  simp only [get?, erase]
  induction entries with
  | nil => simp [lookup]
  | cons entry rest ih =>
    obtain ⟨k, a⟩ := entry
    by_cases hk : k = key
    · subst hk
      rw [List.filter_cons_of_neg (by simp), ih]
      by_cases ho : k = other <;> simp [lookup, ho]
    · rw [List.filter_cons_of_pos (by simpa using hk)]
      by_cases ho : k = other
      · subst ho
        simp [lookup, Ne.symm hk]
      · simp only [lookup, ho, if_false, ih]

theorem get?_modify (table : Table κ α) (key other : κ) (change : α → α) :
    (table.modify key change).get? other =
      if key = other then (table.get? key).map change else table.get? other := by
  unfold modify
  split
  · next value found => rw [get?_set, found]; rfl
  · next missing =>
    split
    · next same => rw [← same, missing]; rfl
    · rfl

end Table

end Wireline
