import Mathlib.Algebra.Ring.Nat
import Wireline.Table

/-!
# Keys and entries of tables

A key has a value exactly if it is listed (`get?_eq_none_iff`), and if no key is listed twice, what
is listed is what is found (`get?_eq_some_iff`). Setting a key lists it at the end unless it is
there (`keys_set`), erasing takes it out of the list (`keys_erase`), so keys stay distinct. A sum
over a table splits into what is under a key and the rest (`total_eq_erase`).
-/

set_option autoImplicit false
set_option relaxedAutoImplicit false

namespace Wireline

namespace Table

variable {κ α : Type} [DecidableEq κ]

theorem mem_entries_of_get? {table : Table κ α} {key : κ} {value : α}
    (h : table.get? key = some value) : (key, value) ∈ table.entries := by
  obtain ⟨entries⟩ := table
  simp only [get?] at h
  induction entries with
  | nil => simp [lookup] at h
  | cons entry rest ih =>
    obtain ⟨k, a⟩ := entry
    simp only [lookup] at h
    split at h
    · next hk =>
      cases h
      rw [hk]
      exact List.mem_cons_self
    · exact List.mem_cons_of_mem _ (ih h)

theorem get?_eq_none_iff {table : Table κ α} {key : κ} :
    table.get? key = none ↔ key ∉ table.keys := by
  obtain ⟨entries⟩ := table
  simp only [get?, keys]
  induction entries with
  | nil => simp [lookup]
  | cons entry rest ih =>
    obtain ⟨k, a⟩ := entry
    by_cases hk : k = key
    · simp [lookup, hk]
    · simp [lookup, hk, Ne.symm hk, ih]

theorem contains_iff_mem_keys {table : Table κ α} {key : κ} :
    table.contains key ↔ key ∈ table.keys := by
  rw [contains, Option.isSome_iff_ne_none, Ne, get?_eq_none_iff, not_not]

theorem mem_keys_of_get? {table : Table κ α} {key : κ} {value : α}
    (h : table.get? key = some value) : key ∈ table.keys :=
  List.mem_map.mpr ⟨_, mem_entries_of_get? h, rfl⟩

theorem exists_get?_of_mem_keys {table : Table κ α} {key : κ} (h : key ∈ table.keys) :
    ∃ value, table.get? key = some value := by
  cases hget : table.get? key with
  | none => exact absurd h (get?_eq_none_iff.mp hget)
  | some value => exact ⟨value, rfl⟩

/-- Assumes: no key is listed twice. -/
theorem get?_eq_some_iff {table : Table κ α} (hnodup : table.keys.Nodup) {key : κ} {value : α} :
    table.get? key = some value ↔ (key, value) ∈ table.entries := by
  refine ⟨mem_entries_of_get?, ?_⟩
  obtain ⟨entries⟩ := table
  simp only [get?, keys] at *
  induction entries with
  | nil => simp
  | cons entry rest ih =>
    obtain ⟨k, a⟩ := entry
    rw [List.map_cons, List.nodup_cons] at hnodup
    intro hmem
    rcases List.mem_cons.mp hmem with heq | hrest
    · cases heq
      simp [lookup]
    · have hne : k ≠ key := by
        intro h
        exact hnodup.1 (h ▸ List.mem_map.mpr ⟨_, hrest, rfl⟩)
      simp only [lookup, if_neg hne]
      exact ih hnodup.2 hrest

omit [DecidableEq κ] in
@[simp] theorem keys_empty : (empty : Table κ α).keys = [] := rfl

omit [DecidableEq κ] in
theorem eq_empty_of_entries {table : Table κ α} (h : table.entries = []) : table = .empty := by
  obtain ⟨entries⟩ := table
  exact congrArg mk h

theorem eq_empty_of_get? {table : Table κ α} (h : ∀ key, table.get? key = none) :
    table = .empty := by
  refine eq_empty_of_entries (List.eq_nil_iff_forall_not_mem.mpr fun entry hentry ↦ ?_)
  exact get?_eq_none_iff.mp (h entry.1) (List.mem_map.mpr ⟨entry, hentry, rfl⟩)

/-! ### Setting -/

theorem entries_set_of_notMem {table : Table κ α} {key : κ} (h : key ∉ table.keys) (value : α) :
    (table.set key value).entries = table.entries ++ [(key, value)] := by
  obtain ⟨entries⟩ := table
  simp only [keys, set] at *
  induction entries with
  | nil => rfl
  | cons entry rest ih =>
    obtain ⟨k, a⟩ := entry
    rw [List.map_cons, List.mem_cons, not_or] at h
    simp only [update, if_neg (Ne.symm h.1), ih h.2, List.cons_append]

theorem keys_set (table : Table κ α) (key : κ) (value : α) :
    (table.set key value).keys =
      if key ∈ table.keys then table.keys else table.keys ++ [key] := by
  split
  · next hmem =>
    obtain ⟨entries⟩ := table
    simp only [keys, set] at *
    induction entries with
    | nil => simp at hmem
    | cons entry rest ih =>
      obtain ⟨k, a⟩ := entry
      by_cases hk : k = key
      · simp [update, hk]
      · have hrest : key ∈ rest.map Prod.fst := by
          rcases List.mem_cons.mp hmem with h | h
          · exact absurd h.symm hk
          · exact h
        simp only [update, if_neg hk, List.map_cons, ih hrest]
  · next hmem =>
    simp only [keys, entries_set_of_notMem hmem, List.map_append, List.map_cons, List.map_nil]

theorem nodup_keys_set {table : Table κ α} (h : table.keys.Nodup) (key : κ) (value : α) :
    (table.set key value).keys.Nodup := by
  rw [keys_set]
  split
  · exact h
  · next hmem =>
    refine List.nodup_append.mpr ⟨h, by simp, ?_⟩
    intro a ha b hb hab
    rw [List.mem_singleton.mp hb] at hab
    exact hmem (hab ▸ ha)

/-- Setting a key to the value that it has changes nothing. -/
theorem set_eq_self {table : Table κ α} {key : κ} {value : α} (h : table.get? key = some value) :
    table.set key value = table := by
  obtain ⟨entries⟩ := table
  simp only [get?, set, mk.injEq] at *
  induction entries with
  | nil => simp [lookup] at h
  | cons entry rest ih =>
    obtain ⟨k, a⟩ := entry
    simp only [lookup] at h
    split at h
    · next hk =>
      cases h
      simp [update, hk]
    · next hk => simp only [update, if_neg hk, ih h]

/-! ### Erasing -/

theorem keys_erase (table : Table κ α) (key : κ) :
    (table.erase key).keys = table.keys.filter fun other ↦ decide (other ≠ key) := by
  simp only [keys, erase, List.filter_map]
  rfl

theorem nodup_keys_erase {table : Table κ α} (h : table.keys.Nodup) (key : κ) :
    (table.erase key).keys.Nodup := by
  rw [keys_erase]
  exact h.filter _

theorem erase_eq_self {table : Table κ α} {key : κ} (h : key ∉ table.keys) :
    table.erase key = table := by
  obtain ⟨entries⟩ := table
  simp only [erase, mk.injEq]
  refine List.filter_eq_self.mpr ?_
  intro entry hentry
  simp only [decide_eq_true_eq]
  intro heq
  exact h (heq ▸ List.mem_map.mpr ⟨entry, hentry, rfl⟩)

theorem entries_erase_of_notMem {table : Table κ α} {key : κ} {value : α} {rest : List (κ × α)}
    (hentries : table.entries = (key, value) :: rest) (hnotMem : key ∉ rest.map Prod.fst) :
    (table.erase key).entries = rest := by
  have hrest : (⟨rest⟩ : Table κ α).erase key = ⟨rest⟩ := erase_eq_self hnotMem
  simp only [erase, mk.injEq] at hrest
  simp only [erase, hentries, List.filter_cons, ne_eq, not_true, decide_false]
  exact hrest

/-- What is erased is one of the entries. Assumes: no key is listed twice. -/
theorem entries_perm_erase {table : Table κ α} (hnodup : table.keys.Nodup) {key : κ} {value : α}
    (h : table.get? key = some value) :
    table.entries.Perm ((key, value) :: (table.erase key).entries) := by
  obtain ⟨entries⟩ := table
  induction entries with
  | nil => simp [get?, lookup] at h
  | cons entry rest ih =>
    obtain ⟨k, a⟩ := entry
    rw [keys, List.map_cons, List.nodup_cons] at hnodup
    simp only [get?, lookup] at h
    split at h
    · next hk =>
      cases h
      subst hk
      rw [entries_erase_of_notMem rfl hnodup.1]
    · next hk =>
      have herased : ((⟨(k, a) :: rest⟩ : Table κ α).erase key).entries =
          (k, a) :: ((⟨rest⟩ : Table κ α).erase key).entries := by
        simp [erase, hk]
      rw [herased]
      exact ((ih hnodup.2 h).cons (k, a)).trans (.swap _ _ _)

/-- What was set does not matter once it is erased. -/
theorem erase_set (table : Table κ α) (key : κ) (value : α) :
    (table.set key value).erase key = table.erase key := by
  obtain ⟨entries⟩ := table
  simp only [set, erase, mk.injEq]
  induction entries with
  | nil => simp [update]
  | cons entry rest ih =>
    obtain ⟨k, a⟩ := entry
    by_cases hk : k = key
    · simp [update, hk]
    · simp only [update, if_neg hk, List.filter_cons, ih]

theorem erase_erase (table : Table κ α) (key : κ) :
    (table.erase key).erase key = table.erase key := by
  rw [erase_eq_self]
  rw [keys_erase]
  exact fun hmem ↦ of_decide_eq_true (List.mem_filter.mp hmem).2 rfl

/-- If a key is erased where nothing would be left under it, no key has nothing under it. -/
theorem get?_ne_nil {table : Table κ (List α)} (h : ∀ key, table.get? key ≠ some []) (key : κ)
    (values : List α) (other : κ) :
    (if values.isEmpty then table.erase key else table.set key values).get? other ≠ some [] := by
  split
  · rw [get?_erase]
    split
    · exact (Option.some_ne_none []).symm
    · exact h other
  · next hsome =>
    rw [get?_set]
    split
    · exact fun hnone ↦ hsome (List.isEmpty_iff.mpr (Option.some.inj hnone))
    · exact h other

/-! ### Sums -/

omit [DecidableEq κ] in
/-- The sum of a measure over all values of a table. -/
def total (table : Table κ α) (measure : α → Nat) : Nat :=
  (table.entries.map fun entry ↦ measure entry.2).sum

/-- A sum splits into what is under a key and the rest. Assumes: no key is listed twice. -/
theorem total_eq_erase {table : Table κ α} (hnodup : table.keys.Nodup) (measure : α → Nat)
    (key : κ) : table.total measure =
      ((table.get? key).map measure).getD 0 + (table.erase key).total measure := by
  cases hget : table.get? key with
  | none =>
    rw [erase_eq_self (get?_eq_none_iff.mp hget)]
    exact (Nat.zero_add _).symm
  | some value =>
    have hperm := entries_perm_erase hnodup hget
    rw [total, (hperm.map fun entry ↦ measure entry.2).sum_nat]
    rfl

theorem total_set {table : Table κ α} (hnodup : table.keys.Nodup) (measure : α → Nat) (key : κ)
    (value : α) : (table.set key value).total measure =
      measure value + (table.erase key).total measure := by
  rw [total_eq_erase (nodup_keys_set hnodup key value) measure key, erase_set, get?_set, if_pos rfl]
  rfl

end Table

end Wireline
