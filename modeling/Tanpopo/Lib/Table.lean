import Mathlib.Data.List.Nodup
import Mathlib.Data.List.Basic
import Mathlib.Algebra.BigOperators.Group.List.Basic
/-!
# Finite tables

A table holds one value for each of finitely many keys, like a built-in map.
Two tables are compared by what they hold, `get?`; the order of the entries is
not observable.
-/

namespace Tanpopo

/-- The entries of a table have different keys. -/
structure Table (κ ν : Type) where
  entries : List (κ × ν)
  nodup : (entries.map (·.1)).Nodup

namespace Table

variable {κ ν : Type}

def empty : Table κ ν := ⟨[], List.nodup_nil⟩

instance : EmptyCollection (Table κ ν) := ⟨empty⟩

def length (t : Table κ ν) : Nat := t.entries.length

/-- Drop the entries that fail a test. -/
def filter (keep : κ × ν → Bool) (t : Table κ ν) : Table κ ν :=
  ⟨t.entries.filter keep, t.nodup.sublist (List.filter_sublist.map _)⟩

variable [DecidableEq κ]

def get? (t : Table κ ν) (key : κ) : Option ν := (t.entries.find? fun e => e.1 = key).map (·.2)

def delete (key : κ) (t : Table κ ν) : Table κ ν := t.filter fun e => e.1 ≠ key

def set (key : κ) (value : ν) (t : Table κ ν) : Table κ ν where
  entries := (key, value) :: (t.delete key).entries
  nodup := by
    rw [List.map_cons, List.nodup_cons]
    refine ⟨fun hmem => ?_, (t.delete key).nodup⟩
    obtain ⟨e, he, hkey⟩ := List.mem_map.1 hmem
    exact of_decide_eq_true (List.mem_filter.1 he).2 hkey

variable {t : Table κ ν} {key key' : κ} {value : ν}

/-- `get?` returns a value exactly when the entry is there. -/
theorem get?_eq_some : t.get? key = some value ↔ (key, value) ∈ t.entries := by
  rw [get?, Option.map_eq_some_iff]
  constructor
  · rintro ⟨⟨k, v⟩, hfind, rfl⟩
    have hk : k = key := by simpa using List.find?_some hfind
    exact hk ▸ List.mem_of_find?_eq_some hfind
  · intro hmem
    cases hfind : t.entries.find? fun e => e.1 = key with
    | none => simpa using List.find?_eq_none.1 hfind _ hmem
    | some e =>
      have hk : e.1 = key := by simpa using List.find?_some hfind
      have he := List.inj_on_of_nodup_map t.nodup (List.mem_of_find?_eq_some hfind) hmem hk
      exact ⟨e, rfl, congrArg Prod.snd he⟩

@[simp] theorem get?_empty : (∅ : Table κ ν).get? key = none := rfl

@[simp] theorem get?_filter {keep : κ × ν → Bool} :
    (t.filter keep).get? key = some value ↔ t.get? key = some value ∧ keep (key, value) = true := by
  rw [get?_eq_some, get?_eq_some]
  exact List.mem_filter

theorem get?_delete_eq_some : (t.delete key').get? key = some value ↔ key ≠ key' ∧ t.get? key = some value := by
  rw [delete, get?_filter, decide_eq_true_eq]
  exact and_comm

theorem get?_set_eq_some {v : ν} :
    (t.set key' v).get? key = some value ↔ (key = key' ∧ v = value) ∨ (key ≠ key' ∧ t.get? key = some value) := by
  rw [← get?_delete_eq_some, get?_eq_some, get?_eq_some]
  change _ ∈ (key', v) :: (t.delete key').entries ↔ _
  rw [List.mem_cons, Prod.mk.injEq, eq_comm (a := value)]

theorem get?_delete : (t.delete key').get? key = if key = key' then none else t.get? key := by
  refine Option.ext fun v => ?_
  rw [get?_delete_eq_some]
  by_cases h : key = key' <;> simp [h]

theorem get?_set {v : ν} : (t.set key' v).get? key = if key = key' then some v else t.get? key := by
  refine Option.ext fun v' => ?_
  rw [get?_set_eq_some]
  by_cases h : key = key' <;> simp [h, eq_comm]

omit [DecidableEq κ] in
theorem ext_entries {t u : Table κ ν} (h : t.entries = u.entries) : t = u := by
  cases t
  cases u
  cases h
  rfl

@[simp] theorem delete_set : (t.set key value).delete key = t.delete key :=
  ext_entries (by simp [delete, set, filter])

@[simp] theorem set_delete : (t.delete key).set key value = t.set key value :=
  ext_entries (by simp [delete, set, filter])

omit [DecidableEq κ] in
theorem length_filter_le (keep : κ × ν → Bool) : (t.filter keep).length ≤ t.length := List.length_filter_le _ _

theorem length_set_le (key : κ) (value : ν) : (t.set key value).length ≤ t.length + 1 :=
  Nat.succ_le_succ (length_filter_le _)

theorem length_set_le_of_get? {v : ν} (h : t.get? key = some v) : (t.set key value).length ≤ t.length := by
  refine Nat.succ_le_of_lt (List.length_filter_lt_length_iff_exists.2 ⟨(key, v), get?_eq_some.1 h, ?_⟩)
  simp

/-! ## Values -/

section Map
variable {μ : Type} {f : ν → μ}

omit [DecidableEq κ] in
/-- Another value for every key. -/
def map (f : ν → μ) (t : Table κ ν) : Table κ μ where
  entries := t.entries.map fun e => (e.1, f e.2)
  nodup := by
    rw [List.map_map]
    exact t.nodup

theorem map_delete (key : κ) : (t.delete key).map f = (t.map f).delete key :=
  ext_entries (by simp [map, delete, filter, List.filter_map, Function.comp_def])

theorem map_set (key : κ) (value : ν) : (t.set key value).map f = (t.map f).set key (f value) :=
  ext_entries (congrArg ((key, f value) :: ·) (congrArg entries (map_delete key)))

theorem get?_map : (t.map f).get? key = (t.get? key).map f := by
  rw [get?, get?, map, List.find?_map, Option.map_map, Option.map_map]
  rfl

end Map

theorem length_delete_lt {v : ν} (h : t.get? key = some v) : (t.delete key).length < t.length := by
  refine List.length_filter_lt_length_iff_exists.2 ⟨(key, v), get?_eq_some.1 h, ?_⟩
  simp

/-! ## Totals -/

section Total
variable [AddCommMonoid ν]

/-- The sum of the values. -/
def total (t : Table κ ν) : ν := (t.entries.map (·.2)).sum

theorem sum_filter_ne {entries : List (κ × ν)} (hnodup : (entries.map (·.1)).Nodup) (key : κ) :
    (entries.map (·.2)).sum =
      ((entries.find? fun e => e.1 = key).map (·.2)).getD 0 + ((entries.filter fun e => e.1 ≠ key).map (·.2)).sum := by
  induction entries with
  | nil => simp
  | cons e rest ih =>
    rw [List.map_cons, List.nodup_cons] at hnodup
    rw [List.map_cons, List.sum_cons]
    by_cases hkey : e.1 = key
    · have hrest : rest.filter (fun e => e.1 ≠ key) = rest := by
        refine List.filter_eq_self.2 fun e' he' => decide_eq_true fun heq => hnodup.1 ?_
        exact List.mem_map.2 ⟨e', he', heq.trans hkey.symm⟩
      rw [List.find?_cons_of_pos (by simpa using hkey), List.filter_cons_of_neg (by simpa using hkey), hrest]
      rfl
    · rw [List.find?_cons_of_neg (by simpa using hkey), List.filter_cons_of_pos (by simpa using hkey), ih hnodup.2,
        List.map_cons, List.sum_cons]
      exact add_left_comm _ _ _

theorem total_eq_delete (key : κ) : t.total = (t.get? key).getD 0 + (t.delete key).total :=
  sum_filter_ne t.nodup key

theorem total_set (key : κ) (value : ν) : (t.set key value).total = value + (t.delete key).total := List.sum_cons

end Total

end Table
end Tanpopo
