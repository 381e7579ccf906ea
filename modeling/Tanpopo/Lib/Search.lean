import Mathlib.Data.List.Infix
import Mathlib.Order.Bounds.Basic
/-!
# Searching a text for patterns

Where a pattern occurs in a text, what is left of an occurrence when the text
is cut or extended, and the first occurrence of any of several patterns.
-/

namespace Tanpopo.Search

variable {α : Type}

def OccursAt (pattern text : List α) (i : Nat) : Prop := pattern <+: text.drop i

section Occurs
variable {p t u : List α} {i : Nat}

theorem OccursAt.le_length (h : OccursAt p t i) (hp : p ≠ []) : i + p.length ≤ t.length := by
  have hle := h.length_le
  have hpos := List.length_pos_of_ne_nil hp
  rw [List.length_drop] at hle
  omega

/-- An occurrence stays where it is when the text grows. -/
theorem OccursAt.append (h : OccursAt p t i) (hp : p ≠ []) (u : List α) : OccursAt p (t ++ u) i := by
  have hle := h.le_length hp
  rw [OccursAt, List.drop_append_of_le_length (by omega)]
  exact h.trans (List.prefix_append _ _)

/-- An occurrence that ends inside `t` is one of `t`. -/
theorem OccursAt.of_append (h : OccursAt p (t ++ u) i) (hle : i + p.length ≤ t.length) : OccursAt p t i := by
  rw [OccursAt, List.drop_append_of_le_length (by omega)] at h
  exact List.prefix_of_prefix_length_le h (List.prefix_append _ _) (by rw [List.length_drop]; omega)

theorem occursAt_append_right : OccursAt p (t ++ u) (t.length + i) ↔ OccursAt p u i := by
  rw [OccursAt, OccursAt, List.drop_length_add_append]

end Occurs

/-- Where the first occurrence starts. -/
def rangeOf [DecidableEq α] (text pattern : List α) : Option Nat :=
  (List.range text.length).find? fun i => pattern.isPrefixOf (text.drop i)

theorem rangeOf_eq_some [DecidableEq α] {text pattern : List α} (hp : pattern ≠ []) {i : Nat} :
    rangeOf text pattern = some i ↔ IsLeast {j | OccursAt pattern text j} i := by
  rw [rangeOf, List.find?_range_eq_some]
  constructor
  · rintro ⟨hi, hlt, hmin⟩
    refine ⟨List.isPrefixOf_iff_prefix.1 hi, fun j hj => Nat.le_of_not_lt fun hji => ?_⟩
    have := hmin j hji
    rw [Bool.not_eq_true', ← Bool.not_eq_true, List.isPrefixOf_iff_prefix] at this
    exact this hj
  · rintro ⟨hi, hmin⟩
    have hle := OccursAt.le_length hi hp
    have hpos := List.length_pos_of_ne_nil hp
    refine ⟨List.isPrefixOf_iff_prefix.2 hi, List.mem_range.2 (by omega), fun j hji => ?_⟩
    rw [Bool.not_eq_true', ← Bool.not_eq_true, List.isPrefixOf_iff_prefix]
    exact fun hj => absurd (hmin hj) (Nat.not_le.2 hji)

/-- Some non-empty pattern occurs at `i`. -/
def AnyAt (patterns : List (List α)) (text : List α) (i : Nat) : Prop :=
  ∃ p ∈ patterns, p ≠ [] ∧ OccursAt p text i

section Any
variable {ps : List (List α)} {t u : List α} {i : Nat}

theorem AnyAt.lt_length (h : AnyAt ps t i) : i < t.length := by
  obtain ⟨p, -, hne, hp⟩ := h
  have hle := hp.le_length hne
  have hpos := List.length_pos_of_ne_nil hne
  omega

theorem AnyAt.append (h : AnyAt ps t i) (u : List α) : AnyAt ps (t ++ u) i := by
  obtain ⟨p, hm, hne, hp⟩ := h
  exact ⟨p, hm, hne, hp.append hne u⟩

theorem anyAt_append_right : AnyAt ps (t ++ u) (t.length + i) ↔ AnyAt ps u i :=
  exists_congr fun _ => and_congr_right fun _ => and_congr_right fun _ => occursAt_append_right

theorem AnyAt.exists_isLeast (h : AnyAt ps t i) : ∃ j, IsLeast {j | AnyAt ps t j} j := by
  induction i using Nat.strong_induction_on with
  | _ i ih =>
    by_cases hearlier : ∃ j < i, AnyAt ps t j
    · obtain ⟨j, hji, hj⟩ := hearlier
      exact ih j hji hj
    · exact ⟨i, h, fun j hj => Nat.le_of_not_lt fun hji => hearlier ⟨j, hji, hj⟩⟩

/-- A new occurrence reaches past the old text, so it starts less than a pattern before its end. -/
theorem AnyAt.reaches {n : Nat} (h : AnyAt ps (t ++ u) i) (hn : ∀ p ∈ ps, p.length ≤ n) (hnone : ∀ j, ¬ AnyAt ps t j) :
    t.length < i + n := by
  obtain ⟨p, hm, hne, hp⟩ := h
  have hpn := hn p hm
  by_contra hlt
  exact hnone i ⟨p, hm, hne, hp.of_append (by omega)⟩

end Any

/-- The first occurrence of any of the patterns, from the first occurrence of each. -/
theorem min?_filterMap_eq_some [DecidableEq α] {ps : List (List α)} {text : List α} {i : Nat} :
    (ps.filterMap fun p => if p = [] then none else rangeOf text p).min? = some i ↔ IsLeast {j | AnyAt ps text j} i := by
  have hfirst : ∀ p ∈ ps, p ≠ [] → ∀ j, OccursAt p text j → ∃ k ≤ j, rangeOf text p = some k := by
    intro p _ hne j hj
    cases hr : rangeOf text p with
    | some k => exact ⟨k, ((rangeOf_eq_some hne).1 hr).2 hj, rfl⟩
    | none =>
      have hle := hj.le_length hne
      have hpos := List.length_pos_of_ne_nil hne
      have := List.find?_eq_none.1 hr j (List.mem_range.2 (by omega))
      exact absurd (List.isPrefixOf_iff_prefix.2 hj) this
  have hmem : ∀ k, k ∈ (ps.filterMap fun p => if p = [] then none else rangeOf text p) ↔
      ∃ p ∈ ps, p ≠ [] ∧ rangeOf text p = some k := by
    intro k
    rw [List.mem_filterMap]
    refine exists_congr fun p => and_congr_right fun _ => ?_
    by_cases hne : p = []
    · simp [hne]
    · simp [hne]
  rw [List.min?_eq_some_iff]
  constructor
  · rintro ⟨hi, hmin⟩
    obtain ⟨p, hp, hne, hr⟩ := (hmem i).1 hi
    refine ⟨⟨p, hp, hne, ((rangeOf_eq_some hne).1 hr).1⟩, ?_⟩
    rintro j ⟨q, hq, hqne, hj⟩
    obtain ⟨k, hkj, hk⟩ := hfirst q hq hqne j hj
    exact (hmin k ((hmem k).2 ⟨q, hq, hqne, hk⟩)).trans hkj
  · rintro ⟨⟨p, hp, hne, hi⟩, hmin⟩
    obtain ⟨k, hki, hk⟩ := hfirst p hp hne i hi
    have hik : i = k := Nat.le_antisymm (hmin ⟨p, hp, hne, ((rangeOf_eq_some hne).1 hk).1⟩) hki
    subst hik
    refine ⟨(hmem i).2 ⟨p, hp, hne, hk⟩, fun j hj => ?_⟩
    obtain ⟨q, hq, hqne, hr⟩ := (hmem j).1 hj
    exact hmin ⟨q, hq, hqne, ((rangeOf_eq_some hqne).1 hr).1⟩

end Tanpopo.Search
