import Mathlib.Data.List.Basic
/-!
# Patterns with stars

A text comes from a pattern when every star is replaced with some text.
-/

namespace Tanpopo

variable {α : Type}

/-- The pattern becomes the text when each star is replaced with some text. -/
inductive Glob (star : α) : List α → List α → Prop
  | nil : Glob star [] []
  | char {c : α} {pattern text : List α} (h : c ≠ star) : Glob star pattern text → Glob star (c :: pattern) (c :: text)
  | star (replaced : List α) {pattern text : List α} : Glob star pattern text → Glob star (star :: pattern) (replaced ++ text)

namespace Glob

variable {star c : α} {pattern text : List α}

theorem nil_iff : Glob star [] text ↔ text = [] := by
  constructor
  · intro h
    cases h
    rfl
  · rintro rfl
    exact .nil

theorem char_iff (hc : c ≠ star) : Glob star (c :: pattern) text ↔ ∃ rest, text = c :: rest ∧ Glob star pattern rest := by
  constructor
  · intro h
    cases h with
    | char _ h => exact ⟨_, rfl, h⟩
    | star _ _ => exact absurd rfl hc
  · rintro ⟨rest, rfl, h⟩
    exact .char hc h

theorem star_iff : Glob star (star :: pattern) text ↔ ∃ replaced rest, text = replaced ++ rest ∧ Glob star pattern rest := by
  constructor
  · intro h
    cases h with
    | char hc _ => exact absurd rfl hc
    | star replaced h => exact ⟨replaced, _, rfl, h⟩
  · rintro ⟨replaced, rest, rfl, h⟩
    exact .star replaced h

/-- Characters that are no stars stand for themselves. -/
theorem literal_iff {literal : List α} (h : star ∉ literal) :
    Glob star (literal ++ pattern) text ↔ ∃ rest, text = literal ++ rest ∧ Glob star pattern rest := by
  induction literal generalizing text with
  | nil => simp
  | cons c literal ih =>
    rw [List.mem_cons, not_or] at h
    rw [List.cons_append, char_iff (Ne.symm h.1)]
    constructor
    · rintro ⟨rest, rfl, hrest⟩
      obtain ⟨rest, rfl, hpattern⟩ := (ih h.2).1 hrest
      exact ⟨rest, rfl, hpattern⟩
    · rintro ⟨rest, rfl, hpattern⟩
      exact ⟨literal ++ rest, rfl, (ih h.2).2 ⟨rest, rfl, hpattern⟩⟩

/-- Only stars become nothing. -/
theorem empty_iff : Glob star pattern [] ↔ ∀ c ∈ pattern, c = star := by
  induction pattern with
  | nil => simp [nil_iff]
  | cons c pattern ih =>
    rw [List.forall_mem_cons, ← ih]
    constructor
    · intro h
      by_cases hc : c = star
      · subst hc
        obtain ⟨replaced, rest, htext, hrest⟩ := star_iff.1 h
        obtain ⟨-, rfl⟩ := List.append_eq_nil_iff.1 htext.symm
        exact ⟨rfl, hrest⟩
      · obtain ⟨rest, htext, -⟩ := (char_iff hc).1 h
        cases htext
    · rintro ⟨rfl, h⟩
      exact .star [] h

end Glob
end Tanpopo
