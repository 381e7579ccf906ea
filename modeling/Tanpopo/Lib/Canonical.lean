import Mathlib.Data.List.Perm.Basic
/-!
# Canonical decomposition

Two texts are canonically equivalent when their decompositions are equal:
every character is replaced by what it is composed of, and marks that follow
one another are ordered by their classes. A character that is `Inert` takes no
part in this, wherever it stands.
-/

namespace Tanpopo.Canonical

variable {α : Type}

/-- What every character is composed of, and the class of the marks. Other characters have class zero. -/
structure Characters (α : Type) where
  decomposition : α → List α
  combiningClass : α → Nat

variable (characters : Characters α)

/-- A mark goes behind those of a smaller class; nothing goes behind a character that is no mark. -/
def place (c : α) : List α → List α
  | [] => [c]
  | d :: rest =>
    if 0 < characters.combiningClass d ∧ characters.combiningClass d < characters.combiningClass c then d :: place c rest
    else c :: d :: rest

/-- The canonical ordering. -/
def order (text : List α) : List α := text.foldr (place characters) []

/-- The canonical decomposition. -/
def decompose (text : List α) : List α := order characters (text.flatMap characters.decomposition)

/-- The character is no mark, and it is in the decomposition of no character but itself, of which it is all. -/
structure Inert (c : α) : Prop where
  class_eq : characters.combiningClass c = 0
  decomposition_eq : characters.decomposition c = [c]
  only : ∀ d, c ∈ characters.decomposition d → d = c

variable {characters} {c m : α} {text : List α}

/-! ## The order -/

theorem place_perm (c : α) (text : List α) : (place characters c text).Perm (c :: text) := by
  induction text with
  | nil => exact .refl _
  | cons d rest ih =>
    rw [place]
    split_ifs
    · exact (ih.cons d).trans (.swap c d rest)
    · exact .refl _

theorem order_perm (text : List α) : (order characters text).Perm text := by
  induction text with
  | nil => exact .refl _
  | cons c rest ih => exact (place_perm c _).trans (ih.cons c)

theorem place_concat (hclass : characters.combiningClass m = 0) (c : α) (text : List α) :
    place characters c (text ++ [m]) = place characters c text ++ [m] := by
  induction text with
  | nil => simp [place, hclass]
  | cons d rest ih =>
    rw [List.cons_append, place, place, ih]
    split_ifs <;> rfl

/-- A character that is no mark stays at the end. -/
theorem order_concat (hclass : characters.combiningClass m = 0) (text : List α) :
    order characters (text ++ [m]) = order characters text ++ [m] := by
  induction text with
  | nil => rfl
  | cons c rest ih =>
    change place characters c (order characters (rest ++ [m])) = place characters c (order characters rest) ++ [m]
    rw [ih, place_concat hclass]

/-! ## Characters that take no part -/

theorem Inert.decompose_concat (h : Inert characters m) (text : List α) :
    decompose characters (text ++ [m]) = decompose characters text ++ [m] := by
  rw [decompose, List.flatMap_append, List.flatMap_singleton, h.decomposition_eq, order_concat h.class_eq]
  rfl

theorem Inert.mem_decompose_iff (h : Inert characters m) : m ∈ decompose characters text ↔ m ∈ text := by
  rw [decompose, (order_perm _).mem_iff, List.mem_flatMap]
  constructor
  · rintro ⟨d, hd, hmem⟩
    rwa [← h.only d hmem]
  · intro hmem
    refine ⟨m, hmem, ?_⟩
    rw [h.decomposition_eq]
    exact List.mem_singleton_self m

end Tanpopo.Canonical
