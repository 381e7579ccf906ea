import Mathlib.Data.List.Pairwise
import Mathlib.Data.Int.Order.Basic
/-!
# Consecutive intervals

A list of intervals, each of at least one number, that follow each other from
one bound to another: every number between the bounds is in exactly one.
-/

namespace Tanpopo

/-- The numbers from `first` to `last`, both included. -/
structure Interval where
  first : Int
  last : Int
  deriving DecidableEq

namespace Interval

def Contains (r : Interval) (i : Int) : Prop := r.first ≤ i ∧ i ≤ r.last

instance (r : Interval) (i : Int) : Decidable (r.Contains i) := inferInstanceAs (Decidable (_ ∧ _))

/-- The intervals follow each other from `a` up to `b`, which is not included. -/
def Tiles (a : Int) : List Interval → Int → Prop
  | [], b => a = b
  | r :: rest, b => r.first = a ∧ r.first ≤ r.last ∧ Tiles (r.last + 1) rest b

variable {a b i : Int} {l : List Interval} {r r' : Interval}

theorem Tiles.le (h : Tiles a l b) : a ≤ b := by
  induction l generalizing a with
  | nil => exact le_of_eq h
  | cons r rest ih =>
    have := ih h.2.2
    have := h.1
    have := h.2.1
    omega

theorem Tiles.concat (h : Tiles a l b) (hfirst : r.first = b) (hle : r.first ≤ r.last) :
    Tiles a (l ++ [r]) (r.last + 1) := by
  induction l generalizing a with
  | nil => exact ⟨hfirst.trans h.symm, hle, rfl⟩
  | cons s rest ih => exact ⟨h.1, h.2.1, ih h.2.2⟩

theorem Tiles.bounds (h : Tiles a l b) (hr : r ∈ l) : a ≤ r.first ∧ r.first ≤ r.last ∧ r.last < b := by
  induction l generalizing a with
  | nil => cases hr
  | cons s rest ih =>
    obtain ⟨hfirst, hle, hrest⟩ := h
    rcases List.mem_cons.1 hr with rfl | hr
    · have := hrest.le
      exact ⟨le_of_eq hfirst.symm, hle, by omega⟩
    · obtain ⟨hlow, hmid, hhigh⟩ := ih hrest hr
      exact ⟨by omega, hmid, hhigh⟩

/-- Every number between the bounds is in one of them. -/
theorem Tiles.exists_contains (h : Tiles a l b) (ha : a ≤ i) (hb : i < b) : ∃ r ∈ l, r.Contains i := by
  induction l generalizing a with
  | nil =>
    have : a = b := h
    omega
  | cons s rest ih =>
    obtain ⟨hfirst, hle, hrest⟩ := h
    by_cases hi : i ≤ s.last
    · exact ⟨s, List.mem_cons_self, by omega, hi⟩
    · obtain ⟨r, hr, hcontains⟩ := ih hrest (by omega)
      exact ⟨r, List.mem_cons_of_mem _ hr, hcontains⟩

/-- Two intervals have no number in common. -/
def Apart (r r' : Interval) : Prop := ∀ i, ¬ (r.Contains i ∧ r'.Contains i)

theorem Apart.symm (h : Apart r r') : Apart r' r := fun i hi => h i hi.symm

theorem Tiles.apart (h : Tiles a l b) : l.Pairwise Apart := by
  induction l generalizing a with
  | nil => exact List.Pairwise.nil
  | cons s rest ih =>
    obtain ⟨-, -, hrest⟩ := h
    refine List.Pairwise.cons (fun r hr i hi => ?_) (ih hrest)
    have := (hrest.bounds hr).1
    have := hi.1.2
    have := hi.2.1
    omega

end Interval
end Tanpopo
