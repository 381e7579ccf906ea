import Mathlib
/-!
# Covering elements of a sorted list

`uncovered` keeps an element of a list when nothing kept before covers it. Of a
sorted list it keeps an antichain that covers every element.
-/

namespace Tanpopo.Covering

variable {α : Type} {covers : α → α → Bool} {l : List α} {x : α}

def keep (covers : α → α → Bool) (kept : List α) (x : α) : List α :=
  if kept.any (covers · x) then kept else kept ++ [x]

def uncovered (covers : α → α → Bool) (l : List α) : List α := l.foldl (keep covers) []

theorem uncovered_concat (l : List α) (x : α) : uncovered covers (l ++ [x]) = keep covers (uncovered covers l) x := by
  rw [uncovered, List.foldl_append]
  rfl

theorem mem_of_mem_uncovered (h : x ∈ uncovered covers l) : x ∈ l := by
  induction l using List.reverseRecOn with
  | nil => cases h
  | append_singleton l last ih =>
    rw [uncovered_concat, keep] at h
    split at h
    · exact List.mem_append_left _ (ih h)
    · rcases List.mem_append.1 h with h | h
      · exact List.mem_append_left _ (ih h)
      · exact List.mem_append_right _ h

/-- Everything is covered by something that is kept. -/
theorem exists_uncovered (hrefl : ∀ a, covers a a = true) (h : x ∈ l) : ∃ root ∈ uncovered covers l, covers root x = true := by
  induction l using List.reverseRecOn with
  | nil => cases h
  | append_singleton l last ih =>
    rw [uncovered_concat, keep]
    rcases List.mem_append.1 h with h | h
    · obtain ⟨root, hroot, hcovers⟩ := ih h
      split
      · exact ⟨root, hroot, hcovers⟩
      · exact ⟨root, List.mem_append_left _ hroot, hcovers⟩
    · obtain rfl := List.mem_singleton.1 h
      split
      · rename_i hany
        simpa using hany
      · exact ⟨x, by simp, hrefl x⟩

/-- What is kept of a sorted list is an antichain. -/
theorem pairwise_uncovered [LinearOrder α] (hrefl : ∀ a, covers a a = true) (hle : ∀ a b, covers a b = true → a ≤ b)
    (hsorted : l.Pairwise (· ≤ ·)) :
    (uncovered covers l).Pairwise fun a b => covers a b = false ∧ covers b a = false := by
  induction l using List.reverseRecOn with
  | nil => exact List.Pairwise.nil
  | append_singleton l last ih =>
    obtain ⟨hl, -, hlast⟩ := List.pairwise_append.1 hsorted
    rw [uncovered_concat, keep]
    split
    · exact ih hl
    · rename_i hany
      refine List.pairwise_append.2 ⟨ih hl, List.pairwise_singleton _ _, ?_⟩
      rintro a ha b hb
      obtain rfl := List.mem_singleton.1 hb
      have hnot : covers a b = false := by
        rw [List.any_eq_true, not_exists] at hany
        exact Bool.eq_false_iff.2 fun hcovers => hany a ⟨ha, hcovers⟩
      refine ⟨hnot, Bool.eq_false_iff.2 fun hcovers => ?_⟩
      have hab : a = b := le_antisymm (hlast a (mem_of_mem_uncovered ha) b List.mem_cons_self) (hle b a hcovers)
      rw [hab, hrefl] at hnot
      cases hnot

end Tanpopo.Covering
