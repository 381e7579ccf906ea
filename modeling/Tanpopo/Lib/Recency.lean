import Mathlib.Data.List.Basic
import Mathlib.Data.List.Induction
/-!
# How recent a request is

A history is a list of requests, the last one at its end. `lastRequest` counts
to the last request of a key, so it orders the keys by how recent they are.
-/

namespace Tanpopo.Recency

variable {κ : Type} [DecidableEq κ]

/-- Which request was the last one of the key; zero where there was none. -/
def lastRequest (history : List κ) (key : κ) : Nat := history.length - history.reverse.idxOf key

variable {history : List κ} {key other request : κ}

theorem lastRequest_concat (history : List κ) (request key : κ) :
    lastRequest (history ++ [request]) key = if key = request then history.length + 1 else lastRequest history key := by
  unfold lastRequest
  rw [List.reverse_append, List.reverse_singleton, List.singleton_append, List.idxOf_cons, List.length_append, List.length_singleton]
  by_cases hkey : key = request
  · subst hkey
    simp
  · rw [if_neg hkey, beq_false_of_ne (Ne.symm hkey), cond_false]
    omega

theorem lastRequest_self (history : List κ) (request : κ) : lastRequest (history ++ [request]) request = history.length + 1 := by
  rw [lastRequest_concat, if_pos rfl]

theorem lastRequest_other (history : List κ) (h : key ≠ request) :
    lastRequest (history ++ [request]) key = lastRequest history key := by
  rw [lastRequest_concat, if_neg h]

theorem lastRequest_le (history : List κ) (key : κ) : lastRequest history key ≤ history.length := Nat.sub_le _ _

/-- Two keys that were requested were not requested last at once. -/
theorem lastRequest_injective (hpos : 0 < lastRequest history key) (h : lastRequest history key = lastRequest history other) :
    key = other := by
  induction history using List.reverseRecOn with
  | nil => cases hpos
  | append_singleton history request ih =>
    rw [lastRequest_concat, lastRequest_concat] at h
    rw [lastRequest_concat] at hpos
    have hkey := lastRequest_le history key
    have hother := lastRequest_le history other
    split_ifs at h hpos with hk ho ho
    · rw [hk, ho]
    · omega
    · omega
    · exact ih hpos h

end Tanpopo.Recency
