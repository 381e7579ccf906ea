import Mathlib.Data.List.DropRight
import Mathlib.Data.List.Basic
/-!
# Lines of a stream

A separator ends each line of a stream; what follows the last one is not yet a
line. A stream that arrives in pieces can be split piece by piece when what
follows the last separator is carried along.
-/

namespace Tanpopo.Lines

variable {α : Type} [DecidableEq α] {separator : α} {s t line : List α}

/-- The lines that a separator ends. -/
def terminated (separator : α) (s : List α) : List (List α) := (s.splitOn separator).dropLast

/-- What follows the last separator. -/
def unterminated (separator : α) (s : List α) : List α := (s.splitOn separator).getLast (List.splitOn_ne_nil _ _)

theorem splitOn_eq (separator : α) (s : List α) : s.splitOn separator = terminated separator s ++ [unterminated separator s] :=
  (List.dropLast_append_getLast (List.splitOn_ne_nil _ _)).symm

theorem terminated_of_not_mem (h : separator ∉ s) : terminated separator s = [] := by
  rw [terminated, List.splitOn_eq_singleton h]
  rfl

theorem unterminated_of_not_mem (h : separator ∉ s) : unterminated separator s = s := by
  simp only [unterminated, List.splitOn_eq_singleton h, List.getLast_singleton]

@[simp] theorem terminated_nil : terminated separator ([] : List α) = [] := rfl

@[simp] theorem unterminated_nil : unterminated separator ([] : List α) = [] := rfl

theorem splitOn_append_cons (s t : List α) : (s ++ separator :: t).splitOn separator =
    (terminated separator s ++ unterminated separator s :: terminated separator t) ++ [unterminated separator t] := by
  rw [List.splitOn_append_cons_self, splitOn_eq separator s, splitOn_eq separator t]
  simp

/-- A separator ends what was left of the lines before it. -/
theorem terminated_append_cons (s t : List α) : terminated separator (s ++ separator :: t) =
    terminated separator s ++ unterminated separator s :: terminated separator t := by
  rw [terminated, splitOn_append_cons, List.dropLast_concat]

theorem unterminated_append_cons (s t : List α) : unterminated separator (s ++ separator :: t) = unterminated separator t := by
  simp only [unterminated, splitOn_append_cons, List.getLast_append_singleton]

/-- What is left has no separator, and the stream ends in it. -/
theorem exists_unterminated (separator : α) (s : List α) : separator ∉ unterminated separator s ∧
    (s = unterminated separator s ∨ ∃ before, s = before ++ separator :: unterminated separator s) := by
  induction hn : s.length using Nat.strong_induction_on generalizing s with
  | _ n ih =>
    by_cases hmem : separator ∈ s
    · obtain ⟨first, rest, rfl, -⟩ := List.eq_append_cons_of_mem hmem
      rw [unterminated_append_cons]
      have hless : rest.length < n := by
        rw [← hn, List.length_append, List.length_cons]
        omega
      obtain ⟨hnot, hends⟩ := ih _ hless rest rfl
      refine ⟨hnot, .inr ?_⟩
      rcases hends with heq | ⟨before, heq⟩
      · exact ⟨first, by rw [← heq]⟩
      · exact ⟨first ++ separator :: before, by rw [List.append_assoc, List.cons_append, ← heq]⟩
    · rw [unterminated_of_not_mem hmem]
      exact ⟨hmem, .inl rfl⟩

theorem not_mem_unterminated : separator ∉ unterminated separator s := (exists_unterminated separator s).1

/-- The lines of two pieces: those of the first, and those of the second behind what the first leaves. -/
theorem terminated_append (s t : List α) :
    terminated separator (s ++ t) = terminated separator s ++ terminated separator (unterminated separator s ++ t) := by
  obtain ⟨hnot, heq | ⟨before, heq⟩⟩ := exists_unterminated separator s
  · have hs : separator ∉ s := by
      rw [heq]
      exact hnot
    rw [← heq, terminated_of_not_mem hs, List.nil_append]
  · generalize unterminated separator s = left at hnot heq ⊢
    rw [heq, List.append_assoc, List.cons_append, terminated_append_cons, terminated_append_cons, terminated_of_not_mem hnot,
      List.append_assoc]
    rfl

theorem unterminated_append (s t : List α) :
    unterminated separator (s ++ t) = unterminated separator (unterminated separator s ++ t) := by
  obtain ⟨hnot, heq | ⟨before, heq⟩⟩ := exists_unterminated separator s
  · rw [← heq]
  · generalize unterminated separator s = left at hnot heq ⊢
    rw [heq, List.append_assoc, List.cons_append, unterminated_append_cons]

/-- The first line of a text without one, to which a piece with a separator is added. -/
theorem exists_line (hs : separator ∉ s) (ht : separator ∈ t) :
    ∃ more, s ++ more ∈ terminated separator (s ++ t) := by
  obtain ⟨first, rest, rfl, hfirst⟩ := List.eq_append_cons_of_mem ht
  have hnot : separator ∉ s ++ first := by
    rw [List.mem_append, not_or]
    exact ⟨hs, hfirst⟩
  refine ⟨first, ?_⟩
  rw [← List.append_assoc, terminated_append_cons, unterminated_of_not_mem hnot]
  simp

/-! ## Last elements -/

omit [DecidableEq α] in
/-- The last elements of a text to which more is added are among its last elements and what is added. -/
theorem rtake_rtake_append (n : Nat) (s t : List α) : (s.rtake n ++ t).rtake n = (s ++ t).rtake n := by
  simp only [List.rtake, List.length_append, List.length_drop, List.drop_append, List.drop_drop]
  congr 2 <;> omega

end Tanpopo.Lines
