import Mathlib.Order.WellFounded
/-!
# Loops with a variant

A loop runs its body until the body returns. When the body keeps an invariant
and makes the state smaller in a well-founded order, the loop returns.
-/

namespace Tanpopo.Looping

variable {σ β : Type}

/-- The loop with this body, for at most so many turns. -/
def loop (body : σ → σ ⊕ β) : Nat → σ → Option β
  | 0, _ => none
  | fuel + 1, s =>
    match body s with
    | .inl s' => loop body fuel s'
    | .inr result => some result

/-- The loop returns the result, if it may turn often enough. -/
def Returns (body : σ → σ ⊕ β) (s : σ) (result : β) : Prop := ∃ turns, ∀ fuel, turns ≤ fuel → loop body fuel s = some result

/-- What one turn does: it goes on in a smaller state that keeps the invariant, or returns what was asked for. -/
def Turn (I : σ → Prop) (smaller : σ → σ → Prop) (Q : β → Prop) (s : σ) : σ ⊕ β → Prop
  | .inl s' => I s' ∧ smaller s' s
  | .inr result => Q result

theorem exists_returns {body : σ → σ ⊕ β} {smaller : σ → σ → Prop} (wf : WellFounded smaller) {I : σ → Prop} {Q : β → Prop}
    (hbody : ∀ s, I s → Turn I smaller Q s (body s)) {s : σ} (hs : I s) : ∃ result, Q result ∧ Returns body s result := by
  induction s using wf.induction with
  | _ s ih =>
    have hturn := hbody s hs
    cases hstep : body s with
    | inl s' =>
      rw [hstep] at hturn
      obtain ⟨result, hresult, turns, hreturns⟩ := ih s' hturn.2 hturn.1
      refine ⟨result, hresult, turns + 1, fun fuel hfuel => ?_⟩
      obtain ⟨fuel, rfl⟩ := Nat.exists_eq_add_of_le' (Nat.le_of_add_left_le hfuel : 1 ≤ fuel)
      rw [loop, hstep]
      exact hreturns fuel (Nat.le_of_succ_le_succ hfuel)
    | inr result =>
      rw [hstep] at hturn
      refine ⟨result, hturn, 1, fun fuel hfuel => ?_⟩
      obtain ⟨fuel, rfl⟩ := Nat.exists_eq_add_of_le' hfuel
      rw [loop, hstep]

/-- The answer, however long the loops may run, once they may run long enough. -/
def Eventually {α : Type} (f : Nat → Option α) (a : α) : Prop := ∃ turns, ∀ fuel, turns ≤ fuel → f fuel = some a

namespace Eventually
variable {α β : Type} {f : Nat → Option α} {a a' : α} {b : β}

theorem const (a : α) : Eventually (fun _ => some a) a := ⟨0, fun _ _ => rfl⟩

theorem bind {g : α → Nat → Option β} (hf : Eventually f a) (hg : Eventually (g a) b) :
    Eventually (fun fuel => (f fuel).bind fun a => g a fuel) b := by
  obtain ⟨turns, hturns⟩ := hf
  obtain ⟨more, hmore⟩ := hg
  refine ⟨max turns more, fun fuel hfuel => ?_⟩
  change (f fuel).bind (fun a => g a fuel) = some b
  rw [hturns fuel (Nat.le_trans (Nat.le_max_left _ _) hfuel), Option.bind_some, hmore fuel (Nat.le_trans (Nat.le_max_right _ _) hfuel)]

theorem unique (h : Eventually f a) (h' : Eventually f a') : a = a' := by
  obtain ⟨turns, hturns⟩ := h
  obtain ⟨more, hmore⟩ := h'
  have heq := hturns (max turns more) (Nat.le_max_left _ _)
  rw [hmore (max turns more) (Nat.le_max_right _ _)] at heq
  exact (Option.some.inj heq).symm

end Eventually

end Tanpopo.Looping
