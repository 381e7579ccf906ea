import Mathlib.Data.List.Basic
/-!
# Runs of a transition system

A system is a step relation labelled with events. A run takes the events of a
list one after another. What every step keeps holds along every run.
-/

namespace Tanpopo

variable {σ ε : Type}

/-- The events lead from the first state to the second. -/
inductive Run (step : σ → ε → σ → Prop) : σ → List ε → σ → Prop
  | nil {s : σ} : Run step s [] s
  | cons {s s' s'' : σ} {e : ε} {events : List ε} :
      step s e s' → Run step s' events s'' → Run step s (e :: events) s''

namespace Run
variable {step : σ → ε → σ → Prop} {s s' s'' : σ} {events more : List ε}

theorem append (h : Run step s events s') (h' : Run step s' more s'') : Run step s (events ++ more) s'' := by
  induction h with
  | nil => exact h'
  | cons hstep _ ih => exact .cons hstep (ih h')

/-- What every step keeps, every run keeps. -/
theorem inv (I : σ → Prop) (hstep : ∀ s e s', I s → step s e s' → I s') (h : Run step s events s') (hs : I s) : I s' := by
  induction h with
  | nil => exact hs
  | cons he _ ih => exact ih (hstep _ _ _ hs he)

/-- A run is as monotone as its steps, in states that satisfy an invariant. -/
theorem mono (I : σ → Prop) (R : σ → σ → Prop) (hrefl : ∀ s, R s s) (htrans : ∀ a b c, R a b → R b c → R a c)
    (hstep : ∀ s e s', I s → step s e s' → I s' ∧ R s s') (h : Run step s events s') (hs : I s) : R s s' := by
  induction h with
  | nil => exact hrefl _
  | cons he _ ih =>
    obtain ⟨hi, hr⟩ := hstep _ _ _ hs he
    exact htrans _ _ _ hr (ih hi)

/-- Where each step that counts takes something from a measure, the measure bounds how many there are. -/
theorem bounded (I : σ → Prop) (measure : σ → ℕ) (counts : ε → Bool)
    (hstep : ∀ s e s', I s → step s e s' → I s' ∧ measure s' + (if counts e then 1 else 0) ≤ measure s)
    (h : Run step s events s') (hs : I s) : (events.filter counts).length + measure s' ≤ measure s := by
  induction h with
  | nil => simp
  | cons he _ ih =>
    obtain ⟨hi, hle⟩ := hstep _ _ _ hs he
    have hrest := ih hi
    rw [List.filter_cons]
    split at hle
    next hcounts =>
      rw [if_pos hcounts, List.length_cons]
      omega
    next hcounts =>
      rw [if_neg hcounts]
      omega

theorem split {n : ℕ} (h : Run step s events s') :
    ∃ mid, Run step s (events.take n) mid ∧ Run step mid (events.drop n) s' := by
  induction n generalizing s events with
  | zero => exact ⟨_, .nil, h⟩
  | succ n ih =>
    cases h with
    | nil => exact ⟨_, .nil, .nil⟩
    | cons hstep hrest =>
      obtain ⟨mid, hbefore, hafter⟩ := ih hrest
      exact ⟨mid, .cons hstep hbefore, hafter⟩

theorem eq_of_deterministic (hdet : ∀ s e s₁ s₂, step s e s₁ → step s e s₂ → s₁ = s₂) (h : Run step s events s')
    (h' : Run step s events s'') : s' = s'' := by
  induction h with
  | nil =>
    cases h'
    rfl
  | cons hstep _ ih =>
    cases h' with
    | cons hstep' hrest =>
      obtain rfl := hdet _ _ _ _ hstep hstep'
      exact ih hrest

/-- A property that a step keeps exactly when a condition holds is kept along a
run exactly when every step meets the condition. -/
theorem always_iff (hdet : ∀ s e s₁ s₂, step s e s₁ → step s e s₂ → s₁ = s₂) {P : σ → Prop} {C : σ → ε → Prop}
    (hlocal : ∀ s e s', P s → step s e s' → (P s' ↔ C s e)) (h : Run step s events s') (hs : P s) :
    (∀ n mid, Run step s (events.take n) mid → P mid) ↔
      ∀ n e mid, events[n]? = some e → Run step s (events.take n) mid → C mid e := by
  have htake : ∀ n e mid, events[n]? = some e → Run step s (events.take n) mid →
      ∃ next, step mid e next ∧ Run step s (events.take (n + 1)) next := by
    intro n e mid he hmid
    obtain ⟨mid', hbefore, hafter⟩ := h.split (n := n)
    obtain rfl := eq_of_deterministic hdet hmid hbefore
    obtain ⟨hlt, rfl⟩ := List.getElem?_eq_some_iff.1 he
    rw [List.drop_eq_getElem_cons hlt] at hafter
    cases hafter with
    | cons hstep hrest =>
      refine ⟨_, hstep, ?_⟩
      rw [List.take_succ_eq_append_getElem hlt]
      exact hmid.append (.cons hstep .nil)
  constructor
  · intro halways n e mid he hmid
    obtain ⟨next, hstep, hnext⟩ := htake n e mid he hmid
    exact (hlocal _ _ _ (halways n mid hmid) hstep).1 (halways (n + 1) next hnext)
  · intro hmeets n
    induction n with
    | zero =>
      intro mid hmid
      cases hmid
      exact hs
    | succ n ih =>
      intro mid hmid
      by_cases hlt : n < events.length
      · obtain ⟨before, hbefore, -⟩ := h.split (n := n)
        have he : events[n]? = some events[n] := List.getElem?_eq_getElem hlt
        obtain ⟨next, hstep, hnext⟩ := htake n _ before he hbefore
        obtain rfl := eq_of_deterministic hdet hmid hnext
        exact (hlocal _ _ _ (ih before hbefore) hstep).2 (hmeets n _ before he hbefore)
      · rw [List.take_of_length_le (by omega)] at hmid
        exact ih mid (by rwa [List.take_of_length_le (by omega)])

/-- Steps that are computed make a run. -/
theorem of_foldlM {next : σ → ε → Option σ} (h : events.foldlM next s = some s') :
    Run (fun s e s' => next s e = some s') s events s' := by
  induction events generalizing s with
  | nil =>
    cases h
    exact .nil
  | cons e events ih =>
    rw [List.foldlM_cons, Option.bind_eq_bind, Option.bind_eq_some_iff] at h
    obtain ⟨s₁, hstep, hrest⟩ := h
    exact .cons hstep (ih hrest)

end Run
end Tanpopo
