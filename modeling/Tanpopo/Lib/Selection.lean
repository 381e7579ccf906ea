import Mathlib.Algebra.Order.Group.Int
import Mathlib.Data.List.Perm.Basic
/-!
# Selecting the best of a collection

A loop that keeps the first element of the greatest score. Over a collection
without an order, its result is the same in every order exactly when one
element alone has the greatest score.
-/

namespace Tanpopo.Selection

variable {α β : Type} {evaluate : α → Option (β × Int)} {l : List α} {x : α} {b : β} {score : Int}

def step (evaluate : α → Option (β × Int)) (s : Option β × Int) (x : α) : Option β × Int :=
  match evaluate x with
  | some (b, score) => if s.2 < score then (some b, score) else s
  | none => s

/-- What the loop has selected at its end, if any score is above `-1`. -/
def select (evaluate : α → Option (β × Int)) (l : List α) : Option β := (l.foldl (step evaluate) (none, -1)).1

/-- No element of the list has a greater score. -/
def Greatest (evaluate : α → Option (β × Int)) (l : List α) (score : Int) : Prop :=
  ∀ y ∈ l, ∀ b' score', evaluate y = some (b', score') → score' ≤ score

theorem foldl_of_greatest {s : Option β × Int} (h : Greatest evaluate l s.2) : l.foldl (step evaluate) s = s := by
  induction l with
  | nil => rfl
  | cons y l ih =>
    have hstep : step evaluate s y = s := by
      unfold step
      split
      · rename_i heval
        exact if_neg (not_lt.mpr (h y List.mem_cons_self _ _ heval))
      · rfl
    rw [List.foldl_cons, hstep]
    exact ih fun z hz => h z (List.mem_cons_of_mem _ hz)

/-- What the loop keeps is where it began or an element, and has the greatest score. -/
theorem foldl_inv (evaluate : α → Option (β × Int)) (l : List α) (s : Option β × Int) :
    s.2 ≤ (l.foldl (step evaluate) s).2 ∧ Greatest evaluate l (l.foldl (step evaluate) s).2 ∧
      (l.foldl (step evaluate) s = s ∨
        ∃ x ∈ l, ∃ b, evaluate x = some (b, (l.foldl (step evaluate) s).2) ∧ (l.foldl (step evaluate) s).1 = some b) := by
  induction l generalizing s with
  | nil => exact ⟨le_refl _, fun _ hy => (nomatch hy), .inl rfl⟩
  | cons y l ih =>
    obtain ⟨hle, hgreatest, hfrom⟩ := ih (step evaluate s y)
    rw [List.foldl_cons]
    have hstep : s.2 ≤ (step evaluate s y).2 ∧ (∀ b' score', evaluate y = some (b', score') → score' ≤ (step evaluate s y).2) ∧
        (step evaluate s y = s ∨ ∃ b, evaluate y = some (b, (step evaluate s y).2) ∧ (step evaluate s y).1 = some b) := by
      unfold step
      cases heval : evaluate y with
      | none => exact ⟨le_refl _, fun _ _ h => (nomatch h), .inl rfl⟩
      | some found =>
        obtain ⟨b, score⟩ := found
        dsimp only
        split
        · rename_i hlt
          refine ⟨hlt.le, ?_, .inr ⟨b, rfl, rfl⟩⟩
          rintro b' score' ⟨⟩
          exact le_refl _
        · rename_i hlt
          refine ⟨le_refl _, ?_, .inl rfl⟩
          rintro b' score' ⟨⟩
          exact not_lt.mp hlt
    refine ⟨hstep.1.trans hle, ?_, ?_⟩
    · intro z hz b' score' heval
      rcases List.mem_cons.mp hz with rfl | hz
      · exact (hstep.2.1 b' score' heval).trans hle
      · exact hgreatest z hz b' score' heval
    · rcases hfrom with hsame | ⟨x, hx, b, heval, hb⟩
      · rw [hsame]
        rcases hstep.2.2 with hs | ⟨b, heval, hb⟩
        · exact .inl hs
        · exact .inr ⟨y, List.mem_cons_self, b, heval, hb⟩
      · exact .inr ⟨x, List.mem_cons_of_mem _ hx, b, heval, hb⟩

theorem select_cons_of_greatest (heval : evaluate x = some (b, score)) (hscore : -1 < score)
    (h : Greatest evaluate l score) : select evaluate (x :: l) = some b := by
  have hstep : step evaluate (none, -1) x = (some b, score) := by
    rw [step, heval]
    exact if_pos hscore
  rw [select, List.foldl_cons, hstep, foldl_of_greatest h]

/-- The one element of the greatest score is selected wherever it stands. -/
theorem select_eq_of_unique (heval : evaluate x = some (b, score)) (hscore : -1 < score) (hx : x ∈ l)
    (hgreatest : Greatest evaluate l score)
    (hunique : ∀ y ∈ l, ∀ b', evaluate y = some (b', score) → b' = b) : select evaluate l = some b := by
  obtain ⟨-, hgreatest', hfrom⟩ := foldl_inv evaluate l (none, -1)
  have hle := hgreatest' x hx b score heval
  rcases hfrom with hsame | ⟨y, hy, b', hy', hb'⟩
  · rw [hsame] at hle
    exact absurd hle (not_le.mpr hscore)
  · have hscore' : (l.foldl (step evaluate) (none, -1)).2 = score :=
      le_antisymm (hgreatest y hy b' _ hy') hle
    rw [hscore'] at hy'
    rw [select, hb', hunique y hy b' hy']

theorem select_eq_none (h : ∀ y ∈ l, ∀ b' score', evaluate y = some (b', score') → score' ≤ -1) :
    select evaluate l = none := by
  have hsame : l.foldl (step evaluate) (none, -1) = (none, -1) := foldl_of_greatest h
  rw [select, hsame]

/-- No two elements share the greatest score. -/
def UniqueBest (evaluate : α → Option (β × Int)) (l : List α) : Prop :=
  ∀ x ∈ l, ∀ y ∈ l, ∀ b b' score, evaluate x = some (b, score) → evaluate y = some (b', score) → -1 < score →
    Greatest evaluate l score → b = b'

theorem UniqueBest.perm {l' : List α} (h : UniqueBest evaluate l) (hperm : l'.Perm l) : UniqueBest evaluate l' := by
  intro x hx y hy b b' score hbx hby hscore hgreatest
  exact h x (hperm.mem_iff.mp hx) y (hperm.mem_iff.mp hy) b b' score hbx hby hscore fun z hz =>
    hgreatest z (hperm.mem_iff.mpr hz)

/-- The selection does not depend on the order exactly when the best is unique. -/
theorem select_perm_iff : (∀ l₁ l₂ : List α, l₁.Perm l → l₂.Perm l → select evaluate l₁ = select evaluate l₂) ↔
    UniqueBest evaluate l := by
  constructor
  · intro h x hx y hy b b' score hbx hby hscore hgreatest
    have hfirst : ∀ z ∈ l, ∀ c, evaluate z = some (c, score) → ∃ l', l'.Perm l ∧ select evaluate l' = some c := by
      intro z hz c hc
      obtain ⟨before, after, rfl⟩ := List.append_of_mem hz
      refine ⟨z :: (before ++ after), List.perm_middle.symm, select_cons_of_greatest hc hscore fun w hw => ?_⟩
      exact hgreatest w (List.perm_middle.mem_iff.mpr (List.mem_cons_of_mem _ hw))
    obtain ⟨l₁, hperm₁, hl₁⟩ := hfirst x hx b hbx
    obtain ⟨l₂, hperm₂, hl₂⟩ := hfirst y hy b' hby
    have heq := h l₁ l₂ hperm₁ hperm₂
    rw [hl₁, hl₂] at heq
    exact Option.some.inj heq
  · intro h l₁ l₂ hperm₁ hperm₂
    have hsame : ∀ l', l'.Perm l → select evaluate l' = select evaluate l := by
      intro l' hperm
      obtain ⟨hle, hgreatest, hfrom⟩ := foldl_inv evaluate l (none, -1)
      rcases hfrom with hnone | ⟨x, hx, b, heval, hb⟩
      · rw [hnone] at hgreatest
        rw [select_eq_none hgreatest, select_eq_none fun y hy => hgreatest y (hperm.mem_iff.mp hy)]
      · by_cases hscore : -1 < (l.foldl (step evaluate) (none, -1)).2
        · rw [show select evaluate l = some b from hb]
          refine select_eq_of_unique heval hscore (hperm.mem_iff.mpr hx) (fun y hy => hgreatest y (hperm.mem_iff.mp hy)) ?_
          intro y hy b' hy'
          exact h y (hperm.mem_iff.mp hy) x hx b' b _ hy' heval hscore hgreatest
        · have hlow : Greatest evaluate l (-1) := fun y hy b' score' hy' =>
            (hgreatest y hy b' score' hy').trans (not_lt.mp hscore)
          rw [select_eq_none hlow, select_eq_none fun y hy => hlow y (hperm.mem_iff.mp hy)]
    rw [hsame l₁ hperm₁, hsame l₂ hperm₂]

end Tanpopo.Selection
