import Tanpopo.Lib.Runs
/-!
# Handlers that interleave

A service keeps a state. A request starts a handler, which makes atomic calls
one after another; between two calls of one handler the others may make theirs,
and the outside may change the state. `Service.step` is one such move.

Two rules follow. A property of the state that every call keeps holds always.
A bad condition is over whenever no handler is in progress, if every handler
that brings it about makes a call that ends it, unless it is over before.
-/

namespace Tanpopo

/-- Calls one after another, each answer deciding what follows. -/
inductive Handler {κ : Type} (Ret : κ → Type) (α : Type) : Type
  | done (answer : α)
  | call (c : κ) (next : Ret c → Handler Ret α)

namespace Handler
variable {κ : Type} {Ret : κ → Type} {α β : Type}

def bind : Handler Ret α → (α → Handler Ret β) → Handler Ret β
  | .done a, f => f a
  | .call c next, f => .call c fun r => (next r).bind f

instance : Monad (Handler Ret) where
  pure := .done
  bind := Handler.bind

/-- A single call. -/
def perform (c : κ) : Handler Ret (Ret c) := .call c .done

@[simp] theorem pure_eq (a : α) : (pure a : Handler Ret α) = .done a := rfl

@[simp] theorem done_bind (a : α) (f : α → Handler Ret β) : (Handler.done a >>= f) = f a := rfl

@[simp] theorem call_bind (c : κ) (next : Ret c → Handler Ret α) (f : α → Handler Ret β) :
    (Handler.call c next >>= f) = .call c fun r => next r >>= f := rfl

@[simp] theorem perform_bind (c : κ) (f : Ret c → Handler Ret β) : (perform c >>= f) = .call c f := rfl

def inProgress : Handler Ret α → Bool
  | .done _ => false
  | .call _ _ => true

end Handler

/-- A state, the calls that act on it, the handlers of requests, and what the
outside does. `χ` is what the outside decides during a call; a call without a
result has to wait. -/
structure Service (σ : Type) {κ : Type} (Ret : κ → Type) (α ρ χ ξ : Type) where
  perform : (c : κ) → χ → σ → Option (Ret c × σ)
  handle : ρ → Handler Ret α
  event : ξ → σ → Option σ

structure System (σ : Type) {κ : Type} (Ret : κ → Type) (α : Type) where
  state : σ
  handlers : List (Handler Ret α)

/-- No handler is in progress. -/
def System.Quiet {σ κ α : Type} {Ret : κ → Type} (sys : System σ Ret α) : Prop :=
  ∀ h ∈ sys.handlers, h.inProgress = false

inductive Move (ρ χ ξ : Type)
  | accept (request : ρ)
  | advance (handler : Nat) (choice : χ)
  | event (e : ξ)

/-- What the outside decides during the move satisfies `ok`. -/
def Move.Allowed {ρ χ ξ : Type} (ok : χ → Prop) : Move ρ χ ξ → Prop
  | .advance _ choice => ok choice
  | _ => True

namespace Service
variable {σ κ : Type} {Ret : κ → Type} {α ρ χ ξ : Type} (S : Service σ Ret α ρ χ ξ)

def step (sys : System σ Ret α) : Move ρ χ ξ → Option (System σ Ret α)
  | .accept request => some { sys with handlers := sys.handlers ++ [S.handle request] }
  | .advance i choice =>
    match sys.handlers[i]? with
    | some (.call c next) =>
      (S.perform c choice sys.state).map fun result => ⟨result.2, sys.handlers.set i (next result.1)⟩
    | _ => none
  | .event e => (S.event e sys.state).map fun state => { sys with state }

/-- A move in which the outside decides as `ok` says. -/
def Step (ok : χ → Prop) (sys : System σ Ret α) (move : Move ρ χ ξ) (sys' : System σ Ret α) : Prop :=
  move.Allowed ok ∧ S.step sys move = some sys'

variable {S} {ok : χ → Prop} {sys sys' : System σ Ret α} {move : Move ρ χ ξ}

/-- What a move can do. -/
theorem step_cases (h : S.step sys move = some sys') :
    (∃ request, move = .accept request ∧ sys' = { sys with handlers := sys.handlers ++ [S.handle request] }) ∨
    (∃ i choice c next r state, move = .advance i choice ∧ sys.handlers[i]? = some (.call c next) ∧
      S.perform c choice sys.state = some (r, state) ∧ sys' = ⟨state, sys.handlers.set i (next r)⟩) ∨
    (∃ e state, move = .event e ∧ S.event e sys.state = some state ∧ sys' = { sys with state }) := by
  cases move with
  | accept request => exact .inl ⟨request, rfl, (Option.some.inj h).symm⟩
  | advance i choice =>
    simp only [step] at h
    split at h
    · next c next hget =>
      obtain ⟨⟨r, state⟩, hperform, rfl⟩ := Option.map_eq_some_iff.1 h
      exact .inr (.inl ⟨i, choice, c, next, r, state, rfl, hget, hperform, rfl⟩)
    · nomatch h
  | event e =>
    obtain ⟨state, hevent, rfl⟩ := Option.map_eq_some_iff.1 h
    exact .inr (.inr ⟨e, state, rfl, hevent, rfl⟩)

/-- Moves that are computed make a run. -/
theorem run_of_foldlM {moves : List (Move ρ χ ξ)} (hok : ∀ move ∈ moves, move.Allowed ok)
    (h : moves.foldlM S.step sys = some sys') : Run (S.Step ok) sys moves sys' := by
  induction moves generalizing sys with
  | nil =>
    cases h
    exact .nil
  | cons move moves ih =>
    rw [List.foldlM_cons, Option.bind_eq_bind, Option.bind_eq_some_iff] at h
    obtain ⟨sys₁, hstep, hrest⟩ := h
    exact .cons ⟨hok move List.mem_cons_self, hstep⟩ (ih (fun m hm => hok m (List.mem_cons_of_mem _ hm)) hrest)

/-! ## What every call keeps -/

variable (S ok)

/-- Every call and every event keeps the property. -/
structure Keeps (I : σ → Prop) : Prop where
  call : ∀ c choice s r s', ok choice → I s → S.perform c choice s = some (r, s') → I s'
  event : ∀ e s s', I s → S.event e s = some s' → I s'

variable {S ok} {I : σ → Prop}

theorem Keeps.step (h : S.Keeps ok I) (hi : I sys.state) (hstep : S.Step ok sys move sys') : I sys'.state := by
  obtain ⟨hok, hstep⟩ := hstep
  obtain ⟨request, rfl, rfl⟩ | ⟨i, choice, c, next, r, state, rfl, -, hperform, rfl⟩ | ⟨e, state, rfl, hevent, rfl⟩ :=
    step_cases hstep
  · exact hi
  · exact h.call c choice _ r state hok hi hperform
  · exact h.event e _ state hi hevent

theorem Keeps.run {moves : List (Move ρ χ ξ)} (h : S.Keeps ok I) (hrun : Run (S.Step ok) sys moves sys')
    (hi : I sys.state) : I sys'.state :=
  hrun.inv (fun sys => I sys.state) (fun _ _ _ hi hstep => h.step hi hstep) hi

/-! ## Who ends a bad condition -/

end Service

namespace Handler
variable {σ κ : Type} {Ret : κ → Type} {α β χ : Type}

section
variable (exec : (c : κ) → χ → σ → Option (Ret c × σ)) (ok : χ → Prop) (I Q : σ → Prop)

/-- As long as `Q` holds the handler goes on to a call that ends it. -/
def Ends : Handler Ret α → Prop
  | .done _ => False
  | .call c next => ∀ choice s r s', ok choice → I s → Q s → exec c choice s = some (r, s') → Q s' → Ends (next r)

/-- When a call of the handler brings `Q` about, the rest of the handler ends it. -/
def Answers : Handler Ret α → Prop
  | .done _ => True
  | .call c next => ∀ choice s r s', ok choice → I s → exec c choice s = some (r, s') →
    (¬ Q s → Q s' → (next r).Ends exec ok I Q) ∧ Answers (next r)

end

variable {exec : (c : κ) → χ → σ → Option (Ret c × σ)} {ok : χ → Prop} {I Q : σ → Prop}

/-- A call that always ends `Q`. -/
theorem Ends.of_call {c : κ} {next : Ret c → Handler Ret α}
    (h : ∀ choice s r s', ok choice → I s → exec c choice s = some (r, s') → ¬ Q s') :
    (call c next).Ends exec ok I Q :=
  fun choice s r s' hok hi _ hexec hq => (h choice s r s' hok hi hexec hq).elim

/-- A call that does not bring `Q` about leaves the answer to what follows. -/
theorem Answers.of_call {c : κ} {next : Ret c → Handler Ret α}
    (h : ∀ choice s r s', ok choice → I s → exec c choice s = some (r, s') → Q s' → Q s)
    (hnext : ∀ r, (next r).Answers exec ok I Q) : (call c next).Answers exec ok I Q :=
  fun choice s r s' hok hi hexec =>
    ⟨fun hbefore hafter => (hbefore (h choice s r s' hok hi hexec hafter)).elim, hnext r⟩

theorem Ends.bind {h : Handler Ret α} {f : α → Handler Ret β} (hends : h.Ends exec ok I Q) :
    (h >>= f).Ends exec ok I Q := by
  induction h with
  | done => exact hends.elim
  | call c next ih => exact fun choice s r s' hok hi hq hexec hq' => ih r (hends choice s r s' hok hi hq hexec hq')

theorem Answers.bind {h : Handler Ret α} {f : α → Handler Ret β} (hanswers : h.Answers exec ok I Q)
    (hf : ∀ a, (f a).Answers exec ok I Q) : (h >>= f).Answers exec ok I Q := by
  induction h with
  | done a => exact hf a
  | call c next ih =>
    intro choice s r s' hok hi hexec
    obtain ⟨hends, hrest⟩ := hanswers choice s r s' hok hi hexec
    exact ⟨fun hbefore hafter => (hends hbefore hafter).bind, ih r hrest⟩

theorem Ends.inProgress {h : Handler Ret α} (hends : h.Ends exec ok I Q) : h.inProgress = true := by
  cases h with
  | done => exact hends.elim
  | call => rfl

end Handler

namespace Service
variable {σ κ : Type} {Ret : κ → Type} {α ρ χ ξ : Type} (S : Service σ Ret α ρ χ ξ) (ok : χ → Prop) (I Q : σ → Prop)

/-- Every handler answers for `Q`, and while `Q` holds one of them is about to end it. -/
structure Watched (sys : System σ Ret α) : Prop where
  answers : ∀ h ∈ sys.handlers, h.Answers S.perform ok I Q
  ends : Q sys.state → ∃ h ∈ sys.handlers, h.Ends S.perform ok I Q

variable {S ok I Q} {sys sys' : System σ Ret α} {move : Move ρ χ ξ}

theorem Watched.quiet (h : S.Watched ok I Q sys) (hquiet : sys.Quiet) : ¬ Q sys.state := by
  intro hq
  obtain ⟨handler, hmem, hends⟩ := h.ends hq
  have hprogress := hends.inProgress
  rw [hquiet handler hmem] at hprogress
  exact Bool.noConfusion hprogress

theorem Watched.accept {request : ρ} (h : S.Watched ok I Q sys) (hhandle : (S.handle request).Answers S.perform ok I Q) :
    S.Watched ok I Q { sys with handlers := sys.handlers ++ [S.handle request] } where
  answers := by
    intro handler hmem
    rcases List.mem_append.1 hmem with hmem | hmem
    · exact h.answers handler hmem
    · rwa [List.mem_singleton.1 hmem]
  ends := by
    intro hq
    obtain ⟨handler, hmem, hends⟩ := h.ends hq
    exact ⟨handler, List.mem_append_left _ hmem, hends⟩

theorem Watched.advance {i : Nat} {choice : χ} {c : κ} {next : Ret c → Handler Ret α} {r : Ret c} {state : σ}
    (h : S.Watched ok I Q sys) (hok : ok choice) (hi : I sys.state) (hget : sys.handlers[i]? = some (.call c next))
    (hperform : S.perform c choice sys.state = some (r, state)) :
    S.Watched ok I Q ⟨state, sys.handlers.set i (next r)⟩ := by
  have hmem := List.mem_of_getElem? hget
  have hlt := (List.getElem?_eq_some_iff.1 hget).1
  have hanswers := h.answers _ hmem choice _ r state hok hi hperform
  have hnext : next r ∈ sys.handlers.set i (next r) := List.mem_set hlt _
  constructor
  · intro handler hin
    rcases List.mem_or_eq_of_mem_set hin with hin | rfl
    · exact h.answers handler hin
    · exact hanswers.2
  · intro hq
    by_cases hbefore : Q sys.state
    · -- whoever was about to end it still is: either another handler or this one
      obtain ⟨handler, hin, hends⟩ := h.ends hbefore
      obtain ⟨j, hj⟩ := List.getElem?_of_mem hin
      by_cases hij : i = j
      · subst hij
        obtain rfl := Option.some.inj (hget.symm.trans hj)
        exact ⟨next r, hnext, hends choice _ r state hok hi hbefore hperform hq⟩
      · refine ⟨handler, List.mem_of_getElem? (i := j) ?_, hends⟩
        rw [List.getElem?_set_ne hij, hj]
    · exact ⟨next r, hnext, hanswers.1 hbefore hq⟩

theorem Watched.event {state : σ} (h : S.Watched ok I Q sys) (hback : Q state → Q sys.state) :
    S.Watched ok I Q { sys with state } where
  answers := h.answers
  ends := fun hq => h.ends (hback hq)

variable (S ok I Q)

/-- What the rule asks of a service: an invariant, handlers that answer for
`Q`, and an outside that does not bring `Q` about. -/
structure Guards : Prop where
  keeps : S.Keeps ok I
  handle : ∀ request, (S.handle request).Answers S.perform ok I Q
  event : ∀ e s s', I s → S.event e s = some s' → Q s' → Q s

variable {S ok I Q}

theorem Guards.step (h : S.Guards ok I Q) (hw : I sys.state ∧ S.Watched ok I Q sys) (hstep : S.Step ok sys move sys') :
    I sys'.state ∧ S.Watched ok I Q sys' := by
  refine ⟨h.keeps.step hw.1 hstep, ?_⟩
  obtain ⟨hok, hstep⟩ := hstep
  obtain ⟨request, rfl, rfl⟩ | ⟨i, choice, c, next, r, state, rfl, hget, hperform, rfl⟩ | ⟨e, state, rfl, hevent, rfl⟩ :=
    step_cases hstep
  · exact hw.2.accept (h.handle request)
  · exact hw.2.advance hok hw.1 hget hperform
  · exact hw.2.event (h.event e _ state hw.1 hevent)

/-- From a state without handlers in which `Q` does not hold, `Q` is over
whenever the service is quiet. -/
theorem Guards.run {moves : List (Move ρ χ ξ)} {s : σ} (h : S.Guards ok I Q) (hi : I s) (hq : ¬ Q s)
    (hrun : Run (S.Step ok) ⟨s, []⟩ moves sys) (hquiet : sys.Quiet) : ¬ Q sys.state := by
  have hw : I sys.state ∧ S.Watched ok I Q sys :=
    hrun.inv (fun sys => I sys.state ∧ S.Watched ok I Q sys) (fun _ _ _ hw hstep => h.step hw hstep)
      ⟨hi, fun _ hmem => (List.not_mem_nil hmem).elim, fun hs => (hq hs).elim⟩
  exact hw.2.quiet hquiet

end Service
end Tanpopo
