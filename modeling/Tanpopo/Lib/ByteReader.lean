import Tanpopo.Lib.Swift
/-!
# Readers of bytes

A reader takes bytes from an offset on and moves the offset. `Stable`: on the
start of the bytes it runs out of them or ends as it does on all of them.
`Mirrors`: whatever one reader accepts, another accepts up to the same offset.
`Calm`: no trap on data of a length that is an `Int`.
-/

namespace Tanpopo.Swift

open Outcome

def ByteReader (ε α : Type) := Data → Nat → Outcome ε (α × Nat)

namespace ByteReader
variable {ε α β γ δ σ τ : Type}

instance : Monad (ByteReader ε) where
  pure a := fun _ offset => ok (a, offset)
  bind r f := fun data offset => (r data offset).bind fun x => f x.1 data x.2

def fail (error : ε) : ByteReader ε α := fun _ _ => threw error

/-- Code that reads nothing. -/
def lift (x : Outcome ε α) : ByteReader ε α := fun _ offset => x.bind fun a => ok (a, offset)

/-- `guard condition else { throw error }`. -/
def guard (condition : Prop) [Decidable condition] (error : ε) : ByteReader ε Unit :=
  if condition then pure () else fail error

/-- `offset += count`. -/
def advance (count : Nat) : ByteReader ε Unit := fun _ offset =>
  if offset + count < 2 ^ 63 then ok ((), offset + count) else trap

/-- The byte at the offset. -/
def byte (short : ε) : ByteReader ε UInt8 := fun data offset =>
  match data[offset]? with
  | none => threw short
  | some b => (advance 1 data offset).bind fun x => ok (b, x.2)

/-- The next `count` bytes, if there are as many. -/
def bytes (short : ε) (count : Nat) : ByteReader ε Data := fun data offset =>
  if (count : Int) ≤ data.length - offset then
    (advance count data offset).bind fun x => ok ((data.drop offset).take count, x.2)
  else threw short

/-- `count` turns of a loop. -/
def loop (step : σ → ByteReader ε σ) : Nat → σ → ByteReader ε σ
  | 0, s => pure s
  | count + 1, s => do
    let s ← step s
    loop step count s

theorem bind_apply (r : ByteReader ε α) (f : α → ByteReader ε β) (data : Data) (offset : Nat) :
    (r >>= f) data offset = (r data offset).bind fun x => f x.1 data x.2 := rfl

theorem guard_bind {condition : Prop} [Decidable condition] {error : ε} {f : Unit → ByteReader ε β} (h : condition) :
    (guard condition error >>= f) = f () := by
  rw [guard, if_pos h]
  rfl

theorem bind_ok {r : ByteReader ε α} {f : α → ByteReader ε β} {data : Data} {offset next : Nat} {b : β}
    (h : (r >>= f) data offset = ok (b, next)) :
    ∃ a middle, r data offset = ok (a, middle) ∧ f a data middle = ok (b, next) := by
  rw [bind_apply] at h
  cases hr : r data offset with
  | ok x =>
    rw [hr] at h
    exact ⟨x.1, x.2, rfl, h⟩
  | threw e => rw [hr] at h; cases h
  | trap => rw [hr] at h; cases h

/-! ## Starts of the bytes -/

/-- On a start of the bytes the reader is short of them or ends as on all of them. -/
def Stable (short : ε) (r : ByteReader ε α) : Prop :=
  ∀ data more offset, r data offset = threw short ∨ r (data ++ more) offset = r data offset

section Stable
variable {short : ε}

theorem stable_pure (a : α) : Stable short (pure a : ByteReader ε α) := fun _ _ _ => .inr rfl

theorem stable_fail (error : ε) : Stable short (fail error : ByteReader ε α) := fun _ _ _ => .inr rfl

theorem stable_lift (x : Outcome ε α) : Stable short (lift x) := fun _ _ _ => .inr rfl

theorem stable_guard (condition : Prop) [Decidable condition] (error : ε) : Stable short (guard condition error) := by
  unfold guard
  split_ifs
  · exact stable_pure ()
  · exact stable_fail error

theorem Stable.bind {r : ByteReader ε α} {f : α → ByteReader ε β} (hr : Stable short r) (hf : ∀ a, Stable short (f a)) :
    Stable short (r >>= f) := by
  intro data more offset
  rw [bind_apply, bind_apply]
  rcases hr data more offset with hshort | hsame
  · rw [hshort]
    exact .inl rfl
  · rw [hsame]
    cases r data offset with
    | ok x => exact hf x.1 data more x.2
    | threw e => exact .inr rfl
    | trap => exact .inr rfl

theorem stable_byte : Stable short (byte short) := by
  intro data more offset
  unfold byte
  by_cases h : offset < data.length
  · rw [List.getElem?_append_left h]
    exact .inr rfl
  · rw [List.getElem?_eq_none (Nat.le_of_not_lt h)]
    exact .inl rfl

theorem stable_bytes (count : Nat) : Stable short (bytes short count) := by
  intro data more offset
  unfold bytes
  by_cases h : (count : Int) ≤ data.length - offset
  · have hwhole : (count : Int) ≤ (data ++ more).length - offset := by
      rw [List.length_append]
      push_cast
      omega
    have hsame : ((data ++ more).drop offset).take count = (data.drop offset).take count := by
      rw [List.drop_append_of_le_length (by omega), List.take_append_of_le_length]
      rw [List.length_drop]
      omega
    rw [if_pos h, if_pos hwhole, hsame]
    exact .inr rfl
  · rw [if_neg h]
    exact .inl rfl

theorem stable_loop {step : σ → ByteReader ε σ} (hstep : ∀ s, Stable short (step s)) (count : Nat) (s : σ) :
    Stable short (loop step count s) := by
  induction count generalizing s with
  | zero => exact stable_pure s
  | succ count ih => exact (hstep s).bind fun s => ih s

theorem stable_foldlM {step : σ → α → ByteReader ε σ} (hstep : ∀ s a, Stable short (step s a)) (l : List α) (s : σ) :
    Stable short (l.foldlM step s) := by
  induction l generalizing s with
  | nil => exact stable_pure s
  | cons a rest ih =>
    rw [List.foldlM_cons]
    exact (hstep s a).bind fun s => ih s

end Stable

/-! ## Readers that go the same way -/

/-- Where `r` ends in a value, `s` ends at the same offset in a related one. -/
def Mirrors (R : α → β → Prop) (r : ByteReader ε α) (s : ByteReader ε β) : Prop :=
  ∀ data offset a next, r data offset = ok (a, next) → ∃ b, s data offset = ok (b, next) ∧ R a b

section Mirrors
variable {R : α → β → Prop} {S : γ → δ → Prop}

theorem mirrors_pure {a : α} {b : β} (h : R a b) : Mirrors R (pure a : ByteReader ε α) (pure b) := by
  intro data offset a' next heq
  cases heq
  exact ⟨b, rfl, h⟩

theorem mirrors_fail {error : ε} {s : ByteReader ε β} : Mirrors R (fail error) s := nofun

theorem mirrors_refl (r : ByteReader ε α) : Mirrors Eq r r := fun _ _ a _ h => ⟨a, h, rfl⟩

theorem Mirrors.bind {r : ByteReader ε α} {s : ByteReader ε β} {f : α → ByteReader ε γ} {g : β → ByteReader ε δ}
    (h : Mirrors R r s) (hfg : ∀ a b, R a b → Mirrors S (f a) (g b)) : Mirrors S (r >>= f) (s >>= g) := by
  intro data offset c next heq
  obtain ⟨a, middle, ha, hc⟩ := bind_ok heq
  obtain ⟨b, hb, hab⟩ := h data offset a middle ha
  obtain ⟨d, hd, hcd⟩ := hfg a b hab data middle c next hc
  exact ⟨d, by rw [bind_apply, hb]; exact hd, hcd⟩

/-- Code that stays where it is. -/
def Still (r : ByteReader ε α) : Prop := ∀ data offset a next, r data offset = ok (a, next) → next = offset

theorem still_pure (a : α) : Still (pure a : ByteReader ε α) := by
  intro data offset b next h
  cases h
  rfl

theorem still_lift (x : Outcome ε α) : Still (lift x) := by
  intro data offset b next h
  cases x <;> cases h
  rfl

theorem still_guard (condition : Prop) [Decidable condition] (error : ε) : Still (guard condition error) := by
  unfold guard
  split_ifs
  · exact still_pure ()
  · exact nofun

theorem Mirrors.still_bind {r : ByteReader ε α} {f : α → ByteReader ε γ} {s : ByteReader ε δ} (hr : Still r)
    (hf : ∀ a, Mirrors S (f a) s) : Mirrors S (r >>= f) s := by
  intro data offset c next heq
  obtain ⟨a, middle, ha, hc⟩ := bind_ok heq
  rw [hr data offset a middle ha] at hc
  exact hf a data offset c next hc

theorem Mirrors.bind_still {r : ByteReader ε α} {s : ByteReader ε β} {f : α → ByteReader ε γ} (h : Mirrors R r s)
    (hf : ∀ a, Still (f a)) : Mirrors (fun _ _ => True) (r >>= f) s := by
  intro data offset c next heq
  obtain ⟨a, middle, ha, hc⟩ := bind_ok heq
  obtain ⟨b, hb, -⟩ := h data offset a middle ha
  rw [hf a data middle c next hc]
  exact ⟨b, hb, trivial⟩

theorem mirrors_loop {T : σ → τ → Prop} {step : σ → ByteReader ε σ} {turn : τ → ByteReader ε τ}
    (h : ∀ s t, T s t → Mirrors T (step s) (turn t)) (count : Nat) {s : σ} {t : τ} (hst : T s t) :
    Mirrors T (loop step count s) (loop turn count t) := by
  induction count generalizing s t with
  | zero => exact mirrors_pure hst
  | succ count ih => exact (h s t hst).bind fun s t hst => ih hst

end Mirrors

/-! ## Traps -/

/-- The reader does not trap on data whose length is an `Int`. -/
def Calm (r : ByteReader ε α) : Prop := ∀ data offset, data.length < 2 ^ 63 → r data offset ≠ trap

section Calm
variable {r : ByteReader ε α} {f : α → ByteReader ε β} {step : σ → ByteReader ε σ} {data : Data} {offset : Nat}

theorem bind_ne_trap_iff : (r >>= f) data offset ≠ trap ↔
    r data offset ≠ trap ∧ ∀ a next, r data offset = ok (a, next) → f a data next ≠ trap := by
  rw [bind_apply]
  cases r data offset with
  | ok x =>
    refine ⟨fun h => ⟨nofun, fun a next heq => ?_⟩, fun h => h.2 x.1 x.2 rfl⟩
    cases heq
    exact h
  | threw e => exact ⟨fun _ => ⟨nofun, nofun⟩, nofun⟩
  | trap => exact ⟨fun h => absurd rfl h, fun h => absurd rfl h.1⟩

/-- A loop does not trap when no turn does that it comes to. -/
theorem loop_ne_trap_iff {count : Nat} {s : σ} : loop step count s data offset ≠ trap ↔
    ∀ k < count, ∀ s' next, loop step k s data offset = ok (s', next) → step s' data next ≠ trap := by
  induction count generalizing s offset with
  | zero => exact ⟨nofun, nofun⟩
  | succ count ih =>
    rw [loop, bind_ne_trap_iff]
    constructor
    · rintro ⟨hstep, hrest⟩ k hk s' next hloop
      cases k with
      | zero =>
        cases hloop
        exact hstep
      | succ k =>
        obtain ⟨s'', middle, hfirst, hloop⟩ := bind_ok hloop
        exact ih.1 (hrest s'' middle hfirst) k (by omega) s' next hloop
    · intro h
      refine ⟨h 0 (by omega) s offset rfl, fun s' middle hfirst => ih.2 ?_⟩
      intro k hk s'' next hloop
      refine h (k + 1) (by omega) s'' next ?_
      rw [loop, bind_apply, hfirst]
      exact hloop

theorem calm_pure (a : α) : Calm (pure a : ByteReader ε α) := nofun

theorem calm_fail (error : ε) : Calm (fail error : ByteReader ε α) := nofun

theorem calm_guard (condition : Prop) [Decidable condition] (error : ε) : Calm (guard condition error) := by
  unfold guard
  split_ifs
  · exact calm_pure ()
  · exact calm_fail error

theorem calm_lift {x : Outcome ε α} (h : x ≠ trap) : Calm (lift x) := by
  intro data offset _
  cases x with
  | ok a => exact nofun
  | threw e => exact nofun
  | trap => exact absurd rfl h

theorem Calm.bind (hr : Calm r) (hf : ∀ a, Calm (f a)) : Calm (r >>= f) := fun data offset hlength =>
  bind_ne_trap_iff.2 ⟨hr data offset hlength, fun a next _ => hf a data next hlength⟩

/-- What comes after a calm reader decides. -/
theorem Calm.bind_ne_trap_iff (hr : Calm r) (hlength : data.length < 2 ^ 63) : (r >>= f) data offset ≠ trap ↔
    ∀ a next, r data offset = ok (a, next) → f a data next ≠ trap :=
  ByteReader.bind_ne_trap_iff.trans (and_iff_right (hr data offset hlength))

/-- What comes before calm readers decides. -/
theorem bind_calm_ne_trap_iff (hf : ∀ a, Calm (f a)) (hlength : data.length < 2 ^ 63) :
    (r >>= f) data offset ≠ trap ↔ r data offset ≠ trap :=
  bind_ne_trap_iff.trans (and_iff_left fun a next _ => hf a data next hlength)

theorem calm_byte (short : ε) : Calm (byte short) := by
  intro data offset hlength
  unfold byte
  split
  · exact nofun
  · rename_i b hb
    obtain ⟨hbound, -⟩ := List.getElem?_eq_some_iff.1 hb
    rw [advance, if_pos (by omega)]
    exact nofun

theorem calm_bytes (short : ε) (count : Nat) : Calm (bytes short count) := by
  intro data offset hlength
  unfold bytes
  split_ifs
  · rw [advance, if_pos (by omega)]
    exact nofun
  · exact nofun

theorem calm_loop (hstep : ∀ s, Calm (step s)) (count : Nat) (s : σ) : Calm (loop step count s) :=
  fun data _ hlength => loop_ne_trap_iff.2 fun _ _ s' next _ => hstep s' data next hlength

theorem calm_foldlM {step : σ → α → ByteReader ε σ} (hstep : ∀ s a, Calm (step s a)) (l : List α) (s : σ) :
    Calm (l.foldlM step s) := by
  induction l generalizing s with
  | nil => exact calm_pure s
  | cons a rest ih =>
    rw [List.foldlM_cons]
    exact (hstep s a).bind fun s => ih s

end Calm

/-- Where `r` does not trap it ends as `s` does. -/
def UpToTraps (r s : ByteReader ε α) : Prop := ∀ data offset, r data offset = trap ∨ r data offset = s data offset

section UpToTraps
variable {r s : ByteReader ε α}

theorem upToTraps_refl (r : ByteReader ε α) : UpToTraps r r := fun _ _ => .inr rfl

theorem upToTraps_trap : UpToTraps (lift trap) r := fun _ _ => .inl rfl

theorem UpToTraps.eq_ok (h : UpToTraps r s) {data : Data} {offset : Nat} {x : α × Nat} (hr : r data offset = ok x) :
    s data offset = ok x := by
  rcases h data offset with htrap | hsame
  · rw [htrap] at hr
    cases hr
  · rw [← hsame, hr]

theorem UpToTraps.bind {f g : α → ByteReader ε β} (h : UpToTraps r s) (hfg : ∀ a, UpToTraps (f a) (g a)) :
    UpToTraps (r >>= f) (s >>= g) := by
  intro data offset
  rw [bind_apply, bind_apply]
  rcases h data offset with htrap | hsame
  · rw [htrap]
    exact .inl rfl
  · rw [hsame]
    cases s data offset with
    | ok x => exact hfg x.1 data x.2
    | threw e => exact .inr rfl
    | trap => exact .inl rfl

theorem upToTraps_loop {step turn : σ → ByteReader ε σ} (h : ∀ s, UpToTraps (step s) (turn s)) (count : Nat) (s : σ) :
    UpToTraps (loop step count s) (loop turn count s) := by
  induction count generalizing s with
  | zero => exact upToTraps_refl _
  | succ count ih => exact (h s).bind fun s => ih s

/-- A loop does not trap when no turn does that stands after turns of a reader with fewer traps. -/
theorem loop_ne_trap_iff_free {step : σ → ByteReader ε σ} (free : Nat → σ → ByteReader ε σ) (bound : Nat) {count : Nat} {s : σ}
    {data : Data} {offset : Nat} (hstep : ∀ depth ≥ bound, ∀ s, UpToTraps (step s) (free depth s))
    (hfree : ∀ depth depth', depth ≤ depth' → ∀ s, UpToTraps (free depth s) (free depth' s)) :
    loop step count s data offset ≠ trap ↔
      ∀ k < count, ∀ depth s' next, loop (free depth) k s data offset = ok (s', next) → step s' data next ≠ trap := by
  constructor
  · intro h k hk depth s' next hrun
    have hstart : loop step k s data offset ≠ trap :=
      loop_ne_trap_iff.2 fun j hj s'' middle hbefore => loop_ne_trap_iff.1 h j (by omega) s'' middle hbefore
    have hdeep := (upToTraps_loop (hfree depth (max depth bound) (by omega)) k s).eq_ok hrun
    rcases upToTraps_loop (hstep (max depth bound) (by omega)) k s data offset with htrap | hsame
    · exact absurd htrap hstart
    · exact loop_ne_trap_iff.1 h k hk s' next (hsame.trans hdeep)
  · intro h
    refine loop_ne_trap_iff.2 fun k hk s' next hrun => ?_
    exact h k hk bound s' next ((upToTraps_loop (hstep bound (le_refl _)) k s).eq_ok hrun)

/-- What comes after a reader that does not trap is found by a reader with fewer traps. -/
theorem bind_ne_trap_iff_free {f : α → ByteReader ε β} (free : Nat → ByteReader ε α) (bound : Nat) {data : Data} {offset : Nat}
    (hr : ∀ depth ≥ bound, UpToTraps r (free depth))
    (hfree : ∀ depth depth', depth ≤ depth' → UpToTraps (free depth) (free depth')) :
    (r >>= f) data offset ≠ trap ↔
      r data offset ≠ trap ∧ ∀ depth a next, free depth data offset = ok (a, next) → f a data next ≠ trap := by
  rw [bind_ne_trap_iff]
  refine and_congr_right fun hcalm => ⟨fun h depth a next hrun => ?_, fun h a next hrun => ?_⟩
  · rcases hr (max depth bound) (by omega) data offset with htrap | hsame
    · exact absurd htrap hcalm
    · exact h a next (hsame.trans ((hfree depth (max depth bound) (by omega)).eq_ok hrun))
  · exact h bound a next ((hr bound (le_refl _)).eq_ok hrun)

end UpToTraps

end ByteReader

end Tanpopo.Swift
