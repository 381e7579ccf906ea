import Mathlib.Data.List.Pairwise
import Mathlib.Data.List.Nodup
import Mathlib.Data.String.Basic
/-!
# Discovery packets and replays

`accept` lets a packet pass once: its time must lie within 30 seconds of the
receiver's clock, counted in whole seconds, and its sender and nonce must not
be remembered. Remembered nonces are dropped a minute after their arrival,
measured in nanoseconds, which is up to a second before the packet goes stale.
-/

namespace Tanpopo.Cluster

/-- The fields of a packet that `accept` reads. -/
structure Packet where
  version : Int64
  kind : String
  sender : String
  target : String
  nonce : String
  time : Int64
  deriving DecidableEq, Repr

def isHex (c : Char) : Bool := c.isDigit || ('a' ≤ c && c ≤ 'f') || ('A' ≤ c && c ≤ 'F')

/-- Sixteen bytes in hexadecimal. -/
def validID (value : String) : Bool := value.toList.length = 32 && value.toList.all isHex

def second : Int := 1000000000
def minute : Int := 60 * second
def seenLimit : Nat := 4096

/-- `time.Time.Unix`, for a time in nanoseconds. -/
def unix (now : Int) : Int64 := Int64.ofInt (now / second)

/-- The part of the service that `accept` uses. `seen` maps a sender and nonce
to the time of arrival. -/
structure Service where
  enabled : Bool
  nodeID : String
  closed : Bool
  seen : List (String × Int)

/-- The fields a packet is accepted by, the memory of nonces apart. -/
def Service.checks (s : Service) (now : Int) (p : Packet) : Bool :=
  let delta := unix now - p.time
  !(!s.enabled || (s.closed && p.kind != "response") || p.version != 2 || !validID p.sender || p.sender == s.nodeID ||
    !validID p.nonce || (p.target != "" && p.target != s.nodeID)) && !(decide (delta < -30) || decide (delta > 30))

def cacheKey (p : Packet) : String := p.sender ++ p.nonce

/-- Forget the nonces that arrived more than a minute ago. -/
def Service.prune (s : Service) (now : Int) : Service :=
  { s with seen := s.seen.filter fun e => !decide (now - e.2 > minute) }

def Service.remembers (s : Service) (key : String) : Prop := key ∈ s.seen.map (·.1)

instance (s : Service) (key : String) : Decidable (s.remembers key) := inferInstanceAs (Decidable (key ∈ _))

def Service.accept (s : Service) (now : Int) (p : Packet) : Bool × Service :=
  if s.checks now p then
    let s := s.prune now
    if s.remembers (cacheKey p) ∨ seenLimit ≤ s.seen.length then (false, s)
    else (true, { s with seen := (cacheKey p, now) :: s.seen })
  else (false, s)

/-! ## Runs between two configurations -/

inductive Event where
  /-- A packet arrives. -/
  | deliver (now : Int) (p : Packet)
  /-- The service shuts down; responses are still read. -/
  | close

def Service.step (s : Service) : Event → Service
  | .deliver now p => (s.accept now p).2
  | .close => { s with closed := true }

/-- Sender and nonce of the packets that are accepted, in order. -/
def acceptances (s : Service) : List Event → List (String × String)
  | [] => []
  | .deliver now p :: rest =>
    if (s.accept now p).1 then (p.sender, p.nonce) :: acceptances (s.accept now p).2 rest
    else acceptances (s.accept now p).2 rest
  | .close :: rest => acceptances { s with closed := true } rest

/-- The deliveries whose fields pass, in order. -/
def checked (s : Service) : List Event → List (Int × Packet)
  | [] => []
  | .deliver now p :: rest => if s.checks now p then (now, p) :: checked s rest else checked s rest
  | .close :: rest => checked { s with closed := true } rest

def times : List Event → List Int
  | [] => []
  | .deliver now _ :: rest => now :: times rest
  | .close :: rest => times rest

/-- Deliveries of one sender and nonce that pass the checks are at most a minute apart. -/
def Covered (s : Service) (events : List Event) : Prop :=
  (checked s events).Pairwise fun a b => (a.2.sender, a.2.nonce) = (b.2.sender, b.2.nonce) → b.1 - a.1 ≤ minute

instance (s : Service) (events : List Event) : Decidable (Covered s events) := inferInstanceAs (Decidable (List.Pairwise _ _))

/-! ## One delivery -/

/-- The checks look at the configuration and at `closed`, never at the memory. -/
theorem checked_congr {s t : Service} (he : s.enabled = t.enabled) (hn : s.nodeID = t.nodeID) (hc : s.closed = t.closed)
    (events : List Event) : checked s events = checked t events := by
  induction events generalizing s t with
  | nil => rfl
  | cons e rest ih =>
    cases e with
    | deliver now p =>
      have hchecks : s.checks now p = t.checks now p := by simp only [Service.checks, he, hn, hc]
      simp only [checked, hchecks, ih he hn hc]
    | close => exact ih he hn rfl

@[simp] theorem checked_accept (s : Service) (now : Int) (p : Packet) (events : List Event) :
    checked (s.accept now p).2 events = checked s events := by
  apply checked_congr <;> (unfold Service.accept; split <;> [skip; rfl]; dsimp only; split <;> rfl)

/-- What a delivery does: nothing, a pruning, or a pruning and a new entry. -/
theorem accept_cases (s : Service) (now : Int) (p : Packet) :
    (s.checks now p = false ∧ s.accept now p = (false, s)) ∨
    (s.checks now p = true ∧ ((s.prune now).remembers (cacheKey p) ∨ seenLimit ≤ (s.prune now).seen.length) ∧
      s.accept now p = (false, s.prune now)) ∨
    (s.checks now p = true ∧ ¬ (s.prune now).remembers (cacheKey p) ∧
      s.accept now p = (true, { s.prune now with seen := (cacheKey p, now) :: (s.prune now).seen })) := by
  unfold Service.accept
  cases hchecks : s.checks now p with
  | false => exact .inl ⟨rfl, rfl⟩
  | true =>
    rw [if_pos rfl]
    dsimp only
    by_cases h : (s.prune now).remembers (cacheKey p) ∨ seenLimit ≤ (s.prune now).seen.length
    · rw [if_pos h]
      exact .inr (.inl ⟨rfl, h, rfl⟩)
    · rw [if_neg h]
      exact .inr (.inr ⟨rfl, fun hr => h (.inl hr), rfl⟩)

theorem mem_prune {s : Service} {now : Int} {e : String × Int} :
    e ∈ (s.prune now).seen ↔ e ∈ s.seen ∧ now - e.2 ≤ minute := by
  simp [Service.prune]

theorem remembers_of_mem {s : Service} {key : String} {at_ : Int} (h : (key, at_) ∈ s.seen) : s.remembers key :=
  List.mem_map.2 ⟨_, h, rfl⟩

/-! ## Every replay inside a minute is refused -/

theorem time_mem_of_mem_checked {s : Service} {events : List Event} {d : Int × Packet} (h : d ∈ checked s events) :
    d.1 ∈ times events := by
  induction events generalizing s with
  | nil => cases h
  | cons e rest ih =>
    cases e with
    | close => exact ih h
    | deliver now p =>
      rw [checked] at h
      split at h
      · rcases List.mem_cons.1 h with rfl | h
        · exact List.mem_cons_self
        · exact List.mem_cons_of_mem _ (ih h)
      · exact List.mem_cons_of_mem _ (ih h)

/-- Only packets that pass the checks are accepted. -/
theorem mem_checked_of_mem_acceptances {s : Service} {events : List Event} {k : String × String}
    (h : k ∈ acceptances s events) : ∃ d ∈ checked s events, (d.2.sender, d.2.nonce) = k := by
  induction events generalizing s with
  | nil => cases h
  | cons e rest ih =>
    cases e with
    | close => exact ih h
    | deliver now p =>
      rw [acceptances] at h
      rcases accept_cases s now p with ⟨hc, heq⟩ | ⟨hc, -, heq⟩ | ⟨hc, -, heq⟩
      all_goals have hrest := checked_accept s now p rest
      · rw [if_neg (by rw [heq]; exact Bool.false_ne_true)] at h
        obtain ⟨d, hd, hk⟩ := ih h
        exact ⟨d, by rwa [checked, hc, if_neg Bool.false_ne_true, ← hrest], hk⟩
      · rw [if_neg (by rw [heq]; exact Bool.false_ne_true)] at h
        obtain ⟨d, hd, hk⟩ := ih h
        exact ⟨d, by rw [checked, hc, if_pos rfl, ← hrest]; exact List.mem_cons_of_mem _ hd, hk⟩
      · rw [if_pos (by rw [heq])] at h
        rw [checked, hc, if_pos rfl]
        rcases List.mem_cons.1 h with rfl | h
        · exact ⟨(now, p), List.mem_cons_self, rfl⟩
        · obtain ⟨d, hd, hk⟩ := ih h
          exact ⟨d, List.mem_cons_of_mem _ (hrest ▸ hd), hk⟩

/-- While a nonce is remembered and every later delivery of it comes within
the minute, it is not accepted again. -/
theorem not_accepted_of_remembered {s : Service} {events : List Event} {k : String × String} {at_ : Int}
    (hsorted : (times events).Pairwise (· ≤ ·)) (hmem : (k.1 ++ k.2, at_) ∈ s.seen)
    (hlate : ∀ d ∈ checked s events, (d.2.sender, d.2.nonce) = k → d.1 - at_ ≤ minute) : k ∉ acceptances s events := by
  induction events generalizing s with
  | nil => exact List.not_mem_nil
  | cons e rest ih =>
    cases e with
    | close => exact ih hsorted hmem hlate
    | deliver now p =>
      by_cases hold : now - at_ ≤ minute
      · obtain ⟨hfirst, hrest⟩ := List.pairwise_cons.1 hsorted
        have hkeep : (k.1 ++ k.2, at_) ∈ (s.prune now).seen := mem_prune.2 ⟨hmem, hold⟩
        have hlater : ∀ d ∈ checked (s.accept now p).2 rest, (d.2.sender, d.2.nonce) = k → d.1 - at_ ≤ minute := by
          intro d hd
          rw [checked_accept] at hd
          refine hlate d ?_
          rw [checked]
          split
          · exact List.mem_cons_of_mem _ hd
          · exact hd
        rw [acceptances]
        rcases accept_cases s now p with ⟨-, heq⟩ | ⟨-, -, heq⟩ | ⟨-, hfresh, heq⟩ <;> rw [heq] at hlater ⊢
        · exact ih hrest hmem hlater
        · exact ih hrest hkeep hlater
        · rw [if_pos rfl]
          refine List.not_mem_cons_of_ne_of_not_mem ?_ (ih hrest (List.mem_cons_of_mem _ hkeep) hlater)
          -- The packet just accepted has another key, for this one is remembered.
          rintro rfl
          exact hfresh (remembers_of_mem hkeep)
      · -- The entry is too old, and so is every delivery of `k` from here on: there is none.
        intro hk
        obtain ⟨d, hd, hdk⟩ := mem_checked_of_mem_acceptances hk
        have hnow : now ≤ d.1 := by
          rcases List.mem_cons.1 (time_mem_of_mem_checked hd) with h | h
          · exact h.ge
          · exact (List.pairwise_cons.1 hsorted).1 _ h
        have := hlate d hd hdk
        omega

theorem Covered.tail {s : Service} {now : Int} {p : Packet} {rest : List Event}
    (h : Covered s (.deliver now p :: rest)) : Covered (s.accept now p).2 rest := by
  rw [Covered, checked] at h
  rw [Covered, checked_accept]
  split at h
  · exact (List.pairwise_cons.1 h).2
  · exact h

/-- If deliveries of one nonce are at most a minute apart, none passes twice. -/
theorem acceptances_nodup {s : Service} {events : List Event} (hsorted : (times events).Pairwise (· ≤ ·))
    (h : Covered s events) : (acceptances s events).Nodup := by
  induction events generalizing s with
  | nil => exact List.nodup_nil
  | cons e rest ih =>
    cases e with
    | close => exact ih hsorted h
    | deliver now p =>
      have hrest := (List.pairwise_cons.1 hsorted).2
      have htail := h.tail
      rw [acceptances]
      rcases accept_cases s now p with ⟨-, heq⟩ | ⟨-, -, heq⟩ | ⟨hc, -, heq⟩ <;> rw [heq] at htail ⊢
      · exact ih hrest htail
      · exact ih hrest htail
      · rw [if_pos rfl]
        refine List.nodup_cons.2 ⟨not_accepted_of_remembered hrest List.mem_cons_self fun d hd hk => ?_, ih hrest htail⟩
        have hcov := h
        rw [Covered, checked, hc, if_pos rfl] at hcov
        rw [← heq, checked_accept] at hd
        exact (List.pairwise_cons.1 hcov).1 d hd hk.symm

/-! ## A replay after the minute passes -/

def Service.Forgot (s : Service) (k : String × String) (now : Int) : Prop :=
  ∀ at_, (k.1 ++ k.2, at_) ∈ s.seen → minute < now - at_

/-- Senders have one length, so sender and nonce can be read off the key. -/
theorem cacheKey_injective {p : Packet} {k : String × String} (hp : p.sender.toList.length = 32)
    (hk : k.1.toList.length = 32) (h : cacheKey p = k.1 ++ k.2) : (p.sender, p.nonce) = k := by
  have hlists : p.sender.toList ++ p.nonce.toList = k.1.toList ++ k.2.toList := by
    rw [← String.toList_append, ← String.toList_append]
    exact congrArg String.toList h
  obtain ⟨hsender, hnonce⟩ := List.append_inj hlists (hp.trans hk.symm)
  exact Prod.ext (String.toList_injective hsender) (String.toList_injective hnonce)

theorem sender_length_of_checks {s : Service} {now : Int} {p : Packet} (h : s.checks now p = true) :
    p.sender.toList.length = 32 := by
  simp only [Service.checks, validID, Bool.and_eq_true, Bool.not_eq_true', Bool.or_eq_false_iff,
    Bool.not_eq_false', decide_eq_true_eq] at h
  exact h.1.1.1.1.2.1

theorem checks_of_mem_checked {s : Service} {events : List Event} {d : Int × Packet} (h : d ∈ checked s events) :
    d.2.sender.toList.length = 32 := by
  induction events generalizing s with
  | nil => cases h
  | cons e rest ih =>
    cases e with
    | close => exact ih h
    | deliver now p =>
      rw [checked] at h
      split at h
      · rename_i hc
        rcases List.mem_cons.1 h with rfl | h
        · exact sender_length_of_checks hc
        · exact ih h
      · exact ih h

theorem prune_length_le (s : Service) (now : Int) : (s.prune now).seen.length ≤ s.seen.length :=
  List.length_filter_le _ _

/-- A delivery adds at most one entry. -/
theorem accept_length_le (s : Service) (now : Int) (p : Packet) :
    (s.accept now p).2.seen.length ≤ s.seen.length + 1 := by
  have hprune := prune_length_le s now
  rcases accept_cases s now p with ⟨-, heq⟩ | ⟨-, -, heq⟩ | ⟨-, -, heq⟩ <;> rw [heq]
  · exact Nat.le_succ _
  · exact Nat.le_succ_of_le hprune
  · exact Nat.succ_le_succ hprune

/-- With room in the table, a packet whose nonce was forgotten passes. -/
theorem accept_of_forgot {s : Service} {now : Int} {p : Packet} (hc : s.checks now p = true)
    (hroom : s.seen.length < seenLimit) (h : s.Forgot (p.sender, p.nonce) now) :
    s.accept now p = (true, { s.prune now with seen := (cacheKey p, now) :: (s.prune now).seen }) := by
  rcases accept_cases s now p with ⟨hf, -⟩ | ⟨-, hfull, -⟩ | ⟨-, -, heq⟩
  · rw [hc] at hf
    cases hf
  · rcases hfull with hr | hr
    · obtain ⟨⟨key, at_⟩, he, hkey⟩ := List.mem_map.1 hr
      obtain ⟨hmem, hold⟩ := mem_prune.1 he
      have hat : (key, at_) = (p.sender ++ p.nonce, at_) := congrArg (·, at_) hkey
      exact absurd hold (Int.not_le.2 (h at_ (hat ▸ hmem)))
    · exact absurd (Nat.le_trans hr (prune_length_le s now)) (Nat.not_le.2 hroom)
  · exact heq

/-- A delivery of another nonce remembers nothing about `k`. -/
theorem mem_seen_accept {s : Service} {now at_ : Int} {p : Packet} {k : String × String}
    (hk : k.1.toList.length = 32) (hother : s.checks now p = true → (p.sender, p.nonce) ≠ k)
    (h : (k.1 ++ k.2, at_) ∈ (s.accept now p).2.seen) : (k.1 ++ k.2, at_) ∈ s.seen := by
  rcases accept_cases s now p with ⟨-, heq⟩ | ⟨-, -, heq⟩ | ⟨hc, -, heq⟩ <;> rw [heq] at h
  · exact h
  · exact (mem_prune.1 h).1
  · rcases List.mem_cons.1 h with h | h
    · have hkey : cacheKey p = k.1 ++ k.2 := (congrArg Prod.fst h).symm
      exact absurd (cacheKey_injective (sender_length_of_checks hc) hk hkey) (hother hc)
    · exact (mem_prune.1 h).1

theorem mem_acceptances_deliver {s : Service} {now : Int} {p : Packet} {rest : List Event} {k : String × String}
    (h : k ∈ acceptances (s.accept now p).2 rest) : k ∈ acceptances s (.deliver now p :: rest) := by
  rw [acceptances]
  split
  · exact List.mem_cons_of_mem _ h
  · exact h

/-- A delivery that passes the checks after every entry of its nonce has aged out
is accepted, unless an earlier one of the run already was. -/
theorem mem_acceptances_of_forgot {s : Service} {events : List Event} {d : Int × Packet}
    (hroom : s.seen.length + events.length ≤ seenLimit) (hd : d ∈ checked s events)
    (h : s.Forgot (d.2.sender, d.2.nonce) d.1) : (d.2.sender, d.2.nonce) ∈ acceptances s events := by
  induction events generalizing s with
  | nil => cases hd
  | cons e rest ih =>
    rw [List.length_cons] at hroom
    cases e with
    | close => exact ih (by dsimp only; omega) hd h
    | deliver now p =>
      by_cases hc : s.checks now p = true
      · rw [checked, if_pos hc] at hd
        rcases List.mem_cons.1 hd with rfl | hd
        · rw [acceptances, if_pos (by rw [accept_of_forgot hc (by omega) h])]
          exact List.mem_cons_self
        · by_cases hk : (s.accept now p).1 = true ∧ (p.sender, p.nonce) = (d.2.sender, d.2.nonce)
          · rw [acceptances, if_pos hk.1, hk.2]
            exact List.mem_cons_self
          · refine mem_acceptances_deliver (ih ?_ (by rwa [checked_accept]) ?_)
            · have := accept_length_le s now p
              omega
            · intro at_ hat
              refine h at_ ?_
              rcases accept_cases s now p with ⟨-, heq⟩ | ⟨-, -, heq⟩ | ⟨-, -, heq⟩
              · rwa [heq] at hat
              · rw [heq] at hat
                exact (mem_prune.1 hat).1
              · exact mem_seen_accept (checks_of_mem_checked hd) (fun _ he => hk ⟨by rw [heq], he⟩) hat
      · rw [checked, if_neg hc] at hd
        rcases accept_cases s now p with ⟨-, heq⟩ | ⟨hc', -⟩ | ⟨hc', -⟩
        · refine mem_acceptances_deliver (ih ?_ (by rwa [heq]) (by rwa [heq]))
          rw [heq]
          dsimp only
          omega
        · exact absurd hc' hc
        · exact absurd hc' hc

def CoveredFor (k : String × String) (s : Service) (events : List Event) : Prop :=
  (checked s events).Pairwise fun a b =>
    (a.2.sender, a.2.nonce) = k → (b.2.sender, b.2.nonce) = k → b.1 - a.1 ≤ minute

theorem covered_of_coveredFor {s : Service} {events : List Event}
    (h : ∀ k, k.1.toList.length = 32 → CoveredFor k s events) : Covered s events := by
  refine List.pairwise_iff_forall_sublist.2 fun hab heq => ?_
  have hlength := checks_of_mem_checked (hab.subset List.mem_cons_self)
  exact List.pairwise_iff_forall_sublist.1 (h (_, _) hlength) hab rfl heq.symm

/-- With room in the table and `k` unknown, `k` passes once only if its deliveries are at most a minute apart. -/
theorem coveredFor_of_nodup {s : Service} {events : List Event} {k : String × String} (hlen : k.1.toList.length = 32)
    (hsorted : (times events).Pairwise (· ≤ ·)) (hroom : s.seen.length + events.length ≤ seenLimit)
    (hk : ∀ at_, (k.1 ++ k.2, at_) ∉ s.seen) (hnodup : (acceptances s events).Nodup) : CoveredFor k s events := by
  induction events generalizing s with
  | nil => exact List.Pairwise.nil
  | cons e rest ih =>
    rw [List.length_cons] at hroom
    cases e with
    | close => exact ih hsorted (by dsimp only; omega) hk hnodup
    | deliver now p =>
      obtain ⟨hfirst, hrest⟩ := List.pairwise_cons.1 hsorted
      have hlength := accept_length_le s now p
      have hafter : ∀ d ∈ checked s rest, now ≤ d.1 := fun d hd => hfirst _ (time_mem_of_mem_checked hd)
      have hnodupRest : (acceptances (s.accept now p).2 rest).Nodup := by
        rw [acceptances] at hnodup
        split at hnodup
        exacts [(List.nodup_cons.1 hnodup).2, hnodup]
      rw [acceptances] at hnodup
      rw [CoveredFor, checked]
      by_cases hc : s.checks now p = true
      · rw [if_pos hc]
        by_cases heq : (p.sender, p.nonce) = k
        · -- The first delivery of `k` passes, so a later one past the minute would pass too.
          subst heq
          have haccept := accept_of_forgot hc (by omega) (fun at_ hat => absurd hat (hk at_))
          rw [if_pos (by rw [haccept]), List.nodup_cons] at hnodup
          have hlate : ∀ d ∈ checked s rest, (d.2.sender, d.2.nonce) = (p.sender, p.nonce) → d.1 - now ≤ minute := by
            intro d hd hdk
            by_contra hlong
            refine hnodup.1 (hdk ▸ mem_acceptances_of_forgot (by omega) (by rwa [checked_accept]) ?_)
            intro at_ hat
            rw [haccept, hdk] at hat
            rcases List.mem_cons.1 hat with hat | hat
            · have : at_ = now := congrArg Prod.snd hat
              omega
            · exact absurd (mem_prune.1 hat).1 (hk at_)
          refine List.pairwise_cons.2 ⟨fun d hd _ hdk => hlate d hd hdk, ?_⟩
          refine List.pairwise_iff_forall_sublist.2 fun hab _ hbk => ?_
          have ha := hafter _ (hab.subset List.mem_cons_self)
          have hb := hlate _ (hab.subset (List.mem_cons_of_mem _ List.mem_cons_self)) hbk
          omega
        · have hrec := ih hrest (by omega) (fun at_ hat => hk at_ (mem_seen_accept hlen (fun _ => heq) hat)) hnodupRest
          rw [CoveredFor, checked_accept] at hrec
          exact List.pairwise_cons.2 ⟨fun d _ hpk => absurd hpk heq, hrec⟩
      · have hrec := ih hrest (by omega) (fun at_ hat => hk at_ (mem_seen_accept hlen (fun h => absurd h hc) hat)) hnodupRest
        rw [if_neg hc]
        rwa [CoveredFor, checked_accept] at hrec

/-! ## Replay protection -/

/-- Between two configurations, nonces pass at most once when all deliveries of
one that pass the checks come within a minute of each other. Until the table
fills up, only then. -/
theorem acceptances_nodup_iff (s : Service) (events : List Event) (hseen : s.seen = [])
    (hsorted : (times events).Pairwise (· ≤ ·)) :
    (Covered s events → (acceptances s events).Nodup) ∧
    (events.length ≤ seenLimit → (acceptances s events).Nodup → Covered s events) := by
  refine ⟨acceptances_nodup hsorted, fun hroom hnodup => covered_of_coveredFor fun k hlen => ?_⟩
  refine coveredFor_of_nodup hlen hsorted ?_ ?_ hnodup
  · rw [hseen, List.length_nil]
    omega
  · rw [hseen]
    exact fun at_ => List.not_mem_nil

def freshService : Service := { enabled := true, nodeID := "ffffffffffffffffffffffffffffffff", closed := false, seen := [] }

/-- A packet of a sender whose clock runs 30 seconds ahead of 1,700,000,000 s. -/
def aheadPacket : Packet :=
  { version := 2, kind := "hello", sender := "00000000000000000000000000000000", target := "",
    nonce := "11111111111111111111111111111111", time := 1700000030 }

/-- The packet, and the same packet half a minute later. -/
def earlyReplay : List Event :=
  [.deliver (1700000000 * second) aheadPacket, .deliver (1700000030 * second) aheadPacket]

/-- The packet, and the same packet 60.5 seconds later: the nonce is forgotten
and the packet still fresh. -/
def lateReplay : List Event :=
  [.deliver (1700000000 * second) aheadPacket, .deliver (1700000060 * second + second / 2) aheadPacket]

theorem earlyReplay_covered : (acceptances freshService earlyReplay).Nodup :=
  (acceptances_nodup_iff freshService earlyReplay rfl (by decide)).1 (by decide +kernel)

/-- Replay protection fails: sender and nonce pass twice, 60.5 seconds apart. -/
theorem lateReplay_passes_twice : (times lateReplay).Pairwise (· ≤ ·) ∧ freshService.seen = [] ∧
    acceptances freshService lateReplay =
      [(aheadPacket.sender, aheadPacket.nonce), (aheadPacket.sender, aheadPacket.nonce)] ∧
    ¬ (acceptances freshService lateReplay).Nodup := by
  decide +kernel

end Tanpopo.Cluster
