import Tanpopo.Session.Runs
import Mathlib.Algebra.Order.BigOperators.Group.List
import Mathlib.Algebra.Order.Ring.Nat
import Mathlib.Algebra.Group.Action.Defs
/-!
# What the session store accepts

The invariant `Inv` relates memory and file to the logins in force. Every
request keeps it, so an accepted token was issued, has not expired and has not
been ended since.
-/

namespace Tanpopo.Session

open Tanpopo.Go

/-- Memory and file hold only logins in force, and the file can be loaded. -/
structure Inv (env : Env) (clock : Time) (w : World) (ledger : List Issue) : Prop where
  sessions : ∀ token expires, w.store.sessions.get? token = some expires → ⟨token, expires, false⟩ ∈ ledger
  remembered : ∀ key expires, w.store.remembered.get? key = some expires →
    ∃ token, ⟨token, expires, true⟩ ∈ ledger ∧ tokenDigest env token = key
  forms : ∀ issue ∈ ledger, issue.remember = decide ('.' ∈ issue.token.toList)
  kept : Kept w.store.remembered
  saved : ∀ file, w.file = some file → ∃ tokens, Kept tokens ∧ file = File.of env tokens
  agree : w.store.persistencePath ≠ "" → Agree clock w.saved w.store.remembered
  unsaved : w.store.persistencePath = "" → w.file = none

section
variable {env : Env} {clock now : Time} {w : World} {ledger : List Issue}

/-! ## Tables -/

theorem Agree.mono {a b : Table String Time} (h : Agree clock a b) (hle : clock ≤ now) : Agree now a b :=
  fun key expires hlt => h key expires (lt_of_le_of_lt hle hlt)

theorem Agree.filter {a b : Table String Time} (h : Agree clock a b) (hle : clock ≤ now) :
    Agree now a (b.filter fun e => decide (now < e.2)) := by
  intro key expires hlt
  rw [h.mono hle key expires hlt, Table.get?_filter, decide_eq_true_eq]
  exact (and_iff_left hlt).symm

theorem Kept.empty : Kept ∅ where
  limit := Nat.zero_le _
  digests := fun _ he => nomatch he

theorem Kept.filter {t : Table String Time} (h : Kept t) (keep : String × Time → Bool) : Kept (t.filter keep) where
  limit := (Table.length_filter_le keep).trans h.limit
  digests := fun e he => h.digests e (List.mem_filter.1 he).1

theorem Kept.set {t : Table String Time} (h : Kept t) (token : String) (expires : Time)
    (hlimit : (t.set (tokenDigest env token) expires).length ≤ rememberedLimit) :
    Kept (t.set (tokenDigest env token) expires) where
  limit := hlimit
  digests := by
    intro e he
    rcases List.mem_cons.1 he with rfl | he
    · rw [tokenDigest, hexDecode_hexEncode, Option.map_some, env.sha256_length]
    · exact h.digests e (List.mem_filter.1 he).1

theorem saved_of_none (h : w.file = none) : w.saved = ∅ := by
  rw [World.saved, h]

theorem saved_of {tokens : Table String Time} (h : w.file = some (File.of env tokens)) : w.saved = tokens := by
  rw [World.saved, h]
  rfl

/-! ## One request -/

theorem mem_ledgerStep {issue : Issue} {op : Op} (h : issue ∈ ledger) (hends : w.ends env issue op = false) :
    issue ∈ w.ledgerStep env op ledger :=
  List.mem_append_right _ (List.mem_filter.2 ⟨h, by rw [hends]; rfl⟩)

theorem mem_ledgerStep_of_issues {issue : Issue} {op : Op} (h : w.issues env op = some issue) :
    issue ∈ w.ledgerStep env op ledger :=
  List.mem_append_left _ (by rw [h]; exact List.mem_singleton_self _)

/-- A request that ends and issues nothing leaves the ledger alone. -/
theorem ledgerStep_eq {op : Op} (hissues : w.issues env op = none) (hends : ∀ issue, w.ends env issue op = false) :
    w.ledgerStep env op ledger = ledger := by
  rw [World.ledgerStep, hissues, List.filter_eq_self.2 fun issue _ => by rw [hends]; rfl]
  rfl

theorem Inv.mono (h : Inv env clock w ledger) (hle : clock ≤ now) : Inv env now w ledger :=
  { h with agree := fun hpath => (h.agree hpath).mono hle }

theorem Inv.prune (h : Inv env clock w ledger) (hle : clock ≤ now) :
    Inv env now { w with store := w.store.pruneLocked now } ledger where
  sessions := fun token expires hget => h.sessions token expires (Table.get?_filter.1 hget).1
  remembered := fun key expires hget => h.remembered key expires (Table.get?_filter.1 hget).1
  forms := h.forms
  kept := h.kept.filter _
  saved := h.saved
  agree := fun hpath => (h.agree hpath).filter hle
  unsaved := h.unsaved

/-- A write brings the file up to date. -/
theorem Inv.written (hsessions : ∀ token expires, w.store.sessions.get? token = some expires → ⟨token, expires, false⟩ ∈ ledger)
    (hremembered : ∀ key expires, w.store.remembered.get? key = some expires →
      ∃ token, ⟨token, expires, true⟩ ∈ ledger ∧ tokenDigest env token = key)
    (hforms : ∀ issue ∈ ledger, issue.remember = decide ('.' ∈ issue.token.toList)) (hkept : Kept w.store.remembered)
    (hunsaved : w.store.persistencePath = "" → w.file = none) : Inv env clock (w.written env) ledger := by
  by_cases hpath : w.store.persistencePath = ""
  · have hw : w.written env = w := if_pos hpath
    rw [hw]
    exact ⟨hsessions, hremembered, hforms, hkept, fun file hfile => absurd hfile (by rw [hunsaved hpath]; nofun),
      fun hne => absurd hpath hne, hunsaved⟩
  · have hw : w.written env = { w with file := some (File.of env w.store.remembered) } := if_neg hpath
    rw [hw]
    refine ⟨hsessions, hremembered, hforms, hkept, ?_, fun _ key expires _ => Iff.rfl, fun heq => absurd heq hpath⟩
    rintro file ⟨⟩
    exact ⟨_, hkept, rfl⟩

theorem Inv.cleared (h : Inv env clock w ledger) (ledger' : List Issue)
    (hforms : ∀ issue ∈ ledger', issue.remember = decide ('.' ∈ issue.token.toList)) :
    Inv env clock (w.cleared env) ledger' := by
  have hempty : Inv env clock (({ w with store := { w.store with sessions := ∅ } } : World).setRemembered ∅ |>.written env) ledger' :=
    .written (fun _ _ hget => nomatch hget) (fun _ _ hget => nomatch hget) hforms .empty h.unsaved
  convert hempty using 1
  unfold World.cleared World.written World.setRemembered
  dsimp only
  split <;> rfl

theorem forms_ledgerStep {op : Op} (h : ∀ issue ∈ ledger, issue.remember = decide ('.' ∈ issue.token.toList))
    (hissue : ∀ issue, w.issues env op = some issue → issue.remember = decide ('.' ∈ issue.token.toList)) :
    ∀ issue ∈ w.ledgerStep env op ledger, issue.remember = decide ('.' ∈ issue.token.toList) := by
  intro issue hmem
  rcases List.mem_append.1 hmem with hmem | hmem
  · exact hissue issue (Option.mem_toList.1 hmem)
  · exact h issue (List.mem_filter.1 hmem).1

/-- A generated token is not one of a login in force. -/
def Fresh (env : Env) (w : World) (ledger : List Issue) (op : Op) : Prop :=
  ∀ token, w.generates env op = some token → ∀ issue ∈ ledger, tokenDigest env issue.token ≠ tokenDigest env token

theorem Inv.not_remembered (h : Inv env clock w ledger) {op : Op} (hfresh : Fresh env w ledger op) {token : String}
    (htoken : w.generates env op = some token) (expires : Time) :
    w.store.remembered.get? (tokenDigest env token) ≠ some expires := by
  intro hget
  obtain ⟨other, hmem, hdigest⟩ := h.remembered _ _ hget
  exact hfresh token htoken _ hmem hdigest

theorem inv_login {tls : Bool} {account password : String} {remember : Bool}
    {random : Except String (Vector UInt8 32)} {fault : Option String} (h : Inv env clock w ledger) (hle : clock ≤ now)
    (hfresh : Fresh env w ledger (.login now tls account password remember random fault)) :
    Inv env now (w.step env (.login now tls account password remember random fault))
      (w.ledgerStep env (.login now tls account password remember random fault) ledger) := by
  have hprune := h.prune hle
  have hends : ∀ issue, w.ends env issue (.login now tls account password remember random fault) = false := fun _ => rfl
  rcases login_cases env w now tls account password remember random fault with
    ⟨hissues, hw | hw⟩ | ⟨token, htoken, hissues, hw⟩ | ⟨token, htoken, hissues, hdot, hlt, hw⟩ |
    ⟨token, htoken, hissues, hdot, hw⟩ <;> rw [hw]
  · rw [ledgerStep_eq hissues hends]
    exact h.mono hle
  · rw [ledgerStep_eq hissues hends]
    exact hprune
  · -- The file kept its contents, and the token was not in memory before.
    have hold := h.not_remembered hfresh htoken
    have hget : ∀ key expires, ((w.store.pruneLocked now).remembered.delete (tokenDigest env token)).get? key =
        some expires ↔ (w.store.pruneLocked now).remembered.get? key = some expires := by
      intro key expires
      rw [Table.get?_delete_eq_some]
      refine and_iff_right_of_imp fun hk heq => ?_
      exact hold expires (heq ▸ (Table.get?_filter.1 hk).1)
    rw [ledgerStep_eq hissues hends, Table.delete_set]
    exact {
      sessions := hprune.sessions
      remembered := fun key expires hk => hprune.remembered key expires ((hget key expires).1 hk)
      forms := h.forms
      kept := hprune.kept.filter _
      saved := h.saved
      agree := fun hpath key expires hlt => (hprune.agree hpath key expires hlt).trans (hget key expires).symm
      unsaved := h.unsaved }
  · -- The token is remembered in memory and in the file.
    refine .written ?_ ?_ (forms_ledgerStep h.forms ?_) (hprune.kept.set token _ ((Table.length_set_le _ _).trans hlt)) h.unsaved
    · exact fun t e hget => mem_ledgerStep (hprune.sessions t e hget) rfl
    · intro key expires hget
      rcases Table.get?_set_eq_some.1 hget with ⟨rfl, rfl⟩ | ⟨-, hget⟩
      · exact ⟨token, mem_ledgerStep_of_issues hissues, rfl⟩
      · obtain ⟨other, hmem, hdigest⟩ := hprune.remembered key expires hget
        exact ⟨other, mem_ledgerStep hmem rfl, hdigest⟩
    · rintro issue hi
      obtain rfl := Option.some.inj (hissues.symm.trans hi)
      exact (decide_eq_true hdot).symm
  · -- The token is one of the short sessions, which the file does not know.
    refine ⟨?_, ?_, forms_ledgerStep h.forms ?_, hprune.kept, h.saved, hprune.agree, h.unsaved⟩
    · intro t e hget
      rcases Table.get?_set_eq_some.1 hget with ⟨rfl, rfl⟩ | ⟨-, hget⟩
      · exact mem_ledgerStep_of_issues hissues
      · exact mem_ledgerStep (hprune.sessions t e hget) rfl
    · intro key expires hget
      obtain ⟨other, hmem, hdigest⟩ := hprune.remembered key expires hget
      exact ⟨other, mem_ledgerStep hmem rfl, hdigest⟩
    · rintro issue hi
      obtain rfl := Option.some.inj (hissues.symm.trans hi)
      exact (decide_eq_false hdot).symm

theorem inv_logout {tls : Bool} {cookie fault : Option String} (h : Inv env clock w ledger) :
    Inv env clock (w.step env (.logout tls cookie fault)) (w.ledgerStep env (.logout tls cookie fault) ledger) := by
  have hissues : w.issues env (.logout tls cookie fault) = none := rfl
  have hforms : ∀ issue ∈ w.ledgerStep env (.logout tls cookie fault) ledger,
      issue.remember = decide ('.' ∈ issue.token.toList) := forms_ledgerStep h.forms nofun
  rcases logout_cases env w tls cookie fault with ⟨rfl, hw⟩ | ⟨value, rfl, hvalue⟩
  · rw [hw, ledgerStep_eq hissues fun _ => rfl]
    exact h
  · -- The logins of other tokens stay in the ledger.
    have hother : ∀ issue ∈ ledger, issue.token ≠ value →
        issue ∈ w.ledgerStep env (.logout tls (some value) fault) ledger := by
      intro issue hmem hne
      refine mem_ledgerStep hmem ?_
      rw [World.ends, decide_eq_false (fun heq => hne (Option.some.inj heq).symm), Bool.false_and]
    have hsessions : ∀ token expires, (w.store.sessions.delete value).get? token = some expires →
        ⟨token, expires, false⟩ ∈ w.ledgerStep env (.logout tls (some value) fault) ledger := by
      intro token expires hget
      obtain ⟨hne, hget⟩ := Table.get?_delete_eq_some.1 hget
      exact hother _ (h.sessions token expires hget) hne
    have hdeleted : ∀ key expires, key ≠ tokenDigest env value → w.store.remembered.get? key = some expires →
        ∃ token, ⟨token, expires, true⟩ ∈ w.ledgerStep env (.logout tls (some value) fault) ledger ∧
          tokenDigest env token = key := by
      intro key expires hne hget
      obtain ⟨token, hmem, hdigest⟩ := h.remembered key expires hget
      refine ⟨token, hother _ hmem ?_, hdigest⟩
      rintro rfl
      exact hne hdigest.symm
    rcases hvalue with ⟨hnone, hw⟩ | ⟨expires, hsome, ⟨herr, hw⟩ | ⟨hok, hw⟩⟩ <;> rw [hw]
    · refine ⟨hsessions, fun key e hget => hdeleted key e ?_ hget, hforms, h.kept, h.saved, h.agree, h.unsaved⟩
      rintro rfl
      rw [hnone] at hget
      cases hget
    · -- The write failed: the token is put back.
      have hget : ∀ key e, (w.store.remembered.set (tokenDigest env value) expires).get? key = some e ↔
          w.store.remembered.get? key = some e := by
        intro key e
        rw [Table.get?_set_eq_some]
        by_cases hkey : key = tokenDigest env value
        · subst hkey
          rw [hsome]
          simp
        · simp [hkey]
      have hledger : w.ledgerStep env (.logout tls (some value) fault) ledger = ledger :=
        ledgerStep_eq hissues fun issue => by rw [World.ends, herr, Bool.and_false]
      rw [hledger] at hsessions ⊢
      rw [Table.set_delete]
      exact {
        sessions := hsessions
        remembered := fun key e hk => h.remembered key e ((hget key e).1 hk)
        forms := h.forms
        kept := h.kept.set value expires ((Table.length_set_le_of_get? hsome).trans h.kept.limit)
        saved := h.saved
        agree := fun hpath key e hlt => (h.agree hpath key e hlt).trans (hget key e).symm
        unsaved := h.unsaved }
    · refine .written hsessions ?_ hforms (h.kept.filter _) h.unsaved
      intro key e hget
      obtain ⟨hne, hget⟩ := Table.get?_delete_eq_some.1 hget
      exact hdeleted key e hne hget

theorem inv_authenticated {cookie : Option String} (h : Inv env clock w ledger) (hle : clock ≤ now) :
    Inv env now (w.step env (.authenticated now cookie)) (w.ledgerStep env (.authenticated now cookie) ledger) := by
  rw [ledgerStep_eq rfl fun _ => rfl]
  rcases authenticated_cases env w now cookie with hw | ⟨value, expires, -, -, hw⟩ <;> rw [hw]
  · exact h.mono hle
  · exact { h.mono hle with
      sessions := fun token e hget => h.sessions token e (Table.get?_delete_eq_some.1 hget).2 }

theorem inv_updateSecurityWith {commit : Except String Security} {fault restoreFault : Option String}
    (h : Inv env clock w ledger) : Inv env clock (w.step env (.updateSecurityWith commit fault restoreFault))
      (w.ledgerStep env (.updateSecurityWith commit fault restoreFault) ledger) := by
  have hissues : w.issues env (.updateSecurityWith commit fault restoreFault) = none := rfl
  have hforms : ∀ issue ∈ w.ledgerStep env (.updateSecurityWith commit fault restoreFault) ledger,
      issue.remember = decide ('.' ∈ issue.token.toList) := forms_ledgerStep h.forms nofun
  rcases updateSecurityWith_cases env w commit fault restoreFault with
    ⟨herr, hw⟩ | ⟨security, rfl, -, hw⟩
  · rw [ledgerStep_eq hissues fun _ => herr]
    rcases hw with hw | hw | hw <;> rw [hw]
    · exact h
    · exact .written h.sessions h.remembered h.forms h.kept h.unsaved
    · exact h.cleared ledger h.forms
  · rw [hw]
    have hcleared := h.cleared _ hforms
    exact ⟨hcleared.sessions, hcleared.remembered, hforms, hcleared.kept, hcleared.saved, hcleared.agree, hcleared.unsaved⟩

theorem inv_revokeAll {fault : Option String} (h : Inv env clock w ledger) :
    Inv env clock (w.step env (.revokeAll fault)) (w.ledgerStep env (.revokeAll fault) ledger) := by
  have hissues : w.issues env (.revokeAll fault) = none := rfl
  have hforms : ∀ issue ∈ w.ledgerStep env (.revokeAll fault) ledger,
      issue.remember = decide ('.' ∈ issue.token.toList) := forms_ledgerStep h.forms nofun
  rcases revokeAll_cases env w fault with ⟨herr, hw⟩ | ⟨-, hw⟩ <;> rw [hw]
  · rw [ledgerStep_eq hissues fun _ => herr]
    exact h
  · exact h.cleared _ hforms

/-! ## Restarts -/

theorem fractionDigits_le (n digits : Nat) : fractionDigits n digits ≤ digits := by
  induction digits generalizing n with
  | zero => exact Nat.le_refl _
  | succ digits ih =>
    rw [fractionDigits]
    split
    · exact (ih _).trans (Nat.le_succ _)
    · exact Nat.le_refl _

theorem timeSize_le (t : Time) : timeSize env t ≤ 37 := by
  have := fractionDigits_le (t % second).toNat 9
  unfold timeSize
  dsimp only
  split <;> split <;> omega

/-- The text of the largest table is well below the limit for the file. -/
theorem marshalSize_le {tokens : Table String Time} (h : Kept tokens) : marshalSize env tokens ≤ fileLimit := by
  have hentry : ∀ n ∈ tokens.entries.map fun e => e.1.length + 3 + timeSize env e.2, n ≤ 104 := by
    intro n hn
    obtain ⟨e, he, rfl⟩ := List.mem_map.1 hn
    obtain ⟨bytes, hbytes, hlength⟩ := Option.map_eq_some_iff.1 (h.digests e he)
    have hkey : e.1.length = 2 * bytes.length := by
      rw [← String.length_toList]
      exact hexPairs_length hbytes
    have htime : timeSize env e.2 ≤ 37 := timeSize_le e.2
    omega
  have hsum := List.sum_le_card_nsmul _ _ hentry
  rw [List.length_map, smul_eq_mul] at hsum
  have hlimit := h.limit
  unfold marshalSize fileLimit
  unfold rememberedLimit at hlimit
  unfold Table.length at hlimit ⊢
  omega

/-- The store accepts the file it wrote. -/
theorem restart_ok (h : Inv env clock w ledger) (now : Time) :
    ∃ remembered, w.restart now = .ok { w with store := { w.store with sessions := ∅, remembered := remembered } } ∧
      (∀ key expires, remembered.get? key = some expires ↔ w.saved.get? key = some expires ∧ now < expires) ∧
      Kept remembered := by
  cases hfile : w.file with
  | none =>
    refine ⟨∅, ?_, fun key expires => ?_, .empty⟩
    · rw [World.restart, hfile]
      rfl
    · rw [saved_of_none hfile]
      exact ⟨nofun, fun hget => nomatch hget.1⟩
  | some file =>
    obtain ⟨tokens, hkept, rfl⟩ := h.saved file hfile
    refine ⟨tokens.filter fun e => decide (now < e.2), ?_, fun key expires => ?_, hkept.filter _⟩
    · have hdigests : tokens.entries.any (fun e => decide ((hexDecode e.1).map List.length ≠ some 32)) = false := by
        rw [List.any_eq_false]
        intro e he
        simpa using hkept.digests e he
      have hsize : ¬ fileLimit < marshalSize env tokens := Nat.not_lt.2 (marshalSize_le hkept)
      have hlimit : ¬ rememberedLimit < tokens.length := Nat.not_lt.2 hkept.limit
      simp only [World.restart, hfile, newPersistentStore, File.of, Option.map_some, Option.getD_some, hdigests, hsize,
        hlimit, Bool.not_true, Bool.false_or, decide_false, Bool.false_eq_true, if_false, ne_eq, not_true_eq_false,
        or_self]
      rfl
    · rw [saved_of hfile, Table.get?_filter, decide_eq_true_eq]

theorem inv_restart (h : Inv env clock w ledger) (hle : clock ≤ now) :
    Inv env now (w.step env (.restart now)) (w.ledgerStep env (.restart now) ledger) := by
  obtain ⟨remembered, hok, hget, hkept⟩ := restart_ok h now
  have hw : w.step env (.restart now) = { w with store := { w.store with sessions := ∅, remembered := remembered } } := by
    rw [World.step, hok]
    rfl
  rw [hw]
  refine ⟨fun _ _ hget => (by cases hget), fun key expires hk => ?_, forms_ledgerStep h.forms (fun _ hissue => by cases hissue), hkept, h.saved,
    fun hpath key expires hlt => ?_, h.unsaved⟩
  · obtain ⟨hsaved, hlt⟩ := (hget key expires).1 hk
    by_cases hpath : w.store.persistencePath = ""
    · rw [saved_of_none (h.unsaved hpath)] at hsaved
      cases hsaved
    · obtain ⟨token, hmem, hdigest⟩ :=
        h.remembered key expires ((h.agree hpath key expires (lt_of_le_of_lt hle hlt)).1 hsaved)
      exact ⟨token, mem_ledgerStep hmem rfl, hdigest⟩
  · exact ⟨fun hsaved => (hget key expires).2 ⟨hsaved, hlt⟩, fun hk => ((hget key expires).1 hk).1⟩

/-! ## Runs -/

theorem inv_step {op : Op} (h : Inv env clock w ledger) (hle : clock ≤ op.clock clock) (hfresh : Fresh env w ledger op) :
    Inv env (op.clock clock) (w.step env op) (w.ledgerStep env op ledger) := by
  cases op with
  | login => exact inv_login h hle hfresh
  | logout => exact inv_logout h
  | authenticated => exact inv_authenticated h hle
  | updateSecurityWith => exact inv_updateSecurityWith h
  | revokeAll => exact inv_revokeAll h
  | restart => exact inv_restart h hle

theorem issues_generates {op : Op} {issue : Issue} (h : w.issues env op = some issue) :
    w.generates env op = some issue.token := by
  cases op with
  | login now tls account password remember random fault =>
    rcases login_cases env w now tls account password remember random fault with
      ⟨hissues, -⟩ | ⟨token, -, hissues, -⟩ | ⟨token, htoken, hissues, -⟩ | ⟨token, htoken, hissues, -⟩ <;>
      rw [hissues] at h <;> cases h
    · exact htoken
    · exact htoken
  | _ => cases h

theorem inv_run {ops : List Op} (h : Inv env clock w ledger) (hclock : (clock :: ops.filterMap Op.now?).Pairwise (· ≤ ·))
    (hdigests : ((w.generated env ops).map (tokenDigest env)).Nodup)
    (hledger : ∀ issue ∈ ledger, tokenDigest env issue.token ∉ (w.generated env ops).map (tokenDigest env)) :
    Inv env (ops.foldl Op.clock clock) (w.run env ops) (w.ledger env ops ledger) := by
  induction ops generalizing clock w ledger with
  | nil => exact h
  | cons op ops ih =>
    rw [World.generated, List.map_append] at hdigests hledger
    have hfresh : Fresh env w ledger op := by
      intro token htoken issue hmem heq
      refine hledger issue hmem (List.mem_append_left _ ?_)
      rw [htoken, heq]
      exact List.mem_singleton_self _
    have hsorted : clock ≤ op.clock clock ∧ (op.clock clock :: ops.filterMap Op.now?).Pairwise (· ≤ ·) := by
      unfold Op.clock
      rw [List.filterMap_cons] at hclock
      cases hnow : op.now? with
      | none =>
        rw [hnow] at hclock
        exact ⟨le_refl _, hclock⟩
      | some now =>
        rw [hnow] at hclock
        obtain ⟨hle, htail⟩ := List.pairwise_cons.1 hclock
        exact ⟨hle now List.mem_cons_self, htail⟩
    refine ih (inv_step h hsorted.1 hfresh) hsorted.2 (List.nodup_append.1 hdigests).2.1 ?_
    intro issue hmem hlater
    rcases List.mem_append.1 hmem with hmem | hmem
    · have htoken := issues_generates (Option.mem_toList.1 hmem)
      refine (List.nodup_append.1 hdigests).2.2 (tokenDigest env issue.token) ?_ _ hlater rfl
      rw [htoken]
      exact List.mem_singleton_self _
    · exact hledger issue (List.mem_filter.1 hmem).1 (List.mem_append_right _ hlater)

/-- A login in force was granted by some request and not ended since. -/
theorem mem_ledger {ops : List Op} {issue : Issue} (h : issue ∈ w.ledger env ops ledger) :
    (issue ∈ ledger ∧ w.Unrevoked env issue ops) ∨ ∃ pre op post, ops = pre ++ op :: post ∧
      (w.run env pre).issues env op = some issue ∧ (w.run env (pre ++ [op])).Unrevoked env issue post := by
  induction ops generalizing w ledger with
  | nil => exact .inl ⟨h, trivial⟩
  | cons op ops ih =>
    rcases ih h with ⟨hmem, hpost⟩ | ⟨pre, op', post, rfl, hissues, hpost⟩
    · rcases List.mem_append.1 hmem with hmem | hmem
      · exact .inr ⟨[], op, ops, rfl, Option.mem_toList.1 hmem, hpost⟩
      · obtain ⟨hmem, hends⟩ := List.mem_filter.1 hmem
        rw [Bool.not_eq_true'] at hends
        exact .inl ⟨hmem, hends, hpost⟩
    · exact .inr ⟨op :: pre, op', post, rfl, hissues, hpost⟩

theorem mem_generated {pre post : List Op} {op : Op} {token : String}
    (h : (w.run env pre).generates env op = some token) : token ∈ w.generated env (pre ++ op :: post) := by
  induction pre generalizing w with
  | nil => exact List.mem_append_left _ (Option.mem_toList.2 h)
  | cons first pre ih => exact List.mem_append_right _ (ih h)

/-! ## Acceptance -/

theorem validRememberTokenLocked_congr {s s' : Store} (haccount : s'.account = s.account)
    (hpassword : s'.password = s.password) (token : String) :
    s'.validRememberTokenLocked env token now = s.validRememberTokenLocked env token now := by
  have hsign : s'.signRememberPayloadLocked env = s.signRememberPayloadLocked env := by
    funext payload
    simp only [Store.signRememberPayloadLocked, haccount, hpassword]
  simp only [Store.validRememberTokenLocked, hsign]

theorem authenticated_iff (token : String) : (w.authenticated env now (some token)).1 = true ↔
    w.store.authenticationEnabled = false ∨ (token ≠ "" ∧
      ((∃ expires, now < expires ∧ w.store.sessions.get? token = some expires) ∨
      ((∃ expires, now < expires ∧ w.store.remembered.get? (tokenDigest env token) = some expires) ∧
        w.store.validRememberTokenLocked env token now = true))) := by
  unfold World.authenticated
  cases henabled : w.store.authenticationEnabled with
  | false => simp
  | true =>
    by_cases hempty : token = ""
    · simp [hempty]
    · cases hsession : w.store.sessions.get? token with
      | none =>
        cases hremembered : w.store.remembered.get? (tokenDigest env token) <;> simp [hempty, hsession, hremembered]
      | some expires =>
        by_cases hexpired : now < expires
        · simp [hempty, hsession, hexpired]
        · cases hremembered : w.store.remembered.get? (tokenDigest env token) with
          | none => simp [hempty, hsession, hexpired, hremembered]
          | some expires' =>
            have hvalid : Store.validRememberTokenLocked env
                { w.store with sessions := w.store.sessions.delete token } token now =
                w.store.validRememberTokenLocked env token now := validRememberTokenLocked_congr rfl rfl token
            simp [hempty, hsession, hexpired, hremembered, hvalid]

/-- Acceptance looks at the unexpired entries of the token only. -/
theorem authenticated_congr {w' : World} {token : String}
    (henabled : w'.store.authenticationEnabled = w.store.authenticationEnabled)
    (haccount : w'.store.account = w.store.account) (hpassword : w'.store.password = w.store.password)
    (hsessions : ∀ expires, now < expires →
      (w'.store.sessions.get? token = some expires ↔ w.store.sessions.get? token = some expires))
    (hremembered : ∀ expires, now < expires →
      (w'.store.remembered.get? (tokenDigest env token) = some expires ↔
        w.store.remembered.get? (tokenDigest env token) = some expires)) :
    (w'.authenticated env now (some token)).1 = (w.authenticated env now (some token)).1 := by
  rw [Bool.eq_iff_iff, authenticated_iff, authenticated_iff, henabled,
    validRememberTokenLocked_congr haccount hpassword,
    exists_congr fun expires => and_congr_right (hsessions expires),
    exists_congr fun expires => and_congr_right (hremembered expires)]

theorem inForce_of_authenticated {ops : List Op} {token : String} {w₀ : World}
    (h : Inv env clock (w₀.run env ops) (w₀.ledger env ops []))
    (hcollision : ∀ t ∈ w₀.generated env ops, tokenDigest env t = tokenDigest env token → t = token)
    (henabled : (w₀.run env ops).store.authenticationEnabled = true)
    (haccepted : ((w₀.run env ops).authenticated env now (some token)).1 = true) : w₀.InForce env ops now token := by
  have hledger : ∃ issue ∈ w₀.ledger env ops [], tokenDigest env issue.token = tokenDigest env token ∧
      now < issue.expires := by
    rcases (authenticated_iff token).1 haccepted with hdisabled | ⟨-, ⟨expires, hlt, hget⟩ | ⟨⟨expires, hlt, hget⟩, -⟩⟩
    · rw [henabled] at hdisabled
      cases hdisabled
    · exact ⟨_, h.sessions token expires hget, rfl, hlt⟩
    · obtain ⟨other, hmem, hdigest⟩ := h.remembered _ expires hget
      exact ⟨_, hmem, hdigest, hlt⟩
  obtain ⟨issue, hmem, hdigest, hlt⟩ := hledger
  have hform := h.forms issue hmem
  rcases mem_ledger hmem with ⟨hnil, -⟩ | ⟨pre, op, post, rfl, hissues, hpost⟩
  · cases hnil
  · have htoken : issue.token = token := by
      exact hcollision _ (mem_generated (issues_generates hissues)) hdigest
    exact ⟨pre, op, post, issue, rfl, hissues, htoken, hlt, hpost, htoken ▸ hform⟩

/-! ## Failed requests -/

theorem Undisturbed.refl (w : World) (subject : Option String) : Undisturbed env clock w w subject :=
  ⟨fun _ _ _ _ => rfl, fun _ => rfl⟩

theorem issues_eq_none_of_fails {op : Op} (h : w.fails env op = true) : w.issues env op = none := by
  cases op with
  | login now tls account password remember random fault =>
    unfold World.fails at h
    unfold World.issues
    dsimp only at h ⊢
    split
    · rename_i hresult
      rw [hresult] at h
      cases h
    · rfl
  | _ => rfl

theorem undisturbed_of_fails {op : Op} (hfails : w.fails env op = true) (hclock : clock ≤ op.clock clock) :
    Undisturbed env (op.clock clock) w (w.step env op) (w.subject env op) := by
  have hissues := issues_eq_none_of_fails hfails
  cases op with
  | login now tls account password remember random fault =>
    -- What is pruned has expired by any later time.
    have hprune : ∀ (t : Table String Time) key later expires, now ≤ later → later < expires →
        ((t.filter fun e => decide (now < e.2)).get? key = some expires ↔ t.get? key = some expires) := by
      intro t key later expires hle hlt
      rw [Table.get?_filter, decide_eq_true_eq]
      exact and_iff_left (lt_of_le_of_lt hle hlt)
    rcases login_cases env w now tls account password remember random fault with
      ⟨-, hw | hw⟩ | ⟨token, htoken, -, hw⟩ | ⟨token, -, hissued, -⟩ | ⟨token, -, hissued, -⟩
    · rw [hw]
      exact .refl w _
    · rw [hw]
      refine ⟨fun token _ later hle => authenticated_congr rfl rfl rfl ?_ ?_, fun _ => rfl⟩
      · exact fun expires hlt => hprune _ _ later expires hle hlt
      · exact fun expires hlt => hprune _ _ later expires hle hlt
    · rw [hw, Table.delete_set]
      refine ⟨fun other hother later hle => authenticated_congr rfl rfl rfl ?_ ?_, fun _ => rfl⟩
      · exact fun expires hlt => hprune _ _ later expires hle hlt
      · intro expires hlt
        rw [← hprune w.store.remembered _ later expires hle hlt]
        exact Table.get?_delete_eq_some.trans (and_iff_right (hother token htoken))
    · rw [hissues] at hissued
      cases hissued
    · rw [hissues] at hissued
      cases hissued
  | logout tls cookie fault =>
    have hsessions : ∀ value other expires, tokenDigest env other ≠ tokenDigest env value →
        ((w.store.sessions.delete value).get? other = some expires ↔ w.store.sessions.get? other = some expires) := by
      intro value other expires hne
      refine Table.get?_delete_eq_some.trans (and_iff_right ?_)
      rintro rfl
      exact hne rfl
    rcases logout_cases env w tls cookie fault with ⟨rfl, hw⟩ | ⟨value, rfl, hvalue⟩
    · rw [hw]
      exact .refl w _
    · rcases hvalue with ⟨hnone, hw⟩ | ⟨expires, hsome, ⟨herr, hw⟩ | ⟨hok, hw⟩⟩
      · rw [hw]
        refine ⟨fun other hother later hle => authenticated_congr rfl rfl rfl ?_ fun _ _ => Iff.rfl, fun _ => rfl⟩
        exact fun e _ => hsessions value other e (hother value rfl)
      · -- The token was taken out and is put back.
        rw [hw, Table.set_delete]
        refine ⟨fun other hother later hle => authenticated_congr rfl rfl rfl ?_ ?_, fun _ => rfl⟩
        · exact fun e _ => hsessions value other e (hother value rfl)
        · intro e _
          have hne := hother value rfl
          refine Table.get?_set_eq_some.trans ?_
          simp [hne]
      · rw [World.fails, hok] at hfails
        cases hfails
  | revokeAll fault =>
    rcases revokeAll_cases env w fault with ⟨-, hw⟩ | ⟨hok, -⟩
    · rw [hw]
      exact .refl w _
    · rw [World.fails, hok] at hfails
      cases hfails
  | _ => cases hfails

/-- A security change that fails leaves every login, or none. -/
theorem updateSecurityWith_of_fails {commit : Except String Security} {fault restoreFault : Option String}
    (h : Inv env clock w ledger) (hfails : (w.updateSecurityWith env commit fault restoreFault).1.isOk = false) :
    let w' := w.step env (.updateSecurityWith commit fault restoreFault)
    (w'.store = w.store ∧ Agree clock w'.saved w.saved) ∨
    (w'.store = { w.store with sessions := ∅, remembered := ∅ } ∧ w'.saved = ∅) := by
  rcases updateSecurityWith_cases env w commit fault restoreFault with ⟨-, hw⟩ | ⟨_, -, hok, -⟩
  · rcases hw with hw | hw | hw <;> rw [hw]
    · exact .inl ⟨rfl, fun _ _ _ => Iff.rfl⟩
    · refine .inl ⟨written_store w, ?_⟩
      by_cases hpath : w.store.persistencePath = ""
      · have hsame : w.written env = w := if_pos hpath
        rw [hsame]
        exact fun _ _ _ => Iff.rfl
      · have hwritten : (w.written env).file = some (File.of env w.store.remembered) := by
          rw [World.written, if_neg hpath]
        rw [saved_of hwritten]
        exact fun key expires hlt => (h.agree hpath key expires hlt).symm
    · refine .inr ⟨?_, ?_⟩
      · simp only [World.cleared, written_store, World.setRemembered]
      · by_cases hpath : w.store.persistencePath = ""
        · have hwritten : (w.setRemembered ∅).written env = w.setRemembered ∅ := if_pos hpath
          rw [World.cleared, hwritten]
          exact saved_of_none (h.unsaved hpath)
        · have hwritten : (w.setRemembered ∅).written env = { w.setRemembered ∅ with file := some (File.of env ∅) } :=
            if_neg hpath
          rw [World.cleared, hwritten]
          rfl
  · rw [hfails] at hok
    cases hok

end

/-! ## Every run -/

theorem start_inv (env : Env) (clock : Time) (path account password : String) (duration : Int) (enabled : Bool) :
    Inv env clock (start path account password duration enabled) [] :=
  ⟨nofun, nofun, nofun, .empty, nofun, fun _ _ _ _ => ⟨nofun, nofun⟩, fun _ => rfl⟩

theorem foldl_clock_le {ops : List Op} {clock now : Time}
    (h : (clock :: (ops.filterMap Op.now? ++ [now])).Pairwise (· ≤ ·)) : ops.foldl Op.clock clock ≤ now := by
  induction ops generalizing clock with
  | nil => exact (List.pairwise_cons.1 h).1 now (List.mem_singleton_self now)
  | cons op ops ih =>
    refine ih ?_
    rw [List.filterMap_cons] at h
    unfold Op.clock
    cases hnow : op.now? with
    | none =>
      rw [hnow] at h
      exact h
    | some t =>
      rw [hnow] at h
      exact (List.pairwise_cons.1 h).2

/-- After any requests, failures and restarts, with a clock that never goes back
and no two generated tokens of one digest: only tokens of logins in force are
accepted, a failed request changes nothing for other tokens, a failed security
change keeps or revokes all logins, and the file can be loaded. -/
theorem session_store_safe (env : Env) (path account password : String) (duration : Int) (enabled : Bool)
    (ops : List Op) (now : Time) (hclock : (ops.filterMap Op.now? ++ [now]).Pairwise (· ≤ ·))
    (hdigests : (((start path account password duration enabled).generated env ops).map (tokenDigest env)).Nodup) :
    let w₀ := start path account password duration enabled
    let w := w₀.run env ops
    (∀ token, (∀ t ∈ w₀.generated env ops, tokenDigest env t = tokenDigest env token → t = token) →
      w.store.authenticationEnabled = true → (w.authenticated env now (some token)).1 = true →
      w₀.InForce env ops now token) ∧
    (∀ op, w.fails env op = true → now ≤ op.clock now → Undisturbed env (op.clock now) w (w.step env op) (w.subject env op)) ∧
    (∀ commit fault restoreFault, (w.updateSecurityWith env commit fault restoreFault).1.isOk = false →
      let w' := w.step env (.updateSecurityWith commit fault restoreFault)
      (w'.store = w.store ∧ Agree now w'.saved w.saved) ∨
      (w'.store = { w.store with sessions := ∅, remembered := ∅ } ∧ w'.saved = ∅)) ∧
    ∀ later, (w.restart later).isOk = true := by
  intro w₀ w
  obtain ⟨clock, hsorted⟩ : ∃ clock, (clock :: (ops.filterMap Op.now? ++ [now])).Pairwise (· ≤ ·) := by
    cases htimes : ops.filterMap Op.now? ++ [now] with
    | nil => exact ⟨now, List.pairwise_singleton _ _⟩
    | cons first rest =>
      rw [htimes] at hclock
      refine ⟨first, List.pairwise_cons.2 ⟨fun t ht => ?_, hclock⟩⟩
      rcases List.mem_cons.1 ht with rfl | ht
      · exact le_refl _
      · exact (List.pairwise_cons.1 hclock).1 t ht
  have hinv : Inv env now w (w₀.ledger env ops []) := by
    refine (inv_run (start_inv env clock path account password duration enabled) ?_ hdigests nofun).mono
      (foldl_clock_le hsorted)
    exact hsorted.sublist (List.Sublist.cons_cons _ (List.sublist_append_left _ _))
  refine ⟨fun token hcollision => inForce_of_authenticated hinv hcollision, fun op hfails => undisturbed_of_fails hfails,
    fun commit fault restoreFault => updateSecurityWith_of_fails hinv, fun later => ?_⟩
  obtain ⟨remembered, hok, -⟩ := restart_ok hinv later
  rw [hok]
  rfl

def sampleToken : String := "r1.1700003600.AAAAAAAAAAAAAAAAAAAAAAAAAAAAAAAAAAAAAAAAAAA.OWPohob5fZhHIrPHKTXrLvPHqVaV6TMbz_sC-Ld6b2Q"

/-- The digests and the signature that one remembered login needs. -/
def sampleEnv : Env where
  sha256 text :=
    if text = "admin" then
      [140, 105, 118, 229, 181, 65, 4, 21, 189, 233, 8, 189, 77, 238, 21, 223,
        177, 103, 169, 200, 115, 252, 75, 184, 168, 31, 111, 42, 180, 72, 169, 24]
    else if text = "secret" then
      [43, 184, 13, 83, 123, 29, 163, 227, 139, 211, 3, 97, 170, 133, 86, 134,
        189, 224, 234, 205, 113, 98, 254, 246, 162, 95, 233, 123, 245, 39, 162, 91]
    else if text = "tanpopo-remember-v1\x00admin\x00secret" then
      [39, 37, 91, 150, 145, 253, 23, 37, 77, 124, 127, 129, 48, 90, 213, 32,
        161, 126, 56, 38, 29, 188, 30, 166, 69, 65, 5, 86, 239, 162, 148, 189]
    else if text = sampleToken then
      [213, 61, 65, 63, 161, 185, 6, 181, 238, 192, 47, 109, 113, 25, 115, 170,
        218, 54, 63, 250, 159, 38, 99, 221, 206, 98, 231, 168, 229, 1, 55, 26]
    else List.replicate 32 0
  hmac _ _ :=
    [57, 99, 232, 134, 134, 249, 125, 152, 71, 34, 179, 199, 41, 53, 235, 46,
      243, 199, 169, 86, 149, 233, 51, 27, 207, 251, 2, 248, 183, 122, 111, 100]
  utcOffset _ := 0
  sha256_length text := by
    split_ifs <;> rfl

/-- A remembered login, and a restart of the process a minute later. -/
def sampleOps : List Op :=
  [.login (1700000000 * second) true "admin" "secret" true (.ok (Vector.replicate 32 0)) none,
    .restart (1700000060 * second)]

/-- The token is accepted after the restart, for its login is in force. -/
theorem sampleToken_inForce :
    (start "sessions.json" "admin" "secret" (3600 * second) true).InForce sampleEnv sampleOps (1700000120 * second)
      sampleToken :=
  (session_store_safe sampleEnv "sessions.json" "admin" "secret" (3600 * second) true sampleOps (1700000120 * second)
    (by decide) (by decide +kernel)).1 sampleToken (by decide +kernel) (by decide +kernel) (by decide +kernel)

end Tanpopo.Session
