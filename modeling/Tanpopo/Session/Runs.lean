import Tanpopo.Session.Store
/-!
# Runs of the session store

`ledger` says which logins are in force after some requests: those that were
issued and neither logged out nor revoked since. `Inv` ties memory and file to
it. No request, failed write or restart accepts a token outside the ledger.
-/

namespace Tanpopo.Session

open Tanpopo.Go

/-- A request with what the clock, the random source, the file and the commit
answer to it. -/
inductive Op where
  | login (now : Time) (tls : Bool) (account password : String) (remember : Bool)
    (random : Except String (Vector UInt8 32)) (fault : Option String)
  | logout (tls : Bool) (cookie fault : Option String)
  | authenticated (now : Time) (cookie : Option String)
  | updateSecurityWith (commit : Except String Security) (fault restoreFault : Option String)
  | revokeAll (fault : Option String)
  | restart (now : Time)

def Op.now? : Op → Option Time
  | .login now .. => some now
  | .authenticated now _ => some now
  | .restart now => some now
  | _ => none

/-- The latest reading of the clock. -/
def Op.clock (time : Time) (op : Op) : Time := op.now?.getD time

/-- A login that was granted. -/
structure Issue where
  token : String
  expires : Time
  remember : Bool
  deriving DecidableEq

def start (path account password : String) (duration : Int) (enabled : Bool) : World where
  store := { newStore account password duration enabled with persistencePath := path }
  file := none

section
variable (env : Env)

def World.step (w : World) : Op → World
  | .login now tls account password remember random fault => (w.login env now tls account password remember random fault).2
  | .logout tls cookie fault => (w.logout env tls cookie fault).2
  | .authenticated now cookie => (w.authenticated env now cookie).2
  | .updateSecurityWith commit fault restoreFault => (w.updateSecurityWith env commit fault restoreFault).2
  | .revokeAll fault => (w.revokeAll env fault).2
  | .restart now => (w.restart now).toOption.getD w

def World.run (w : World) (ops : List Op) : World := ops.foldl (World.step env) w

/-- The token a login makes up, granted or not. -/
def World.generates (w : World) : Op → Option String
  | .login now _ account password remember random _ =>
    if w.store.authenticationEnabled && secureEqual env account w.store.account && secureEqual env password w.store.password then
      (w.store.newTokenLocked env (now + w.store.duration) remember random).toOption
    else none
  | _ => none

/-- The login an operation grants. -/
def World.issues (w : World) (op : Op) : Option Issue :=
  match op with
  | .login now tls account password remember random fault =>
    match (w.login env now tls account password remember random fault).1 with
    | .ok (true, some cookie) => some ⟨cookie.value, now + w.store.duration, remember⟩
    | _ => none
  | _ => none

/-- A successful logout of the token, security change or revocation; for an ordinary token also a restart. -/
def World.ends (w : World) (issue : Issue) : Op → Bool
  | .logout tls cookie fault => cookie = some issue.token && (w.logout env tls cookie fault).1.isOk
  | .updateSecurityWith commit fault restoreFault => (w.updateSecurityWith env commit fault restoreFault).1.isOk
  | .revokeAll fault => (w.revokeAll env fault).1.isOk
  | .restart _ => !issue.remember
  | _ => false

def World.generated (w : World) : List Op → List String
  | [] => []
  | op :: ops => (w.generates env op).toList ++ (w.step env op).generated ops

/-- The logins in force, given those in force before. -/
def World.ledgerStep (w : World) (op : Op) (ledger : List Issue) : List Issue :=
  (w.issues env op).toList ++ ledger.filter fun issue => !w.ends env issue op

def World.ledger (w : World) : List Op → List Issue → List Issue
  | [], ledger => ledger
  | op :: ops, ledger => (w.step env op).ledger ops (w.ledgerStep env op ledger)

/-- None of the requests ends a login. -/
def World.Unrevoked (w : World) (issue : Issue) : List Op → Prop
  | [] => True
  | op :: ops => w.ends env issue op = false ∧ (w.step env op).Unrevoked issue ops

/-- The token a login or a logout is about. -/
def World.subject (w : World) (op : Op) : Option String :=
  match op with
  | .logout _ cookie _ => cookie
  | op => w.generates env op

/-- A login, logout or revocation that does not succeed. -/
def World.fails (w : World) : Op → Bool
  | .login now tls account password remember random fault =>
    match (w.login env now tls account password remember random fault).1 with
    | .ok (true, _) => false
    | _ => true
  | .logout tls cookie fault => !(w.logout env tls cookie fault).1.isOk
  | .revokeAll fault => !(w.revokeAll env fault).1.isOk
  | _ => false

/-- The token was granted, has not expired, and no request since ended the login. -/
def World.InForce (w : World) (ops : List Op) (now : Time) (token : String) : Prop :=
  ∃ pre op post issue, ops = pre ++ op :: post ∧ (w.run env pre).issues env op = some issue ∧ issue.token = token ∧
    now < issue.expires ∧ (w.run env (pre ++ [op])).Unrevoked env issue post ∧
    issue.remember = decide ('.' ∈ token.toList)

/-- From `clock` on, tokens with another digest than `subject` are accepted as before, also after a restart. -/
def Undisturbed (clock : Time) (w w' : World) (subject : Option String) : Prop :=
  (∀ token, (∀ t, subject = some t → tokenDigest env token ≠ tokenDigest env t) → ∀ now, clock ≤ now →
    (w'.authenticated env now (some token)).1 = (w.authenticated env now (some token)).1) ∧
  ∀ now, w'.restart now = w.restart now

/-- The file after a write that succeeds. -/
def World.written (w : World) : World :=
  if w.store.persistencePath = "" then w else { w with file := some (File.of env w.store.remembered) }

/-- Nobody is logged in, in memory and in the file. -/
def World.cleared (w : World) : World :=
  let w := (w.setRemembered ∅).written env
  { w with store := { w.store with sessions := ∅ } }

end

/-- The tokens a restart would find in the file. -/
def World.saved (w : World) : Table String Time :=
  match w.file with
  | some { state := .ok { tokens := some tokens, .. }, .. } => tokens
  | _ => ∅

/-- Two tables hold the same tokens, expired ones apart. -/
def Agree (clock : Time) (a b : Table String Time) : Prop :=
  ∀ key expires, clock < expires → (a.get? key = some expires ↔ b.get? key = some expires)

/-- What `NewPersistentStore` accepts. -/
structure Kept (tokens : Table String Time) : Prop where
  limit : tokens.length ≤ rememberedLimit
  digests : ∀ e ∈ tokens.entries, (hexDecode e.1).map List.length = some 32

/-! ## What each request does -/

section
variable {env : Env} {w : World}

@[simp] theorem written_store (w : World) : (w.written env).store = w.store := by
  unfold World.written
  split <;> rfl

theorem persistLocked_cases (env : Env) (w : World) (fault : Option String) :
    (w.store.persistencePath ≠ "" ∧ ∃ err, w.persistLocked env fault = (.error err, w)) ∨
    w.persistLocked env fault = (.ok (), w.written env) := by
  unfold World.persistLocked World.written
  split
  · exact .inr rfl
  · rename_i hpath
    cases fault with
    | none => exact .inr rfl
    | some err => exact .inl ⟨hpath, err, rfl⟩

/-- Remembered tokens are the ones with a dot. -/
theorem newTokenLocked_form {s : Store} {expires : Time} {remember : Bool} {random : Except String (Vector UInt8 32)}
    {token : String} (h : s.newTokenLocked env expires remember random = .ok token) :
    remember = decide ('.' ∈ token.toList) := by
  cases random with
  | error err => cases h
  | ok tokenBytes =>
    cases remember with
    | false =>
      obtain rfl : base64Encode tokenBytes.toList = token := Except.ok.inj h
      rw [decide_eq_false (dot_not_mem_base64Encode _)]
    | true =>
      obtain rfl := Except.ok.inj h
      rw [decide_eq_true]
      simp only [String.toList_append, List.mem_append]
      exact .inl (.inl (.inl (.inr (by decide))))

theorem login_cases (env : Env) (w : World) (now : Time) (tls : Bool) (account password : String) (remember : Bool)
    (random : Except String (Vector UInt8 32)) (fault : Option String) :
    let op := Op.login now tls account password remember random fault
    let pruned : World := { w with store := w.store.pruneLocked now }
    let expires := now + w.store.duration
    (w.issues env op = none ∧ (w.step env op = w ∨ w.step env op = pruned)) ∨
    (∃ token, w.generates env op = some token ∧ w.issues env op = none ∧
      w.step env op = pruned.setRemembered ((pruned.store.remembered.set (tokenDigest env token) expires).delete
        (tokenDigest env token))) ∨
    (∃ token, w.generates env op = some token ∧ w.issues env op = some ⟨token, expires, true⟩ ∧
      '.' ∈ token.toList ∧ pruned.store.remembered.length < rememberedLimit ∧
      w.step env op = (pruned.setRemembered (pruned.store.remembered.set (tokenDigest env token) expires)).written env) ∨
    (∃ token, w.generates env op = some token ∧ w.issues env op = some ⟨token, expires, false⟩ ∧
      '.' ∉ token.toList ∧
      w.step env op = { pruned with store := { pruned.store with sessions := pruned.store.sessions.set token expires } }) := by
  intro op pruned expires
  simp only [op, World.issues, World.step, World.generates, World.login]
  by_cases henabled : w.store.authenticationEnabled = true
  swap
  · exact .inl (by simp [henabled])
  by_cases hcredentials : secureEqual env account w.store.account = true ∧ secureEqual env password w.store.password = true
  swap
  · refine .inl ?_
    rcases not_and_or.1 hcredentials with h | h <;> simp [henabled, h]
  simp only [henabled, hcredentials.1, hcredentials.2, Bool.not_true, Bool.or_false, Bool.false_eq_true, if_false,
    Bool.and_true, if_true]
  cases htoken : w.store.newTokenLocked env (now + w.store.duration) remember random with
  | error err => exact .inl ⟨rfl, .inl rfl⟩
  | ok token =>
    have hform := newTokenLocked_form htoken
    cases remember with
    | false =>
      refine .inr (.inr (.inr ⟨token, rfl, rfl, ?_, rfl⟩))
      exact of_decide_eq_false hform.symm
    | true =>
      have hdot : '.' ∈ token.toList := of_decide_eq_true hform.symm
      simp only [if_true]
      by_cases hlimit : rememberedLimit ≤ (w.store.pruneLocked now).remembered.length
      · rw [if_pos hlimit]
        exact .inl ⟨rfl, .inr rfl⟩
      · rw [if_neg hlimit]
        rcases persistLocked_cases env
          (pruned.setRemembered (pruned.store.remembered.set (tokenDigest env token) expires)) fault with
          ⟨-, err, h⟩ | h
        · rw [h]
          exact .inr (.inl ⟨token, rfl, rfl, rfl⟩)
        · rw [h]
          exact .inr (.inr (.inl ⟨token, rfl, rfl, hdot, Nat.not_le.1 hlimit, rfl⟩))

theorem logout_cases (env : Env) (w : World) (tls : Bool) (cookie fault : Option String) :
    let op := Op.logout tls cookie fault
    (cookie = none ∧ w.step env op = w) ∨
    (∃ value, cookie = some value ∧
      let closed : World := { w with store := { w.store with sessions := w.store.sessions.delete value } }
      let key := tokenDigest env value
      (w.store.remembered.get? key = none ∧ w.step env op = closed) ∨
      (∃ expires, w.store.remembered.get? key = some expires ∧
        ((w.logout env tls cookie fault).1.isOk = false ∧
          w.step env op = closed.setRemembered ((w.store.remembered.delete key).set key expires) ∨
        (w.logout env tls cookie fault).1.isOk = true ∧
          w.step env op = (closed.setRemembered (w.store.remembered.delete key)).written env))) := by
  intro op
  cases cookie with
  | none => exact .inl ⟨rfl, rfl⟩
  | some value =>
    refine .inr ⟨value, rfl, ?_⟩
    intro closed key
    simp only [op, World.step, World.logout]
    cases hget : w.store.remembered.get? (tokenDigest env value) with
    | none => exact .inl ⟨rfl, rfl⟩
    | some expires =>
      refine .inr ⟨expires, rfl, ?_⟩
      rcases persistLocked_cases env (closed.setRemembered (w.store.remembered.delete key)) fault with
        ⟨-, err, h⟩ | h
      · exact .inl (by simp only [closed, key] at h; simp only [h]; exact ⟨rfl, rfl⟩)
      · exact .inr (by simp only [closed, key] at h; simp only [h]; exact ⟨rfl, rfl⟩)

theorem authenticated_cases (env : Env) (w : World) (now : Time) (cookie : Option String) :
    w.step env (.authenticated now cookie) = w ∨ ∃ value expires,
      w.store.sessions.get? value = some expires ∧ expires ≤ now ∧
      w.step env (.authenticated now cookie) =
        { w with store := { w.store with sessions := w.store.sessions.delete value } } := by
  simp only [World.step, World.authenticated]
  split
  · exact .inl rfl
  · cases cookie with
    | none => exact .inl rfl
    | some value =>
      dsimp only
      split
      · exact .inl rfl
      · cases hget : w.store.sessions.get? value with
        | none => exact .inl rfl
        | some expires =>
          dsimp only
          split
          · exact .inl rfl
          · rename_i hexpired
            exact .inr ⟨value, expires, hget, Int.not_lt.1 hexpired, rfl⟩

/-- The last write decides what the file holds. -/
theorem written_setRemembered_written (w : World) (a b : Table String Time) :
    (((w.setRemembered a).written env).setRemembered b).written env = (w.setRemembered b).written env := by
  by_cases hpath : w.store.persistencePath = ""
  · have ha : (w.setRemembered a).written env = w.setRemembered a := if_pos hpath
    rw [ha]
    rfl
  · have ha : (w.setRemembered a).written env = { w.setRemembered a with file := some (File.of env a) } := if_neg hpath
    have hb : (w.setRemembered b).written env = { w.setRemembered b with file := some (File.of env b) } := if_neg hpath
    rw [ha, hb]
    exact if_neg hpath

/-- A security change fails before the commit, is undone, revokes every login or succeeds. -/
theorem updateSecurityWith_cases (env : Env) (w : World) (commit : Except String Security) (fault restoreFault : Option String) :
    let result := (w.updateSecurityWith env commit fault restoreFault).1
    let next := w.step env (.updateSecurityWith commit fault restoreFault)
    (result.isOk = false ∧ (next = w ∨ next = w.written env ∨ next = w.cleared env)) ∨
    (∃ security, commit = .ok security ∧ result.isOk = true ∧
      next = { w.cleared env with store := { (w.cleared env).store with
        authenticationEnabled := security.enabled, account := security.account, password := security.password } }) := by
  simp only [World.step, World.updateSecurityWith]
  rcases persistLocked_cases env (w.setRemembered ∅) fault with ⟨-, err, h⟩ | h
  · rw [h]
    exact .inl ⟨rfl, .inl rfl⟩
  · rw [h]
    cases commit with
    | ok security =>
      refine .inr ⟨security, rfl, rfl, ?_⟩
      simp only [World.cleared, written_store]
    | error err =>
      dsimp only
      rcases persistLocked_cases env (((w.setRemembered ∅).written env).setRemembered w.store.remembered)
        restoreFault with ⟨-, restoreErr, hr⟩ | hr
      · rw [hr]
        refine .inl ⟨rfl, .inr (.inr ?_)⟩
        simp only [World.cleared, World.setRemembered, written_store]
      · rw [hr]
        refine .inl ⟨rfl, .inr (.inl ?_)⟩
        exact written_setRemembered_written w ∅ w.store.remembered

theorem revokeAll_cases (env : Env) (w : World) (fault : Option String) :
    ((w.revokeAll env fault).1.isOk = false ∧ w.step env (.revokeAll fault) = w) ∨
    ((w.revokeAll env fault).1.isOk = true ∧ w.step env (.revokeAll fault) = w.cleared env) := by
  simp only [World.step, World.revokeAll]
  rcases persistLocked_cases env (w.setRemembered ∅) fault with ⟨-, err, h⟩ | h
  · rw [h]
    exact .inl ⟨rfl, rfl⟩
  · rw [h]
    exact .inr ⟨rfl, rfl⟩

end

end Tanpopo.Session
