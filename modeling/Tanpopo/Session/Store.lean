import Tanpopo.Lib.Go
import Tanpopo.Lib.Table
import Mathlib
/-!
# The session store

Ordinary sessions live in memory. A remembered login is a signed token whose
digest is kept in memory and in a file, so that it survives a restart until it
is revoked. Times are in nanoseconds.
-/

namespace Tanpopo.Session

open Tanpopo.Go

abbrev Time := Int

def second : Time := 1000000000

/-- What the store takes from outside: the hash and the signature, and the
local offset from UTC, in which times are written. -/
structure Env where
  sha256 : String → List UInt8
  hmac : List UInt8 → String → List UInt8
  utcOffset : Time → Int
  sha256_length : ∀ text, (sha256 text).length = 32

structure Store where
  account : String
  password : String
  authenticationEnabled : Bool
  duration : Int
  sessions : Table String Time
  remembered : Table String Time
  persistencePath : String

structure Security where
  enabled : Bool
  account : String
  password : String

structure Cookie where
  value : String
  expires : Option Time
  maxAge : Int
  secure : Bool

structure RememberedState where
  version : Int
  tokens : Option (Table String Time)

/-- A file as `NewPersistentStore` sees it; `state` is what the JSON decoder makes of it. -/
structure File where
  isRegular : Bool
  size : Nat
  state : Except String RememberedState

/-- The store and the file at its path. -/
structure World where
  store : Store
  file : Option File

def cookieName : String := "llama_loader_session"
def rememberTokenPrefix : String := "r1"
def rememberedLimit : Nat := 10000
def fileLimit : Nat := 2 * 1024 * 1024

section
variable (env : Env)

def secureEqual (left right : String) : Bool := env.sha256 left = env.sha256 right

def tokenDigest (token : String) : String := hexEncode (env.sha256 token)

/-! ## Tokens -/

/-- `time.Time.Unix`. -/
def unix (t : Time) : Int := t / second

def Store.signRememberPayloadLocked (s : Store) (payload : String) : List UInt8 :=
  env.hmac (env.sha256 ("tanpopo-remember-v1\x00" ++ s.account ++ "\x00" ++ s.password)) payload

def Store.newTokenLocked (s : Store) (expires : Time) (remember : Bool) (random : Except String (Vector UInt8 32)) :
    Except String String := do
  let tokenBytes ← random
  let nonce := base64Encode tokenBytes.toList
  if !remember then return nonce
  let payload := formatInt (unix expires) ++ "." ++ nonce
  let signature := s.signRememberPayloadLocked env payload
  return rememberTokenPrefix ++ "." ++ payload ++ "." ++ base64Encode signature

def Store.validRememberTokenLocked (s : Store) (token : String) (now : Time) : Bool :=
  match split token '.' with
  | [tokenPrefix, expires, nonce, signature] =>
    tokenPrefix = rememberTokenPrefix &&
    (match parseInt expires with
      | some expiresUnix => decide (now < expiresUnix * second)
      | none => false) &&
    (match base64Decode nonce with
      | some bytes => bytes.length = 32
      | none => false) &&
    (match base64Decode signature with
      | some bytes => bytes.length = 32 && bytes = s.signRememberPayloadLocked env (expires ++ "." ++ nonce)
      | none => false)
  | _ => false

/-- Forget what has expired. -/
def Store.pruneLocked (s : Store) (now : Time) : Store :=
  { s with
    remembered := s.remembered.filter fun e => now < e.2
    sessions := s.sessions.filter fun e => now < e.2 }

/-! ## The file -/

/-- The digits of a fraction of a second, without trailing zeros. -/
def fractionDigits (n : Nat) : Nat → Nat
  | 0 => 0
  | digits + 1 => if n % 10 = 0 then fractionDigits (n / 10) digits else digits + 1

/-- The length of a time in RFC 3339, quoted. -/
def timeSize (t : Time) : Nat :=
  let digits := fractionDigits (t % second).toNat 9
  21 + (if digits = 0 then 0 else digits + 1) + if env.utcOffset t = 0 then 1 else 6

/-- The length of the JSON text. -/
def marshalSize (tokens : Table String Time) : Nat :=
  25 + (tokens.entries.map fun e => e.1.length + 3 + timeSize env e.2).sum + (tokens.length - 1)

def File.of (tokens : Table String Time) : File where
  isRegular := true
  size := marshalSize env tokens
  state := .ok { version := 1, tokens := some tokens }

/-- `fault` is the error of the first file operation that fails. -/
def World.persistLocked (w : World) (fault : Option String) : Except String Unit × World :=
  if w.store.persistencePath = "" then (.ok (), w)
  else match fault with
    | some err => (.error err, w)
    | none =>
      (.ok (), { w with file := some (File.of env w.store.remembered) })

def newStore (account password : String) (duration : Int) (authenticationEnabled : Bool) : Store where
  account := account
  password := password
  authenticationEnabled := authenticationEnabled
  duration := duration
  sessions := ∅
  remembered := ∅
  persistencePath := ""

def newPersistentStore (path account password : String) (duration : Int) (enabled : Bool) (file : Option File)
    (now : Time) : Except String Store :=
  let s := { newStore account password duration enabled with persistencePath := path }
  match file with
  | none => .ok s
  | some file =>
    if !file.isRegular || file.size > fileLimit then .error "登入紀錄檔案無效"
    else match file.state with
      | .error err => .error err
      | .ok state =>
        if state.version ≠ 1 ∨ ((state.tokens.map Table.length).getD 0) > rememberedLimit then
          .error "登入紀錄格式無效"
        else if ((state.tokens.map Table.entries).getD []).any (fun e => ((hexDecode e.1).map List.length) ≠ some 32) then
          .error "登入紀錄摘要無效"
        else
          let s := { s with remembered := state.tokens.getD s.remembered }
          .ok (s.pruneLocked now)

/-! ## Requests -/

def World.setRemembered (w : World) (remembered : Table String Time) : World :=
  { w with store := { w.store with remembered := remembered } }

def World.login (w : World) (now : Time) (tls : Bool) (account password : String) (remember : Bool)
    (random : Except String (Vector UInt8 32)) (fault : Option String) : Except String (Bool × Option Cookie) × World :=
  if !w.store.authenticationEnabled then (.ok (true, none), w)
  else if !secureEqual env account w.store.account || !secureEqual env password w.store.password then
    (.ok (false, none), w)
  else
    let expires := now + w.store.duration
    match w.store.newTokenLocked env expires remember random with
    | .error err => (.error ("建立登入憑證失敗: " ++ err), w)
    | .ok token =>
      let w := { w with store := w.store.pruneLocked now }
      if remember then
        if rememberedLimit ≤ w.store.remembered.length then (.error "持久登入數量已達上限", w)
        else
          let key := tokenDigest env token
          let w := w.setRemembered (w.store.remembered.set key expires)
          match w.persistLocked env fault with
          | (.error err, w) => (.error ("保存登入紀錄失敗: " ++ err), w.setRemembered (w.store.remembered.delete key))
          | (.ok (), w) =>
            let maxAge := w.store.duration.tdiv second
            (.ok (true, some { value := token, expires := some expires, maxAge, secure := tls }), w)
      else
        let w := { w with store := { w.store with sessions := w.store.sessions.set token expires } }
        (.ok (true, some { value := token, expires := none, maxAge := 0, secure := tls }), w)

/-- Returns the cookie that clears the client's. -/
def World.logout (w : World) (tls : Bool) (cookie : Option String) (fault : Option String) :
    Except String Cookie × World :=
  let cleared : Cookie := { value := "", expires := none, maxAge := -1, secure := tls }
  match cookie with
  | none => (.ok cleared, w)
  | some value =>
    let w := { w with store := { w.store with sessions := w.store.sessions.delete value } }
    let key := tokenDigest env value
    match w.store.remembered.get? key with
    | none => (.ok cleared, w)
    | some expires =>
      let w := w.setRemembered (w.store.remembered.delete key)
      match w.persistLocked env fault with
      | (.error err, w) => (.error err, w.setRemembered (w.store.remembered.set key expires))
      | (.ok (), w) => (.ok cleared, w)

def World.authenticated (w : World) (now : Time) (cookie : Option String) : Bool × World :=
  if !w.store.authenticationEnabled then (true, w)
  else match cookie with
    | none => (false, w)
    | some value =>
      if value = "" then (false, w)
      else
        let remembered := fun (w : World) => match w.store.remembered.get? (tokenDigest env value) with
          | some expires => decide (now < expires) && w.store.validRememberTokenLocked env value now
          | none => false
        match w.store.sessions.get? value with
        | some expires =>
          if now < expires then (true, w)
          else
            let w := { w with store := { w.store with sessions := w.store.sessions.delete value } }
            (remembered w, w)
        | none => (remembered w, w)

/-- `commit` is what the commit returns, and the faults are those of the two
writes of the file. -/
def World.updateSecurityWith (w : World) (commit : Except String Security) (fault restoreFault : Option String) :
    Except String Unit × World :=
  let previous := w.store.remembered
  match (w.setRemembered ∅).persistLocked env fault with
  | (.error err, w) => (.error err, w.setRemembered previous)
  | (.ok (), w) =>
    match commit with
    | .error err =>
      match (w.setRemembered previous).persistLocked env restoreFault with
      | (.error restoreErr, w) =>
        (.error (err ++ "\n" ++ "復原登入紀錄失敗，既有登入已撤銷: " ++ restoreErr),
          { w with store := { w.store with remembered := ∅, sessions := ∅ } })
      | (.ok (), w) => (.error err, w)
    | .ok next =>
      (.ok (), { w with store := { w.store with
        authenticationEnabled := next.enabled, account := next.account, password := next.password, sessions := ∅ } })

def World.revokeAll (w : World) (fault : Option String) : Except String Unit × World :=
  let previous := w.store.remembered
  match (w.setRemembered ∅).persistLocked env fault with
  | (.error err, w) => (.error err, w.setRemembered previous)
  | (.ok (), w) => (.ok (), { w with store := { w.store with sessions := ∅ } })

/-- The process ends and starts again with the current account and password.
When the file is refused it does not start. -/
def World.restart (w : World) (now : Time) : Except String World :=
  match newPersistentStore w.store.persistencePath w.store.account w.store.password w.store.duration
      w.store.authenticationEnabled w.file now with
  | .error err => .error err
  | .ok store => .ok { w with store }

end
end Tanpopo.Session
