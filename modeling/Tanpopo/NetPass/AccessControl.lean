import Tanpopo.Session.Store
/-!
# The access-control store

The policy and the keys of the model API. A change is written to the file
before it is kept in memory, so a change that fails leaves the store as it was.
-/

namespace Tanpopo.NetPass

open Go

/-- The hash, and what the `net` package makes of an address: the canonical
text of an address or of a network. -/
structure AccessEnv where
  sha256 : String → List UInt8
  parseIP : String → Option String
  parseCIDR : String → Option String

structure Policy where
  apiKeyEnabled : Bool
  ipAllowlistEnabled : Bool
  ipAllowlist : List String
  deriving DecidableEq

structure StoredKey where
  id : String
  name : String
  start : String
  hash : String
  createdAt : Int

structure PublicKey where
  id : String
  name : String
  start : String
  createdAt : Int

structure View where
  policy : Policy
  keys : List PublicKey

structure IssuedKey where
  publicKey : PublicKey
  key : String

structure AccessStore where
  policy : Policy
  keys : List StoredKey

def defaultLoopbackIP : String := "127.0.0.1"
def maxKeys : Nat := 100
def maxIPPatterns : Nat := 256

/-- The random bytes of a new key and the time, or the error of reading them. -/
structure Fresh where
  secretBytes : Except String (List UInt8)
  idBytes : Except String (List UInt8)
  now : Int

def publicKey (key : StoredKey) : PublicKey := ⟨key.id, key.name, key.start, key.createdAt⟩

def publicPolicy (value : Policy) : Policy :=
  if value.ipAllowlist = [] then { value with ipAllowlist := [defaultLoopbackIP] } else value

/-- The newest key first. -/
def AccessStore.publicView (s : AccessStore) : View where
  policy := publicPolicy s.policy
  keys := (s.keys.map publicKey).mergeSort fun a b => decide (b.createdAt ≤ a.createdAt)

/-! ## Policies -/

/-- `wildcardPattern`. -/
def isWildcardPattern (value : String) : Bool :=
  value ≠ "" && value.toList.all fun c => "0123456789ABCDEFabcdef:.*".toList.contains c

section
variable (env : AccessEnv)

def normalizeIPPattern (value : String) : Except String String :=
  let value := toLower (trimSpace value)
  if value = "" then .ok ""
  else if value = "*" then .ok value
  else if contains value "/" then
    match env.parseCIDR value with
    | none => .error ("IP 白名單格式錯誤: " ++ value)
    | some network => .ok network
  else if contains value "*" then
    if 128 < value.utf8ByteSize || !isWildcardPattern value then .error ("IP 萬用字元格式錯誤: " ++ value) else .ok value
  else match env.parseIP (trim value ['[', ']']) with
    | none => .error ("IP 白名單格式錯誤: " ++ value)
    | some ip => .ok ip

/-- The patterns in their order, each once; `patterns` are those before `values`. -/
def normalizePatterns (patterns : List String) : List String → Except String (List String)
  | [] => .ok patterns
  | raw :: values => do
    let pattern ← normalizeIPPattern env raw
    if pattern = "" ∨ pattern ∈ patterns then normalizePatterns patterns values
    else if maxIPPatterns < (patterns ++ [pattern]).length then
      .error ("IP 白名單最多可設定 " ++ toString maxIPPatterns ++ " 筆")
    else normalizePatterns (patterns ++ [pattern]) values

def normalizePolicy (value : Policy) : Except String Policy := do
  let patterns ← normalizePatterns env [] value.ipAllowlist
  if value.ipAllowlistEnabled ∧ patterns = [] then .error "請先設定至少一筆 IP 白名單，再啟用 IP 限制"
  else .ok { value with ipAllowlist := patterns }

/-! ## Changes -/

/-- `fault` is the error of the first file operation that fails. -/
def AccessStore.persist (s updated : AccessStore) (fault : Option String) : Except String Unit × AccessStore :=
  match fault with
  | some err => (.error err, s)
  | none => (.ok (), updated)

def AccessStore.updatePolicy (s : AccessStore) (value : Policy) (fault : Option String) : Except String View × AccessStore :=
  match normalizePolicy env value with
  | .error err => (.error err, s)
  | .ok policy =>
    if policy.apiKeyEnabled ∧ s.keys = [] then (.error "請先核發至少一把金鑰，再啟用金鑰驗證", s)
    else
      let updated := { s with policy }
      match s.persist updated fault with
      | (.error err, s) => (.error err, s)
      | (.ok (), s) => (.ok updated.publicView, s)

/-- The key `IssueKey` makes of the random bytes, with its secret. -/
def newKey (name : String) (secretBytes idBytes : List UInt8) (now : Int) : StoredKey × String :=
  let secret := "olk_" ++ base64Encode secretBytes
  ({ id := hexEncode idBytes
     name
     start := String.ofList (secret.toList.take 12)
     hash := hexEncode (env.sha256 secret)
     createdAt := now }, secret)

def AccessStore.issueKey (s : AccessStore) (name : String) (fresh : Fresh) (fault : Option String) :
    Except String IssuedKey × AccessStore :=
  let name := trimSpace name
  if name = "" || 80 < name.length || containsAny name "\x0d\n\x00" then
    (.error "金鑰名稱不可為空、不可換行且最多 80 個字元", s)
  else match fresh.secretBytes, fresh.idBytes with
    | .error err, _ => (.error ("產生金鑰失敗: " ++ err), s)
    | .ok _, .error err => (.error ("產生金鑰識別碼失敗: " ++ err), s)
    | .ok secretBytes, .ok idBytes =>
      let (record, secret) := newKey env name secretBytes idBytes fresh.now
      if maxKeys ≤ s.keys.length then (.error ("金鑰數量不可超過 " ++ toString maxKeys ++ " 把"), s)
      else if s.keys.any fun current => equalFold current.name name then (.error "金鑰名稱不可重複", s)
      else match s.persist { s with keys := s.keys ++ [record] } fault with
        | (.error err, s) => (.error err, s)
        | (.ok (), s) => (.ok ⟨publicKey record, secret⟩, s)

def AccessStore.revokeKey (s : AccessStore) (id : String) (fault : Option String) : Except String Unit × AccessStore :=
  let id := trimSpace id
  let keys := s.keys.filter fun key => key.id ≠ id
  if id = "" then (.error "金鑰 ID 不可為空", s)
  else if ¬ s.keys.any fun key => key.id = id then (.error "找不到指定的金鑰", s)
  else if s.policy.apiKeyEnabled ∧ keys = [] then (.error "金鑰驗證啟用中，不可撤銷最後一把金鑰", s)
  else s.persist { s with keys } fault

/-! ## What a change does -/

/-- The API is guarded by keys, and there is one. -/
def AccessStore.Secured (s : AccessStore) : Prop := s.policy.apiKeyEnabled = true ∧ s.keys ≠ []

instance (s : AccessStore) : Decidable s.Secured := inferInstanceAs (Decidable (_ ∧ _))

variable {env} {s : AccessStore} {fault : Option String}

@[simp] theorem publicPolicy_apiKeyEnabled (value : Policy) : (publicPolicy value).apiKeyEnabled = value.apiKeyEnabled := by
  unfold publicPolicy
  split <;> rfl

@[simp] theorem publicView_apiKeyEnabled (s : AccessStore) : s.publicView.policy.apiKeyEnabled = s.policy.apiKeyEnabled :=
  publicPolicy_apiKeyEnabled s.policy

theorem length_publicView (s : AccessStore) : s.publicView.keys.length = s.keys.length := by
  rw [AccessStore.publicView, List.length_mergeSort, List.length_map]

theorem persist_cases (s updated : AccessStore) (fault : Option String) :
    (∃ err, s.persist updated fault = (.error err, s)) ∨ s.persist updated fault = (.ok (), updated) := by
  cases fault with
  | none => exact .inr rfl
  | some err => exact .inl ⟨err, rfl⟩

/-- A new policy is refused, or it is kept and seen in the view. -/
theorem updatePolicy_cases (env : AccessEnv) (s : AccessStore) (value : Policy) (fault : Option String) :
    (∃ err, s.updatePolicy env value fault = (.error err, s)) ∨
    ∃ policy, ¬ (policy.apiKeyEnabled = true ∧ s.keys = []) ∧
      s.updatePolicy env value fault = (.ok { s with policy }.publicView, { s with policy }) := by
  unfold AccessStore.updatePolicy
  cases normalizePolicy env value with
  | error err => exact .inl ⟨err, rfl⟩
  | ok policy =>
    simp only
    by_cases hkeys : policy.apiKeyEnabled = true ∧ s.keys = []
    · rw [if_pos hkeys]
      exact .inl ⟨_, rfl⟩
    · rw [if_neg hkeys]
      rcases persist_cases s { s with policy } fault with ⟨err, heq⟩ | heq <;> rw [heq]
      · exact .inl ⟨err, rfl⟩
      · exact .inr ⟨policy, hkeys, rfl⟩

theorem issueKey_cases (env : AccessEnv) (s : AccessStore) (name : String) (fresh : Fresh) (fault : Option String) :
    (∃ err, s.issueKey env name fresh fault = (.error err, s)) ∨
    ∃ record issued, s.issueKey env name fresh fault = (.ok issued, { s with keys := s.keys ++ [record] }) := by
  simp only [AccessStore.issueKey]
  split
  · exact .inl ⟨_, rfl⟩
  · cases fresh.secretBytes with
    | error err => exact .inl ⟨_, rfl⟩
    | ok secretBytes =>
      cases fresh.idBytes with
      | error err => exact .inl ⟨_, rfl⟩
      | ok idBytes =>
        simp only
        split
        · exact .inl ⟨_, rfl⟩
        split
        · exact .inl ⟨_, rfl⟩
        rcases persist_cases s { s with keys := s.keys ++ [(newKey env (trimSpace name) secretBytes idBytes fresh.now).1] } fault with
          ⟨err, heq⟩ | heq <;> rw [heq]
        · exact .inl ⟨err, rfl⟩
        · exact .inr ⟨_, _, rfl⟩

/-- The last key of a guarded API is not revoked. -/
theorem revokeKey_cases (s : AccessStore) (id : String) (fault : Option String) :
    (∃ err, s.revokeKey id fault = (.error err, s)) ∨
    ∃ keys, ¬ (s.policy.apiKeyEnabled = true ∧ keys = []) ∧ s.revokeKey id fault = (.ok (), { s with keys }) := by
  simp only [AccessStore.revokeKey]
  split
  · exact .inl ⟨_, rfl⟩
  split
  · exact .inl ⟨_, rfl⟩
  split
  · exact .inl ⟨_, rfl⟩
  · next hlast =>
    rcases persist_cases s { s with keys := s.keys.filter fun key => key.id ≠ trimSpace id } fault with ⟨err, heq⟩ | heq <;>
      rw [heq]
    · exact .inl ⟨err, rfl⟩
    · exact .inr ⟨_, hlast, rfl⟩

end
end Tanpopo.NetPass
