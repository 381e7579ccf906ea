import Tanpopo.Lib.Glob
import Tanpopo.NetPass.AccessControl
/-!
# The file of the access-control store

The store as it is opened from its file and written back to it. An empty list
that was copied is `nil`, which JSON writes as `null`.
-/

namespace Tanpopo.NetPass

open Go

/-- What `unicode.ToLower` and simple case folding make of a letter. -/
structure Letters where
  lower : Char → Char
  fold : Char → Char

/-- `strings.ToLower`. -/
def Letters.toLower (letters : Letters) (text : String) : String := String.ofList (text.toList.map letters.lower)

/-- `strings.EqualFold`. -/
def Letters.equalFold (letters : Letters) (a b : String) : Bool := a.toList.map letters.fold = b.toList.map letters.fold

/-- The letters, and whether the network of a pattern contains an address. -/
structure AccessFileEnv extends AccessEnv where
  letters : Letters
  networkContains : String → String → Bool

structure FilePolicy where
  apiKeyEnabled : Bool
  ipAllowlistEnabled : Bool
  ipAllowlist : Option (List String)

structure FileData where
  version : Int
  policy : FilePolicy
  keys : Option (List StoredKey)

/-- What `os.ReadFile` and the JSON reader find at the path. -/
inductive AccessFile where
  | missing
  | unreadable (message : String)
  | invalid (message : String)
  | object (data : FileData)

structure KeyStore where
  path : String
  data : FileData
  file : AccessFile

def currentFileVersion : Int := 1

/-- `time.Time{}`, in nanoseconds from 1970. -/
def zeroTime : Int := -62135596800000000000

/-! ## Copies -/

/-- `append([]T(nil), values...)`. -/
def cloned {α : Type} (values : Option (List α)) : Option (List α) :=
  if (values.getD []).isEmpty then none else values

def clonePolicy (value : FilePolicy) : FilePolicy := { value with ipAllowlist := cloned value.ipAllowlist }

def cloneData (value : FileData) : FileData := { value with policy := clonePolicy value.policy, keys := cloned value.keys }

def FilePolicy.value (policy : FilePolicy) : Policy where
  apiKeyEnabled := policy.apiKeyEnabled
  ipAllowlistEnabled := policy.ipAllowlistEnabled
  ipAllowlist := policy.ipAllowlist.getD []

def FileData.keyList (data : FileData) : List StoredKey := data.keys.getD []

/-- The policy and the keys, whether or not their lists are `nil`. -/
def FileData.store (data : FileData) : AccessStore := ⟨data.policy.value, data.keyList⟩

/-- A policy whose list was made. -/
def Policy.made (policy : Policy) : FilePolicy where
  apiKeyEnabled := policy.apiKeyEnabled
  ipAllowlistEnabled := policy.ipAllowlistEnabled
  ipAllowlist := some policy.ipAllowlist

def samePolicy (left right : FilePolicy) : Bool := left.value = right.value

section
variable (env : AccessFileEnv)

/-! ## Opening -/

def validateKeys (seenIDs seenNames : List String) : List StoredKey → Except String Unit
  | [] => .ok ()
  | key :: keys =>
    if key.id.utf8ByteSize ≠ 24 then .error "模型 API 金鑰 ID 格式錯誤"
    else if (hexDecode key.id).isNone then .error "模型 API 金鑰 ID 格式錯誤"
    else if key.name = "" ∨ key.start = "" ∨ key.hash.utf8ByteSize ≠ 64 ∨ key.createdAt = zeroTime then
      .error "模型 API 金鑰資料不完整"
    else if (hexDecode key.hash).isNone then .error "模型 API 金鑰雜湊格式錯誤"
    else
      let nameKey := env.letters.toLower key.name
      if key.id ∈ seenIDs ∨ nameKey ∈ seenNames then .error "模型 API 金鑰資料重複"
      else validateKeys (key.id :: seenIDs) (nameKey :: seenNames) keys

def validateStoredKeys (keys : List StoredKey) : Except String Unit :=
  if maxKeys < keys.length then .error ("金鑰數量不可超過 " ++ toString maxKeys ++ " 把") else validateKeys env [] [] keys

/-- `NewStore`. `fault` is the error of the write or of the change of mode. -/
def newStore (fault : Option String) (path : String) (file : AccessFile) : Except String KeyStore :=
  let path := trimSpace path
  if path = "" then .error "模型 API 安全設定檔路徑不可為空"
  else match file with
  | .missing =>
    let data : FileData := ⟨currentFileVersion, ⟨false, false, some [defaultLoopbackIP]⟩, some []⟩
    match fault with
    | some err => .error err
    | none => .ok ⟨path, data, .object data⟩
  | .unreadable message => .error message
  | .invalid message => .error ("解析模型 API 安全設定失敗: " ++ message)
  | .object data =>
    if data.version ≠ currentFileVersion then .error ("不支援的模型 API 安全設定版本: " ++ formatInt data.version)
    else
      let originalPolicy := clonePolicy data.policy
      let policyInput := clonePolicy data.policy
      let policyInput :=
        if policyInput.ipAllowlist.isNone then { policyInput with ipAllowlist := some [defaultLoopbackIP] } else policyInput
      match normalizePolicy env.toAccessEnv policyInput.value with
      | .error err => .error err
      | .ok policy =>
        let updated : FileData := { data with policy := policy.made, keys := some data.keyList }
        match validateStoredKeys env data.keyList with
        | .error err => .error err
        | .ok () =>
          if policy.apiKeyEnabled ∧ data.keyList.isEmpty then .error "模型 API 已啟用金鑰驗證，但設定檔內沒有可用金鑰"
          else if ¬ samePolicy originalPolicy updated.policy ∨ data.keys.isNone then
            match fault with
            | some err => .error ("更新模型 API 安全設定格式失敗: " ++ err)
            | none => .ok ⟨path, updated, .object updated⟩
          else match fault with
            | some err => .error ("設定模型 API 安全檔案權限失敗: " ++ err)
            | none => .ok ⟨path, updated, file⟩

/-! ## Changes -/

def KeyStore.write (s : KeyStore) (data : FileData) : KeyStore := { s with data, file := .object data }

/-- The file is replaced first, and the memory after it. -/
def KeyStore.persist (s : KeyStore) (updated : FileData) (fault : Option String) : Option String × KeyStore :=
  match fault with
  | some err => (some err, s)
  | none => (none, s.write updated)

def KeyStore.public (s : KeyStore) : View := s.data.store.publicView

def KeyStore.updatePolicy (s : KeyStore) (value : Policy) (fault : Option String) : Except String View × KeyStore :=
  match normalizePolicy env.toAccessEnv value with
  | .error err => (.error err, s)
  | .ok policy =>
    if policy.apiKeyEnabled ∧ s.data.keyList = [] then (.error "請先核發至少一把金鑰，再啟用金鑰驗證", s)
    else
      let updated : FileData := { cloneData s.data with policy := policy.made }
      match s.persist updated fault with
      | (some err, s) => (.error err, s)
      | (none, s) => (.ok updated.store.publicView, s)

def KeyStore.issueKey (s : KeyStore) (name : String) (fresh : Fresh) (fault : Option String) :
    Except String IssuedKey × KeyStore :=
  let name := trimSpace name
  if name = "" || 80 < name.length || containsAny name "\x0d\n\x00" then
    (.error "金鑰名稱不可為空、不可換行且最多 80 個字元", s)
  else match fresh.secretBytes, fresh.idBytes with
    | .error err, _ => (.error ("產生金鑰失敗: " ++ err), s)
    | .ok _, .error err => (.error ("產生金鑰識別碼失敗: " ++ err), s)
    | .ok secretBytes, .ok idBytes =>
      let (record, secret) := newKey env.toAccessEnv name secretBytes idBytes fresh.now
      if maxKeys ≤ s.data.keyList.length then (.error ("金鑰數量不可超過 " ++ toString maxKeys ++ " 把"), s)
      else if s.data.keyList.any fun current => env.letters.equalFold current.name name then (.error "金鑰名稱不可重複", s)
      else
        let updated := cloneData s.data
        let updated := { updated with keys := some (updated.keyList ++ [record]) }
        match s.persist updated fault with
        | (some err, s) => (.error err, s)
        | (none, s) => (.ok ⟨publicKey record, secret⟩, s)

def KeyStore.revokeKey (s : KeyStore) (id : String) (fault : Option String) : Except String Unit × KeyStore :=
  let id := trimSpace id
  let updated := cloneData s.data
  let keys := updated.keyList.filter fun key => key.id ≠ id
  if id = "" then (.error "金鑰 ID 不可為空", s)
  else if ¬ updated.keyList.any fun key => key.id = id then (.error "找不到指定的金鑰", s)
  else if updated.policy.apiKeyEnabled ∧ keys = [] then (.error "金鑰驗證啟用中，不可撤銷最後一把金鑰", s)
  else match s.persist { updated with keys := some keys } fault with
    | (some err, s) => (.error err, s)
    | (none, s) => (.ok (), s)

/-! ## Decisions -/

def KeyStore.authorizeKey (s : KeyStore) (secret : String) : Bool :=
  let secret := trimSpace secret
  if ¬ s.data.policy.apiKeyEnabled then true
  else if ¬ hasPrefix secret "olk_" then false
  else
    let digest := env.sha256 secret
    s.data.keyList.any fun key =>
      match hexDecode key.hash with
      | none => false
      | some expected => expected.length = 32 && digest = expected

/-- The host of `net.SplitHostPort`, when there is no error. -/
def splitHost (address : List Char) : Option (List Char) :=
  if ':' ∉ address then none
  else
    let host := (address.rdropWhile (· ≠ ':')).dropLast
    if address.head? = some '[' then
      let inner := address.takeWhile (· ≠ ']')
      if host ≠ inner ++ [']'] then none
      else if '[' ∈ address.drop 1 ∨ ']' ∈ address.drop host.length then none
      else some (inner.drop 1)
    else if ':' ∈ host then none
    else if '[' ∈ address ∨ ']' ∈ address then none
    else some host

def remoteIP (remoteAddress : String) : Option String :=
  let host := trimSpace remoteAddress
  let host := ((splitHost host.toList).map String.ofList).getD host
  let host := trim host ['[', ']']
  let host := if '%' ∈ host.toList then String.ofList (host.toList.rdropWhile (· ≠ '%')).dropLast else host
  env.parseIP host

/-- The regular expression in which `.*` stands for each star. -/
def matchStars : List Char → List Char → Bool
  | [], text => text.isEmpty
  | c :: pattern, text =>
    if c = '*' then
      (List.range (text.length + 1)).any fun n => !(text.take n).contains '\n' && matchStars pattern (text.drop n)
    else match text with
      | [] => false
      | d :: rest => c = d && matchStars pattern rest

def matchIPPattern (value pattern : String) : Bool :=
  if pattern = "*" then true
  else if contains pattern "/" then env.networkContains pattern value
  else if ¬ contains pattern "*" then value = pattern
  else matchStars pattern.toList (Go.toLower value).toList

def KeyStore.allowsRemote (s : KeyStore) (remoteAddress : String) : Bool :=
  let policy := s.data.policy.value
  if ¬ policy.ipAllowlistEnabled then true
  else match remoteIP env remoteAddress with
    | none => false
    | some value => policy.ipAllowlist.any (matchIPPattern env value)

/-! ## Calls -/

inductive AccessCall where
  | updatePolicy (value : Policy) (fault : Option String)
  | issueKey (name : String) (fresh : Fresh) (fault : Option String)
  | revokeKey (id : String) (fault : Option String)

def errorOf {α : Type} : Except String α → Option String
  | .error err => some err
  | .ok _ => none

/-- The error of the call, and the store after it. -/
def KeyStore.apply (s : KeyStore) : AccessCall → Option String × KeyStore
  | .updatePolicy value fault => (s.updatePolicy env value fault).map errorOf id
  | .issueKey name fresh fault => (s.issueKey env name fresh fault).map errorOf id
  | .revokeKey id fault => (s.revokeKey id fault).map errorOf fun s => s

/-- `IssueKey` stores a key under the name. -/
structure KeyStore.Accepts (s : KeyStore) (name : String) (fresh : Fresh) (fault : Option String) : Prop where
  nonempty : trimSpace name ≠ ""
  short : (trimSpace name).length ≤ 80
  plain : containsAny (trimSpace name) "\x0d\n\x00" = false
  secret : ∃ bytes, fresh.secretBytes = .ok bytes
  identified : ∃ bytes, fresh.idBytes = .ok bytes
  room : s.data.keyList.length < maxKeys
  unfolded : ∀ key ∈ s.data.keyList, env.letters.equalFold key.name (trimSpace name) = false
  written : fault = none

/-- What a call that succeeds writes. -/
inductive KeyStore.Writes (s : KeyStore) : AccessCall → FileData → Prop
  | policy {value policy : Policy} (hpolicy : normalizePolicy env.toAccessEnv value = .ok policy)
      (hsecured : policy.apiKeyEnabled = true → s.data.keyList ≠ []) :
      Writes s (.updatePolicy value none) { cloneData s.data with policy := policy.made }
  | key {name : String} {fresh : Fresh} {secretBytes idBytes : List UInt8} (haccepts : s.Accepts env name fresh none)
      (hsecret : fresh.secretBytes = .ok secretBytes) (hid : fresh.idBytes = .ok idBytes) :
      Writes s (.issueKey name fresh none) { cloneData s.data with
        keys := some (s.data.keyList ++ [(newKey env.toAccessEnv (trimSpace name) secretBytes idBytes fresh.now).1]) }
  | revoked {id : String}
      (hsecured : s.data.policy.apiKeyEnabled = true → s.data.keyList.filter (fun key => key.id ≠ trimSpace id) ≠ []) :
      Writes s (.revokeKey id none) { cloneData s.data with
        keys := some (s.data.keyList.filter fun key => key.id ≠ trimSpace id) }

variable {env} {s : KeyStore} {fault : Option String}

@[simp] theorem getD_cloned {α : Type} (values : Option (List α)) : (cloned values).getD [] = values.getD [] := by
  rw [cloned]
  split
  · rename_i hempty
    rw [List.isEmpty_iff.1 hempty, Option.getD_none]
  · rfl

@[simp] theorem value_clonePolicy (policy : FilePolicy) : (clonePolicy policy).value = policy.value := by
  rw [FilePolicy.value, FilePolicy.value, clonePolicy, getD_cloned]

@[simp] theorem value_made (policy : Policy) : policy.made.value = policy := rfl

@[simp] theorem keyList_cloneData (data : FileData) : (cloneData data).keyList = data.keyList := getD_cloned data.keys

@[simp] theorem store_cloneData (data : FileData) : (cloneData data).store = data.store := by
  rw [FileData.store, FileData.store, keyList_cloneData, cloneData, value_clonePolicy]

theorem updatePolicy_writes (env : AccessFileEnv) (s : KeyStore) (value : Policy) (fault : Option String) :
    (∃ err, s.updatePolicy env value fault = (.error err, s)) ∨
    ∃ data view, s.updatePolicy env value fault = (.ok view, s.write data) ∧ s.Writes env (.updatePolicy value fault) data := by
  unfold KeyStore.updatePolicy
  cases hpolicy : normalizePolicy env.toAccessEnv value with
  | error err => exact .inl ⟨err, rfl⟩
  | ok policy =>
    simp only
    by_cases hkeys : policy.apiKeyEnabled = true ∧ s.data.keyList = []
    · rw [if_pos hkeys]
      exact .inl ⟨_, rfl⟩
    · rw [if_neg hkeys]
      cases fault with
      | some err => exact .inl ⟨err, rfl⟩
      | none => exact .inr ⟨_, _, rfl, .policy hpolicy fun henabled hnone => hkeys ⟨henabled, hnone⟩⟩

/-- A key is stored exactly when the name and the store let it. -/
theorem issueKey_writes (env : AccessFileEnv) (s : KeyStore) (name : String) (fresh : Fresh) (fault : Option String) :
    (¬ s.Accepts env name fresh fault ∧ ∃ err, s.issueKey env name fresh fault = (.error err, s)) ∨
    ∃ data issued, s.issueKey env name fresh fault = (.ok issued, s.write data) ∧
      s.Writes env (.issueKey name fresh fault) data := by
  simp only [KeyStore.issueKey]
  by_cases hname : (trimSpace name = "" || 80 < (trimSpace name).length || containsAny (trimSpace name) "\x0d\n\x00") = true
  · rw [if_pos hname]
    refine .inl ⟨fun haccepts => ?_, _, rfl⟩
    rw [haccepts.plain, Bool.or_false, Bool.or_eq_true, decide_eq_true_eq, decide_eq_true_eq] at hname
    exact hname.elim haccepts.nonempty (Nat.not_lt.2 haccepts.short)
  rw [if_neg hname]
  rw [Bool.or_eq_true, Bool.or_eq_true, decide_eq_true_eq, decide_eq_true_eq, not_or, not_or, Bool.not_eq_true,
    Nat.not_lt] at hname
  obtain ⟨⟨hnonempty, hshort⟩, hplain⟩ := hname
  cases hsecret : fresh.secretBytes with
  | error err =>
    refine .inl ⟨fun haccepts => ?_, _, rfl⟩
    obtain ⟨bytes, hbytes⟩ := haccepts.secret
    cases hsecret.symm.trans hbytes
  | ok secretBytes =>
    cases hid : fresh.idBytes with
    | error err =>
      refine .inl ⟨fun haccepts => ?_, _, rfl⟩
      obtain ⟨bytes, hbytes⟩ := haccepts.identified
      cases hid.symm.trans hbytes
    | ok idBytes =>
      simp only
      by_cases hroom : maxKeys ≤ s.data.keyList.length
      · rw [if_pos hroom]
        exact .inl ⟨fun haccepts => Nat.not_lt.2 hroom haccepts.room, _, rfl⟩
      rw [if_neg hroom]
      by_cases hfold : (s.data.keyList.any fun current => env.letters.equalFold current.name (trimSpace name)) = true
      · rw [if_pos hfold]
        obtain ⟨key, hkey, hfold⟩ := List.any_eq_true.1 hfold
        exact .inl ⟨fun haccepts => Bool.false_ne_true ((haccepts.unfolded key hkey).symm.trans hfold), _, rfl⟩
      rw [if_neg hfold]
      cases fault with
      | some err => exact .inl ⟨fun haccepts => Option.some_ne_none _ haccepts.written, err, rfl⟩
      | none =>
        have haccepts : s.Accepts env name fresh none :=
          { nonempty := hnonempty
            short := hshort
            plain := hplain
            secret := ⟨secretBytes, hsecret⟩
            identified := ⟨idBytes, hid⟩
            room := Nat.not_le.1 hroom
            unfolded := fun key hkey => Bool.eq_false_iff.2 fun hkeyfold => hfold (List.any_eq_true.2 ⟨key, hkey, hkeyfold⟩)
            written := rfl }
        refine .inr ⟨_, _, rfl, ?_⟩
        rw [keyList_cloneData]
        exact .key haccepts hsecret hid

theorem revokeKey_writes (env : AccessFileEnv) (s : KeyStore) (id : String) (fault : Option String) :
    (∃ err, s.revokeKey id fault = (.error err, s)) ∨
    ∃ data, s.revokeKey id fault = (.ok (), s.write data) ∧ s.Writes env (.revokeKey id fault) data := by
  simp only [KeyStore.revokeKey, keyList_cloneData]
  split
  · exact .inl ⟨_, rfl⟩
  split
  · exact .inl ⟨_, rfl⟩
  split
  · exact .inl ⟨_, rfl⟩
  · rename_i hlast
    cases fault with
    | some err => exact .inl ⟨err, rfl⟩
    | none => exact .inr ⟨_, rfl, .revoked fun henabled hnone => hlast ⟨henabled, hnone⟩⟩

/-- A call fails and leaves everything as it was, or it writes and keeps what it wrote. -/
theorem apply_writes (env : AccessFileEnv) (s : KeyStore) (call : AccessCall) :
    ((∃ err, s.apply env call = (some err, s)) ∧
      ∀ name fresh fault, call = .issueKey name fresh fault → ¬ s.Accepts env name fresh fault) ∨
    ∃ data, s.apply env call = (none, s.write data) ∧ s.Writes env call data := by
  cases call with
  | updatePolicy value fault =>
    rcases updatePolicy_writes env s value fault with ⟨err, heq⟩ | ⟨data, view, heq, hwrites⟩
    · refine .inl ⟨⟨err, by rw [KeyStore.apply, heq]; rfl⟩, fun _ _ _ hcall => ?_⟩
      cases hcall
    · exact .inr ⟨data, by rw [KeyStore.apply, heq]; rfl, hwrites⟩
  | issueKey name fresh fault =>
    rcases issueKey_writes env s name fresh fault with ⟨hrefused, err, heq⟩ | ⟨data, issued, heq, hwrites⟩
    · refine .inl ⟨⟨err, by rw [KeyStore.apply, heq]; rfl⟩, fun _ _ _ hcall => ?_⟩
      cases hcall
      exact hrefused
    · exact .inr ⟨data, by rw [KeyStore.apply, heq]; rfl, hwrites⟩
  | revokeKey id fault =>
    rcases revokeKey_writes env s id fault with ⟨err, heq⟩ | ⟨data, heq, hwrites⟩
    · refine .inl ⟨⟨err, by rw [KeyStore.apply, heq]; rfl⟩, fun _ _ _ hcall => ?_⟩
      cases hcall
    · exact .inr ⟨data, by rw [KeyStore.apply, heq]; rfl, hwrites⟩

theorem apply_failed {call : AccessCall} {err : String} {s' : KeyStore} (h : s.apply env call = (some err, s')) : s' = s := by
  rcases apply_writes env s call with ⟨⟨err', heq⟩, -⟩ | ⟨data, heq, -⟩
  · rw [heq] at h
    exact (Prod.ext_iff.1 h).2.symm
  · rw [heq] at h
    cases (Prod.ext_iff.1 h).1

/-- A text of one line matches when each star can be replaced with some text. -/
theorem matchStars_iff {pattern text : List Char} (hline : '\n' ∉ text) :
    matchStars pattern text = true ↔ Glob '*' pattern text := by
  induction pattern generalizing text with
  | nil => rw [matchStars, Glob.nil_iff, List.isEmpty_iff]
  | cons c pattern ih =>
    unfold matchStars
    by_cases hc : c = '*'
    · rw [if_pos hc, hc, Glob.star_iff, List.any_eq_true]
      constructor
      · rintro ⟨n, -, hmatch⟩
        rw [Bool.and_eq_true] at hmatch
        have hrest : '\n' ∉ text.drop n := fun hmem => hline (List.mem_of_mem_drop hmem)
        exact ⟨text.take n, text.drop n, (List.take_append_drop n text).symm, (ih hrest).1 hmatch.2⟩
      · rintro ⟨skipped, rest, rfl, hglob⟩
        rw [List.mem_append, not_or] at hline
        have hlength : skipped.length ∈ List.range ((skipped ++ rest).length + 1) := by
          rw [List.mem_range, List.length_append]
          omega
        refine ⟨skipped.length, hlength, ?_⟩
        rw [List.take_left, List.drop_left, (ih hline.2).2 hglob, Bool.and_true]
        simpa using hline.1
    · rw [if_neg hc, Glob.char_iff hc]
      cases text with
      | nil => simp
      | cons d rest =>
        rw [List.mem_cons, not_or] at hline
        rw [Bool.and_eq_true, decide_eq_true_eq, ih hline.2]
        constructor
        · rintro ⟨rfl, hglob⟩
          exact ⟨rest, rfl, hglob⟩
        · rintro ⟨rest', heq, hglob⟩
          cases heq
          exact ⟨rfl, hglob⟩

/-! ## The store without its file -/

theorem updatePolicy_store (s : KeyStore) (value : Policy) (fault : Option String) :
    (s.updatePolicy env value fault).map id (fun s => s.data.store) =
      s.data.store.updatePolicy env.toAccessEnv value fault := by
  unfold KeyStore.updatePolicy AccessStore.updatePolicy
  cases normalizePolicy env.toAccessEnv value with
  | error err => rfl
  | ok policy =>
    simp only
    have hkeys : s.data.store.keys = s.data.keyList := rfl
    rw [hkeys]
    by_cases hnone : policy.apiKeyEnabled = true ∧ s.data.keyList = []
    · rw [if_pos hnone, if_pos hnone]
      rfl
    · rw [if_neg hnone, if_neg hnone]
      have hstore : ({ cloneData s.data with policy := policy.made } : FileData).store = { s.data.store with policy } := by
        rw [FileData.store, FileData.keyList, cloneData, getD_cloned]
        rfl
      cases fault with
      | some err => rfl
      | none => exact Prod.ext (congrArg Except.ok (congrArg AccessStore.publicView hstore)) hstore

theorem issueKey_store (hfold : ∀ a b, env.letters.equalFold a b = Go.equalFold a b) (s : KeyStore) (name : String)
    (fresh : Fresh) (fault : Option String) :
    (s.issueKey env name fresh fault).map id (fun s => s.data.store) =
      s.data.store.issueKey env.toAccessEnv name fresh fault := by
  simp only [KeyStore.issueKey, AccessStore.issueKey, hfold, keyList_cloneData]
  have hkeys : s.data.store.keys = s.data.keyList := rfl
  rw [hkeys]
  split
  · rfl
  cases fresh.secretBytes with
  | error err => rfl
  | ok secretBytes =>
    cases fresh.idBytes with
    | error err => rfl
    | ok idBytes =>
      simp only
      split
      · rfl
      split
      · rfl
      cases fault with
      | some err => rfl
      | none =>
        refine Prod.ext rfl ?_
        change AccessStore.mk (clonePolicy s.data.policy).value _ = AccessStore.mk s.data.policy.value _
        rw [value_clonePolicy]
        rfl

theorem revokeKey_store (s : KeyStore) (id : String) (fault : Option String) :
    (s.revokeKey id fault).map (fun result => result) (fun s => s.data.store) = s.data.store.revokeKey id fault := by
  simp only [KeyStore.revokeKey, AccessStore.revokeKey, keyList_cloneData]
  have hkeys : s.data.store.keys = s.data.keyList := rfl
  have henabled : (cloneData s.data).policy.apiKeyEnabled = s.data.store.policy.apiKeyEnabled := rfl
  rw [hkeys, henabled]
  split
  · rfl
  split
  · rfl
  split
  · rfl
  cases fault with
  | some err => rfl
  | none =>
    refine Prod.ext rfl ?_
    change AccessStore.mk (clonePolicy s.data.policy).value _ = AccessStore.mk s.data.policy.value _
    rw [value_clonePolicy]
    rfl

end

end Tanpopo.NetPass
