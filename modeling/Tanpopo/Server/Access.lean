import Tanpopo.Server.Wildcard
/-!
# Access to the runtime

`authorize` decides each request by the policy file it read last, and reads the
file again once ten seconds have passed.
-/

namespace Tanpopo.Server.Access

/-! ## Texts and addresses -/

/-- A string, as its characters. -/
abbrev Text := List String

/-- What Foundation, CryptoKit and Darwin do for the runtime. -/
structure Platform where
  trimmed : Text → Text
  lowercased : Text → Text
  utf8 : Text → List UInt8
  /-- `inet_pton`, in network order. -/
  ipv4 : Text → Option (Vector UInt8 4)
  ipv6 : Text → Option (Vector UInt8 16)
  sha256 : List UInt8 → Vector UInt8 32

inductive ParsedIPAddress where
  | ipv4 (bytes : Vector UInt8 4)
  | ipv6 (bytes : Vector UInt8 16)
  deriving DecidableEq

namespace ParsedIPAddress

def bytes : ParsedIPAddress → List UInt8
  | .ipv4 bytes => bytes.toList
  | .ipv6 bytes => bytes.toList

def bitCount (a : ParsedIPAddress) : Nat := a.bytes.length * 8

def hasSameFamily : ParsedIPAddress → ParsedIPAddress → Bool
  | .ipv4 _, .ipv4 _ | .ipv6 _, .ipv6 _ => true
  | _, _ => false

end ParsedIPAddress

inductive IPRule where
  | any
  | exact (address : ParsedIPAddress)
  | network (address : ParsedIPAddress) (length : Nat) (h : length ≤ address.bitCount)
  | wildcard (bytes : List UInt8)
  deriving DecidableEq

def digit? (character : String) : Option Nat :=
  match character.toList with
  | [c] => if '0' ≤ c ∧ c ≤ '9' then some (c.toNat - 48) else none
  | _ => none

def hexDigit? (character : String) : Option Nat :=
  match character.toList with
  | [c] =>
    if '0' ≤ c ∧ c ≤ '9' then some (c.toNat - 48)
    else if 'a' ≤ c ∧ c ≤ 'f' then some (c.toNat - 87)
    else if 'A' ≤ c ∧ c ≤ 'F' then some (c.toNat - 55)
    else none
  | _ => none

def decimal? : Text → Option Nat
  | [] => none
  | text => text.foldlM (fun n character => (digit? character).map (10 * n + ·)) 0

/-- `Int(text)` -/
def parseInteger (text : Text) : Option Int :=
  let value : Option Int := match text with
    | "-" :: digits => (decimal? digits).map fun n => -Int.ofNat n
    | "+" :: digits => (decimal? digits).map Int.ofNat
    | digits => (decimal? digits).map Int.ofNat
  value.filter fun n => -9223372036854775808 ≤ n ∧ n < 9223372036854775808

/-- `UInt8(text, radix: 16)` of two characters, the first of which may be a sign. -/
def hexByte (first second : String) : Option UInt8 := do
  let low ← hexDigit? second
  match hexDigit? first with
  | some high => some (UInt8.ofNat (16 * high + low))
  | none =>
    if first = "+" then some (UInt8.ofNat low)
    else if first = "-" ∧ low = 0 then some 0
    else none

def hexBytes : Text → Option (List UInt8)
  | [] => some []
  | [_] => none
  | first :: second :: rest => do return (← hexByte first second) :: (← hexBytes rest)

section
variable (p : Platform)

def decodeHex (value : Text) : Option (List UInt8) := hexBytes (p.lowercased value)

def addressWithoutZone (raw : Text) : Text :=
  let value := p.trimmed raw
  let value := if value.head? = some "[" ∧ value.getLast? = some "]" then value.tail.dropLast else value
  if "%" ∈ value then (value.reverse.dropWhile (· ≠ "%")).tail.reverse else value

def parseIPAddress (raw : Text) : Option ParsedIPAddress :=
  let value := addressWithoutZone p raw
  match p.ipv4 value with
  | some bytes => some (.ipv4 bytes)
  | none => (p.ipv6 value).map fun bytes =>
    if bytes.toList.take 10 = List.replicate 10 (0 : UInt8) ∧ (bytes[10] : UInt8) = 0xff ∧ (bytes[11] : UInt8) = 0xff then
      .ipv4 #v[bytes[12], bytes[13], bytes[14], bytes[15]]
    else .ipv6 bytes

def isWildcardByte (b : UInt8) : Bool :=
  (48 ≤ b && b ≤ 57) || (65 ≤ b && b ≤ 70) || (97 ≤ b && b ≤ 102) || b = 58 || b = 46 || b = 42

def parseIPRule (pattern : Text) : Option IPRule :=
  if pattern = [] then none
  else if pattern = ["*"] then some .any
  else if "/" ∈ pattern then
    match pattern.splitOn "/" with
    | [first, second] => do
      let address ← parseIPAddress p first
      let length ← parseInteger second
      if h : 0 ≤ length ∧ length.toNat ≤ address.bitCount then some (.network address length.toNat h.2) else none
    | _ => none
  else if "*" ∈ pattern then
    let bytes := p.utf8 pattern
    if bytes.length ≤ 128 ∧ bytes.all isWildcardByte then some (.wildcard bytes) else none
  else (parseIPAddress p pattern).map .exact

/-! ## The policy -/

structure AccessPolicy where
  apiKeyEnabled : Bool
  ipAllowlistEnabled : Bool
  ipAllowlist : Option (List Text)

structure PolicyFile where
  version : Int
  policy : AccessPolicy
  /-- The hashes of the stored keys. -/
  keys : Option (List Text)

structure Snapshot where
  apiKeyEnabled : Bool
  ipAllowlistEnabled : Bool
  ipAllowlist : List IPRule
  keyHashes : List (Vector UInt8 32)
  deriving DecidableEq

def invalidSnapshot (message : String) : String := "Tanpopo 安全策略無效：" ++ message

def storedHash (value : Text) : Except String (Vector UInt8 32) :=
  match decodeHex p value with
  | some bytes => if h : bytes.length = 32 then .ok ⟨bytes.toArray, h⟩ else .error (invalidSnapshot "金鑰雜湊格式錯誤")
  | none => .error (invalidSnapshot "金鑰雜湊格式錯誤")

def storedRule (raw : Text) : Except String IPRule :=
  match parseIPRule p (p.lowercased (p.trimmed raw)) with
  | some rule => .ok rule
  | none => .error (invalidSnapshot "IP 白名單格式錯誤")

/-- What `refreshIfNeeded` makes of a file. -/
def readSnapshot (file : Except String PolicyFile) : Except String Snapshot := do
  let decoded ← file
  let storedKeys := decoded.keys.getD []
  let rawPatterns := decoded.policy.ipAllowlist.getD []
  if decoded.version ≠ 1 then .error (invalidSnapshot "不支援的策略版本")
  else if 100 < storedKeys.length ∨ 256 < rawPatterns.length then .error (invalidSnapshot "策略項目數量超過限制")
  else
    let hashes ← storedKeys.mapM (storedHash p)
    let rules ← rawPatterns.mapM (storedRule p)
    if decoded.policy.apiKeyEnabled ∧ hashes = [] then .error (invalidSnapshot "已啟用金鑰驗證，但沒有金鑰")
    else if decoded.policy.ipAllowlistEnabled ∧ rawPatterns = [] then
      .error (invalidSnapshot "已啟用 IP 白名單，但沒有項目")
    else return ⟨decoded.policy.apiKeyEnabled, decoded.policy.ipAllowlistEnabled, rules, hashes⟩

/-! ## Requests -/

def differences (candidate expected : Vector UInt8 32) : UInt8 :=
  (candidate.toList.zip expected.toList).foldl (fun difference pair => difference ||| (pair.1 ^^^ pair.2)) 0

def isKeyAllowed (key : Option Text) (hashes : List (Vector UInt8 32)) : Bool :=
  match key with
  | none | some [] => false
  | some key => hashes.foldl (fun matched expected => matched || differences (p.sha256 (p.utf8 key)) expected = 0) false

/-- `none` where an index is out of range. -/
def matchesCIDR (remote network : ParsedIPAddress) (length : Nat) : Option Bool :=
  if ¬ remote.hasSameFamily network then some false
  else if remote.bytes.take (length / 8) ≠ network.bytes.take (length / 8) then some false
  else if length % 8 = 0 then some true
  else do
    let mask : UInt8 := 0xff <<< UInt8.ofNat (8 - length % 8)
    return (← remote.bytes[length / 8]?) &&& mask = (← network.bytes[length / 8]?) &&& mask

def comparable (remoteAddress : Text) : List UInt8 := p.utf8 (p.lowercased (addressWithoutZone p remoteAddress))

/-- Whether one rule is met. -/
def meets (fuel : Nat) (remoteAddress : Text) (remote : ParsedIPAddress) : IPRule → Option Bool
  | .any => some true
  | .network network length _ => matchesCIDR remote network length
  | .wildcard bytes => wildcardMatch fuel (comparable p remoteAddress) bytes
  | .exact exact => some (remote.hasSameFamily exact && remote.bytes == exact.bytes)

def anyMeets (fuel : Nat) (remoteAddress : Text) (remote : ParsedIPAddress) : List IPRule → Option Bool
  | [] => some false
  | rule :: rules => do
    if ← meets p fuel remoteAddress remote rule then return true
    else anyMeets fuel remoteAddress remote rules

def isIPAllowed (fuel : Nat) (remoteAddress : Option Text) (patterns : List IPRule) : Option Bool :=
  match remoteAddress with
  | none => some false
  | some remoteAddress =>
    match parseIPAddress p remoteAddress with
    | none => some false
    | some remote => anyMeets p fuel remoteAddress remote patterns

inductive RuntimeAccessDecision where
  | allowed
  | invalidAPIKey
  | ipNotAllowed
  | policyUnavailable
  deriving DecidableEq

/-- A request, and the clock and the file at the moment it is decided. -/
structure AccessRequest where
  now : Int
  file : Except String PolicyFile
  remoteAddress : Option Text
  apiKey : Option Text
  validateAPIKey : Bool

structure RuntimeAccessControl where
  path : Option Text
  snapshot : Option Snapshot
  /-- `none` for the distant past. -/
  nextRefresh : Option Int
  lastError : String

def RuntimeAccessControl.init (path : Option Text) : RuntimeAccessControl :=
  ⟨(path.map p.trimmed).filter (· ≠ []), none, none, ""⟩

def tenSeconds : Int := 10000000000

def RuntimeAccessControl.refreshIfNeeded (c : RuntimeAccessControl) (r : AccessRequest) : RuntimeAccessControl :=
  if c.nextRefresh.all (· ≤ r.now) then
    match readSnapshot p r.file with
    | .ok snapshot => ⟨c.path, some snapshot, some (r.now + tenSeconds), ""⟩
    | .error err => ⟨c.path, none, some (r.now + tenSeconds), err⟩
  else c

def decision (fuel : Nat) (snapshot : Option Snapshot) (r : AccessRequest) : Option RuntimeAccessDecision :=
  match snapshot with
  | none => some .policyUnavailable
  | some snapshot => do
    if snapshot.ipAllowlistEnabled then
      if !(← isIPAllowed p fuel r.remoteAddress snapshot.ipAllowlist) then return .ipNotAllowed
    if r.validateAPIKey && snapshot.apiKeyEnabled && !isKeyAllowed p r.apiKey snapshot.keyHashes then return .invalidAPIKey
    return .allowed

def RuntimeAccessControl.authorize (fuel : Nat) (c : RuntimeAccessControl) (r : AccessRequest) :
    Option (RuntimeAccessControl × RuntimeAccessDecision) :=
  match c.path with
  | none => some (c, .allowed)
  | some _ =>
    let c := c.refreshIfNeeded p r
    (decision p fuel c.snapshot r).map (c, ·)

end
end Tanpopo.Server.Access
