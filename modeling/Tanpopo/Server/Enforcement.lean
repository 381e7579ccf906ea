import Mathlib.Data.List.Pairwise
import Tanpopo.Lib.FirstBits
import Tanpopo.Lib.Go
import Tanpopo.Lib.Runs
import Tanpopo.Server.Access
/-!
# The policy of the file is the one that is enforced

- `Snapshot.Allows`: what a policy allows, said of keys and addresses.
- `PolicyFile.Gives`: which snapshot a file gives, if it gives one.
- `policy_enforced`: every request is decided by a file less than ten seconds
  old, and none is let in without one.
-/

namespace Tanpopo.Server.Access

open FirstBits Looping

section
variable {p : Platform}

/-! ## Keys -/

theorem foldl_differences {pairs : List (UInt8 × UInt8)} {difference : UInt8} :
    pairs.foldl (fun difference pair => difference ||| (pair.1 ^^^ pair.2)) difference = 0 ↔
      difference = 0 ∧ ∀ pair ∈ pairs, pair.1 = pair.2 := by
  induction pairs generalizing difference with
  | nil => simp
  | cons pair pairs ih => simp [ih, and_assoc]

theorem eq_of_zip {a b : List UInt8} (hlength : a.length = b.length) (h : ∀ pair ∈ a.zip b, pair.1 = pair.2) : a = b := by
  induction a generalizing b with
  | nil => exact (List.length_eq_zero_iff.1 hlength.symm).symm
  | cons x a ih =>
    obtain ⟨y, b, rfl⟩ := List.exists_cons_of_length_pos (by rw [← hlength]; simp : 0 < b.length)
    rw [List.zip_cons_cons] at h
    have hxy : x = y := h (x, y) List.mem_cons_self
    rw [hxy, ih (by simpa using hlength) fun pair hpair => h pair (List.mem_cons_of_mem _ hpair)]

/-- No difference is left only between equal hashes. -/
theorem differences_eq_zero {a b : Vector UInt8 32} : differences a b = 0 ↔ a = b := by
  rw [differences, foldl_differences]
  constructor
  · rintro ⟨-, h⟩
    exact Vector.toList_inj.1 (eq_of_zip (by simp) h)
  · rintro rfl
    refine ⟨rfl, fun pair hpair => ?_⟩
    obtain ⟨i, hi, rfl⟩ := List.mem_iff_getElem.1 hpair
    rw [List.getElem_zip]

theorem foldl_or {α : Type} (f : α → Bool) (l : List α) (b : Bool) : l.foldl (fun b a => b || f a) b = (b || l.any f) := by
  induction l generalizing b with
  | nil => simp
  | cons a l ih => rw [List.foldl_cons, ih, List.any_cons, Bool.or_assoc]

theorem isKeyAllowed_iff {key : Option Text} {hashes : List (Vector UInt8 32)} :
    isKeyAllowed p key hashes = true ↔ ∃ text, key = some text ∧ text ≠ [] ∧ p.sha256 (p.utf8 text) ∈ hashes := by
  have hfold : ∀ text : Text, hashes.foldl (fun matched expected =>
      matched || decide (differences (p.sha256 (p.utf8 text)) expected = 0)) false = true ↔
        p.sha256 (p.utf8 text) ∈ hashes := by
    intro text
    rw [foldl_or, Bool.false_or, List.any_eq_true]
    constructor
    · rintro ⟨expected, hmem, h⟩
      rw [differences_eq_zero.1 (of_decide_eq_true h)]
      exact hmem
    · exact fun hmem => ⟨_, hmem, decide_eq_true (differences_eq_zero.2 rfl)⟩
  cases key with
  | none => simp [isKeyAllowed]
  | some text =>
    cases text with
    | nil => simp [isKeyAllowed]
    | cons character text =>
      rw [isKeyAllowed, hfold]
      · simp
      · simp

/-! ## Addresses -/

/-- What `inet_pton` accepts has no star. -/
def Platform.Lawful (p : Platform) : Prop :=
  ∀ text, (p.ipv4 text).isSome = true ∨ (p.ipv6 text).isSome = true → (42 : UInt8) ∉ p.utf8 (p.lowercased text)

/-- Which addresses a rule is about. -/
def IPRule.Covers (p : Platform) (remoteAddress : Text) (remote : ParsedIPAddress) : IPRule → Prop
  | .any => True
  | .exact address => remote = address
  | .network address length _ =>
    remote.hasSameFamily address = true ∧ (bits remote.bytes).take length = (bits address.bytes).take length
  | .wildcard bytes => Glob 42 bytes (comparable p remoteAddress)

theorem not_star_comparable (hp : p.Lawful) {text : Text} {remote : ParsedIPAddress} (h : parseIPAddress p text = some remote) :
    (42 : UInt8) ∉ comparable p text := by
  refine hp (addressWithoutZone p text) ?_
  simp only [parseIPAddress] at h
  cases hv4 : p.ipv4 (addressWithoutZone p text) with
  | some bytes => exact .inl rfl
  | none =>
    rw [hv4] at h
    obtain ⟨bytes, hv6, -⟩ := Option.map_eq_some_iff.1 h
    rw [hv6]
    exact .inr rfl

theorem exact_iff {remote address : ParsedIPAddress} :
    (remote.hasSameFamily address && remote.bytes == address.bytes) = true ↔ remote = address := by
  cases remote with
  | ipv4 bytes =>
    cases address with
    | ipv4 bytes' => simp [ParsedIPAddress.hasSameFamily, ParsedIPAddress.bytes]
    | ipv6 bytes' => simp [ParsedIPAddress.hasSameFamily]
  | ipv6 bytes =>
    cases address with
    | ipv4 bytes' => simp [ParsedIPAddress.hasSameFamily]
    | ipv6 bytes' => simp [ParsedIPAddress.hasSameFamily, ParsedIPAddress.bytes]

theorem length_of_same_family {a b : ParsedIPAddress} (h : a.hasSameFamily b = true) : a.bytes.length = b.bytes.length := by
  cases a with
  | ipv4 bytes =>
    cases b with
    | ipv4 bytes' => simp [ParsedIPAddress.bytes]
    | ipv6 bytes' => simp [ParsedIPAddress.hasSameFamily] at h
  | ipv6 bytes =>
    cases b with
    | ipv4 bytes' => simp [ParsedIPAddress.hasSameFamily] at h
    | ipv6 bytes' => simp [ParsedIPAddress.bytes]

/-- No index is out of range, and the first bits are compared. -/
theorem matchesCIDR_spec (remote : ParsedIPAddress) {network : ParsedIPAddress} {length : ℕ} (hle : length ≤ network.bitCount) :
    ∃ result, matchesCIDR remote network length = some result ∧
      (result = true ↔ remote.hasSameFamily network = true ∧
        (bits remote.bytes).take length = (bits network.bytes).take length) := by
  by_cases hfamily : remote.hasSameFamily network = true
  · have hlength := length_of_same_family hfamily
    rw [ParsedIPAddress.bitCount] at hle
    have htake := take_bits_iff hlength (show length ≤ 8 * remote.bytes.length by omega)
    simp only [matchesCIDR, hfamily, not_true_eq_false, if_false, true_and, htake]
    by_cases hwhole : remote.bytes.take (length / 8) = network.bytes.take (length / 8)
    · rw [if_neg (by simpa using hwhole)]
      by_cases hrest : length % 8 = 0
      · rw [if_pos hrest]
        exact ⟨true, rfl, by simp [hwhole, hrest]⟩
      · rw [if_neg hrest]
        have hlt : length / 8 < network.bytes.length := by omega
        rw [List.getElem?_eq_getElem hlt, List.getElem?_eq_getElem (hlength ▸ hlt)]
        exact ⟨_, rfl, by simp [hwhole, hrest, firstBits]⟩
    · rw [if_pos (by simpa using hwhole)]
      exact ⟨false, rfl, by simp [hwhole]⟩
  · refine ⟨false, ?_, by simp [hfamily]⟩
    rw [matchesCIDR, if_pos hfamily]

section
variable {remoteAddress : Text} {remote : ParsedIPAddress}

theorem meets_spec (hp : p.Lawful) (hremote : parseIPAddress p remoteAddress = some remote) (rule : IPRule) :
    ∃ result, Eventually (fun fuel => meets p fuel remoteAddress remote rule) result ∧
      (result = true ↔ rule.Covers p remoteAddress remote) := by
  cases rule with
  | any => exact ⟨true, .const true, by simp [IPRule.Covers]⟩
  | exact address => exact ⟨_, .const _, exact_iff⟩
  | network address length h =>
    obtain ⟨result, hresult, hiff⟩ := matchesCIDR_spec remote h
    exact ⟨result, ⟨0, fun _ _ => hresult⟩, hiff⟩
  | wildcard pattern =>
    have hstar := not_star_comparable hp hremote
    obtain ⟨result, hiff, hreturns⟩ := Looping.exists_returns (smaller_wf (comparable p remoteAddress) pattern)
      (fun s hs => turn_searching hstar hs.1 hs.2) ⟨placed_start, searching_start _ pattern⟩
    exact ⟨result, hreturns, hiff⟩

theorem anyMeets_cons (fuel : ℕ) (rule : IPRule) (rules : List IPRule) :
    anyMeets p fuel remoteAddress remote (rule :: rules) =
      (meets p fuel remoteAddress remote rule).bind fun met =>
        if met = true then some true else anyMeets p fuel remoteAddress remote rules := rfl

theorem anyMeets_spec (hp : p.Lawful) (hremote : parseIPAddress p remoteAddress = some remote) (rules : List IPRule) :
    ∃ result, Eventually (fun fuel => anyMeets p fuel remoteAddress remote rules) result ∧
      (result = true ↔ ∃ rule ∈ rules, rule.Covers p remoteAddress remote) := by
  induction rules with
  | nil => exact ⟨false, .const false, by simp⟩
  | cons rule rules ih =>
    obtain ⟨first, hfirst, hcovers⟩ := meets_spec hp hremote rule
    obtain ⟨later, hlater, hany⟩ := ih
    simp only [anyMeets_cons]
    cases first with
    | true => exact ⟨true, hfirst.bind (by simpa using Eventually.const true), by simp [hcovers.1 rfl]⟩
    | false =>
      have hnot : ¬ rule.Covers p remoteAddress remote := fun h => by cases hcovers.2 h
      exact ⟨later, hfirst.bind (by simpa using hlater), by simp [hnot, hany]⟩

end

theorem isIPAllowed_spec (hp : p.Lawful) (remoteAddress : Option Text) (patterns : List IPRule) :
    ∃ result, Eventually (fun fuel => isIPAllowed p fuel remoteAddress patterns) result ∧
      (result = true ↔ ∃ address remote, remoteAddress = some address ∧ parseIPAddress p address = some remote ∧
        ∃ rule ∈ patterns, rule.Covers p address remote) := by
  cases remoteAddress with
  | none => exact ⟨false, .const false, by simp⟩
  | some address =>
    cases hremote : parseIPAddress p address with
    | none =>
      refine ⟨false, ⟨0, fun _ _ => ?_⟩, by simp [hremote]⟩
      simp only [isIPAllowed, hremote]
    | some remote =>
      obtain ⟨result, heventually, hiff⟩ := anyMeets_spec hp hremote patterns
      refine ⟨result, ?_, ?_⟩
      · simpa only [isIPAllowed, hremote] using heventually
      · rw [hiff]
        simp [hremote]

/-! ## One request -/

/-- What a snapshot allows. -/
def Snapshot.Allows (p : Platform) (s : Snapshot) (r : AccessRequest) : Prop :=
  (s.ipAllowlistEnabled = true → ∃ address remote, r.remoteAddress = some address ∧ parseIPAddress p address = some remote ∧
    ∃ rule ∈ s.ipAllowlist, rule.Covers p address remote) ∧
  (r.validateAPIKey = true → s.apiKeyEnabled = true →
    ∃ key, r.apiKey = some key ∧ key ≠ [] ∧ p.sha256 (p.utf8 key) ∈ s.keyHashes)

theorem decision_none (r : AccessRequest) : Eventually (fun fuel => decision p fuel none r) .policyUnavailable := .const _

theorem decision_some (fuel : ℕ) (s : Snapshot) (r : AccessRequest) :
    decision p fuel (some s) r =
      (if s.ipAllowlistEnabled = true then isIPAllowed p fuel r.remoteAddress s.ipAllowlist else some true).bind fun allowed =>
        some (if allowed = false then .ipNotAllowed
          else if r.validateAPIKey && s.apiKeyEnabled && !isKeyAllowed p r.apiKey s.keyHashes then .invalidAPIKey
          else .allowed) := by
  simp only [decision]
  cases s.ipAllowlistEnabled with
  | false =>
    simp only [Bool.false_eq_true, if_false, Option.bind_some]
    split <;> rfl
  | true =>
    simp only [if_true]
    cases isIPAllowed p fuel r.remoteAddress s.ipAllowlist with
    | none => rfl
    | some allowed =>
      cases allowed with
      | false => rfl
      | true =>
        simp only [Option.bind_some]
        split <;> rfl

theorem decision_spec (hp : p.Lawful) (s : Snapshot) (r : AccessRequest) :
    ∃ d, Eventually (fun fuel => decision p fuel (some s) r) d ∧ d ≠ .policyUnavailable ∧ (d = .allowed ↔ s.Allows p r) := by
  simp only [decision_some]
  have hkeys : (r.validateAPIKey && s.apiKeyEnabled && !isKeyAllowed p r.apiKey s.keyHashes) = false ↔
      (r.validateAPIKey = true → s.apiKeyEnabled = true →
        ∃ key, r.apiKey = some key ∧ key ≠ [] ∧ p.sha256 (p.utf8 key) ∈ s.keyHashes) := by
    rw [← isKeyAllowed_iff]
    cases r.validateAPIKey <;> cases s.apiKeyEnabled <;> simp
  obtain ⟨result, heventually, hiff⟩ := isIPAllowed_spec hp r.remoteAddress s.ipAllowlist
  have hallowed : ∃ allowed, Eventually (fun fuel =>
      if s.ipAllowlistEnabled = true then isIPAllowed p fuel r.remoteAddress s.ipAllowlist else some true) allowed ∧
      (allowed = true ↔ (s.ipAllowlistEnabled = true → ∃ address remote, r.remoteAddress = some address ∧
        parseIPAddress p address = some remote ∧ ∃ rule ∈ s.ipAllowlist, rule.Covers p address remote)) := by
    by_cases henabled : s.ipAllowlistEnabled = true
    · exact ⟨result, by simpa only [henabled, if_true] using heventually, by simpa only [henabled, true_imp_iff] using hiff⟩
    · exact ⟨true, ⟨0, fun _ _ => if_neg henabled⟩, by simp [henabled]⟩
  obtain ⟨allowed, hanswer, hcovered⟩ := hallowed
  refine ⟨_, hanswer.bind (.const _), ?_, ?_⟩
  · split
    · simp
    · split
      · simp
      · simp
  · rw [Snapshot.Allows, ← hcovered, ← hkeys]
    cases allowed with
    | false => simp
    | true =>
      simp only [Bool.true_eq_false, if_false, true_and]
      split
      next h => simp [h]
      next h => simp [h]

/-! ## The file -/

/-- What a file gives. -/
structure PolicyFile.Gives (p : Platform) (f : PolicyFile) (s : Snapshot) : Prop where
  version : f.version = 1
  sizes : (f.keys.getD []).length ≤ 100 ∧ (f.policy.ipAllowlist.getD []).length ≤ 256
  keys : (f.keys.getD []).map (decodeHex p) = s.keyHashes.map fun hash => some hash.toList
  rules : (f.policy.ipAllowlist.getD []).map (fun raw => parseIPRule p (p.lowercased (p.trimmed raw))) = s.ipAllowlist.map some
  flags : s.apiKeyEnabled = f.policy.apiKeyEnabled ∧ s.ipAllowlistEnabled = f.policy.ipAllowlistEnabled
  someKey : s.apiKeyEnabled = true → s.keyHashes ≠ []
  someRule : s.ipAllowlistEnabled = true → s.ipAllowlist ≠ []

theorem storedHash_iff {value : Text} {hash : Vector UInt8 32} :
    storedHash p value = .ok hash ↔ decodeHex p value = some hash.toList := by
  rw [storedHash]
  cases decodeHex p value with
  | none => simp
  | some bytes =>
    simp only [Option.some.injEq]
    split
    next h =>
      rw [Except.ok.injEq]
      constructor
      · rintro rfl
        rfl
      · rintro rfl
        exact Vector.toList_inj.1 (by simp)
    next h =>
      constructor
      · intro heq
        cases heq
      · rintro rfl
        simp at h

theorem storedRule_iff {raw : Text} {rule : IPRule} :
    storedRule p raw = .ok rule ↔ parseIPRule p (p.lowercased (p.trimmed raw)) = some rule := by
  rw [storedRule]
  cases parseIPRule p (p.lowercased (p.trimmed raw)) with
  | none => simp
  | some rule' => simp

theorem mapM_eq_ok_iff {α β γ : Type} {f : α → Except String β} {g : α → Option γ} {h : β → γ}
    (hf : ∀ a b, f a = .ok b ↔ g a = some (h b)) {l : List α} {l' : List β} :
    l.mapM f = .ok l' ↔ l.map g = l'.map fun b => some (h b) := by
  induction l generalizing l' with
  | nil =>
    cases l' with
    | nil => simp [pure, Except.pure]
    | cons b l' => simp [pure, Except.pure]
  | cons a l ih =>
    rw [List.mapM_cons]
    constructor
    · intro hok
      obtain ⟨b, hb, hok⟩ := Go.bind_ok_inv hok
      obtain ⟨rest, hrest, hok⟩ := Go.bind_ok_inv hok
      cases hok
      rw [List.map_cons, List.map_cons, (hf a b).1 hb, ih.1 hrest]
    · intro hmap
      cases l' with
      | nil => simp at hmap
      | cons b l' =>
        rw [List.map_cons, List.map_cons, List.cons.injEq] at hmap
        rw [(hf a b).2 hmap.1, ih.2 hmap.2]
        rfl

theorem readSnapshot_iff {file : Except String PolicyFile} {s : Snapshot} :
    readSnapshot p file = .ok s ↔ ∃ f, file = .ok f ∧ f.Gives p s := by
  constructor
  · intro hread
    rw [readSnapshot] at hread
    obtain ⟨f, rfl, h⟩ := Go.bind_ok_inv hread
    simp only at h
    split at h
    · cases h
    next hversion =>
      split at h
      · cases h
      next hsizes =>
        obtain ⟨hashes, hhashes, hrest⟩ := Go.bind_ok_inv h
        obtain ⟨rules, hrules, hresult⟩ := Go.bind_ok_inv hrest
        split at hresult
        · cases hresult
        next hkeys =>
          split at hresult
          · cases hresult
          next hlist =>
            cases hresult
            have hmap := (mapM_eq_ok_iff fun _ _ => storedRule_iff).1 hrules
            refine ⟨f, rfl, ⟨by simpa using hversion, by omega, (mapM_eq_ok_iff fun _ _ => storedHash_iff).1 hhashes, hmap,
              ⟨rfl, rfl⟩, fun henabled hnil => hkeys ⟨henabled, hnil⟩, fun henabled hnil => hlist ⟨henabled, ?_⟩⟩⟩
            have hnil' : rules = [] := hnil
            rw [hnil'] at hmap
            exact List.map_eq_nil_iff.1 hmap
  · rintro ⟨f, rfl, hgives⟩
    have hhashes := (mapM_eq_ok_iff (fun _ _ => storedHash_iff)).2 hgives.keys
    have hrules := (mapM_eq_ok_iff (fun _ _ => storedRule_iff)).2 hgives.rules
    have hraw : f.policy.ipAllowlistEnabled = true → f.policy.ipAllowlist.getD [] ≠ [] := by
      intro henabled hnil
      have hmap := hgives.rules
      rw [hnil, List.map_nil] at hmap
      exact hgives.someRule (hgives.flags.2.trans henabled) (List.map_eq_nil_iff.1 hmap.symm)
    have hkeys : f.policy.apiKeyEnabled = true → s.keyHashes ≠ [] := fun henabled =>
      hgives.someKey (hgives.flags.1.trans henabled)
    have hsizes := hgives.sizes
    simp only [readSnapshot]
    change (if f.version ≠ 1 then _ else _) = _
    rw [if_neg (by simp [hgives.version])]
    rw [if_neg (by omega), hhashes]
    change (List.mapM (storedRule p) (f.policy.ipAllowlist.getD []) >>= _) = _
    rw [hrules]
    change (if f.policy.apiKeyEnabled = true ∧ s.keyHashes = [] then _ else _) = _
    rw [if_neg fun h => hkeys h.1 h.2]
    rw [if_neg fun h => hraw h.1 h.2]
    obtain ⟨flag, flag', rules, hashes⟩ := s
    obtain ⟨hflag, hflag'⟩ := hgives.flags
    simp only at hflag hflag'
    rw [hflag, hflag']
    rfl

/-! ## Runs -/

/-- A request is decided. -/
def Decides (p : Platform) (c : RuntimeAccessControl) (e : AccessRequest × RuntimeAccessDecision)
    (c' : RuntimeAccessControl) : Prop :=
  Eventually (fun fuel => c.authorize p fuel e.1) (c', e.2)

theorem decides_iff {c c' : RuntimeAccessControl} {r : AccessRequest} {d : RuntimeAccessDecision}
    (hpath : c.path.isSome = true) :
    Decides p c (r, d) c' ↔ c' = c.refreshIfNeeded p r ∧ Eventually (fun fuel => decision p fuel c'.snapshot r) d := by
  obtain ⟨path, hsome⟩ := Option.isSome_iff_exists.1 hpath
  simp only [Decides, Eventually, RuntimeAccessControl.authorize, hsome, Option.map_eq_some_iff, Prod.mk.injEq]
  constructor
  · rintro ⟨turns, hturns⟩
    obtain ⟨-, -, rfl, -⟩ := hturns turns le_rfl
    refine ⟨rfl, turns, fun fuel hfuel => ?_⟩
    obtain ⟨d', hd', -, rfl⟩ := hturns fuel hfuel
    exact hd'
  · rintro ⟨rfl, turns, hturns⟩
    exact ⟨turns, fun fuel hfuel => ⟨d, hturns fuel hfuel, rfl, rfl⟩⟩

/-- What is in force was read at one of the requests. -/
structure RuntimeAccessControl.Since (p : Platform) (past : List AccessRequest) (c : RuntimeAccessControl) : Prop where
  path : c.path.isSome = true
  read : c.nextRefresh = none ∨
    ∃ r ∈ past, c.nextRefresh = some (r.now + tenSeconds) ∧ c.snapshot = (readSnapshot p r.file).toOption

theorem path_refreshIfNeeded (c : RuntimeAccessControl) (r : AccessRequest) : (c.refreshIfNeeded p r).path = c.path := by
  rw [RuntimeAccessControl.refreshIfNeeded]
  split
  · split
    · rfl
    · rfl
  · rfl

theorem refreshed (c : RuntimeAccessControl) (r : AccessRequest) :
    c.refreshIfNeeded p r = c ∧ (∃ next, c.nextRefresh = some next ∧ r.now < next) ∨
      (c.refreshIfNeeded p r).nextRefresh = some (r.now + tenSeconds) ∧
        (c.refreshIfNeeded p r).snapshot = (readSnapshot p r.file).toOption := by
  rw [RuntimeAccessControl.refreshIfNeeded]
  split
  · right
    cases readSnapshot p r.file with
    | ok snapshot => exact ⟨rfl, rfl⟩
    | error err => exact ⟨rfl, rfl⟩
  next hlate =>
    left
    refine ⟨rfl, ?_⟩
    cases hnext : c.nextRefresh with
    | none => simp [hnext] at hlate
    | some next => exact ⟨next, rfl, by simpa [hnext] using hlate⟩

theorem RuntimeAccessControl.Since.step {past : List AccessRequest} {c : RuntimeAccessControl} (h : c.Since p past)
    (r : AccessRequest) : (c.refreshIfNeeded p r).Since p (past ++ [r]) := by
  refine ⟨by rw [path_refreshIfNeeded, h.path], ?_⟩
  obtain ⟨hsame, -⟩ | ⟨hnext, hsnapshot⟩ := refreshed (p := p) c r
  · rw [hsame]
    obtain hnone | ⟨r₀, hr₀, hread⟩ := h.read
    · exact .inl hnone
    · exact .inr ⟨r₀, List.mem_append_left _ hr₀, hread⟩
  · exact .inr ⟨r, by simp, hnext, hsnapshot⟩

theorem RuntimeAccessControl.Since.run {events : List (AccessRequest × RuntimeAccessDecision)} {past : List AccessRequest}
    {c c' : RuntimeAccessControl} (hrun : Run (Decides p) c events c') (h : c.Since p past) :
    c'.Since p (past ++ events.map Prod.fst) := by
  induction hrun generalizing past with
  | nil => simpa using h
  | cons hstep _ ih =>
    rename_i e events _
    obtain ⟨rfl, -⟩ := (decides_iff h.path).1 hstep
    simpa using ih (h.step e.1)

/-- What is in force at a request was read at it, or less than ten seconds before it. -/
theorem RuntimeAccessControl.Since.in_force {past : List AccessRequest} {c : RuntimeAccessControl} (h : c.Since p past)
    {r : AccessRequest} (hclock : ∀ r₀ ∈ past, r₀.now ≤ r.now) :
    ∃ r₀ ∈ past ++ [r], r₀.now ≤ r.now ∧ r.now < r₀.now + tenSeconds ∧
      (c.refreshIfNeeded p r).snapshot = (readSnapshot p r₀.file).toOption := by
  obtain ⟨hsame, next, hnext, hlt⟩ | ⟨-, hsnapshot⟩ := refreshed (p := p) c r
  · -- the last snapshot is still in force
    obtain hnone | ⟨r₀, hr₀, hnext', hsnapshot⟩ := h.read
    · rw [hnext] at hnone
      cases hnone
    · refine ⟨r₀, List.mem_append_left _ hr₀, hclock r₀ hr₀, ?_, by rw [hsame, hsnapshot]⟩
      rw [hnext] at hnext'
      cases hnext'
      exact hlt
  · refine ⟨r, by simp, le_refl _, ?_, hsnapshot⟩
    rw [tenSeconds]
    omega

/-- A decision by a snapshot, said of the file that was read. -/
theorem decided_iff (hp : p.Lawful) {file : Except String PolicyFile} {r : AccessRequest} {d : RuntimeAccessDecision}
    (h : Eventually (fun fuel => decision p fuel (readSnapshot p file).toOption r) d) :
    (d = .allowed ↔ ∃ f s, file = .ok f ∧ f.Gives p s ∧ s.Allows p r) ∧
      (d = .policyUnavailable ↔ ¬ ∃ f s, file = .ok f ∧ f.Gives p s) := by
  cases hfile : readSnapshot p file with
  | ok s =>
    rw [hfile] at h
    obtain ⟨f, hf, hgives⟩ := readSnapshot_iff.1 hfile
    obtain ⟨d', hd', hne, hiff⟩ := decision_spec hp s r
    obtain rfl := h.unique hd'
    refine ⟨hiff.trans ⟨fun h => ⟨f, s, hf, hgives, h⟩, ?_⟩, fun h => absurd h hne, fun h => absurd ⟨f, s, hf, hgives⟩ h⟩
    rintro ⟨f', s', hf', hgives', h⟩
    have hsame := readSnapshot_iff.2 ⟨f', hf', hgives'⟩
    rw [hfile] at hsame
    cases hsame
    exact h
  | error err =>
    rw [hfile] at h
    obtain rfl := h.unique (decision_none r)
    have hnot : ∀ f s, file = .ok f → ¬ f.Gives p s := by
      intro f s hf hgives
      have hread := readSnapshot_iff.2 ⟨f, hf, hgives⟩
      rw [hfile] at hread
      cases hread
    constructor
    · constructor
      · intro h
        cases h
      · rintro ⟨f, s, hf, hgives, -⟩
        exact absurd hgives (hnot f s hf)
    · constructor
      · rintro - ⟨f, s, hf, hgives⟩
        exact hnot f s hf hgives
      · exact fun _ => rfl

theorem exists_decides (hp : p.Lawful) {c : RuntimeAccessControl} (hpath : c.path.isSome = true) (r : AccessRequest) :
    ∃ d c', Decides p c (r, d) c' := by
  cases hsnapshot : (c.refreshIfNeeded p r).snapshot with
  | none => exact ⟨_, _, (decides_iff hpath).2 ⟨rfl, hsnapshot ▸ decision_none r⟩⟩
  | some s =>
    obtain ⟨d, hd, -⟩ := decision_spec hp s r
    exact ⟨d, _, (decides_iff hpath).2 ⟨rfl, hsnapshot ▸ hd⟩⟩

/-- Every request is decided, by the policy that the file held at this request or at one less than ten seconds before it: it
is allowed exactly when that file is a policy that allows it. -/
theorem policy_enforced (hp : p.Lawful) {path : Text} (hpath : p.trimmed path ≠ [])
    {events : List (AccessRequest × RuntimeAccessDecision)} {c : RuntimeAccessControl}
    (hrun : Run (Decides p) (.init p (some path)) events c) (hclock : (events.map fun e => e.1.now).Pairwise (· ≤ ·)) :
    (∀ r, ∃ d c', Decides p c (r, d) c') ∧ ∀ before r d after, events = before ++ (r, d) :: after →
      ∃ r₀ ∈ before.map Prod.fst ++ [r], r₀.now ≤ r.now ∧ r.now < r₀.now + tenSeconds ∧
        (d = .allowed ↔ ∃ f s, r₀.file = .ok f ∧ f.Gives p s ∧ s.Allows p r) ∧
        (d = .policyUnavailable ↔ ¬ ∃ f s, r₀.file = .ok f ∧ f.Gives p s) := by
  have hstart : (RuntimeAccessControl.init p (some path)).Since p [] :=
    ⟨by simp [RuntimeAccessControl.init, hpath], .inl rfl⟩
  refine ⟨exists_decides hp (hstart.run hrun).path, ?_⟩
  rintro before r d after rfl
  obtain ⟨mid, hbefore, hafter⟩ := hrun.split (n := before.length)
  rw [List.take_left] at hbefore
  rw [List.drop_left] at hafter
  cases hafter with
  | cons hstep _ =>
    have hsince : mid.Since p (before.map Prod.fst) := hstart.run hbefore
    obtain ⟨rfl, hdecision⟩ := (decides_iff hsince.path).1 hstep
    have hearlier : ∀ r₀ ∈ before.map Prod.fst, r₀.now ≤ r.now := by
      intro r₀ hr₀
      obtain ⟨e, he, rfl⟩ := List.mem_map.1 hr₀
      rw [List.map_append, List.pairwise_append] at hclock
      exact hclock.2.2 _ (List.mem_map_of_mem he) _ (by simp)
    obtain ⟨r₀, hr₀, hle, hlt, hsnapshot⟩ := hsince.in_force hearlier
    rw [hsnapshot] at hdecision
    exact ⟨r₀, hr₀, hle, hlt, decided_iff hp hdecision⟩

end

/-! ## A key that is revoked -/

def characters (text : String) : Text := text.toList.map fun c => String.ofList [c]

/-- Enough of a platform for one address and one key. -/
def samplePlatform : Platform where
  trimmed text := ((text.dropWhile (· = " ")).reverse.dropWhile (· = " ")).reverse
  lowercased text := text
  utf8 text := text.flatMap fun character => character.toList.map fun c => UInt8.ofNat c.toNat
  ipv4 text :=
    if text = characters "10.0.0.7" then some #v[10, 0, 0, 7]
    else if text = characters "10.0.0.0" then some #v[10, 0, 0, 0]
    else none
  ipv6 _ := none
  sha256 bytes :=
    if bytes = [97, 98, 99] then
      #v[0xba, 0x78, 0x16, 0xbf, 0x8f, 0x01, 0xcf, 0xea, 0x41, 0x41, 0x40, 0xde, 0x5d, 0xae, 0x22, 0x23,
        0xb0, 0x03, 0x61, 0xa3, 0x96, 0x17, 0x7a, 0x9c, 0xb4, 0x10, 0xff, 0x61, 0xf2, 0x00, 0x15, 0xad]
    else Vector.replicate 32 0

theorem samplePlatform_lawful : samplePlatform.Lawful := by
  have hplain : (42 : UInt8) ∉ samplePlatform.utf8 (characters "10.0.0.7") ∧
      (42 : UInt8) ∉ samplePlatform.utf8 (characters "10.0.0.0") := by decide +kernel
  intro text h
  change (42 : UInt8) ∉ samplePlatform.utf8 text
  by_cases hfirst : text = characters "10.0.0.7"
  · rw [hfirst]
    exact hplain.1
  · by_cases hsecond : text = characters "10.0.0.0"
    · rw [hsecond]
      exact hplain.2
    · simp [samplePlatform, hfirst, hsecond] at h

def sampleFile (hashes : List Text) : PolicyFile := ⟨1, ⟨true, true, some [characters " 10.0.0.0/8"]⟩, some hashes⟩

def sampleHash : Text := characters "ba7816bf8f01cfea414140de5dae2223b00361a396177a9cb410ff61f20015ad"

def otherHash : Text := characters "0000000000000000000000000000000000000000000000000000000000000001"

def sampleRequest (now : Int) (hashes : List Text) : AccessRequest :=
  ⟨now, .ok (sampleFile hashes), some (characters "10.0.0.7"), some (characters "abc"), true⟩

/-- The key is gone from the file at the second request. -/
def sampleRequests : List (AccessRequest × RuntimeAccessDecision) :=
  [(sampleRequest 0 [sampleHash], .allowed), (sampleRequest 9000000000 [otherHash], .allowed),
    (sampleRequest 10000000000 [otherHash], .invalidAPIKey)]

def sampleRule : IPRule := .network (.ipv4 #v[10, 0, 0, 0]) 8 (by decide)

theorem sample_address : parseIPAddress samplePlatform (characters "10.0.0.7") = some (.ipv4 #v[10, 0, 0, 7]) := by
  decide +kernel

theorem sample_meets (fuel : ℕ) :
    anyMeets samplePlatform fuel (characters "10.0.0.7") (.ipv4 #v[10, 0, 0, 7]) [sampleRule] = some true := by
  rw [anyMeets_cons]
  have hcidr : matchesCIDR (.ipv4 #v[10, 0, 0, 7]) (.ipv4 #v[10, 0, 0, 0]) 8 = some true := by decide +kernel
  change (matchesCIDR (.ipv4 #v[10, 0, 0, 7]) (.ipv4 #v[10, 0, 0, 0]) 8).bind _ = some true
  rw [hcidr]
  rfl

theorem sample_decision {now : Int} {hashes : List Text} {s : Snapshot} {d : RuntimeAccessDecision}
    (hflags : s.ipAllowlistEnabled = true ∧ s.apiKeyEnabled = true) (hrules : s.ipAllowlist = [sampleRule])
    (hkey : d = if isKeyAllowed samplePlatform (some (characters "abc")) s.keyHashes then .allowed else .invalidAPIKey) :
    Eventually (fun fuel => decision samplePlatform fuel (some s) (sampleRequest now hashes)) d := by
  refine ⟨0, fun fuel _ => ?_⟩
  change decision samplePlatform fuel (some s) (sampleRequest now hashes) = some d
  rw [decision_some, if_pos hflags.1, hrules]
  have hallowed : isIPAllowed samplePlatform fuel (sampleRequest now hashes).remoteAddress [sampleRule] = some true := by
    change isIPAllowed samplePlatform fuel (some (characters "10.0.0.7")) [sampleRule] = some true
    simp only [isIPAllowed, sample_address, sample_meets]
  rw [hallowed, hkey, hflags.2]
  change some _ = some _
  simp only [sampleRequest, Bool.true_eq_false, if_false, Bool.and_true, Bool.true_and, Bool.not_eq_true']
  cases isKeyAllowed samplePlatform (some (characters "abc")) s.keyHashes with
  | false => rfl
  | true => rfl

def sampleSnapshot (hash : Vector UInt8 32) : Snapshot := ⟨true, true, [sampleRule], [hash]⟩

theorem sample_read :
    readSnapshot samplePlatform (.ok (sampleFile [sampleHash])) =
      .ok (sampleSnapshot (samplePlatform.sha256 [97, 98, 99])) ∧
    readSnapshot samplePlatform (.ok (sampleFile [otherHash])) = .ok (sampleSnapshot ((Vector.replicate 32 0).set 31 1)) := by
  decide +kernel

def sampleState (hash : Vector UInt8 32) (nextRefresh : Int) : RuntimeAccessControl :=
  ⟨some ["p"], some (sampleSnapshot hash), some nextRefresh, ""⟩

theorem sample_requests_run : ∃ c, Run (Decides samplePlatform) (.init samplePlatform (some ["p"])) sampleRequests c := by
  obtain ⟨hfirst, hlater⟩ := sample_read
  have hkeys : isKeyAllowed samplePlatform (some (characters "abc")) [samplePlatform.sha256 [97, 98, 99]] = true ∧
      isKeyAllowed samplePlatform (some (characters "abc")) [(Vector.replicate 32 0).set 31 1] = false := by decide +kernel
  have hallowed : ∀ now hashes next, Eventually (fun fuel => decision samplePlatform fuel
      (sampleState (samplePlatform.sha256 [97, 98, 99]) next).snapshot (sampleRequest now hashes)) .allowed :=
    fun now hashes next => sample_decision ⟨rfl, rfl⟩ rfl (if_pos hkeys.1).symm
  have hread : Decides samplePlatform (.init samplePlatform (some ["p"])) (sampleRequest 0 [sampleHash], .allowed)
      (sampleState (samplePlatform.sha256 [97, 98, 99]) tenSeconds) := by
    refine (decides_iff rfl).2 ⟨?_, hallowed _ _ _⟩
    have hinit : RuntimeAccessControl.init samplePlatform (some ["p"]) = ⟨some ["p"], none, none, ""⟩ := rfl
    simp [RuntimeAccessControl.refreshIfNeeded, hinit, sampleRequest, hfirst, sampleState]
  have hkept : Decides samplePlatform (sampleState (samplePlatform.sha256 [97, 98, 99]) tenSeconds)
      (sampleRequest 9000000000 [otherHash], .allowed) (sampleState (samplePlatform.sha256 [97, 98, 99]) tenSeconds) := by
    refine (decides_iff rfl).2 ⟨?_, hallowed _ _ _⟩
    simp [RuntimeAccessControl.refreshIfNeeded, sampleRequest, sampleState, tenSeconds]
  have hrefused : Decides samplePlatform (sampleState (samplePlatform.sha256 [97, 98, 99]) tenSeconds)
      (sampleRequest 10000000000 [otherHash], .invalidAPIKey)
      (sampleState ((Vector.replicate 32 0).set 31 1) (10000000000 + tenSeconds)) := by
    refine (decides_iff rfl).2 ⟨?_, sample_decision ⟨rfl, rfl⟩ rfl (if_neg (by rw [sampleSnapshot, hkeys.2]; simp)).symm⟩
    simp [RuntimeAccessControl.refreshIfNeeded, sampleRequest, sampleState, tenSeconds, hlater]
  exact ⟨_, .cons hread (.cons hkept (.cons hrefused .nil))⟩

theorem revoked_key_refused : ∃ r₀ ∈ [sampleRequest 0 [sampleHash], sampleRequest 9000000000 [otherHash]] ++
      [sampleRequest 10000000000 [otherHash]], r₀.now ≤ 10000000000 ∧ 10000000000 < r₀.now + tenSeconds ∧
    ¬ ∃ f s, r₀.file = .ok f ∧ f.Gives samplePlatform s ∧ s.Allows samplePlatform (sampleRequest 10000000000 [otherHash]) := by
  obtain ⟨c, hrun⟩ := sample_requests_run
  obtain ⟨-, hdecided⟩ := policy_enforced samplePlatform_lawful (by decide) hrun (by simp [sampleRequests, sampleRequest])
  obtain ⟨r₀, hr₀, hle, hlt, hallowed, -⟩ := hdecided [(sampleRequest 0 [sampleHash], .allowed),
    (sampleRequest 9000000000 [otherHash], .allowed)] (sampleRequest 10000000000 [otherHash]) .invalidAPIKey [] rfl
  exact ⟨r₀, hr₀, hle, hlt, fun h => by cases hallowed.2 h⟩

end Tanpopo.Server.Access
