import Tanpopo.NetPass.AccessFile
import Tanpopo.Lib.Runs
import Mathlib
/-!
# Opening the access-control store again

- `sound_iff`: the store is sound all along a run exactly when no stored name meets, in lower case, a stored name
  that it differs from under case folding.
-/

namespace Tanpopo.NetPass

open Go

/-! ## Patterns -/

/-- The characters of the text of an address. -/
def addressChars : List Char := "0123456789abcdef.:".toList

/-- What the hash and the `net` package promise: an address and a network are
written with few characters, and their text is read as itself. -/
structure AccessFileEnv.Lawful (env : AccessFileEnv) : Prop where
  sha256_length : ∀ text, (env.sha256 text).length = 32
  loopback : env.parseIP defaultLoopbackIP = some defaultLoopbackIP
  parseIP_chars : ∀ text ip, env.parseIP text = some ip → ip ≠ "" ∧ ∀ c ∈ ip.toList, c ∈ addressChars
  parseIP_self : ∀ text ip, env.parseIP text = some ip → env.parseIP ip = some ip
  parseCIDR_chars : ∀ text network, env.parseCIDR text = some network →
    '/' ∈ network.toList ∧ ∀ c ∈ network.toList, c = '/' ∨ c ∈ addressChars
  parseCIDR_self : ∀ text network, env.parseCIDR text = some network → env.parseCIDR network = some network

/-- The letters of `Go.toLower` and `Go.equalFold`. -/
def goLetters : Letters where
  lower c := if c = '\u212A' then 'k' else if c = '\u0130' then 'i' else c.toLower
  fold c := if c = '\u212A' then 'k' else if c = '\u017F' then 's' else c.toLower

theorem isUpper_lower (c : Char) : (goLetters.lower c).isUpper = false := by
  simp only [goLetters]
  split
  · decide
  split
  · decide
  · exact Char.isUpper_toLower_eq_false c

theorem toLower_eq_self {text : String} (h : ∀ c ∈ text.toList, goLetters.lower c = c) : Go.toLower text = text := by
  refine String.toList_injective ?_
  rw [Go.toLower, String.toList_ofList]
  exact (List.map_congr_left h).trans (List.map_id _)

theorem contains_iff_mem {text part : String} {c : Char} (hpart : part.toList = [c]) :
    contains text part = true ↔ c ∈ text.toList := by
  rw [contains, hpart]
  induction text.toList with
  | nil => simp
  | cons d rest ih =>
    rw [List.tails_cons, List.any_cons, Bool.or_eq_true, ih, List.mem_cons]
    simp

theorem contains_slash_iff (text : String) : contains text "/" = true ↔ '/' ∈ text.toList := contains_iff_mem rfl

theorem contains_star_iff (text : String) : contains text "*" = true ↔ '*' ∈ text.toList := contains_iff_mem rfl

theorem trim_eq_self {text : String} {cutset : List Char} (h : ∀ c ∈ text.toList, c ∉ cutset) : trim text cutset = text := by
  have hdrop : text.toList.dropWhile cutset.contains = text.toList := by
    refine List.dropWhile_eq_self_iff.2 fun hlength => ?_
    simpa using h _ (List.getElem_mem hlength)
  have hrdrop : text.toList.rdropWhile cutset.contains = text.toList := by
    refine List.rdropWhile_eq_self_iff.2 fun hne => ?_
    simpa using h _ (List.getLast_mem hne)
  rw [trim, hdrop, hrdrop, String.ofList_toList]

theorem addressChars_plain : ∀ c ∈ addressChars,
    isSpace c = false ∧ goLetters.lower c = c ∧ c ≠ '*' ∧ c ≠ '/' ∧ c ∉ ['[', ']'] := by
  have hall : addressChars.all (fun c =>
      isSpace c = false ∧ goLetters.lower c = c ∧ c ≠ '*' ∧ c ≠ '/' ∧ c ∉ ['[', ']']) = true := by decide +kernel
  exact fun c hc => of_decide_eq_true (List.all_eq_true.1 hall c hc)

theorem wildcardChars : ∀ c ∈ "0123456789ABCDEFabcdef:.*".toList, c.isUpper = false → c = '*' ∨ c ∈ addressChars := by
  have hall : "0123456789ABCDEFabcdef:.*".toList.all (fun c => c.isUpper = false → c = '*' ∨ c ∈ addressChars) = true := by
    decide +kernel
  exact fun c hc => of_decide_eq_true (List.all_eq_true.1 hall c hc)

/-- A text of few characters is trimmed and in lower case. -/
theorem toLower_trimSpace_self {text : String} (h : ∀ c ∈ text.toList, c = '*' ∨ c = '/' ∨ c ∈ addressChars) :
    Go.toLower (trimSpace text) = text := by
  have hchars : ∀ c ∈ text.toList, isSpace c = false ∧ goLetters.lower c = c := by
    intro c hc
    rcases h c hc with rfl | rfl | hc
    · decide +kernel
    · decide +kernel
    · exact ⟨(addressChars_plain c hc).1, (addressChars_plain c hc).2.1⟩
  rw [trimSpace_eq_self fun c hc => (hchars c hc).1, toLower_eq_self fun c hc => (hchars c hc).2]

variable {env : AccessFileEnv}

/-- What a pattern is normalised to is normal. -/
theorem normalizeIPPattern_self (hlaw : env.Lawful) {raw pattern : String}
    (h : normalizeIPPattern env.toAccessEnv raw = .ok pattern) : normalizeIPPattern env.toAccessEnv pattern = .ok pattern := by
  rw [normalizeIPPattern] at h
  generalize hvalue : Go.toLower (trimSpace raw) = value at h
  by_cases hempty : value = ""
  · rw [if_pos hempty] at h
    cases h
    have hself : Go.toLower (trimSpace "") = "" := by decide +kernel
    rw [normalizeIPPattern, hself, if_pos rfl]
  rw [if_neg hempty] at h
  by_cases hstar : value = "*"
  · rw [if_pos hstar] at h
    cases h
    have hself : Go.toLower (trimSpace "*") = "*" := by decide +kernel
    rw [hstar, normalizeIPPattern, hself, if_neg (show "*" ≠ "" by decide), if_pos rfl]
  rw [if_neg hstar] at h
  by_cases hslash : contains value "/" = true
  · -- A network: its text has the slash and no star.
    rw [if_pos hslash] at h
    cases hnetwork : env.parseCIDR value with
    | none =>
      rw [hnetwork] at h
      cases h
    | some network =>
      rw [hnetwork] at h
      cases h
      obtain ⟨hmem, hchars⟩ := hlaw.parseCIDR_chars _ _ hnetwork
      have hself : Go.toLower (trimSpace pattern) = pattern := toLower_trimSpace_self fun c hc => .inr (hchars c hc)
      have hnonempty : pattern ≠ "" := by
        rintro rfl
        cases hmem
      have hnostar : pattern ≠ "*" := by
        rintro rfl
        revert hmem
        decide +kernel
      rw [normalizeIPPattern, hself]
      simp only [if_neg hnonempty, if_neg hnostar, if_pos ((contains_slash_iff _).2 hmem), hlaw.parseCIDR_self _ _ hnetwork]
  rw [if_neg hslash] at h
  by_cases hwild : contains value "*" = true
  · -- A wildcard is what it was.
    rw [if_pos hwild] at h
    split at h
    · cases h
    · rename_i hformat
      cases h
      rw [Bool.or_eq_true, not_or, Bool.not_eq_true, Bool.not_eq_true, Bool.not_eq_false'] at hformat
      obtain ⟨hsize, hpattern⟩ := hformat
      have hchars : ∀ c ∈ pattern.toList, c = '*' ∨ c = '/' ∨ c ∈ addressChars := by
        intro c hc
        rw [isWildcardPattern, Bool.and_eq_true, List.all_eq_true] at hpattern
        have hclass := hpattern.2 c hc
        rw [List.contains_iff_mem] at hclass
        rw [← hvalue, Go.toLower, String.toList_ofList] at hc
        obtain ⟨c, -, rfl⟩ := List.mem_map.1 hc
        exact (wildcardChars _ hclass (isUpper_lower c)).imp_right .inr
      rw [normalizeIPPattern, toLower_trimSpace_self hchars]
      simp only [if_neg hempty, if_neg hstar, if_neg hslash, if_pos hwild, hsize, hpattern, Bool.not_true, Bool.or_self,
        Bool.false_eq_true, if_false]
  rw [if_neg hwild] at h
  cases hip : env.parseIP (trim value ['[', ']']) with
  | none =>
    rw [hip] at h
    cases h
  | some ip =>
    rw [hip] at h
    cases h
    obtain ⟨hnonempty, hchars⟩ := hlaw.parseIP_chars _ _ hip
    have hself : Go.toLower (trimSpace pattern) = pattern := toLower_trimSpace_self fun c hc => .inr (.inr (hchars c hc))
    have hplain := fun c hc => addressChars_plain c (hchars c hc)
    have hnostar : pattern ≠ "*" := by
      rintro rfl
      exact (hplain '*' (by decide +kernel)).2.2.1 rfl
    have hnoslash : ¬ contains pattern "/" = true := fun hmem =>
      (hplain '/' ((contains_slash_iff _).1 hmem)).2.2.2.1 rfl
    have hnowild : ¬ contains pattern "*" = true := fun hmem =>
      (hplain '*' ((contains_star_iff _).1 hmem)).2.2.1 rfl
    rw [normalizeIPPattern, hself]
    simp only [if_neg hnonempty, if_neg hnostar, if_neg hnoslash, if_neg hnowild, trim_eq_self fun c hc => (hplain c hc).2.2.2.2,
      hlaw.parseIP_self _ _ hip]

/-! ## Policies -/

/-- Patterns that are read as they are. -/
structure NormalPatterns (env : AccessFileEnv) (patterns : List String) : Prop where
  nonempty : ∀ pattern ∈ patterns, pattern ≠ ""
  normal : ∀ pattern ∈ patterns, normalizeIPPattern env.toAccessEnv pattern = .ok pattern
  distinct : patterns.Nodup
  few : patterns.length ≤ maxIPPatterns

structure NormalPolicy (env : AccessFileEnv) (policy : Policy) : Prop where
  patterns : NormalPatterns env policy.ipAllowlist
  secured : policy.ipAllowlistEnabled = true → policy.ipAllowlist ≠ []

theorem normalPatterns_nil : NormalPatterns env [] :=
  ⟨fun _ h => absurd h List.not_mem_nil, fun _ h => absurd h List.not_mem_nil, List.nodup_nil, Nat.zero_le _⟩

theorem NormalPatterns.append {patterns : List String} {pattern : String} (h : NormalPatterns env patterns)
    (hnonempty : pattern ≠ "") (hnormal : normalizeIPPattern env.toAccessEnv pattern = .ok pattern) (hnew : pattern ∉ patterns)
    (hfew : (patterns ++ [pattern]).length ≤ maxIPPatterns) : NormalPatterns env (patterns ++ [pattern]) where
  nonempty other hother := (List.mem_append.1 hother).elim (h.nonempty other) fun heq => List.mem_singleton.1 heq ▸ hnonempty
  normal other hother := (List.mem_append.1 hother).elim (h.normal other) fun heq => List.mem_singleton.1 heq ▸ hnormal
  distinct := h.distinct.append (List.nodup_singleton _) (List.disjoint_singleton.2 hnew)
  few := hfew

theorem normalizePatterns_normal (hlaw : env.Lawful) {patterns values result : List String}
    (hpatterns : NormalPatterns env patterns) (h : normalizePatterns env.toAccessEnv patterns values = .ok result) : NormalPatterns env result := by
  induction values generalizing patterns with
  | nil =>
    cases h
    exact hpatterns
  | cons raw values ih =>
    rw [normalizePatterns] at h
    obtain ⟨pattern, hpattern, h⟩ := bind_ok_inv h
    split at h
    · exact ih hpatterns h
    · rename_i hnew
      rw [not_or] at hnew
      split at h
      · cases h
      · rename_i hfew
        exact ih (hpatterns.append hnew.1 (normalizeIPPattern_self hlaw hpattern) hnew.2 (Nat.not_lt.1 hfew)) h

theorem normalizePatterns_self {patterns values : List String} (h : NormalPatterns env (patterns ++ values)) :
    normalizePatterns env.toAccessEnv patterns values = .ok (patterns ++ values) := by
  induction values generalizing patterns with
  | nil => rw [normalizePatterns, List.append_nil]
  | cons pattern values ih =>
    have hmem : pattern ∈ patterns ++ pattern :: values := List.mem_append_right _ List.mem_cons_self
    have hnew : ¬ (pattern = "" ∨ pattern ∈ patterns) := by
      rintro (hempty | hold)
      · exact h.nonempty pattern hmem hempty
      · exact List.disjoint_of_nodup_append h.distinct hold List.mem_cons_self
    have hfew := h.few
    rw [List.append_cons, List.length_append] at hfew
    rw [normalizePatterns, h.normal pattern hmem]
    change (if _ then _ else _) = _
    rw [if_neg hnew, if_neg (by omega), ih (by rwa [← List.append_cons]), ← List.append_cons]

theorem normalizePolicy_normal (hlaw : env.Lawful) {value policy : Policy}
    (h : normalizePolicy env.toAccessEnv value = .ok policy) : NormalPolicy env policy := by
  rw [normalizePolicy] at h
  obtain ⟨patterns, hpatterns, h⟩ := bind_ok_inv h
  split at h
  · cases h
  · rename_i hsecured
    cases h
    exact ⟨normalizePatterns_normal hlaw normalPatterns_nil hpatterns, fun henabled hnone => hsecured ⟨henabled, hnone⟩⟩

theorem normalizePolicy_self {policy : Policy} (h : NormalPolicy env policy) :
    normalizePolicy env.toAccessEnv policy = .ok policy := by
  rw [normalizePolicy, normalizePatterns_self h.patterns]
  change (if _ then _ else _) = _
  rw [if_neg fun hsecured => h.secured hsecured.1 hsecured.2]
  rfl

theorem normalPatterns_loopback (hlaw : env.Lawful) : NormalPatterns env [defaultLoopbackIP] := by
  refine normalPatterns_nil.append (by decide) ?_ List.not_mem_nil (by decide)
  have hself : Go.toLower (trimSpace defaultLoopbackIP) = defaultLoopbackIP := by decide +kernel
  have htrim : trim defaultLoopbackIP ['[', ']'] = defaultLoopbackIP := by decide +kernel
  rw [normalizeIPPattern, hself]
  simp only [if_neg (show defaultLoopbackIP ≠ "" by decide), if_neg (show defaultLoopbackIP ≠ "*" by decide),
    if_neg (show ¬ contains defaultLoopbackIP "/" = true by decide +kernel),
    if_neg (show ¬ contains defaultLoopbackIP "*" = true by decide +kernel), htrim, hlaw.loopback]

/-- An empty list stands for the local address, which changes no decision. -/
theorem normalPolicy_publicPolicy (hlaw : env.Lawful) {policy : Policy} (h : NormalPolicy env policy) :
    NormalPolicy env (publicPolicy policy) := by
  rw [publicPolicy]
  split
  · exact ⟨normalPatterns_loopback hlaw, fun _ => List.cons_ne_nil _ _⟩
  · exact h

/-! ## Keys -/

structure StoredKey.WellFormed (key : StoredKey) : Prop where
  id_size : key.id.utf8ByteSize = 24
  id_hex : (hexDecode key.id).isNone = false
  name : key.name ≠ ""
  start : key.start ≠ ""
  hash_size : key.hash.utf8ByteSize = 64
  createdAt : key.createdAt ≠ zeroTime
  hash_hex : (hexDecode key.hash).isNone = false

/-- The names in lower case, by which a file is checked. -/
def nameKeys (env : AccessFileEnv) (keys : List StoredKey) : List String := keys.map fun key => env.letters.toLower key.name

theorem validateKeys_iff {seenIDs seenNames : List String} {keys : List StoredKey} :
    validateKeys env seenIDs seenNames keys = .ok () ↔ (∀ key ∈ keys, key.WellFormed) ∧
      ((keys.map StoredKey.id).Nodup ∧ ∀ id ∈ keys.map StoredKey.id, id ∉ seenIDs) ∧
      (nameKeys env keys).Nodup ∧ ∀ name ∈ nameKeys env keys, name ∉ seenNames := by
  induction keys generalizing seenIDs seenNames with
  | nil => simp [validateKeys, nameKeys]
  | cons key keys ih =>
    have hformed : key.WellFormed ↔ key.id.utf8ByteSize = 24 ∧ (hexDecode key.id).isNone = false ∧
        ¬ (key.name = "" ∨ key.start = "" ∨ key.hash.utf8ByteSize ≠ 64 ∨ key.createdAt = zeroTime) ∧
        (hexDecode key.hash).isNone = false := by
      simp only [not_or, not_not]
      constructor
      · intro h
        exact ⟨h.id_size, h.id_hex, ⟨h.name, h.start, h.hash_size, h.createdAt⟩, h.hash_hex⟩
      · rintro ⟨hid, hidHex, ⟨hname, hstart, hhash, hcreated⟩, hhashHex⟩
        exact ⟨hid, hidHex, hname, hstart, hhash, hcreated, hhashHex⟩
    have hnames : nameKeys env (key :: keys) = env.letters.toLower key.name :: nameKeys env keys := rfl
    rw [validateKeys, List.forall_mem_cons, hformed, hnames, List.map_cons, List.nodup_cons, List.nodup_cons,
      List.forall_mem_cons, List.forall_mem_cons]
    by_cases hid : key.id.utf8ByteSize = 24
    swap
    · simp [hid]
    by_cases hidHex : (hexDecode key.id).isNone = true
    · simp [hid, hidHex]
    by_cases hdata : key.name = "" ∨ key.start = "" ∨ key.hash.utf8ByteSize ≠ 64 ∨ key.createdAt = zeroTime
    · simp [hid, hidHex, hdata]
    by_cases hhashHex : (hexDecode key.hash).isNone = true
    · simp [hid, hidHex, hdata, hhashHex]
    rw [if_neg (not_not.2 hid), if_neg hidHex, if_neg hdata, if_neg hhashHex]
    simp only
    by_cases hseen : key.id ∈ seenIDs ∨ env.letters.toLower key.name ∈ seenNames
    · rw [if_pos hseen]
      simp only [reduceCtorEq, false_iff]
      rintro ⟨-, ⟨-, hnew, -⟩, -, hnewName, -⟩
      exact hseen.elim hnew hnewName
    · rw [if_neg hseen, ih]
      rw [not_or] at hseen
      -- A new key is none of the seen and none of the later ones.
      simp only [List.mem_cons, not_or, Bool.not_eq_true] at *
      constructor
      · rintro ⟨hkeys, ⟨hids, hidsNew⟩, hnodup, hnew⟩
        exact ⟨⟨⟨hid, hidHex, hdata, hhashHex⟩, hkeys⟩,
          ⟨⟨fun hmem => (hidsNew _ hmem).1 rfl, hids⟩, hseen.1, fun id hmem => (hidsNew id hmem).2⟩,
          ⟨fun hmem => (hnew _ hmem).1 rfl, hnodup⟩, hseen.2, fun name hmem => (hnew name hmem).2⟩
      · rintro ⟨⟨-, hkeys⟩, ⟨⟨hnotin, hids⟩, -, hidsNew⟩, ⟨hnotinName, hnodup⟩, -, hnew⟩
        exact ⟨hkeys, ⟨hids, fun id hmem => ⟨fun heq => hnotin (heq ▸ hmem), hidsNew id hmem⟩⟩,
          hnodup, fun name hmem => ⟨fun heq => hnotinName (heq ▸ hmem), hnew name hmem⟩⟩

/-- Keys of which only the names may meet. -/
structure NormalKeys (keys : List StoredKey) : Prop where
  few : keys.length ≤ maxKeys
  formed : ∀ key ∈ keys, key.WellFormed
  ids : (keys.map StoredKey.id).Nodup

theorem validateStoredKeys_iff {keys : List StoredKey} :
    validateStoredKeys env keys = .ok () ↔ NormalKeys keys ∧ (nameKeys env keys).Nodup := by
  rw [validateStoredKeys]
  by_cases hfew : maxKeys < keys.length
  · rw [if_pos hfew]
    simp only [reduceCtorEq, false_iff]
    exact fun h => Nat.not_lt.2 h.1.few hfew
  · rw [if_neg hfew, validateKeys_iff]
    constructor
    · rintro ⟨hformed, ⟨hids, -⟩, hnames, -⟩
      exact ⟨⟨Nat.not_lt.1 hfew, hformed, hids⟩, hnames⟩
    · rintro ⟨h, hnames⟩
      exact ⟨h.formed, ⟨h.ids, fun _ _ => List.not_mem_nil⟩, hnames, fun _ _ => List.not_mem_nil⟩

theorem NormalKeys.sublist {keys kept : List StoredKey} (h : NormalKeys keys) (hkept : kept.Sublist keys) : NormalKeys kept where
  few := hkept.length_le.trans h.few
  formed key hkey := h.formed key (hkept.subset hkey)
  ids := h.ids.sublist (hkept.map _)

theorem NormalKeys.append {keys : List StoredKey} {key : StoredKey} (h : NormalKeys keys) (hroom : keys.length < maxKeys)
    (hkey : key.WellFormed) (hnew : key.id ∉ keys.map StoredKey.id) : NormalKeys (keys ++ [key]) where
  few := by
    rw [List.length_append]
    exact hroom
  formed other hother := (List.mem_append.1 hother).elim (h.formed other) fun heq => List.mem_singleton.1 heq ▸ hkey
  ids := by
    rw [List.map_append]
    exact h.ids.append (List.nodup_singleton _) (List.disjoint_singleton.2 hnew)

theorem nodup_nameKeys_append {keys : List StoredKey} {key : StoredKey} (h : (nameKeys env keys).Nodup) :
    (nameKeys env (keys ++ [key])).Nodup ↔ ∀ other ∈ keys, env.letters.toLower other.name ≠ env.letters.toLower key.name := by
  rw [nameKeys, List.map_append, List.map_singleton, List.nodup_append]
  constructor
  · rintro ⟨-, -, hnew⟩ other hother
    exact hnew _ (List.mem_map_of_mem hother) _ List.mem_cons_self
  · intro hnew
    refine ⟨h, List.nodup_singleton _, fun name hname other hother => ?_⟩
    obtain ⟨key', hkey', rfl⟩ := List.mem_map.1 hname
    rw [List.mem_singleton.1 hother]
    exact hnew key' hkey'

theorem hexEncode_utf8ByteSize (bytes : List UInt8) : (hexEncode bytes).utf8ByteSize = 2 * bytes.length := by
  have hdigit : ∀ n < 16, (hexDigit n).utf8Size = 1 := by decide
  rw [utf8ByteSize_eq_length, hexEncode_length]
  intro c hc
  rw [hexEncode, String.toList_ofList, List.mem_flatMap] at hc
  obtain ⟨b, -, hc⟩ := hc
  have hb := b.toNat_lt
  rcases List.mem_pair.1 hc with rfl | rfl
  · exact hdigit _ (by omega)
  · exact hdigit _ (by omega)

/-- A key that is issued is complete. -/
theorem wellFormed_newKey (hlaw : env.Lawful) (secretBytes : List UInt8) {name : String} {idBytes : List UInt8} {now : Int}
    (hname : name ≠ "") (hid : idBytes.length = 12) (hnow : now ≠ zeroTime) :
    (newKey env.toAccessEnv name secretBytes idBytes now).1.WellFormed where
  id_size := by rw [newKey, hexEncode_utf8ByteSize, hid]
  id_hex := by rw [newKey, hexDecode_hexEncode, Option.isNone_some]
  name := hname
  start := by
    intro hstart
    have hchars : ((("olk_" ++ base64Encode secretBytes).toList.take 12) : List Char) = [] := by
      rw [newKey] at hstart
      simpa using congrArg String.toList hstart
    rw [String.toList_append] at hchars
    cases hchars
  hash_size := by rw [newKey, hexEncode_utf8ByteSize, hlaw.sha256_length]
  createdAt := hnow
  hash_hex := by rw [newKey, hexDecode_hexEncode, Option.isNone_some]

/-! ## Opening -/

/-- What every store keeps: the file holds what the memory does, and all but
the names of the keys is as a file is checked for. -/
structure KeyStore.Normal (env : AccessFileEnv) (s : KeyStore) : Prop where
  trimmed : trimSpace s.path = s.path
  path : s.path ≠ ""
  written : s.file = .object s.data
  version : s.data.version = currentFileVersion
  policy : NormalPolicy env s.data.policy.value
  keys : NormalKeys s.data.keyList
  secured : s.data.policy.apiKeyEnabled = true → s.data.keyList ≠ []

/-- The policy that `NewStore` normalises. -/
theorem policyInput_value (policy : FilePolicy) :
    (if (clonePolicy policy).ipAllowlist.isNone then { clonePolicy policy with ipAllowlist := some [defaultLoopbackIP] }
      else clonePolicy policy).value = publicPolicy policy.value := by
  rw [publicPolicy]
  by_cases hnone : policy.ipAllowlist.getD [] = []
  · have hcloned : (clonePolicy policy).ipAllowlist = none := by rw [clonePolicy, cloned, hnone]; rfl
    have hvalue : policy.value.ipAllowlist = [] := hnone
    rw [hcloned, if_pos hvalue]
    rfl
  · have hcloned : (clonePolicy policy).ipAllowlist = policy.ipAllowlist := by
      rw [clonePolicy, cloned, List.isEmpty_eq_false_iff.2 hnone]
      rfl
    have hvalue : policy.value.ipAllowlist ≠ [] := hnone
    have hsome : (clonePolicy policy).ipAllowlist.isNone = false := by
      rw [hcloned]
      cases hlist : policy.ipAllowlist with
      | none =>
        rw [hlist] at hnone
        exact absurd rfl hnone
      | some list => rfl
    rw [hsome, if_neg hvalue]
    exact value_clonePolicy policy

/-- What a file that is opened holds. -/
theorem newStore_object {fault : Option String} {path : String} {data : FileData} {s : KeyStore}
    (h : newStore env fault path (.object data) = .ok s) :
    validateStoredKeys env data.keyList = .ok () ∧ data.version = currentFileVersion ∧ s.path = trimSpace path ∧
      s.path ≠ "" ∧ s.data.version = data.version ∧ s.data.keyList = data.keyList ∧
      normalizePolicy env.toAccessEnv (publicPolicy data.policy.value) = .ok s.data.policy.value ∧
      (s.data.policy.apiKeyEnabled = true → s.data.keyList ≠ []) ∧
      (s.file = .object s.data ∨ s.file = .object data ∧ data.keys.isNone = false ∧ data.policy.value = s.data.policy.value ∧
        s.data = { data with policy := s.data.policy.value.made, keys := some data.keyList }) := by
  rw [newStore] at h
  simp only [policyInput_value] at h
  split at h
  · cases h
  rename_i hpath
  split at h
  · cases h
  rename_i hversion
  cases hpolicy : normalizePolicy env.toAccessEnv (publicPolicy data.policy.value) with
  | error err =>
    rw [hpolicy] at h
    cases h
  | ok policy =>
    rw [hpolicy] at h
    cases hkeys : validateStoredKeys env data.keyList with
    | error err =>
      rw [hkeys] at h
      cases h
    | ok _ =>
      rw [hkeys] at h
      simp only at h
      split at h
      · cases h
      rename_i hsecured
      have hsecured : policy.apiKeyEnabled = true → data.keyList ≠ [] := fun henabled hnone =>
        hsecured ⟨henabled, List.isEmpty_iff.2 hnone⟩
      split at h
      · cases fault with
        | some err => cases h
        | none =>
          cases h
          exact ⟨rfl, not_not.1 hversion, rfl, hpath, rfl, rfl, rfl, hsecured, .inl rfl⟩
      · rename_i hsame
        rw [not_or, not_not, Bool.not_eq_true] at hsame
        obtain ⟨hsame, hkeysMade⟩ := hsame
        rw [samePolicy, decide_eq_true_eq, value_clonePolicy] at hsame
        cases fault with
        | some err => cases h
        | none =>
          cases h
          exact ⟨rfl, not_not.1 hversion, rfl, hpath, rfl, rfl, rfl, hsecured, .inr ⟨rfl, hkeysMade, hsame, rfl⟩⟩

/-- A store that was opened is normal, and no two of its names meet. -/
theorem newStore_normal (hlaw : env.Lawful) {fault : Option String} {path : String} {file : AccessFile} {s : KeyStore}
    (h : newStore env fault path file = .ok s) : s.Normal env ∧ (nameKeys env s.data.keyList).Nodup := by
  cases file with
  | missing =>
    rw [newStore] at h
    simp only at h
    split at h
    · cases h
    rename_i hpath
    cases fault with
    | some err => cases h
    | none =>
      cases h
      exact ⟨{ trimmed := trimSpace_trimSpace path
               path := hpath
               written := rfl
               version := rfl
               policy := ⟨normalPatterns_loopback hlaw, fun henabled => absurd henabled Bool.false_ne_true⟩
               keys := ⟨Nat.zero_le _, fun _ hkey => absurd hkey List.not_mem_nil, List.nodup_nil⟩
               secured := fun henabled => absurd henabled Bool.false_ne_true }, List.nodup_nil⟩
  | unreadable message =>
    rw [newStore] at h
    split at h <;> cases h
  | invalid message =>
    rw [newStore] at h
    split at h <;> cases h
  | object data =>
    obtain ⟨hkeys, hversion, hpath, hnonempty, hsame, hlist, hpolicy, hsecured, hfile⟩ := newStore_object h
    rw [← hlist, validateStoredKeys_iff] at hkeys
    have hnormal := normalizePolicy_normal hlaw hpolicy
    refine ⟨{ trimmed := by rw [hpath, trimSpace_trimSpace]
              path := hnonempty
              written := ?_
              version := hsame.trans hversion
              policy := hnormal
              keys := hkeys.1
              secured := hsecured }, hkeys.2⟩
    rcases hfile with hfile | ⟨hfile, hmade, hvalue, hdata⟩
    · exact hfile
    · -- Nothing was written: the lists of the file were made and the policy was normal.
      rw [hfile, hdata]
      obtain ⟨version, ⟨apiKeyEnabled, ipAllowlistEnabled, ipAllowlist⟩, keys⟩ := data
      cases keys with
      | none => cases hmade
      | some keys =>
        cases ipAllowlist with
        | none =>
          have hloopback : NormalPolicy env (publicPolicy ⟨apiKeyEnabled, ipAllowlistEnabled, []⟩) :=
            ⟨normalPatterns_loopback hlaw, fun _ => List.cons_ne_nil _ _⟩
          have heq := Except.ok.inj ((normalizePolicy_self hloopback).symm.trans hpolicy)
          exact absurd (congrArg Policy.ipAllowlist (hvalue.trans heq.symm)) (List.cons_ne_nil _ _).symm
        | some list =>
          rw [← hvalue]
          rfl

/-! ## Opening again -/

theorem newStore_reopens (hlaw : env.Lawful) {s : KeyStore} (hs : s.Normal env) (hnames : (nameKeys env s.data.keyList).Nodup) :
    ∃ reopened, newStore env none s.path s.file = .ok reopened ∧ reopened.data.keyList = s.data.keyList ∧
      reopened.data.policy.value = publicPolicy s.data.policy.value := by
  have hpolicy := normalizePolicy_self (normalPolicy_publicPolicy hlaw hs.policy)
  have hkeys := validateStoredKeys_iff.2 ⟨hs.keys, hnames⟩
  have hsecured : ¬ ((publicPolicy s.data.policy.value).apiKeyEnabled = true ∧ s.data.keyList.isEmpty = true) := by
    rintro ⟨henabled, hnone⟩
    rw [publicPolicy_apiKeyEnabled] at henabled
    exact hs.secured henabled (List.isEmpty_iff.1 hnone)
  unfold newStore
  rw [hs.written, hs.trimmed]
  simp only [policyInput_value, if_neg hs.path, hs.version, ne_eq, not_true_eq_false, if_false, hpolicy, hkeys, if_neg hsecured]
  split
  · exact ⟨_, rfl, rfl, rfl⟩
  · exact ⟨_, rfl, rfl, rfl⟩

/-- The store keeps what it promises: what is in memory is in the file, the keys
are few and told apart by their IDs, and opening the file gives a store that shows
and decides the same. -/
structure KeyStore.Sound (env : AccessFileEnv) (s : KeyStore) : Prop where
  written : s.file = .object s.data
  few : s.data.keyList.length ≤ maxKeys
  ids : (s.data.keyList.map StoredKey.id).Nodup
  secured : s.data.policy.apiKeyEnabled = true → s.data.keyList ≠ []
  reopens : ∃ reopened, newStore env none s.path s.file = .ok reopened ∧ reopened.public = s.public ∧
    (∀ remoteAddress, reopened.allowsRemote env remoteAddress = s.allowsRemote env remoteAddress) ∧
    ∀ secret, reopened.authorizeKey env secret = s.authorizeKey env secret

@[simp] theorem publicPolicy_publicPolicy (policy : Policy) : publicPolicy (publicPolicy policy) = publicPolicy policy := by
  by_cases hnone : policy.ipAllowlist = []
  · rw [publicPolicy, publicPolicy, if_pos hnone, if_neg (List.cons_ne_nil _ _)]
  · rw [publicPolicy, publicPolicy, if_neg hnone, if_neg hnone]

section
variable {s reopened : KeyStore}

theorem public_eq (hkeys : reopened.data.keyList = s.data.keyList)
    (hpolicy : reopened.data.policy.value = publicPolicy s.data.policy.value) : reopened.public = s.public := by
  simp only [KeyStore.public, AccessStore.publicView, FileData.store, hkeys, hpolicy, publicPolicy_publicPolicy]

theorem authorizeKey_eq (hkeys : reopened.data.keyList = s.data.keyList)
    (hpolicy : reopened.data.policy.value = publicPolicy s.data.policy.value) (secret : String) :
    reopened.authorizeKey env secret = s.authorizeKey env secret := by
  have henabled : reopened.data.policy.apiKeyEnabled = s.data.policy.apiKeyEnabled :=
    (congrArg Policy.apiKeyEnabled hpolicy).trans (publicPolicy_apiKeyEnabled _)
  simp only [KeyStore.authorizeKey, hkeys, henabled]

/-- A list that is empty is not in use. -/
theorem allowsRemote_eq (hs : NormalPolicy env s.data.policy.value)
    (hpolicy : reopened.data.policy.value = publicPolicy s.data.policy.value) (remoteAddress : String) :
    reopened.allowsRemote env remoteAddress = s.allowsRemote env remoteAddress := by
  simp only [KeyStore.allowsRemote, hpolicy]
  by_cases hnone : s.data.policy.value.ipAllowlist = []
  · have hdisabled : s.data.policy.value.ipAllowlistEnabled = false :=
      Bool.eq_false_iff.2 fun henabled => hs.secured henabled hnone
    simp [publicPolicy, hnone, hdisabled]
  · simp only [publicPolicy, if_neg hnone]

/-- A normal store is sound exactly when no two of its names meet. -/
theorem KeyStore.Normal.sound_iff (hlaw : env.Lawful) (hs : s.Normal env) :
    s.Sound env ↔ (nameKeys env s.data.keyList).Nodup := by
  constructor
  · intro hsound
    obtain ⟨reopened, hopen, -⟩ := hsound.reopens
    rw [hs.written] at hopen
    exact (validateStoredKeys_iff.1 (newStore_object hopen).1).2
  · intro hnames
    obtain ⟨reopened, hopen, hkeys, hpolicy⟩ := newStore_reopens hlaw hs hnames
    exact { written := hs.written
            few := hs.keys.few
            ids := hs.keys.ids
            secured := hs.secured
            reopens := ⟨reopened, hopen, public_eq hkeys hpolicy, allowsRemote_eq hs.policy hpolicy,
              authorizeKey_eq hkeys hpolicy⟩ }

end

/-! ## Runs -/

/-- What the random source and the clock give: twelve bytes, an ID that is new, and a time that is not zero. -/
def KeyStore.Supplied (s : KeyStore) : AccessCall → Prop
  | .issueKey _ fresh _ => fresh.now ≠ zeroTime ∧
      ∀ idBytes, fresh.idBytes = .ok idBytes → idBytes.length = 12 ∧ hexEncode idBytes ∉ s.data.keyList.map StoredKey.id
  | _ => True

/-- One call, with the write of the file succeeding or failing as the call says. -/
def KeyStore.Step (env : AccessFileEnv) (s : KeyStore) (call : AccessCall) (s' : KeyStore) : Prop :=
  s.Supplied call ∧ (s.apply env call).2 = s'

/-- A name that is stored differs in lower case from every name there is. -/
def KeyStore.KeepsNames (env : AccessFileEnv) (s : KeyStore) : AccessCall → Prop
  | .issueKey name fresh fault => s.Accepts env name fresh fault →
      ∀ key ∈ s.data.keyList, env.letters.toLower key.name ≠ env.letters.toLower (trimSpace name)
  | _ => True

section
variable {s s' : KeyStore} {call : AccessCall} {data : FileData}

theorem KeyStore.Normal.write (hs : s.Normal env) (hversion : data.version = s.data.version)
    (hpolicy : NormalPolicy env data.policy.value) (hkeys : NormalKeys data.keyList)
    (hsecured : data.policy.apiKeyEnabled = true → data.keyList ≠ []) : (s.write data).Normal env where
  trimmed := hs.trimmed
  path := hs.path
  written := rfl
  version := hversion.trans hs.version
  policy := hpolicy
  keys := hkeys
  secured := hsecured

/-- Every write is normal. -/
theorem KeyStore.Normal.writes (hlaw : env.Lawful) (hs : s.Normal env) (hsupplied : s.Supplied call) (h : s.Writes env call data) :
    (s.write data).Normal env := by
  have hcopied : NormalPolicy env (cloneData s.data).policy.value := (value_clonePolicy s.data.policy).symm ▸ hs.policy
  cases h with
  | @policy value policy hpolicy hsecured =>
    have hkeys : FileData.keyList { cloneData s.data with policy := policy.made } = s.data.keyList := keyList_cloneData s.data
    refine hs.write rfl (normalizePolicy_normal hlaw hpolicy) ?_ ?_
    · rw [hkeys]
      exact hs.keys
    · rw [hkeys]
      exact hsecured
  | @key name fresh secretBytes idBytes haccepts hsecret hid =>
    obtain ⟨hnow, hfresh⟩ := hsupplied
    obtain ⟨hlength, hnew⟩ := hfresh idBytes hid
    have hkey := wellFormed_newKey hlaw secretBytes haccepts.nonempty hlength hnow
    exact hs.write rfl hcopied (hs.keys.append haccepts.room hkey hnew) fun _ =>
      List.append_ne_nil_of_right_ne_nil _ (List.cons_ne_nil _ _)
  | @revoked id hsecured => exact hs.write rfl hcopied (hs.keys.sublist List.filter_sublist) hsecured

/-- The names that are written meet exactly when the call lets them. -/
theorem nodup_nameKeys_writes (hnames : (nameKeys env s.data.keyList).Nodup) (h : s.Writes env call data) :
    (nameKeys env data.keyList).Nodup ↔ s.KeepsNames env call := by
  cases h with
  | @policy value policy hpolicy hsecured =>
    have hkeys : FileData.keyList { cloneData s.data with policy := policy.made } = s.data.keyList := keyList_cloneData s.data
    rw [hkeys]
    exact iff_of_true hnames trivial
  | key haccepts hsecret hid =>
    exact (nodup_nameKeys_append hnames).trans ⟨fun hkept _ => hkept, fun hkept => hkept haccepts⟩
  | revoked hsecured => exact iff_of_true (hnames.sublist (List.filter_sublist.map _)) trivial

theorem step_normal (hlaw : env.Lawful) (hs : s.Normal env) (hstep : s.Step env call s') : s'.Normal env := by
  obtain ⟨hsupplied, rfl⟩ := hstep
  rcases apply_writes env s call with ⟨⟨err, heq⟩, -⟩ | ⟨data, heq, hwrites⟩ <;> rw [heq]
  · exact hs
  · exact hs.writes hlaw hsupplied hwrites

/-- One call keeps a sound store sound exactly when it keeps the names apart. -/
theorem step_sound_iff (hlaw : env.Lawful) (hs : s.Normal env ∧ s.Sound env) (hstep : s.Step env call s') :
    s'.Normal env ∧ s'.Sound env ↔ s.KeepsNames env call := by
  obtain ⟨hnormal, hsound⟩ := hs
  have hnormal' := step_normal hlaw hnormal hstep
  obtain ⟨-, rfl⟩ := hstep
  rw [and_iff_right hnormal']
  have hnames := (hnormal.sound_iff hlaw).1 hsound
  rcases apply_writes env s call with ⟨⟨err, heq⟩, hrefused⟩ | ⟨data, heq, hwrites⟩
  · rw [heq]
    refine iff_of_true hsound ?_
    cases call with
    | updatePolicy value fault => trivial
    | issueKey name fresh fault => exact fun haccepts => absurd haccepts (hrefused name fresh fault rfl)
    | revokeKey id fault => trivial
  · rw [hnormal'.sound_iff hlaw, heq]
    exact nodup_nameKeys_writes hnames hwrites

/-- Along every run from a store that was opened, a call that fails changes nothing, and
the store is sound all the way exactly when every name that is stored differs in lower
case from those that are there. -/
theorem accessStore_sound_iff (hlaw : env.Lawful) {fault : Option String} {path : String} {file : AccessFile}
    {calls : List AccessCall} (hnew : newStore env fault path file = .ok s) (hrun : Run (KeyStore.Step env) s calls s') :
    (∀ (mid : KeyStore) call err after, mid.apply env call = (some err, after) → after = mid) ∧
      ((∀ n mid, Run (KeyStore.Step env) s (calls.take n) mid → mid.Sound env) ↔
        ∀ n call mid, calls[n]? = some call → Run (KeyStore.Step env) s (calls.take n) mid → mid.KeepsNames env call) := by
  refine ⟨fun _ _ _ _ h => apply_failed h, ?_⟩
  obtain ⟨hnormal, hnames⟩ := newStore_normal hlaw hnew
  rw [← Run.always_iff (fun _ _ _ _ h₁ h₂ => h₁.2.symm.trans h₂.2) (fun _ _ _ hs hstep => step_sound_iff hlaw hs hstep) hrun
    ⟨hnormal, (hnormal.sound_iff hlaw).2 hnames⟩]
  constructor
  · intro hsound n mid hmid
    exact ⟨hmid.inv (KeyStore.Normal env) (fun _ _ _ hs hstep => step_normal hlaw hs hstep) hnormal, hsound n mid hmid⟩
  · exact fun hall n mid hmid => (hall n mid hmid).2

end

/-! ## A dotted capital -/

/-- The hash of the first two secrets, and the local address. -/
def localEnv : AccessFileEnv where
  sha256 text :=
    if text = "olk_AAAAAAAAAAAAAAAAAAAAAAAAAAAAAAAAAAAAAAAAAAA" then
      [230, 193, 79, 52, 126, 97, 221, 172, 188, 247, 150, 143, 103, 47, 85, 33, 93, 25, 180, 153, 41, 30, 127, 44, 217, 8, 80, 90,
        194, 71, 81, 107]
    else if text = "olk_AQEBAQEBAQEBAQEBAQEBAQEBAQEBAQEBAQEBAQEBAQE" then
      [185, 234, 163, 48, 191, 32, 100, 30, 50, 25, 221, 78, 148, 107, 96, 48, 251, 165, 191, 163, 183, 21, 33, 119, 223, 162, 88,
        29, 236, 221, 45, 131]
    else List.replicate 32 0
  parseIP text := if text = defaultLoopbackIP then some text else none
  parseCIDR _ := none
  letters := goLetters
  networkContains _ _ := false

theorem localEnv_lawful : localEnv.Lawful where
  sha256_length text := by
    simp only [localEnv]
    split
    · rfl
    split
    · rfl
    · exact List.length_replicate
  loopback := by simp only [localEnv, if_true]
  parseIP_chars text ip h := by
    obtain ⟨rfl, hip⟩ := Option.ite_none_right_eq_some.1 h
    obtain rfl := Option.some.inj hip
    have hchars : defaultLoopbackIP.toList.all (fun c => c ∈ addressChars) = true := by decide +kernel
    exact ⟨by decide, fun c hc => of_decide_eq_true (List.all_eq_true.1 hchars c hc)⟩
  parseIP_self text ip h := by
    obtain ⟨rfl, hip⟩ := Option.ite_none_right_eq_some.1 h
    obtain rfl := Option.some.inj hip
    simp only [localEnv, if_true]
  parseCIDR_chars text network h := by cases h
  parseCIDR_self text network h := by cases h

/-- A store that was opened without a file. -/
def firstStore : KeyStore :=
  let data : FileData := ⟨currentFileVersion, ⟨false, false, some [defaultLoopbackIP]⟩, some []⟩
  ⟨"access-control.json", data, .object data⟩

/-- A key is asked for; all its random bytes are the same. -/
def askKey (name : String) (byte : UInt8) : AccessCall :=
  .issueKey name ⟨.ok (List.replicate 32 byte), .ok (List.replicate 12 byte), 1700000000000000000⟩ none

theorem newStore_firstStore : newStore localEnv none "access-control.json" .missing = .ok firstStore := by
  have hpath : trimSpace "access-control.json" = "access-control.json" := by decide +kernel
  rw [newStore, hpath, if_neg (show "access-control.json" ≠ "" by decide)]
  rfl

theorem supplied_askKey {s : KeyStore} {name : String} {byte : UInt8}
    (hnew : hexEncode (List.replicate 12 byte) ∉ s.data.keyList.map StoredKey.id) : s.Supplied (askKey name byte) := by
  refine ⟨show (1700000000000000000 : Int) ≠ zeroTime by decide, fun idBytes hid => ?_⟩
  obtain rfl := Except.ok.inj hid
  exact ⟨List.length_replicate, hnew⟩

/-- Two keys are asked for in turn. -/
theorem run_askKeys (name other : String) (hnew : hexEncode (List.replicate 12 1) ∉
    (firstStore.apply localEnv (askKey name 0)).2.data.keyList.map StoredKey.id) :
    Run (KeyStore.Step localEnv) firstStore [askKey name 0, askKey other 1]
      ((firstStore.apply localEnv (askKey name 0)).2.apply localEnv (askKey other 1)).2 :=
  .cons ⟨supplied_askKey List.not_mem_nil, rfl⟩ (.cons ⟨supplied_askKey hnew, rfl⟩ .nil)

/-- Two plain names are kept apart. -/
theorem plainNames_sound :
    ((firstStore.apply localEnv (askKey "i" 0)).2.apply localEnv (askKey "j" 1)).2.Sound localEnv := by
  have hrun := run_askKeys "i" "j" (by decide +kernel)
  refine (accessStore_sound_iff localEnv_lawful newStore_firstStore hrun).2.2 ?_ 2 _ hrun
  intro n call mid hcall hmid
  rcases n with - | - | n
  · cases hcall
    cases hmid
    exact fun _ key hkey => absurd hkey List.not_mem_nil
  · cases hcall
    cases hmid with
    | cons hstep hnil =>
      cases hnil
      obtain ⟨-, rfl⟩ := hstep
      have hall : (firstStore.apply localEnv (askKey "i" 0)).2.data.keyList.all
          (fun key => localEnv.letters.toLower key.name ≠ localEnv.letters.toLower (trimSpace "j")) = true := by decide +kernel
      exact fun _ key hkey => of_decide_eq_true (List.all_eq_true.1 hall key hkey)
  · cases hcall

/-- The two names differ under case folding and agree in lower case: both keys are issued,
and the file is not opened again. -/
theorem dottedName_not_sound : localEnv.Lawful ∧
    newStore localEnv none "access-control.json" .missing = .ok firstStore ∧
    ∃ s, Run (KeyStore.Step localEnv) firstStore [askKey "i" 0, askKey "\u0130" 1] s ∧
      s.data.keyList.map StoredKey.name = ["i", "\u0130"] ∧
      errorOf (newStore localEnv none s.path s.file) = some "模型 API 金鑰資料重複" ∧ ¬ s.Sound localEnv := by
  have herror : errorOf (newStore localEnv none "access-control.json"
      ((firstStore.apply localEnv (askKey "i" 0)).2.apply localEnv (askKey "\u0130" 1)).2.file) =
        some "模型 API 金鑰資料重複" := by decide +kernel
  refine ⟨localEnv_lawful, newStore_firstStore, _, run_askKeys "i" "\u0130" (by decide +kernel), by decide +kernel, herror, ?_⟩
  intro hsound
  obtain ⟨reopened, hopen, -⟩ := hsound.reopens
  cases herror.symm.trans (congrArg errorOf hopen)

end Tanpopo.NetPass
