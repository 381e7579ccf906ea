import Mathlib
/-!
# Text encodings of Go's standard library

Hexadecimal, unpadded URL base64 and decimal integers, as the functions of
`encoding/hex`, `encoding/base64` and `strconv` read and write them.
-/

namespace Tanpopo.Go

/-! ## `encoding/hex` -/

def hexDigit (n : Nat) : Char := if n < 10 then Char.ofNat (48 + n) else Char.ofNat (87 + n)

def hexEncode (bytes : List UInt8) : String :=
  String.ofList (bytes.flatMap fun b => [hexDigit (b.toNat / 16), hexDigit (b.toNat % 16)])

def hexValue (c : Char) : Option Nat :=
  if '0' ≤ c ∧ c ≤ '9' then some (c.toNat - 48)
  else if 'a' ≤ c ∧ c ≤ 'f' then some (c.toNat - 87)
  else if 'A' ≤ c ∧ c ≤ 'F' then some (c.toNat - 55)
  else none

def hexPairs : List Char → Option (List UInt8)
  | [] => some []
  | [_] => none
  | high :: low :: rest => do
    let h ← hexValue high
    let l ← hexValue low
    let bytes ← hexPairs rest
    return UInt8.ofNat (16 * h + l) :: bytes

def hexDecode (text : String) : Option (List UInt8) := hexPairs text.toList

theorem hexValue_hexDigit : ∀ n < 16, hexValue (hexDigit n) = some n := by decide

theorem hexPairs_encode (bytes : List UInt8) :
    hexPairs (bytes.flatMap fun b => [hexDigit (b.toNat / 16), hexDigit (b.toNat % 16)]) = some bytes := by
  induction bytes with
  | nil => rfl
  | cons b rest ih =>
    have hb := b.toNat_lt
    rw [List.flatMap_cons]
    rw [List.cons_append, List.cons_append, List.nil_append, hexPairs, hexValue_hexDigit _ (by omega),
      hexValue_hexDigit _ (by omega), ih]
    have hsplit : 16 * (b.toNat / 16) + b.toNat % 16 = b.toNat := Nat.div_add_mod _ _
    change some (UInt8.ofNat (16 * (b.toNat / 16) + b.toNat % 16) :: rest) = _
    rw [hsplit, UInt8.ofNat_toNat]

@[simp] theorem hexDecode_hexEncode (bytes : List UInt8) : hexDecode (hexEncode bytes) = some bytes := by
  rw [hexDecode, hexEncode, String.toList_ofList]
  exact hexPairs_encode bytes

theorem hexEncode_length (bytes : List UInt8) : (hexEncode bytes).length = 2 * bytes.length := by
  rw [hexEncode, String.length_ofList, List.length_flatMap]
  simp [Nat.mul_comm]

theorem hexPairs_length {digits : List Char} {bytes : List UInt8} (h : hexPairs digits = some bytes) :
    digits.length = 2 * bytes.length := by
  induction digits using hexPairs.induct generalizing bytes with
  | case1 =>
    cases h
    rfl
  | case2 => cases h
  | case3 high low rest ih =>
    rw [hexPairs] at h
    simp only [Option.bind_eq_bind, Option.bind_eq_some_iff, Option.pure_def, Option.some.injEq] at h
    obtain ⟨_, -, _, -, tail, htail, rfl⟩ := h
    rw [List.length_cons, List.length_cons, ih htail, List.length_cons]
    omega

/-! ## `base64.RawURLEncoding` -/

def base64Alphabet : List Char := "ABCDEFGHIJKLMNOPQRSTUVWXYZabcdefghijklmnopqrstuvwxyz0123456789-_".toList

def base64Digit (n : Nat) : Char := base64Alphabet.getD n 'A'

def base64Groups : List UInt8 → List Nat
  | [] => []
  | [a] => [a.toNat / 4, a.toNat % 4 * 16]
  | [a, b] => [a.toNat / 4, a.toNat % 4 * 16 + b.toNat / 16, b.toNat % 16 * 4]
  | a :: b :: c :: rest =>
    a.toNat / 4 :: (a.toNat % 4 * 16 + b.toNat / 16) :: (b.toNat % 16 * 4 + c.toNat / 64) :: c.toNat % 64 ::
      base64Groups rest

def base64Encode (bytes : List UInt8) : String := String.ofList ((base64Groups bytes).map base64Digit)

def base64Bytes : List Nat → Option (List UInt8)
  | [] => some []
  | [_] => none
  | [a, b] => some [UInt8.ofNat (a * 4 + b / 16)]
  | [a, b, c] => some [UInt8.ofNat (a * 4 + b / 16), UInt8.ofNat (b % 16 * 16 + c / 4)]
  | a :: b :: c :: d :: rest => do
    let bytes ← base64Bytes rest
    return UInt8.ofNat (a * 4 + b / 16) :: UInt8.ofNat (b % 16 * 16 + c / 4) :: UInt8.ofNat (c % 4 * 64 + d) :: bytes

/-- Line breaks are skipped, and the unused bits of the last digit are not checked. -/
def base64Decode (text : String) : Option (List UInt8) := do
  let digits ← (text.toList.filter fun c => c ≠ '\n' ∧ c ≠ '\r').mapM fun c => base64Alphabet.idxOf? c
  base64Bytes digits

theorem dot_not_mem_base64Encode (bytes : List UInt8) : '.' ∉ (base64Encode bytes).toList := by
  rw [base64Encode, String.toList_ofList, List.mem_map]
  rintro ⟨n, -, hn⟩
  have halphabet : ('A' :: base64Alphabet).all (· ≠ '.') = true := by decide +kernel
  refine of_decide_eq_true (List.all_eq_true.1 halphabet _ ?_) hn
  rw [base64Digit, List.getD_eq_getElem?_getD]
  cases h : base64Alphabet[n]? with
  | none => exact List.mem_cons_self
  | some c => exact List.mem_cons_of_mem _ (List.mem_of_getElem? h)

/-! ## `strconv` and `strings` -/

def formatInt (n : Int) : String := toString n

def digitsValue (digits : List Char) : Option Nat :=
  if digits ≠ [] ∧ digits.all Char.isDigit then some (digits.foldl (fun n c => 10 * n + (c.toNat - 48)) 0) else none

/-- `strconv.ParseInt(text, 10, 64)`. -/
def parseInt (text : String) : Option Int := do
  let n : Int ← match text.toList with
    | '-' :: digits => (digitsValue digits).map fun n => -(n : Int)
    | '+' :: digits => (digitsValue digits).map fun n => (n : Int)
    | digits => (digitsValue digits).map fun n => (n : Int)
  if -2 ^ 63 ≤ n ∧ n < 2 ^ 63 then some n else none

/-- The value of `strconv.Atoi`: 0 where there is no number, and the end of its range where the number is beyond. -/
def atoi (text : String) : Int :=
  let number : Option Int := match text.toList with
    | '-' :: digits => (digitsValue digits).map fun n : Nat => -(n : Int)
    | '+' :: digits => (digitsValue digits).map Int.ofNat
    | digits => (digitsValue digits).map Int.ofNat
  max (-2 ^ 63) (min (2 ^ 63 - 1) (number.getD 0))

theorem atoi_lt (text : String) : atoi text < 2 ^ 63 := by
  simp only [atoi]
  generalize Option.getD _ (0 : Int) = number
  omega

/-- `strings.Split` at a single character. -/
def split (text : String) (separator : Char) : List String := (text.toList.splitOn separator).map String.ofList

/-- `strings.Join`. -/
def join (parts : List String) (separator : Char) : String :=
  String.ofList ([separator].intercalate (parts.map String.toList))

def hasPrefix (text start : String) : Bool := start.toList.isPrefixOf text.toList

def hasSuffix (text ending : String) : Bool := ending.toList.isSuffixOf text.toList

def containsAny (text chars : String) : Bool := text.toList.any fun c => chars.toList.contains c

/-- `unicode.IsSpace`. -/
def isSpace (c : Char) : Bool :=
  [0x09, 0x0A, 0x0B, 0x0C, 0x0D, 0x20, 0x85, 0xA0, 0x1680, 0x2028, 0x2029, 0x202F, 0x205F, 0x3000].contains c.toNat ||
    (0x2000 ≤ c.toNat && c.toNat ≤ 0x200A)

def trimSpace (text : String) : String :=
  String.ofList ((text.toList.dropWhile isSpace).reverse.dropWhile isSpace).reverse

/-- `strings.TrimRight` with one character. -/
def trimRight (text : String) (c : Char) : String := String.ofList (text.toList.rdropWhile (· = c))

/-- `strings.ToLower`, up to letters that stay outside ASCII. -/
def toLower (text : String) : String :=
  String.ofList (text.toList.map fun c => if c = '\u212A' then 'k' else if c = '\u0130' then 'i' else c.toLower)

/-- `strings.EqualFold`, up to letters that stay outside ASCII. -/
def equalFold (a b : String) : Bool :=
  let fold (c : Char) : Char := if c = '\u212A' then 'k' else if c = '\u017F' then 's' else c.toLower
  a.toList.map fold = b.toList.map fold

/-- `strings.ReplaceAll` of one character. -/
def replaceAll (text : String) (old new : Char) : String :=
  String.ofList (text.toList.map fun c => if c = old then new else c)

/-- `strings.Trim`. -/
def trim (text : String) (cutset : List Char) : String :=
  String.ofList ((text.toList.dropWhile cutset.contains).rdropWhile cutset.contains)

def trimPrefix (text start : String) : String :=
  if hasPrefix text start then String.ofList (text.toList.drop start.length) else text

def trimSuffix (text ending : String) : String :=
  if hasSuffix text ending then String.ofList (text.toList.take (text.length - ending.length)) else text

/-- `strings.Contains`. -/
def contains (text part : String) : Bool := text.toList.tails.any part.toList.isPrefixOf

/-- `strings.Count` of one character. -/
def countOf (text : String) (c : Char) : Nat := text.toList.count c

theorem hasPrefix_append {text start rest : String} (h : hasPrefix text start = true) :
    hasPrefix (text ++ rest) start = true := by
  rw [hasPrefix, List.isPrefixOf_iff_prefix] at h ⊢
  rw [String.toList_append]
  exact h.trans (List.prefix_append _ _)

theorem join_split (text : String) (separator : Char) : join (split text separator) separator = text := by
  rw [join, split, List.map_map]
  have hid : String.toList ∘ String.ofList = id := funext fun _ => String.toList_ofList
  rw [hid, List.map_id, List.intercalate_splitOn, String.ofList_toList]

theorem split_join {parts : List String} {separator : Char} (hne : parts ≠ [])
    (h : ∀ part ∈ parts, separator ∉ part.toList) : split (join parts separator) separator = parts := by
  have hchars : ∀ chars ∈ parts.map String.toList, separator ∉ chars := by
    intro chars hmem
    obtain ⟨part, hpart, rfl⟩ := List.mem_map.1 hmem
    exact h part hpart
  rw [join, split, String.toList_ofList, List.splitOn_intercalate separator hchars (by simpa using hne), List.map_map]
  have hid : String.ofList ∘ String.toList = id := funext fun _ => String.ofList_toList
  rw [hid, List.map_id]

theorem mem_intercalate {α : Type} {a separator : α} {parts : List (List α)} (h : a ∈ [separator].intercalate parts) :
    a = separator ∨ ∃ part ∈ parts, a ∈ part := by
  induction parts with
  | nil => cases h
  | cons part rest ih =>
    cases rest with
    | nil => exact .inr ⟨part, List.mem_cons_self, by rwa [List.intercalate_singleton] at h⟩
    | cons next rest =>
      rw [List.intercalate_cons_cons, List.mem_append, List.mem_append, List.mem_singleton] at h
      rcases h with (hpart | rfl) | hrest
      · exact .inr ⟨part, List.mem_cons_self, hpart⟩
      · exact .inl rfl
      · rcases ih hrest with heq | ⟨part', hpart', ha⟩
        · exact .inl heq
        · exact .inr ⟨part', List.mem_cons_of_mem _ hpart', ha⟩

theorem mem_join {parts : List String} {separator c : Char} (h : c ∈ (join parts separator).toList) :
    c = separator ∨ ∃ part ∈ parts, c ∈ part.toList := by
  rw [join, String.toList_ofList] at h
  rcases mem_intercalate h with heq | ⟨chars, hchars, hc⟩
  · exact .inl heq
  · obtain ⟨part, hpart, rfl⟩ := List.mem_map.1 hchars
    exact .inr ⟨part, hpart, hc⟩

theorem trimSpace_eq_self {text : String} (h : ∀ c ∈ text.toList, isSpace c = false) : trimSpace text = text := by
  have hdrop : ∀ chars : List Char, (∀ c ∈ chars, isSpace c = false) → chars.dropWhile isSpace = chars := by
    intro chars hchars
    cases chars with
    | nil => rfl
    | cons c rest => rw [List.dropWhile_cons_of_neg (by simp [hchars c List.mem_cons_self])]
  rw [trimSpace, hdrop _ h, hdrop _ (by simpa using h), List.reverse_reverse, String.ofList_toList]

theorem trimSpace_toList (text : String) : (trimSpace text).toList = (text.toList.dropWhile isSpace).rdropWhile isSpace := by
  rw [trimSpace, String.toList_ofList, List.rdropWhile]

/-- Trimming again changes nothing. -/
@[simp] theorem trimSpace_trimSpace (text : String) : trimSpace (trimSpace text) = trimSpace text := by
  refine String.toList_injective ?_
  have hfirst : ((text.toList.dropWhile isSpace).rdropWhile isSpace).dropWhile isSpace =
      (text.toList.dropWhile isSpace).rdropWhile isSpace := by
    have hhead := List.dropWhile_eq_self_iff.1 (List.dropWhile_idempotent isSpace text.toList)
    have hstart := List.rdropWhile_prefix isSpace (text.toList.dropWhile isSpace)
    refine List.dropWhile_eq_self_iff.2 fun hlength => ?_
    rw [hstart.getElem hlength]
    exact hhead (Nat.lt_of_lt_of_le hlength hstart.length_le)
  rw [trimSpace_toList, trimSpace_toList, hfirst, List.rdropWhile_idempotent]

/-- The length in bytes of an ASCII text. -/
theorem utf8ByteSize_eq_length {text : String} (h : ∀ c ∈ text.toList, c.utf8Size = 1) :
    text.utf8ByteSize = text.length := by
  have hchars : ∀ chars : List Char, (∀ c ∈ chars, c.utf8Size = 1) → (String.ofList chars).utf8ByteSize = chars.length := by
    intro chars hchars
    induction chars with
    | nil => rfl
    | cons c rest ih =>
      rw [String.ofList_cons, String.utf8ByteSize_append, String.utf8ByteSize_singleton, hchars c List.mem_cons_self,
        ih fun c hc => hchars c (List.mem_cons_of_mem _ hc), List.length_cons, Nat.add_comm]
  have := hchars text.toList h
  rwa [String.ofList_toList] at this

theorem split_injective {a b : String} {separator : Char} (h : split a separator = split b separator) : a = b := by
  rw [← join_split a separator, h, join_split]

theorem split_ne_nil (text : String) (separator : Char) : split text separator ≠ [] := by
  simp [split]

theorem split_of_not_mem {text : String} {separator : Char} (h : separator ∉ text.toList) :
    split text separator = [text] := by
  have : split (join [text] separator) separator = [text] := split_join (List.cons_ne_nil _ _) (by simpa using h)
  rwa [join, List.map_singleton, List.intercalate_singleton, String.ofList_toList] at this

/-! ## `path` and `io/fs` -/

/-- The extension of the last element, with its dot. -/
def pathExt (name : String) : String :=
  let element := name.toList.reverse.takeWhile (· ≠ '/')
  let tail := element.takeWhile (· ≠ '.')
  if tail.length < element.length then String.ofList ('.' :: tail.reverse) else ""

def pathCleanStep (rooted : Bool) (out : List String) (element : String) : List String :=
  if element = "" ∨ element = "." then out
  else if element = ".." then
    match out.getLast? with
    | none => if rooted then [] else [".."]
    | some last => if last = ".." then out ++ [".."] else out.dropLast
  else out ++ [element]

def pathClean (name : String) : String :=
  let rooted := hasPrefix name "/"
  let text := join ((split name '/').foldl (pathCleanStep rooted) []) '/'
  if rooted then "/" ++ text else if text = "" then "." else text

def pathJoin (directory name : String) : String :=
  if directory = "" ∧ name = "" then ""
  else pathClean (if directory = "" then name else if name = "" then directory else directory ++ "/" ++ name)

def pathDir (name : String) : String := pathClean (String.ofList (name.toList.reverse.dropWhile (· ≠ '/')).reverse)

def pathBase (name : String) : String :=
  if name = "" then "."
  else
    let last := (name.toList.reverse.dropWhile (· = '/')).takeWhile (· ≠ '/')
    if last = [] then "/" else String.ofList last.reverse

/-- `fs.ValidPath`. -/
def fsValidPath (name : String) : Bool :=
  name = "." || (split name '/').all fun element => element ≠ "" && element ≠ "." && element ≠ ".."

/-! ## Results -/

theorem bind_ok_inv {ε α β : Type} {action : Except ε α} {next : α → Except ε β} {result : β}
    (h : action >>= next = .ok result) : ∃ value, action = .ok value ∧ next value = .ok result := by
  cases action <;> first | exact ⟨_, rfl, h⟩ | cases h

theorem map_ok_inv {ε α β : Type} {action : Except ε α} {f : α → β} {result : β} (h : action.map f = .ok result) :
    ∃ value, action = .ok value ∧ result = f value := by
  cases action <;> first | exact ⟨_, rfl, (Except.ok.inj h).symm⟩ | cases h

theorem exists_of_mem_mapM {ε α β : Type} {f : α → Except ε β} {l : List α} {l' : List β} (h : l.mapM f = .ok l') {b : β}
    (hb : b ∈ l') : ∃ a ∈ l, f a = .ok b := by
  induction l generalizing l' with
  | nil =>
    cases h
    cases hb
  | cons a rest ih =>
    rw [List.mapM_cons] at h
    obtain ⟨first, hfirst, h⟩ := bind_ok_inv h
    obtain ⟨others, hothers, h⟩ := bind_ok_inv h
    cases h
    rcases List.mem_cons.1 hb with rfl | hb
    · exact ⟨a, List.mem_cons_self, hfirst⟩
    · obtain ⟨a', ha', hb'⟩ := ih hothers hb
      exact ⟨a', List.mem_cons_of_mem _ ha', hb'⟩

theorem map_eq_of_mapM {ε α β γ : Type} {f : α → Except ε β} {l : List α} {l' : List β} (h : l.mapM f = .ok l') {g : α → γ}
    {g' : β → γ} (hg : ∀ a b, f a = .ok b → g' b = g a) : l'.map g' = l.map g := by
  induction l generalizing l' with
  | nil =>
    cases h
    rfl
  | cons a rest ih =>
    rw [List.mapM_cons] at h
    obtain ⟨first, hfirst, h⟩ := bind_ok_inv h
    obtain ⟨others, hothers, h⟩ := bind_ok_inv h
    cases h
    rw [List.map_cons, List.map_cons, hg a first hfirst, ih hothers]

end Tanpopo.Go
