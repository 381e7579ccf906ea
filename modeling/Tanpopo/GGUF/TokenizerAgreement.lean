import Tanpopo.GGUF.Gemma4
import Tanpopo.GGUF.TokenIDs
/-!
# The configuration of a synthesised tokenizer

`hasEmbeddedTokenizer`, `embeddedTokenizerData` and
`embeddedTokenizerConfiguration` each look at the merges and scores of a file.
`same_tokenizer_iff` says for which files they speak of one tokenizer.
-/

namespace Tanpopo.GGUF

open Swift Outcome

/-! ## The configuration -/

def hasEmbeddedTokenizer (metadata : MetadataTable) : Bool :=
  match (metadata "tokenizer.ggml.tokens").bind MetadataValue.arrayValue with
  | none => false
  | some tokens =>
    !tokens.isEmpty && tokens.all (fun token => token.stringValue.isSome) &&
      (((metadata "tokenizer.ggml.merges").bind MetadataValue.arrayValue).isSome ||
        ((metadata "tokenizer.ggml.scores").bind MetadataValue.arrayValue).map List.length = some tokens.length)

variable (unicode : Unicode)

section Metadata
variable (metadata : MetadataTable)

/-- A token of this ID, or nothing. -/
def tokenString (id : Option Int) : Config :=
  match id with
  | none => .string ""
  | some id => .string (if 0 ≤ id then (tokenStrings metadata)[id.toNat]?.getD "" else "")

/-- What `additional_special_tokens` lists. -/
def isAdditional (token : String) (index : Nat) : Bool :=
  some (index : Int) ≠ integer metadata "tokenizer.ggml.eos_token_id" && some (index : Int) ≠ integer metadata "tokenizer.ggml.padding_token_id" &&
    (unicode.hasPrefix token "<|" || unicode.hasPrefix token "<tool" || unicode.hasPrefix token "<think")

def additionalTokens : List String :=
  ((tokenStrings metadata).zipIdx.filter fun item => isAdditional unicode metadata item.1 item.2).map Prod.fst

/-- `isSentencePiece` of the configuration. -/
def isSentencePiece : Bool :=
  tokenizerModel unicode metadata = "llama" && (metadata "tokenizer.ggml.merges").isNone &&
    ((metadata "tokenizer.ggml.scores").bind MetadataValue.arrayValue).isSome

def embeddedTokenizerConfiguration : Outcome LoaderError Config :=
  if tokenStrings metadata = [] then threw .invalidSize
  else
    let isGemma4 := isGemma4Tokenizer unicode metadata
    let isSentencePiece := isSentencePiece unicode metadata
    ok (.dictionary
      ([("tokenizer_class", .string (if isSentencePiece then "XLMRobertaTokenizer" else if isGemma4 then "GemmaTokenizer" else "Qwen2Tokenizer")),
        ("add_bos_token", .boolean (if isGemma4 || isSentencePiece then
          ((metadata "tokenizer.ggml.add_bos_token").bind MetadataValue.booleanValue).getD true else false)),
        ("add_eos_token", .boolean false), ("add_prefix_space", .boolean false), ("clean_up_tokenization_spaces", .boolean false),
        ("eos_token", tokenString metadata (integer metadata "tokenizer.ggml.eos_token_id")),
        ("pad_token", tokenString metadata (integer metadata "tokenizer.ggml.padding_token_id")),
        ("model_max_length", .integer 262144),
        ("additional_special_tokens", .array ((additionalTokens unicode metadata).map .string))] ++
      (if isGemma4 || isSentencePiece then
        [("bos_token", tokenString metadata (integer metadata "tokenizer.ggml.bos_token_id")),
          ("unk_token", tokenString metadata (integer metadata "tokenizer.ggml.unknown_token_id")),
          ("mask_token", tokenString metadata (integer metadata "tokenizer.ggml.mask_token_id")), ("padding_side", .string "left")]
        else []) ++
      match (metadata "tokenizer.chat_template").bind MetadataValue.stringValue with
      | some chatTemplate => [("chat_template", .string chatTemplate)]
      | none => []))

end Metadata

/-! ## One tokenizer -/

inductive TokenizerFamily where
  | byteLevel
  | gemma4
  | sentencePiece
  deriving DecidableEq

/-- The family of a tokenizer's data, as its model and decoder show it. -/
def dataFamily (data : Config) : Option TokenizerFamily :=
  match (data.field "model").bind (·.field "type"), (data.field "decoder").bind (·.field "type") with
  | some (.string model), some (.string decoder) =>
    if model = "Unigram" then some .sentencePiece
    else if model = "BPE" then some (if decoder = "ByteLevel" then .byteLevel else .gemma4)
    else none
  | _, _ => none

def configurationFamily (config : Config) : Option TokenizerFamily :=
  match config.field "tokenizer_class" with
  | some (.string name) =>
    if name = "XLMRobertaTokenizer" then some .sentencePiece
    else if name = "GemmaTokenizer" then some .gemma4
    else if name = "Qwen2Tokenizer" then some .byteLevel
    else none
  | _ => none

/-- The special tokens of a configuration with the keys of their IDs. -/
def specialTokenKeys : List (String × String) :=
  [("eos_token", "tokenizer.ggml.eos_token_id"), ("pad_token", "tokenizer.ggml.padding_token_id"), ("bos_token", "tokenizer.ggml.bos_token_id"),
    ("unk_token", "tokenizer.ggml.unknown_token_id"), ("mask_token", "tokenizer.ggml.mask_token_id")]

/-- Data and configuration are of one family, whose needs are met, and the special tokens are tokens of the data. -/
structure SameTokenizer (metadata : MetadataTable) (data config : Config) : Prop where
  family : ∃ family, dataFamily data = some family ∧ configurationFamily config = some family
  merges : dataFamily data ≠ some .sentencePiece →
    ∃ first rest, (data.field "model").bind (·.field "merges") = some (.array (first :: rest))
  scores : dataFamily data = some .sentencePiece → ∃ items scores,
    (data.field "model").bind (·.field "vocab") = some (.array items) ∧ items.length = (tokenStrings metadata).length ∧
      (metadata "tokenizer.ggml.scores").bind MetadataValue.arrayValue = some scores ∧
      ∀ (i : Nat) item, items[i]? = some item → ∃ name score, item = .array [.string name, .float score] ∧ scores[i]? = some score ∧
        score.isNumber = true
  special : ∀ keys ∈ specialTokenKeys, ∀ id, integer metadata keys.2 = some id → ∀ token, config.field keys.1 = some (.string token) →
    ∃ entry ∈ entries data, entry.2 = id ∧ unicode.same entry.1 token = true
  additional : ∀ tokens, config.field "additional_special_tokens" = some (.array tokens) → ∀ token, .string token ∈ tokens →
    ∃ entry ∈ entries data, unicode.same entry.1 token = true ∧
      ∃ (i : Nat) (own : String), entry.2 = i ∧ (tokenStrings metadata)[i]? = some own ∧ unicode.same own token = true

/-- The IDs that the configuration turns into tokens. -/
def usedIDs (metadata : MetadataTable) : List String :=
  ["tokenizer.ggml.eos_token_id", "tokenizer.ggml.padding_token_id"] ++
    if isGemma4Tokenizer unicode metadata || isSentencePiece unicode metadata then
      ["tokenizer.ggml.bos_token_id", "tokenizer.ggml.unknown_token_id", "tokenizer.ggml.mask_token_id"]
    else []

/-- A token that equals this one has its ID in the data: it is added, or it is in the vocabulary under its own name. -/
def HasEntry (metadata : MetadataTable) (token : String) : Prop :=
  ∃ (i : Nat) (own : String), (tokenStrings metadata)[i]? = some own ∧ unicode.same own token = true ∧
    (isAdded metadata i = true ∨
      if isSentencePieceTokenizer unicode metadata then
        ∃ name, (uniqueTokens unicode (tokenStrings metadata))[i]? = some name ∧ unicode.same name token = true
      else isNormal metadata i = true)

/-- What a file has to list for one tokenizer. -/
structure OneTokenizer (metadata : MetadataTable) : Prop where
  family : mergeStrings metadata ≠ [] ∨ tokenizerModel unicode metadata = "llama" ∧ metadata "tokenizer.ggml.merges" = none ∧
    ∀ score ∈ arrayOf metadata "tokenizer.ggml.scores", score.isNumber = true
  special : ∀ key ∈ usedIDs unicode metadata, ∀ id, integer metadata key = some id → 0 ≤ id ∧ id < (tokenStrings metadata).length
  additional : ∀ token ∈ additionalTokens unicode metadata, HasEntry unicode metadata token

/-! ## Fields -/

section
variable {unicode : Unicode} {metadata : MetadataTable} {data config : Config}

/-- The family of the data, as the file asks for it. -/
def familyOfData (unicode : Unicode) (metadata : MetadataTable) : TokenizerFamily :=
  if isGemma4Tokenizer unicode metadata then .gemma4
  else if isSentencePieceTokenizer unicode metadata then .sentencePiece else .byteLevel

theorem dataFamily_eq (h : embeddedTokenizerData unicode metadata = ok data) : dataFamily data = some (familyOfData unicode metadata) := by
  unfold embeddedTokenizerData at h
  unfold familyOfData
  split_ifs at h ⊢ <;> cases h <;> rfl

theorem configurationFamily_eq (h : embeddedTokenizerConfiguration unicode metadata = ok config) : configurationFamily config =
    some (if isSentencePiece unicode metadata then .sentencePiece else if isGemma4Tokenizer unicode metadata then .gemma4 else .byteLevel) := by
  unfold embeddedTokenizerConfiguration at h
  split_ifs at h with hnone
  cases h
  show configurationFamily (.dictionary ((_, .string _) :: _)) = _
  split_ifs <;> rfl

/-- A SentencePiece file is no Gemma 4 file. -/
theorem not_gemma4 (h : tokenizerModel unicode metadata = "llama") : isGemma4Tokenizer unicode metadata = false := by
  rw [isGemma4Tokenizer, h]
  rfl

theorem special_field (h : embeddedTokenizerConfiguration unicode metadata = ok config) {keys : String × String} (hkeys : keys ∈ specialTokenKeys) :
    config.field keys.1 =
      if keys.2 ∈ usedIDs unicode metadata then some (tokenString metadata (integer metadata keys.2)) else none := by
  unfold embeddedTokenizerConfiguration at h
  split_ifs at h with hnone
  cases h
  unfold usedIDs
  cases hwith : isGemma4Tokenizer unicode metadata || isSentencePiece unicode metadata
  all_goals
    simp only [specialTokenKeys, List.mem_cons, List.not_mem_nil, or_false] at hkeys
    cases (metadata "tokenizer.chat_template").bind MetadataValue.stringValue
    all_goals rcases hkeys with rfl | rfl | rfl | rfl | rfl <;> rfl

theorem additional_field (h : embeddedTokenizerConfiguration unicode metadata = ok config) :
    config.field "additional_special_tokens" = some (.array ((additionalTokens unicode metadata).map .string)) := by
  unfold embeddedTokenizerConfiguration at h
  split_ifs at h with hnone
  cases h
  rfl

/-! ## Entries of the data -/

theorem exists_mem_assign {start : List (String × Nat)} {item first : String × Nat} (h : item ∈ start ∨ item = first) :
    ∃ kept ∈ assign unicode start first.1 first.2, unicode.same kept.1 item.1 = true := by
  unfold assign
  split_ifs with hany
  · obtain ⟨old, hold, hsame⟩ : ∃ old ∈ start, unicode.same old.1 item.1 = true := by
      rcases h with h | rfl
      · exact ⟨item, h, same_refl _⟩
      · exact List.any_eq_true.1 hany
    refine ⟨_, List.mem_map_of_mem hold, ?_⟩
    split_ifs <;> exact hsame
  · rcases h with h | rfl
    · exact ⟨item, List.mem_append_left _ h, same_refl _⟩
    · exact ⟨item, by simp, same_refl _⟩

/-- No name is lost. -/
theorem exists_mem_foldl {items start : List (String × Nat)} {item : String × Nat} (h : item ∈ start ++ items) :
    ∃ pair ∈ items.foldl (fun result item => assign unicode result item.1 item.2) start, unicode.same pair.1 item.1 = true := by
  induction items generalizing start item with
  | nil => exact ⟨item, by simpa using h, same_refl _⟩
  | cons first rest ih =>
    have hkept : ∃ kept ∈ assign unicode start first.1 first.2 ++ rest, unicode.same kept.1 item.1 = true := by
      rcases List.mem_append.1 h with hold | hitem
      · obtain ⟨kept, hkept, hsame⟩ := exists_mem_assign (Or.inl hold : item ∈ start ∨ item = first)
        exact ⟨kept, List.mem_append_left _ hkept, hsame⟩
      · rcases List.mem_cons.1 hitem with hfirst | hrest
        · obtain ⟨kept, hkept, hsame⟩ := exists_mem_assign (Or.inr hfirst : item ∈ start ∨ item = first)
          exact ⟨kept, List.mem_append_left _ hkept, hsame⟩
        · exact ⟨item, List.mem_append_right _ hrest, same_refl _⟩
    obtain ⟨kept, hkept, hsame⟩ := hkept
    obtain ⟨pair, hpair, hsame'⟩ := ih hkept
    exact ⟨pair, hpair, same_trans hsame' hsame⟩

/-- The entries of the data: those of the vocabulary, and the added tokens. -/
theorem entries_eq (h : embeddedTokenizerData unicode metadata = ok data) :
    entries data = (if isSentencePieceTokenizer unicode metadata then (uniqueTokens unicode (tokenStrings metadata)).zipIdx
      else vocabulary unicode metadata).map entryOf ++ (addedItems metadata).map entryOf := by
  unfold embeddedTokenizerData at h
  split_ifs at h with hnone hgemma hpiece <;> cases h
  · rw [entries_gemma4, if_neg]
    intro hpiece
    simp only [isSentencePieceTokenizer, Bool.and_eq_true, decide_eq_true_eq] at hpiece
    rw [not_gemma4 hpiece.1.1] at hgemma
    cases hgemma
  · rw [if_pos hpiece, entries_sentencePiece]
    simp only [isSentencePieceTokenizer, Bool.and_eq_true, decide_eq_true_eq] at hpiece
    rw [hpiece.2, length_uniqueTokens]
  · rw [if_neg hpiece, entries_byteLevel]

theorem added_mem_entries (h : embeddedTokenizerData unicode metadata = ok data) {i : Nat} {token : String}
    (htoken : (tokenStrings metadata)[i]? = some token) (hadded : isAdded metadata i = true) : (token, (i : Int)) ∈ entries data := by
  rw [entries_eq h]
  exact List.mem_append_right _ (List.mem_map.2 ⟨(token, i), mem_addedItems.2 ⟨htoken, hadded⟩, rfl⟩)

/-- An entry is of an added token, or the vocabulary has it from a token. -/
theorem origin_of_mem_entries (h : embeddedTokenizerData unicode metadata = ok data) {entry : String × Int} (hentry : entry ∈ entries data) :
    ∃ (i : Nat) (own : String), entry.2 = i ∧ (tokenStrings metadata)[i]? = some own ∧
      (isAdded metadata i = true ∧ own = entry.1 ∨
        if isSentencePieceTokenizer unicode metadata then (uniqueTokens unicode (tokenStrings metadata))[i]? = some entry.1
        else isNormal metadata i = true ∧ unicode.same own entry.1 = true) := by
  rw [entries_eq h, List.mem_append, List.mem_map, List.mem_map] at hentry
  rcases hentry with ⟨pair, hpair, rfl⟩ | ⟨item, hitem, rfl⟩
  · split_ifs at hpair ⊢ with hpiece
    · have hname := List.mem_zipIdx_iff_getElem?.1 hpair
      have hlt : pair.2 < (tokenStrings metadata).length := by
        simpa using (List.getElem?_eq_some_iff.1 hname).1
      exact ⟨pair.2, _, rfl, List.getElem?_eq_getElem hlt, Or.inr hname⟩
    · obtain ⟨item, hitem, hvalue, hsame⟩ := origin_of_mem_foldl hpair
      obtain ⟨htoken, hnormal⟩ := mem_normalTokens.1 (by simpa using hitem)
      exact ⟨item.2, item.1, by rw [hvalue]; rfl, htoken, Or.inr ⟨hnormal, hsame⟩⟩
  · obtain ⟨htoken, hadded⟩ := mem_addedItems.1 hitem
    exact ⟨item.2, item.1, rfl, htoken, Or.inl ⟨hadded, rfl⟩⟩

theorem hasEntry_iff (h : embeddedTokenizerData unicode metadata = ok data) {token : String} :
    (∃ entry ∈ entries data, unicode.same entry.1 token = true ∧
      ∃ (i : Nat) (own : String), entry.2 = i ∧ (tokenStrings metadata)[i]? = some own ∧ unicode.same own token = true) ↔
      HasEntry unicode metadata token := by
  constructor
  · rintro ⟨entry, hentry, hsame, i, own, hi, hown, hsame'⟩
    obtain ⟨i', own', hi', hown', horigin⟩ := origin_of_mem_entries h hentry
    obtain rfl : i = i' := by omega
    obtain rfl := Option.some.inj (hown.symm.trans hown')
    refine ⟨i, own, hown, hsame', horigin.imp And.left fun horigin => ?_⟩
    split_ifs at horigin ⊢
    · exact ⟨entry.1, horigin, hsame⟩
    · exact horigin.1
  · rintro ⟨i, own, hown, hsame, hadded | hvocabulary⟩
    · exact ⟨(own, i), added_mem_entries h hown hadded, hsame, i, own, rfl, hown, hsame⟩
    · rw [entries_eq h]
      split_ifs at hvocabulary ⊢
      · obtain ⟨name, hname, hsame'⟩ := hvocabulary
        exact ⟨(name, i), List.mem_append_left _ (List.mem_map.2 ⟨(name, i), List.mem_zipIdx_iff_getElem?.2 hname, rfl⟩), hsame', i, own,
          rfl, hown, hsame⟩
      · -- The vocabulary may keep the name under the ID of a later token of the same name.
        have hitem : (own, i) ∈ [] ++ normalTokens metadata := mem_normalTokens.2 ⟨hown, hvocabulary⟩
        obtain ⟨pair, hpair, hname⟩ := exists_mem_foldl hitem
        obtain ⟨item, hitem', hvalue, hsame'⟩ := origin_of_mem_foldl hpair
        have hpairSame : unicode.same pair.1 token = true := same_trans hname hsame
        refine ⟨entryOf pair, List.mem_append_left _ (List.mem_map_of_mem hpair), hpairSame, item.2, item.1, ?_,
          (mem_normalTokens.1 (by simpa using hitem')).1, same_trans hsame' hpairSame⟩
        rw [hvalue]
        rfl

/-! ## Special tokens -/

theorem isAdded_of_specialID {i : Nat} (h : (i : Int) ∈ specialIDs metadata) : isAdded metadata i = true := by
  have hcontains : (specialIDs metadata).contains (i : Int) = true := by simpa using h
  unfold isAdded
  split
  · exact hcontains
  · rw [hcontains, Bool.or_true]

theorem specialID_of_key {keys : String × String} (hkeys : keys ∈ specialTokenKeys) {id : Int} (h : integer metadata keys.2 = some id) :
    id ∈ specialIDs metadata := by
  refine List.mem_filterMap.2 ⟨keys.2, ?_, h⟩
  simp only [specialTokenKeys, List.mem_cons, List.not_mem_nil, or_false] at hkeys
  rcases hkeys with rfl | rfl | rfl | rfl | rfl <;> simp

theorem key_of_usedID {key : String} (h : key ∈ usedIDs unicode metadata) : ∃ keys ∈ specialTokenKeys, keys.2 = key := by
  have hall : ∀ key ∈ usedIDs unicode metadata, key ∈ specialTokenKeys.map Prod.snd := by
    unfold usedIDs
    split <;> decide +kernel
  obtain ⟨keys, hkeys, rfl⟩ := List.mem_map.1 (hall key h)
  exact ⟨keys, hkeys, rfl⟩

theorem special_iff (hdata : embeddedTokenizerData unicode metadata = ok data)
    (hconfig : embeddedTokenizerConfiguration unicode metadata = ok config) :
    (∀ keys ∈ specialTokenKeys, ∀ id, integer metadata keys.2 = some id → ∀ token, config.field keys.1 = some (.string token) →
      ∃ entry ∈ entries data, entry.2 = id ∧ unicode.same entry.1 token = true) ↔
    ∀ key ∈ usedIDs unicode metadata, ∀ id, integer metadata key = some id → 0 ≤ id ∧ id < (tokenStrings metadata).length := by
  constructor
  · intro h key hkey id hid
    obtain ⟨keys, hkeys, rfl⟩ := key_of_usedID hkey
    have hfield := special_field hconfig hkeys
    rw [if_pos hkey, hid] at hfield
    obtain ⟨entry, hentry, hentryID, -⟩ := h keys hkeys id hid _ hfield
    obtain ⟨i, own, hi, hown, -⟩ := origin_of_mem_entries hdata hentry
    have hlt := (List.getElem?_eq_some_iff.1 hown).1
    omega
  · intro h keys hkeys id hid token htoken
    rw [special_field hconfig hkeys] at htoken
    split_ifs at htoken with hkey
    obtain ⟨hpos, hlt⟩ := h _ hkey id hid
    obtain ⟨i, rfl⟩ := Int.eq_ofNat_of_zero_le hpos
    have hi : i < (tokenStrings metadata).length := by omega
    have hown := List.getElem?_eq_getElem hi
    rw [hid, tokenString, if_pos hpos, Int.toNat_natCast, hown, Option.getD_some] at htoken
    cases htoken
    exact ⟨_, added_mem_entries hdata hown (isAdded_of_specialID (specialID_of_key hkeys hid)), rfl, same_refl _⟩

theorem additional_iff (hdata : embeddedTokenizerData unicode metadata = ok data)
    (hconfig : embeddedTokenizerConfiguration unicode metadata = ok config) :
    (∀ tokens, config.field "additional_special_tokens" = some (.array tokens) → ∀ token, .string token ∈ tokens →
      ∃ entry ∈ entries data, unicode.same entry.1 token = true ∧
        ∃ (i : Nat) (own : String), entry.2 = i ∧ (tokenStrings metadata)[i]? = some own ∧ unicode.same own token = true) ↔
    ∀ token ∈ additionalTokens unicode metadata, HasEntry unicode metadata token := by
  rw [additional_field hconfig]
  constructor
  · intro h token htoken
    exact (hasEntry_iff hdata).1 (h _ rfl token (List.mem_map_of_mem htoken))
  · intro h tokens htokens token htoken
    cases htokens
    obtain ⟨given, hgiven, heq⟩ := List.mem_map.1 htoken
    cases heq
    exact (hasEntry_iff hdata).2 (h _ hgiven)

/-! ## Families -/

/-- The tokens are all there, and so are merges or a score for each. -/
theorem of_hasEmbeddedTokenizer (h : hasEmbeddedTokenizer metadata = true) :
    tokenStrings metadata ≠ [] ∧ (metadata "tokenizer.ggml.merges" = none → ∃ scores,
      (metadata "tokenizer.ggml.scores").bind MetadataValue.arrayValue = some scores ∧ scores.length = (tokenStrings metadata).length) := by
  unfold hasEmbeddedTokenizer at h
  split at h
  · cases h
  · rename_i tokens htokens
    simp only [Bool.and_eq_true, Bool.or_eq_true, decide_eq_true_eq, List.all_eq_true] at h
    obtain ⟨⟨hnone, hall⟩, hneeds⟩ := h
    have hlength : (tokenStrings metadata).length = tokens.length := by
      rw [tokenStrings, arrayOf, htokens, Option.getD_some, List.length_filterMap_eq_countP]
      exact List.countP_eq_length.2 hall
    constructor
    · intro hempty
      rw [hempty] at hlength
      simp [List.length_eq_zero_iff.1 hlength.symm] at hnone
    · intro hmerges
      rw [hmerges] at hneeds
      obtain ⟨scores, hscores, hcount⟩ := Option.map_eq_some_iff.1 (hneeds.resolve_left (by simp))
      exact ⟨scores, hscores, hcount.trans hlength.symm⟩

theorem merges_field (hdata : embeddedTokenizerData unicode metadata = ok data) (h : familyOfData unicode metadata ≠ .sentencePiece) :
    (data.field "model").bind (·.field "merges") = some (.array ((mergeStrings metadata).map .string)) := by
  unfold embeddedTokenizerData at hdata
  unfold familyOfData at h
  split_ifs at hdata h
  all_goals first | cases hdata; rfl | exact absurd rfl h

theorem vocab_field (hdata : embeddedTokenizerData unicode metadata = ok data) (h : familyOfData unicode metadata = .sentencePiece) :
    (data.field "model").bind (·.field "vocab") = some (.array
      (((uniqueTokens unicode (tokenStrings metadata)).zip (tokenScores metadata)).map fun item => .array [.string item.1, .float item.2])) := by
  unfold embeddedTokenizerData at hdata
  unfold familyOfData at h
  split_ifs at hdata h
  cases hdata
  rfl

theorem isSentencePieceTokenizer_iff : isSentencePieceTokenizer unicode metadata = true ↔
    tokenizerModel unicode metadata = "llama" ∧ mergeStrings metadata = [] ∧ (tokenScores metadata).length = (tokenStrings metadata).length := by
  simp [isSentencePieceTokenizer, and_assoc]

theorem familyOfData_sentencePiece_iff : familyOfData unicode metadata = .sentencePiece ↔ isSentencePieceTokenizer unicode metadata = true := by
  unfold familyOfData
  constructor
  · intro h
    split_ifs at h with hgemma hpiece
    exact hpiece
  · intro h
    rw [if_neg, if_pos h]
    rw [not_gemma4 (isSentencePieceTokenizer_iff.1 h).1]
    exact Bool.false_ne_true

/-- `isSentencePiece` for a file that has a tokenizer. -/
theorem isSentencePiece_iff (h : hasEmbeddedTokenizer metadata = true) : isSentencePiece unicode metadata = true ↔
    tokenizerModel unicode metadata = "llama" ∧ metadata "tokenizer.ggml.merges" = none := by
  simp only [isSentencePiece, Bool.and_eq_true, decide_eq_true_eq, Option.isNone_iff_eq_none, and_iff_left_iff_imp]
  rintro ⟨-, hmerges⟩
  obtain ⟨scores, hscores, -⟩ := (of_hasEmbeddedTokenizer h).2 hmerges
  rw [hscores]
  rfl

/-- Where no merges are given, the data has scores exactly where every score is a number. -/
theorem scores_iff (h : hasEmbeddedTokenizer metadata = true) (hmerges : metadata "tokenizer.ggml.merges" = none) :
    (tokenScores metadata).length = (tokenStrings metadata).length ↔
      ∀ score ∈ arrayOf metadata "tokenizer.ggml.scores", score.isNumber = true := by
  obtain ⟨scores, hscores, hlength⟩ := (of_hasEmbeddedTokenizer h).2 hmerges
  rw [tokenScores, arrayOf, hscores, Option.getD_some, ← hlength, List.length_filter_eq_length_iff]

theorem family_iff (h : hasEmbeddedTokenizer metadata = true) (hdata : embeddedTokenizerData unicode metadata = ok data)
    (hconfig : embeddedTokenizerConfiguration unicode metadata = ok config) :
    (∃ family, dataFamily data = some family ∧ configurationFamily config = some family) ↔
      (isSentencePieceTokenizer unicode metadata = true ↔ isSentencePiece unicode metadata = true) := by
  have hpiece : isSentencePieceTokenizer unicode metadata = true → isGemma4Tokenizer unicode metadata = false :=
    fun h' => not_gemma4 (isSentencePieceTokenizer_iff.1 h').1
  have hclass : isSentencePiece unicode metadata = true → isGemma4Tokenizer unicode metadata = false :=
    fun h' => not_gemma4 ((isSentencePiece_iff h).1 h').1
  rw [dataFamily_eq hdata, configurationFamily_eq hconfig, familyOfData]
  cases hg : isGemma4Tokenizer unicode metadata <;> cases hp : isSentencePieceTokenizer unicode metadata <;>
    cases hc : isSentencePiece unicode metadata <;> simp_all

/-- Tokens are all that the two functions ask for. -/
theorem both_succeed (unicode : Unicode) (h : tokenStrings metadata ≠ []) : ∃ data config,
    embeddedTokenizerData unicode metadata = ok data ∧ embeddedTokenizerConfiguration unicode metadata = ok config := by
  unfold embeddedTokenizerData embeddedTokenizerConfiguration
  rw [if_neg h, if_neg h]
  split_ifs <;> exact ⟨_, _, rfl, rfl⟩

/-- Both functions choose one family for a file with merges, and for a llama file whose scores are numbers. -/
theorem choices_agree (h : hasEmbeddedTokenizer metadata = true) (hfamily : mergeStrings metadata ≠ [] ∨
      tokenizerModel unicode metadata = "llama" ∧ metadata "tokenizer.ggml.merges" = none ∧
        ∀ score ∈ arrayOf metadata "tokenizer.ggml.scores", score.isNumber = true) :
    isSentencePieceTokenizer unicode metadata = true ↔ isSentencePiece unicode metadata = true := by
  rw [isSentencePieceTokenizer_iff, isSentencePiece_iff h]
  rcases hfamily with hmerges | ⟨hmodel, hmerges, hall⟩
  · have hsome : metadata "tokenizer.ggml.merges" ≠ none := by
      intro hmissing
      simp [mergeStrings, arrayOf, hmissing] at hmerges
    simp [hmerges, hsome]
  · have hempty : mergeStrings metadata = [] := by simp [mergeStrings, arrayOf, hmerges]
    simp [hmodel, hmerges, hempty, (scores_iff h hmerges).2 hall]

/-- A SentencePiece vocabulary has an item for every token, with the score of that token. -/
theorem vocab_scored (h : hasEmbeddedTokenizer metadata = true) (hdata : embeddedTokenizerData unicode metadata = ok data)
    (hfamily : familyOfData unicode metadata = .sentencePiece) (hmerges : metadata "tokenizer.ggml.merges" = none) : ∃ items scores,
      (data.field "model").bind (·.field "vocab") = some (.array items) ∧ items.length = (tokenStrings metadata).length ∧
        (metadata "tokenizer.ggml.scores").bind MetadataValue.arrayValue = some scores ∧
        ∀ (i : Nat) item, items[i]? = some item → ∃ name score, item = .array [.string name, .float score] ∧ scores[i]? = some score ∧
          score.isNumber = true := by
  obtain ⟨-, -, hcount⟩ := isSentencePieceTokenizer_iff.1 (familyOfData_sentencePiece_iff.1 hfamily)
  obtain ⟨scores, hlisted, hlength⟩ := (of_hasEmbeddedTokenizer h).2 hmerges
  have hall := (scores_iff h hmerges).1 hcount
  -- All scores are numbers, so none was left out.
  have hkept : tokenScores metadata = scores := by
    rw [arrayOf, hlisted, Option.getD_some] at hall
    rw [tokenScores, arrayOf, hlisted, Option.getD_some]
    exact List.filter_eq_self.2 hall
  refine ⟨_, scores, vocab_field hdata hfamily, ?_, hlisted, fun i item hitem => ?_⟩
  · rw [List.length_map, List.length_zip, length_uniqueTokens, hcount, Nat.min_self]
  · rw [List.getElem?_map] at hitem
    obtain ⟨⟨name, score⟩, hpair, rfl⟩ := Option.map_eq_some_iff.1 hitem
    obtain ⟨-, hscore⟩ := List.getElem?_zip_eq_some.1 hpair
    rw [hkept] at hscore
    exact ⟨name, score, rfl, hscore, hall score (by rw [arrayOf, hlisted]; exact List.mem_of_getElem? hscore)⟩

end

/-! ## For which files -/

/-- Both functions succeed for every file that has a tokenizer, and speak of one tokenizer exactly where the file lists a merge or
is a llama file without merges whose scores are all numbers, and its special tokens are tokens of the data. -/
theorem same_tokenizer_iff (unicode : Unicode) (metadata : MetadataTable) (h : hasEmbeddedTokenizer metadata = true) :
    ∃ data config, embeddedTokenizerData unicode metadata = ok data ∧ embeddedTokenizerConfiguration unicode metadata = ok config ∧
      (SameTokenizer unicode metadata data config ↔ OneTokenizer unicode metadata) := by
  obtain ⟨data, config, hdata, hconfig⟩ := both_succeed unicode (of_hasEmbeddedTokenizer h).1
  refine ⟨data, config, hdata, hconfig, fun same => ⟨?_, (special_iff hdata hconfig).1 same.special, (additional_iff hdata hconfig).1 same.additional⟩,
    fun one => ?_⟩
  · have hagree := (family_iff h hdata hconfig).1 same.family
    by_cases hpiece : isSentencePieceTokenizer unicode metadata = true
    · obtain ⟨hmodel, hmerges⟩ := (isSentencePiece_iff h).1 (hagree.1 hpiece)
      exact Or.inr ⟨hmodel, hmerges, (scores_iff h hmerges).1 (isSentencePieceTokenizer_iff.1 hpiece).2.2⟩
    · have hother : familyOfData unicode metadata ≠ .sentencePiece := familyOfData_sentencePiece_iff.not.2 hpiece
      obtain ⟨first, rest, hfield⟩ := same.merges (by rw [dataFamily_eq hdata]; simpa using hother)
      rw [merges_field hdata hother] at hfield
      refine Or.inl fun hempty => ?_
      rw [hempty] at hfield
      cases hfield
  · have hagree := choices_agree h one.family
    constructor
    · exact (family_iff h hdata hconfig).2 hagree
    · intro hother
      rw [dataFamily_eq hdata, ne_eq, Option.some.injEq] at hother
      rw [merges_field hdata hother]
      have hlisted : mergeStrings metadata ≠ [] := by
        refine one.family.resolve_right fun hmodel => hother ?_
        rw [familyOfData_sentencePiece_iff, hagree, isSentencePiece_iff h]
        exact ⟨hmodel.1, hmodel.2.1⟩
      obtain ⟨first, rest, hcons⟩ := List.exists_cons_of_ne_nil hlisted
      exact ⟨.string first, rest.map .string, by rw [hcons]; rfl⟩
    · intro hfamily
      rw [dataFamily_eq hdata, Option.some.injEq] at hfamily
      have hpiece := familyOfData_sentencePiece_iff.1 hfamily
      exact vocab_scored h hdata hfamily ((isSentencePiece_iff h).1 (hagree.1 hpiece)).2
    · exact (special_iff hdata hconfig).2 one.special
    · exact (additional_iff hdata hconfig).2 one.additional

/-- A file of which each key is given once. -/
def tableOf (pairs : List (String × MetadataValue)) : MetadataTable := fun key => pairs.lookup key

def bpeTable : MetadataTable := tableOf
  [("tokenizer.ggml.model", .string "gpt2"), ("tokenizer.ggml.tokens", .array [.string "a", .string "<|end|>"]),
    ("tokenizer.ggml.token_type", .array [.int32 1, .int32 3]), ("tokenizer.ggml.merges", .array [.string "a a"]),
    ("tokenizer.ggml.eos_token_id", .uint32 1)]

theorem bpe_same_tokenizer : ∃ data config, embeddedTokenizerData asciiUnicode bpeTable = ok data ∧
    embeddedTokenizerConfiguration asciiUnicode bpeTable = ok config ∧ SameTokenizer asciiUnicode bpeTable data config := by
  obtain ⟨data, config, hdata, hconfig, hiff⟩ := same_tokenizer_iff asciiUnicode bpeTable (by decide +kernel)
  refine ⟨data, config, hdata, hconfig, hiff.2 ⟨Or.inl (by decide +kernel), ?_, ?_⟩⟩
  · have hids : ∀ key ∈ usedIDs asciiUnicode bpeTable, ∀ id ∈ integer bpeTable key, 0 ≤ id ∧ id < (tokenStrings bpeTable).length := by
      decide +kernel
    exact hids
  · have hempty : additionalTokens asciiUnicode bpeTable = [] := by decide +kernel
    rw [hempty]
    exact nofun

/-- A llama file whose merges are an empty array: the data is of SentencePiece and the configuration of byte-level BPE. -/
def emptyMerges : MetadataTable := tableOf
  [("tokenizer.ggml.model", .string "llama"), ("tokenizer.ggml.tokens", .array [.string "a"]),
    ("tokenizer.ggml.token_type", .array [.int32 1]), ("tokenizer.ggml.merges", .array []),
    ("tokenizer.ggml.scores", .array [.float32 0])]

theorem emptyMerges_differ : hasEmbeddedTokenizer emptyMerges = true ∧
    ∃ data config, embeddedTokenizerData asciiUnicode emptyMerges = ok data ∧ embeddedTokenizerConfiguration asciiUnicode emptyMerges = ok config ∧
      dataFamily data = some .sentencePiece ∧ configurationFamily config = some .byteLevel ∧
        ¬ SameTokenizer asciiUnicode emptyMerges data config := by
  obtain ⟨data, config, hdata, hconfig⟩ := both_succeed asciiUnicode (show tokenStrings emptyMerges ≠ [] by decide +kernel)
  have hfamily : dataFamily data = some .sentencePiece := by
    rw [dataFamily_eq hdata]
    decide +kernel
  have hclass : configurationFamily config = some .byteLevel := by
    rw [configurationFamily_eq hconfig]
    decide +kernel
  refine ⟨by decide +kernel, data, config, hdata, hconfig, hfamily, hclass, fun same => ?_⟩
  obtain ⟨family, hleft, hright⟩ := same.family
  rw [hfamily] at hleft
  rw [hclass, ← hleft] at hright
  cases hright

end Tanpopo.GGUF
