import Tanpopo.GGUF.Tokenizer
import Mathlib.Data.List.Induction
import Mathlib.Data.List.Nodup
import Mathlib.Data.List.Perm.Subperm
/-!
# The IDs of a synthesised tokenizer

`entries` lists the strings that a tokenizer's data maps to IDs. The BPE
tokenizers keep the IDs of the model when no token is left out and no two are
equal for Swift; the SentencePiece one renames equal tokens, and keeps the IDs
when no added token is renamed.
-/

namespace Tanpopo.GGUF

open Swift Outcome

/-! ## Entries -/

def Config.field : Config → String → Option Config
  | .dictionary pairs, key => (pairs.find? fun pair => pair.1 = key).map (·.2)
  | _, _ => none

def integerEntry : String × Config → Option (String × Int)
  | (token, .integer id) => some (token, id)
  | _ => none

def positionEntry : Config × Nat → Option (String × Int)
  | (.array (.string token :: _), id) => some (token, id)
  | _ => none

def addedEntry (item : Config) : Option (String × Int) :=
  match item.field "content", item.field "id" with
  | some (.string token), some (.integer id) => some (token, id)
  | _, _ => none

/-- The model's vocabulary: a dictionary, or a list whose positions are the IDs. -/
def vocabularyEntries (config : Config) : List (String × Int) :=
  match (config.field "model").bind (·.field "vocab") with
  | some (.dictionary pairs) => pairs.filterMap integerEntry
  | some (.array items) => items.zipIdx.filterMap positionEntry
  | _ => []

def addedEntries (config : Config) : List (String × Int) :=
  match config.field "added_tokens" with
  | some (.array items) => items.filterMap addedEntry
  | _ => []

def entries (config : Config) : List (String × Int) := vocabularyEntries config ++ addedEntries config

def withoutMarker (token : String) : String := String.ofList (token.toList.filter (· ≠ duplicateMarker))

/-- Every token has its ID, compared by `shown`, and no string has two. -/
structure PreservesIDs (unicode : Unicode) (shown : String → String) (tokens : List String) (config : Config) : Prop where
  mapped : ∀ (i : Nat) (token : String), tokens[i]? = some token →
    ∃ entry ∈ entries config, entry.2 = i ∧ unicode.same (shown entry.1) (shown token) = true
  functional : ∀ a ∈ entries config, ∀ b ∈ entries config, unicode.same a.1 b.1 = true → a.2 = b.2

/-- A pair of the model as the entry that it becomes. -/
def entryOf (item : String × Nat) : String × Int := (item.1, item.2)

variable {unicode : Unicode} {metadata : MetadataTable} {merges : List String}

@[simp] theorem same_refl (token : String) : unicode.same token token = true := decide_eq_true rfl

theorem same_symm {a b : String} (h : unicode.same a b = true) : unicode.same b a = true :=
  decide_eq_true (of_decide_eq_true h).symm

theorem same_trans {a b c : String} (h : unicode.same a b = true) (h' : unicode.same b c = true) : unicode.same a c = true :=
  decide_eq_true ((of_decide_eq_true h).trans (of_decide_eq_true h'))

theorem filterMap_addedTokens (unicode : Unicode) (metadata : MetadataTable) :
    (addedTokens unicode metadata).filterMap addedEntry = (addedItems metadata).map entryOf := by
  rw [addedTokens, List.filterMap_map, ← List.filterMap_eq_map]
  rfl

theorem filterMap_vocabulary (pairs : List (String × Nat)) :
    (pairs.map fun pair => (pair.1, Config.integer pair.2)).filterMap integerEntry = pairs.map entryOf := by
  rw [List.filterMap_map, ← List.filterMap_eq_map]
  rfl

theorem entries_gemma4 (pairs : List (String × Nat)) :
    entries (gemma4TokenizerData pairs merges (addedTokens unicode metadata)) =
      pairs.map entryOf ++ (addedItems metadata).map entryOf := by
  rw [← filterMap_vocabulary, ← filterMap_addedTokens unicode]
  rfl

theorem entries_byteLevel (pairs : List (String × Nat)) :
    entries (byteLevelTokenizerData pairs merges (addedTokens unicode metadata)) =
      pairs.map entryOf ++ (addedItems metadata).map entryOf := by
  rw [← filterMap_vocabulary, ← filterMap_addedTokens unicode]
  rfl

/-- The item at a position is that of the token, up to the last score. -/
theorem filterMap_positions (tokens : List String) (scores : List MetadataValue) (start : Nat) :
    (((tokens.zip scores).map fun item => Config.array [.string item.1, .float item.2]).zipIdx start).filterMap positionEntry =
      ((tokens.zipIdx start).map entryOf).take scores.length := by
  induction tokens generalizing scores start with
  | nil => simp
  | cons token rest ih =>
    cases scores with
    | nil => simp
    | cons score scores =>
      rw [List.zip_cons_cons, List.map_cons, List.zipIdx_cons, List.zipIdx_cons, List.map_cons, List.filterMap_cons, ih]
      rfl

theorem entries_sentencePiece {tokens : List String} {scores : List MetadataValue} {unknownTokenID : Int}
    (h : scores.length = (uniqueTokens unicode tokens).length) :
    entries (sentencePieceTokenizerData unicode tokens scores (addedTokens unicode metadata) unknownTokenID) =
      (uniqueTokens unicode tokens).zipIdx.map entryOf ++ (addedItems metadata).map entryOf := by
  have hall : ((uniqueTokens unicode tokens).zipIdx.map entryOf).take scores.length = (uniqueTokens unicode tokens).zipIdx.map entryOf := by
    apply List.take_of_length_le
    simp [h]
  rw [← hall, ← filterMap_positions _ scores 0, ← filterMap_addedTokens unicode]
  rfl

/-! ## BPE tokenizers -/

theorem mem_normalTokens {item : String × Nat} :
    item ∈ normalTokens metadata ↔ (tokenStrings metadata)[item.2]? = some item.1 ∧ isNormal metadata item.2 = true := by
  rw [normalTokens, List.mem_filter, List.mem_zipIdx_iff_getElem?]

theorem mem_addedItems {item : String × Nat} :
    item ∈ addedItems metadata ↔ (tokenStrings metadata)[item.2]? = some item.1 ∧ isAdded metadata item.2 = true := by
  rw [addedItems, List.mem_filter, List.mem_zipIdx_iff_getElem?]

/-- What the vocabulary maps to an ID is a normal token with an equal name. -/
theorem origin_of_mem_foldl {items start : List (String × Nat)} {pair : String × Nat}
    (h : pair ∈ items.foldl (fun result item => assign unicode result item.1 item.2) start) :
    ∃ item ∈ start ++ items, item.2 = pair.2 ∧ unicode.same item.1 pair.1 = true := by
  induction items generalizing start with
  | nil => exact ⟨pair, List.mem_append_left _ h, rfl, same_refl _⟩
  | cons first rest ih =>
    obtain ⟨item, hitem, hvalue, hsame⟩ := ih h
    rcases List.mem_append.1 hitem with hold | hrest
    · simp only [assign] at hold
      split_ifs at hold with hany
      · obtain ⟨before, hbefore, rfl⟩ := List.mem_map.1 hold
        split_ifs at hvalue hsame with hfirst
        · exact ⟨first, by simp, hvalue, same_trans (same_symm hfirst) hsame⟩
        · exact ⟨before, by simp [hbefore], hvalue, hsame⟩
      · rcases List.mem_append.1 hold with hold | hold
        · exact ⟨item, by simp [hold], hvalue, hsame⟩
        · rw [List.mem_singleton.1 hold] at hvalue hsame
          exact ⟨first, by simp, hvalue, hsame⟩
    · exact ⟨item, by simp [hrest], hvalue, hsame⟩

/-- Keys that all differ are appended one by one. -/
theorem foldl_assign_eq_append {items start : List (String × Nat)}
    (h : (start ++ items).Pairwise fun a b => unicode.same a.1 b.1 = false) :
    items.foldl (fun result item => assign unicode result item.1 item.2) start = start ++ items := by
  induction items generalizing start with
  | nil => simp
  | cons first rest ih =>
    have hnew : assign unicode start first.1 first.2 = start ++ [first] := by
      unfold assign
      rw [if_neg]
      simp only [List.any_eq_true, not_exists, not_and, Bool.not_eq_true]
      intro pair hpair
      exact (List.pairwise_append.1 h).2.2 pair hpair first List.mem_cons_self
    rw [List.foldl_cons, hnew, ih (by simpa using h), List.append_assoc, List.singleton_append]

/-- No two tokens are equal for Swift. -/
def TokensDiffer (unicode : Unicode) (tokens : List String) : Prop :=
  ∀ (i j : Nat) (a b : String), tokens[i]? = some a → tokens[j]? = some b → unicode.same a b = true → i = j

theorem pairwise_index_lt (tokens : List String) : tokens.zipIdx.Pairwise fun a b => a.2 < b.2 := by
  have hrange : (tokens.zipIdx.map Prod.snd).Pairwise (· < ·) := by
    rw [List.zipIdx_map_snd]
    exact List.pairwise_lt_range'
  exact List.pairwise_map.1 hrange

theorem vocabulary_eq (h : TokensDiffer unicode (tokenStrings metadata)) : vocabulary unicode metadata = normalTokens metadata := by
  unfold vocabulary
  rw [foldl_assign_eq_append, List.nil_append]
  rw [List.nil_append]
  have hindex : (normalTokens metadata).Pairwise fun a b => a.2 < b.2 := (pairwise_index_lt _).filter _
  refine hindex.imp_of_mem ?_
  intro a b ha hb hlt
  by_contra hsame
  have heq := h a.2 b.2 a.1 b.1 (mem_normalTokens.1 ha).1 (mem_normalTokens.1 hb).1 (by simpa using hsame)
  omega

/-- The BPE tokenizers keep the IDs exactly when every token is normal or added and no two are equal for Swift. -/
theorem bpe_preservesIDs_iff {config : Config}
    (hentries : entries config = (vocabulary unicode metadata).map entryOf ++ (addedItems metadata).map entryOf) :
    PreservesIDs unicode id (tokenStrings metadata) config ↔
      (∀ i < (tokenStrings metadata).length, isNormal metadata i = true ∨ isAdded metadata i = true) ∧
        TokensDiffer unicode (tokenStrings metadata) := by
  constructor
  · intro h
    constructor
    · intro i hi
      obtain ⟨entry, hentry, hid, -⟩ := h.mapped i _ (List.getElem?_eq_getElem hi)
      rw [hentries, List.mem_append, List.mem_map, List.mem_map] at hentry
      -- The entry of an ID is a name of the vocabulary or an added token.
      rcases hentry with ⟨pair, hpair, rfl⟩ | ⟨item, hitem, rfl⟩
      · obtain ⟨item, hitem, hvalue, -⟩ := origin_of_mem_foldl hpair
        rw [List.nil_append] at hitem
        have hi : item.2 = i := by
          have : (pair.2 : Int) = i := hid
          omega
        exact .inl (hi ▸ (mem_normalTokens.1 hitem).2)
      · have hi : item.2 = i := by
          have : (item.2 : Int) = i := hid
          omega
        exact .inr (hi ▸ (mem_addedItems.1 hitem).2)
    · intro i j a b ha hb hab
      obtain ⟨entry, hentry, hid, hsame⟩ := h.mapped i a ha
      obtain ⟨entry', hentry', hid', hsame'⟩ := h.mapped j b hb
      have heq := h.functional entry hentry entry' hentry' (same_trans (same_trans hsame hab) (same_symm hsame'))
      omega
  · rintro ⟨hall, hdiffer⟩
    -- Names that differ are never assigned twice, so every entry is that of its token.
    rw [vocabulary_eq hdiffer] at hentries
    have hform : ∀ entry ∈ entries config, ∃ i : Nat, (tokenStrings metadata)[i]? = some entry.1 ∧ entry.2 = i := by
      intro entry hentry
      rw [hentries, List.mem_append, List.mem_map, List.mem_map] at hentry
      rcases hentry with ⟨item, hitem, rfl⟩ | ⟨item, hitem, rfl⟩
      · exact ⟨item.2, (mem_normalTokens.1 hitem).1, rfl⟩
      · exact ⟨item.2, (mem_addedItems.1 hitem).1, rfl⟩
    constructor
    · intro i token htoken
      obtain ⟨hi, -⟩ := List.getElem?_eq_some_iff.1 htoken
      refine ⟨entryOf (token, i), ?_, rfl, same_refl _⟩
      rw [hentries, List.mem_append]
      rcases hall i hi with hnormal | hadded
      · exact .inl (List.mem_map_of_mem (mem_normalTokens.2 ⟨htoken, hnormal⟩))
      · exact .inr (List.mem_map_of_mem (mem_addedItems.2 ⟨htoken, hadded⟩))
    · intro a ha b hb hsame
      obtain ⟨i, hi, hid⟩ := hform a ha
      obtain ⟨j, hj, hid'⟩ := hform b hb
      rw [hid, hid', hdiffer i j a.1 b.1 hi hj hsame]

/-! ## Renamed tokens -/

/-- A token with marks at its end. -/
def marked (token : String) : Nat → String
  | 0 => token
  | count + 1 => marked (token.push duplicateMarker) count

theorem canonical_marked (token : String) (count : Nat) :
    (unicode.canonical (marked token count)).toList = (unicode.canonical token).toList ++ List.replicate count duplicateMarker := by
  induction count generalizing token with
  | zero => simp [marked]
  | succ count ih =>
    rw [marked, ih, unicode.canonical_push, String.toList_push, List.append_assoc, List.replicate_succ]
    rfl

/-- Different numbers of marks make different names. -/
theorem canonical_marked_injective (token : String) :
    Function.Injective fun count => unicode.canonical (marked token count) := by
  intro a b h
  have hlist := congrArg (fun text : String => text.toList.length) h
  simpa [canonical_marked] using hlist

theorem withoutMarker_push (token : String) : withoutMarker (token.push duplicateMarker) = withoutMarker token := by
  unfold withoutMarker
  rw [String.toList_push, List.filter_append]
  simp

/-- A token that is left occupied by the loop is so with any number of marks up to the turns. -/
theorem occupied_of_firstFree {occupied : List String} {fuel : Nat} {token : String}
    (h : occupied.any (unicode.same (firstFree unicode occupied fuel token)) = true) :
    ∀ count ≤ fuel, occupied.any (unicode.same (marked token count)) = true := by
  induction fuel generalizing token with
  | zero =>
    intro count hcount
    obtain rfl : count = 0 := by omega
    exact h
  | succ fuel ih =>
    rw [firstFree] at h
    split_ifs at h with htaken
    · intro count hcount
      cases count with
      | zero => exact htaken
      | succ count => exact ih h count (by omega)
    · exact absurd h htaken

/-- As many turns as there are names find a free one. -/
theorem firstFree_free (unicode : Unicode) (occupied : List String) (token : String) :
    occupied.any (unicode.same (firstFree unicode occupied occupied.length token)) = false := by
  rw [← Bool.not_eq_true]
  intro h
  have hall := occupied_of_firstFree h
  have hnodup : ((List.range (occupied.length + 1)).map fun count => unicode.canonical (marked token count)).Nodup :=
    List.nodup_range.map (canonical_marked_injective token)
  have hsub : (List.range (occupied.length + 1)).map (fun count => unicode.canonical (marked token count)) ⊆
      occupied.map unicode.canonical := by
    intro name hname
    obtain ⟨count, hcount, rfl⟩ := List.mem_map.1 hname
    obtain ⟨other, hother, hsame⟩ := List.any_eq_true.1 (hall count (by have := List.mem_range.1 hcount; omega))
    rw [of_decide_eq_true hsame]
    exact List.mem_map_of_mem hother
  have hlength := (List.subperm_of_subset hnodup hsub).length_le
  rw [List.length_map, List.length_map, List.length_range] at hlength
  omega

theorem firstFree_of_free {occupied : List String} {token : String} (h : occupied.any (unicode.same token) = false) (fuel : Nat) :
    firstFree unicode occupied fuel token = token := by
  cases fuel with
  | zero => rfl
  | succ fuel => rw [firstFree, if_neg (by simp [h])]

theorem withoutMarker_firstFree (occupied : List String) (fuel : Nat) (token : String) :
    withoutMarker (firstFree unicode occupied fuel token) = withoutMarker token := by
  induction fuel generalizing token with
  | zero => rfl
  | succ fuel ih =>
    rw [firstFree]
    split_ifs
    · rw [ih, withoutMarker_push]
    · rfl

theorem uniqueTokens_concat (tokens : List String) (token : String) : uniqueTokens unicode (tokens ++ [token]) =
    uniqueTokens unicode tokens ++
      [firstFree unicode (uniqueTokens unicode tokens) (uniqueTokens unicode tokens).length token] := by
  unfold uniqueTokens
  rw [List.foldl_append]
  rfl

@[simp] theorem length_uniqueTokens (tokens : List String) : (uniqueTokens unicode tokens).length = tokens.length := by
  induction tokens using List.reverseRecOn with
  | nil => rfl
  | append_singleton tokens token ih => rw [uniqueTokens_concat, List.length_append, List.length_append, ih]; rfl

/-- What is appended does not change the names before it. -/
theorem getElem?_uniqueTokens (unicode : Unicode) {tokens : List String} {i : Nat} {token : String} (h : tokens[i]? = some token) :
    (uniqueTokens unicode tokens)[i]? =
      some (firstFree unicode (uniqueTokens unicode (tokens.take i)) (uniqueTokens unicode (tokens.take i)).length token) := by
  induction tokens using List.reverseRecOn with
  | nil => cases h
  | append_singleton tokens last ih =>
    rw [uniqueTokens_concat]
    by_cases hi : i < tokens.length
    · rw [List.getElem?_append_left hi] at h
      rw [List.getElem?_append_left (by simpa using hi), ih h, List.take_append_of_le_length (by omega)]
    · obtain rfl : i = tokens.length := by
        have := (List.getElem?_eq_some_iff.1 h).1
        rw [List.length_append, List.length_singleton] at this
        omega
      rw [List.getElem?_append_right (by simp)] at h ⊢
      simp only [Nat.sub_self, List.getElem?_cons_zero, Option.some.injEq, length_uniqueTokens] at h ⊢
      rw [h, List.take_append_of_le_length le_rfl, List.take_length]

/-- The names before a token are among the names of all. -/
theorem getElem?_uniqueTokens_take {tokens : List String} {i j : Nat} (h : i < j) :
    (uniqueTokens unicode (tokens.take j))[i]? = (uniqueTokens unicode tokens)[i]? := by
  cases htoken : tokens[i]? with
  | none =>
    have hlength := List.getElem?_eq_none_iff.1 htoken
    rw [List.getElem?_eq_none (by simp; omega), List.getElem?_eq_none (by simpa using hlength)]
  | some token =>
    have htake : (tokens.take j)[i]? = some token := by rw [List.getElem?_take_of_lt h, htoken]
    rw [getElem?_uniqueTokens unicode htake, getElem?_uniqueTokens unicode htoken, List.take_take, Nat.min_eq_left h.le]

theorem not_same_of_lt {tokens : List String} {i j : Nat} {a b : String} (h : i < j)
    (ha : (uniqueTokens unicode tokens)[i]? = some a) (hb : (uniqueTokens unicode tokens)[j]? = some b) :
    unicode.same b a = false := by
  obtain ⟨hj, -⟩ := List.getElem?_eq_some_iff.1 hb
  rw [length_uniqueTokens] at hj
  rw [getElem?_uniqueTokens unicode (List.getElem?_eq_getElem hj), Option.some.injEq] at hb
  have hfree := firstFree_free unicode (uniqueTokens unicode (tokens.take j)) tokens[j]
  rw [hb, ← Bool.not_eq_true, List.any_eq_true] at hfree
  rw [← getElem?_uniqueTokens_take h] at ha
  exact Bool.eq_false_iff.2 fun hsame => hfree ⟨a, List.mem_of_getElem? ha, hsame⟩

/-- All names are different. -/
theorem tokensDiffer_uniqueTokens (tokens : List String) : TokensDiffer unicode (uniqueTokens unicode tokens) := by
  intro i j a b ha hb hsame
  rcases Nat.lt_trichotomy i j with hlt | heq | hgt
  · exact absurd (same_symm hsame) (by simp [not_same_of_lt hlt ha hb])
  · exact heq
  · exact absurd hsame (by simp [not_same_of_lt hgt hb ha])

/-- The names before an added token, as the vocabulary has them, leave the token's own name free. -/
def AddedNamesFree (unicode : Unicode) (metadata : MetadataTable) : Prop :=
  ∀ (i : Nat) (token : String), (tokenStrings metadata)[i]? = some token → isAdded metadata i = true →
    ∀ name ∈ uniqueTokens unicode ((tokenStrings metadata).take i), unicode.same token name = false

/-- The SentencePiece tokenizer keeps the IDs exactly when no added token is renamed. -/
theorem sentencePiece_preservesIDs_iff {config : Config}
    (hentries : entries config = (uniqueTokens unicode (tokenStrings metadata)).zipIdx.map entryOf ++
      (addedItems metadata).map entryOf) :
    PreservesIDs unicode withoutMarker (tokenStrings metadata) config ↔ AddedNamesFree unicode metadata := by
  constructor
  · intro h i token htoken hadded name hname
    rw [← Bool.not_eq_true]
    intro hsame
    obtain ⟨k, hk, rfl⟩ := List.getElem_of_mem hname
    have hki : k < i := by
      rw [length_uniqueTokens, List.length_take] at hk
      omega
    have hk' : (uniqueTokens unicode (tokenStrings metadata))[k]? =
        some (uniqueTokens unicode ((tokenStrings metadata).take i))[k] := by
      rw [← getElem?_uniqueTokens_take hki]
      exact List.getElem?_eq_getElem hk
    -- The added token and the name that equals it are two entries with two IDs.
    have hvocabulary : entryOf ((uniqueTokens unicode ((tokenStrings metadata).take i))[k], k) ∈ entries config := by
      rw [hentries]
      exact List.mem_append_left _ (List.mem_map_of_mem (List.mem_zipIdx_iff_getElem?.2 hk'))
    have hitem : entryOf (token, i) ∈ entries config := by
      rw [hentries]
      exact List.mem_append_right _ (List.mem_map_of_mem (mem_addedItems.2 ⟨htoken, hadded⟩))
    have hid : ((i : Nat) : Int) = (k : Nat) := h.functional _ hitem _ hvocabulary hsame
    omega
  · intro h
    -- An added token keeps its name, so it is the same entry as in the vocabulary.
    have hform : ∀ entry ∈ entries config, ∃ i : Nat,
        (uniqueTokens unicode (tokenStrings metadata))[i]? = some entry.1 ∧ entry.2 = i := by
      intro entry hentry
      rw [hentries, List.mem_append, List.mem_map, List.mem_map] at hentry
      rcases hentry with ⟨item, hitem, rfl⟩ | ⟨item, hitem, rfl⟩
      · exact ⟨item.2, List.mem_zipIdx_iff_getElem?.1 hitem, rfl⟩
      · obtain ⟨htoken, hadded⟩ := mem_addedItems.1 hitem
        refine ⟨item.2, ?_, rfl⟩
        rw [getElem?_uniqueTokens unicode htoken, firstFree_of_free]
        · rfl
        · rw [List.any_eq_false]
          exact fun name hname => by simp [h item.2 item.1 htoken hadded name hname]
    constructor
    · intro i token htoken
      have hname := getElem?_uniqueTokens unicode htoken
      generalize hgiven : firstFree unicode _ _ token = name at hname
      refine ⟨entryOf (name, i), ?_, rfl, ?_⟩
      · rw [hentries]
        exact List.mem_append_left _ (List.mem_map_of_mem (List.mem_zipIdx_iff_getElem?.2 hname))
      · change unicode.same (withoutMarker name) (withoutMarker token) = true
        rw [← hgiven, withoutMarker_firstFree]
        exact same_refl _
    · intro a ha b hb hsame
      obtain ⟨i, hi, hid⟩ := hform a ha
      obtain ⟨j, hj, hid'⟩ := hform b hb
      rw [hid, hid', tokensDiffer_uniqueTokens _ i j a.1 b.1 hi hj hsame]

/-! ## Every tokenizer -/

/-- How the strings of a tokenizer's entries are compared with the tokens. -/
def shownBy (unicode : Unicode) (metadata : MetadataTable) : String → String :=
  if isGemma4Tokenizer unicode metadata then id
  else if isSentencePieceTokenizer unicode metadata then withoutMarker
  else id

/-- Which metadata gives a tokenizer with the IDs of the model. -/
def KeepsIDs (unicode : Unicode) (metadata : MetadataTable) : Prop :=
  if !isGemma4Tokenizer unicode metadata && isSentencePieceTokenizer unicode metadata then AddedNamesFree unicode metadata
  else
    (∀ i < (tokenStrings metadata).length, isNormal metadata i = true ∨ isAdded metadata i = true) ∧
      TokensDiffer unicode (tokenStrings metadata)

/-- The synthesised tokenizer has the IDs of the model exactly when no token is left out or renamed. -/
theorem tokenizer_preservesIDs_iff (unicode : Unicode) (metadata : MetadataTable) (h : tokenStrings metadata ≠ []) :
    ∃ config, embeddedTokenizerData unicode metadata = ok config ∧
      (PreservesIDs unicode (shownBy unicode metadata) (tokenStrings metadata) config ↔ KeepsIDs unicode metadata) := by
  unfold embeddedTokenizerData shownBy KeepsIDs
  rw [if_neg h]
  cases hgemma : isGemma4Tokenizer unicode metadata with
  | true => exact ⟨_, rfl, bpe_preservesIDs_iff (entries_gemma4 _)⟩
  | false =>
    cases hpiece : isSentencePieceTokenizer unicode metadata with
    | true =>
      refine ⟨_, rfl, sentencePiece_preservesIDs_iff (entries_sentencePiece ?_)⟩
      simp only [isSentencePieceTokenizer, Bool.and_eq_true, decide_eq_true_eq] at hpiece
      rw [hpiece.2, length_uniqueTokens]
    | false => exact ⟨_, rfl, bpe_preservesIDs_iff (entries_byteLevel _)⟩

/-- Unicode as far as plain ASCII text goes. -/
def asciiUnicode : Unicode where
  canonical := id
  lowercased := String.toLower
  hasPrefix text start := start.toList.isPrefixOf text.toList
  canonical_push _ := rfl

/-- A Gemma 4 vocabulary with a byte token, which is of type 6. -/
def byteTokenMetadata : MetadataTable := fun key =>
  if key = "tokenizer.ggml.model" then some (.string "gemma4")
  else if key = "tokenizer.ggml.tokens" then some (.array [.string "a", .string "<0x41>"])
  else if key = "tokenizer.ggml.token_type" then some (.array [.int32 1, .int32 6])
  else none

theorem byteToken_strings : tokenStrings byteTokenMetadata = ["a", "<0x41>"] := by decide +kernel

theorem byteToken_not_kept : ¬ KeepsIDs asciiUnicode byteTokenMetadata := by
  unfold KeepsIDs
  rw [if_neg (by decide +kernel)]
  rintro ⟨hall, -⟩
  have hsecond := hall 1 (by decide +kernel)
  revert hsecond
  decide +kernel

theorem byteToken_lost : ∃ config, embeddedTokenizerData asciiUnicode byteTokenMetadata = ok config ∧
    ¬ PreservesIDs asciiUnicode (shownBy asciiUnicode byteTokenMetadata) (tokenStrings byteTokenMetadata) config := by
  obtain ⟨config, hconfig, hiff⟩ :=
    tokenizer_preservesIDs_iff asciiUnicode byteTokenMetadata (by rw [byteToken_strings]; exact nofun)
  exact ⟨config, hconfig, fun h => byteToken_not_kept (hiff.1 h)⟩

/-- The byte token has no entry at all. -/
theorem byteToken_without_entry : ¬ ∀ metadata : MetadataTable, tokenStrings metadata ≠ [] → (tokenStrings metadata).Nodup →
    ∀ config, embeddedTokenizerData asciiUnicode metadata = ok config →
      ∀ i < (tokenStrings metadata).length, ∃ entry ∈ entries config, entry.2 = i := by
  intro h
  have hgemma : isGemma4Tokenizer asciiUnicode byteTokenMetadata = true := by decide +kernel
  have hstrings := byteToken_strings
  have hdata : embeddedTokenizerData asciiUnicode byteTokenMetadata = ok (gemma4TokenizerData
      (vocabulary asciiUnicode byteTokenMetadata) (mergeStrings byteTokenMetadata) (addedTokens asciiUnicode byteTokenMetadata)) := by
    rw [embeddedTokenizerData, if_neg (by rw [hstrings]; exact nofun), if_pos hgemma]
  obtain ⟨entry, hentry, hid⟩ := h byteTokenMetadata (by rw [hstrings]; exact nofun) (by rw [hstrings]; decide) _ hdata 1
    (by rw [hstrings]; decide)
  rw [entries_gemma4] at hentry
  have hnone : ((vocabulary asciiUnicode byteTokenMetadata).map entryOf ++ (addedItems byteTokenMetadata).map entryOf).all
      fun entry => entry.2 ≠ 1 := by decide +kernel
  exact of_decide_eq_true (List.all_eq_true.1 hnone entry hentry) hid

end Tanpopo.GGUF
