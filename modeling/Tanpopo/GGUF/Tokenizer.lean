import Tanpopo.GGUF.Reader
/-!
# Tokenizers synthesised from metadata

`embeddedTokenizerData` builds the data of a tokenizer from the tokens that a
GGUF file lists, as a byte-level BPE, a Gemma 4 or a SentencePiece tokenizer.
-/

namespace Tanpopo.GGUF

open Swift Outcome

/-- The mark of a token that equals an earlier one. -/
def duplicateMarker : Char := Char.ofNat 0xF0000

/-- What Swift's strings take from the tables of Unicode. The mark is left alone by normalization. -/
structure Unicode where
  canonical : String → String
  lowercased : String → String
  hasPrefix : String → String → Bool
  canonical_push : ∀ text, canonical (text.push duplicateMarker) = (canonical text).push duplicateMarker

/-- `==` of strings. -/
def Unicode.same (unicode : Unicode) (a b : String) : Bool := unicode.canonical a = unicode.canonical b

/-- A tokenizer's data. A score is kept as the value that it is the float of. -/
inductive Config where
  | string (value : String)
  | integer (value : Int)
  | boolean (value : Bool)
  | float (value : MetadataValue)
  | array (values : List Config)
  | dictionary (pairs : List (String × Config))

def MetadataValue.stringValue : MetadataValue → Option String
  | .string value => some value
  | _ => none

def MetadataValue.arrayValue : MetadataValue → Option (List MetadataValue)
  | .array values => some values
  | _ => none

/-- The values that have a `floatValue`. -/
def MetadataValue.isNumber : MetadataValue → Bool
  | .boolean _ | .string _ | .array _ => false
  | _ => true

/-- The metadata of a file, by key. -/
abbrev MetadataTable := String → Option MetadataValue

variable (unicode : Unicode)

def normalizedArchitecture (architecture : String) : String :=
  String.ofList ((unicode.lowercased architecture).toList.filter (· ≠ '_'))

section Metadata
variable (metadata : MetadataTable)

def integer (key : String) : Option Int := (metadata key).bind MetadataValue.integerValue

def arrayOf (key : String) : List MetadataValue := ((metadata key).bind MetadataValue.arrayValue).getD []

def tokenStrings : List String := (arrayOf metadata "tokenizer.ggml.tokens").filterMap MetadataValue.stringValue

def mergeStrings : List String := (arrayOf metadata "tokenizer.ggml.merges").filterMap MetadataValue.stringValue

def tokenScores : List MetadataValue := (arrayOf metadata "tokenizer.ggml.scores").filter MetadataValue.isNumber

def tokenizerModel : String :=
  normalizedArchitecture unicode (((metadata "tokenizer.ggml.model").bind MetadataValue.stringValue).getD "")

def specialIDs : List Int :=
  ["tokenizer.ggml.bos_token_id", "tokenizer.ggml.eos_token_id", "tokenizer.ggml.padding_token_id",
    "tokenizer.ggml.unknown_token_id", "tokenizer.ggml.mask_token_id"].filterMap (integer metadata)

def tokenType (index : Nat) : Option Int := (arrayOf metadata "tokenizer.ggml.token_type")[index]?.bind MetadataValue.integerValue

def isNormal (index : Nat) : Bool := tokenType metadata index = some 1

def isAdded (index : Nat) : Bool :=
  match tokenType metadata index with
  | none => (specialIDs metadata).contains (index : Int)
  | some type => type = 3 || type = 4 || (specialIDs metadata).contains (index : Int)

def isGemma4Tokenizer : Bool := tokenizerModel unicode metadata = "gemma4"

def isSentencePieceTokenizer : Bool :=
  tokenizerModel unicode metadata = "llama" && mergeStrings metadata = [] &&
    (tokenScores metadata).length = (tokenStrings metadata).length

end Metadata

/-- `dictionary[key] = value`: of two keys that are equal the first stays. -/
def assign (dictionary : List (String × Nat)) (key : String) (value : Nat) : List (String × Nat) :=
  if dictionary.any fun pair => unicode.same pair.1 key then
    dictionary.map fun pair => if unicode.same pair.1 key then (pair.1, value) else pair
  else dictionary ++ [(key, value)]

/-- The tokens of the model, which are those of the normal type. -/
def normalTokens (metadata : MetadataTable) : List (String × Nat) :=
  (tokenStrings metadata).zipIdx.filter fun item => isNormal metadata item.2

def vocabulary (metadata : MetadataTable) : List (String × Nat) :=
  (normalTokens metadata).foldl (fun result item => assign unicode result item.1 item.2) []

def isEmbeddedSpecialToken (token : String) : Bool :=
  unicode.same token "<|endoftext|>" || unicode.hasPrefix token "<|im_" || unicode.hasPrefix token "<|object_ref_" ||
    unicode.hasPrefix token "<|box_" || unicode.hasPrefix token "<|quad_" || unicode.hasPrefix token "<|vision_"

def addedToken (metadata : MetadataTable) (item : String × Nat) : Config :=
  .dictionary
    [("id", .integer item.2), ("content", .string item.1), ("single_word", .boolean false), ("lstrip", .boolean false),
      ("rstrip", .boolean false), ("normalized", .boolean false),
      ("special", .boolean (isGemma4Tokenizer unicode metadata || (specialIDs metadata).contains (item.2 : Int) ||
        isEmbeddedSpecialToken unicode item.1))]

def addedItems (metadata : MetadataTable) : List (String × Nat) :=
  (tokenStrings metadata).zipIdx.filter fun item => isAdded metadata item.2

def addedTokens (metadata : MetadataTable) : List Config := (addedItems metadata).map (addedToken unicode metadata)

/-! ## Tokenizer families -/

def vocabularyConfig (pairs : List (String × Nat)) : Config := .dictionary (pairs.map fun pair => (pair.1, .integer pair.2))

def replaceSpace : Config :=
  .dictionary [("type", .string "Replace"), ("pattern", .dictionary [("String", .string " ")]), ("content", .string "▁")]

def splitSpace : Config :=
  .dictionary [("type", .string "Split"), ("pattern", .dictionary [("String", .string " ")]),
    ("behavior", .string "MergedWithPrevious"), ("invert", .boolean false)]

def sequencePart (id : String) (typeID : Int) : Config :=
  .dictionary [("Sequence", .dictionary [("id", .string id), ("type_id", .integer typeID)])]

def templateProcessing : Config :=
  .dictionary [("type", .string "TemplateProcessing"), ("single", .array [sequencePart "A" 0]),
    ("pair", .array [sequencePart "A" 0, sequencePart "B" 1]), ("special_tokens", .dictionary [])]

def replacing (pattern content : String) : Config :=
  .dictionary [("type", .string "Replace"), ("pattern", .dictionary [("String", .string pattern)]), ("content", .string content)]

def gemma4TokenizerData (vocabulary : List (String × Nat)) (merges : List String) (addedTokens : List Config) : Config :=
  .dictionary
    [("version", .string "1.0"), ("added_tokens", .array addedTokens), ("normalizer", replaceSpace),
      ("pre_tokenizer", splitSpace), ("post_processor", templateProcessing),
      ("decoder", .dictionary [("type", .string "Sequence"), ("decoders", .array
        [replacing "▁" " ", .dictionary [("type", .string "ByteFallback")], .dictionary [("type", .string "Fuse")]])]),
      ("model", .dictionary
        [("type", .string "BPE"), ("dropout", .string "nil"), ("unk_token", .string "<unk>"),
          ("continuing_subword_prefix", .string "nil"), ("end_of_word_suffix", .string "nil"), ("fuse_unk", .boolean true),
          ("byte_fallback", .boolean true), ("ignore_merges", .boolean false), ("vocab", vocabularyConfig vocabulary),
          ("merges", .array (merges.map .string))])]

/-- The loop of marks: `fuel` turns, which are as many as there are occupied names. -/
def firstFree (occupied : List String) : Nat → String → String
  | 0, candidate => candidate
  | fuel + 1, candidate =>
    if occupied.any (unicode.same candidate) then firstFree occupied fuel (candidate.push duplicateMarker) else candidate

def uniqueTokens (tokens : List String) : List String :=
  tokens.foldl (fun unique token => unique ++ [firstFree unicode unique unique.length token]) []

def sentencePieceTokenizerData (tokens : List String) (scores : List MetadataValue) (addedTokens : List Config)
    (unknownTokenID : Int) : Config :=
  .dictionary
    [("version", .string "1.0"), ("added_tokens", .array addedTokens), ("normalizer", replaceSpace),
      ("pre_tokenizer", splitSpace), ("post_processor", templateProcessing),
      ("decoder", .dictionary [("type", .string "Sequence"), ("decoders", .array
        [replacing "▁" " ", replacing (String.singleton duplicateMarker) "", .dictionary [("type", .string "ByteFallback")],
          .dictionary [("type", .string "Fuse")]])]),
      ("model", .dictionary
        [("type", .string "Unigram"),
          ("vocab", .array (((uniqueTokens unicode tokens).zip scores).map fun item => .array [.string item.1, .float item.2])),
          ("unk_id", .integer unknownTokenID), ("byte_fallback", .boolean true)])]

def byteLevel : Config :=
  .dictionary [("type", .string "ByteLevel"), ("add_prefix_space", .boolean false), ("trim_offsets", .boolean false),
    ("use_regex", .boolean false)]

def splitPattern : String :=
  "(?i:'s|'t|'re|'ve|'m|'ll|'d)|[^\\r\\n\\p\x7bL\x7d\\p\x7bN\x7d]?[\\p\x7bL\x7d\\p\x7bM\x7d]+|\\p\x7bN\x7d| ?[^\\s\\p\x7bL\x7d\\p\x7bM\x7d\\p\x7bN\x7d]+[\\r\\n]*|\\s*[\\r\\n]+|\\s+(?!\\S)|\\s+"

def byteLevelTokenizerData (vocabulary : List (String × Nat)) (merges : List String) (addedTokens : List Config) : Config :=
  .dictionary
    [("version", .string "1.0"), ("added_tokens", .array addedTokens), ("normalizer", .dictionary [("type", .string "NFC")]),
      ("pre_tokenizer", .dictionary [("type", .string "Sequence"), ("pretokenizers", .array
        [.dictionary [("type", .string "Split"), ("pattern", .dictionary [("Regex", .string splitPattern)]),
          ("behavior", .string "Isolated"), ("invert", .boolean false)], byteLevel])]),
      ("post_processor", byteLevel), ("decoder", byteLevel),
      ("model", .dictionary
        [("type", .string "BPE"), ("dropout", .string "nil"), ("unk_token", .string "nil"),
          ("continuing_subword_prefix", .string ""), ("end_of_word_suffix", .string ""), ("fuse_unk", .boolean false),
          ("byte_fallback", .boolean false), ("ignore_merges", .boolean false), ("vocab", vocabularyConfig vocabulary),
          ("merges", .array (merges.map .string))])]

def embeddedTokenizerData (metadata : MetadataTable) : Outcome LoaderError Config :=
  if tokenStrings metadata = [] then threw .invalidSize
  else if isGemma4Tokenizer unicode metadata then
    ok (gemma4TokenizerData (vocabulary unicode metadata) (mergeStrings metadata) (addedTokens unicode metadata))
  else if isSentencePieceTokenizer unicode metadata then
    ok (sentencePieceTokenizerData unicode (tokenStrings metadata) (tokenScores metadata) (addedTokens unicode metadata)
      ((integer metadata "tokenizer.ggml.unknown_token_id").getD 0))
  else ok (byteLevelTokenizerData (vocabulary unicode metadata) (mergeStrings metadata) (addedTokens unicode metadata))

end Tanpopo.GGUF
