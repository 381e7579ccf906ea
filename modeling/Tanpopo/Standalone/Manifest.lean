import Tanpopo.Lib.Go
import Tanpopo.Lib.Swift
import Mathlib.Data.List.Nodup
import Mathlib.Data.Rat.Init
/-!
# Two readers of one manifest

The server is written in Go and the runtime in Swift. Both decode the manifest
of a converted model: `encoding/json` ignores the case of a name and fills what
is missing with zero values, `JSONDecoder` takes a name as it is and fails when
a required member is missing.

A document that gives a member twice is not represented: the readers do not
agree on which one counts.
-/

namespace Tanpopo.Standalone

/-- A parsed JSON text. A number with a fraction or an exponent is `decimal`. -/
inductive JSON where
  | null
  | bool (value : Bool)
  | int (value : Int)
  | decimal (value : Rat)
  | string (value : String)
  | array (items : List JSON)
  | object (members : List (String × JSON))

/-- The folding under which `encoding/json` compares a name with the ASCII name of a field. -/
def foldChar (c : Char) : Char := if c = 'ſ' then 's' else if c = '\u212A' then 'k' else c.toLower

def foldName (name : String) : List Char := name.toList.map foldChar

structure Document where
  members : List (String × JSON)
  distinct : (members.map fun m => foldName m.1).Nodup

namespace Document

/-- The member a field of a Go struct is filled from. -/
def fold? (doc : Document) (name : String) : Option JSON :=
  (doc.members.find? fun m => foldName m.1 = foldName name).map (·.2)

/-- The member with exactly this name. -/
def member? (doc : Document) (name : String) : Option JSON := (doc.members.find? fun m => m.1 = name).map (·.2)

/-- A member that is there under its exact name is the one Go takes. -/
theorem fold?_of_member? {doc : Document} {name : String} {value : JSON} (h : doc.member? name = some value) :
    doc.fold? name = some value := by
  obtain ⟨⟨name', value'⟩, hfind, rfl⟩ := Option.map_eq_some_iff.1 h
  have hmem := List.mem_of_find?_eq_some hfind
  obtain rfl : name' = name := by simpa using List.find?_some hfind
  rw [fold?, Option.map_eq_some_iff]
  cases hfold : doc.members.find? fun m => foldName m.1 = foldName name' with
  | none => simpa using List.find?_eq_none.1 hfold _ hmem
  | some m =>
    have hsame : foldName m.1 = foldName name' := by simpa using List.find?_some hfold
    have heq := List.inj_on_of_nodup_map doc.distinct (List.mem_of_find?_eq_some hfold) hmem hsame
    exact ⟨m, rfl, by rw [heq]⟩

end Document

def inInt64 (n : Int) : Bool := -2 ^ 63 ≤ n && n < 2 ^ 63

/-! ## Go -/

/-- `null` leaves a field as it is. -/
def goInt : Option JSON → Option Int
  | none | some .null => some 0
  | some (.int n) => if inInt64 n then some n else none
  | some _ => none

def goString : Option JSON → Option String
  | none | some .null => some ""
  | some (.string s) => some s
  | some _ => none

def goStrings : Option JSON → Option (List String)
  | none | some .null => some []
  | some (.array items) => items.mapM fun item => goString (some item)
  | some _ => none

structure ConversionCacheManifest where
  schemaVersion : Int
  key : String
  sourceNames : List String
  sourcePaths : List String
  shards : List String
  profile : String
  groupSize : Int
  weightCount : Int
  configuration : String
  tokenizer : String
  tokenizerConfiguration : String
  processorConfiguration : String
  generationConfiguration : String
  deriving DecidableEq

/-- `json.Unmarshal` into the struct. -/
def unmarshal (doc : Document) : Option ConversionCacheManifest := do
  let schemaVersion ← goInt (doc.fold? "schemaVersion")
  let key ← goString (doc.fold? "key")
  let sourceNames ← goStrings (doc.fold? "sourceNames")
  let sourcePaths ← goStrings (doc.fold? "sourcePaths")
  let shards ← goStrings (doc.fold? "shards")
  let profile ← goString (doc.fold? "profile")
  let groupSize ← goInt (doc.fold? "groupSize")
  let weightCount ← goInt (doc.fold? "weightCount")
  let configuration ← goString (doc.fold? "configuration")
  let tokenizer ← goString (doc.fold? "tokenizer")
  let tokenizerConfiguration ← goString (doc.fold? "tokenizerConfiguration")
  let processorConfiguration ← goString (doc.fold? "processorConfiguration")
  let generationConfiguration ← goString (doc.fold? "generationConfiguration")
  return { schemaVersion, key, sourceNames, sourcePaths, shards, profile, groupSize, weightCount, configuration, tokenizer,
           tokenizerConfiguration, processorConfiguration, generationConfiguration }

/-! ## Swift -/

def swiftInt : Option JSON → Option Int
  | some (.int n) => if inInt64 n then some n else none
  | some (.decimal q) => if q.den = 1 ∧ inInt64 q.num then some q.num else none
  | _ => none

def swiftString : Option JSON → Option String
  | some (.string s) => some s
  | _ => none

def swiftStrings : Option JSON → Option (List String)
  | some (.array items) => items.mapM fun item => swiftString (some item)
  | _ => none

/-- `decodeIfPresent`. -/
def ifPresent {α : Type} (decode : Option JSON → Option α) : Option JSON → Option (Option α)
  | none | some .null => some none
  | some value => (decode (some value)).map some

structure Manifest where
  schemaVersion : Int
  key : String
  runtimeVersion : String
  createdAt : String
  sourceNames : List String
  sourcePaths : Option (List String)
  profile : String
  groupSize : Int
  recurrentPromotion : String
  weightCount : Int
  totalBytes : Int
  storedBytes : Option Int
  shards : List String
  configuration : Option String
  tokenizer : Option String
  tokenizerConfiguration : Option String
  processorConfiguration : Option String
  generationConfiguration : Option String
  deriving DecidableEq

/-- `JSONDecoder.decode` of the struct. -/
def decode (doc : Document) : Option Manifest := do
  let schemaVersion ← swiftInt (doc.member? "schemaVersion")
  let key ← swiftString (doc.member? "key")
  let runtimeVersion ← swiftString (doc.member? "runtimeVersion")
  let createdAt ← swiftString (doc.member? "createdAt")
  let sourceNames ← swiftStrings (doc.member? "sourceNames")
  let sourcePaths ← ifPresent swiftStrings (doc.member? "sourcePaths")
  let profile ← swiftString (doc.member? "profile")
  let groupSize ← swiftInt (doc.member? "groupSize")
  let recurrentPromotion ← swiftString (doc.member? "recurrentPromotion")
  let weightCount ← swiftInt (doc.member? "weightCount")
  let totalBytes ← swiftInt (doc.member? "totalBytes")
  let storedBytes ← ifPresent swiftInt (doc.member? "storedBytes")
  let shards ← swiftStrings (doc.member? "shards")
  let configuration ← ifPresent swiftString (doc.member? "configuration")
  let tokenizer ← ifPresent swiftString (doc.member? "tokenizer")
  let tokenizerConfiguration ← ifPresent swiftString (doc.member? "tokenizerConfiguration")
  let processorConfiguration ← ifPresent swiftString (doc.member? "processorConfiguration")
  let generationConfiguration ← ifPresent swiftString (doc.member? "generationConfiguration")
  return { schemaVersion, key, runtimeVersion, createdAt, sourceNames, sourcePaths, profile, groupSize, recurrentPromotion,
           weightCount, totalBytes, storedBytes, shards, configuration, tokenizer, tokenizerConfiguration,
           processorConfiguration, generationConfiguration }

/-- The members a document must have under their exact names, and those it may have. -/
structure HasMembers (doc : Document) : Prop where
  numbers : ∀ name ∈ ["schemaVersion", "groupSize", "weightCount", "totalBytes"], (swiftInt (doc.member? name)).isSome
  strings : ∀ name ∈ ["key", "runtimeVersion", "createdAt", "profile", "recurrentPromotion"],
    (swiftString (doc.member? name)).isSome
  lists : ∀ name ∈ ["sourceNames", "shards"], (swiftStrings (doc.member? name)).isSome
  optionalNumbers : ∀ name ∈ ["storedBytes"], (ifPresent swiftInt (doc.member? name)).isSome
  optionalStrings : ∀ name ∈ ["configuration", "tokenizer", "tokenizerConfiguration", "processorConfiguration",
    "generationConfiguration"], (ifPresent swiftString (doc.member? name)).isSome
  optionalLists : ∀ name ∈ ["sourcePaths"], (ifPresent swiftStrings (doc.member? name)).isSome

theorem decode_isSome_iff {doc : Document} : (decode doc).isSome ↔ HasMembers doc := by
  simp only [Option.isSome_iff_exists]
  constructor
  · rintro ⟨m, h⟩
    unfold decode at h
    obtain ⟨_, hversion, h⟩ := Option.bind_eq_some_iff.1 h
    obtain ⟨_, hkey, h⟩ := Option.bind_eq_some_iff.1 h
    obtain ⟨_, hruntime, h⟩ := Option.bind_eq_some_iff.1 h
    obtain ⟨_, hcreated, h⟩ := Option.bind_eq_some_iff.1 h
    obtain ⟨_, hnames, h⟩ := Option.bind_eq_some_iff.1 h
    obtain ⟨_, hpaths, h⟩ := Option.bind_eq_some_iff.1 h
    obtain ⟨_, hprofile, h⟩ := Option.bind_eq_some_iff.1 h
    obtain ⟨_, hgroup, h⟩ := Option.bind_eq_some_iff.1 h
    obtain ⟨_, hpromotion, h⟩ := Option.bind_eq_some_iff.1 h
    obtain ⟨_, hweights, h⟩ := Option.bind_eq_some_iff.1 h
    obtain ⟨_, htotal, h⟩ := Option.bind_eq_some_iff.1 h
    obtain ⟨_, hstored, h⟩ := Option.bind_eq_some_iff.1 h
    obtain ⟨_, hshards, h⟩ := Option.bind_eq_some_iff.1 h
    obtain ⟨_, hconfiguration, h⟩ := Option.bind_eq_some_iff.1 h
    obtain ⟨_, htokenizer, h⟩ := Option.bind_eq_some_iff.1 h
    obtain ⟨_, htokenizerConfiguration, h⟩ := Option.bind_eq_some_iff.1 h
    obtain ⟨_, hprocessor, h⟩ := Option.bind_eq_some_iff.1 h
    obtain ⟨_, hgeneration, h⟩ := Option.bind_eq_some_iff.1 h
    constructor <;> simp [*]
  · rintro ⟨hnumbers, hstrings, hlists, hoptionalNumbers, hoptionalStrings, hoptionalLists⟩
    simp only [List.forall_mem_cons, Option.isSome_iff_exists] at *
    obtain ⟨⟨_, hversion⟩, ⟨_, hgroup⟩, ⟨_, hweights⟩, ⟨_, htotal⟩, -⟩ := hnumbers
    obtain ⟨⟨_, hkey⟩, ⟨_, hruntime⟩, ⟨_, hcreated⟩, ⟨_, hprofile⟩, ⟨_, hpromotion⟩, -⟩ := hstrings
    obtain ⟨⟨_, hnames⟩, ⟨_, hshards⟩, -⟩ := hlists
    obtain ⟨⟨_, hstored⟩, -⟩ := hoptionalNumbers
    obtain ⟨⟨_, hconfiguration⟩, ⟨_, htokenizer⟩, ⟨_, htokenizerConfiguration⟩, ⟨_, hprocessor⟩, ⟨_, hgeneration⟩, -⟩ :=
      hoptionalStrings
    obtain ⟨⟨_, hpaths⟩, -⟩ := hoptionalLists
    unfold decode
    simp only [Option.bind_eq_bind, Option.bind_some, *]
    exact ⟨_, rfl⟩

/-! ## Agreement -/

section
variable {doc : Document} {name : String}

/-- What both read as an integer they read alike. -/
theorem goInt_of_swiftInt {n m : Int} (h : swiftInt (doc.member? name) = some n) (hgo : goInt (doc.fold? name) = some m) :
    m = n := by
  cases hmember : doc.member? name with
  | none => rw [hmember] at h; cases h
  | some value =>
    rw [Document.fold?_of_member? hmember] at hgo
    rw [hmember] at h
    cases value with
    | int k =>
      simp only [swiftInt, goInt] at h hgo
      split_ifs at h hgo
      exact (Option.some.inj hgo).symm.trans (Option.some.inj h)
    | _ => first | cases h | cases hgo

theorem goString_of_swiftString {s : String} (h : swiftString (doc.member? name) = some s) :
    goString (doc.fold? name) = some s := by
  cases hmember : doc.member? name with
  | none => rw [hmember] at h; cases h
  | some value =>
    rw [Document.fold?_of_member? hmember]
    rw [hmember] at h
    cases value with
    | string t => exact h
    | _ => cases h

theorem mapM_goString {items : List JSON} {strings : List String}
    (h : items.mapM (fun item => swiftString (some item)) = some strings) :
    items.mapM (fun item => goString (some item)) = some strings := by
  induction items generalizing strings with
  | nil => exact h
  | cons item rest ih =>
    rw [List.mapM_cons] at h ⊢
    obtain ⟨s, hs, h⟩ := Option.bind_eq_some_iff.1 h
    obtain ⟨tail, htail, h⟩ := Option.bind_eq_some_iff.1 h
    have hgo : goString (some item) = some s := by
      cases item with
      | string t => exact hs
      | _ => cases hs
    rw [hgo, ih htail]
    exact h

theorem goStrings_of_swiftStrings {strings : List String} (h : swiftStrings (doc.member? name) = some strings) :
    goStrings (doc.fold? name) = some strings := by
  cases hmember : doc.member? name with
  | none => rw [hmember] at h; cases h
  | some value =>
    rw [Document.fold?_of_member? hmember]
    rw [hmember] at h
    cases value with
    | array items => exact mapM_goString h
    | _ => cases h

end
end Tanpopo.Standalone
