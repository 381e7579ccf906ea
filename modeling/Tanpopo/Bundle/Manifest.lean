import Tanpopo.Lib.FileTree
import Tanpopo.Lib.Go
import Mathlib
/-!
# Model bundles

A manifest lists the files of a model with their sizes and SHA-256 sums.
`validate` says which manifests are accepted, `inventory` which files of a
directory belong to a model, and `matches_` whether a directory holds exactly
what a manifest lists.
-/

namespace Tanpopo.Bundle

open Go

structure File where
  path : String
  size : Int
  sha256 : String
  deriving DecidableEq

structure Manifest where
  entry : String
  files : List File
  digest : String
  bytes : Int
  deriving DecidableEq

/-- SHA-256 and the JSON encoder. -/
structure Codec where
  sha256 : List UInt8 → { sum : List UInt8 // sum.length = 32 }
  marshalFiles : List File → List UInt8
  marshalEntry : String → List File → List UInt8
  marshal : Manifest → List UInt8

def maxManifestBytes : Nat := 2097152

def maxFiles : Nat := 4096

def Codec.hexSum (codec : Codec) (bytes : List UInt8) : String := hexEncode (codec.sha256 bytes).1

def relevant (name : String) : Bool :=
  [".safetensors", ".json", ".model", ".jinja", ".txt", ".tiktoken", ".gguf", ".fgguf"].contains (pathExt name)

def validPath (name : String) : Bool :=
  fsValidPath name && name ≠ "." && name.utf8ByteSize ≤ 1024 && !containsAny name "\\:\x00" &&
    (split name '/').all fun part => !hasPrefix part "." && trimSpace part = part

namespace Manifest

def contentDigest (codec : Codec) (m : Manifest) : String :=
  if m.entry = "" then codec.hexSum (codec.marshalFiles m.files) else codec.hexSum (codec.marshalEntry m.entry m.files)

end Manifest

def File.valid (previous : Option File) (file : File) : Bool :=
  validPath file.path && relevant file.path && 0 ≤ file.size && file.size ≤ 2 ^ 50 &&
    (hexDecode file.sha256).any (·.length = 32) && previous.all (·.path < file.path)

def filesValid : Option File → List File → Bool
  | _, [] => true
  | previous, file :: rest => file.valid previous && filesValid (some file) rest

def entryValid (entry : String) : Bool :=
  validPath entry && pathBase entry = entry && (hasSuffix entry ".gguf" || hasSuffix entry ".fgguf.json")

namespace Manifest

/-- The entry, or the configuration and weights, must be listed. -/
def complete (m : Manifest) : Bool :=
  if m.entry = "" then
    m.files.any (·.path = "config.json") && m.files.any (fun file => pathExt file.path = ".safetensors")
  else m.files.any (·.path = m.entry)

def validate (codec : Codec) (m : Manifest) : Except String Unit :=
  if m.files = [] ∨ m.files.length > maxFiles then .error "模型檔案數量無效"
  else if !filesValid none m.files then .error "模型檔案清單格式無效"
  else if m.entry ≠ "" ∧ !entryValid m.entry then .error "模型入口格式無效"
  else if !m.complete ∨ (m.files.map (·.size)).sum ≠ m.bytes ∨ m.contentDigest codec ≠ m.digest then
    .error "模型清單摘要或必要檔案不符"
  else if (codec.marshal m).length > maxManifestBytes then .error "模型清單超過傳輸大小限制"
  else .ok ()

/-- What an accepted manifest satisfies. -/
structure Valid (codec : Codec) (m : Manifest) : Prop where
  nonempty : m.files ≠ []
  count : m.files.length ≤ maxFiles
  paths : ∀ file ∈ m.files, validPath file.path = true
  relevant : ∀ file ∈ m.files, relevant file.path = true
  size : ∀ file ∈ m.files, 0 ≤ file.size
  sorted : m.files.Pairwise fun a b => a.path < b.path
  entry : m.entry ≠ "" → entryValid m.entry = true
  complete : m.complete = true
  digest : m.contentDigest codec = m.digest

end Manifest

/-! ## What a directory holds -/

/-- The text of a relative path, as a walk gives it. -/
def pathText (path : TreePath) : String := if path = [] then "." else join path '/'

def pathNames (name : String) : TreePath := if name = "." then [] else split name '/'

def isHidden (name : String) : Bool := hasPrefix name "."

/-- `openDirectory`. -/
def openDirectory (tree : Tree) (relative : String) : Option TreePath :=
  if relative ≠ "." && !validPath relative then none
  else if tree.entryAt (pathNames relative) = some .dir then some (pathNames relative)
  else none

def inventoried (name : String) : Bool :=
  relevant name && pathExt name ≠ ".gguf" && pathExt name ≠ ".fgguf" && !hasSuffix name ".fgguf.json"

/-- Hidden names and what is below them are skipped. -/
def inventoryEntries (tree : Tree) (directory : TreePath) : List (TreePath × Entry) :=
  (tree.walk directory).filter fun e => !e.1.any isHidden && e.2 ≠ .dir && inventoried (pathText e.1)

def inventoryFile (e : TreePath × Entry) : Option File :=
  match e.2 with
  | .file content => if validPath (pathText e.1) then some ⟨pathText e.1, content.length, ""⟩ else none
  | _ => none

def inventory (tree : Tree) (directory : TreePath) : Option (List File) :=
  match (inventoryEntries tree directory).mapM inventoryFile with
  | none => none
  | some files => if files.length > maxFiles then none else some (files.insertionSort fun a b => a.path ≤ b.path)

def fileAt (tree : Tree) (directory : TreePath) (name : String) : Option (List UInt8) :=
  match tree.get? (directory ++ pathNames name) with
  | some (.file content) => some content
  | _ => none

/-- The listed files are there with their sizes and, for a whole directory, nothing else is. -/
def listed (tree : Tree) (directory : TreePath) (want : Manifest) : Bool :=
  if want.entry = "" then
    match inventory tree directory with
    | none => false
    | some files => files.map (fun file => (file.path, file.size)) = want.files.map fun file => (file.path, file.size)
  else want.files.all fun file => (fileAt tree directory file.path).any (·.length = file.size)

def contentMatches (codec : Codec) (tree : Tree) (directory : TreePath) (item : File) : Bool :=
  (fileAt tree directory item.path).any fun content => content.length = item.size && codec.hexSum content = item.sha256

/-- `Matches`, when nothing fails or is cancelled. -/
def matches_ (codec : Codec) (tree : Tree) (relative : String) (want : Manifest) : Bool :=
  match openDirectory tree relative with
  | none => false
  | some directory =>
    listed tree directory want &&
      (want.files.insertionSort fun a b => a.size ≤ b.size).all (contentMatches codec tree directory)

end Tanpopo.Bundle
