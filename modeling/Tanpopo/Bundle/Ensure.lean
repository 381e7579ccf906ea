import Tanpopo.Bundle.Manifest
/-!
# Making a model available

`ensure` looks for a directory that matches a manifest: the preferred one, the
synchronized copy, then every directory with a matching entry. Only when there
is none it fetches the files into a hidden directory and renames that.

What may fail or be cancelled asks the world for an answer, in the order of the
code. A check of a directory and a copy ask once, for all they read.
-/

namespace Tanpopo.Bundle

open Go

structure World where
  tree : Tree
  /-- Whether the next operations fail. Nothing fails once these run out. -/
  faults : List Bool
  /-- The indices `fetch` was called with. -/
  fetched : List Nat

inductive EnsureError where
  | message (text : String)
  /-- The context is cancelled, or the file system or `fetch` failed. -/
  | failed
  deriving DecidableEq

abbrev Result (α : Type) := Except EnsureError α × World

/-- What `fetch` returns: the bytes of the stream, and whether it breaks off after them. -/
structure Stream where
  bytes : List UInt8
  fails : Bool

abbrev Fetch := Nat → Option Stream

/-- The random part of the name of a temporary directory. -/
structure Suffix where
  text : String
  digits : text.toList.all Char.isDigit = true
  short : text.length ≤ 10

namespace World

def fault (w : World) : Bool := w.faults.headD false

def next (w : World) : World := { w with faults := w.faults.tail }

end World

section
variable (codec : Codec) (manifest : Manifest)

/-! ## Searching -/

/-- `findExisting`, with the directories that were checked before. -/
def findExisting : List String → List String → World → Except EnsureError (Option String) × List String × World
  | [], seen, w => (.ok none, seen, w)
  | candidate :: rest, seen, w =>
    if candidate ∈ seen then findExisting rest seen w
    else if !w.fault && matches_ codec w.tree candidate manifest then (.ok (some candidate), candidate :: seen, w.next)
    else if w.next.fault then (.error .failed, candidate :: seen, w.next.next)
    else findExisting rest (candidate :: seen) w.next.next

/-- The directories with a file that could be the entry of the model. -/
def scan (tree : Tree) : List String :=
  ((tree.walk []).filter fun e => !e.1.dropLast.any isHidden && e.2 ≠ .dir &&
    (e.1.getLast? = some "config.json" || e.1.getLast? = some manifest.entry)).map fun e => pathText e.1.dropLast

def destination : String := "cluster-models/" ++ manifest.digest

def firstCandidates (preferred : String) : List String :=
  [if manifest.entry ≠ "" then pathDir preferred else preferred, destination manifest]

def modelPath (directory : String) : String :=
  if manifest.entry ≠ "" then pathJoin directory manifest.entry else directory

/-! ## Downloading -/

def stageName (suffix : Suffix) : String := ".cluster-download-" ++ suffix.text

def makeStage (suffix : Suffix) (w : World) : Result Unit :=
  if w.fault || (w.tree.get? [stageName suffix]).isSome then (.error .failed, w.next)
  else (.ok (), { w.next with tree := w.tree.set [stageName suffix] .dir })

/-- Make the file that a download is written to. -/
def createFile (stage : TreePath) (item : File) (w : World) : Result Unit :=
  if w.fault then (.error .failed, w.next)
  else match w.tree.mkdirAll (stage ++ pathNames item.path).dropLast with
    | none => (.error .failed, w.next)
    | some tree =>
      match tree.createNew (stage ++ pathNames item.path) with
      | none => (.error .failed, { w.next with tree })
      | some tree => (.ok (), { w.next with tree })

/-- Copy a stream and check it. At most one byte more than expected is read. -/
def copyStream (stage : TreePath) (item : File) (stream : Stream) (w : World) : Result Unit :=
  let limit := item.size.toNat + 1
  let copied := stream.bytes.take limit
  let written := { w.next with tree := w.tree.set (stage ++ pathNames item.path) (.file copied) }
  if w.fault || (stream.fails && stream.bytes.length < limit) then (.error .failed, written)
  else if copied.length ≠ item.size ∨ codec.hexSum copied ≠ item.sha256 then
    (.error (.message ("模型下載內容不符：" ++ item.path)), written)
  else (.ok (), written)

def fetchFile (fetch : Fetch) (stage : TreePath) (index : Nat) (item : File) (w : World) : Result Unit :=
  match createFile stage item w with
  | (.error e, w) => (.error e, w)
  | (.ok _, w) =>
    let w := { w with fetched := w.fetched ++ [index] }
    match fetch index with
    | none => (.error .failed, w)
    | some stream => copyStream codec stage item stream w

def fetchFiles (fetch : Fetch) (stage : TreePath) : Nat → List File → World → Result Unit
  | _, [], w => (.ok (), w)
  | index, item :: rest, w =>
    match fetchFile codec fetch stage index item w with
    | (.error e, w) => (.error e, w)
    | (.ok _, w) => fetchFiles fetch stage (index + 1) rest w

/-- What is at the destination already is kept. -/
def targetName (suffix : Suffix) (taken : Bool) : String :=
  if taken then destination manifest ++ "-" ++ suffix.text else destination manifest

/-- Rename the complete download. -/
def renameStage (suffix : Suffix) (target : String) (w : World) : Result String :=
  if w.fault then (.error .failed, w.next)
  else match w.tree.rename [stageName suffix] (pathNames target) with
    | none => (.error .failed, w.next)
    | some tree => (.ok target, { w.next with tree })

def publish (suffix : Suffix) (w : World) : Result String :=
  if w.fault then (.error .failed, w.next)
  else match w.tree.mkdirAll ["cluster-models"] with
    | none => (.error .failed, w.next)
    | some tree =>
      let w := { w.next with tree }
      renameStage suffix (targetName manifest suffix (w.fault || (tree.get? (pathNames (destination manifest))).isSome)) w.next

/-- The deferred removal of the stage. Its own failure is not reported. -/
def removeStage (suffix : Suffix) (w : World) : World :=
  if w.fault then w.next else { w.next with tree := w.tree.removeAll [stageName suffix] }

def downloadStaged (fetch : Fetch) (suffix : Suffix) (w : World) : Result String :=
  match fetchFiles codec fetch [stageName suffix] 0 manifest.files w with
  | (.error e, w) => (.error e, w)
  | (.ok _, w) => publish manifest suffix w

def download (fetch : Fetch) (suffix : Suffix) (w : World) : Result String :=
  match makeStage suffix w with
  | (.error e, w) => (.error e, w)
  | (.ok _, w) =>
    let (result, w) := downloadStaged codec manifest fetch suffix w
    (result, removeStage suffix w)

/-- The directory of the model. -/
def ensureDirectory (preferred : String) (fetch : Fetch) (suffix : Suffix) (w : World) : Result String :=
  match findExisting codec manifest (firstCandidates manifest preferred) [] w with
  | (.error e, _, w) => (.error e, w)
  | (.ok (some found), _, w) => (.ok found, w)
  | (.ok none, seen, w) =>
    if w.fault then (.error .failed, w.next)
    else match findExisting codec manifest (scan manifest w.tree) seen w.next with
      | (.error e, _, w) => (.error e, w)
      | (.ok (some found), _, w) => (.ok found, w)
      | (.ok none, _, w) => download codec manifest fetch suffix w

def ensure (preferred : String) (fetch : Fetch) (suffix : Suffix) (w : World) : Result String :=
  match manifest.validate codec with
  | .error text => (.error (.message text), w)
  | .ok _ =>
    if w.fault then (.error .failed, w.next)
    else match ensureDirectory codec manifest preferred fetch suffix w.next with
      | (.error e, w) => (.error e, w)
      | (.ok directory, w) => (.ok (modelPath manifest directory), w)

end
end Tanpopo.Bundle
