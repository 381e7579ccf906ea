import Tanpopo.Lib.LinkTree
import Tanpopo.Lib.Path
import Mathlib
/-!
# Unpacking an update

`extractAndValidate` unpacks an update archive below a directory of its own. The
entries are checked one by one before they are written, and every operation on
the disk may fail.

- `extract_safe`: what is on the disk afterwards, whatever the archive holds.
-/

namespace Tanpopo.AppUpdate

open Go

/-- The bits of `fs.FileMode` that are looked at. -/
structure FileMode where
  directory : Bool
  symlink : Bool
  /-- Any other bit of `fs.ModeType`. -/
  special : Bool

def FileMode.isRegular (mode : FileMode) : Bool := !mode.directory && !mode.symlink && !mode.special

structure ZipEntry where
  name : String
  encrypted : Bool
  mode : FileMode
  uncompressedSize64 : UInt64
  opens : Bool
  /-- What the decompressor gives, and whether it fails after that. -/
  bytes : List UInt8
  fails : Bool

inductive ArchiveError where
  | message (text : String)
  /-- A message about the quoted name of an entry. -/
  | named (text name : String)
  /-- A message with the error of the operation that failed. -/
  | wrapped (text : String)
  deriving DecidableEq

def maxArchiveFiles : Nat := 100000

def maxArchiveEntryBytes : UInt64 := 8 * 2 ^ 30

def maxArchiveTotalBytes : UInt64 := 16 * 2 ^ 30

/-! ## The disk -/

/-- An entry that was written: the path it was written to, where that led, and how much was written. -/
structure Written where
  path : Place
  place : Place
  size : Nat
  deriving DecidableEq

structure Disk where
  tree : LinkTree
  /-- How the next operations go. A write that fails stops after a number of bytes. -/
  faults : List (Option Nat)
  written : List Written

namespace Disk

def fault (d : Disk) : Option Nat := d.faults.headD none

def next (d : Disk) : Disk := { d with faults := d.faults.tail }

/-- `os.Mkdir`. -/
def mkdir (d : Disk) (path : Place) : Bool × Disk :=
  match d.fault, d.tree.newPlace path with
  | none, some place => (true, { d.next with tree := d.tree.set place .dir })
  | _, _ => (false, d.next)

/-- Make what is missing of a path. -/
def mkdirFrom (d : Disk) (parent : Place) : List String → Bool × Disk
  | [] => (true, d)
  | name :: rest => match d.tree.stat (parent ++ [name]) with
    | some .dir => mkdirFrom d (parent ++ [name]) rest
    | some _ => (false, d)
    | none => match d.mkdir (parent ++ [name]) with
      | (true, d) => mkdirFrom d (parent ++ [name]) rest
      | (false, d) => (false, d)

def mkdirAll (d : Disk) (path : Place) : Bool × Disk := mkdirFrom d [] path

/-- `os.OpenFile` with `O_CREATE` and `O_EXCL`. -/
def create (d : Disk) (path : Place) : Option Place × Disk :=
  match d.fault, d.tree.newPlace path with
  | none, some place => (some place, { d.next with tree := d.tree.set place (.file []) })
  | _, _ => (none, d.next)

def write (d : Disk) (place : Place) (bytes : List UInt8) : Bool × Disk :=
  match d.fault with
  | none => (true, { d.next with tree := d.tree.set place (.file bytes) })
  | some n => (false, { d.next with tree := d.tree.set place (.file (bytes.take n)) })

def close (d : Disk) : Bool × Disk := (d.fault.isNone, d.next)

end Disk

/-! ## One entry -/

def validateArchiveName (name : String) : Except ArchiveError (String × String) :=
  if name = "" ∨ '\\' ∈ name.toList ∨ isAbs name = true then .error (.named "更新 ZIP 包含無效路徑: " name)
  else
    let cleanName := pathClean name
    if cleanName = "." ∨ cleanName = ".." ∨ hasPrefix cleanName "../" = true then
      .error (.named "更新 ZIP 包含不安全路徑: " name)
    else match split cleanName '/' with
      | [] => .error (.named "更新 ZIP 包含無效路徑: " name)
      | rootName :: _ =>
        if rootName = "" ∨ rootName = "." ∨ rootName = ".." then .error (.named "更新 ZIP 包含無效路徑: " name)
        else .ok (cleanName, rootName)

structure Progress where
  seen : List String
  topLevel : String
  totalBytes : UInt64

/-- What is checked before anything of an entry is written. -/
def checkEntry (s : Progress) (entry : ZipEntry) : Except ArchiveError (String × Progress) :=
  match validateArchiveName entry.name with
  | .error e => .error e
  | .ok (cleanName, rootName) =>
    if s.topLevel ≠ "" ∧ s.topLevel ≠ rootName then .error (.message "更新 ZIP 必須只包含一個最上層目錄")
    else if cleanName ∈ s.seen then .error (.message ("更新 ZIP 包含重複路徑: " ++ cleanName))
    else if entry.encrypted then .error (.message ("更新 ZIP 不支援加密檔案: " ++ cleanName))
    else if entry.mode.symlink || (!entry.mode.directory && !entry.mode.isRegular) then
      .error (.message ("更新 ZIP 包含不支援的檔案類型: " ++ cleanName))
    else if entry.uncompressedSize64 > maxArchiveEntryBytes then .error (.message ("更新 ZIP 的單一檔案過大: " ++ cleanName))
    else if s.totalBytes > maxArchiveTotalBytes - entry.uncompressedSize64 then
      .error (.message "更新 ZIP 解壓後超過 16 GiB 上限")
    else .ok (cleanName, ⟨cleanName :: s.seen, rootName, s.totalBytes + entry.uncompressedSize64⟩)

/-- Copy at most one byte more than the entry declares. -/
def copyEntry (entry : ZipEntry) (cleanName : String) (destination place : Place) (d : Disk) :
    Except ArchiveError Unit × Disk :=
  let limit := entry.uncompressedSize64.toNat + 1
  let copied := entry.bytes.take limit
  let (wrote, d) := d.write place copied
  let (closed, d) := d.close
  let (closedSource, d) := d.close
  if !wrote || (entry.fails && entry.bytes.length < limit) || !closed || !closedSource then
    (.error (.message ("解壓縮更新檔案失敗: " ++ cleanName)), d)
  else if copied.length ≠ entry.uncompressedSize64.toNat then (.error (.message ("更新檔案大小不符: " ++ cleanName)), d)
  else (.ok (), { d with written := d.written ++ [⟨destination, place, copied.length⟩] })

def writeEntry (entry : ZipEntry) (cleanName : String) (destination : Place) (d : Disk) : Except ArchiveError Unit × Disk :=
  if entry.mode.directory then match d.mkdirAll destination with
    | (false, d) => (.error (.wrapped "建立更新目錄失敗"), d)
    | (true, d) =>
      let place := (d.tree.follow LinkTree.maxLinks destination).getD destination
      (.ok (), { d with written := d.written ++ [⟨destination, place, 0⟩] })
  else match d.mkdirAll destination.dropLast with
    | (false, d) => (.error (.wrapped "建立更新目錄失敗"), d)
    | (true, d) =>
      if !entry.opens then (.error (.wrapped "讀取更新檔案失敗"), d)
      else match d.create destination with
        | (none, d) => (.error (.wrapped "建立更新檔案失敗"), d)
        | (some place, d) => copyEntry entry cleanName destination place d

def extractEntries (extractRoot : Place) : List ZipEntry → Progress → Disk → Except ArchiveError Progress × Disk
  | [], s, d => (.ok s, d)
  | entry :: rest, s, d => match checkEntry s entry with
    | .error e => (.error e, d)
    | .ok (cleanName, s) => match writeEntry entry cleanName (extractRoot ++ split cleanName '/') d with
      | (.error e, d) => (.error e, d)
      | (.ok (), d) => extractEntries extractRoot rest s d

/-! ## The archive -/

/-- `reader` is what `zip.OpenReader` gives. `validatePayload` only reads the disk. -/
def extractAndValidate (validatePayload : LinkTree → Place → Except ArchiveError String) (reader : Option (List ZipEntry))
    (extractRoot : Place) (d : Disk) : Except ArchiveError (Place × String) × Disk :=
  match reader with
  | none => (.error (.wrapped "無法開啟更新 ZIP"), d)
  | some files =>
    if files.length = 0 then (.error (.message "更新 ZIP 沒有任何檔案"), d)
    else if files.length > maxArchiveFiles then (.error (.message "更新 ZIP 的檔案數量過多"), d)
    else match d.mkdirAll extractRoot with
      | (false, d) => (.error (.wrapped "建立解壓縮目錄失敗"), d)
      | (true, d) => match extractEntries extractRoot files ⟨[], "", 0⟩ d with
        | (.error e, d) => (.error e, d)
        | (.ok s, d) => match validatePayload d.tree (extractRoot ++ [s.topLevel]) with
          | .error e => (.error e, d)
          | .ok version => (.ok (extractRoot ++ [s.topLevel], version), d)

/-! ## Names -/

variable {entry : ZipEntry} {entries : List ZipEntry} {s s' : Progress} {d d' : Disk} {extractRoot path : Place}
  {top cleanName rootName : String} {more : List String}

theorem cleaned_of_validateArchiveName {name : String} (h : validateArchiveName name = .ok (cleanName, rootName)) :
    cleanName = pathClean name ∧ rootName ≠ "" ∧ ∃ more, split cleanName '/' = rootName :: more := by
  unfold validateArchiveName at h
  split at h
  · cases h
  dsimp only at h
  split at h
  · cases h
  split at h
  · cases h
  · rename_i first more hsplit
    split at h
    · cases h
    · rename_i hfirst
      cases h
      exact ⟨rfl, fun hempty => hfirst (.inl hempty), more, hsplit⟩

/-- The parts of an accepted name are names: nothing in it leads back or to the root. -/
theorem isName_of_validateArchiveName {name : String} (h : validateArchiveName name = .ok (cleanName, rootName)) :
    ∀ part ∈ split cleanName '/', IsName part := by
  unfold validateArchiveName at h
  split at h
  · cases h
  rename_i hname
  have hrel : hasPrefix name "/" = false := Bool.eq_false_iff.2 fun habs => hname (.inr (.inr habs))
  dsimp only at h
  split at h
  · cases h
  rename_i hclean
  split at h
  · cases h
  split at h
  · cases h
  cases h
  obtain ⟨hdot, hup, hups⟩ : pathClean name ≠ "." ∧ pathClean name ≠ ".." ∧ ¬ hasPrefix (pathClean name) "../" = true := by
    simpa only [not_or] using hclean
  have htext : pathClean name = join (walk false [] (split name '/')) '/' := by
    rw [pathClean, hrel, if_neg (by decide)] at hdot ⊢
    change (if join (walk false [] (split name '/')) '/' = "" then "." else _) = _
    by_cases hempty : join (walk false [] (split name '/')) '/' = ""
    · exact absurd (if_pos hempty) hdot
    · exact if_neg hempty
  have hne : walk false [] (split name '/') ≠ [] := by
    intro hnil
    rw [pathClean, hrel, if_neg (by decide)] at hdot
    change (if join (walk false [] (split name '/')) '/' = "" then "." else _) ≠ _ at hdot
    rw [hnil, if_pos (by decide)] at hdot
    exact hdot rfl
  obtain ⟨k, rest, hwalk, hrest⟩ := (cleaned_walk (split name '/')).climbs
  rw [htext, split_join_walk (by simp) hne]
  -- A clean path that climbs begins with two dots, which the check refuses.
  cases k with
  | zero =>
    rw [hwalk]
    exact hrest
  | succ k =>
    rw [htext, hwalk, List.replicate_succ, List.cons_append] at hup hups
    rcases join_up (List.replicate k ".." ++ rest) with h | h
    · exact absurd h hup
    · exact absurd h hups

/-! ## Checks -/

/-- What the checks of an entry promise. -/
structure Checked (entry : ZipEntry) (s s' : Progress) (cleanName : String) : Prop where
  name : cleanName = pathClean entry.name
  top : s'.topLevel ≠ "" ∧ ∃ more, split cleanName '/' = s'.topLevel :: more
  parts : ∀ part ∈ split cleanName '/', IsName part
  same_top : s.topLevel = "" ∨ s.topLevel = s'.topLevel
  fresh : cleanName ∉ s.seen
  seen : s'.seen = cleanName :: s.seen
  total : s'.totalBytes.toNat = s.totalBytes.toNat + entry.uncompressedSize64.toNat
  total_le : s'.totalBytes.toNat ≤ maxArchiveTotalBytes.toNat

theorem add_of_checked {total size : UInt64} (hsize : ¬ size > maxArchiveEntryBytes)
    (htotal : ¬ total > maxArchiveTotalBytes - size) :
    (total + size).toNat = total.toNat + size.toNat ∧ (total + size).toNat ≤ maxArchiveTotalBytes.toNat := by
  have hentry : maxArchiveEntryBytes.toNat = 8 * 2 ^ 30 := rfl
  have hmax : maxArchiveTotalBytes.toNat = 16 * 2 ^ 30 := rfl
  rw [gt_iff_lt, UInt64.lt_iff_toNat_lt] at hsize
  rw [gt_iff_lt, UInt64.lt_iff_toNat_lt, UInt64.toNat_sub_of_le _ _ (UInt64.le_iff_toNat_le.2 (by omega))] at htotal
  rw [UInt64.toNat_add]
  omega

theorem checked_of_checkEntry (h : checkEntry s entry = .ok (cleanName, s')) : Checked entry s s' cleanName := by
  unfold checkEntry at h
  split at h
  · cases h
  rename_i cleanName' rootName hname
  split at h
  · cases h
  rename_i htop
  split at h
  · cases h
  rename_i hseen
  split at h
  · cases h
  split at h
  · cases h
  split at h
  · cases h
  rename_i hsize
  split at h
  · cases h
  rename_i htotal
  cases h
  obtain ⟨hclean, hroot, hsplit⟩ := cleaned_of_validateArchiveName hname
  exact {
    name := hclean
    top := ⟨hroot, hsplit⟩
    parts := isName_of_validateArchiveName hname
    same_top := by
      by_cases hempty : s.topLevel = ""
      · exact .inl hempty
      · exact .inr (by_contra fun hne => htop ⟨hempty, hne⟩)
    fresh := hseen
    seen := rfl
    total := (add_of_checked hsize htotal).1
    total_le := (add_of_checked hsize htotal).2 }

/-! ## Operations on the disk -/

namespace Disk

variable {P : Place → Prop} {place : Place}

/-- Where a new entry may go. -/
def Absent (d : Disk) (path place : Place) : Prop := place = path ∧ place ≠ [] ∧ d.tree.get? place = none

@[simp] theorem written_next (d : Disk) : d.next.written = d.written := rfl

@[simp] theorem tree_next (d : Disk) : d.next.tree = d.tree := rfl

theorem mkdir_adds (h : d.tree.NoLinks path) : LinkTree.Adds (d.Absent path) d.tree (d.mkdir path).2.tree := by
  unfold mkdir
  split
  · rename_i place _ hplace
    obtain ⟨rfl, hne, habsent⟩ := LinkTree.newPlace_noLinks h hplace
    exact LinkTree.Adds.set ⟨rfl, hne, habsent⟩ (by simp)
  · exact LinkTree.Adds.refl

@[simp] theorem written_mkdir : (d.mkdir path).2.written = d.written := by
  unfold mkdir
  split <;> rfl

theorem create_adds (h : d.tree.NoLinks path) : LinkTree.Adds (d.Absent path) d.tree (d.create path).2.tree := by
  unfold create
  split
  · rename_i place _ hplace
    obtain ⟨rfl, hne, habsent⟩ := LinkTree.newPlace_noLinks h hplace
    exact LinkTree.Adds.set ⟨rfl, hne, habsent⟩ (by simp)
  · exact LinkTree.Adds.refl

theorem create_place (h : d.tree.NoLinks path) (hcreate : d.create path = (some place, d')) :
    place = path ∧ d.Absent path place := by
  unfold create at hcreate
  split at hcreate
  · rename_i place' _ hplace
    cases hcreate
    obtain ⟨rfl, hne, habsent⟩ := LinkTree.newPlace_noLinks h hplace
    exact ⟨rfl, rfl, hne, habsent⟩
  · cases hcreate

@[simp] theorem written_create : (d.create path).2.written = d.written := by
  unfold create
  split <;> rfl

theorem write_adds (d : Disk) (place : Place) (bytes : List UInt8) : LinkTree.Adds (· = place) d.tree (d.write place bytes).2.tree := by
  unfold write
  split <;> exact LinkTree.Adds.set rfl (by simp)

@[simp] theorem written_write (bytes : List UInt8) : (d.write place bytes).2.written = d.written := by
  unfold write
  split <;> rfl

/-- Making the directories of a path fills in what is absent on it. -/
theorem mkdirFrom_adds (parent : Place) {names : List String} (h : d.tree.NoLinks (parent ++ names)) :
    LinkTree.Adds (fun place => place <+: parent ++ names ∧ place ≠ [] ∧ d.tree.get? place = none) d.tree
      (d.mkdirFrom parent names).2.tree ∧ (d.mkdirFrom parent names).2.written = d.written := by
  induction names generalizing d parent with
  | nil => exact ⟨LinkTree.Adds.refl, rfl⟩
  | cons name rest ih =>
    have hsplit : parent ++ name :: rest = parent ++ [name] ++ rest := by simp
    have hfirst : parent ++ [name] <+: parent ++ name :: rest := hsplit ▸ List.prefix_append _ _
    rw [mkdirFrom]
    split
    · rw [hsplit] at h ⊢
      exact ih _ h
    · exact ⟨LinkTree.Adds.refl, rfl⟩
    · have hmake := mkdir_adds (h.of_prefix hfirst)
      have hwritten : (d.mkdir (parent ++ [name])).2.written = d.written := written_mkdir
      have hregion : LinkTree.Adds (fun place => place <+: parent ++ name :: rest ∧ place ≠ [] ∧ d.tree.get? place = none)
          d.tree (d.mkdir (parent ++ [name])).2.tree := hmake.mono fun place hplace => ⟨hplace.1 ▸ hfirst, hplace.2⟩
      split
      · rename_i d₁ heq
        rw [heq] at hmake hwritten hregion
        obtain ⟨hadds, hwritten'⟩ := ih _ (hsplit ▸ hmake.noLinks h)
        refine ⟨hregion.trans (hadds.mono fun place hplace => ?_), hwritten'.trans hwritten⟩
        rw [← hsplit] at hplace
        refine ⟨hplace.1, hplace.2.1, ?_⟩
        by_cases hnew : d.Absent (parent ++ [name]) place
        · exact hnew.2.2
        · exact (hmake.outside place hnew).symm.trans hplace.2.2
      · rename_i d₁ heq
        rw [heq] at hwritten hregion
        exact ⟨hregion, hwritten⟩

end Disk

/-! ## One entry on the disk -/

/-- The directory an archive is unpacked to. Callers pass one they have just made, or one in such a directory. -/
structure Ready (extractRoot : Place) (t : LinkTree) : Prop where
  parents : ∀ p, p <+: extractRoot → p ≠ [] → p ≠ extractRoot → t.get? p = some .dir
  noLinks : ∀ rest target, t.get? (extractRoot ++ rest) ≠ some (.link target)

/-- The directory itself, or a place in its one top-level directory. -/
def InTop (extractRoot : Place) (top : String) (place : Place) : Prop :=
  place = extractRoot ∨ extractRoot ++ [top] <+: place

theorem InTop.inside {place : Place} (h : InTop extractRoot top place) : extractRoot <+: place := by
  rcases h with rfl | h
  · exact List.prefix_rfl
  · exact (List.prefix_append _ _).trans h

namespace Ready

variable {t t' : LinkTree} {place : Place} {rest : List String}

theorem below (h : Ready extractRoot t) : t.NoLinks (extractRoot ++ rest) := by
  intro p hp hne target
  rcases List.prefix_or_prefix_of_prefix hp (List.prefix_append extractRoot rest) with hbefore | ⟨tail, rfl⟩
  · by_cases heq : p = extractRoot
    · have := h.noLinks [] target
      rwa [List.append_nil, ← heq] at this
    · rw [h.parents p hbefore hne heq]
      simp
  · exact h.noLinks tail target

theorem adds (h : Ready extractRoot t) (hadds : LinkTree.Adds (InTop extractRoot top) t t') : Ready extractRoot t' where
  parents p hp hne hproper := by
    rw [hadds.outside, h.parents p hp hne hproper]
    intro hin
    exact hproper (hp.eq_of_length_le hin.inside.length_le)
  noLinks rest target hlink := h.noLinks rest target (hadds.links _ _ hlink)

/-- What is absent on the path of an entry may be made. -/
theorem inTop_of_absent (h : Ready extractRoot t) (hplace : place <+: extractRoot ++ top :: more) (hne : place ≠ [])
    (habsent : t.get? place = none) : InTop extractRoot top place := by
  rcases List.prefix_or_prefix_of_prefix hplace (List.prefix_append extractRoot (top :: more)) with hbefore | ⟨tail, rfl⟩
  · by_cases heq : place = extractRoot
    · exact .inl heq
    · rw [h.parents place hbefore hne heq] at habsent
      cases habsent
  · rw [List.prefix_append_right_inj] at hplace
    cases tail with
    | nil => exact .inl (List.append_nil _)
    | cons name tail =>
      obtain ⟨rfl, -⟩ := List.cons_prefix_cons.1 hplace
      exact .inr ((List.prefix_append_right_inj _).2 ⟨tail, rfl⟩)

theorem mkdirAll_adds (h : Ready extractRoot d.tree) (more : List String) (hpath : path <+: extractRoot ++ top :: more)
    (hlinks : d.tree.NoLinks path) : LinkTree.Adds (InTop extractRoot top) d.tree (d.mkdirAll path).2.tree ∧
      (d.mkdirAll path).2.written = d.written := by
  obtain ⟨hadds, hwritten⟩ := Disk.mkdirFrom_adds [] hlinks
  exact ⟨hadds.mono fun place hplace => h.inTop_of_absent (hplace.1.trans hpath) hplace.2.1 hplace.2.2, hwritten⟩

end Ready

/-- What is written for an entry. -/
def record (extractRoot : Place) (entry : ZipEntry) : Written where
  path := extractRoot ++ split (pathClean entry.name) '/'
  place := extractRoot ++ split (pathClean entry.name) '/'
  size := if entry.mode.directory then 0 else entry.uncompressedSize64.toNat

theorem copyEntry_adds {destination place : Place} :
    LinkTree.Adds (· = place) d.tree (copyEntry entry cleanName destination place d).2.tree := by
  have hwrite := Disk.write_adds d place (entry.bytes.take (entry.uncompressedSize64.toNat + 1))
  unfold copyEntry
  dsimp only
  split
  · exact hwrite
  split
  · exact hwrite
  · exact hwrite

theorem written_copyEntry {destination place : Place} (h : copyEntry entry cleanName destination place d = (.ok (), d')) :
    d'.written = d.written ++ [⟨destination, place, entry.uncompressedSize64.toNat⟩] := by
  unfold copyEntry at h
  dsimp only at h
  split at h
  · cases h
  split at h
  · cases h
  · rename_i hlength
    obtain rfl := congrArg Prod.snd h
    rw [not_not] at hlength
    rw [hlength]
    exact congrArg (· ++ _) (Disk.written_write _)

/-- An entry only touches its top-level directory, and goes exactly where its name says. -/
theorem writeEntry_adds (h : Ready extractRoot d.tree) (hsplit : split (pathClean entry.name) '/' = top :: more)
    {result : Except ArchiveError Unit}
    (hwrite : writeEntry entry (pathClean entry.name) (extractRoot ++ split (pathClean entry.name) '/') d = (result, d')) :
    LinkTree.Adds (InTop extractRoot top) d.tree d'.tree ∧
      (result = .ok () → d'.written = d.written ++ [record extractRoot entry]) := by
  have hpath : extractRoot ++ split (pathClean entry.name) '/' <+: extractRoot ++ top :: more :=
    hsplit ▸ List.prefix_rfl
  have hlinks : d.tree.NoLinks (extractRoot ++ split (pathClean entry.name) '/') := h.below
  unfold writeEntry at hwrite
  split at hwrite
  · -- A directory, of which every part stays below its top-level name.
    rename_i hdirectory
    obtain ⟨hadds, hwritten⟩ := h.mkdirAll_adds more hpath hlinks
    split at hwrite
    · rename_i d₁ hmake
      rw [hmake] at hadds
      cases hwrite
      exact ⟨hadds, fun hok => by cases hok⟩
    · rename_i d₁ hmake
      rw [hmake] at hadds hwritten
      obtain rfl := congrArg Prod.snd hwrite
      refine ⟨hadds, fun _ => ?_⟩
      have hplace : (d₁.tree.follow LinkTree.maxLinks (extractRoot ++ split (pathClean entry.name) '/')).getD
          (extractRoot ++ split (pathClean entry.name) '/') = extractRoot ++ split (pathClean entry.name) '/' := by
        cases hfollow : d₁.tree.follow LinkTree.maxLinks (extractRoot ++ split (pathClean entry.name) '/') with
        | none => rfl
        | some place => exact LinkTree.follow_noLinks (hadds.noLinks hlinks) hfollow
      have hsame : d₁.written = d.written := hwritten
      rw [record, if_pos hdirectory]
      simp only [hplace, hsame]
  · -- A file: first the directories above it, then the file itself where nothing was.
    rename_i hdirectory
    have hparent := List.dropLast_prefix (extractRoot ++ split (pathClean entry.name) '/')
    obtain ⟨hadds, hwritten⟩ := h.mkdirAll_adds more (hparent.trans hpath) (hlinks.of_prefix hparent)
    split at hwrite
    · rename_i d₁ hmake
      rw [hmake] at hadds
      cases hwrite
      exact ⟨hadds, fun hok => by cases hok⟩
    rename_i d₁ hmake
    rw [hmake] at hadds hwritten
    split at hwrite
    · cases hwrite
      exact ⟨hadds, fun hok => by cases hok⟩
    have hlinks₁ := hadds.noLinks hlinks
    have hcreate := (Disk.create_adds hlinks₁).mono fun place hplace =>
      (h.adds hadds).inTop_of_absent (hplace.1 ▸ hpath) hplace.2.1 hplace.2.2
    have hwritten₁ : (d₁.create (extractRoot ++ split (pathClean entry.name) '/')).2.written = d₁.written :=
      Disk.written_create
    split at hwrite
    · rename_i d₂ heq
      rw [heq] at hcreate
      cases hwrite
      exact ⟨hadds.trans hcreate, fun hok => by cases hok⟩
    · rename_i place d₂ heq
      obtain ⟨rfl, habsent⟩ := Disk.create_place hlinks₁ heq
      have hin := (h.adds hadds).inTop_of_absent hpath habsent.2.1 habsent.2.2
      have hcopy : LinkTree.Adds (InTop extractRoot top) d₂.tree d'.tree :=
        (congrArg (·.2.tree) hwrite) ▸ copyEntry_adds.mono fun place hplace => hplace ▸ hin
      rw [heq] at hcreate hwritten₁
      refine ⟨(hadds.trans hcreate).trans hcopy, fun hok => ?_⟩
      subst hok
      have hsame : d₂.written = d.written := hwritten₁.trans hwritten
      rw [written_copyEntry hwrite, record, if_neg hdirectory, hsame]

/-! ## All entries -/

/-- What holds once the entries were unpacked from one progress to another. -/
structure Unpacked (extractRoot : Place) (entries : List ZipEntry) (s s' : Progress) (d d' : Disk) : Prop where
  top : entries ≠ [] → IsName s'.topLevel
  same_top : s.topLevel = "" ∨ s.topLevel = s'.topLevel
  adds : LinkTree.Adds (InTop extractRoot s'.topLevel) d.tree d'.tree
  written : d'.written = d.written ++ entries.map (record extractRoot)
  inside : ∀ entry ∈ entries, ∃ more, split (pathClean entry.name) '/' = s'.topLevel :: more
  distinct : (entries.map fun entry => pathClean entry.name).Nodup
  fresh : ∀ entry ∈ entries, pathClean entry.name ∉ s.seen
  total : s'.totalBytes.toNat = s.totalBytes.toNat + (entries.map fun entry => entry.uncompressedSize64.toNat).sum
  total_le : entries ≠ [] → s'.totalBytes.toNat ≤ maxArchiveTotalBytes.toNat

theorem Unpacked.cons {s₁ : Progress} {d₁ : Disk} (hcheck : Checked entry s s₁ (pathClean entry.name))
    (hadds : LinkTree.Adds (InTop extractRoot s₁.topLevel) d.tree d₁.tree)
    (hwritten : d₁.written = d.written ++ [record extractRoot entry])
    (hrest : Unpacked extractRoot entries s₁ s' d₁ d') : Unpacked extractRoot (entry :: entries) s s' d d' := by
  have htop : s₁.topLevel = s'.topLevel := hrest.same_top.resolve_left hcheck.top.1
  have hname : IsName s'.topLevel := by
    obtain ⟨more, hsplit⟩ := hcheck.top.2
    exact htop ▸ hcheck.parts s₁.topLevel (hsplit ▸ List.mem_cons_self)
  exact {
    top := fun _ => hname
    same_top := htop ▸ hcheck.same_top
    adds := (htop ▸ hadds).trans hrest.adds
    written := by rw [hrest.written, hwritten, List.append_assoc, List.map_cons, List.singleton_append]
    inside := by
      rintro other hother
      rcases List.mem_cons.1 hother with rfl | hother
      · exact htop ▸ hcheck.top.2
      · exact hrest.inside other hother
    distinct := by
      rw [List.map_cons, List.nodup_cons]
      refine ⟨fun hmem => ?_, hrest.distinct⟩
      obtain ⟨other, hother, heq⟩ := List.mem_map.1 hmem
      have hseen := hrest.fresh other hother
      rw [hcheck.seen, heq] at hseen
      exact hseen List.mem_cons_self
    fresh := by
      rintro other hother
      rcases List.mem_cons.1 hother with rfl | hother
      · exact hcheck.fresh
      · have hseen := hrest.fresh other hother
        rw [hcheck.seen] at hseen
        exact fun hmem => hseen (List.mem_cons_of_mem _ hmem)
    total := by rw [hrest.total, hcheck.total, List.map_cons, List.sum_cons, Nat.add_assoc]
    total_le := by
      intro _
      by_cases hnil : entries = []
      · have htotal := hrest.total
        rw [hnil, List.map_nil, List.sum_nil, Nat.add_zero] at htotal
        exact htotal ▸ hcheck.total_le
      · exact hrest.total_le hnil }

theorem unpacked_of_extractEntries (hready : Ready extractRoot d.tree) {result : Except ArchiveError Progress}
    (h : extractEntries extractRoot entries s d = (result, d')) :
    (∀ place, ¬ extractRoot <+: place → d'.tree.get? place = d.tree.get? place) ∧
      ∀ s', result = .ok s' → Unpacked extractRoot entries s s' d d' := by
  induction entries generalizing s d with
  | nil =>
    cases h
    refine ⟨fun _ _ => rfl, fun s' hs => ?_⟩
    cases hs
    exact ⟨fun hne => absurd rfl hne, .inr rfl, LinkTree.Adds.refl, (List.append_nil _).symm, by simp, List.nodup_nil,
      by simp, rfl, fun hne => absurd rfl hne⟩
  | cons entry entries ih =>
    rw [extractEntries] at h
    split at h
    · cases h
      exact ⟨fun _ _ => rfl, fun s' hs => by cases hs⟩
    rename_i cleanName s₁ hcheck
    have hchecked := checked_of_checkEntry hcheck
    obtain rfl := hchecked.name
    obtain ⟨-, more, hsplit⟩ := hchecked.top
    split at h
    · rename_i d₁ hwrite
      obtain ⟨hadds, -⟩ := writeEntry_adds hready hsplit hwrite
      cases h
      exact ⟨fun place hplace => hadds.outside place fun hin => hplace hin.inside, fun s' hs => by cases hs⟩
    · rename_i d₁ hwrite
      obtain ⟨hadds, hwritten⟩ := writeEntry_adds hready hsplit hwrite
      obtain ⟨houtside, hrest⟩ := ih (hready.adds hadds) h
      refine ⟨fun place hplace => (houtside place hplace).trans (hadds.outside place fun hin => hplace hin.inside),
        fun s' hs => ?_⟩
      exact Unpacked.cons hchecked hadds (hwritten rfl) (hrest s' hs)

/-! ## The archive -/

/-- The running total of the first entries, as the loop adds it up. -/
def runningTotal (entries : List ZipEntry) (n : Nat) : UInt64 :=
  (entries.take n).foldl (fun total entry => total + entry.uncompressedSize64) 0

theorem toNat_runningTotal (h : (entries.map fun entry => entry.uncompressedSize64.toNat).sum < 2 ^ 64) (n : Nat) :
    (runningTotal entries n).toNat = ((entries.take n).map fun entry => entry.uncompressedSize64.toNat).sum := by
  have hle : ((entries.take n).map fun entry => entry.uncompressedSize64.toNat).sum < 2 ^ 64 :=
    ((List.take_sublist n entries).map _).sum_le_sum (by simp) |>.trans_lt h
  rw [runningTotal]
  generalize entries.take n = front at hle
  induction front using List.reverseRecOn with
  | nil => rfl
  | append_singleton front entry ih =>
    rw [List.map_append, List.sum_append, List.map_singleton, List.sum_singleton] at hle ⊢
    rw [List.foldl_append, List.foldl_cons, List.foldl_nil, UInt64.toNat_add, ih (by omega), Nat.mod_eq_of_lt hle]

/-- What is on the disk after an archive was unpacked. -/
structure Extracted (extractRoot : Place) (entries : List ZipEntry) (payload : Place) (d d' : Disk) : Prop where
  /-- Everything is in one directory below `extractRoot`, which may itself be new. -/
  top : ∃ top, IsName top ∧ payload = extractRoot ++ [top] ∧
    (∀ place, d'.tree.get? place ≠ d.tree.get? place → place = extractRoot ∨ payload <+: place)
  /-- Each entry was written, at a path of its own in that directory, which no link led away from. -/
  written : ∃ log, d'.written = d.written ++ log ∧ log.length = entries.length ∧ (log.map (·.path)).Nodup ∧
    (∀ w ∈ log, payload <+: w.path ∧ w.place = w.path ∧ d'.tree.NoLinks w.path) ∧
    (log.map (·.size)).sum ≤ maxArchiveTotalBytes.toNat
  total : ∀ n, (runningTotal entries n).toNat = ((entries.take n).map fun entry => entry.uncompressedSize64.toNat).sum

theorem extracted_of_unpacked {s' : Progress} {d₁ : Disk} (hne : entries ≠ []) (hready : Ready extractRoot d'.tree)
    (hmake : LinkTree.Adds (InTop extractRoot s'.topLevel) d.tree d₁.tree) (hwritten : d₁.written = d.written)
    (h : Unpacked extractRoot entries ⟨[], "", 0⟩ s' d₁ d') :
    Extracted extractRoot entries (extractRoot ++ [s'.topLevel]) d d' := by
  have htotal : (entries.map fun entry => entry.uncompressedSize64.toNat).sum ≤ maxArchiveTotalBytes.toNat := by
    have := h.total
    rw [UInt64.toNat_zero, Nat.zero_add] at this
    exact this ▸ h.total_le hne
  have hmax : maxArchiveTotalBytes.toNat = 16 * 2 ^ 30 := rfl
  refine ⟨⟨s'.topLevel, h.top hne, rfl, fun place hplace => ?_⟩, ⟨entries.map (record extractRoot), ?_, by simp, ?_, ?_, ?_⟩,
    toNat_runningTotal (by omega)⟩
  · by_contra hout
    exact hplace ((hmake.trans h.adds).outside place hout)
  · rw [h.written, hwritten]
  · have hpaths : (entries.map (record extractRoot)).map (·.path) =
        (entries.map fun entry => pathClean entry.name).map fun name => extractRoot ++ split name '/' := by
      rw [List.map_map, List.map_map]
      rfl
    rw [hpaths]
    exact h.distinct.map fun a b hab => split_injective (List.append_cancel_left hab)
  · intro w hw
    obtain ⟨entry, hentry, rfl⟩ := List.mem_map.1 hw
    obtain ⟨more, hsplit⟩ := h.inside entry hentry
    refine ⟨?_, rfl, hready.below⟩
    rw [record, hsplit, List.prefix_append_right_inj]
    exact ⟨more, rfl⟩
  · refine le_trans ?_ htotal
    rw [List.map_map]
    refine List.sum_le_sum fun entry _ => ?_
    rw [Function.comp_apply, record]
    split
    · exact Nat.zero_le _
    · exact Nat.le_refl _

/-- Nothing outside `extractRoot` changes, and what a success leaves in it is as declared. -/
theorem extract_safe (validatePayload : LinkTree → Place → Except ArchiveError String) (reader : Option (List ZipEntry))
    (extractRoot : Place) (d d' : Disk) (result : Except ArchiveError (Place × String))
    (hready : Ready extractRoot d.tree) (h : extractAndValidate validatePayload reader extractRoot d = (result, d')) :
    (∀ place, ¬ extractRoot <+: place → d'.tree.get? place = d.tree.get? place) ∧
      ∀ payload version, result = .ok (payload, version) →
        ∃ entries, reader = some entries ∧ Extracted extractRoot entries payload d d' := by
  unfold extractAndValidate at h
  split at h
  · cases h
    exact ⟨fun _ _ => rfl, fun _ _ hok => by cases hok⟩
  rename_i files
  split at h
  · cases h
    exact ⟨fun _ _ => rfl, fun _ _ hok => by cases hok⟩
  rename_i hlength
  have hne : files ≠ [] := fun hnil => hlength (List.length_eq_zero_iff.2 hnil)
  split at h
  · cases h
    exact ⟨fun _ _ => rfl, fun _ _ hok => by cases hok⟩
  -- Up to here nothing was written. From here on everything goes below the root.
  have hroot : d.tree.NoLinks extractRoot := hready.below.of_prefix (List.prefix_append extractRoot [])
  have hmake : ∀ top, LinkTree.Adds (InTop extractRoot top) d.tree (d.mkdirAll extractRoot).2.tree ∧
      (d.mkdirAll extractRoot).2.written = d.written := fun top =>
    hready.mkdirAll_adds [] (List.prefix_append _ _) hroot
  split at h
  · rename_i d₁ heq
    cases h
    rw [heq] at hmake
    exact ⟨fun place hplace => (hmake "").1.outside place fun hin => hplace hin.inside, fun _ _ hok => by cases hok⟩
  rename_i d₁ heq
  rw [heq] at hmake
  have hready₁ := hready.adds (hmake "").1
  split at h
  · rename_i e d₂ hextract
    obtain ⟨houtside, -⟩ := unpacked_of_extractEntries hready₁ hextract
    cases h
    exact ⟨fun place hplace => (houtside place hplace).trans
      ((hmake "").1.outside place fun hin => hplace hin.inside), fun _ _ hok => by cases hok⟩
  · rename_i s' d₂ hextract
    obtain ⟨houtside, hunpacked⟩ := unpacked_of_extractEntries hready₁ hextract
    have hkeep : ∀ place, ¬ extractRoot <+: place → d₂.tree.get? place = d.tree.get? place := fun place hplace =>
      (houtside place hplace).trans ((hmake "").1.outside place fun hin => hplace hin.inside)
    split at h
    · cases h
      exact ⟨hkeep, fun _ _ hok => by cases hok⟩
    · cases h
      refine ⟨hkeep, fun payload version hok => ⟨files, rfl, ?_⟩⟩
      cases hok
      have hunpacked' := hunpacked s' rfl
      exact extracted_of_unpacked hne (hready₁.adds hunpacked'.adds) (hmake s'.topLevel).1 (hmake "").2 hunpacked'

/-- A directory and a file in it. -/
def smallArchive : List ZipEntry :=
  [⟨"app/", false, ⟨true, false, false⟩, 0, true, [], false⟩, ⟨"app/VERSION", false, ⟨false, false, false⟩, 1, true, [49], false⟩]

theorem ready_empty (name : String) : Ready [name] ∅ where
  parents p hp hne hproper := by
    cases p with
    | nil => exact absurd rfl hne
    | cons first rest =>
      obtain ⟨rfl, hrest⟩ := List.cons_prefix_cons.1 hp
      exact absurd (List.prefix_nil.1 hrest ▸ rfl) hproper
  noLinks rest target h := by cases h

theorem smallArchive_extracted : ∃ d' entries, some smallArchive = some entries ∧
    Extracted ["u"] entries ["u", "app"] ⟨∅, [], []⟩ d' :=
  ⟨_, (extract_safe (fun _ _ => .ok "1") (some smallArchive) ["u"] ⟨∅, [], []⟩ _ _ (ready_empty "u") rfl).2
    ["u", "app"] "1" (by decide +kernel)⟩

end Tanpopo.AppUpdate
