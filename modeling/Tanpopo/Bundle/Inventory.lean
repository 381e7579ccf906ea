import Tanpopo.Bundle.Manifest
import Mathlib.Tactic.IntervalCases
/-!
# What a matching directory holds

`Staged` describes a directory into which the files of a manifest were written.
Its inventory is the manifest, less the files that no inventory lists.
-/

namespace Tanpopo.Bundle

open Go

variable {codec : Codec} {manifest : Manifest}

/-! ## Manifests -/

theorem valid_of_filesValid {previous : Option File} {files : List File} (h : filesValid previous files = true) :
    (∀ file ∈ files, validPath file.path = true ∧ relevant file.path = true ∧ 0 ≤ file.size) ∧
      (files.Pairwise fun a b => a.path < b.path) ∧ ∀ first ∈ previous, ∀ file ∈ files, first.path < file.path := by
  induction files generalizing previous with
  | nil => exact ⟨nofun, List.Pairwise.nil, nofun⟩
  | cons file rest ih =>
    simp only [filesValid, File.valid, Bool.and_eq_true, decide_eq_true_eq] at h
    obtain ⟨⟨⟨⟨⟨⟨hpath, hrelevant⟩, hsize⟩, -⟩, -⟩, hprevious⟩, hrest⟩ := h
    obtain ⟨hall, hsorted, hlater⟩ := ih hrest
    refine ⟨?_, ?_, ?_⟩
    · rintro other (_ | ⟨_, hother⟩)
      · exact ⟨hpath, hrelevant, hsize⟩
      · exact hall other hother
    · exact List.pairwise_cons.2 ⟨fun other hother => hlater file rfl other hother, hsorted⟩
    · rintro first hfirst other (_ | ⟨_, hother⟩)
      · cases hfirst
        simpa using hprevious
      · cases hfirst
        have hfile : first.path < file.path := by simpa using hprevious
        exact hfile.trans (hlater file rfl other hother)

theorem valid_of_validate (h : manifest.validate codec = .ok ()) : manifest.Valid codec := by
  unfold Manifest.validate at h
  split_ifs at h with h1 h2 h3 h4 h5
  rw [not_or] at h1
  obtain ⟨hall, hsorted, -⟩ := valid_of_filesValid (by simpa using h2)
  simp only [not_or, Bool.not_eq_true, Bool.not_eq_false', not_not] at h4
  refine ⟨h1.1, Nat.le_of_not_lt h1.2, fun file hfile => (hall file hfile).1, fun file hfile => (hall file hfile).2.1,
    fun file hfile => (hall file hfile).2.2, hsorted, ?_, by simpa using h4.1, h4.2.2⟩
  intro hentry
  by_contra hne
  exact h3 ⟨hentry, by simpa using hne⟩

/-! ## Paths -/

/-- What an accepted path consists of. -/
theorem validPath_parts {name : String} (h : validPath name = true) :
    pathNames name = split name '/' ∧ ∀ part ∈ split name '/', isHidden part = false := by
  simp only [validPath, Bool.and_eq_true, decide_eq_true_eq, List.all_eq_true] at h
  obtain ⟨⟨⟨⟨-, hdot⟩, -⟩, -⟩, hparts⟩ := h
  exact ⟨if_neg hdot, fun part hpart => by simpa [isHidden] using (hparts part hpart).1⟩

theorem pathNames_ne_nil {name : String} (h : validPath name = true) : pathNames name ≠ [] := by
  rw [(validPath_parts h).1]
  exact split_ne_nil _ _

theorem pathText_pathNames {name : String} (h : validPath name = true) : pathText (pathNames name) = name := by
  rw [pathText, if_neg (pathNames_ne_nil h), (validPath_parts h).1, join_split]

theorem visible_pathNames {name : String} (h : validPath name = true) : (pathNames name).any isHidden = false := by
  rw [(validPath_parts h).1, List.any_eq_false]
  exact fun part hpart => by simp [(validPath_parts h).2 part hpart]

/-! ## Names of synchronized copies -/

/-- The characters of a digest and of the suffix of a second copy. -/
def nameChars : List Char := "0123456789abcdef-".toList

theorem mem_nameChars_of_isDigit {c : Char} (h : c.isDigit = true) : c ∈ nameChars := by
  simp only [Char.isDigit, Bool.and_eq_true, decide_eq_true_eq, ge_iff_le, UInt32.le_iff_toNat_le] at h
  obtain ⟨hlow, hhigh⟩ : 48 ≤ c.toNat ∧ c.toNat ≤ 57 := h
  rw [(Char.ofNat_toNat c).symm]
  generalize c.toNat = n at hlow hhigh
  interval_cases n <;> decide +kernel

theorem mem_nameChars_of_hexDigit : ∀ n < 16, hexDigit n ∈ nameChars := by decide +kernel

theorem mem_nameChars_of_hexEncode {bytes : List UInt8} {c : Char} (h : c ∈ (hexEncode bytes).toList) : c ∈ nameChars := by
  rw [hexEncode, String.toList_ofList, List.mem_flatMap] at h
  obtain ⟨b, -, hc⟩ := h
  have hb := b.toNat_lt
  rcases List.mem_cons.1 hc with rfl | hc
  · exact mem_nameChars_of_hexDigit _ (by omega)
  · rw [List.mem_singleton] at hc
    exact hc ▸ mem_nameChars_of_hexDigit _ (by omega)

/-- A character that a path may have anywhere. -/
def plainChar (c : Char) : Bool :=
  c ≠ '/' && c ≠ '.' && c ≠ '\\' && c ≠ ':' && c ≠ '\x00' && !isSpace c && c.utf8Size = 1

theorem plainChar_of_mem {c : Char} (h : c ∈ nameChars) : plainChar c = true := by
  have hall : nameChars.all plainChar = true := by decide +kernel
  exact List.all_eq_true.1 hall c h

/-- A path of plain names is accepted. -/
theorem validPath_join {parts : List String} (hne : parts ≠ []) (hparts : ∀ part ∈ parts, part ≠ "")
    (hplain : ∀ part ∈ parts, ∀ c ∈ part.toList, plainChar c = true) (hshort : (join parts '/').length ≤ 1024) :
    validPath (join parts '/') = true ∧ pathNames (join parts '/') = parts := by
  simp only [plainChar, Bool.and_eq_true, decide_eq_true_eq, Bool.not_eq_true'] at hplain
  have hsplit : split (join parts '/') '/' = parts :=
    split_join hne fun part hpart hmem => (hplain part hpart _ hmem).1.1.1.1.1.1 rfl
  have hdot : ∀ part ∈ parts, '.' ∉ part.toList := fun part hpart hmem => (hplain part hpart _ hmem).1.1.1.1.1.2 rfl
  have hname : join parts '/' ≠ "." := by
    intro heq
    have hmem : '.' ∈ (join parts '/').toList := by rw [heq]; decide
    rcases mem_join hmem with hslash | ⟨part, hpart, hc⟩
    · cases hslash
    · exact hdot part hpart hc
  have hvalid : validPath (join parts '/') = true := by
    simp only [validPath, Bool.and_eq_true, decide_eq_true_eq, Bool.not_eq_true', List.all_eq_true, hsplit]
    refine ⟨⟨⟨⟨?_, hname⟩, ?_⟩, ?_⟩, ?_⟩
    · simp only [fsValidPath, Bool.or_eq_true, List.all_eq_true, hsplit, Bool.and_eq_true, decide_eq_true_eq]
      refine .inr fun part hpart => ⟨⟨hparts part hpart, ?_⟩, ?_⟩
      · rintro rfl
        exact hdot _ hpart (by decide)
      · rintro rfl
        exact hdot _ hpart (by decide)
    · rw [utf8ByteSize_eq_length]
      · exact hshort
      · intro c hc
        rcases mem_join hc with rfl | ⟨part, hpart, hc⟩
        · rfl
        · exact (hplain part hpart c hc).2
    · rw [containsAny, List.any_eq_false]
      intro c hc
      rcases mem_join hc with rfl | ⟨part, hpart, hc⟩
      · decide
      · obtain ⟨⟨⟨⟨⟨-, -⟩, hbackslash⟩, hcolon⟩, hzero⟩, -⟩ := (hplain part hpart c hc).1
        simp [hbackslash, hcolon, hzero]
    · intro part hpart
      refine ⟨?_, trimSpace_eq_self fun c hc => (hplain part hpart c hc).1.2⟩
      by_contra hhidden
      obtain ⟨rest, hrest⟩ := List.isPrefixOf_iff_prefix.1 (by simpa [hasPrefix] using hhidden : ".".toList.isPrefixOf part.toList = true)
      exact hdot part hpart (hrest ▸ List.mem_cons_self)
  exact ⟨hvalid, by rw [(validPath_parts hvalid).1, hsplit]⟩

/-! ## Complete directories -/

/-- The directory holds the listed files, and nothing else but directories. -/
structure Staged (codec : Codec) (tree : Tree) (directory : TreePath) (files : List File) : Prop where
  present : ∀ file ∈ files, ∃ content, tree.get? (directory ++ pathNames file.path) = some (.file content) ∧
    (content.length : Int) = file.size ∧ codec.hexSum content = file.sha256
  only : ∀ path e, path ≠ [] → tree.get? (directory ++ path) = some e →
    e = .dir ∨ ∃ file ∈ files, path = pathNames file.path

/-- A directory holds every file of the manifest with its size and sum and, as
far as the inventory of a whole directory goes, no other file. -/
structure Holds (codec : Codec) (tree : Tree) (directory : TreePath) (manifest : Manifest) : Prop where
  files : ∀ file ∈ manifest.files, ∃ content, fileAt tree directory file.path = some content ∧
    (content.length : Int) = file.size ∧ codec.hexSum content = file.sha256
  only : manifest.entry = "" → ∃ found, inventory tree directory = some found ∧
    found.map (fun file => (file.path, file.size)) =
      (manifest.files.filter fun file => inventoried file.path).map fun file => (file.path, file.size)

theorem mapM_eq_some {α β : Type} {f : α → Option β} {g : α → β} {l : List α} (h : ∀ a ∈ l, f a = some (g a)) :
    l.mapM f = some (l.map g) := by
  induction l with
  | nil => rfl
  | cons a rest ih =>
    rw [List.mapM_cons, h a List.mem_cons_self, ih fun b hb => h b (List.mem_cons_of_mem _ hb)]
    rfl

/-- The same files in any order are sorted alike. -/
theorem sort_eq_of_perm {found files : List File} (hsorted : files.Pairwise fun a b => a.path < b.path)
    (hperm : found.Perm files) : (found.insertionSort fun a b => a.path ≤ b.path) = files := by
  have htotal : Std.Total fun a b : File => a.path ≤ b.path := ⟨fun a b => le_total a.path b.path⟩
  have htrans : IsTrans File fun a b => a.path ≤ b.path := ⟨fun _ _ _ => le_trans⟩
  refine List.Perm.eq_of_pairwise ?_ (List.pairwise_insertionSort _ found) (hsorted.imp le_of_lt)
    ((List.perm_insertionSort _ _).trans hperm)
  intro a b ha hb hab hba
  have ha : a ∈ files := hperm.mem_iff.1 ((List.mem_insertionSort _).1 ha)
  have hinj : (files.map (·.path)).Nodup := List.pairwise_map.2 (hsorted.imp ne_of_lt)
  exact List.inj_on_of_nodup_map hinj ha hb (le_antisymm hab hba)

theorem nodup_inventoryEntries (tree : Tree) (directory : TreePath) :
    ((inventoryEntries tree directory).map (·.1)).Nodup :=
  Tree.nodup_walk.sublist (List.filter_sublist.map _)

theorem mem_inventoryEntries {tree : Tree} {directory path : TreePath} {e : Entry} :
    (path, e) ∈ inventoryEntries tree directory ↔ path ≠ [] ∧ tree.get? (directory ++ path) = some e ∧
      path.any isHidden = false ∧ e ≠ .dir ∧ inventoried (pathText path) = true := by
  rw [inventoryEntries, List.mem_filter, Tree.mem_walk]
  simp only [Bool.and_eq_true, Bool.not_eq_true', decide_eq_true_eq, and_assoc]

/-- The inventory of a complete directory is the manifest, without what no inventory lists. -/
theorem Staged.inventory_eq {tree : Tree} {directory : TreePath} (h : Staged codec tree directory manifest.files)
    (hvalid : manifest.Valid codec) : inventory tree directory =
      some ((manifest.files.filter fun file => inventoried file.path).map fun file => ⟨file.path, file.size, ""⟩) := by
  -- What the walk finds is a file of the manifest, and it is described as the manifest does.
  have hentry : ∀ path e, (path, e) ∈ inventoryEntries tree directory →
      ∃ file ∈ manifest.files, path = pathNames file.path ∧ inventoried file.path = true ∧
        inventoryFile (path, e) = some ⟨file.path, file.size, ""⟩ := by
    intro path e hmem
    obtain ⟨hne, hget, -, hdir, hinv⟩ := mem_inventoryEntries.1 hmem
    rcases h.only path e hne hget with rfl | ⟨file, hfile, rfl⟩
    · exact absurd rfl hdir
    obtain ⟨content, hcontent, hsize, -⟩ := h.present file hfile
    have hpath := hvalid.paths file hfile
    rw [pathText_pathNames hpath] at hinv
    cases Option.some.inj (hget.symm.trans hcontent)
    refine ⟨file, hfile, rfl, hinv, ?_⟩
    simp [inventoryFile, pathText_pathNames hpath, hpath, hsize]
  let describe : File → File := fun file => ⟨file.path, file.size, ""⟩
  let found : TreePath × Entry → File := fun e => (inventoryFile e).getD ⟨"", 0, ""⟩
  have hfound : ∀ e ∈ inventoryEntries tree directory, inventoryFile e = some (found e) := by
    intro e he
    obtain ⟨file, -, -, -, hdescribe⟩ := hentry e.1 e.2 he
    simp [found, hdescribe]
  have hlisted : ∀ file, file ∈ (inventoryEntries tree directory).map found ↔
      file ∈ (manifest.files.filter fun file => inventoried file.path).map describe := by
    intro file
    rw [List.mem_map, List.mem_map]
    constructor
    · rintro ⟨e, he, rfl⟩
      obtain ⟨file, hfile, -, hinv, hdescribe⟩ := hentry e.1 e.2 he
      exact ⟨file, List.mem_filter.2 ⟨hfile, hinv⟩, by simp [found, describe, hdescribe]⟩
    · rintro ⟨file, hfile, rfl⟩
      obtain ⟨hfile, hinv⟩ := List.mem_filter.1 hfile
      obtain ⟨content, hcontent, hsize, -⟩ := h.present file hfile
      have hpath := hvalid.paths file hfile
      refine ⟨(pathNames file.path, .file content), mem_inventoryEntries.2 ⟨pathNames_ne_nil hpath, hcontent, ?_, nofun, ?_⟩, ?_⟩
      · exact visible_pathNames hpath
      · rwa [pathText_pathNames hpath]
      · simp [found, describe, inventoryFile, pathText_pathNames hpath, hpath, hsize]
  -- Both lists have the same members without repetition, and the manifest is sorted.
  have hsorted : ((manifest.files.filter fun file => inventoried file.path).map describe).Pairwise
      fun a b => a.path < b.path := List.pairwise_map.2 (hvalid.sorted.filter _)
  have hperm : ((inventoryEntries tree directory).map found).Perm
      ((manifest.files.filter fun file => inventoried file.path).map describe) := by
    refine (List.perm_ext_iff_of_nodup ?_ (hsorted.imp fun hlt heq => ne_of_lt hlt (congrArg _ heq))).2 hlisted
    refine List.Nodup.map_on ?_ (List.Nodup.of_map _ (nodup_inventoryEntries tree directory))
    intro a ha b hb hab
    obtain ⟨file, hfile, hpath, -, hdescribe⟩ := hentry a.1 a.2 ha
    obtain ⟨file', hfile', hpath', -, hdescribe'⟩ := hentry b.1 b.2 hb
    simp only [found, hdescribe, hdescribe', Option.getD_some, File.mk.injEq] at hab
    refine List.inj_on_of_nodup_map (nodup_inventoryEntries tree directory) ha hb ?_
    rw [hpath, hpath', hab.1]
  have hcount := (List.length_filter_le (fun file => inventoried file.path) manifest.files).trans hvalid.count
  rw [inventory, mapM_eq_some hfound]
  simp only
  rw [if_neg (by rw [hperm.length_eq, List.length_map]; omega), sort_eq_of_perm hsorted hperm]

theorem fileAt_eq_some {tree : Tree} {directory : TreePath} {name : String} {content : List UInt8} :
    fileAt tree directory name = some content ↔ tree.get? (directory ++ pathNames name) = some (.file content) := by
  unfold fileAt
  split
  · rename_i found hfound
    rw [hfound, Option.some.injEq, Option.some.injEq, Entry.file.injEq]
  · rename_i hother
    exact ⟨fun h => (by cases h), fun h => absurd h (hother content)⟩

theorem Staged.holds {tree : Tree} {directory : TreePath} (h : Staged codec tree directory manifest.files)
    (hvalid : manifest.Valid codec) : Holds codec tree directory manifest where
  files := fun file hfile => by
    obtain ⟨content, hcontent, hsize, hsum⟩ := h.present file hfile
    exact ⟨content, fileAt_eq_some.2 hcontent, hsize, hsum⟩
  only := fun _ => by
    refine ⟨_, h.inventory_eq hvalid, ?_⟩
    rw [List.map_map]
    rfl

theorem mem_of_mapM_eq_some {α β : Type} {f : α → Option β} {l : List α} {l' : List β} (h : l.mapM f = some l') {b : β}
    (hb : b ∈ l') : ∃ a ∈ l, f a = some b := by
  induction l generalizing l' with
  | nil =>
    cases h
    cases hb
  | cons a rest ih =>
    rw [List.mapM_cons] at h
    obtain ⟨b', hb', h⟩ := Option.bind_eq_some_iff.1 h
    obtain ⟨rest', hrest', h⟩ := Option.bind_eq_some_iff.1 h
    cases h
    rcases List.mem_cons.1 hb with rfl | hb
    · exact ⟨a, List.mem_cons_self, hb'⟩
    · obtain ⟨a', ha', hab⟩ := ih hrest' hb
      exact ⟨a', List.mem_cons_of_mem _ ha', hab⟩

/-- An inventory lists only what can be in one. -/
theorem inventoried_of_mem_inventory {tree : Tree} {directory : TreePath} {found : List File} {file : File}
    (h : inventory tree directory = some found) (hfile : file ∈ found) : inventoried file.path = true := by
  unfold inventory at h
  split at h
  · cases h
  · rename_i files hfiles
    split at h
    · cases h
    · cases h
      obtain ⟨⟨path, e⟩, he, hdescribe⟩ := mem_of_mapM_eq_some hfiles ((List.mem_insertionSort _).1 hfile)
      have hinv := (mem_inventoryEntries.1 he).2.2.2.2
      unfold inventoryFile at hdescribe
      split at hdescribe
      · split at hdescribe
        · cases hdescribe
          exact hinv
        · cases hdescribe
      · cases hdescribe

/-- `Matches` accepts a directory only when it holds what the manifest lists. -/
theorem holds_of_matches {tree : Tree} {relative : String} (h : matches_ codec tree relative manifest = true) :
    ∃ directory, openDirectory tree relative = some directory ∧ Holds codec tree directory manifest ∧
      (manifest.entry = "" → ∀ file ∈ manifest.files, inventoried file.path = true) := by
  unfold matches_ at h
  split at h
  · cases h
  rename_i directory hopen
  rw [Bool.and_eq_true, List.all_eq_true] at h
  obtain ⟨hlisted, hcontent⟩ := h
  have hinventory : manifest.entry = "" → ∃ found, inventory tree directory = some found ∧
      found.map (fun file => (file.path, file.size)) = manifest.files.map fun file => (file.path, file.size) := by
    intro hentry
    rw [listed, if_pos hentry] at hlisted
    split at hlisted
    · cases hlisted
    · rename_i found hfound
      exact ⟨found, hfound, of_decide_eq_true hlisted⟩
  have hall : manifest.entry = "" → ∀ file ∈ manifest.files, inventoried file.path = true := by
    intro hentry file hfile
    obtain ⟨found, hfound, hsame⟩ := hinventory hentry
    have hmem : (file.path, file.size) ∈ found.map fun file => (file.path, file.size) :=
      hsame ▸ List.mem_map.2 ⟨file, hfile, rfl⟩
    obtain ⟨file', hfile', hpath⟩ := List.mem_map.1 hmem
    rw [← (Prod.mk.inj hpath).1]
    exact inventoried_of_mem_inventory hfound hfile'
  refine ⟨directory, hopen, ⟨?_, ?_⟩, hall⟩
  · intro file hfile
    have hmatch := hcontent file ((List.mem_insertionSort _).2 hfile)
    rw [contentMatches, Option.any_eq_true] at hmatch
    obtain ⟨content, hfound, hmatch⟩ := hmatch
    rw [Bool.and_eq_true, decide_eq_true_eq, decide_eq_true_eq] at hmatch
    exact ⟨content, hfound, hmatch.1, hmatch.2⟩
  · intro hentry
    rw [List.filter_eq_self.2 (hall hentry)]
    exact hinventory hentry

/-- A complete directory is found when every file of the manifest can be in an inventory. -/
theorem Staged.matches {tree : Tree} {relative : String} {directory : TreePath}
    (h : Staged codec tree directory manifest.files) (hvalid : manifest.Valid codec)
    (hopen : openDirectory tree relative = some directory)
    (hlisted : manifest.entry ≠ "" ∨ ∀ file ∈ manifest.files, inventoried file.path = true) :
    matches_ codec tree relative manifest = true := by
  have hholds := h.holds hvalid
  unfold matches_
  rw [hopen]
  simp only [Bool.and_eq_true, List.all_eq_true]
  refine ⟨?_, ?_⟩
  · unfold listed
    split
    · rename_i hentry
      have hall := hlisted.resolve_left (not_not.2 hentry)
      rw [h.inventory_eq hvalid, List.filter_eq_self.2 hall]
      simp
    · refine List.all_eq_true.2 fun file hfile => ?_
      obtain ⟨content, hcontent, hsize, -⟩ := hholds.files file hfile
      simp [hcontent, hsize]
  · intro file hfile
    obtain ⟨content, hcontent, hsize, hsum⟩ := hholds.files file ((List.mem_insertionSort _).1 hfile)
    simp [contentMatches, hcontent, hsize, hsum]

end Tanpopo.Bundle
