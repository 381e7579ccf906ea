import Tanpopo.Bundle.Ensure
import Tanpopo.Bundle.Inventory
import Mathlib.Data.List.TakeWhile
/-!
# Models are complete or not there

`ensure_correct`: a returned directory holds every file of the manifest, and an
error leaves everything visible as it was. `ensure_again_iff`: a second call
finds what the first one returned, unless the manifest of a whole directory
lists a file that no inventory lists.
-/

namespace Tanpopo.Bundle

open Go

variable {codec : Codec} {manifest : Manifest}

/-! ## Searching -/

/-- A search changes nothing. -/
theorem findExisting_world (codec : Codec) (manifest : Manifest) (candidates seen : List String) (w : World) :
    (findExisting codec manifest candidates seen w).2.2.tree = w.tree ∧
      (findExisting codec manifest candidates seen w).2.2.fetched = w.fetched := by
  induction candidates generalizing seen w with
  | nil => exact ⟨rfl, rfl⟩
  | cons candidate rest ih =>
    rw [findExisting]
    split_ifs
    · exact ih _ _
    · exact ⟨rfl, rfl⟩
    · exact ⟨rfl, rfl⟩
    · exact ih _ _

theorem matches_of_findExisting {candidates seen : List String} {w : World} {found : String}
    (h : (findExisting codec manifest candidates seen w).1 = .ok (some found)) :
    found ∈ candidates ∧ matches_ codec w.tree found manifest = true := by
  induction candidates generalizing seen w with
  | nil => cases h
  | cons candidate rest ih =>
    rw [findExisting] at h
    split_ifs at h with hseen hmatch
    · obtain ⟨hmem, hfound⟩ := ih h
      exact ⟨List.mem_cons_of_mem _ hmem, hfound⟩
    · cases h
      rw [Bool.and_eq_true] at hmatch
      exact ⟨List.mem_cons_self, hmatch.2⟩
    · obtain ⟨hmem, hfound⟩ := ih h
      exact ⟨List.mem_cons_of_mem _ hmem, hfound⟩

/-- When nothing fails, a search finds a match or there is none. -/
theorem findExisting_quiet (codec : Codec) (manifest : Manifest) (candidates seen : List String) (w : World) (hquiet : w.faults = [])
    (hseen : ∀ candidate ∈ seen, matches_ codec w.tree candidate manifest = false) :
    (∃ found seen', findExisting codec manifest candidates seen w = (.ok (some found), seen', w)) ∨
      ∃ seen', findExisting codec manifest candidates seen w = (.ok none, seen', w) ∧
        (∀ candidate ∈ seen', matches_ codec w.tree candidate manifest = false) ∧
        ∀ candidate ∈ candidates, matches_ codec w.tree candidate manifest = false := by
  have hnext : w.next = w := by
    cases w
    cases hquiet
    rfl
  have hfault : w.fault = false := by rw [World.fault, hquiet]; rfl
  induction candidates generalizing seen with
  | nil => exact .inr ⟨seen, rfl, hseen, nofun⟩
  | cons candidate rest ih =>
    rw [findExisting, hnext, hnext, hfault]
    split_ifs with hmem hmatch hfalse
    · rcases ih _ hseen with hfound | ⟨seen', heq, hseen', hrest⟩
      · exact .inl hfound
      · exact .inr ⟨seen', heq, hseen', List.forall_mem_cons.2 ⟨hseen candidate hmem, hrest⟩⟩
    · exact .inl ⟨candidate, candidate :: seen, rfl⟩
    · exact hfalse.elim
    · have hmiss : matches_ codec w.tree candidate manifest = false := by simpa using hmatch
      rcases ih _ (List.forall_mem_cons.2 ⟨hmiss, hseen⟩) with hfound | ⟨seen', heq, hseen', hrest⟩
      · exact .inl hfound
      · exact .inr ⟨seen', heq, hseen', List.forall_mem_cons.2 ⟨hmiss, hrest⟩⟩

/-! ## Downloading -/

/-- Two trees agree outside of the stage. -/
def AgreeOff (stage : TreePath) (tree tree' : Tree) : Prop := ∀ path, ¬ stage <+: path → tree'.get? path = tree.get? path

theorem AgreeOff.trans {stage : TreePath} {a b c : Tree} (h : AgreeOff stage a b) (h' : AgreeOff stage b c) :
    AgreeOff stage a c := fun path hpath => (h' path hpath).trans (h path hpath)

theorem agreeOff_set {stage path : TreePath} {tree : Tree} {e : Entry} (hbelow : stage <+: path) :
    AgreeOff stage tree (tree.set path e) := by
  intro other hother
  rw [Table.get?_set, if_neg]
  rintro rfl
  exact hother hbelow

/-- A new directory at the end of a path lies in the stage. -/
theorem agreeOff_mkdirAll {name : String} {path : TreePath} {tree tree' : Tree}
    (h : tree.mkdirAll (([name] ++ path).dropLast) = some tree') : AgreeOff [name] tree tree' := by
  intro other hother
  rcases Tree.get?_mkdirAll h other with hsame | ⟨-, -, hne, hstart⟩
  · exact hsame
  · obtain ⟨head, tail, rfl⟩ := List.exists_cons_of_ne_nil hne
    have hstart := hstart.trans (List.dropLast_prefix _)
    rw [List.singleton_append, List.cons_prefix_cons] at hstart
    exact absurd (by rw [hstart.1]; exact List.prefix_append [name] tail) hother

variable {fetch : Fetch} {suffix : Suffix} {name : String} {item : File}

theorem createFile_agreeOff (name : String) (item : File) (w : World) : AgreeOff [name] w.tree (createFile [name] item w).2.tree := by
  unfold createFile
  split
  · exact fun _ _ => rfl
  split
  · exact fun _ _ => rfl
  rename_i dirs hdirs
  have hagree := agreeOff_mkdirAll hdirs
  split
  · exact hagree
  · rename_i tree hcreate
    rw [(Tree.get?_createNew hcreate).2]
    exact hagree.trans (agreeOff_set (List.prefix_append _ _))

theorem copyStream_agreeOff (stream : Stream) (w : World) :
    AgreeOff [name] w.tree (copyStream codec [name] item stream w).2.tree := by
  unfold copyStream
  simp only
  split_ifs <;> exact agreeOff_set (List.prefix_append _ _)

theorem fetchFile_agreeOff (codec : Codec) (fetch : Fetch) (name : String) (item : File) (index : Nat) (w : World) :
    AgreeOff [name] w.tree (fetchFile codec fetch [name] index item w).2.tree := by
  have hcreate := createFile_agreeOff name item w
  unfold fetchFile
  split
  · rename_i hresult
    rwa [hresult] at hcreate
  · rename_i hresult
    rw [hresult] at hcreate
    simp only
    split
    · exact hcreate
    · exact hcreate.trans (copyStream_agreeOff _ _)

theorem fetchFiles_agreeOff (codec : Codec) (fetch : Fetch) (name : String) (files : List File) (index : Nat) (w : World) :
    AgreeOff [name] w.tree (fetchFiles codec fetch [name] index files w).2.tree := by
  induction files generalizing index w with
  | nil => exact fun _ _ => rfl
  | cons item rest ih =>
    have hfile := fetchFile_agreeOff codec fetch name item index w
    rw [fetchFiles]
    split
    · rename_i hresult
      rwa [hresult] at hfile
    · rename_i hresult
      rw [hresult] at hfile
      exact hfile.trans (ih _ _)

/-- A file that was fetched is in the stage, and only directories are added beside it. -/
structure Fetched (codec : Codec) (stage : TreePath) (item : File) (tree tree' : Tree) : Prop where
  absent : tree.get? (stage ++ pathNames item.path) = none
  file : ∃ content, tree'.get? (stage ++ pathNames item.path) = some (.file content) ∧
    (content.length : Int) = item.size ∧ codec.hexSum content = item.sha256
  others : ∀ path, path ≠ stage ++ pathNames item.path → tree'.get? path = tree.get? path ∨
    (tree.get? path = none ∧ tree'.get? path = some .dir)

theorem fetched_of_fetchFile {stage : TreePath} {index : Nat} {w w' : World}
    (h : fetchFile codec fetch stage index item w = (.ok (), w')) :
    Fetched codec stage item w.tree w'.tree ∧ w'.fetched = w.fetched ++ [index] := by
  unfold fetchFile createFile at h
  split_ifs at h with hfault
  · cases h
  cases hdirs : w.tree.mkdirAll (stage ++ pathNames item.path).dropLast with
  | none => simp [hdirs] at h
  | some dirs =>
    cases hcreate : dirs.createNew (stage ++ pathNames item.path) with
    | none => simp [hdirs, hcreate] at h
    | some created =>
      cases hfetch : fetch index with
      | none => simp [hdirs, hcreate, hfetch] at h
      | some stream =>
        simp only [hdirs, hcreate, hfetch] at h
        unfold copyStream at h
        simp only at h
        split_ifs at h with hfail hmismatch
        · cases h
        · cases h
        · cases h
          obtain ⟨habsent, rfl⟩ := Tree.get?_createNew hcreate
          rw [not_or, not_not, not_not] at hmismatch
          refine ⟨⟨?_, ⟨_, by simp [Table.get?_set], hmismatch⟩, ?_⟩, rfl⟩
          · rcases Tree.get?_mkdirAll hdirs (stage ++ pathNames item.path) with hsame | ⟨hnone, -⟩
            · rw [← hsame]
              exact habsent
            · exact hnone
          · intro path hne
            simp only [Table.get?_set, if_neg hne]
            rcases Tree.get?_mkdirAll hdirs path with hsame | ⟨hnone, hdir, -⟩
            · exact .inl hsame
            · exact .inr ⟨hnone, hdir⟩

theorem Fetched.staged {stage : TreePath} {files : List File} {tree tree' : Tree} (h : Fetched codec stage item tree tree')
    (hstaged : Staged codec tree stage files) : Staged codec tree' stage (files ++ [item]) where
  present := by
    intro file hfile
    rcases List.mem_append.1 hfile with hfile | hfile
    · obtain ⟨content, hcontent, hsame⟩ := hstaged.present file hfile
      have hne : stage ++ pathNames file.path ≠ stage ++ pathNames item.path := by
        intro heq
        rw [heq, h.absent] at hcontent
        cases hcontent
      rcases h.others _ hne with heq | ⟨hnone, -⟩
      · exact ⟨content, heq.trans hcontent, hsame⟩
      · rw [hnone] at hcontent
        cases hcontent
    · rw [List.mem_singleton.1 hfile]
      exact h.file
  only := by
    intro path e hne hget
    by_cases heq : stage ++ path = stage ++ pathNames item.path
    · exact .inr ⟨item, by simp, List.append_cancel_left heq⟩
    · rcases h.others _ heq with hsame | ⟨-, hdir⟩
      · rcases hstaged.only path e hne (hsame ▸ hget) with hdir | ⟨file, hfile, hpath⟩
        · exact .inl hdir
        · exact .inr ⟨file, List.mem_append_left _ hfile, hpath⟩
      · exact .inl (Option.some.inj (hget.symm.trans hdir))

theorem Fetched.directory {stage : TreePath} {tree tree' : Tree} (h : Fetched codec stage item tree tree')
    (hpath : pathNames item.path ≠ []) (hdir : tree.get? stage = some .dir) : tree'.get? stage = some .dir := by
  rcases h.others stage (by simpa using hpath) with hsame | ⟨hnone, -⟩
  · exact hsame.trans hdir
  · rw [hnone] at hdir
    cases hdir

theorem staged_of_fetchFiles {stage : TreePath} {done files : List File} {index : Nat} {w w' : World}
    (hpaths : ∀ file ∈ files, pathNames file.path ≠ []) (hstaged : Staged codec w.tree stage done)
    (hdir : w.tree.get? stage = some .dir) (h : fetchFiles codec fetch stage index files w = (.ok (), w')) :
    Staged codec w'.tree stage (done ++ files) ∧ w'.tree.get? stage = some .dir := by
  induction files generalizing index done w with
  | nil =>
    cases h
    exact ⟨by rwa [List.append_nil], hdir⟩
  | cons item rest ih =>
    rw [fetchFiles] at h
    split at h
    · cases h
    · rename_i w₁ hfile
      obtain ⟨hfetched, -⟩ := fetched_of_fetchFile hfile
      have hitem := hfetched.directory (hpaths item List.mem_cons_self) hdir
      obtain ⟨hrest, hdir'⟩ :=
        ih (fun file hfile => hpaths file (List.mem_cons_of_mem _ hfile)) (hfetched.staged hstaged) hitem h
      exact ⟨by simpa using hrest, hdir'⟩

theorem fetched_of_fetchFiles {stage : TreePath} {files : List File} {index : Nat} {w w' : World}
    (h : fetchFiles codec fetch stage index files w = (.ok (), w')) :
    w'.fetched.length = w.fetched.length + files.length := by
  induction files generalizing index w with
  | nil =>
    cases h
    rfl
  | cons item rest ih =>
    rw [fetchFiles] at h
    split at h
    · cases h
    · rename_i w₁ hfile
      rw [ih h, (fetched_of_fetchFile hfile).2, List.length_append, List.length_singleton, List.length_cons]
      omega

/-! ## Publishing -/

/-- The names a copy can get. -/
def IsTarget (manifest : Manifest) (target : String) : Prop :=
  ∃ suffix : Suffix, target = destination manifest ∨ target = destination manifest ++ "-" ++ suffix.text

theorem target_path (hvalid : manifest.Valid codec) {target : String} (h : IsTarget manifest target) :
    validPath target = true ∧ ∃ name, isHidden name = false ∧ pathNames target = ["cluster-models", name] := by
  obtain ⟨bytes, hdigest⟩ : ∃ bytes, manifest.digest = codec.hexSum bytes := by
    rw [← hvalid.digest, Manifest.contentDigest]
    split_ifs
    · exact ⟨_, rfl⟩
    · exact ⟨_, rfl⟩
  have hlength : manifest.digest.length = 64 := by
    rw [hdigest, Codec.hexSum, hexEncode_length, (codec.sha256 bytes).2]
  -- A digest is hexadecimal, and a suffix a dash with digits.
  have hchars : ∀ c ∈ manifest.digest.toList, c ∈ nameChars := fun c hc =>
    mem_nameChars_of_hexEncode (by rwa [hdigest] at hc)
  obtain ⟨name, hname, hchars, hnonempty, hshort⟩ : ∃ name, target = join ["cluster-models", name] '/' ∧
      (∀ c ∈ name.toList, c ∈ nameChars) ∧ name ≠ "" ∧ name.length ≤ 75 := by
    have hjoin : ∀ name, "cluster-models/" ++ name = join ["cluster-models", name] '/' := by
      intro name
      simp [join, ← String.toList_inj]
    have hnonempty : manifest.digest ≠ "" := by
      intro heq
      rw [heq] at hlength
      cases hlength
    obtain ⟨suffix, rfl | rfl⟩ := h
    · exact ⟨manifest.digest, hjoin _, hchars, hnonempty, by omega⟩
    · refine ⟨manifest.digest ++ "-" ++ suffix.text, ?_, ?_, ?_, ?_⟩
      · rw [← hjoin, destination, String.append_assoc, String.append_assoc, String.append_assoc]
      · intro c hc
        rw [String.toList_append, String.toList_append, List.mem_append, List.mem_append] at hc
        rcases hc with (hc | hc) | hc
        · exact hchars c hc
        · rw [List.mem_singleton.1 hc]
          decide +kernel
        · exact mem_nameChars_of_isDigit (List.all_eq_true.1 suffix.digits c hc)
      · intro heq
        have := congrArg String.length heq
        rw [String.length_append, String.length_append, hlength] at this
        simp at this
      · have := suffix.short
        have hdash : "-".length = 1 := by decide
        rw [String.length_append, String.length_append, hlength, hdash]
        omega
  have hplain : ∀ part ∈ ["cluster-models", name], ∀ c ∈ part.toList, plainChar c = true := by
    intro part hpart c hc
    rcases List.mem_cons.1 hpart with rfl | hpart
    · have hall : "cluster-models".toList.all plainChar = true := by decide +kernel
      exact List.all_eq_true.1 hall c hc
    · rw [List.mem_singleton.1 hpart] at hc
      exact plainChar_of_mem (hchars c hc)
  have hpath := validPath_join (List.cons_ne_nil _ _) (by simpa using hnonempty) hplain (by
    rw [join, String.length_ofList, List.map_cons, List.map_singleton, List.intercalate_cons_cons,
      List.intercalate_singleton, List.length_append, List.length_append, String.length_toList, String.length_toList]
    have hmodels : "cluster-models".length = 14 := by decide
    rw [hmodels, List.length_singleton]
    omega)
  rw [← hname] at hpath
  refine ⟨hpath.1, name, ?_, hpath.2⟩
  -- A path that is accepted has no hidden part.
  have hhidden := visible_pathNames hpath.1
  rw [hpath.2] at hhidden
  simpa using (List.any_eq_false.1 hhidden) name (by simp)

theorem Staged.of_agree {tree tree' : Tree} {directory directory' : TreePath} {files : List File}
    (h : Staged codec tree directory files)
    (hsame : ∀ path, tree'.get? (directory' ++ path) = tree.get? (directory ++ path)) :
    Staged codec tree' directory' files where
  present := fun file hfile => by
    rw [hsame]
    exact h.present file hfile
  only := fun path e hne hget => h.only path e hne (hsame path ▸ hget)

theorem isHidden_stageName (suffix : Suffix) : isHidden (stageName suffix) = true :=
  hasPrefix_append (by decide +kernel)

theorem not_below_stage (suffix : Suffix) {path : TreePath} (h : path.any isHidden = false) : ¬ [stageName suffix] <+: path := by
  rintro ⟨rest, rfl⟩
  rw [List.singleton_append, List.any_cons, isHidden_stageName] at h
  cases h

/-- What was visible is as before, except that the directory for copies may be there now. -/
def Unchanged (tree tree' : Tree) : Prop :=
  ∀ path, path.any isHidden = false → tree'.get? path = tree.get? path ∨
    (path = ["cluster-models"] ∧ tree.get? path = none ∧ tree'.get? path = some .dir)

theorem unchanged_of_agreeOff {tree tree' : Tree} (h : AgreeOff [stageName suffix] tree tree') : Unchanged tree tree' :=
  fun path hpath => .inl (h path (not_below_stage suffix hpath))

theorem Unchanged.between {a b c d : Tree} (hab : AgreeOff [stageName suffix] a b) (h : Unchanged b c)
    (hcd : AgreeOff [stageName suffix] c d) : Unchanged a d := by
  intro path hpath
  have hoff := not_below_stage suffix hpath
  rw [hcd path hoff, ← hab path hoff]
  exact h path hpath

theorem unchanged_mkdirAll {tree models : Tree} (h : tree.mkdirAll ["cluster-models"] = some models) :
    Unchanged tree models := by
  intro path _
  rcases Tree.get?_mkdirAll h path with hsame | ⟨hnone, hdir, hne, hstart⟩
  · exact .inl hsame
  · refine .inr ⟨?_, hnone, hdir⟩
    obtain ⟨head, tail, rfl⟩ := List.exists_cons_of_ne_nil hne
    obtain ⟨rfl, htail⟩ := List.cons_prefix_cons.1 hstart
    rw [List.prefix_nil.1 htail]

theorem move_of_rename {tree tree' : Tree} {old new : TreePath} (h : tree.rename old new = some tree') :
    tree' = tree.move old new := by
  unfold Tree.rename at h
  split at h
  · exact (Option.some.inj h).symm
  · split at h
    · exact (Option.some.inj h).symm
    · cases h
  · cases h

/-- Renaming either leaves the tree alone or moves the stage. -/
theorem renameStage_cases (suffix : Suffix) (target : String) (w : World) :
    (∃ e w', renameStage suffix target w = (.error e, w') ∧ w'.tree = w.tree) ∨
      ∃ w', renameStage suffix target w = (.ok target, w') ∧ w'.fetched = w.fetched ∧
        w'.tree = w.tree.move [stageName suffix] (pathNames target) := by
  unfold renameStage
  split
  · exact .inl ⟨_, _, rfl, rfl⟩
  · split
    · exact .inl ⟨_, _, rfl, rfl⟩
    · rename_i hrename
      exact .inr ⟨_, rfl, rfl, move_of_rename hrename⟩

theorem publish_cases (manifest : Manifest) (suffix : Suffix) (w : World) :
    (∃ e w', publish manifest suffix w = (.error e, w') ∧ Unchanged w.tree w'.tree) ∨
      ∃ target w' models, publish manifest suffix w = (.ok target, w') ∧ IsTarget manifest target ∧
        w'.fetched = w.fetched ∧ w.tree.mkdirAll ["cluster-models"] = some models ∧
        w'.tree = models.move [stageName suffix] (pathNames target) := by
  unfold publish
  split
  · exact .inl ⟨_, _, rfl, fun _ _ => .inl rfl⟩
  cases hmodels : w.tree.mkdirAll ["cluster-models"] with
  | none => exact .inl ⟨_, _, rfl, fun _ _ => .inl rfl⟩
  | some models =>
    simp only
    generalize htaken : (World.fault { w.next with tree := models } || (models.get? (pathNames (destination manifest))).isSome) =
      taken
    have htarget : IsTarget manifest (targetName manifest suffix taken) := by
      refine ⟨suffix, ?_⟩
      cases taken with
      | false => exact .inl rfl
      | true => exact .inr rfl
    rcases renameStage_cases suffix (targetName manifest suffix taken) (World.next { w.next with tree := models })
      with ⟨e, w', heq, htree⟩ | ⟨w', heq, hfetched, htree⟩
    · refine .inl ⟨e, w', heq, ?_⟩
      rw [htree]
      exact unchanged_mkdirAll hmodels
    · exact .inr ⟨_, w', models, heq, htarget, hfetched, rfl, htree⟩

theorem removeStage_agreeOff (w : World) : AgreeOff [stageName suffix] w.tree (removeStage suffix w).tree := by
  unfold removeStage
  split
  · exact fun _ _ => rfl
  · intro path hpath
    rw [Tree.get?_removeAll, if_neg hpath]

theorem removeStage_fetched (w : World) : (removeStage suffix w).fetched = w.fetched := by
  unfold removeStage
  split <;> rfl

theorem makeStage_cases (suffix : Suffix) (w : World) :
    (∃ e w', makeStage suffix w = (.error e, w') ∧ w'.tree = w.tree) ∨
      w.tree.get? [stageName suffix] = none ∧ ∃ w', makeStage suffix w = (.ok (), w') ∧ w'.fetched = w.fetched ∧
        w'.tree = w.tree.set [stageName suffix] .dir := by
  unfold makeStage
  split
  · exact .inl ⟨_, _, rfl, rfl⟩
  · rename_i hfree
    rw [Bool.or_eq_true, not_or, Option.isSome_iff_ne_none, not_not] at hfree
    exact .inr ⟨hfree.2, _, rfl, rfl, rfl⟩

theorem downloadStaged_error {w w' : World} {e : EnsureError}
    (h : downloadStaged codec manifest fetch suffix w = (.error e, w')) : Unchanged w.tree w'.tree := by
  have hfetch := fetchFiles_agreeOff codec fetch (stageName suffix) manifest.files 0 w
  unfold downloadStaged at h
  split at h
  · rename_i hfiles
    cases h
    rw [hfiles] at hfetch
    exact unchanged_of_agreeOff hfetch
  · rename_i w₁ hfiles
    rw [hfiles] at hfetch
    rcases publish_cases manifest suffix w₁ with ⟨_, _, hpublish, hsame⟩ | ⟨_, _, _, hpublish, -⟩
    · cases hpublish.symm.trans h
      exact Unchanged.between hfetch hsame fun _ _ => rfl
    · cases hpublish.symm.trans h

theorem download_error {w w' : World} {e : EnsureError} (h : download codec manifest fetch suffix w = (.error e, w')) :
    Unchanged w.tree w'.tree := by
  unfold download at h
  rcases makeStage_cases suffix w with ⟨_, _, hstage, htree⟩ | ⟨-, w₁, hstage, -, htree⟩
  · rw [hstage] at h
    cases h
    rw [htree]
    exact fun _ _ => .inl rfl
  · rw [hstage] at h
    simp only at h
    cases hdownload : downloadStaged codec manifest fetch suffix w₁ with
    | mk result w₂ =>
      rw [hdownload] at h
      cases h
      have hsame := downloadStaged_error hdownload
      rw [htree] at hsame
      exact Unchanged.between (agreeOff_set List.prefix_rfl) hsame (removeStage_agreeOff w₂)

/-- A published stage is a complete directory under its new name. -/
theorem staged_of_publish {w w' : World} {target : String} (hvalid : manifest.Valid codec)
    (hstaged : Staged codec w.tree [stageName suffix] manifest.files)
    (hdir : w.tree.get? [stageName suffix] = some .dir) (h : publish manifest suffix w = (.ok target, w')) :
    IsTarget manifest target ∧ Staged codec w'.tree (pathNames target) manifest.files ∧
      w'.tree.get? (pathNames target) = some .dir := by
  rcases publish_cases manifest suffix w with
    ⟨_, _, hpublish, -⟩ | ⟨_, _, models, hpublish, htarget, -, hmodels, htree⟩
  · cases hpublish.symm.trans h
  cases hpublish.symm.trans h
  obtain ⟨-, name, hname, hpath⟩ := target_path hvalid htarget
  have hvisible : (pathNames target).any isHidden = false := visible_pathNames (target_path hvalid htarget).1
  have hoff : ¬ [stageName suffix] <+: pathNames target := not_below_stage suffix hvisible
  have hoff' : ¬ pathNames target <+: [stageName suffix] := by
    intro hstart
    have := hstart.length_le
    rw [hpath] at this
    simp at this
  have hsame : ∀ path, w'.tree.get? (pathNames target ++ path) = w.tree.get? ([stageName suffix] ++ path) := by
    intro path
    rw [htree, Tree.get?_move_below hoff' hoff]
    rcases Tree.get?_mkdirAll hmodels ([stageName suffix] ++ path) with heq | ⟨-, -, -, hstart⟩
    · exact heq
    · have hcons := (List.cons_prefix_cons.1 hstart).1
      have hhidden := isHidden_stageName suffix
      rw [hcons] at hhidden
      exact absurd hhidden (by decide +kernel)
  refine ⟨htarget, hstaged.of_agree hsame, ?_⟩
  have := hsame []
  rwa [List.append_nil, List.append_nil, hdir] at this

theorem download_ok {w w' : World} {target : String} (hvalid : manifest.Valid codec) (hformed : w.tree.WellFormed)
    (h : download codec manifest fetch suffix w = (.ok target, w')) :
    IsTarget manifest target ∧ Staged codec w'.tree (pathNames target) manifest.files ∧
      w'.tree.get? (pathNames target) = some .dir := by
  unfold download at h
  rcases makeStage_cases suffix w with ⟨_, _, hstage, -⟩ | ⟨habsent, w₁, hstage, -, htree⟩
  · rw [hstage] at h
    cases h
  rw [hstage] at h
  simp only at h
  cases hdownload : downloadStaged codec manifest fetch suffix w₁ with
  | mk result w₂ =>
    rw [hdownload] at h
    cases h
    unfold downloadStaged at hdownload
    split at hdownload
    · cases hdownload
    · rename_i w₃ hfiles
      -- The stage is new, so there is nothing in it.
      have hempty : Staged codec w₁.tree [stageName suffix] [] := by
        refine ⟨fun file hfile => (by cases hfile), fun path e hne hget => ?_⟩
        rw [htree, Table.get?_set, if_neg (by simpa using hne), hformed.get?_below (by simp) habsent] at hget
        cases hget
      have hdir : w₁.tree.get? [stageName suffix] = some .dir := by rw [htree, Table.get?_set, if_pos rfl]
      obtain ⟨hstaged, hdir⟩ :=
        staged_of_fetchFiles (fun file hfile => pathNames_ne_nil (hvalid.paths file hfile)) hempty hdir hfiles
      obtain ⟨htarget, hstaged, hdir⟩ := staged_of_publish hvalid hstaged hdir hdownload
      -- Removing the stage leaves the copy alone, whose name is not hidden.
      have hkeep : ∀ path, (removeStage suffix w₂).tree.get? (pathNames target ++ path) =
          w₂.tree.get? (pathNames target ++ path) := by
        intro path
        refine removeStage_agreeOff w₂ _ ?_
        obtain ⟨-, name, hname, hpath⟩ := target_path hvalid htarget
        rw [hpath]
        intro hstart
        have hcons := (List.cons_prefix_cons.1 hstart).1
        have hhidden := isHidden_stageName suffix
        rw [hcons] at hhidden
        exact absurd hhidden (by decide +kernel)
      refine ⟨htarget, hstaged.of_agree hkeep, ?_⟩
      have := hkeep []
      rwa [List.append_nil, hdir] at this

/-- A download asks for every file. -/
theorem download_fetched {w w' : World} {target : String} (h : download codec manifest fetch suffix w = (.ok target, w')) :
    w'.fetched.length = w.fetched.length + manifest.files.length := by
  unfold download at h
  rcases makeStage_cases suffix w with ⟨_, _, hstage, -⟩ | ⟨-, w₁, hstage, hcount, -⟩
  · rw [hstage] at h
    cases h
  rw [hstage] at h
  simp only at h
  cases hdownload : downloadStaged codec manifest fetch suffix w₁ with
  | mk result w₂ =>
    rw [hdownload] at h
    cases h
    unfold downloadStaged at hdownload
    split at hdownload
    · cases hdownload
    · rename_i w₃ hfiles
      rcases publish_cases manifest suffix w₃ with
        ⟨_, _, hpublish, -⟩ | ⟨_, _, _, hpublish, -, hfetched, -⟩
      · cases hpublish.symm.trans hdownload
      · cases hpublish.symm.trans hdownload
        rw [removeStage_fetched, hfetched, fetched_of_fetchFiles hfiles, hcount]

/-! ## Correctness -/

/-- A model root: everything in it lies in a directory. -/
structure ModelRoot where
  tree : Tree
  wellFormed : tree.WellFormed

/-- Where a returned directory comes from. -/
inductive Source (codec : Codec) (manifest : Manifest) (preferred directory : String) (w w' : World) : Prop
  | existing : directory ∈ firstCandidates manifest preferred ∨ directory ∈ scan manifest w.tree →
      matches_ codec w.tree directory manifest = true → w'.tree = w.tree → w'.fetched = w.fetched →
      Source codec manifest preferred directory w w'
  | downloaded : w'.fetched.length = w.fetched.length + manifest.files.length →
      (w.tree.WellFormed → IsTarget manifest directory ∧ Staged codec w'.tree (pathNames directory) manifest.files ∧
        w'.tree.get? (pathNames directory) = some .dir) →
      Source codec manifest preferred directory w w'

variable {preferred directory : String}

theorem ensureDirectory_ok {w w' : World} (hvalid : manifest.Valid codec)
    (h : ensureDirectory codec manifest preferred fetch suffix w = (.ok directory, w')) :
    Source codec manifest preferred directory w w' := by
  unfold ensureDirectory at h
  have hworld := findExisting_world codec manifest (firstCandidates manifest preferred) [] w
  split at h
  · cases h
  · rename_i found seen w₁ hfind
    cases h
    rw [hfind] at hworld
    obtain ⟨hmem, hmatch⟩ := matches_of_findExisting (by rw [hfind])
    exact .existing (.inl hmem) hmatch hworld.1 hworld.2
  · rename_i seen w₁ hfind
    rw [hfind] at hworld
    simp only at hworld
    have hworld' := findExisting_world codec manifest (scan manifest w₁.tree) seen w₁.next
    split at h
    · cases h
    split at h
    · cases h
    · rename_i found seen' w₂ hscan
      cases h
      rw [hscan] at hworld'
      obtain ⟨hmem, hmatch⟩ := matches_of_findExisting (by rw [hscan])
      refine .existing (.inr ?_) ?_ (hworld'.1.trans hworld.1) (hworld'.2.trans hworld.2)
      · rwa [← hworld.1]
      · rwa [← hworld.1]
    · rename_i seen' w₂ hscan
      rw [hscan] at hworld'
      have htree : w₂.tree = w.tree := hworld'.1.trans hworld.1
      refine .downloaded ?_ fun hformed => download_ok hvalid (htree ▸ hformed) h
      rw [download_fetched h, hworld'.2.trans hworld.2]

theorem ensureDirectory_error {w w' : World} {e : EnsureError}
    (h : ensureDirectory codec manifest preferred fetch suffix w = (.error e, w')) : Unchanged w.tree w'.tree := by
  unfold ensureDirectory at h
  have hworld := findExisting_world codec manifest (firstCandidates manifest preferred) [] w
  split at h
  · rename_i hfind
    cases h
    rw [hfind] at hworld
    exact fun path _ => .inl (by rw [hworld.1])
  · cases h
  · rename_i seen w₁ hfind
    rw [hfind] at hworld
    have hworld' := findExisting_world codec manifest (scan manifest w₁.tree) seen w₁.next
    split at h
    · cases h
      exact fun path _ => .inl (by rw [← hworld.1]; rfl)
    split at h
    · rename_i hscan
      cases h
      rw [hscan] at hworld'
      exact fun path _ => .inl (by rw [hworld'.1.trans hworld.1])
    · cases h
    · rename_i seen' w₂ hscan
      rw [hscan] at hworld'
      have htree : w₂.tree = w.tree := hworld'.1.trans hworld.1
      exact htree ▸ download_error h

theorem openDirectory_eq_some {tree : Tree} {relative : String} (hpath : validPath relative = true)
    (hdir : tree.get? (pathNames relative) = some .dir) : openDirectory tree relative = some (pathNames relative) := by
  unfold openDirectory
  rw [if_neg (by simp [hpath]), if_pos]
  rw [Tree.entryAt, if_neg (pathNames_ne_nil hpath), hdir]

/-- A returned model is complete, and an error leaves what is visible alone. -/
theorem ensure_correct (codec : Codec) (manifest : Manifest) (root : ModelRoot) (faults : List Bool) (preferred : String)
    (fetch : Fetch) (suffix : Suffix) :
    match ensure codec manifest preferred fetch suffix ⟨root.tree, faults, []⟩ with
    | (.ok path, w) => ∃ relative directory, path = modelPath manifest relative ∧
        openDirectory w.tree relative = some directory ∧ Holds codec w.tree directory manifest
    | (.error _, w) => ∀ path, path.any isHidden = false → w.tree.get? path = root.tree.get? path ∨
        (path = ["cluster-models"] ∧ root.tree.get? path = none ∧ w.tree.get? path = some .dir) := by
  unfold ensure
  cases hvalidate : manifest.validate codec with
  | error text => exact fun _ _ => .inl rfl
  | ok _ =>
    have hvalid := valid_of_validate hvalidate
    simp only
    split_ifs
    · exact fun _ _ => .inl rfl
    cases hensure : ensureDirectory codec manifest preferred fetch suffix (World.next ⟨root.tree, faults, []⟩) with
    | mk result w =>
      cases result with
      | error e => exact ensureDirectory_error hensure
      | ok relative =>
        cases ensureDirectory_ok hvalid hensure with
        | existing _ hmatch htree _ =>
          obtain ⟨directory, hopen, hholds, -⟩ := holds_of_matches hmatch
          refine ⟨relative, directory, rfl, ?_⟩
          rw [htree]
          exact ⟨hopen, hholds⟩
        | downloaded _ hcopy =>
          obtain ⟨htarget, hstaged, hdir⟩ := hcopy root.wellFormed
          exact ⟨relative, _, rfl, openDirectory_eq_some (target_path hvalid htarget).1 hdir, hstaged.holds hvalid⟩

/-! ## Calling again -/

theorem pathNames_entry {entry : String} (h : entryValid entry = true) : pathNames entry = [entry] := by
  simp only [entryValid, Bool.and_eq_true, decide_eq_true_eq] at h
  obtain ⟨⟨hpath, hbase⟩, -⟩ := h
  rw [(validPath_parts hpath).1]
  refine split_of_not_mem fun hmem => ?_
  unfold pathBase at hbase
  split at hbase
  · rename_i hempty
    rw [hempty] at hmem
    cases hmem
  · simp only at hbase
    split at hbase
    · subst hbase
      exact absurd hpath (by decide +kernel)
    · rw [← hbase, String.toList_ofList, List.mem_reverse] at hmem
      simpa using List.mem_takeWhile_imp hmem

/-- A complete copy has the file that a search looks for. -/
theorem mem_scan_of_staged {tree : Tree} {target : String} (hvalid : manifest.Valid codec) (htarget : IsTarget manifest target)
    (hstaged : Staged codec tree (pathNames target) manifest.files) : target ∈ scan manifest tree := by
  obtain ⟨file, hfile, name, hname, hkind⟩ : ∃ file ∈ manifest.files, ∃ name, pathNames file.path = [name] ∧
      (name = "config.json" ∨ name = manifest.entry) := by
    have hcomplete := hvalid.complete
    unfold Manifest.complete at hcomplete
    split_ifs at hcomplete with hentry
    · rw [Bool.and_eq_true, List.any_eq_true] at hcomplete
      obtain ⟨file, hfile, hpath⟩ := hcomplete.1
      refine ⟨file, hfile, "config.json", ?_, .inl rfl⟩
      rw [of_decide_eq_true hpath]
      decide +kernel
    · obtain ⟨file, hfile, hpath⟩ := List.any_eq_true.1 hcomplete
      refine ⟨file, hfile, manifest.entry, ?_, .inr rfl⟩
      rw [of_decide_eq_true hpath]
      exact pathNames_entry (hvalid.entry hentry)
  obtain ⟨content, hcontent, -⟩ := hstaged.present file hfile
  obtain ⟨hpath, -⟩ := target_path hvalid htarget
  rw [hname] at hcontent
  refine List.mem_map.2 ⟨(pathNames target ++ [name], .file content), List.mem_filter.2 ⟨?_, ?_⟩, ?_⟩
  · exact Tree.mem_walk.2 ⟨by simp, hcontent⟩
  · rw [List.dropLast_concat, List.getLast?_concat, visible_pathNames hpath]
    rcases hkind with rfl | rfl <;> simp
  · rw [List.dropLast_concat, pathText_pathNames hpath]

@[simp] theorem next_quiet (tree : Tree) (fetched : List Nat) : World.next ⟨tree, [], fetched⟩ = ⟨tree, [], fetched⟩ := rfl

/-- When nothing fails, a directory that matches is found without a download. -/
theorem ensureDirectory_of_matches {tree : Tree} (fetch : Fetch) (suffix : Suffix)
    (hmem : directory ∈ firstCandidates manifest preferred ∨ directory ∈ scan manifest tree)
    (hmatch : matches_ codec tree directory manifest = true) :
    ∃ found, ensureDirectory codec manifest preferred fetch suffix ⟨tree, [], []⟩ = (.ok found, ⟨tree, [], []⟩) := by
  have hquiet := fun candidates seen => findExisting_quiet codec manifest candidates seen ⟨tree, [], []⟩ rfl
  unfold ensureDirectory
  rcases hquiet (firstCandidates manifest preferred) [] nofun with ⟨found, seen, hfind⟩ | ⟨seen, hfind, hseen, hmiss⟩
  · exact ⟨found, by rw [hfind]⟩
  · have hscanned : directory ∈ scan manifest tree := by
      refine hmem.resolve_left fun hfirst => ?_
      rw [hmiss directory hfirst] at hmatch
      cases hmatch
    rcases hquiet (scan manifest tree) seen hseen with ⟨found, seen', hscan⟩ | ⟨seen', hscan, -, hmiss'⟩
    · refine ⟨found, ?_⟩
      rw [hfind]
      simp only
      rw [if_neg (by exact Bool.false_ne_true), next_quiet, hscan]
    · rw [hmiss' directory hscanned] at hmatch
      cases hmatch

/-- A second call with the tree of a successful one finds the model without
fetching, exactly when an inventory could list every file of the manifest. -/
theorem ensure_again_iff {codec : Codec} {manifest : Manifest} {root : ModelRoot} {faults : List Bool} {preferred path : String}
    {fetch : Fetch} {suffix : Suffix} {w : World}
    (h : ensure codec manifest preferred fetch suffix ⟨root.tree, faults, []⟩ = (.ok path, w)) (again : Fetch)
    (suffix' : Suffix) :
    (∃ path' w', ensure codec manifest preferred again suffix' ⟨w.tree, [], []⟩ = (.ok path', w') ∧ w'.fetched = [] ∧
      w'.tree = w.tree) ↔ manifest.entry ≠ "" ∨ ∀ file ∈ manifest.files, inventoried file.path = true := by
  unfold ensure at h ⊢
  cases hvalidate : manifest.validate codec with
  | error text =>
    rw [hvalidate] at h
    cases h
  | ok _ =>
    have hvalid := valid_of_validate hvalidate
    rw [hvalidate] at h
    simp only at h ⊢
    split_ifs at h
    · cases h
    rw [if_neg (by exact Bool.false_ne_true), next_quiet]
    constructor
    · rintro ⟨path', w', hagain, hnone, -⟩
      cases hensure : ensureDirectory codec manifest preferred again suffix' ⟨w.tree, [], []⟩ with
      | mk result w₂ =>
        rw [hensure] at hagain
        cases result with
        | error e => cases hagain
        | ok relative =>
          cases hagain
          cases ensureDirectory_ok hvalid hensure with
          | existing _ hmatch _ _ =>
            -- What was found has the files of the manifest, and an inventory lists them.
            obtain ⟨_, -, -, hall⟩ := holds_of_matches hmatch
            by_cases hentry : manifest.entry = ""
            · exact .inr (hall hentry)
            · exact .inl hentry
          | downloaded hcount _ =>
            -- A copy fetches every file, of which there is at least one.
            rw [hnone] at hcount
            exact absurd (List.length_eq_zero_iff.1 (by simpa using hcount.symm)) hvalid.nonempty
    · intro hlisted
      cases hensure : ensureDirectory codec manifest preferred fetch suffix (World.next ⟨root.tree, faults, []⟩) with
      | mk result w₁ =>
        rw [hensure] at h
        cases result with
        | error e => cases h
        | ok relative =>
          cases h
          -- The first call found the model, or has staged it where a scan comes across it.
          obtain ⟨hmem, hmatch⟩ : (relative ∈ firstCandidates manifest preferred ∨ relative ∈ scan manifest w.tree) ∧
              matches_ codec w.tree relative manifest = true := by
            cases ensureDirectory_ok hvalid hensure with
            | existing hmem hmatch htree _ =>
              rw [htree]
              exact ⟨hmem, hmatch⟩
            | downloaded _ hcopy =>
              obtain ⟨htarget, hstaged, hdir⟩ := hcopy root.wellFormed
              have hopen := openDirectory_eq_some (target_path hvalid htarget).1 hdir
              exact ⟨.inr (mem_scan_of_staged hvalid htarget hstaged), hstaged.matches hvalid hopen hlisted⟩
          obtain ⟨found, hfound⟩ := ensureDirectory_of_matches again suffix' hmem hmatch
          exact ⟨_, ⟨w.tree, [], []⟩, by rw [hfound], rfl, rfl⟩

/-! A manifest with a GGUF file beside the weights is copied again by every call. -/

def sampleJSON (files : List File) : List UInt8 :=
  let item : File → List Char := fun file =>
    "\x7b\"path\":\"".toList ++ file.path.toList ++ "\",\"size\":".toList ++ (formatInt file.size).toList ++
      ",\"sha256\":\"".toList ++ file.sha256.toList ++ "\"\x7d".toList
  ('[' :: [','].intercalate (files.map item) ++ [']']).map fun c => UInt8.ofNat c.toNat

def emptySum : String := "e3b0c44298fc1c149afbf4c8996fb92427ae41e4649b934ca495991b7852b855"

def emptySumBytes : List UInt8 :=
  [227, 176, 196, 66, 152, 252, 28, 20, 154, 251, 244, 200, 153, 111, 185, 36,
    39, 174, 65, 228, 100, 155, 147, 76, 164, 149, 153, 27, 120, 82, 184, 85]

/-- Three empty files. -/
def ggufFiles : List File :=
  [⟨"config.json", 0, emptySum⟩, ⟨"model.gguf", 0, emptySum⟩, ⟨"model.safetensors", 0, emptySum⟩]

def ggufSum : String := "e710ac2de09074eea8620bc04c5f23614a37f9f9c641045a645b19aa1fac74d4"

def ggufSumBytes : List UInt8 :=
  [231, 16, 172, 45, 224, 144, 116, 238, 168, 98, 11, 192, 76, 95, 35, 97,
    74, 55, 249, 249, 198, 65, 4, 90, 100, 91, 25, 170, 31, 172, 116, 212]

/-- SHA-256 and JSON on what is hashed and written here. -/
def sampleCodec : Codec where
  sha256 bytes :=
    if bytes = [] then ⟨emptySumBytes, rfl⟩ else ⟨ggufSumBytes, rfl⟩
  marshalFiles := sampleJSON
  marshalEntry _ := sampleJSON
  marshal m := sampleJSON m.files

def ggufManifest : Manifest := ⟨"", ggufFiles, ggufSum, 0⟩

def emptyRoot : ModelRoot := ⟨∅, fun _ _ h => absurd h (by simp)⟩

def sampleFetch : Fetch := fun _ => some ⟨[], false⟩

def firstSuffix : Suffix := ⟨"1", by decide, by decide⟩

def secondSuffix : Suffix := ⟨"2", by decide, by decide⟩

/-- The first copy in an empty model root. -/
def firstCopy : Result String :=
  ensure sampleCodec ggufManifest "model" sampleFetch firstSuffix ⟨emptyRoot.tree, [], []⟩

/-- The same call on the tree that the first one left. -/
def secondCall : Result String :=
  ensure sampleCodec ggufManifest "model" sampleFetch secondSuffix ⟨firstCopy.2.tree, [], []⟩

theorem ggufManifest_valid : ggufManifest.validate sampleCodec = .ok () := by decide +kernel

theorem ensure_of_valid (h : manifest.validate codec = .ok ()) (tree : Tree) :
    ensure codec manifest preferred fetch suffix ⟨tree, [], []⟩ =
      match ensureDirectory codec manifest preferred fetch suffix ⟨tree, [], []⟩ with
      | (.error e, w) => (.error e, w)
      | (.ok directory, w) => (.ok (modelPath manifest directory), w) := by
  unfold ensure
  rw [h]
  rfl

theorem eq_mk_of_fst {α β : Type} {p : α × β} {a : α} (h : p.1 = a) : p = (a, p.2) := by
  rw [← h]

theorem firstCopy_ok : firstCopy.1 = .ok ("cluster-models/" ++ ggufSum) := by
  rw [firstCopy, ensure_of_valid ggufManifest_valid]
  decide +kernel

/-- The second call does not find the first copy and fetches every file again. -/
theorem ggufManifest_copied_again :
    firstCopy.1 = .ok ("cluster-models/" ++ ggufSum) ∧ secondCall.2.fetched = [0, 1, 2] := by
  refine ⟨firstCopy_ok, ?_⟩
  rw [secondCall, firstCopy, ensure_of_valid ggufManifest_valid, ensure_of_valid ggufManifest_valid]
  decide +kernel

theorem ggufManifest_not_found : ¬ ∃ path w, secondCall = (.ok path, w) ∧ w.fetched = [] ∧ w.tree = firstCopy.2.tree := by
  rw [secondCall, ensure_again_iff (eq_mk_of_fst (p := firstCopy) firstCopy_ok)]
  rintro (hentry | hall)
  · exact hentry rfl
  · exact absurd (hall ⟨"model.gguf", 0, emptySum⟩ (.tail _ (.head _))) (by decide +kernel)

end Tanpopo.Bundle
