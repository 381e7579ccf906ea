import Tanpopo.Lib.FileTree
/-!
# Switching to a new version

`swapAndRestart` moves the installed tree away, puts the new one in its place
and starts it, and goes back when a step fails. Every step may fail.

- `swap_safe`: where the two trees are when it returns, and whenever it starts
  one of them.
-/

namespace Tanpopo.AppUpdate

/-- What was done, with the error it gave. -/
inductive Operation where
  | mkdirAll (path : TreePath) (failure : Option String)
  | rename (old new : TreePath) (failure : Option String)
  /-- The tree as it was when the program was started. -/
  | launch (newVersion : Bool) (tree : Tree) (failure : Option String)

structure World where
  tree : Tree
  log : List Operation

/-- Which operations fail, whatever they are given. -/
structure System where
  /-- The error and the number of directories that are made before it. -/
  mkdirFailure : World → TreePath → Option (String × Nat)
  renameFailure : World → TreePath → TreePath → Option String
  launchFailure : World → Bool → Option String

namespace System

def mkdirAll (sys : System) (w : World) (path : TreePath) : Option String × World :=
  match sys.mkdirFailure w path, w.tree.mkdirAll path with
  | some (e, made), _ => (some e, ⟨(w.tree.mkdirAll (path.take made)).getD w.tree, w.log ++ [.mkdirAll path (some e)]⟩)
  | none, none => (some "not a directory", ⟨w.tree, w.log ++ [.mkdirAll path (some "not a directory")]⟩)
  | none, some tree => (none, ⟨tree, w.log ++ [.mkdirAll path none]⟩)

/-- The error of `os.Rename`. -/
def renameError (sys : System) (w : World) (old new : TreePath) : Option String :=
  match sys.renameFailure w old new with
  | some e => some e
  | none =>
    if w.tree.get? old = none then some "no such file or directory"
    else if (w.tree.rename old new).isNone then some "file exists"
    else none

def rename (sys : System) (w : World) (old new : TreePath) : Option String × World :=
  match sys.renameError w old new with
  | some e => (some e, ⟨w.tree, w.log ++ [.rename old new (some e)]⟩)
  | none => (none, ⟨w.tree.move old new, w.log ++ [.rename old new none]⟩)

/-- What the started program does to its files is not represented. -/
def launch (sys : System) (w : World) (newVersion : Bool) : Option String × World :=
  let failure := sys.launchFailure w newVersion
  (failure, ⟨w.tree, w.log ++ [.launch newVersion w.tree failure]⟩)

/-- `errors.Join`. -/
def joinErrors (e : String) : Option String → String
  | none => e
  | some e' => e ++ "\n" ++ e'

def failBeforeSwap (sys : System) (w : World) (e : String) : Option String × World :=
  let (restartErr, w) := sys.launch w false
  (some (joinErrors e restartErr), w)

/-- `payload + ".failed"`. -/
def failedPath (payload : TreePath) : TreePath := payload.dropLast ++ [payload.getLastD "" ++ ".failed"]

def pathText (path : TreePath) : String := "/".intercalate path

def rollBack (sys : System) (w : World) (target payload backup : TreePath) (e : String) : Option String × World :=
  match sys.rename w target (failedPath payload) with
  | (some moveErr, w) => (some (joinErrors e (some ("保留失敗新版失敗，舊版位於 " ++ pathText backup ++ ": " ++ moveErr))), w)
  | (none, w) =>
    match sys.rename w backup target with
    | (some restore, w) => (some (joinErrors e (some ("還原失敗，舊版位於 " ++ pathText backup ++ ": " ++ restore))), w)
    | (none, w) =>
      match sys.launch w false with
      | (some restartErr, w) => (some (joinErrors e (some ("檔案已還原但舊版啟動失敗: " ++ restartErr))), w)
      | (none, w) => (some ("新版啟動失敗，已還原並重新啟動舊版: " ++ e), w)

/-- The old tree is at the backup. -/
def swapIn (sys : System) (w : World) (target payload backup : TreePath) : Option String × World :=
  match sys.rename w payload target with
  | (some e, w) =>
    match sys.rename w backup target with
    | (some restore, w) => (some (joinErrors e (some ("還原失敗，舊版位於 " ++ pathText backup ++ ": " ++ restore))), w)
    | (none, w) => sys.failBeforeSwap w e
  | (none, w) =>
    match sys.launch w true with
    | (some e, w) => sys.rollBack w target payload backup e
    | (none, w) => (none, w)

def swapAndRestart (sys : System) (w : World) (target payload backup : TreePath) : Option String × World :=
  match sys.mkdirAll w backup.dropLast with
  | (some e, w) => sys.failBeforeSwap w e
  | (none, w) =>
    match sys.rename w target backup with
    | (some e, w) => sys.failBeforeSwap w ("備份安裝目錄失敗: " ++ e)
    | (none, w) => sys.swapIn w target payload backup

end System

/-! ## Where the trees are -/

/-- A tree, relative to its top. -/
abbrev Subtree := TreePath → Option Entry

def At (tree : Tree) (path : TreePath) (sub : Subtree) : Prop := ∀ rest, tree.get? (path ++ rest) = sub rest

def Apart (a b : TreePath) : Prop := ¬ a <+: b ∧ ¬ b <+: a

instance (a b : TreePath) : Decidable (Apart a b) := inferInstanceAs (Decidable (_ ∧ _))

variable {sys : System} {w w' : World} {target payload backup old new path : TreePath} {sub oldTree newTree : Subtree}
  {tree : Tree} {e : String}

theorem Apart.symm (h : Apart old new) : Apart new old := ⟨h.2, h.1⟩

/-- What is below one path is not below the other. -/
theorem Apart.not_below (h : Apart old new) (rest : TreePath) : ¬ new <+: old ++ rest := fun hnew =>
  (List.prefix_or_prefix_of_prefix hnew (List.prefix_append old rest)).elim h.2 h.1

theorem at_move (h : At tree old sub) (hapart : Apart old new) : At (tree.move old new) new sub := fun rest =>
  (Tree.get?_move_below hapart.2 hapart.1 rest).trans (h rest)

theorem at_move_other (h : At tree path sub) (hold : Apart path old) (hnew : Apart path new) : At (tree.move old new) path sub :=
  fun rest => (Tree.get?_move_other (hnew.not_below rest) (hold.not_below rest)).trans (h rest)

/-- Making directories elsewhere leaves a tree as it is. -/
theorem at_mkdirAll (sys : System) {dir : TreePath} (h : At w.tree path sub) (happart : ¬ path <+: dir) :
    At (sys.mkdirAll w dir).2.tree path sub := by
  have hmade : ∀ (dir' : TreePath) (tree : Tree), dir' <+: dir → w.tree.mkdirAll dir' = some tree → At tree path sub := by
    intro dir' tree hdir hmk rest
    rcases Tree.get?_mkdirAll hmk (path ++ rest) with hsame | ⟨-, -, -, hstart⟩
    · exact hsame.trans (h rest)
    · exact absurd ((List.prefix_append path rest).trans (hstart.trans hdir)) happart
  unfold System.mkdirAll
  split
  · rename_i e made _
    cases hmk : w.tree.mkdirAll (dir.take made) with
    | none => exact h
    | some tree => exact hmade _ tree (List.take_prefix _ _) hmk
  · exact h
  · rename_i hmk
    exact hmade dir _ List.prefix_rfl hmk

theorem at_unique (h : At tree path oldTree) (h' : At tree path newTree) : newTree = oldTree :=
  funext fun rest => (h' rest).symm.trans (h rest)

/-! ## One operation -/

/-- A rename moves the tree or does nothing. -/
theorem rename_cases (sys : System) (w : World) (old new : TreePath) :
    (∃ w', sys.rename w old new = (none, w') ∧ w'.tree = w.tree.move old new ∧ w'.log = w.log ++ [.rename old new none]) ∨
    ∃ e w', sys.rename w old new = (some e, w') ∧ w'.tree = w.tree ∧ w'.log = w.log ++ [.rename old new (some e)] := by
  unfold System.rename
  split
  · exact .inr ⟨_, _, rfl, rfl, rfl⟩
  · exact .inl ⟨_, rfl, rfl, rfl⟩

/-- Programs are only started from the tree that is meant. -/
def Started (target : TreePath) (oldTree newTree : Subtree) (log : List Operation) : Prop :=
  ∀ newVersion tree failure, .launch newVersion tree failure ∈ log → At tree target (if newVersion then newTree else oldTree)

theorem Started.append {log : List Operation} {op : Operation} (h : Started target oldTree newTree log)
    (hop : ∀ newVersion tree failure, op = .launch newVersion tree failure → At tree target (if newVersion then newTree else oldTree)) :
    Started target oldTree newTree (log ++ [op]) := by
  intro newVersion tree failure hmem
  rcases List.mem_append.1 hmem with hmem | hmem
  · exact h newVersion tree failure hmem
  · exact hop newVersion tree failure (List.mem_singleton.1 hmem).symm

theorem Started.rename {failure : Option String} (h : Started target oldTree newTree w.log)
    (hlog : w'.log = w.log ++ [.rename old new failure]) : Started target oldTree newTree w'.log := by
  rw [hlog]
  exact h.append fun _ _ _ heq => by cases heq

theorem Started.launch (newVersion : Bool) (failure : Option String) (h : Started target oldTree newTree w.log)
    (hat : At w.tree target (if newVersion then newTree else oldTree)) :
    Started target oldTree newTree (w.log ++ [.launch newVersion w.tree failure]) :=
  h.append fun newVersion' tree failure' heq => by
    cases heq
    exact hat

theorem Started.mkdirAll (sys : System) (dir : TreePath) (h : Started target oldTree newTree w.log) :
    Started target oldTree newTree (sys.mkdirAll w dir).2.log := by
  unfold System.mkdirAll
  split <;> exact h.append fun _ _ _ heq => by cases heq

/-! ## The swap -/

/-- The paths of a swap do not lie in each other. -/
structure Disjoint (target payload backup : TreePath) : Prop where
  targetPayload : Apart target payload
  targetBackup : Apart target backup
  targetFailed : Apart target (System.failedPath payload)
  payloadBackup : Apart payload backup
  failedBackup : Apart (System.failedPath payload) backup

/-- What holds when a swap returns. -/
structure SwapSafe (target payload backup : TreePath) (oldTree newTree : Subtree) (result : Option String × World) : Prop where
  kept : At result.2.tree target oldTree ∨ At result.2.tree backup oldTree
  started : Started target oldTree newTree result.2.log
  done : result.1 = none → At result.2.tree target newTree ∧ ∃ tree, .launch true tree none ∈ result.2.log
  stuck : result.1 ≠ none → newTree ≠ oldTree → newTree [] ≠ none → At result.2.tree target newTree →
    ∃ e, .rename target (System.failedPath payload) (some e) ∈ result.2.log

/-- The old tree is back at the target. -/
theorem restored_safe {result : Option String × World} (h : At result.2.tree target oldTree)
    (hstarted : Started target oldTree newTree result.2.log) (herror : result.1 ≠ none) :
    SwapSafe target payload backup oldTree newTree result where
  kept := .inl h
  started := hstarted
  done hnone := absurd hnone herror
  stuck _ hne _ hnew := absurd (at_unique h hnew) hne

/-- Nothing is at the target. -/
theorem empty_safe {result : Option String × World} (hbackup : At result.2.tree backup oldTree)
    (hempty : result.2.tree.get? target = none) (hstarted : Started target oldTree newTree result.2.log) (herror : result.1 ≠ none) :
    SwapSafe target payload backup oldTree newTree result where
  kept := .inr hbackup
  started := hstarted
  done hnone := absurd hnone herror
  stuck _ _ hsome hnew := by
    have htop := hnew []
    rw [List.append_nil, hempty] at htop
    exact absurd htop.symm hsome

/-- With the old tree in place the old program may be started. -/
theorem failBeforeSwap_safe (h : At w.tree target oldTree) (hstarted : Started target oldTree newTree w.log) (e : String) :
    SwapSafe target payload backup oldTree newTree (sys.failBeforeSwap w e) :=
  restored_safe h (hstarted.launch false _ h) nofun

theorem get?_move_top (hapart : Apart old new) : (tree.move old new).get? old = none := by
  have h := Tree.get?_move_from hapart.2 hapart.1 (t := tree) []
  rwa [List.append_nil] at h

theorem rollBack_safe (hdisjoint : Disjoint target payload backup) (hbackup : At w.tree backup oldTree)
    (hstarted : Started target oldTree newTree w.log) (e : String) :
    SwapSafe target payload backup oldTree newTree (sys.rollBack w target payload backup e) := by
  unfold System.rollBack
  rcases rename_cases sys w target (System.failedPath payload) with ⟨w₁, hmove, htree, hlog⟩ | ⟨moveErr, w₁, hmove, htree, hlog⟩
  · rw [hmove]
    simp only
    have hstarted₁ := hstarted.rename hlog
    have hbackup₁ : At w₁.tree backup oldTree := by
      rw [htree]
      exact at_move_other hbackup hdisjoint.targetBackup.symm hdisjoint.failedBackup.symm
    rcases rename_cases sys w₁ backup target with ⟨w₂, hrestore, htree₂, hlog₂⟩ | ⟨restore, w₂, hrestore, htree₂, hlog₂⟩
    · rw [hrestore]
      simp only
      have hold : At w₂.tree target oldTree := by
        rw [htree₂]
        exact at_move hbackup₁ hdisjoint.targetBackup.symm
      have hlaunch := (hstarted₁.rename hlog₂).launch false (sys.launchFailure w₂ false) hold
      cases hfailure : sys.launchFailure w₂ false with
      | some restartErr =>
        rw [hfailure] at hlaunch
        simp only [System.launch, hfailure]
        exact restored_safe hold hlaunch nofun
      | none =>
        rw [hfailure] at hlaunch
        simp only [System.launch, hfailure]
        exact restored_safe hold hlaunch nofun
    · rw [hrestore]
      refine empty_safe (by rw [htree₂]; exact hbackup₁) ?_ (hstarted₁.rename hlog₂) nofun
      rw [htree₂, htree]
      exact get?_move_top hdisjoint.targetFailed
  · rw [hmove]
    refine ⟨.inr (by rw [htree]; exact hbackup), hstarted.rename hlog, nofun, fun _ _ _ _ => ⟨moveErr, ?_⟩⟩
    rw [hlog]
    exact List.mem_append_right _ (List.mem_singleton.2 rfl)

/-- What follows once the old tree is at the backup. -/
theorem swapIn_safe (hdisjoint : Disjoint target payload backup) (hold : At w.tree backup oldTree) (hnew : At w.tree payload newTree)
    (hempty : w.tree.get? target = none) (hstarted : Started target oldTree newTree w.log) :
    SwapSafe target payload backup oldTree newTree (sys.swapIn w target payload backup) := by
  unfold System.swapIn
  rcases rename_cases sys w payload target with ⟨w₁, hmove, htree, hlog⟩ | ⟨e, w₁, hmove, htree, hlog⟩
  · rw [hmove]
    simp only
    -- The new tree is in its place, and the old one in the backup.
    have hnew₁ : At w₁.tree target newTree := by
      rw [htree]
      exact at_move hnew hdisjoint.targetPayload.symm
    have hold₁ : At w₁.tree backup oldTree := by
      rw [htree]
      exact at_move_other hold hdisjoint.payloadBackup.symm hdisjoint.targetBackup.symm
    have hlaunch := (hstarted.rename hlog).launch true (sys.launchFailure w₁ true) hnew₁
    cases hfailure : sys.launchFailure w₁ true with
    | none =>
      rw [hfailure] at hlaunch
      simp only [System.launch, hfailure]
      refine ⟨.inr hold₁, hlaunch, fun _ => ⟨hnew₁, w₁.tree, ?_⟩, fun herror => absurd rfl herror⟩
      exact List.mem_append_right _ (List.mem_singleton.2 rfl)
    | some e =>
      rw [hfailure] at hlaunch
      simp only [System.launch, hfailure]
      exact rollBack_safe hdisjoint (by exact hold₁) hlaunch e
  · rw [hmove]
    simp only
    have hold₁ : At w₁.tree backup oldTree := by
      rw [htree]
      exact hold
    -- The new tree could not be moved. The old one goes back, or stays in the backup.
    rcases rename_cases sys w₁ backup target with ⟨w₂, hrestore, htree₂, hlog₂⟩ | ⟨restore, w₂, hrestore, htree₂, hlog₂⟩
    · rw [hrestore]
      refine failBeforeSwap_safe ?_ ((hstarted.rename hlog).rename hlog₂) e
      rw [htree₂]
      exact at_move hold₁ hdisjoint.targetBackup.symm
    · rw [hrestore]
      refine empty_safe (by rw [htree₂]; exact hold₁) ?_ ((hstarted.rename hlog).rename hlog₂) nofun
      rw [htree₂, htree]
      exact hempty

/-- Whatever fails, the old tree is kept, the right tree is started and the new one stays only if it cannot be moved. -/
theorem swap_safe {sys : System} {tree : Tree} {target payload backup : TreePath} (hdisjoint : Disjoint target payload backup) :
    SwapSafe target payload backup (fun rest => tree.get? (target ++ rest)) (fun rest => tree.get? (payload ++ rest))
      (sys.swapAndRestart ⟨tree, []⟩ target payload backup) := by
  generalize holdTree : (fun rest => tree.get? (target ++ rest)) = oldTree
  generalize hnewTree : (fun rest => tree.get? (payload ++ rest)) = newTree
  have hold : At (World.mk tree []).tree target oldTree := fun rest => congrFun holdTree rest
  have hnew : At (World.mk tree []).tree payload newTree := fun rest => congrFun hnewTree rest
  have hstarted : Started target oldTree newTree (World.mk tree []).log := nofun
  generalize World.mk tree [] = w at *
  have htarget : ¬ target <+: backup.dropLast := fun h => hdisjoint.targetBackup.1 (h.trans (List.dropLast_prefix _))
  have hpayload : ¬ payload <+: backup.dropLast := fun h => hdisjoint.payloadBackup.1 (h.trans (List.dropLast_prefix _))
  have hold₁ := at_mkdirAll sys hold htarget
  have hnew₁ := at_mkdirAll sys hnew hpayload
  have hstarted₁ := hstarted.mkdirAll sys backup.dropLast
  unfold System.swapAndRestart
  rcases hmkdir : sys.mkdirAll w backup.dropLast with ⟨_ | e, w₁⟩ <;> rw [hmkdir] at hold₁ hnew₁ hstarted₁
  · simp only
    rcases rename_cases sys w₁ target backup with ⟨w₂, hbackup, htree₂, hlog₂⟩ | ⟨e, w₂, hbackup, htree₂, hlog₂⟩
    · rw [hbackup]
      simp only
      have hold₂ : At w₂.tree backup oldTree := by
        rw [htree₂]
        exact at_move hold₁ hdisjoint.targetBackup
      have hnew₂ : At w₂.tree payload newTree := by
        rw [htree₂]
        exact at_move_other hnew₁ hdisjoint.targetPayload.symm hdisjoint.payloadBackup
      exact swapIn_safe hdisjoint hold₂ hnew₂ (by rw [htree₂]; exact get?_move_top hdisjoint.targetBackup) (hstarted₁.rename hlog₂)
    · rw [hbackup]
      exact failBeforeSwap_safe (by rw [htree₂]; exact hold₁) (hstarted₁.rename hlog₂) _
  · exact failBeforeSwap_safe hold₁ hstarted₁ e

/-- A system on which the new version does not start. -/
def brokenUpdate : System where
  mkdirFailure _ _ := none
  renameFailure _ _ _ := none
  launchFailure _ newVersion := if newVersion then some "exit status 1" else none

/-- The installed program and the new one, each with its binary. -/
def updateTree : Tree where
  entries := [(["opt"], .dir), (["opt", "Tanpopo"], .dir), (["opt", "Tanpopo", "bin"], .file [1]), (["opt", "work"], .dir),
    (["opt", "work", "new"], .dir), (["opt", "work", "new", "bin"], .file [2])]
  nodup := by decide +kernel

theorem brokenUpdate_safe :
    SwapSafe ["opt", "Tanpopo"] ["opt", "work", "new"] ["opt", ".Tanpopo-backups", "1"]
      (fun rest => updateTree.get? (["opt", "Tanpopo"] ++ rest)) (fun rest => updateTree.get? (["opt", "work", "new"] ++ rest))
      (brokenUpdate.swapAndRestart ⟨updateTree, []⟩ ["opt", "Tanpopo"] ["opt", "work", "new"] ["opt", ".Tanpopo-backups", "1"]) :=
  swap_safe ⟨by decide +kernel, by decide +kernel, by decide +kernel, by decide +kernel, by decide +kernel⟩

end Tanpopo.AppUpdate
