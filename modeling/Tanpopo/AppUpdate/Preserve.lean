import Mathlib.Data.List.Sort
import Mathlib.Data.String.Basic
import Tanpopo.Lib.Covering
import Tanpopo.Lib.Path
/-!
# Paths that an update keeps

On Linux an update copies what the user has put into the installation from the
old version to the new one. `persistentPaths_correct`: the list of what is
copied covers everything configured, and copies no file twice.
-/

namespace Tanpopo.AppUpdate

open Go Covering

/-! ## The list -/

def resolveCandidate (directory candidate : String) : String :=
  if isAbs candidate then candidate else pathJoin directory candidate

/-- `filepath.Rel` from an absolute base. -/
def filepathRel (base target : String) : Except String String :=
  if isAbs target then .ok (pathRel base target) else .error ("Rel: can't make " ++ target ++ " relative to " ++ base)

/-- What a configured path adds to the list. -/
def preservedPath (target directory candidate : String) : Except String (Option String) :=
  if candidate = "" then .ok none
  else match filepathRel target (resolveCandidate directory candidate) with
    | .error e => .error e
    | .ok relative =>
      if relative = "." then .error "使用者資料目錄不可等於程式安裝目錄"
      else if relative = ".." ∨ hasPrefix relative "../" then .ok none
      else .ok (some relative)

def covers (root candidate : String) : Bool := candidate = root || hasPrefix candidate (root ++ "/")

def alwaysPreserved : List String := ["agent.properties", "data"]

def persistentPaths (target directory : String) (preservePaths : List String) : Except String (List String) :=
  (preservePaths.mapM (preservedPath target directory)).map fun relatives =>
    uncovered covers ((alwaysPreserved ++ relatives.filterMap id).insertionSort (· ≤ ·))

/-- The files at and below an entry, which `copyPath` copies. -/
def copied (files : List (List String)) (entry : String) : List (List String) :=
  files.filter fun file => (split entry '/').isPrefixOf file

/-! ## Covering -/

theorem covers_iff {root candidate : String} : covers root candidate = true ↔ split root '/' <+: split candidate '/' := by
  rw [covers, Bool.or_eq_true, decide_eq_true_eq]
  constructor
  · rintro (rfl | h)
    · exact List.prefix_refl _
    · exact split_of_hasPrefix h
  · rintro ⟨rest, hrest⟩
    rcases eq_or_ne rest [] with rfl | hne
    · exact .inl (split_injective (by rw [← hrest, List.append_nil]))
    · refine .inr ?_
      have hseparator : ∀ part ∈ rest, '/' ∉ part.toList := fun part hpart =>
        not_mem_of_mem_split (hrest ▸ List.mem_append_right _ hpart)
      have htext : candidate = root ++ "/" ++ join rest '/' :=
        split_injective (by rw [split_append_separator, split_join hne hseparator, hrest])
      rw [htext]
      exact hasPrefix_append (by simp [hasPrefix])

theorem covers_refl (path : String) : covers path path = true := covers_iff.mpr (List.prefix_refl _)

/-- A path comes after the directories that it is in. -/
theorem le_of_covers (root candidate : String) (h : covers root candidate = true) : root ≤ candidate := by
  rw [covers, Bool.or_eq_true, decide_eq_true_eq] at h
  rcases h with rfl | h
  · exact le_refl _
  · rw [hasPrefix, List.isPrefixOf_iff_prefix, String.toList_append] at h
    have hstart : root.toList <+: candidate.toList := (List.prefix_append _ _).trans h
    exact not_lt.mp fun hlt => hstart.le (String.lt_iff_toList_lt.mp hlt)

/-! ## Configured paths -/

variable {target directory candidate relative root : String} {preservePaths roots : List String}

theorem isAbs_resolveCandidate (h : isAbs directory = true) (candidate : String) :
    isAbs (resolveCandidate directory candidate) = true := by
  unfold resolveCandidate
  split
  · assumption
  · exact isAbs_pathJoin h candidate

/-- A path on the list is one of names below the target. -/
theorem inner_of_preservedPath (hdirectory : isAbs directory = true)
    (h : preservedPath target directory candidate = .ok (some relative)) :
    ∃ names, Inner names ∧ relative = join names '/' ∧
      absNames (resolveCandidate directory candidate) = absNames target ++ names := by
  unfold preservedPath filepathRel at h
  rw [if_pos (isAbs_resolveCandidate hdirectory candidate)] at h
  by_cases hempty : candidate = ""
  · rw [if_pos hempty] at h
    cases h
  rw [if_neg hempty] at h
  dsimp only at h
  split_ifs at h with hdot hup
  · cases h
  obtain rfl := Option.some.inj (Except.ok.inj h)
  obtain ⟨hup, hups⟩ := not_or.mp hup
  obtain ⟨names, hnames⟩ := isPrefix_of_pathRel hup (Bool.eq_false_iff.mpr hups)
  have hrel := pathRel_below hnames.symm
  have hne : names ≠ [] := fun hnil => hdot (by rw [hrel, if_pos hnil])
  exact ⟨names, inner_of_absNames hnames.symm hne, by rw [hrel, if_neg hne], hnames.symm⟩

/-- A path inside the target is on the list. -/
theorem preservedPath_of_inside (hdirectory : isAbs directory = true) (hne : candidate ≠ "") {added : Option String}
    (hinside : absNames target <+: absNames (resolveCandidate directory candidate))
    (h : preservedPath target directory candidate = .ok added) :
    ∃ names, Inner names ∧ added = some (join names '/') ∧
      absNames (resolveCandidate directory candidate) = absNames target ++ names := by
  obtain ⟨names, hnames⟩ := hinside
  have hrel := pathRel_below hnames.symm
  unfold preservedPath filepathRel at h
  rw [if_pos (isAbs_resolveCandidate hdirectory candidate), if_neg hne] at h
  dsimp only at h
  rcases eq_or_ne names [] with hnil | hnonempty
  · rw [hrel, if_pos hnil, if_pos rfl] at h
    cases h
  · have hinner : Inner names := inner_of_absNames hnames.symm hnonempty
    have hstays : ¬ (join names '/' = ".." ∨ hasPrefix (join names '/') "../" = true) := fun hor =>
      hor.elim hinner.not_dotdot.1 fun hup => by rw [hinner.not_dotdot.2] at hup; cases hup
    rw [hrel, if_neg hnonempty, if_neg hinner.ne_dot, if_neg hstays] at h
    exact ⟨names, hinner, (Except.ok.inj h).symm, hnames.symm⟩

/-! ## The whole list -/

/-- Places below the target that the user has configured, and those always kept. -/
def Wanted (target directory : String) (preservePaths : List String) (place : List String) : Prop :=
  (∃ name ∈ alwaysPreserved, place = [name]) ∨
    ∃ candidate ∈ preservePaths, candidate ≠ "" ∧ absNames (resolveCandidate directory candidate) = absNames target ++ place

theorem persistentPaths_inv (h : persistentPaths target directory preservePaths = .ok roots) :
    ∃ relatives, preservePaths.mapM (preservedPath target directory) = .ok relatives ∧
      roots = uncovered covers ((alwaysPreserved ++ relatives.filterMap id).insertionSort (· ≤ ·)) :=
  map_ok_inv h

theorem mem_mapM_of_mem {ε α β : Type} {f : α → Except ε β} {l : List α} {l' : List β} (h : l.mapM f = .ok l') {a : α}
    (ha : a ∈ l) : ∃ b ∈ l', f a = .ok b := by
  induction l generalizing l' with
  | nil => cases ha
  | cons first rest ih =>
    rw [List.mapM_cons] at h
    obtain ⟨b, hb, h⟩ := bind_ok_inv h
    obtain ⟨others, hothers, h⟩ := bind_ok_inv h
    cases h
    rcases List.mem_cons.1 ha with rfl | ha
    · exact ⟨b, List.mem_cons_self, hb⟩
    · obtain ⟨b', hb', hf⟩ := ih hothers ha
      exact ⟨b', List.mem_cons_of_mem _ hb', hf⟩

/-- Every entry stands for names below the target. -/
theorem inner_of_mem_roots (hdirectory : isAbs directory = true)
    (h : persistentPaths target directory preservePaths = .ok roots) (hroot : root ∈ roots) : Inner (split root '/') := by
  obtain ⟨relatives, hrelatives, rfl⟩ := persistentPaths_inv h
  have hmem := (List.mem_insertionSort (· ≤ ·)).mp (mem_of_mem_uncovered hroot)
  rcases List.mem_append.mp hmem with halways | hconfigured
  · have hall : ∀ name ∈ alwaysPreserved, split name '/' = [name] ∧ name ≠ "" ∧ name ≠ "." ∧ name ≠ ".." ∧
        '/' ∉ name.toList := by decide
    obtain ⟨hsplit, hempty, hdot, hdotdot, hseparator⟩ := hall root halways
    rw [hsplit]
    refine ⟨List.cons_ne_nil _ _, fun name hname => ?_, fun name hname => ?_⟩
    · rw [List.mem_singleton.mp hname]
      exact ⟨hempty, hdot, hdotdot⟩
    · rwa [List.mem_singleton.mp hname]
  · obtain ⟨added, hadded, rfl⟩ := List.mem_filterMap.mp hconfigured
    obtain ⟨candidate, -, hcandidate⟩ := exists_of_mem_mapM hrelatives hadded
    obtain ⟨names, hinner, rfl, -⟩ := inner_of_preservedPath hdirectory hcandidate
    rwa [hinner.split_join]

/-- Everything wanted is at or below an entry. -/
theorem exists_root_of_wanted (hdirectory : isAbs directory = true)
    (h : persistentPaths target directory preservePaths = .ok roots) {place : List String}
    (hplace : Wanted target directory preservePaths place) : ∃ root ∈ roots, split root '/' <+: place := by
  obtain ⟨relatives, hrelatives, rfl⟩ := persistentPaths_inv h
  have hlisted : ∃ path ∈ alwaysPreserved ++ relatives.filterMap id, split path '/' = place := by
    rcases hplace with ⟨name, hname, rfl⟩ | ⟨candidate, hcandidate, hne, hnames⟩
    · have hall : ∀ name ∈ alwaysPreserved, split name '/' = [name] := by decide
      exact ⟨name, List.mem_append_left _ hname, hall name hname⟩
    · obtain ⟨added, hadded, hpreserved⟩ := mem_mapM_of_mem hrelatives hcandidate
      obtain ⟨names, hinner, rfl, hnames'⟩ :=
        preservedPath_of_inside hdirectory hne (hnames ▸ List.prefix_append _ _) hpreserved
      refine ⟨join names '/', List.mem_append_right _ (List.mem_filterMap.mpr ⟨_, hadded, rfl⟩), ?_⟩
      rw [hinner.split_join]
      exact List.append_cancel_left (hnames'.symm.trans hnames)
  obtain ⟨path, hpath, rfl⟩ := hlisted
  obtain ⟨root, hroot, hcovers⟩ := exists_uncovered covers_refl ((List.mem_insertionSort (· ≤ ·)).mpr hpath)
  exact ⟨root, hroot, covers_iff.mp hcovers⟩

/-- Entries of an antichain copy a file that one of them holds once. -/
theorem count_copied {files : List (List String)} (hfiles : files.Nodup) {file : List String} (hfile : file ∈ files)
    (hroots : roots.Pairwise fun a b => ¬ split a '/' <+: split b '/' ∧ ¬ split b '/' <+: split a '/')
    (h : ∃ root ∈ roots, split root '/' <+: file) : (roots.flatMap (copied files)).count file = 1 := by
  have hone : ∀ root, (copied files root).count file = if split root '/' <+: file then 1 else 0 := by
    intro root
    split
    · rename_i hbelow
      rw [copied, List.Nodup.count (hfiles.filter _)]
      exact if_pos (List.mem_filter.mpr ⟨hfile, List.isPrefixOf_iff_prefix.mpr hbelow⟩)
    · rename_i hbelow
      exact List.count_eq_zero.mpr fun hmem => hbelow (List.isPrefixOf_iff_prefix.mp (List.mem_filter.mp hmem).2)
  induction roots with
  | nil => simp at h
  | cons first rest ih =>
    obtain ⟨hfirst, hrest⟩ := List.pairwise_cons.mp hroots
    rw [List.flatMap_cons, List.count_append, hone]
    by_cases hbelow : split first '/' <+: file
    · have hothers : (rest.flatMap (copied files)).count file = 0 := by
        refine List.count_eq_zero.mpr fun hmem => ?_
        obtain ⟨root, hroot, hcopied⟩ := List.mem_flatMap.mp hmem
        have hbelow' := List.isPrefixOf_iff_prefix.mp (List.mem_filter.mp hcopied).2
        exact (List.prefix_or_prefix_of_prefix hbelow hbelow').elim (hfirst root hroot).1 (hfirst root hroot).2
      rw [if_pos hbelow, hothers]
    · obtain ⟨root, hroot, hroot'⟩ := h
      have hmem : root ∈ rest := (List.mem_cons.mp hroot).resolve_left fun heq => hbelow (heq ▸ hroot')
      rw [if_neg hbelow, ih hrest ⟨root, hmem, hroot'⟩]

/-- The list is an antichain of places strictly inside the target that covers everything wanted, so that each file at or
below a wanted place is copied once. -/
theorem persistentPaths_correct (target directory : String) (preservePaths roots : List String)
    (htarget : isAbs target = true) (hdirectory : isAbs directory = true)
    (h : persistentPaths target directory preservePaths = .ok roots) :
    (roots.Pairwise fun a b => ¬ split a '/' <+: split b '/' ∧ ¬ split b '/' <+: split a '/') ∧
      (∀ place, Wanted target directory preservePaths place → ∃ root ∈ roots, split root '/' <+: place) ∧
      (∀ root ∈ roots, (∀ part ∈ split root '/', IsName part) ∧ Below (absNames target) (absNames (pathJoin target root))) ∧
      ∀ files : List (List String), files.Nodup → ∀ file ∈ files,
        (∃ place, Wanted target directory preservePaths place ∧ place <+: file) →
        (roots.flatMap (copied files)).count file = 1 := by
  have hpairwise : roots.Pairwise fun a b => ¬ split a '/' <+: split b '/' ∧ ¬ split b '/' <+: split a '/' := by
    obtain ⟨relatives, -, rfl⟩ := persistentPaths_inv h
    refine (pairwise_uncovered covers_refl le_of_covers (List.pairwise_insertionSort _ _)).imp fun hnot => ?_
    rw [← covers_iff, ← covers_iff, hnot.1, hnot.2]
    exact ⟨Bool.false_ne_true, Bool.false_ne_true⟩
  have hcover : ∀ place, Wanted target directory preservePaths place → ∃ root ∈ roots, split root '/' <+: place :=
    fun place => exists_root_of_wanted hdirectory h
  refine ⟨hpairwise, hcover, fun root hroot => ?_, fun files hfiles file hfile hwanted => ?_⟩
  · have hinner := inner_of_mem_roots hdirectory h hroot
    refine ⟨hinner.isName, ?_⟩
    rw [absNames_pathJoin htarget, walk_names _ hinner.isName]
    exact ⟨List.prefix_append _ _, fun heq => hinner.ne_nil (List.append_right_eq_self.mp heq.symm)⟩
  · obtain ⟨place, hplace, hbelow⟩ := hwanted
    obtain ⟨root, hroot, hcovered⟩ := hcover place hplace
    exact count_copied hfiles hfile hpairwise ⟨root, hroot, hcovered.trans hbelow⟩

/-- Siblings that sort between a directory and what is in it. -/
theorem siblings_preserved :
    ((["a", "a-b", "agent.properties", "data"] : List String).Pairwise fun a b =>
        ¬ split a '/' <+: split b '/' ∧ ¬ split b '/' <+: split a '/') ∧
      (∀ place, Wanted "/opt/app" "/opt/app" ["a/c", "../app/a", "", "a-b", "/var/models"] place →
        ∃ root ∈ ["a", "a-b", "agent.properties", "data"], split root '/' <+: place) ∧
      (∀ root ∈ ["a", "a-b", "agent.properties", "data"], (∀ part ∈ split root '/', IsName part) ∧
        Below (absNames "/opt/app") (absNames (pathJoin "/opt/app" root))) ∧
      ∀ files : List (List String), files.Nodup → ∀ file ∈ files,
        (∃ place, Wanted "/opt/app" "/opt/app" ["a/c", "../app/a", "", "a-b", "/var/models"] place ∧ place <+: file) →
        ((["a", "a-b", "agent.properties", "data"] : List String).flatMap (copied files)).count file = 1 :=
  persistentPaths_correct _ _ _ _ (by decide) (by decide) (by decide +kernel)

end Tanpopo.AppUpdate
