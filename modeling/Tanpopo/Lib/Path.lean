import Tanpopo.Lib.Go
import Mathlib.Data.List.Induction
/-!
# Where a cleaned path leads

`path.Clean` walks over the elements of a path and keeps the names it is at.
Walking a relative path from a directory gives the same place before and after
cleaning, and the leading `..` elements of a cleaned path are what it climbs.
-/

namespace Tanpopo.Go

variable {names rest parts : List String} {name directory relative : String} {rooted : Bool}

def walk (rooted : Bool) (start parts : List String) : List String := parts.foldl (pathCleanStep rooted) start

/-- A name is an element that is not empty, `.` or `..`. -/
structure IsName (name : String) : Prop where
  ne_empty : name ≠ ""
  ne_dot : name ≠ "."
  ne_dotdot : name ≠ ".."

/-- What cleaning leaves of a relative path: elements to climb, then names. -/
structure Cleaned (names : List String) : Prop where
  ne_empty : ∀ name ∈ names, name ≠ "" ∧ name ≠ "."
  climbs : ∃ k rest, names = List.replicate k ".." ++ rest ∧ ∀ name ∈ rest, IsName name

/-! ## One element -/

theorem pathCleanStep_skip (h : name = "" ∨ name = ".") : pathCleanStep rooted names name = names := if_pos h

theorem pathCleanStep_name (h : IsName name) : pathCleanStep rooted names name = names ++ [name] := by
  rw [pathCleanStep, if_neg fun hskip => hskip.elim h.ne_empty h.ne_dot, if_neg h.ne_dotdot]

theorem pathCleanStep_up_concat (h : name ≠ "..") : pathCleanStep rooted (names ++ [name]) ".." = names := by
  rw [pathCleanStep, if_neg (by decide), if_pos rfl, List.getLast?_concat]
  simp only [if_neg h, List.dropLast_concat]

theorem pathCleanStep_up_stuck : pathCleanStep rooted (names ++ [".."]) ".." = names ++ [".."] ++ [".."] := by
  rw [pathCleanStep, if_neg (by decide), if_pos rfl, List.getLast?_concat]
  simp only [if_true]

theorem pathCleanStep_up_rooted (h : ∀ name ∈ names, IsName name) : pathCleanStep true names ".." = names.dropLast := by
  rcases List.eq_nil_or_concat' names with rfl | ⟨names, last, rfl⟩
  · rfl
  · rw [pathCleanStep_up_concat (h last (by simp)).ne_dotdot, List.dropLast_concat]

/-! ## Walks -/

theorem walk_append (start : List String) (a b : List String) :
    walk rooted start (a ++ b) = walk rooted (walk rooted start a) b := List.foldl_append

theorem walk_concat (start : List String) :
    walk rooted start (parts ++ [name]) = pathCleanStep rooted (walk rooted start parts) name := by
  rw [walk_append]
  rfl

theorem walk_names (start : List String) (h : ∀ name ∈ rest, IsName name) : walk rooted start rest = start ++ rest := by
  induction rest using List.reverseRecOn with
  | nil => simp [walk]
  | append_singleton rest name ih =>
    rw [walk_concat, ih fun other hother => h other (List.mem_append_left _ hother),
      pathCleanStep_name (h name (by simp)), List.append_assoc]

theorem walk_up (h : ∀ name ∈ names, IsName name) (k : Nat) :
    walk true names (List.replicate k "..") = names.take (names.length - k) := by
  induction k with
  | zero => simp [walk]
  | succ k ih =>
    rw [List.replicate_succ', walk_concat, ih, pathCleanStep_up_rooted fun name hname => h name (List.mem_of_mem_take hname),
      List.dropLast_eq_take, List.take_take, List.length_take]
    congr 1
    omega

/-- An absolute walk only stands at names. -/
theorem isName_of_mem_walk {start : List String} (hstart : ∀ name ∈ start, IsName name) :
    ∀ name ∈ walk true start parts, IsName name := by
  induction parts using List.reverseRecOn with
  | nil => exact hstart
  | append_singleton parts name ih =>
    rw [walk_concat]
    by_cases hskip : name = "" ∨ name = "."
    · rwa [pathCleanStep_skip hskip]
    by_cases hup : name = ".."
    · rw [hup, pathCleanStep_up_rooted ih]
      exact fun other hother => ih other (List.dropLast_subset _ hother)
    · have hname : IsName name := ⟨fun h => hskip (.inl h), fun h => hskip (.inr h), hup⟩
      rw [pathCleanStep_name hname]
      intro other hother
      rcases List.mem_append.1 hother with hother | hother
      · exact ih other hother
      · rwa [List.mem_singleton.1 hother]

theorem cleaned_walk (parts : List String) : Cleaned (walk false [] parts) := by
  induction parts using List.reverseRecOn with
  | nil => exact ⟨by simp [walk], 0, [], rfl, by simp⟩
  | append_singleton parts name ih =>
    rw [walk_concat]
    by_cases hskip : name = "" ∨ name = "."
    · rwa [pathCleanStep_skip hskip]
    obtain ⟨hne, k, rest, heq, hrest⟩ := ih
    by_cases hup : name = ".."
    · subst hup
      rcases List.eq_nil_or_concat' rest with rfl | ⟨rest, last, rfl⟩
      · have hmore : pathCleanStep false (List.replicate k "..") ".." = List.replicate (k + 1) ".." := by
          cases k with
          | zero => rfl
          | succ k => rw [List.replicate_succ' (n := k), pathCleanStep_up_stuck, List.replicate_succ' (n := k + 1),
              List.replicate_succ' (n := k)]
        rw [heq, List.append_nil, hmore]
        refine ⟨fun name hname => ?_, k + 1, [], by simp, by simp⟩
        rw [List.eq_of_mem_replicate hname]
        decide
      · rw [heq, ← List.append_assoc, pathCleanStep_up_concat (hrest last (by simp)).ne_dotdot]
        refine ⟨fun name hname => hne name ?_, k, rest, rfl, fun name hname => hrest name (by simp [hname])⟩
        rw [heq]
        exact (List.mem_append.1 hname).elim (List.mem_append_left _) fun h =>
          List.mem_append_right _ (List.mem_append_left _ h)
    · have hname : IsName name := ⟨fun h => hskip (.inl h), fun h => hskip (.inr h), hup⟩
      rw [pathCleanStep_name hname]
      refine ⟨?_, k, rest ++ [name], by rw [heq, List.append_assoc], ?_⟩
      · rintro other hother
        rcases List.mem_append.1 hother with hother | hother
        · exact hne other hother
        · rw [List.mem_singleton.1 hother]
          exact ⟨hname.ne_empty, hname.ne_dot⟩
      · rintro other hother
        rcases List.mem_append.1 hother with hother | hother
        · exact hrest other hother
        · rwa [List.mem_singleton.1 hother]

/-- Walking the cleaned elements of a relative path leads where the path leads. -/
theorem walk_walk (start parts : List String) :
    walk true start (walk false [] parts) = walk true start parts := by
  induction parts using List.reverseRecOn with
  | nil => rfl
  | append_singleton parts name ih =>
    rw [walk_concat, walk_concat]
    by_cases hskip : name = "" ∨ name = "."
    · rw [pathCleanStep_skip hskip, pathCleanStep_skip hskip, ih]
    by_cases hup : name = ".."
    · subst hup
      rcases List.eq_nil_or_concat' (walk false [] parts) with hnil | ⟨before, last, hlast⟩
      · rw [hnil] at ih ⊢
        rw [← ih]
        rfl
      by_cases hstuck : last = ".."
      · rw [hlast, hstuck, pathCleanStep_up_stuck, walk_concat, ← hstuck, ← hlast, ih, hstuck]
      · have hnames := (cleaned_walk parts).ne_empty last (by simp [hlast])
        rw [hlast, walk_concat, pathCleanStep_name ⟨hnames.1, hnames.2, hstuck⟩] at ih
        rw [hlast, pathCleanStep_up_concat hstuck, ← ih, pathCleanStep_up_concat hstuck]
    · have hname : IsName name := ⟨fun h => hskip (.inl h), fun h => hskip (.inr h), hup⟩
      rw [pathCleanStep_name hname, walk_concat, ih]

theorem mem_of_mem_walk {start : List String} (h : name ∈ walk rooted start parts) : name ∈ start ∨ name ∈ parts := by
  induction parts using List.reverseRecOn generalizing name with
  | nil => exact .inl h
  | append_singleton parts element ih =>
    have hbefore : name ∈ walk rooted start parts → name ∈ start ∨ name ∈ parts ++ [element] := fun hname =>
      (ih hname).imp_right (List.mem_append_left _)
    rw [walk_concat, pathCleanStep] at h
    split at h
    · exact hbefore h
    split at h
    · rename_i hup
      split at h
      · split at h
        · cases h
        · exact .inr (by simp [List.mem_singleton.1 h, hup])
      · split at h
        · rcases List.mem_append.1 h with hname | hname
          · exact hbefore hname
          · exact .inr (by simp [List.mem_singleton.1 hname, hup])
        · exact hbefore (List.dropLast_subset _ h)
    · rcases List.mem_append.1 h with hname | hname
      · exact hbefore hname
      · exact .inr (List.mem_append_right _ hname)

/-! ## Path texts -/

def isAbs (path : String) : Bool := hasPrefix path "/"

/-- The names an absolute path leads to. -/
def absNames (path : String) : List String := walk true [] (split path '/')

theorem split_append_separator (a b : String) : split (a ++ "/" ++ b) '/' = split a '/' ++ split b '/' := by
  have hchars : (a ++ "/" ++ b).toList = a.toList ++ '/' :: b.toList := by simp
  rw [split, hchars, List.splitOn_append_cons_self, List.map_append, split, split]

theorem not_mem_of_mem_split {text part : String} {separator : Char} (h : part ∈ split text separator) :
    separator ∉ part.toList := by
  obtain ⟨chars, hchars, rfl⟩ := List.mem_map.1 h
  rw [String.toList_ofList]
  generalize text.toList = all at hchars
  induction hlength : all.length using Nat.strong_induction_on generalizing all with
  | _ n ih =>
    by_cases hmem : separator ∈ all
    · obtain ⟨before, after, rfl, hbefore⟩ := List.eq_append_cons_of_mem hmem
      rw [List.splitOn_append_cons_self_of_not_mem hbefore] at hchars
      rcases List.mem_cons.1 hchars with rfl | hafter
      · exact hbefore
      · exact ih after.length (by simp at hlength; omega) after hafter rfl
    · have halone := split_of_not_mem (show separator ∉ (String.ofList all).toList by simpa using hmem)
      have hone : String.ofList chars ∈ split (String.ofList all) separator :=
        List.mem_map_of_mem (by rwa [String.toList_ofList])
      rw [halone, List.mem_singleton] at hone
      rwa [String.ofList_injective hone]

@[simp] theorem split_empty (separator : Char) : split "" separator = [""] := split_of_not_mem (by simp)

theorem walk_skip (start : List String) (h : name = "" ∨ name = ".") : walk rooted start [name] = start :=
  pathCleanStep_skip h

theorem walk_empty (start : List String) : walk rooted start (split "" '/') = start := by
  rw [split_empty, walk_skip start (.inl rfl)]

/-- The text of walked names leads back to them. -/
theorem split_join_walk {start : List String} {path : String} (hstart : ∀ name ∈ start, '/' ∉ name.toList)
    (hne : walk rooted start (split path '/') ≠ []) :
    split (join (walk rooted start (split path '/')) '/') '/' = walk rooted start (split path '/') :=
  split_join hne fun _ hname => (mem_of_mem_walk hname).elim (hstart _) not_mem_of_mem_split

theorem isName_of_mem_absNames {path : String} : ∀ name ∈ absNames path, IsName name :=
  isName_of_mem_walk (by simp)

theorem isAbs_append {path : String} (h : isAbs path = true) (rest : String) : isAbs (path ++ rest) = true :=
  hasPrefix_append h

theorem isAbs_pathClean {path : String} (h : isAbs path = true) : isAbs (pathClean path) = true := by
  have h' : hasPrefix path "/" = true := h
  rw [pathClean, if_pos h', isAbs, hasPrefix_append]
  decide

theorem absNames_pathClean {path : String} (h : isAbs path = true) : absNames (pathClean path) = absNames path := by
  have h' : hasPrefix path "/" = true := h
  have hclean : pathClean path = "" ++ "/" ++ join (absNames path) '/' := by
    simp only [pathClean, h', absNames, walk]
    rfl
  rw [hclean, absNames, split_append_separator, walk_append, walk_empty]
  by_cases hnil : absNames path = []
  · rw [hnil]
    decide
  · rw [absNames, split_join_walk (by simp) hnil]
    exact (walk_names [] isName_of_mem_absNames).trans (List.nil_append _)

theorem walk_pathClean {path : String} (start : List String) (h : isAbs path = false) :
    walk true start (split (pathClean path) '/') = walk true start (split path '/') := by
  have h' : hasPrefix path "/" = false := h
  rw [pathClean, h', if_neg (by decide), ← walk_walk start (split path '/')]
  change walk true start (split (if join (walk false [] (split path '/')) '/' = "" then "." else _) '/') = _
  by_cases hnil : walk false [] (split path '/') = []
  · rw [hnil, if_pos (by decide)]
    have hdot : split "." '/' = ["."] := by decide
    rw [hdot, walk_skip start (.inr rfl)]
    rfl
  · rw [if_neg]
    · exact congrArg (walk true start) (split_join_walk (by simp) hnil)
    intro hempty
    have hsplit := split_join_walk (by simp) hnil
    rw [hempty, split_empty] at hsplit
    exact ((cleaned_walk (split path '/')).ne_empty "" (by simp [← hsplit])).1 rfl

/-! ## Climbing -/

/-- A text that starts with the element `..` reads so. -/
theorem join_up (rest : List String) :
    join (".." :: rest) '/' = ".." ∨ hasPrefix (join (".." :: rest) '/') "../" = true := by
  cases rest with
  | nil => exact .inl (by decide)
  | cons next others =>
    refine .inr ?_
    rw [join, List.map_cons, List.map_cons, List.intercalate_cons_cons, hasPrefix, String.toList_ofList]
    simp [List.isPrefixOf]

/-- How many directories a relative path climbs before it names anything. -/
def climbs (path : String) : Nat := ((walk false [] (split path '/')).takeWhile (· = "..")).length

/-- The names of a relative path after its climb. -/
def descent (path : String) : List String := (walk false [] (split path '/')).dropWhile (· = "..")

theorem walk_split (h : ∀ name ∈ names, IsName name) (path : String) :
    walk true names (split path '/') = names.take (names.length - climbs path) ++ descent path := by
  obtain ⟨k, rest, heq, hrest⟩ := (cleaned_walk (split path '/')).climbs
  have hstop : rest.takeWhile (· = "..") = [] := by
    cases rest with
    | nil => rfl
    | cons name rest => simp [(hrest name List.mem_cons_self).ne_dotdot]
  have hclimbs : climbs path = k := by
    rw [climbs, heq, List.takeWhile_append_of_pos (by simp), hstop, List.append_nil, List.length_replicate]
  have hdescent : descent path = rest := by
    have hsplit := List.takeWhile_append_dropWhile (p := (· = "..")) (l := rest)
    rw [hstop, List.nil_append] at hsplit
    rw [descent, heq, List.dropWhile_append_of_pos (by simp), hsplit]
  rw [hclimbs, hdescent, ← walk_walk names, heq, walk_append, walk_up h, walk_names _ hrest]

/-- A place strictly below a directory. -/
def Below (directory place : List String) : Prop := directory <+: place ∧ directory ≠ place

instance (directory place : List String) : Decidable (Below directory place) :=
  inferInstanceAs (Decidable (_ ∧ _))

theorem below_append_left (before left place : List String) :
    Below (before ++ left) (before ++ place) ↔ Below left place := by
  rw [Below, List.prefix_append_right_inj, Ne, List.append_cancel_left_eq, Below]

/-- A path leads below a directory exactly when it names again what it climbs out of, and goes on. -/
theorem below_walk_iff (h : ∀ name ∈ names, IsName name) (path : String) :
    Below names (walk true names (split path '/')) ↔
      Below (names.drop (names.length - climbs path)) (descent path) := by
  have hkept := below_append_left (names.take (names.length - climbs path)) (names.drop (names.length - climbs path))
    (descent path)
  rw [List.take_append_drop] at hkept
  rw [walk_split h, hkept]

/-! ## Joined paths -/

theorem absNames_pathJoin {directory : String} (h : isAbs directory = true) (name : String) :
    absNames (pathJoin directory name) = walk true (absNames directory) (split name '/') := by
  have hdirectory : directory ≠ "" := by
    rintro rfl
    exact absurd h (by decide)
  rw [pathJoin, if_neg fun hboth => hdirectory hboth.1, if_neg hdirectory]
  split
  · rename_i hname
    rw [absNames_pathClean h, hname, walk_empty]
  · rw [absNames_pathClean (by rw [String.append_assoc]; exact isAbs_append h _), absNames, split_append_separator, walk_append,
      absNames]

theorem walk_pathJoin {directory name : String} (start : List String) (h : isAbs (pathJoin directory name) = false) :
    walk true start (split (pathJoin directory name) '/') =
      walk true (walk true start (split directory '/')) (split name '/') := by
  have hrel : ∀ {path : String}, isAbs (pathClean path) = false → isAbs path = false := fun hclean =>
    Bool.eq_false_iff.2 fun habs => Bool.eq_false_iff.1 hclean (isAbs_pathClean habs)
  unfold pathJoin at h ⊢
  split
  · rename_i hboth
    rw [hboth.1, hboth.2, walk_empty, walk_empty]
  rw [if_neg ‹_›] at h
  rw [walk_pathClean start (hrel h)]
  split
  · rename_i hdirectory
    rw [hdirectory, walk_empty]
  split
  · rename_i hname
    rw [hname, walk_empty]
  · rw [split_append_separator, walk_append]

/-- `filepath.Abs`. -/
def absPath (getwd : Except String String) (path : String) : Except String String :=
  if isAbs path then .ok (pathClean path) else getwd.map fun directory => pathJoin directory path

def dropCommon : List String → List String → List String × List String
  | a :: as, b :: bs => if a = b then dropCommon as bs else (a :: as, b :: bs)
  | as, bs => (as, bs)

/-- `filepath.Rel` between absolute paths. -/
def pathRel (base target : String) : String :=
  let (up, down) := dropCommon (absNames base) (absNames target)
  if up = [] ∧ down = [] then "." else join (List.replicate up.length ".." ++ down) '/'

theorem isAbs_pathJoin {directory : String} (h : isAbs directory = true) (name : String) :
    isAbs (pathJoin directory name) = true := by
  have hdirectory : directory ≠ "" := by
    rintro rfl
    exact absurd h (by decide)
  rw [pathJoin, if_neg fun hboth => hdirectory hboth.1, if_neg hdirectory]
  split
  · exact isAbs_pathClean h
  · exact isAbs_pathClean (by rw [String.append_assoc]; exact isAbs_append h _)

theorem isAbs_absPath {getwd : Except String String} {path base : String}
    (hgetwd : ∀ directory, getwd = .ok directory → isAbs directory = true) (h : absPath getwd path = .ok base) :
    isAbs base = true := by
  unfold absPath at h
  split at h
  · cases h
    exact isAbs_pathClean ‹_›
  · cases hdirectory : getwd with
    | error e =>
      rw [hdirectory] at h
      cases h
    | ok directory =>
      rw [hdirectory] at h
      cases h
      exact isAbs_pathJoin (hgetwd directory hdirectory) path

/-- The target is below the base unless the relative path starts with `..`. -/
theorem isPrefix_of_pathRel {base target : String} (hup : pathRel base target ≠ "..")
    (hups : hasPrefix (pathRel base target) "../" = false) : absNames base <+: absNames target := by
  have hcommon : ∀ as bs : List String, (dropCommon as bs).1 = [] → as <+: bs := by
    intro as bs h
    induction as, bs using dropCommon.induct with
    | case1 as b bs ih =>
      rw [dropCommon, if_pos rfl] at h
      exact List.cons_prefix_cons.2 ⟨rfl, ih h⟩
    | case2 a as b bs hne =>
      rw [dropCommon, if_neg hne] at h
      cases h
    | case3 as bs hstop =>
      rw [dropCommon] at h
      · rw [show as = [] from h]
        exact List.nil_prefix
      · exact hstop
  refine hcommon _ _ ?_
  by_contra hne
  unfold pathRel at hup hups
  simp only [hne, false_and, if_false] at hup hups
  obtain ⟨k, hk⟩ : ∃ k, (dropCommon (absNames base) (absNames target)).1.length = k + 1 :=
    Nat.exists_eq_succ_of_ne_zero fun h => hne (List.length_eq_zero_iff.1 h)
  rw [hk, List.replicate_succ, List.cons_append] at hup hups
  rcases join_up (List.replicate k ".." ++ (dropCommon (absNames base) (absNames target)).2) with h | h
  · exact hup h
  · exact Bool.eq_false_iff.1 hups h

/-! ## Texts of names -/

theorem pathClean_abs {path : String} (h : isAbs path = true) : pathClean path = "/" ++ join (absNames path) '/' := by
  have h' : hasPrefix path "/" = true := h
  simp only [pathClean, h', absNames, walk]
  rfl

theorem pathJoin_abs {directory : String} (h : isAbs directory = true) (name : String) :
    pathJoin directory name = "/" ++ join (walk true (absNames directory) (split name '/')) '/' := by
  have hdirectory : directory ≠ "" := by
    rintro rfl
    exact absurd h (by decide)
  rw [pathJoin, if_neg fun hboth => hdirectory hboth.1, if_neg hdirectory]
  split
  · rename_i hname
    rw [pathClean_abs h, hname, walk_empty]
  · rw [pathClean_abs (by rw [String.append_assoc]; exact isAbs_append h _), absNames, split_append_separator, walk_append,
      absNames]

theorem separator_not_mem_absNames {path : String} : ∀ name ∈ absNames path, '/' ∉ name.toList := by
  intro name hname
  rcases mem_of_mem_walk hname with h | h
  · cases h
  · exact not_mem_of_mem_split h

/-- Names as they stand below a directory. -/
structure Inner (names : List String) : Prop where
  ne_nil : names ≠ []
  isName : ∀ name ∈ names, IsName name
  separator : ∀ name ∈ names, '/' ∉ name.toList

theorem Inner.split_join (h : Inner names) : split (join names '/') '/' = names := Go.split_join h.ne_nil h.separator

theorem split_of_hasPrefix {text before : String} (h : hasPrefix text (before ++ "/") = true) :
    split before '/' <+: split text '/' := by
  rw [hasPrefix, List.isPrefixOf_iff_prefix] at h
  obtain ⟨rest, hrest⟩ := h
  have htext : text = before ++ "/" ++ String.ofList rest := by
    apply String.toList_injective
    rw [← hrest]
    simp
  rw [htext, split_append_separator]
  exact List.prefix_append _ _

/-- The text of names is a relative path that is clean already. -/
theorem Inner.not_dotdot (h : Inner names) :
    join names '/' ≠ ".." ∧ hasPrefix (join names '/') "../" = false := by
  have hhead : ".." ∉ names := fun hmem => (h.isName _ hmem).ne_dotdot rfl
  constructor
  · intro heq
    have hsplit := h.split_join
    rw [heq, show split ".." '/' = [".."] by decide] at hsplit
    exact hhead (hsplit ▸ List.mem_singleton_self _)
  · refine Bool.eq_false_iff.mpr fun hup => hhead ?_
    have hstart : split ".." '/' <+: split (join names '/') '/' := split_of_hasPrefix hup
    rw [h.split_join, show split ".." '/' = [".."] by decide] at hstart
    exact hstart.subset (List.mem_singleton_self _)

theorem Inner.not_abs (h : Inner names) : isAbs (join names '/') = false := by
  refine Bool.eq_false_iff.mpr fun habs => ?_
  have hstart : split "" '/' <+: split (join names '/') '/' := split_of_hasPrefix habs
  rw [h.split_join, split_empty] at hstart
  exact (h.isName _ (hstart.subset (List.mem_singleton_self _))).ne_empty rfl

theorem Inner.walk (h : Inner names) (start : List String) :
    Go.walk rooted start (split (join names '/') '/') = start ++ names := by
  rw [h.split_join, walk_names start h.isName]

theorem Inner.join_ne_empty (h : Inner names) : join names '/' ≠ "" := by
  intro heq
  have hsplit := h.split_join
  rw [heq, split_empty] at hsplit
  exact (h.isName "" (hsplit ▸ List.mem_singleton_self _)).ne_empty rfl

theorem Inner.pathClean (h : Inner names) : Go.pathClean (join names '/') = join names '/' := by
  have hrelative : hasPrefix (join names '/') "/" = false := h.not_abs
  have hwalk : (split (join names '/') '/').foldl (pathCleanStep false) [] = names := h.walk []
  rw [Go.pathClean, hrelative, hwalk, if_neg (by decide), if_neg h.join_ne_empty]

theorem Inner.ne_dot (h : Inner names) : join names '/' ≠ "." := by
  intro heq
  have hsplit := h.split_join
  rw [heq, show split "." '/' = ["."] by decide] at hsplit
  exact (h.isName "." (hsplit ▸ List.mem_singleton_self _)).ne_dot rfl

/-- What follows the names of a directory in an absolute path. -/
theorem inner_of_absNames {path : String} {before : List String} (h : absNames path = before ++ rest) (hne : rest ≠ []) :
    Inner rest :=
  ⟨hne, fun name hname => isName_of_mem_absNames name (h ▸ List.mem_append_right _ hname),
    fun name hname => separator_not_mem_absNames name (h ▸ List.mem_append_right _ hname)⟩

/-- `filepath.Rel` of a path below its base. -/
theorem pathRel_below {base target : String} (h : absNames target = absNames base ++ rest) :
    pathRel base target = if rest = [] then "." else join rest '/' := by
  have hcommon : ∀ names : List String, dropCommon names (names ++ rest) = ([], rest) := by
    intro names
    induction names with
    | nil => cases rest <;> rfl
    | cons name names ih => rw [List.cons_append, dropCommon, if_pos rfl, ih]
  rw [pathRel, h, hcommon]
  simp

end Tanpopo.Go
