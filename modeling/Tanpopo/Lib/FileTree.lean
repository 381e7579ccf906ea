import Tanpopo.Lib.Table
import Mathlib.Data.List.Induction
import Mathlib.Data.List.Lex
import Mathlib.Data.List.Sort
import Mathlib.Data.String.Basic
/-!
# Directory trees

A tree holds what is stored at each path below a root directory. A path is the
list of its names. Symbolic links are not represented: what is neither a
directory nor a regular file is `other`, and is only ever rejected.
-/

namespace Tanpopo

abbrev TreePath := List String

inductive Entry where
  | dir
  | file (content : List UInt8)
  | other
  deriving DecidableEq

abbrev Tree := Table TreePath Entry

namespace Tree

/-- The root is a directory. -/
def entryAt (t : Tree) (path : TreePath) : Option Entry := if path = [] then some .dir else t.get? path

/-- Make each missing directory from `parent` down. -/
def mkdirFrom (t : Tree) (parent : TreePath) : TreePath → Option Tree
  | [] => some t
  | name :: rest =>
    match t.get? (parent ++ [name]) with
    | none => mkdirFrom (t.set (parent ++ [name]) .dir) (parent ++ [name]) rest
    | some .dir => mkdirFrom t (parent ++ [name]) rest
    | some _ => none

def mkdirAll (t : Tree) (path : TreePath) : Option Tree := mkdirFrom t [] path

/-- Create an empty file where nothing is. -/
def createNew (t : Tree) (path : TreePath) : Option Tree :=
  if t.entryAt path.dropLast = some .dir ∧ t.get? path = none then some (t.set path (.file [])) else none

def removeAll (t : Tree) (path : TreePath) : Tree := t.filter fun e => !path.isPrefixOf e.1

/-- What lies below a directory, relative to it and in the order of a walk. -/
def walk (t : Tree) (dir : TreePath) : List (TreePath × Entry) :=
  (t.entries.filterMap fun e =>
    if dir.isPrefixOf e.1 ∧ e.1 ≠ dir then some (e.1.drop dir.length, e.2) else none).insertionSort fun a b => a.1 ≤ b.1

def movePath (old new path : TreePath) : TreePath := if old.isPrefixOf path then new ++ path.drop old.length else path

theorem movePath_injective {old new a b : TreePath} (ha : ¬ new <+: a) (hb : ¬ new <+: b)
    (h : movePath old new a = movePath old new b) : a = b := by
  unfold movePath at h
  split at h <;> split at h
  · rename_i hold hold'
    obtain ⟨_, rfl⟩ := List.isPrefixOf_iff_prefix.1 hold
    obtain ⟨_, rfl⟩ := List.isPrefixOf_iff_prefix.1 hold'
    simpa using h
  · exact absurd ⟨_, h⟩ hb
  · exact absurd ⟨_, h.symm⟩ ha
  · exact h

/-- Move what is at and below `old` to `new`, in place of what is there. -/
def move (t : Tree) (old new : TreePath) : Tree where
  entries := (t.removeAll new).entries.map fun e => (movePath old new e.1, e.2)
  nodup := by
    have hnodup := (t.removeAll new).nodup
    rw [List.map_map]
    refine List.Nodup.map_on ?_ (List.Nodup.of_map _ hnodup)
    intro a ha b hb hab
    have hfree : ∀ e ∈ (t.removeAll new).entries, ¬ new <+: e.1 := by
      intro e he hstart
      have hkept := (List.mem_filter.1 he).2
      rw [List.isPrefixOf_iff_prefix.2 hstart] at hkept
      cases hkept
    exact List.inj_on_of_nodup_map hnodup ha hb (movePath_injective (hfree a ha) (hfree b hb) hab)

/-- A directory may take the place of an empty directory only. -/
def rename (t : Tree) (old new : TreePath) : Option Tree :=
  match t.get? new with
  | none => some (t.move old new)
  | some .dir => if t.walk new = [] then some (t.move old new) else none
  | some _ => none

variable {t t' : Tree} {path dir old new : TreePath} {e : Entry}

/-! ## Looking things up -/

theorem get?_removeAll : (t.removeAll dir).get? path = if dir <+: path then none else t.get? path := by
  refine Option.ext fun e => ?_
  rw [removeAll, Table.get?_filter]
  by_cases h : dir <+: path <;> simp [← List.isPrefixOf_iff_prefix] at h <;> simp [h, ← List.isPrefixOf_iff_prefix]

theorem get?_move_eq_some : (t.move old new).get? path = some e ↔
    ∃ source, ¬ new <+: source ∧ t.get? source = some e ∧ movePath old new source = path := by
  have hremove : ∀ source, (source, e) ∈ (t.removeAll new).entries ↔ ¬ new <+: source ∧ t.get? source = some e := by
    intro source
    rw [← Table.get?_eq_some, get?_removeAll]
    by_cases h : new <+: source <;> simp [h]
  rw [Table.get?_eq_some]
  constructor
  · intro hmem
    obtain ⟨⟨source, e'⟩, hsource, heq⟩ := List.mem_map.1 hmem
    cases heq
    exact ⟨source, ((hremove source).1 hsource).1, ((hremove source).1 hsource).2, rfl⟩
  · rintro ⟨source, hfree, hget, rfl⟩
    exact List.mem_map.2 ⟨(source, e), (hremove source).2 ⟨hfree, hget⟩, rfl⟩

/-- What was below the old path is below the new one. -/
theorem get?_move_below (hdisjoint : ¬ new <+: old) (hdisjoint' : ¬ old <+: new) (rest : TreePath) :
    (t.move old new).get? (new ++ rest) = t.get? (old ++ rest) := by
  refine Option.ext fun e => ?_
  rw [get?_move_eq_some]
  constructor
  · rintro ⟨source, hfree, hget, heq⟩
    unfold movePath at heq
    split at heq
    · rename_i hold
      obtain ⟨tail, rfl⟩ := List.isPrefixOf_iff_prefix.1 hold
      rw [List.drop_left] at heq
      rwa [← List.append_cancel_left heq]
    · exact absurd ⟨rest, heq.symm⟩ hfree
  · intro hget
    refine ⟨old ++ rest, ?_, hget, ?_⟩
    · intro hstart
      rcases List.prefix_or_prefix_of_prefix hstart (List.prefix_append old rest) with h | h
      · exact hdisjoint h
      · exact hdisjoint' h
    · rw [movePath, if_pos (List.isPrefixOf_iff_prefix.2 (List.prefix_append _ _)), List.drop_left]

theorem get?_move_other (hnew : ¬ new <+: path) (hold : ¬ old <+: path) : (t.move old new).get? path = t.get? path := by
  refine Option.ext fun e => ?_
  rw [get?_move_eq_some]
  constructor
  · rintro ⟨source, hfree, hget, heq⟩
    unfold movePath at heq
    split at heq
    · exact absurd ⟨_, heq⟩ hnew
    · rwa [← heq]
  · intro hget
    exact ⟨path, hnew, hget, if_neg (by simpa [List.isPrefixOf_iff_prefix] using hold)⟩

/-- Nothing is left below the old path. -/
theorem get?_move_from (hdisjoint : ¬ new <+: old) (hdisjoint' : ¬ old <+: new) (rest : TreePath) :
    (t.move old new).get? (old ++ rest) = none := by
  refine Option.eq_none_iff_forall_ne_some.2 fun e he => ?_
  obtain ⟨source, -, -, heq⟩ := get?_move_eq_some.1 he
  unfold movePath at heq
  split at heq
  · have hnew : new <+: old ++ rest := ⟨_, heq⟩
    rcases List.prefix_or_prefix_of_prefix hnew (List.prefix_append old rest) with h | h
    · exact hdisjoint h
    · exact hdisjoint' h
  · rename_i hnot
    exact hnot (List.isPrefixOf_iff_prefix.2 ⟨rest, heq.symm⟩)

theorem mem_walk : (path, e) ∈ t.walk dir ↔ path ≠ [] ∧ t.get? (dir ++ path) = some e := by
  rw [walk, List.mem_insertionSort, List.mem_filterMap, Table.get?_eq_some]
  constructor
  · rintro ⟨⟨key, e'⟩, hmem, hsome⟩
    split at hsome
    · rename_i hbelow
      obtain ⟨tail, rfl⟩ := List.isPrefixOf_iff_prefix.1 hbelow.1
      cases hsome
      rw [List.drop_left]
      refine ⟨?_, hmem⟩
      rintro rfl
      exact hbelow.2 (List.append_nil dir)
    · cases hsome
  · rintro ⟨hne, hmem⟩
    refine ⟨(dir ++ path, e), hmem, ?_⟩
    rw [if_pos ⟨List.isPrefixOf_iff_prefix.2 (List.prefix_append _ _), by simpa using hne⟩, List.drop_left]

theorem nodup_walk : ((t.walk dir).map (·.1)).Nodup := by
  have hperm := List.perm_insertionSort (fun a b : TreePath × Entry => a.1 ≤ b.1)
    (t.entries.filterMap fun e =>
      if dir.isPrefixOf e.1 ∧ e.1 ≠ dir then some (e.1.drop dir.length, e.2) else none)
  refine (hperm.map _).nodup_iff.2 ?_
  have hnodup := t.nodup
  generalize t.entries = entries at hnodup
  induction entries with
  | nil => exact List.nodup_nil
  | cons e rest ih =>
    rw [List.map_cons, List.nodup_cons] at hnodup
    rw [List.filterMap_cons]
    split
    · exact ih hnodup.2
    · rename_i e' hsome
      split at hsome
      · rename_i hbelow
        cases hsome
        rw [List.map_cons, List.nodup_cons]
        refine ⟨fun hmem => hnodup.1 ?_, ih hnodup.2⟩
        obtain ⟨⟨tail, entry⟩, htail, heq⟩ := List.mem_map.1 hmem
        obtain ⟨source, hsource, hsome⟩ := List.mem_filterMap.1 htail
        split at hsome
        · rename_i hbelow'
          cases hsome
          obtain ⟨a, ha⟩ := List.isPrefixOf_iff_prefix.1 hbelow.1
          obtain ⟨b, hb⟩ := List.isPrefixOf_iff_prefix.1 hbelow'.1
          simp only [← ha, ← hb, List.drop_left] at heq
          refine List.mem_map.2 ⟨source, hsource, ?_⟩
          rw [← hb, ← ha, heq]
        · cases hsome
      · cases hsome

/-! ## Making things -/

/-- Making directories changes nothing that is there. -/
theorem get?_mkdirFrom {parent : TreePath} (h : mkdirFrom t parent dir = some t') (path : TreePath) :
    t'.get? path = t.get? path ∨ (t.get? path = none ∧ t'.get? path = some .dir ∧
      (∃ name, parent ++ [name] <+: path) ∧ path <+: parent ++ dir) := by
  induction dir generalizing t parent with
  | nil =>
    cases h
    exact .inl rfl
  | cons name rest ih =>
    have hsplit : parent ++ [name] ++ rest = parent ++ name :: rest := by simp
    have hbelow : ∀ name', parent ++ [name] ++ [name'] <+: path → parent ++ [name] <+: path := fun _ h =>
      (List.prefix_append _ _).trans h
    rw [mkdirFrom] at h
    split at h
    · rename_i habsent
      rcases ih h with hsame | ⟨hnone, hdir, ⟨name', hname⟩, hstart⟩
      · rw [hsame, Table.get?_set]
        by_cases heq : path = parent ++ [name]
        · subst heq
          exact .inr ⟨habsent, if_pos rfl, ⟨name, List.prefix_rfl⟩, hsplit ▸ List.prefix_append _ _⟩
        · exact .inl (if_neg heq)
      · rw [Table.get?_set] at hnone
        split at hnone
        · cases hnone
        · exact .inr ⟨hnone, hdir, ⟨name, hbelow name' hname⟩, hsplit ▸ hstart⟩
    · rcases ih h with hsame | ⟨hnone, hdir, ⟨name', hname⟩, hstart⟩
      · exact .inl hsame
      · exact .inr ⟨hnone, hdir, ⟨name, hbelow name' hname⟩, hsplit ▸ hstart⟩
    · cases h

theorem get?_mkdirAll (h : t.mkdirAll dir = some t') (path : TreePath) :
    t'.get? path = t.get? path ∨ (t.get? path = none ∧ t'.get? path = some .dir ∧ path ≠ [] ∧ path <+: dir) := by
  rcases get?_mkdirFrom h path with hsame | ⟨hnone, hdir, ⟨name, hname⟩, hstart⟩
  · exact .inl hsame
  · refine .inr ⟨hnone, hdir, ?_, by simpa using hstart⟩
    rintro rfl
    simpa using hname.length_le

theorem get?_createNew (h : t.createNew path = some t') :
    t.get? path = none ∧ t' = t.set path (.file []) := by
  unfold createNew at h
  split at h
  · rename_i hfree
    exact ⟨hfree.2, (Option.some.inj h).symm⟩
  · cases h

/-! ## Well-formed trees -/

/-- Everything lies in a directory. -/
def WellFormed (t : Tree) : Prop := ∀ path name, (t.get? (path ++ [name])).isSome → t.entryAt path = some .dir

/-- Nothing lies below what is absent. -/
theorem WellFormed.get?_below (h : t.WellFormed) (hne : path ≠ []) (habsent : t.get? path = none) (rest : TreePath) :
    t.get? (path ++ rest) = none := by
  induction rest using List.reverseRecOn with
  | nil => rwa [List.append_nil]
  | append_singleton rest name ih =>
    by_contra hsome
    rw [← List.append_assoc] at hsome
    have hdir := h (path ++ rest) name (Option.isSome_iff_ne_none.2 hsome)
    rw [entryAt, if_neg (by simp [hne]), ih] at hdir
    cases hdir

end Tree
end Tanpopo
