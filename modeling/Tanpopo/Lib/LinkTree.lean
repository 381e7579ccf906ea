import Tanpopo.Lib.Table
import Mathlib.Data.List.Induction
/-!
# Directory trees with symbolic links

A place is the list of names from the root of the file system. A path leads to a
place through the links on it. Paths without a link on them lead to themselves,
and making directories on such a path only adds directories.
-/

namespace Tanpopo

abbrev Place := List String

inductive Node where
  | dir
  | file (content : List UInt8)
  /-- A symbolic link to a path from the root. -/
  | link (target : Place)
  | other
  deriving DecidableEq

abbrev LinkTree := Table Place Node

namespace LinkTree

def nodeAt (t : LinkTree) (place : Place) : Option Node := if place = [] then some .dir else t.get? place

/-- Where the rest of a path leads from a directory, with what is done at a link. -/
def followWith (t : LinkTree) (onLink : Place → List String → Option Place) (dir : Place) : List String → Option Place
  | [] => some dir
  | name :: rest => match t.get? (dir ++ [name]) with
    | some (.link target) => onLink target rest
    | some .dir => followWith t onLink (dir ++ [name]) rest
    | _ => if rest = [] then some (dir ++ [name]) else none

/-- Where a path leads through at most so many links. -/
def follow (t : LinkTree) : Nat → Place → Option Place
  | 0 => followWith t (fun _ _ => none) []
  | links + 1 => followWith t (fun target rest => follow t links (target ++ rest)) []

def maxLinks : Nat := 40

/-- `os.Stat`. -/
def stat (t : LinkTree) (path : Place) : Option Node := (follow t maxLinks path).bind t.nodeAt

/-- Where a new entry of this path goes. Its last name is not followed. -/
def newPlace (t : LinkTree) (path : Place) : Option Place :=
  match follow t maxLinks path.dropLast, path.getLast? with
  | some parent, some name =>
    if t.nodeAt parent = some .dir ∧ t.get? (parent ++ [name]) = none then some (parent ++ [name]) else none
  | _, _ => none

variable {t t' : LinkTree} {path place dir : Place} {links : Nat}

/-! ## Paths without links -/

/-- No part of the path is a link. -/
def NoLinks (t : LinkTree) (path : Place) : Prop :=
  ∀ p, p <+: path → p ≠ [] → ∀ target, t.get? p ≠ some (.link target)

theorem NoLinks.of_prefix (h : t.NoLinks path) (hpath : dir <+: path) : t.NoLinks dir := fun p hp => h p (hp.trans hpath)

theorem followWith_noLinks {onLink : Place → List String → Option Place} {rest : List String}
    (dir : Place) (h : t.NoLinks (dir ++ rest)) (hfollow : followWith t onLink dir rest = some place) :
    place = dir ++ rest := by
  induction rest generalizing dir with
  | nil =>
    cases hfollow
    rw [List.append_nil]
  | cons name rest ih =>
    have hsplit : dir ++ name :: rest = dir ++ [name] ++ rest := by simp
    rw [followWith] at hfollow
    split at hfollow
    · rename_i target hlink
      exact absurd hlink (h _ (hsplit ▸ List.prefix_append _ _) (by simp) target)
    · rw [hsplit] at h ⊢
      exact ih _ h hfollow
    · obtain ⟨hrest, hplace⟩ := Option.ite_none_right_eq_some.1 hfollow
      rw [← Option.some.inj hplace, hrest]

theorem follow_noLinks (h : t.NoLinks path) (hfollow : follow t links path = some place) : place = path := by
  cases links with
  | zero => exact followWith_noLinks [] h hfollow
  | succ links => exact followWith_noLinks [] h hfollow

theorem newPlace_noLinks (h : t.NoLinks path) (hnew : t.newPlace path = some place) :
    place = path ∧ path ≠ [] ∧ t.get? path = none := by
  unfold newPlace at hnew
  split at hnew
  · rename_i parent name hparent hname
    obtain ⟨⟨-, habsent⟩, hplace⟩ := Option.ite_none_right_eq_some.1 hnew
    have hparent' := follow_noLinks (h.of_prefix (List.dropLast_prefix _)) hparent
    have hne : path ≠ [] := by
      rintro rfl
      cases hname
    have hpath : path.dropLast ++ [name] = path := by
      have hlast := List.getLast?_eq_some_getLast hne
      rw [hname] at hlast
      rw [Option.some.inj hlast]
      exact List.dropLast_append_getLast hne
    rw [hparent', hpath] at habsent
    exact ⟨by rw [← Option.some.inj hplace, hparent', hpath], hne, habsent⟩
  · cases hnew

/-! ## What is added -/

/-- Only places of `P` changed, and no link is new. -/
structure Adds (P : Place → Prop) (t t' : LinkTree) : Prop where
  outside : ∀ place, ¬ P place → t'.get? place = t.get? place
  links : ∀ place target, t'.get? place = some (.link target) → t.get? place = some (.link target)

namespace Adds

variable {P Q : Place → Prop} {u : LinkTree}

theorem refl : Adds P t t := ⟨fun _ _ => rfl, fun _ _ => id⟩

theorem trans (h : Adds P t u) (h' : Adds P u t') : Adds P t t' where
  outside place hplace := (h'.outside place hplace).trans (h.outside place hplace)
  links place target hlink := h.links place target (h'.links place target hlink)

theorem mono (h : Adds P t t') (hPQ : ∀ place, P place → Q place) : Adds Q t t' where
  outside place hplace := h.outside place fun hP => hplace (hPQ place hP)
  links := h.links

theorem set {node : Node} (hplace : P place) (hnode : ∀ target, node ≠ .link target) : Adds P t (t.set place node) where
  outside other hother := by
    rw [Table.get?_set, if_neg]
    rintro rfl
    exact hother hplace
  links other target hlink := by
    rw [Table.get?_set] at hlink
    split at hlink
    · exact absurd (Option.some.inj hlink) (hnode target)
    · exact hlink

theorem noLinks (h : Adds P t t') (hpath : t.NoLinks path) : t'.NoLinks path := fun p hp hne target hlink =>
  hpath p hp hne target (h.links p target hlink)

end Adds
end LinkTree
end Tanpopo
