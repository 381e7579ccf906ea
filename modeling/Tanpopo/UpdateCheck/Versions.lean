import Mathlib.Order.Compare
import Mathlib.Data.String.Basic
import Tanpopo.Lib.Go
/-!
# Comparing versions

`CompareVersions` orders release tags. `compareVersions_preorder`: on the
versions that can be parsed it is a total preorder.
-/

namespace Tanpopo.UpdateCheck

open Go
open Std (OrientedCmp TransCmp OrientedOrd TransOrd)

/-! ## Parsing -/

structure SemanticVersion where
  core : List Int
  prerelease : List String
  build : Int
  core_length : core.length = 4
  deriving DecidableEq, Repr

/-- What is before the first of a character, or everything. -/
def before (text : String) (c : Char) : String := String.ofList (text.toList.takeWhile (· ≠ c))

/-- What is after the first of a character. -/
def after (text : String) (c : Char) : String := String.ofList ((text.toList.dropWhile (· ≠ c)).drop 1)

/-- What is around the last of a part. -/
def cutLast (part : List Char) : List Char → Option (List Char × List Char)
  | [] => none
  | c :: rest => match cutLast part rest with
    | some (left, right) => some (c :: left, right)
    | none => if part.isPrefixOf (c :: rest) then some ([], (c :: rest).drop part.length) else none

def parseNonNegative (text error : String) : Except String Int :=
  match parseInt text with
  | some number => if number < 0 then .error error else .ok number
  | none => .error error

/-- The version without its build number. -/
def parseParts (value : String) (build : Int) : Except String SemanticVersion := do
  let prerelease := if value.toList.contains '-' then split (after value '-') '.' else []
  let value := before value '-'
  let unsupported := "\"" ++ value ++ "\" 不是支援的語意版本"
  let parts := split value '.'
  if parts.length > 4 then throw unsupported
  else
    let core ← parts.mapM (parseNonNegative · unsupported)
    if prerelease.any (· = "") then throw ("\"" ++ value ++ "\" 的 prerelease 格式錯誤")
    else return ⟨(core ++ List.replicate 4 0).take 4, prerelease, build, by simp⟩

def parseVersion (value : String) : Except String SemanticVersion :=
  let value := before (trimPrefix (trimPrefix (trimSpace value) "v") "V") '+'
  match cutLast "-build-".toList value.toList with
  | some (start, buildText) =>
    match parseNonNegative (String.ofList buildText) ("\"" ++ value ++ "\" 的 build 編號無法辨識") with
    | .ok build => parseParts (String.ofList start) build
    | .error e => .error e
  | none => parseParts value 0

/-! ## Comparing -/

def compareCore : List Int → List Int → Int
  | a :: as, b :: bs => if a > b then 1 else if a < b then -1 else compareCore as bs
  | _, _ => 0

def compareIdentifiers : List String → List String → Int
  | a :: as, b :: bs =>
    match parseInt a, parseInt b with
    | some m, some n => if m > n then 1 else if m < n then -1 else compareIdentifiers as bs
    | some _, none => -1
    | none, some _ => 1
    | none, none => if a > b then 1 else if a < b then -1 else compareIdentifiers as bs
  | as, bs => if as.length > bs.length then 1 else if as.length < bs.length then -1 else 0

def comparePrerelease (candidate current : List String) : Int :=
  if candidate = [] ∧ current = [] then 0
  else if candidate = [] then 1
  else if current = [] then -1
  else compareIdentifiers candidate current

def compareSemantic (candidate current : SemanticVersion) : Int :=
  let core := compareCore candidate.core current.core
  if core ≠ 0 then core
  else
    let prerelease := comparePrerelease candidate.prerelease current.prerelease
    if prerelease ≠ 0 then prerelease
    else if candidate.build > current.build then 1
    else if candidate.build < current.build then -1
    else 0

def compareVersions (candidate current : String) : Except String Int :=
  match parseVersion candidate with
  | .error e => .error ("新版版本號無法辨識: " ++ e)
  | .ok candidateVersion => match parseVersion current with
    | .error e => .error ("目前 APP 版本號無法辨識: " ++ e)
    | .ok currentVersion => .ok (compareSemantic candidateVersion currentVersion)

/-- The check of a downloaded bundle against the tag it was offered under. -/
def isRelease (version build tag : String) : Bool :=
  match compareVersions (version ++ "-build-" ++ build) tag with
  | .ok comparison => comparison = 0
  | .error _ => false

/-! ## The order behind it -/

def sign : Ordering → Int
  | .lt => -1
  | .eq => 0
  | .gt => 1

theorem sign_swap (o : Ordering) : sign o.swap = -sign o := by cases o <;> rfl

theorem sign_eq_zero {o : Ordering} : sign o = 0 ↔ o = .eq := by cases o <;> simp [sign]

theorem sign_nonpos {o : Ordering} : sign o ≤ 0 ↔ o.isLE = true := by cases o <;> simp [sign]

theorem sign_then (a b : Ordering) : sign (a.then b) = if sign a ≠ 0 then sign a else sign b := by
  cases a <;> rfl

/-- How each loop compares two elements and goes on. -/
theorem sign_compare_then {α : Type} [LinearOrder α] (a b : α) (o : Ordering) :
    sign ((compare a b).then o) = if a > b then 1 else if a < b then -1 else sign o := by
  rcases lt_trichotomy a b with h | h | h
  · rw [compare_lt_iff_lt.mpr h, if_neg (asymm h), if_pos h]
    rfl
  · rw [compare_eq_iff_eq.mpr h, if_neg h.not_gt, if_neg h.not_lt]
    rfl
  · rw [compare_gt_iff_gt.mpr h, if_pos h]
    rfl

/-- Numbers come before texts. -/
def compareIdentifier (a b : String) : Ordering :=
  match parseInt a, parseInt b with
  | some m, some n => compare m n
  | some _, none => .lt
  | none, some _ => .gt
  | none, none => compare a b

instance : OrientedCmp compareIdentifier where
  eq_swap {a b} := by
    cases ha : parseInt a <;> cases hb : parseInt b <;> simp only [compareIdentifier, ha, hb]
    · exact OrientedOrd.eq_swap
    · rfl
    · rfl
    · exact OrientedOrd.eq_swap

instance : TransCmp compareIdentifier where
  isLE_trans {a b c} hab hbc := by
    cases ha : parseInt a <;> cases hb : parseInt b <;> cases hc : parseInt c <;>
      simp only [compareIdentifier, ha, hb, hc] at *
    all_goals first | exact TransOrd.isLE_trans hab hbc | contradiction | rfl

theorem compareCore_eq {as bs : List Int} (h : as.length = bs.length) :
    compareCore as bs = sign (List.compareLex compare as bs) := by
  induction as generalizing bs with
  | nil =>
    cases bs with
    | nil => rfl
    | cons b bs => cases h
  | cons a as ih =>
    cases bs with
    | nil => cases h
    | cons b bs =>
      rw [compareCore, List.compareLex_cons_cons, sign_compare_then, ih (Nat.succ.inj h)]

theorem compareIdentifiers_eq (as bs : List String) :
    compareIdentifiers as bs = sign (List.compareLex compareIdentifier as bs) := by
  induction as generalizing bs with
  | nil => cases bs <;> simp [compareIdentifiers, sign, List.compareLex_nil_nil, List.compareLex_nil_cons]
  | cons a as ih =>
    cases bs with
    | nil => simp [compareIdentifiers, sign, List.compareLex_cons_nil]
    | cons b bs =>
      rw [compareIdentifiers, List.compareLex_cons_cons, compareIdentifier]
      cases parseInt a <;> cases parseInt b <;> dsimp only
      · rw [sign_compare_then, ih]
      · rfl
      · rfl
      · rw [sign_compare_then, ih]

/-- A version without identifiers comes after those with some. -/
def prereleaseOrder : List String → List String → Ordering :=
  compareLex (compareOn fun identifiers => decide (identifiers = [])) (List.compareLex compareIdentifier)

theorem comparePrerelease_eq (as bs : List String) : comparePrerelease as bs = sign (prereleaseOrder as bs) := by
  cases as with
  | nil => cases bs <;> rfl
  | cons a as =>
    cases bs with
    | nil => rfl
    | cons b bs =>
      rw [comparePrerelease, if_neg (by simp), if_neg (by simp), if_neg (by simp), compareIdentifiers_eq]
      rfl

/-- Core, identifiers and build number, in this order. -/
def versionOrder : SemanticVersion → SemanticVersion → Ordering :=
  compareLex (fun a b => List.compareLex compare a.core b.core)
    (compareLex (fun a b => prereleaseOrder a.prerelease b.prerelease) (compareOn SemanticVersion.build))

theorem compareSemantic_eq (a b : SemanticVersion) : compareSemantic a b = sign (versionOrder a b) := by
  have hbuild : (if a.build > b.build then (1 : Int) else if a.build < b.build then -1 else 0) =
      sign (compare a.build b.build) := by
    rw [← Ordering.then_eq (o := compare a.build b.build), sign_compare_then]
    rfl
  rw [compareSemantic, compareCore_eq (a.core_length.trans b.core_length.symm), comparePrerelease_eq, hbuild, versionOrder,
    compareLex, sign_then, compareLex, sign_then]
  rfl

instance : TransCmp prereleaseOrder := inferInstanceAs (TransCmp (compareLex _ _))

theorem transCmp_on {α β : Type} (f : β → α) (cmp : α → α → Ordering) [TransCmp cmp] :
    TransCmp fun a b => cmp (f a) (f b) where
  eq_swap := OrientedCmp.eq_swap
  isLE_trans := TransCmp.isLE_trans

instance : TransCmp versionOrder :=
  have := transCmp_on SemanticVersion.core (List.compareLex compare)
  have := transCmp_on SemanticVersion.prerelease prereleaseOrder
  inferInstanceAs (TransCmp (compareLex _ (compareLex _ _)))

theorem versionOrder_swap (v w : SemanticVersion) : versionOrder v w = (versionOrder w v).swap := OrientedCmp.eq_swap

theorem sign_versionOrder_neg (v w : SemanticVersion) : sign (versionOrder v w) = -sign (versionOrder w v) := by
  rw [versionOrder_swap, sign_swap]

theorem sign_versionOrder_trans {u v w : SemanticVersion} (huv : sign (versionOrder u v) ≤ 0)
    (hvw : sign (versionOrder v w) ≤ 0) : sign (versionOrder u w) ≤ 0 :=
  sign_nonpos.mpr (TransCmp.isLE_trans (sign_nonpos.mp huv) (sign_nonpos.mp hvw))

/-! ## All versions -/

theorem compareVersions_eq {a b : String} {va vb : SemanticVersion} (ha : parseVersion a = .ok va)
    (hb : parseVersion b = .ok vb) : compareVersions a b = .ok (sign (versionOrder va vb)) := by
  unfold compareVersions
  rw [ha, hb]
  exact congrArg Except.ok (compareSemantic_eq va vb)

/-- On the versions that can be parsed the comparison is a total preorder, and equal versions compare alike. -/
theorem compareVersions_preorder (a b c : String) (ha : ∃ version, parseVersion a = .ok version)
    (hb : ∃ version, parseVersion b = .ok version) (hc : ∃ version, parseVersion c = .ok version) :
    ∃ ab bc ac : Int, compareVersions a b = .ok ab ∧ compareVersions b c = .ok bc ∧ compareVersions a c = .ok ac ∧
      compareVersions b a = .ok (-ab) ∧ compareVersions a a = .ok 0 ∧ (ab ≤ 0 → bc ≤ 0 → ac ≤ 0) ∧
      (0 ≤ ab → 0 ≤ bc → 0 ≤ ac) ∧ (ab = 0 → ac = bc) := by
  obtain ⟨va, hva⟩ := ha
  obtain ⟨vb, hvb⟩ := hb
  obtain ⟨vc, hvc⟩ := hc
  refine ⟨_, _, _, compareVersions_eq hva hvb, compareVersions_eq hvb hvc, compareVersions_eq hva hvc, ?_, ?_,
    sign_versionOrder_trans, ?_, ?_⟩
  · rw [compareVersions_eq hvb hva, sign_versionOrder_neg vb va]
  · have hself : versionOrder va va = .eq := Std.ReflCmp.compare_self
    rw [compareVersions_eq hva hva, hself]
    rfl
  · intro hab hbc
    rw [sign_versionOrder_neg] at hab hbc ⊢
    have hca : sign (versionOrder vc va) ≤ 0 :=
      sign_versionOrder_trans (show sign (versionOrder vc vb) ≤ 0 by omega) (by omega)
    omega
  · intro hab
    have hcongr : versionOrder va vc = versionOrder vb vc := TransCmp.congr_left (sign_eq_zero.mp hab)
    rw [hcongr]

/-- A release, its release candidate with a number and the one with a word. -/
theorem candidates_before_release :
    ∃ ab bc ac : Int, compareVersions "1.2-rc.1" "1.2-rc.x" = .ok ab ∧ compareVersions "1.2-rc.x" "v1.2.0" = .ok bc ∧
      compareVersions "1.2-rc.1" "v1.2.0" = .ok ac ∧ compareVersions "1.2-rc.x" "1.2-rc.1" = .ok (-ab) ∧
      compareVersions "1.2-rc.1" "1.2-rc.1" = .ok 0 ∧ (ab ≤ 0 → bc ≤ 0 → ac ≤ 0) ∧ (0 ≤ ab → 0 ≤ bc → 0 ≤ ac) ∧
      (ab = 0 → ac = bc) :=
  compareVersions_preorder _ _ _
    ⟨⟨[1, 2, 0, 0], ["rc", "1"], 0, rfl⟩, by decide +kernel⟩
    ⟨⟨[1, 2, 0, 0], ["rc", "x"], 0, rfl⟩, by decide +kernel⟩
    ⟨⟨[1, 2, 0, 0], [], 0, rfl⟩, by decide +kernel⟩

example : compareVersions "v1.2.0-build-7" "1.2-build-6+mac" = .ok 1 := by decide +kernel

end Tanpopo.UpdateCheck
