import Mathlib.Data.List.TakeWhile
import Mathlib.Data.Prod.Lex
import Tanpopo.Lib.Glob
import Tanpopo.Lib.Loop
/-!
# Wildcards of addresses

`wildcardMatch` remembers one place to go back to, the last star it met. That
is enough: what an earlier star could take, the last one can take as well.
-/

namespace Tanpopo.Server

open Looping

/-! ## The loop -/

/-- The variables of `wildcardMatch`. -/
structure WildcardState where
  valueIndex : Nat
  patternIndex : Nat
  wildcardIndex : Option Nat
  wildcardValueIndex : Nat

/-- The stars at the end of a pattern are passed over. -/
def restIsStars (pattern : List UInt8) (patternIndex : Nat) : Bool :=
  patternIndex + ((pattern.drop patternIndex).takeWhile (· = 42)).length = pattern.length

/-- One turn of the loop, and the end. -/
def wildcardTurn (value pattern : List UInt8) (s : WildcardState) : WildcardState ⊕ Bool :=
  match value[s.valueIndex]? with
  | none => .inr (restIsStars pattern s.patternIndex)
  | some byte =>
    if pattern[s.patternIndex]? = some byte then
      .inl { s with valueIndex := s.valueIndex + 1, patternIndex := s.patternIndex + 1 }
    else if pattern[s.patternIndex]? = some 42 then
      .inl { s with
        wildcardIndex := some s.patternIndex
        patternIndex := s.patternIndex + 1
        wildcardValueIndex := s.valueIndex }
    else
      match s.wildcardIndex with
      | some wildcardIndex =>
        .inl { s with
          patternIndex := wildcardIndex + 1
          wildcardValueIndex := s.wildcardValueIndex + 1
          valueIndex := s.wildcardValueIndex + 1 }
      | none => .inr false

def wildcardMatch (fuel : Nat) (value pattern : List UInt8) : Option Bool :=
  loop (wildcardTurn value pattern) fuel ⟨0, 0, none, 0⟩

/-! ## Why it returns -/

/-- Stars that are left, places the last one has not been tried at, and bytes that are left. -/
def WildcardState.variant (value pattern : List UInt8) (s : WildcardState) : Nat ×ₗ Nat ×ₗ Nat :=
  toLex (match s.wildcardIndex with
    | none => pattern.length + 1
    | some w => pattern.length - w,
    toLex (value.length - s.wildcardValueIndex, value.length - s.valueIndex))

def smaller (value pattern : List UInt8) (s s' : WildcardState) : Prop := s.variant value pattern < s'.variant value pattern

theorem smaller_wf (value pattern : List UInt8) : WellFounded (smaller value pattern) :=
  InvImage.wf (WildcardState.variant value pattern) wellFounded_lt

/-! ## What is left to match -/

/-- The rest of the pattern becomes the rest of the value. -/
def Rest (value pattern : List UInt8) (patternIndex valueIndex : Nat) : Prop :=
  Glob 42 (pattern.drop patternIndex) (value.drop valueIndex)

theorem drop_eq_cons {l : List UInt8} {i : Nat} {b : UInt8} (h : l[i]? = some b) : l.drop i = b :: l.drop (i + 1) := by
  obtain ⟨hlt, rfl⟩ := List.getElem?_eq_some_iff.1 h
  exact List.drop_eq_getElem_cons hlt

section
variable {value pattern : List UInt8} {patternIndex valueIndex : Nat} {byte : UInt8}

theorem rest_match (hvalue : value[valueIndex]? = some byte) (hpattern : pattern[patternIndex]? = some byte) (hbyte : byte ≠ 42) :
    Rest value pattern patternIndex valueIndex ↔ Rest value pattern (patternIndex + 1) (valueIndex + 1) := by
  rw [Rest, Rest, drop_eq_cons hvalue, drop_eq_cons hpattern, Glob.char_iff hbyte]
  constructor
  · rintro ⟨rest, heq, h⟩
    rw [(List.cons.inj heq).2]
    exact h
  · exact fun h => ⟨_, rfl, h⟩

theorem rest_star (hstar : pattern[patternIndex]? = some 42) (hvalue : valueIndex ≤ value.length) :
    Rest value pattern patternIndex valueIndex ↔
      ∃ k, valueIndex ≤ k ∧ k ≤ value.length ∧ Rest value pattern (patternIndex + 1) k := by
  rw [Rest, drop_eq_cons hstar, Glob.star_iff]
  constructor
  · rintro ⟨replaced, rest, hsplit, h⟩
    have hlength := congrArg List.length hsplit
    rw [List.length_drop, List.length_append] at hlength
    refine ⟨valueIndex + replaced.length, Nat.le_add_right _ _, by omega, ?_⟩
    have hrest : value.drop (valueIndex + replaced.length) = rest := by
      rw [← List.drop_drop, hsplit, List.drop_left]
    rw [Rest, hrest]
    exact h
  · rintro ⟨k, hk, -, h⟩
    refine ⟨(value.drop valueIndex).take (k - valueIndex), value.drop k, ?_, h⟩
    have hdrop : value.drop k = (value.drop valueIndex).drop (k - valueIndex) := by
      rw [List.drop_drop, Nat.add_sub_cancel' hk]
    rw [hdrop, List.take_append_drop]

theorem not_rest (hvalue : value[valueIndex]? = some byte) (hbyte : pattern[patternIndex]? ≠ some byte)
    (hstar : pattern[patternIndex]? ≠ some 42) : ¬ Rest value pattern patternIndex valueIndex := by
  rw [Rest, drop_eq_cons hvalue]
  intro h
  cases hpattern : pattern[patternIndex]? with
  | none =>
    rw [List.drop_eq_nil_of_le (List.getElem?_eq_none_iff.1 hpattern), Glob.nil_iff] at h
    cases h
  | some c =>
    have hc : c ≠ 42 := fun heq => hstar (by rw [hpattern, heq])
    rw [drop_eq_cons hpattern, Glob.char_iff hc] at h
    obtain ⟨rest, heq, -⟩ := h
    exact hbyte (by rw [hpattern, (List.cons.inj heq).1])

/-- At the end of the value only stars may be left. -/
theorem rest_end (hvalue : value[valueIndex]? = none) :
    restIsStars pattern patternIndex = true ↔ patternIndex ≤ pattern.length ∧ Rest value pattern patternIndex valueIndex := by
  rw [Rest, List.drop_eq_nil_of_le (List.getElem?_eq_none_iff.1 hvalue), Glob.empty_iff, restIsStars, decide_eq_true_eq]
  have hle : ((pattern.drop patternIndex).takeWhile (· = 42)).length ≤ (pattern.drop patternIndex).length :=
    (List.takeWhile_prefix _).length_le
  rw [List.length_drop] at hle
  constructor
  · intro h
    have hlength : ((pattern.drop patternIndex).takeWhile (· = 42)).length = (pattern.drop patternIndex).length := by
      rw [List.length_drop]
      omega
    have hall := List.takeWhile_eq_self_iff.1 ((List.takeWhile_prefix _).eq_of_length hlength)
    exact ⟨by omega, fun c hc => by simpa using hall c hc⟩
  · rintro ⟨hpattern, h⟩
    rw [List.takeWhile_eq_self_iff.2 (by simpa using h), List.length_drop]
    omega

end

/-! ## One turn -/

section
variable {value pattern : List UInt8} {s s' : WildcardState} {w : Nat}

def WildcardState.matched (s : WildcardState) : WildcardState :=
  { s with valueIndex := s.valueIndex + 1, patternIndex := s.patternIndex + 1 }

def WildcardState.starred (s : WildcardState) : WildcardState :=
  { s with wildcardIndex := some s.patternIndex, patternIndex := s.patternIndex + 1, wildcardValueIndex := s.valueIndex }

def WildcardState.goneBack (s : WildcardState) (w : Nat) : WildcardState :=
  { s with patternIndex := w + 1, wildcardValueIndex := s.wildcardValueIndex + 1, valueIndex := s.wildcardValueIndex + 1 }

/-- What a turn can do. -/
theorem wildcardTurn_cases (value pattern : List UInt8) (s : WildcardState) :
    (value[s.valueIndex]? = none ∧ wildcardTurn value pattern s = .inr (restIsStars pattern s.patternIndex)) ∨
    ∃ byte, value[s.valueIndex]? = some byte ∧
      ((pattern[s.patternIndex]? = some byte ∧ wildcardTurn value pattern s = .inl s.matched) ∨
      (pattern[s.patternIndex]? = some 42 ∧ wildcardTurn value pattern s = .inl s.starred) ∨
      (pattern[s.patternIndex]? ≠ some byte ∧ pattern[s.patternIndex]? ≠ some 42 ∧
        ((∃ w, s.wildcardIndex = some w ∧ wildcardTurn value pattern s = .inl (s.goneBack w)) ∨
          (s.wildcardIndex = none ∧ wildcardTurn value pattern s = .inr false)))) := by
  unfold wildcardTurn
  cases hvalue : value[s.valueIndex]? with
  | none => exact .inl ⟨rfl, rfl⟩
  | some byte =>
    refine .inr ⟨byte, rfl, ?_⟩
    simp only
    by_cases hmatch : pattern[s.patternIndex]? = some byte
    · exact .inl ⟨hmatch, by rw [if_pos hmatch]; rfl⟩
    · rw [if_neg hmatch]
      by_cases hstar : pattern[s.patternIndex]? = some 42
      · exact .inr (.inl ⟨hstar, by rw [if_pos hstar]; rfl⟩)
      · rw [if_neg hstar]
        refine .inr (.inr ⟨hmatch, hstar, ?_⟩)
        cases hw : s.wildcardIndex with
        | none => exact .inr ⟨rfl, rfl⟩
        | some w =>
          refine .inl ⟨w, rfl, ?_⟩
          rw [WildcardState.goneBack, hw]

/-- The indices of the last star lie behind the current ones. -/
structure Placed (s : WildcardState) : Prop where
  start : s.wildcardValueIndex ≤ s.valueIndex
  star : ∀ w, s.wildcardIndex = some w → w < s.patternIndex

theorem turn_smaller (h : Placed s) (hturn : wildcardTurn value pattern s = .inl s') : Placed s' ∧ smaller value pattern s' s := by
  have hstart := h.start
  rcases wildcardTurn_cases value pattern s with ⟨-, heq⟩ | ⟨byte, hvalue, ⟨hmatch, heq⟩ | ⟨hstar, heq⟩ |
    ⟨-, -, ⟨w, hw, heq⟩ | ⟨-, heq⟩⟩⟩
  · rw [heq] at hturn
    cases hturn
  · rw [heq] at hturn
    cases hturn
    -- A byte matches: fewer are left.
    obtain ⟨hlt, -⟩ := List.getElem?_eq_some_iff.1 hvalue
    refine ⟨⟨Nat.le_succ_of_le h.start, fun w hw => Nat.lt_succ_of_lt (h.star w hw)⟩, ?_⟩
    refine Prod.Lex.toLex_lt_toLex.2 (.inr ⟨rfl, Prod.Lex.toLex_lt_toLex.2 (.inr ⟨rfl, ?_⟩)⟩)
    simp only [WildcardState.matched]
    omega
  · rw [heq] at hturn
    cases hturn
    -- A star: fewer stars are left.
    obtain ⟨hlt, -⟩ := List.getElem?_eq_some_iff.1 hstar
    refine ⟨⟨Nat.le_refl _, fun w hw => ?_⟩, Prod.Lex.toLex_lt_toLex.2 (.inl ?_)⟩
    · cases hw
      exact Nat.lt_succ_self _
    · cases hw : s.wildcardIndex with
      | none =>
        simp only [WildcardState.starred]
        omega
      | some w =>
        have hbefore := h.star w hw
        simp only [WildcardState.starred]
        omega
  · rw [heq] at hturn
    cases hturn
    obtain ⟨hlt, -⟩ := List.getElem?_eq_some_iff.1 hvalue
    -- Going back: the star is tried at a later place.
    refine ⟨⟨Nat.le_refl _, fun w' hw' => ?_⟩, ?_⟩
    · have hsame : some w' = some w := hw'.symm.trans hw
      cases hsame
      exact Nat.lt_succ_self _
    · refine Prod.Lex.toLex_lt_toLex.2 (.inr ⟨rfl, Prod.Lex.toLex_lt_toLex.2 (.inl ?_)⟩)
      simp only [WildcardState.goneBack]
      omega
  · rw [heq] at hturn
    cases hturn

end

/-! ## One place to go back to is enough -/

/-- Between the last star and here the pattern has no star, and the value has the same bytes. -/
def Attempt (value pattern : List UInt8) (s : WildcardState) (w : Nat) : Prop :=
  ∃ literal, (42 : UInt8) ∉ literal ∧ s.valueIndex = s.wildcardValueIndex + literal.length ∧
    pattern.drop (w + 1) = literal ++ pattern.drop s.patternIndex ∧
    value.drop s.wildcardValueIndex = literal ++ value.drop s.valueIndex

/-- Some place from the current one on is right for what follows the last star. -/
def Found (value pattern : List UInt8) (s : WildcardState) : Option Nat → Prop
  | none => Rest value pattern s.patternIndex s.valueIndex
  | some w => ∃ k, s.wildcardValueIndex ≤ k ∧ k ≤ value.length ∧ Rest value pattern (w + 1) k

/-- What holds before each turn. -/
structure Searching (value pattern : List UInt8) (s : WildcardState) : Prop where
  inValue : s.valueIndex ≤ value.length
  inPattern : s.patternIndex ≤ pattern.length
  attempt : ∀ w, s.wildcardIndex = some w → Attempt value pattern s w
  complete : Glob 42 pattern value ↔ Found value pattern s s.wildcardIndex

section
variable {value pattern : List UInt8} {s s' : WildcardState} {w : Nat}

theorem Attempt.rest_iff (h : Attempt value pattern s w) :
    Rest value pattern (w + 1) s.wildcardValueIndex ↔ Rest value pattern s.patternIndex s.valueIndex := by
  obtain ⟨literal, hliteral, -, hpattern, hvalue⟩ := h
  rw [Rest, Rest, hpattern, hvalue, Glob.literal_iff hliteral]
  constructor
  · rintro ⟨rest, heq, hrest⟩
    rwa [List.append_cancel_left heq]
  · exact fun hrest => ⟨_, rfl, hrest⟩

/-- From a later place the attempt would come to a later place. -/
theorem Attempt.later (h : Attempt value pattern s w) {k : Nat} (hle : k ≤ value.length) (hk : Rest value pattern (w + 1) k) :
    ∃ k', k' + s.wildcardValueIndex = k + s.valueIndex ∧ k' ≤ value.length ∧ Rest value pattern s.patternIndex k' := by
  obtain ⟨literal, hliteral, hindex, hpattern, -⟩ := h
  rw [Rest, hpattern, Glob.literal_iff hliteral] at hk
  obtain ⟨rest, hsplit, hrest⟩ := hk
  have hlength := congrArg List.length hsplit
  rw [List.length_drop, List.length_append] at hlength
  have hdrop : value.drop (k + literal.length) = rest := by
    rw [← List.drop_drop, hsplit, List.drop_left]
  -- The literal between the star and here is spelled from the later place as well.
  refine ⟨k + literal.length, by omega, by omega, ?_⟩
  rwa [Rest, hdrop]

theorem Searching.matched {byte : UInt8} (h : Searching value pattern s) (hnot : (42 : UInt8) ∉ value)
    (hvalue : value[s.valueIndex]? = some byte) (hpattern : pattern[s.patternIndex]? = some byte) :
    Searching value pattern s.matched := by
  have hbyte : byte ≠ 42 := fun heq => hnot (heq ▸ List.mem_of_getElem? hvalue)
  obtain ⟨hvlt, -⟩ := List.getElem?_eq_some_iff.1 hvalue
  obtain ⟨hplt, -⟩ := List.getElem?_eq_some_iff.1 hpattern
  refine ⟨hvlt, hplt, fun w hw => ?_, ?_⟩
  · obtain ⟨literal, hliteral, hindex, hp, hv⟩ := h.attempt w hw
    refine ⟨literal ++ [byte], ?_, ?_, ?_, ?_⟩
    · rw [List.mem_append, List.mem_singleton, not_or]
      exact ⟨hliteral, Ne.symm hbyte⟩
    · simp only [WildcardState.matched, List.length_append, List.length_singleton]
      omega
    · rw [hp, drop_eq_cons hpattern, List.append_assoc, List.singleton_append]
      rfl
    · simp only [WildcardState.matched]
      rw [hv, drop_eq_cons hvalue, List.append_assoc, List.singleton_append]
  · rw [h.complete]
    simp only [WildcardState.matched]
    cases s.wildcardIndex with
    | none => exact rest_match hvalue hpattern hbyte
    | some w => rfl

/-- What the last star could take, the new one can take. -/
theorem Searching.starred (h : Searching value pattern s) (hstart : s.wildcardValueIndex ≤ s.valueIndex)
    (hstar : pattern[s.patternIndex]? = some 42) : Searching value pattern s.starred := by
  obtain ⟨hplt, -⟩ := List.getElem?_eq_some_iff.1 hstar
  refine ⟨h.inValue, hplt, fun w hw => ?_, ?_⟩
  · cases hw
    exact ⟨[], List.not_mem_nil, rfl, rfl, rfl⟩
  · have hrest := rest_star hstar h.inValue
    rw [h.complete]
    cases hw : s.wildcardIndex with
    | none => exact hrest
    | some w =>
      have hattempt := h.attempt w hw
      constructor
      · rintro ⟨k, hk, hle, hfound⟩
        obtain ⟨k', hk', hle', hfound'⟩ := hattempt.later hle hfound
        obtain ⟨k'', hk'', hle'', hfound''⟩ := (rest_star hstar hle').1 hfound'
        exact ⟨k'', Nat.le_trans (by omega : s.valueIndex ≤ k') hk'', hle'', hfound''⟩
      · intro hfound
        exact ⟨s.wildcardValueIndex, Nat.le_refl _, Nat.le_trans hstart h.inValue, hattempt.rest_iff.2 (hrest.2 hfound)⟩

/-- An attempt that failed leaves the later places. -/
theorem Searching.goneBack (h : Searching value pattern s) (hstart : s.wildcardValueIndex ≤ s.valueIndex)
    (hfailed : ¬ Rest value pattern s.patternIndex s.valueIndex) (hlt : s.valueIndex < value.length) (hw : s.wildcardIndex = some w)
    (hplaced : w < s.patternIndex) : Searching value pattern (s.goneBack w) := by
  have hinPattern := h.inPattern
  refine ⟨by simp only [WildcardState.goneBack]; omega, by simp only [WildcardState.goneBack]; omega, fun w' hw' => ?_, ?_⟩
  · have hsame : some w' = some w := hw'.symm.trans hw
    cases hsame
    exact ⟨[], List.not_mem_nil, rfl, rfl, rfl⟩
  · have hgone : (s.goneBack w).wildcardIndex = some w := hw
    rw [h.complete, hw, hgone]
    constructor
    · rintro ⟨k, hk, hle, hfound⟩
      have hne : k ≠ s.wildcardValueIndex := by
        rintro rfl
        exact hfailed ((h.attempt w hw).rest_iff.1 hfound)
      exact ⟨k, by simp only [WildcardState.goneBack]; omega, hle, hfound⟩
    · rintro ⟨k, hk, hle, hfound⟩
      exact ⟨k, Nat.le_of_succ_le hk, hle, hfound⟩

/-- At the end of the value the last attempt is the only one left. -/
theorem Searching.ended (h : Searching value pattern s) (hend : value[s.valueIndex]? = none) (hstart : s.wildcardValueIndex ≤ s.valueIndex) :
    restIsStars pattern s.patternIndex = true ↔ Glob 42 pattern value := by
  have hlength := List.getElem?_eq_none_iff.1 hend
  rw [rest_end hend, and_iff_right h.inPattern, h.complete]
  cases hw : s.wildcardIndex with
  | none => rfl
  | some w =>
    have hattempt := h.attempt w hw
    constructor
    · intro hrest
      exact ⟨s.wildcardValueIndex, Nat.le_refl _, Nat.le_trans hstart h.inValue, hattempt.rest_iff.2 hrest⟩
    · rintro ⟨k, hk, hle, hfound⟩
      obtain ⟨k', hk', hle', hfound'⟩ := hattempt.later hle hfound
      rwa [show k' = s.valueIndex by omega] at hfound'

/-- One turn of the loop, for a value without stars. -/
theorem turn_searching (hnot : (42 : UInt8) ∉ value) (hplaced : Placed s) (h : Searching value pattern s) :
    Turn (fun s => Placed s ∧ Searching value pattern s) (smaller value pattern) (fun b => b = true ↔ Glob 42 pattern value) s
      (wildcardTurn value pattern s) := by
  rcases wildcardTurn_cases value pattern s with ⟨hend, heq⟩ | ⟨byte, hvalue, ⟨hmatch, heq⟩ | ⟨hstar, heq⟩ |
    ⟨hbyte, hstar, ⟨w, hw, heq⟩ | ⟨hw, heq⟩⟩⟩
  · rw [heq]
    exact h.ended hend hplaced.start
  · obtain ⟨hplaced', hsmaller⟩ := turn_smaller hplaced heq
    rw [heq]
    exact ⟨⟨hplaced', h.matched hnot hvalue hmatch⟩, hsmaller⟩
  · obtain ⟨hplaced', hsmaller⟩ := turn_smaller hplaced heq
    rw [heq]
    exact ⟨⟨hplaced', h.starred hplaced.start hstar⟩, hsmaller⟩
  · obtain ⟨hplaced', hsmaller⟩ := turn_smaller hplaced heq
    obtain ⟨hlt, -⟩ := List.getElem?_eq_some_iff.1 hvalue
    rw [heq]
    exact ⟨⟨hplaced', h.goneBack hplaced.start (not_rest hvalue hbyte hstar) hlt hw (hplaced.star w hw)⟩, hsmaller⟩
  · rw [heq]
    have hcomplete := h.complete
    rw [hw] at hcomplete
    refine ⟨nofun, fun hglob => absurd (hcomplete.1 hglob) (not_rest hvalue hbyte hstar)⟩

end

/-! ## The matcher -/

def wildcardStart : WildcardState := ⟨0, 0, none, 0⟩

theorem placed_start : Placed wildcardStart := ⟨Nat.le_refl _, nofun⟩

theorem searching_start (value pattern : List UInt8) : Searching value pattern wildcardStart :=
  ⟨Nat.zero_le _, Nat.zero_le _, nofun, Iff.rfl⟩

/-- For every value and pattern the loop returns, with the same result however long it may run; and for a value without
stars the result says whether the value comes from the pattern. -/
theorem wildcardMatch_iff_glob (value pattern : List UInt8) :
    ∃ result, (∃ turns, ∀ fuel, turns ≤ fuel → wildcardMatch fuel value pattern = some result) ∧
      ((42 : UInt8) ∉ value → (result = true ↔ Glob 42 pattern value)) := by
  have wf := smaller_wf value pattern
  by_cases hstar : (42 : UInt8) ∈ value
  · have hturn : ∀ s, Placed s → Turn Placed (smaller value pattern) (fun _ => True) s (wildcardTurn value pattern s) := by
      intro s hs
      cases hstep : wildcardTurn value pattern s with
      | inl s' => exact turn_smaller hs hstep
      | inr result => trivial
    obtain ⟨result, -, hreturns⟩ := exists_returns wf hturn placed_start
    exact ⟨result, hreturns, fun hnot => absurd hstar hnot⟩
  · obtain ⟨result, hresult, hreturns⟩ := exists_returns wf (fun s hs => turn_searching hstar hs.1 hs.2)
      ⟨placed_start, searching_start value pattern⟩
    exact ⟨result, hreturns, fun _ => hresult⟩

/-- `1*.5` and `10.0.5`. -/
theorem address_matched : ∃ result, (∃ turns, ∀ fuel, turns ≤ fuel →
    wildcardMatch fuel [49, 48, 46, 48, 46, 53] [49, 42, 46, 53] = some result) ∧
    (result = true ↔ Glob (42 : UInt8) [49, 42, 46, 53] [49, 48, 46, 48, 46, 53]) := by
  obtain ⟨result, hreturns, hglob⟩ := wildcardMatch_iff_glob [49, 48, 46, 48, 46, 53] [49, 42, 46, 53]
  exact ⟨result, hreturns, hglob (by decide)⟩

/-- The first place at which the star is tried is wrong. -/
example : wildcardMatch 20 [49, 48, 46, 48, 46, 53] [49, 42, 46, 53] = some true := by decide

end Tanpopo.Server
