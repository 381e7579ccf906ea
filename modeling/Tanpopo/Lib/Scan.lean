import Mathlib.Data.List.Infix
/-!
# Scanning with a matcher

A matcher reads a word from the start of a text and returns the rest. Where it
depends on the word alone it is `Local`: then its first find in a text, the
texts that are free of its words, and the words that are spelled only where
pieces of a text meet can be told apart.
-/

namespace Tanpopo.Scan

variable {α β γ : Type}

/-- The text before the first place where the matcher matches, and what it returns there. -/
def find (matcher : List α → Option β) : List α → Option (List α × β)
  | [] => (matcher []).map fun result => ([], result)
  | a :: rest =>
    match matcher (a :: rest) with
    | some result => some ([], result)
    | none => (find matcher rest).map fun (before, result) => (a :: before, result)

theorem find_eq_none_iff {matcher : List α → Option β} {s : List α} :
    find matcher s = none ↔ ∀ t, t <:+ s → matcher t = none := by
  induction s with
  | nil => simp [find]
  | cons a rest ih =>
    simp only [List.suffix_cons_iff]
    cases hm : matcher (a :: rest) with
    | some result =>
      simp only [find, hm, reduceCtorEq, false_iff, not_forall]
      exact ⟨a :: rest, .inl rfl, by simp [hm]⟩
    | none =>
      simp only [find, hm, Option.map_eq_none_iff, ih]
      constructor
      · rintro h t (rfl | ht)
        · exact hm
        · exact h t ht
      · exact fun h t ht => h t (.inr ht)

theorem find_of_some {matcher : List α → Option β} {s : List α} {found : β} (h : matcher s = some found) :
    find matcher s = some ([], found) := by
  cases s with
  | nil => rw [find, h, Option.map_some]
  | cons a rest => simp only [find, h]

/-- Where the matcher matches at once, nothing is before its first match. -/
theorem first_match_iff {matcher : List α → Option β} {s before : List α} {found result : β} (hm : matcher s = some found) :
    (∃ t, s = before ++ t ∧ matcher t = some result ∧ ∀ u, u ≠ [] → u <:+ before → matcher (u ++ t) = none) ↔
      [] = before ∧ found = result := by
  constructor
  · rintro ⟨t, hs, ht, hno⟩
    cases before with
    | nil =>
      rw [List.nil_append] at hs
      subst hs
      exact ⟨rfl, Option.some.inj (hm.symm.trans ht)⟩
    | cons b before =>
      have hnone := hno (b :: before) (List.cons_ne_nil _ _) (List.suffix_refl _)
      rw [← hs, hm] at hnone
      cases hnone
  · rintro ⟨rfl, rfl⟩
    exact ⟨s, rfl, hm, fun u hu hsuf => absurd (List.suffix_nil.1 hsuf) hu⟩

theorem find_eq_some_iff {matcher : List α → Option β} {s before : List α} {result : β} :
    find matcher s = some (before, result) ↔ ∃ t, s = before ++ t ∧ matcher t = some result ∧
      ∀ u, u ≠ [] → u <:+ before → matcher (u ++ t) = none := by
  induction s generalizing before with
  | nil =>
    cases hm : matcher [] with
    | none =>
      simp only [find, hm, Option.map_none, reduceCtorEq, false_iff, not_exists]
      rintro t ⟨hs, ht, -⟩
      obtain ⟨rfl, rfl⟩ := List.append_eq_nil_iff.1 hs.symm
      simp [hm] at ht
    | some found =>
      rw [find_of_some hm, first_match_iff hm, Option.some.injEq, Prod.mk.injEq]
  | cons a rest ih =>
    cases hm : matcher (a :: rest) with
    | some found =>
      rw [find_of_some hm, first_match_iff hm, Option.some.injEq, Prod.mk.injEq]
    | none =>
      -- The first match is that in the rest, behind `a`.
      simp only [find, hm, Option.map_eq_some_iff, Prod.exists, Prod.mk.injEq]
      constructor
      · rintro ⟨before', result', hfind, rfl, rfl⟩
        obtain ⟨t, rfl, ht, hno⟩ := ih.1 hfind
        refine ⟨t, rfl, ht, fun u hu hsuf => ?_⟩
        rcases List.suffix_cons_iff.1 hsuf with rfl | hsuf
        · exact hm
        · exact hno u hu hsuf
      · rintro ⟨t, hs, ht, hno⟩
        cases before with
        | nil =>
          rw [List.nil_append] at hs
          rw [← hs, hm] at ht
          cases ht
        | cons b before =>
          obtain ⟨rfl, rfl⟩ := List.cons.inj hs
          exact ⟨before, result, ih.2 ⟨t, rfl, ht, fun u hu hsuf => hno u hu (hsuf.trans (List.suffix_cons _ _))⟩, rfl, rfl⟩

/-- A text in which no match begins is passed over. -/
theorem find_append_left {matcher : List α → Option β} {s t : List α}
    (hno : ∀ u, u ≠ [] → u <:+ s → matcher (u ++ t) = none) :
    find matcher (s ++ t) = (find matcher t).map fun (before, result) => (s ++ before, result) := by
  induction s with
  | nil =>
    rw [List.nil_append]
    exact Option.map_id'.symm
  | cons a rest ih =>
    have hhere : matcher (a :: (rest ++ t)) = none := hno (a :: rest) (List.cons_ne_nil _ _) (List.suffix_refl _)
    rw [List.cons_append, find, hhere]
    simp only [ih fun u hne hu => hno u hne (hu.trans (List.suffix_cons _ _)), Option.map_map]
    rfl

theorem find_of_match {matcher : List α → Option β} {s : List α} {result : β} (h : matcher s = some result) :
    find matcher s = some ([], result) :=
  find_eq_some_iff.2 ⟨s, rfl, h, fun _ hne hu => absurd (List.suffix_nil.1 hu) hne⟩

/-! ## Local matchers -/

/-- The matcher reads a non-empty word and does not look past it. -/
structure Local (matcher : List α → Option (List α)) : Prop where
  nil : matcher [] = none
  append : ∀ {s rest t}, matcher s = some rest → matcher (s ++ t) = some (rest ++ t)
  word : ∀ {s rest}, matcher s = some rest → ∃ w, s = w ++ rest ∧ matcher w = some []

/-- One matcher after another. -/
theorem Local.bind {first second : List α → Option (List α)} (hfirst : Local first) (hsecond : Local second) :
    Local fun s => (first s).bind second where
  nil := by rw [hfirst.nil]; rfl
  append := by
    intro s rest t h
    obtain ⟨middle, hm, hr⟩ := Option.bind_eq_some_iff.1 h
    exact Option.bind_eq_some_iff.2 ⟨middle ++ t, hfirst.append hm, hsecond.append hr⟩
  word := by
    intro s rest h
    obtain ⟨middle, hm, hr⟩ := Option.bind_eq_some_iff.1 h
    obtain ⟨w, rfl, hw⟩ := hfirst.word hm
    obtain ⟨v, rfl, hv⟩ := hsecond.word hr
    have := hfirst.append (t := v) hw
    exact ⟨w ++ v, (List.append_assoc ..).symm, Option.bind_eq_some_iff.2 ⟨v, this, hv⟩⟩

section
variable {matcher : List α → Option (List α)} (hl : Local matcher)
include hl

theorem Local.find_eq_none {s : List α} : find matcher s = none ↔ ∀ w, w <:+: s → matcher w ≠ some [] := by
  rw [find_eq_none_iff]
  constructor
  · rintro h w ⟨p, q, rfl⟩ hw
    have := hl.append (t := q) hw
    rw [h (w ++ q) ⟨p, (List.append_assoc ..).symm⟩] at this
    cases this
  · rintro h t ⟨p, rfl⟩
    rw [Option.eq_none_iff_forall_ne_some]
    intro rest ht
    obtain ⟨w, rfl, hw⟩ := hl.word ht
    exact h w ⟨p, rest, List.append_assoc ..⟩ hw

/-- A first find, with the word that was found. -/
theorem Local.of_find {s before rest : List α} (h : find matcher s = some (before, rest)) :
    ∃ w, s = before ++ w ++ rest ∧ matcher w = some [] ∧ find matcher before = none := by
  obtain ⟨t, rfl, ht, hno⟩ := find_eq_some_iff.1 h
  obtain ⟨w, rfl, hw⟩ := hl.word ht
  refine ⟨w, (List.append_assoc ..).symm, hw, find_eq_none_iff.2 fun u hu => ?_⟩
  rcases eq_or_ne u [] with rfl | hne
  · exact hl.nil
  · rw [Option.eq_none_iff_forall_ne_some]
    intro r hr
    have := hl.append (t := w ++ rest) hr
    rw [hno u hne hu] at this
    cases this

/-- A first find stays the first when the text goes on, as long as no word has a word in a proper prefix. -/
theorem Local.find_append_right (hbefore : ∀ w v, v ≠ [] → matcher (w ++ v) = some [] → find matcher w = none)
    {s before rest t : List α} (h : find matcher s = some (before, rest)) :
    find matcher (s ++ t) = some (before, rest ++ t) := by
  obtain ⟨found, rfl, hfound, hno⟩ := find_eq_some_iff.1 h
  refine find_eq_some_iff.2 ⟨found ++ t, List.append_assoc .., hl.append hfound, fun u hne hu => ?_⟩
  rw [Option.eq_none_iff_forall_ne_some]
  intro r hr
  obtain ⟨w, hw, hword⟩ := hl.word hr
  rw [← List.append_assoc] at hw
  rcases List.append_eq_append_iff.1 hw with ⟨v, rfl, -⟩ | ⟨v, hv, -⟩
  · -- the earlier word would reach past the text, and the found one lies within it
    rcases eq_or_ne v [] with rfl | hv
    · rw [List.append_nil] at hword
      rw [hno u hne hu] at hword
      cases hword
    · have hnone := find_eq_none_iff.1 (hbefore _ v hv hword) found (List.suffix_append _ _)
      rw [hfound] at hnone
      cases hnone
  · have := hl.append (t := v) hword
    rw [← hv, hno u hne hu] at this
    cases this

/-- What precedes a word in which no match begins is what is found before it. -/
theorem Local.find_append {before w rest : List α} (hw : matcher w = some [])
    (hno : ∀ u, u ≠ [] → u <:+ before → matcher (u ++ (w ++ rest)) = none) :
    find matcher (before ++ (w ++ rest)) = some (before, rest) :=
  find_eq_some_iff.2 ⟨w ++ rest, rfl, hl.append hw, hno⟩

end

/-! ## Texts free of words -/

def Free (Word : List α → Prop) (s : List α) : Prop := ∀ w, w <:+: s → ¬ Word w

theorem Free.of_isInfix {Word : List α → Prop} {s t : List α} (h : Free Word t) (hs : s <:+: t) : Free Word s :=
  fun w hw => h w (hw.trans hs)

/-- No word is spelled across a place where two pieces meet. -/
def Seamless (Word : List α → Prop) : List (List α) → Prop
  | [] => True
  | piece :: pieces =>
    (∀ x y, x ≠ [] → y ≠ [] → x <:+ piece → y <+: pieces.flatten → ¬ Word (x ++ y)) ∧ Seamless Word pieces

theorem free_flatten_iff {Word : List α → Prop} (hnil : ¬ Word []) {pieces : List (List α)} :
    Free Word pieces.flatten ↔ (∀ piece ∈ pieces, Free Word piece) ∧ Seamless Word pieces := by
  induction pieces with
  | nil =>
    refine iff_of_true (fun w hw => ?_) ⟨by simp, trivial⟩
    rw [List.infix_nil.1 hw]
    exact hnil
  | cons piece pieces ih =>
    rw [List.forall_mem_cons, Seamless, List.flatten_cons]
    constructor
    · intro h
      obtain ⟨hfree, hseam⟩ := ih.1 (h.of_isInfix (List.suffix_append _ _).isInfix)
      refine ⟨⟨h.of_isInfix (List.prefix_append _ _).isInfix, hfree⟩, fun x y hx hy hxs hys => ?_, hseam⟩
      exact h _ (List.infix_append_iff_ne_nil.2 (.inr (.inr ⟨x, y, hx, hy, rfl, hxs, hys⟩)))
    · rintro ⟨⟨hpiece, hfree⟩, hmeet, hseam⟩ w hw
      rcases List.infix_append_iff_ne_nil.1 hw with hw | hw | ⟨x, y, hx, hy, rfl, hxs, hys⟩
      · exact hpiece w hw
      · exact ih.2 ⟨hfree, hseam⟩ w hw
      · exact hmeet x y hx hy hxs hys

/-- Text that no word begins with may stand before a text. -/
theorem free_append_left {Word : List α → Prop} {s t : List α} (h : ∀ w, Word w → ∃ a ∈ w.head?, a ∉ s) :
    Free Word (s ++ t) ↔ Free Word t := by
  refine ⟨fun hst => hst.of_isInfix (List.suffix_append _ _).isInfix, fun ht w hw hword => ?_⟩
  obtain ⟨a, ha, has⟩ := h w hword
  rcases List.infix_append_iff_ne_nil.1 hw with hw | hw | ⟨x, y, hx, -, rfl, hxs, -⟩
  · exact has (hw.subset (List.mem_of_mem_head? ha))
  · exact ht w hw hword
  · rw [List.head?_append_of_ne_nil _ hx] at ha
    exact has (hxs.subset (List.mem_of_mem_head? ha))

/-- Text that no word ends with may stand after a text. -/
theorem free_append_right {Word : List α → Prop} {s t : List α} (h : ∀ w, Word w → ∃ a ∈ w.getLast?, a ∉ t) :
    Free Word (s ++ t) ↔ Free Word s := by
  refine ⟨fun hst => hst.of_isInfix (List.prefix_append _ _).isInfix, fun hs w hw hword => ?_⟩
  obtain ⟨a, ha, hat⟩ := h w hword
  rcases List.infix_append_iff_ne_nil.1 hw with hw | hw | ⟨x, y, -, hy, rfl, -, hys⟩
  · exact hs w hw hword
  · exact hat (hw.subset (List.mem_of_mem_getLast? ha))
  · rw [List.getLast?_append_of_ne_nil _ hy] at ha
    exact hat (hys.subset (List.mem_of_mem_getLast? ha))

end Tanpopo.Scan
