import Tanpopo.GGUF.TokenIDs
import Tanpopo.Lib.Canonical
import Tanpopo.Lib.Loop
/-!
# Unique tokens

The names of a SentencePiece vocabulary are made different by marks. Strings
are compared by their canonical decompositions, of which the mark is no part:
it is a character for private use. `uniqueTokens_spec` says that the loop of
marks ends for every list of tokens, and what names it makes.
-/

namespace Tanpopo.GGUF

open Canonical Looping

/-- The characters of Unicode. The mark takes no part in their decompositions. -/
structure UnicodeCharacters where
  characters : Characters Char
  inert : Inert characters duplicateMarker

/-- Strings that are compared by their canonical decompositions. -/
def UnicodeCharacters.unicode (u : UnicodeCharacters) (lowercased : String → String) (hasPrefix : String → String → Bool) : Unicode where
  canonical text := String.ofList (decompose u.characters text.toList)
  lowercased := lowercased
  hasPrefix := hasPrefix
  canonical_push text := by
    rw [← String.toList_inj, String.toList_ofList, String.toList_push, String.toList_push, String.toList_ofList,
      u.inert.decompose_concat]

section
variable (unicode : Unicode)

/-! ## The loop -/

/-- One turn: the candidate is inserted into the occupied names, or there is one like it. -/
def markTurn (occupied : List String) (candidate : String) : String ⊕ String :=
  if occupied.any (unicode.same candidate) then .inl (candidate.push duplicateMarker) else .inr candidate

/-- The loop of `sentencePieceTokenizerData`. Every name it makes is occupied after it. -/
def uniquified (fuel : Nat) (tokens : List String) : Option (List String) :=
  tokens.foldlM (fun unique token => (loop (markTurn unicode unique) fuel token).map fun candidate => unique ++ [candidate]) []

variable {unicode}

/-- A loop that may turn more often ends where the name is free. -/
theorem loop_markTurn {occupied : List String} {fuel : Nat} {token : String}
    (h : occupied.any (unicode.same (firstFree unicode occupied fuel token)) = false) {turns : Nat} (hturns : fuel < turns) :
    loop (markTurn unicode occupied) turns token = some (firstFree unicode occupied fuel token) := by
  induction turns generalizing fuel token with
  | zero => cases hturns
  | succ turns ih =>
    rw [loop, markTurn]
    by_cases htaken : occupied.any (unicode.same token) = true
    · rw [if_pos htaken]
      cases fuel with
      | zero =>
        rw [firstFree, htaken] at h
        cases h
      | succ fuel =>
        rw [firstFree, if_pos htaken] at h ⊢
        exact ih h (Nat.lt_of_succ_lt_succ hturns)
    · rw [if_neg htaken, firstFree_of_free (Bool.eq_false_iff.2 htaken)]

/-- As many turns as there are tokens are enough for each of them. -/
theorem uniquified_eq {tokens : List String} {fuel : Nat} (hfuel : tokens.length < fuel) :
    uniquified unicode fuel tokens = some (uniqueTokens unicode tokens) := by
  induction tokens using List.reverseRecOn with
  | nil => rfl
  | append_singleton tokens token ih =>
    rw [List.length_append, List.length_singleton] at hfuel
    have hbefore := ih (by omega)
    unfold uniquified at hbefore ⊢
    rw [List.foldlM_append, hbefore, uniqueTokens_concat]
    have hloop := loop_markTurn (firstFree_free unicode (uniqueTokens unicode tokens) token)
      (by rw [length_uniqueTokens]; omega : (uniqueTokens unicode tokens).length < fuel)
    simp [hloop]

/-! ## The names -/

/-- The marks that the loop appends. -/
theorem exists_marked (unicode : Unicode) (occupied : List String) (fuel : Nat) (token : String) :
    ∃ count, firstFree unicode occupied fuel token = marked token count := by
  induction fuel generalizing token with
  | zero => exact ⟨0, rfl⟩
  | succ fuel ih =>
    rw [firstFree]
    split_ifs
    · obtain ⟨count, hcount⟩ := ih (token.push duplicateMarker)
      exact ⟨count + 1, hcount⟩
    · exact ⟨0, rfl⟩

theorem uniqueTokens_marked (unicode : Unicode) {tokens : List String} {i : Nat} {token : String} (h : tokens[i]? = some token) :
    ∃ count, (uniqueTokens unicode tokens)[i]? = some (marked token count) := by
  obtain ⟨count, hcount⟩ := exists_marked unicode (uniqueTokens unicode (tokens.take i)) (uniqueTokens unicode (tokens.take i)).length token
  exact ⟨count, by rw [getElem?_uniqueTokens unicode h, hcount]⟩

theorem withoutMarker_of_not_mem {token : String} (h : duplicateMarker ∉ token.toList) : withoutMarker token = token := by
  have hall : token.toList.filter (· ≠ duplicateMarker) = token.toList := by
    rw [List.filter_eq_self]
    intro c hc
    apply decide_eq_true
    rintro rfl
    exact h hc
  rw [withoutMarker, hall, String.ofList_toList]

theorem withoutMarker_marked (token : String) (count : Nat) : withoutMarker (marked token count) = withoutMarker token := by
  induction count generalizing token with
  | zero => rfl
  | succ count ih => rw [marked, ih, withoutMarker_push]

end

/-- The names are the tokens in their order, with marks at their ends, and no two are equal. A token without a mark keeps its name where
no token before equals it, and is what the name is without its marks. -/
structure UniquelyNamed (unicode : Unicode) (tokens names : List String) : Prop where
  length : names.length = tokens.length
  marked : ∀ (i : Nat) token, tokens[i]? = some token → ∃ count, names[i]? = some (marked token count)
  different : TokensDiffer unicode names
  unchanged : ∀ (i : Nat) token, tokens[i]? = some token → duplicateMarker ∉ token.toList →
    (∀ j < i, ∀ other, tokens[j]? = some other → unicode.same token other = false) → names[i]? = some token
  restored : ∀ (i : Nat) token name, tokens[i]? = some token → names[i]? = some name → duplicateMarker ∉ token.toList →
    withoutMarker name = token

section
variable (u : UnicodeCharacters) (lowercased : String → String) (hasPrefix : String → String → Bool)

/-- A token without a mark equals no name that has one. -/
theorem same_marked {token other : String} {count : Nat} (hmarker : duplicateMarker ∉ token.toList)
    (h : (u.unicode lowercased hasPrefix).same token (marked other count) = true) :
    (u.unicode lowercased hasPrefix).same token other = true := by
  have hlist := congrArg String.toList (of_decide_eq_true h)
  rw [canonical_marked] at hlist
  cases count with
  | zero =>
    rw [List.replicate_zero, List.append_nil, String.toList_inj] at hlist
    exact decide_eq_true hlist
  | succ count =>
    have hmem : duplicateMarker ∈ ((u.unicode lowercased hasPrefix).canonical token).toList := by
      rw [hlist]
      simp
    change duplicateMarker ∈ (String.ofList _).toList at hmem
    rw [String.toList_ofList, u.inert.mem_decompose_iff] at hmem
    exact absurd hmem hmarker

theorem uniquelyNamed_uniqueTokens (tokens : List String) :
    UniquelyNamed (u.unicode lowercased hasPrefix) tokens (uniqueTokens (u.unicode lowercased hasPrefix) tokens) := by
  refine ⟨length_uniqueTokens tokens, fun i token htoken => uniqueTokens_marked _ htoken, tokensDiffer_uniqueTokens tokens,
    fun i token htoken hmarker hfirst => ?_, fun i token name htoken hname hmarker => ?_⟩
  · rw [getElem?_uniqueTokens _ htoken, firstFree_of_free]
    rw [← Bool.not_eq_true, List.any_eq_true]
    rintro ⟨name, hname, hsame⟩
    -- The name is that of a token before, with marks.
    obtain ⟨j, hj⟩ := List.mem_iff_getElem?.1 hname
    have hlt : j < (tokens.take i).length := by
      rw [← length_uniqueTokens (tokens.take i)]
      exact (List.getElem?_eq_some_iff.1 hj).1
    obtain ⟨count, hcount⟩ := uniqueTokens_marked (u.unicode lowercased hasPrefix) (List.getElem?_eq_getElem hlt)
    obtain rfl := Option.some.inj (hj.symm.trans hcount)
    have hbefore : tokens[j]? = some (tokens.take i)[j] := by
      rw [← List.getElem?_eq_getElem hlt, List.getElem?_take_of_lt (by rw [List.length_take] at hlt; omega)]
    have hother := hfirst j (by rw [List.length_take] at hlt; omega) _ hbefore
    rw [same_marked u lowercased hasPrefix hmarker hsame] at hother
    cases hother
  · obtain ⟨count, hcount⟩ := uniqueTokens_marked _ htoken
    obtain rfl := Option.some.inj (hname.symm.trans hcount)
    rw [withoutMarker_marked, withoutMarker_of_not_mem hmarker]

/-- For every list of tokens the loop ends. What it makes are the names of the vocabulary, at the positions of the tokens as far as
there are scores. -/
theorem uniqueTokens_spec (tokens : List String) : ∃ names, (∃ turns, ∀ fuel, turns ≤ fuel →
      uniquified (u.unicode lowercased hasPrefix) fuel tokens = some names) ∧
    UniquelyNamed (u.unicode lowercased hasPrefix) tokens names ∧
    ∀ (scores : List MetadataValue) (added : List Config) (unknownTokenID : Int),
      vocabularyEntries (sentencePieceTokenizerData (u.unicode lowercased hasPrefix) tokens scores added unknownTokenID) =
        (names.zipIdx.map entryOf).take scores.length := by
  refine ⟨uniqueTokens (u.unicode lowercased hasPrefix) tokens, ⟨tokens.length + 1, fun fuel hfuel => uniquified_eq hfuel⟩,
    uniquelyNamed_uniqueTokens u lowercased hasPrefix tokens, fun scores added unknownTokenID => ?_⟩
  rw [← filterMap_positions _ scores 0]
  rfl

/-- `é` is composed of `e` and an accent; no other character is composed. -/
def accents : UnicodeCharacters where
  characters :=
    { decomposition := fun c => if c = 'é' then ['e', '\u0301'] else [c]
      combiningClass := fun c => if c = '\u0301' then 230 else 0 }
  inert := by
    refine ⟨by decide, by decide, fun d hd => ?_⟩
    dsimp only at hd
    split_ifs at hd with h
    · exact absurd hd (by decide)
    · exact (List.mem_singleton.1 hd).symm

example : uniqueTokens (accents.unicode id fun _ _ => false) ["é", "e\u0301", "e"] = ["é", ("e\u0301").push duplicateMarker, "e"] := by
  decide +kernel

end

end Tanpopo.GGUF
