import Mathlib.Data.List.DropRight
import Tanpopo.Lib.Go
import Tanpopo.Lib.Scan
/-!
# Reasoning and answer

`splitRuntimeReasoning` parts what a runtime wrote into its answer and its
reasoning. `splitRuntimeReasoning_exact_iff` says for which texts neither part
holds a think tag, and for which reasoning a tagged text is parted as written.
-/

namespace Tanpopo.Chat

open Go Scan

/-- A text as Go's `regexp` reads it, character by character. -/
abbrev Text := List Char

/-! ## The patterns -/

/-- `\s`. -/
def isBlank (c : Char) : Bool := ['\t', '\n', '\x0C', '\r', ' '].contains c

/-- `\w`. -/
def isWord (c : Char) : Bool := c.isAlphanum || c = '_'

/-- The small letter that `(?i)` takes for a character. -/
def fold (c : Char) : Char := if c = '\u212A' then 'k' else if c = '\u017F' then 's' else c.toLower

/-- The rest of a text that starts with the given small letters, in any case. -/
def literal : Text → Text → Option Text
  | [], s => some s
  | l :: letters, c :: s => if fold c = l then literal letters s else none
  | _ :: _, [] => none

/-- The rest after any characters of a class and then one outside it. -/
def skipTo (skipped : Char → Bool) (last : Char) (s : Text) : Option Text :=
  match s.dropWhile skipped with
  | [] => none
  | c :: rest => if c = last then some rest else none

/-- `k\b[^>]*>`. -/
def tagEnd : Text → Option Text
  | [] => none
  | c :: rest => if fold c = 'k' ∧ isWord c ≠ rest.head?.any isWord then skipTo (· ≠ '>') '>' rest else none

/-- `<think\b[^>]*>`. -/
def thinkOpen (s : Text) : Option Text := (literal "<thin".toList s).bind tagEnd

/-- `</think\s*>`. -/
def thinkClose (s : Text) : Option Text := (literal "</think".toList s).bind (skipTo isBlank '>')

/-- `<think\b[^>]*>(.*?)</think\s*>`, with the text of the group and the rest. -/
def thinkBlock (s : Text) : Option (Text × Text) := (thinkOpen s).bind (find thinkClose)

/-- `\s*(?:#{1,6}\s*)?(?:\*\*)?title(?:\*\*)?\s*:`. -/
def heading (title : Text) (s : Text) : Option Text :=
  let s := s.dropWhile isBlank
  let s := (s.drop (min 6 (s.takeWhile (· = '#')).length)).dropWhile isBlank
  let s := (literal "**".toList s).getD s
  (literal title s).bind fun s => skipTo isBlank ':' ((literal "**".toList s).getD s)

/-- The line break and the heading before the final answer. -/
def finalAnswer : Text → Option Text
  | '\n' :: rest => heading "final answer".toList rest
  | _ => none

/-- `thinkingTextPattern`, with its two groups. -/
def thinkingText (s : Text) : Option (Text × Text) :=
  (heading "thinking process".toList s).bind fun rest =>
    -- the blanks after the colon are taken first, and given back one by one
    (List.range ((rest.takeWhile isBlank).length + 1)).reverse.findSome? fun taken =>
      (find finalAnswer (rest.drop taken)).map fun (process, answer) => (process, answer.dropWhile isBlank)

/-! ## The split -/

def trim (s : Text) : Text := (s.dropWhile isSpace).rdropWhile isSpace

/-- The blocks of a text, each with the text before it, and the text after the last one. -/
def blocksFrom : Nat → Text → List (Text × Text) × Text
  | 0, s => ([], s)
  | fuel + 1, s =>
    match find thinkBlock s with
    | none => ([], s)
    | some (before, body, rest) =>
      let (blocks, last) := blocksFrom fuel rest
      ((before, body) :: blocks, last)

def blocks (s : Text) : List (Text × Text) × Text := blocksFrom s.length s

/-- What `ReplaceAllString` leaves of a text when its blocks are taken out, in pieces. -/
def outside (s : Text) : List Text := (blocks s).1.map Prod.fst ++ [(blocks s).2]

def bodies (s : Text) : List Text := (blocks s).1.map Prod.snd

def addParagraph (reasoning body : Text) : Text :=
  if trim body ≠ [] then (if reasoning ≠ [] then reasoning ++ ['\n', '\n'] else reasoning) ++ trim body else reasoning

def splitRuntimeReasoning (content : Text) : Text × Text :=
  let content := trim content
  if content = [] then ([], [])
  else
    let reasoning := (bodies content).foldl addParagraph []
    if reasoning ≠ [] then (trim (outside content).flatten, reasoning)
    else
      match find thinkClose content with
      | some (before, after) => (trim after, trim before)
      | none =>
        match find thinkOpen content with
        | some (before, after) => (trim before, trim after)
        | none =>
          match thinkingText content with
          | some (process, answer) => (trim answer, trim process)
          | none => (content, [])

example : splitRuntimeReasoning "<think>a</think>b".toList = ("b".toList, "a".toList) := by decide +kernel
example : splitRuntimeReasoning "# Thinking process:\na\n**Final Answer**: b".toList = ("b".toList, "a".toList) := by
  decide +kernel
example : splitRuntimeReasoning "<thi<think>x</think>nk>".toList = ("<think>".toList, "x".toList) := by decide +kernel

/-! ## Tags -/

theorem literal_eq_some_iff {letters s rest : Text} :
    literal letters s = some rest ↔ ∃ w, s = w ++ rest ∧ w.map fold = letters := by
  induction letters generalizing s with
  | nil => simp [literal]
  | cons l letters ih =>
    cases s with
    | nil => simp [literal]
    | cons c s =>
      rw [literal]
      split
      case isTrue hc =>
        rw [ih]
        constructor
        · rintro ⟨w, rfl, rfl⟩
          exact ⟨c :: w, rfl, by rw [List.map_cons, hc]⟩
        · rintro ⟨w, hs, hw⟩
          cases w with
          | nil => cases hw
          | cons d w =>
            obtain ⟨rfl, rfl⟩ := List.cons.inj hs
            exact ⟨w, rfl, (List.cons.inj hw).2⟩
      case isFalse hc =>
        simp only [reduceCtorEq, false_iff, not_exists, not_and]
        rintro w hs hw
        cases w with
        | nil => cases hw
        | cons d w =>
          obtain ⟨rfl, rfl⟩ := List.cons.inj hs
          exact hc (List.cons.inj hw).1

theorem skipTo_eq_some_iff {skipped : Char → Bool} {last : Char} (hlast : skipped last = false) {s rest : Text} :
    skipTo skipped last s = some rest ↔ ∃ w, s = w ++ last :: rest ∧ ∀ c ∈ w, skipped c = true := by
  induction s with
  | nil => simp [skipTo]
  | cons d s ih =>
    by_cases hd : skipped d = true
    · rw [skipTo, List.dropWhile_cons_of_pos hd, ← skipTo, ih]
      constructor
      · rintro ⟨w, rfl, hw⟩
        exact ⟨d :: w, rfl, List.forall_mem_cons.2 ⟨hd, hw⟩⟩
      · rintro ⟨w, hs, hw⟩
        cases w with
        | nil =>
          obtain ⟨rfl, -⟩ := List.cons.inj hs
          rw [hlast] at hd
          cases hd
        | cons e w =>
          obtain ⟨rfl, rfl⟩ := List.cons.inj hs
          exact ⟨w, rfl, (List.forall_mem_cons.1 hw).2⟩
    · rw [skipTo, List.dropWhile_cons_of_neg hd]
      constructor
      · intro h
        dsimp only at h
        split at h
        case isTrue he =>
          obtain rfl := Option.some.inj h
          exact ⟨[], by rw [he]; rfl, by simp⟩
        case isFalse he => cases h
      · rintro ⟨w, hs, hw⟩
        cases w with
        | nil =>
          obtain ⟨rfl, rfl⟩ := List.cons.inj hs
          exact if_pos rfl
        | cons e w =>
          obtain ⟨rfl, -⟩ := List.cons.inj hs
          exact absurd (hw d List.mem_cons_self) hd

theorem literal_local {letters : Text} (h : letters ≠ []) : Local (literal letters) where
  nil := by
    cases letters with
    | nil => exact absurd rfl h
    | cons l letters => rfl
  append := by
    intro s rest t hs
    obtain ⟨w, rfl, hw⟩ := literal_eq_some_iff.1 hs
    exact literal_eq_some_iff.2 ⟨w, List.append_assoc .., hw⟩
  word := by
    intro s rest hs
    obtain ⟨w, rfl, hw⟩ := literal_eq_some_iff.1 hs
    exact ⟨w, rfl, literal_eq_some_iff.2 ⟨w, (List.append_nil w).symm, hw⟩⟩

theorem skipTo_local {skipped : Char → Bool} {last : Char} (hlast : skipped last = false) : Local (skipTo skipped last) where
  nil := rfl
  append := by
    intro s rest t hs
    obtain ⟨w, rfl, hw⟩ := (skipTo_eq_some_iff hlast).1 hs
    exact (skipTo_eq_some_iff hlast).2 ⟨w, by rw [List.append_assoc, List.cons_append], hw⟩
  word := by
    intro s rest hs
    obtain ⟨w, rfl, hw⟩ := (skipTo_eq_some_iff hlast).1 hs
    exact ⟨w ++ [last], by rw [List.append_assoc]; rfl, (skipTo_eq_some_iff hlast).2 ⟨w, rfl, hw⟩⟩

/-- The boundary is seen inside the tag, which goes on at least to its `>`. -/
theorem tagEnd_local : Local tagEnd where
  nil := rfl
  append := by
    intro s rest t hs
    cases s with
    | nil => cases hs
    | cons c s =>
      rw [tagEnd] at hs
      split at hs
      case isFalse => cases hs
      case isTrue hc =>
        have hskip := (skipTo_local (by decide)).append (t := t) hs
        obtain ⟨w, rfl, -⟩ := (skipTo_eq_some_iff (by decide)).1 hs
        rw [List.cons_append, tagEnd, if_pos, hskip]
        rwa [List.head?_append_of_ne_nil _ (by simp)]
  word := by
    intro s rest hs
    cases s with
    | nil => cases hs
    | cons c s =>
      rw [tagEnd] at hs
      split at hs
      case isFalse => cases hs
      case isTrue hc =>
        obtain ⟨w, rfl, hw⟩ := (skipTo_eq_some_iff (by decide)).1 hs
        refine ⟨c :: w ++ ['>'], by simp, ?_⟩
        rw [List.cons_append, tagEnd, if_pos, skipTo_eq_some_iff (by decide)]
        · exact ⟨w, rfl, hw⟩
        · rw [show w ++ '>' :: rest = (w ++ ['>']) ++ rest by simp, List.head?_append_of_ne_nil _ (by simp)] at hc
          exact hc

theorem thinkOpen_local : Local thinkOpen := (literal_local (by decide)).bind tagEnd_local

theorem thinkClose_local : Local thinkClose := (literal_local (by decide)).bind (skipTo_local (by decide))

/-- A complete opening or closing tag. -/
def IsTag (w : Text) : Prop := thinkOpen w = some [] ∨ thinkClose w = some []

def TagFree (s : Text) : Prop := find thinkOpen s = none ∧ find thinkClose s = none

instance (s : Text) : Decidable (TagFree s) := inferInstanceAs (Decidable (_ ∧ _))

theorem tagFree_iff {s : Text} : TagFree s ↔ Free IsTag s := by
  rw [TagFree, thinkOpen_local.find_eq_none, thinkClose_local.find_eq_none, Free]
  simp only [IsTag, not_or, forall_and]

theorem not_isTag_nil : ¬ IsTag [] := not_or.2 ⟨by decide, by decide⟩

/-- Only `<` itself is read as `<`. -/
theorem eq_of_fold {c : Char} (h : fold c = '<') : c = '<' := by
  rw [fold] at h
  split_ifs at h with hk hs
  · exact absurd h (by decide)
  · exact absurd h (by decide)
  · unfold Char.toLower at h
    split at h
    case isTrue hc =>
      obtain ⟨hfirst, hlast⟩ := hc
      have hval := congrArg (fun d => d.val.toNat) h
      rw [ge_iff_le, UInt32.le_iff_toNat_le] at hfirst
      rw [UInt32.le_iff_toNat_le] at hlast
      simp only [UInt32.toNat_add, Char.reduceVal, UInt32.reduceToNat, UInt32.reduceSub] at hval hfirst hlast
      omega
    case isFalse => exact h

theorem IsTag.head {w : Text} (h : IsTag w) : w.head? = some '<' := by
  have hliteral : ∀ letters rest, literal ('<' :: letters) w = some rest → w.head? = some '<' := by
    intro letters rest hl
    obtain ⟨a, rfl, ha⟩ := literal_eq_some_iff.1 hl
    cases a with
    | nil => cases ha
    | cons c a => rw [List.cons_append, List.head?_cons, eq_of_fold (List.cons.inj ha).1]
  rcases h with h | h
  · obtain ⟨rest, hl, -⟩ := Option.bind_eq_some_iff.1 h
    exact hliteral _ rest hl
  · obtain ⟨rest, hl, -⟩ := Option.bind_eq_some_iff.1 h
    exact hliteral _ rest hl

theorem IsTag.getLast {w : Text} (h : IsTag w) : w.getLast? = some '>' := by
  rcases h with h | h
  · obtain ⟨rest, hl, hr⟩ := Option.bind_eq_some_iff.1 h
    obtain ⟨a, rfl, -⟩ := literal_eq_some_iff.1 hl
    cases rest with
    | nil => cases hr
    | cons c rest =>
      rw [tagEnd] at hr
      split at hr
      case isFalse => cases hr
      case isTrue =>
        obtain ⟨v, rfl, -⟩ := (skipTo_eq_some_iff (by decide)).1 hr
        rw [← List.cons_append, List.getLast?_append_of_ne_nil _ (by simp), List.getLast?_concat]
  · obtain ⟨rest, hl, hr⟩ := Option.bind_eq_some_iff.1 h
    obtain ⟨a, rfl, -⟩ := literal_eq_some_iff.1 hl
    obtain ⟨v, rfl, -⟩ := (skipTo_eq_some_iff (by decide)).1 hr
    simp

/-- A closing tag holds no `<` but its own. -/
theorem not_mem_tail_of_thinkClose {w : Text} (h : thinkClose w = some []) : '<' ∉ w.tail := by
  obtain ⟨rest, hl, hr⟩ := Option.bind_eq_some_iff.1 h
  obtain ⟨a, rfl, ha⟩ := literal_eq_some_iff.1 hl
  obtain ⟨v, rfl, hv⟩ := (skipTo_eq_some_iff (by decide)).1 hr
  cases a with
  | nil => cases ha
  | cons c a =>
    have htail := (List.cons.inj ha).2
    rw [List.cons_append, List.tail_cons]
    intro hmem
    rcases List.mem_append.1 hmem with hmem | hmem
    · have := List.mem_map_of_mem (f := fold) hmem
      rw [htail] at this
      revert this
      decide
    · rcases List.mem_append.1 hmem with hmem | hmem
      · exact absurd (hv _ hmem) (by decide)
      · simp at hmem

theorem tagFree_append_blank {blank s : Text} (h : ∀ c ∈ blank, isSpace c = true) : TagFree (blank ++ s) ↔ TagFree s := by
  rw [tagFree_iff, tagFree_iff]
  refine free_append_left fun w hw => ⟨'<', hw.head, fun hmem => absurd (h _ hmem) (by decide)⟩

theorem tagFree_blank_append {blank s : Text} (h : ∀ c ∈ blank, isSpace c = true) : TagFree (s ++ blank) ↔ TagFree s := by
  rw [tagFree_iff, tagFree_iff]
  refine free_append_right fun w hw => ⟨'>', hw.getLast, fun hmem => absurd (h _ hmem) (by decide)⟩

theorem exists_trim (s : Text) : ∃ before after, s = before ++ trim s ++ after ∧
    (∀ c ∈ before, isSpace c = true) ∧ ∀ c ∈ after, isSpace c = true := by
  refine ⟨s.takeWhile isSpace, (s.dropWhile isSpace).rtakeWhile isSpace, ?_, fun c hc => List.mem_takeWhile_imp hc,
    fun c hc => List.mem_rtakeWhile_imp hc⟩
  rw [List.append_assoc, trim, List.rdropWhile_append_rtakeWhile, List.takeWhile_append_dropWhile]

@[simp] theorem tagFree_trim {s : Text} : TagFree (trim s) ↔ TagFree s := by
  obtain ⟨before, after, hs, hbefore, hafter⟩ := exists_trim s
  conv_rhs => rw [hs]
  rw [tagFree_blank_append hafter, tagFree_append_blank hbefore]

theorem TagFree.of_isInfix {s t : Text} (h : TagFree t) (hs : s <:+: t) : TagFree s :=
  tagFree_iff.2 ((tagFree_iff.1 h).of_isInfix hs)

/-! ## Blocks -/

theorem blocksFrom_step {fuel : Nat} {s before body rest : Text} (h : find thinkBlock s = some (before, body, rest)) :
    blocksFrom (fuel + 1) s = ((before, body) :: (blocksFrom fuel rest).1, (blocksFrom fuel rest).2) := by
  rw [blocksFrom, h]

theorem blocksFrom_none {s : Text} (fuel : Nat) (h : find thinkBlock s = none) : blocksFrom fuel s = ([], s) := by
  cases fuel with
  | zero => rfl
  | succ fuel => rw [blocksFrom, h]

theorem thinkBlock_eq_some {s body rest : Text} (h : thinkBlock s = some (body, rest)) :
    ∃ opening closing, s = opening ++ body ++ closing ++ rest ∧ thinkOpen opening = some [] ∧ thinkClose closing = some [] ∧
      find thinkClose body = none := by
  obtain ⟨inner, hopen, hclose⟩ := Option.bind_eq_some_iff.1 h
  obtain ⟨opening, rfl, hw⟩ := thinkOpen_local.word hopen
  obtain ⟨closing, rfl, hc, hno⟩ := thinkClose_local.of_find hclose
  exact ⟨opening, closing, by simp [List.append_assoc], hw, hc, hno⟩

/-- An opening tag before a closing one starts a block, so the text before the first block has none. -/
theorem of_find_thinkBlock {s before body rest : Text} (h : find thinkBlock s = some (before, body, rest)) :
    rest.length < s.length ∧ find thinkOpen before = none ∧ find thinkClose body = none := by
  obtain ⟨t, rfl, ht, hno⟩ := find_eq_some_iff.1 h
  obtain ⟨opening, closing, rfl, hopen, hclose, hbody⟩ := thinkBlock_eq_some ht
  refine ⟨?_, find_eq_none_iff.2 fun u hu => ?_, hbody⟩
  · have : opening ≠ [] := by
      rintro rfl
      cases hopen
    have := List.length_pos_of_ne_nil this
    simp only [List.length_append]
    omega
  · rcases eq_or_ne u [] with rfl | hne
    · rfl
    · rw [Option.eq_none_iff_forall_ne_some]
      intro r hr
      have hblock := hno u hne hu
      rw [thinkBlock, thinkOpen_local.append hr, Option.bind_some, thinkClose_local.find_eq_none] at hblock
      exact hblock closing ⟨r ++ (opening ++ body), rest, by simp [List.append_assoc]⟩ hclose

/-- With a step for each character no block is left. -/
theorem blocksFrom_spec {fuel : Nat} {s : Text} (h : s.length ≤ fuel) :
    (∀ block ∈ (blocksFrom fuel s).1, find thinkOpen block.1 = none ∧ find thinkClose block.2 = none) ∧
      find thinkBlock (blocksFrom fuel s).2 = none := by
  induction fuel generalizing s with
  | zero =>
    rw [List.length_eq_zero_iff.1 (Nat.le_zero.1 h)]
    exact ⟨by simp [blocksFrom], rfl⟩
  | succ fuel ih =>
    cases hfind : find thinkBlock s with
    | none =>
      rw [blocksFrom_none _ hfind]
      exact ⟨by simp, hfind⟩
    | some found =>
      obtain ⟨before, body, rest⟩ := found
      obtain ⟨hlength, hopen, hclose⟩ := of_find_thinkBlock hfind
      obtain ⟨hblocks, hlast⟩ := ih (s := rest) (by omega)
      rw [blocksFrom_step hfind]
      exact ⟨List.forall_mem_cons.2 ⟨⟨hopen, hclose⟩, hblocks⟩, hlast⟩

/-! ## Paragraphs -/

/-- The blocks that say something. -/
def paragraphs (bodies : List Text) : List Text := (bodies.map trim).filter (· ≠ [])

/-- The paragraphs and the empty lines between them. -/
def withBreaks : List Text → List Text
  | [] => []
  | paragraph :: paragraphs => paragraph :: paragraphs.flatMap fun paragraph => [['\n', '\n'], paragraph]

theorem paragraphs_cons (body : Text) (bodies : List Text) :
    paragraphs (body :: bodies) = if trim body ≠ [] then trim body :: paragraphs bodies else paragraphs bodies := by
  simp only [paragraphs, List.map_cons, List.filter_cons, decide_eq_true_eq]

theorem foldl_addParagraph_of_ne {reasoning : Text} (h : reasoning ≠ []) (bodies : List Text) :
    bodies.foldl addParagraph reasoning =
      reasoning ++ ((paragraphs bodies).flatMap fun paragraph => [['\n', '\n'], paragraph]).flatten := by
  induction bodies generalizing reasoning with
  | nil => simp [paragraphs]
  | cons body bodies ih =>
    rw [List.foldl_cons, addParagraph, paragraphs_cons]
    split
    · rw [ih (by simp)]
      simp
    · exact ih h

theorem foldl_addParagraph (bodies : List Text) :
    bodies.foldl addParagraph [] = (withBreaks (paragraphs bodies)).flatten := by
  induction bodies with
  | nil => rfl
  | cons body bodies ih =>
    rw [List.foldl_cons, addParagraph, paragraphs_cons]
    split
    case isTrue hb =>
      rw [if_neg (by simp), List.nil_append, foldl_addParagraph_of_ne hb, withBreaks, List.flatten_cons]
    case isFalse => exact ih

theorem paragraph_ne_nil {bodies : List Text} {paragraph : Text} (h : paragraph ∈ paragraphs bodies) : paragraph ≠ [] := by
  simpa using (List.mem_filter.1 h).2

theorem foldl_addParagraph_ne_nil {bodies : List Text} :
    bodies.foldl addParagraph [] ≠ [] ↔ ∃ body ∈ bodies, trim body ≠ [] := by
  rw [foldl_addParagraph]
  have hmem : (∃ body ∈ bodies, trim body ≠ []) ↔ paragraphs bodies ≠ [] := by
    simp [paragraphs, List.filter_eq_nil_iff]
  rw [hmem]
  cases hp : paragraphs bodies with
  | nil => simp [withBreaks]
  | cons paragraph rest =>
    have hmem : paragraph ∈ paragraphs bodies := hp ▸ List.mem_cons_self
    have := paragraph_ne_nil hmem
    simp [withBreaks, this]

theorem tagFree_flatten_iff {pieces : List Text} :
    TagFree pieces.flatten ↔ (∀ piece ∈ pieces, TagFree piece) ∧ Seamless IsTag pieces := by
  simp only [tagFree_iff]
  exact free_flatten_iff not_isTag_nil

theorem forall_mem_withBreaks {bodies : List Text} :
    (∀ piece ∈ withBreaks (paragraphs bodies), TagFree piece) ↔ ∀ body ∈ bodies, trim body ≠ [] → TagFree body := by
  have hmem : ∀ paragraphs : List Text, (∀ piece ∈ withBreaks paragraphs, TagFree piece) ↔
      ∀ paragraph ∈ paragraphs, TagFree paragraph := by
    intro paragraphs
    cases paragraphs with
    | nil => simp [withBreaks]
    | cons paragraph rest =>
      have hbreak : TagFree ['\n', '\n'] := by decide
      simp only [withBreaks, List.forall_mem_cons, List.forall_mem_flatMap, hbreak, true_and]
      simp
  rw [hmem]
  simp [paragraphs]

/-! ## When the split is clean -/

/-- No tag is left outside the blocks, or spelled where one was taken out. -/
def OutsideClean (content : Text) : Prop :=
  (∀ piece ∈ outside content, find thinkClose piece = none) ∧ find thinkOpen (blocks content).2 = none ∧
    Seamless IsTag (outside content)

/-- No opening tag stands inside a block, and no tag is spelled by two of them. -/
def InsideClean (content : Text) : Prop :=
  (∀ body ∈ bodies content, trim body ≠ [] → find thinkOpen body = none) ∧
    Seamless IsTag (withBreaks (paragraphs (bodies content)))

/-- The tags of a text are such that the branch it is split by removes them all. -/
def SplitsCleanly (content : Text) : Prop :=
  if ∃ body ∈ bodies content, trim body ≠ [] then OutsideClean content ∧ InsideClean content
  else
    match find thinkClose content with
    | some (before, after) => find thinkOpen before = none ∧ TagFree after
    | none =>
      match find thinkOpen content with
      | some (_, after) => find thinkOpen after = none
      | none => True

theorem tagFree_outside_iff (content : Text) : TagFree (outside content).flatten ↔ OutsideClean content := by
  obtain ⟨hblocks, -⟩ := blocksFrom_spec (Nat.le_refl content.length)
  rw [tagFree_flatten_iff, OutsideClean, ← and_assoc]
  refine and_congr_left fun _ => ⟨fun h => ⟨fun piece hp => (h piece hp).2, ?_⟩, fun ⟨hclose, hlast⟩ piece hp => ?_⟩
  · exact (h _ (List.mem_append_right _ List.mem_cons_self)).1
  · refine ⟨?_, hclose piece hp⟩
    rcases List.mem_append.1 hp with hp | hp
    · obtain ⟨block, hblock, rfl⟩ := List.mem_map.1 hp
      exact (hblocks block hblock).1
    · rwa [List.mem_singleton.1 hp]

theorem tagFree_inside_iff (content : Text) :
    TagFree (withBreaks (paragraphs (bodies content))).flatten ↔ InsideClean content := by
  obtain ⟨hblocks, -⟩ := blocksFrom_spec (Nat.le_refl content.length)
  rw [tagFree_flatten_iff, InsideClean, forall_mem_withBreaks]
  refine and_congr_left fun _ => forall₂_congr fun body hbody => imp_congr_right fun _ => ?_
  obtain ⟨block, hblock, rfl⟩ := List.mem_map.1 hbody
  exact and_iff_left (hblocks block hblock).2

theorem literal_suffix {letters s rest : Text} (h : literal letters s = some rest) : rest <:+ s := by
  obtain ⟨w, rfl, -⟩ := literal_eq_some_iff.1 h
  exact List.suffix_append _ _

theorem getD_literal_suffix (letters s : Text) : (literal letters s).getD s <:+ s := by
  cases h : literal letters s with
  | none => exact List.suffix_refl _
  | some rest => exact literal_suffix h

theorem heading_suffix {title s rest : Text} (h : heading title s = some rest) : rest <:+ s := by
  obtain ⟨named, hnamed, hcolon⟩ := Option.bind_eq_some_iff.1 h
  obtain ⟨w, hw, -⟩ := (skipTo_eq_some_iff (by decide)).1 hcolon
  have hrest : rest <:+ named := by
    refine List.IsSuffix.trans ?_ (getD_literal_suffix "**".toList named)
    rw [hw]
    exact (List.suffix_cons _ _).trans (List.suffix_append _ _)
  refine hrest.trans ((literal_suffix hnamed).trans ((getD_literal_suffix _ _).trans ?_))
  exact (List.dropWhile_suffix _).trans ((List.drop_suffix _ _).trans (List.dropWhile_suffix _))

theorem finalAnswer_suffix {s rest : Text} (h : finalAnswer s = some rest) : rest <:+ s := by
  unfold finalAnswer at h
  split at h
  · exact (heading_suffix h).trans (List.suffix_cons _ _)
  · cases h

theorem thinkingText_isInfix {s process answer : Text} (h : thinkingText s = some (process, answer)) :
    process <:+: s ∧ answer <:+: s := by
  obtain ⟨rest, hrest, h⟩ := Option.bind_eq_some_iff.1 h
  obtain ⟨taken, -, h⟩ := List.exists_of_findSome?_eq_some h
  obtain ⟨⟨process', answer'⟩, hfind, heq⟩ := Option.map_eq_some_iff.1 h
  obtain ⟨rfl, rfl⟩ := Prod.mk.inj heq
  obtain ⟨t, ht, hanswer, -⟩ := find_eq_some_iff.1 hfind
  have hdrop : process' ++ t <:+ s := ht ▸ (List.drop_suffix _ _).trans (heading_suffix hrest)
  refine ⟨(List.prefix_append _ _).isInfix.trans hdrop.isInfix, ?_⟩
  exact ((List.dropWhile_suffix _).trans ((finalAnswer_suffix hanswer).trans ((List.suffix_append _ _).trans hdrop))).isInfix

theorem splitsCleanly_nil : SplitsCleanly [] := by
  rw [SplitsCleanly, if_neg (by simp [bodies, blocks, blocksFrom])]
  trivial

/-- Neither part holds a tag exactly when the split is clean. -/
theorem tagFree_split_iff (content : Text) :
    TagFree (splitRuntimeReasoning content).1 ∧ TagFree (splitRuntimeReasoning content).2 ↔ SplitsCleanly (trim content) := by
  have hnil : TagFree [] := by decide
  unfold splitRuntimeReasoning
  generalize trim content = content
  by_cases hempty : content = []
  · subst hempty
    exact iff_of_true ⟨hnil, hnil⟩ splitsCleanly_nil
  rw [if_neg hempty, SplitsCleanly]
  dsimp only
  by_cases hblock : ∃ body ∈ bodies content, trim body ≠ []
  · -- Blocks with something in them are taken out, and what is left is the answer.
    rw [if_pos hblock, if_pos (foldl_addParagraph_ne_nil.2 hblock), tagFree_trim, tagFree_outside_iff, foldl_addParagraph,
      tagFree_inside_iff]
  rw [if_neg hblock, if_neg (mt foldl_addParagraph_ne_nil.1 hblock)]
  cases hclose : find thinkClose content with
  | some found =>
    obtain ⟨before, after⟩ := found
    -- A closing tag alone ends the thoughts; before it there is no other one.
    obtain ⟨-, -, -, hbefore⟩ := thinkClose_local.of_find hclose
    simp only [tagFree_trim]
    exact ⟨fun ⟨ha, hb⟩ => ⟨hb.1, ha⟩, fun ⟨hb, ha⟩ => ⟨ha, hb, hbefore⟩⟩
  | none =>
    cases hopen : find thinkOpen content with
    | some found =>
      obtain ⟨before, after⟩ := found
      obtain ⟨w, rfl, -, hbefore⟩ := thinkOpen_local.of_find hopen
      -- An opening tag alone starts them; nothing in the text closes a tag.
      have hpart : ∀ part, part <:+: before ++ w ++ after → find thinkClose part = none := fun part hp =>
        thinkClose_local.find_eq_none.2 fun v hv => thinkClose_local.find_eq_none.1 hclose v (hv.trans hp)
      simp only [tagFree_trim]
      refine ⟨fun ⟨_, ha⟩ => ha.1, fun ha => ⟨⟨hbefore, hpart _ ?_⟩, ha, hpart _ (List.suffix_append _ _).isInfix⟩⟩
      exact ((List.prefix_append _ _).trans (List.prefix_append _ _)).isInfix
    | none =>
      -- Without tags every part of the text is without them.
      have hfree : TagFree content := ⟨hopen, hclose⟩
      refine iff_of_true ?_ trivial
      dsimp only
      cases hthinking : thinkingText content with
      | none => exact ⟨hfree, hnil⟩
      | some found =>
        obtain ⟨hprocess, hanswer⟩ := thinkingText_isInfix hthinking
        exact ⟨tagFree_trim.2 (hfree.of_isInfix hanswer), tagFree_trim.2 (hfree.of_isInfix hprocess)⟩

/-! ## A tagged text -/

def openTag : Text := ['<', 't', 'h', 'i', 'n', 'k', '>']

def closeTag : Text := ['<', '/', 't', 'h', 'i', 'n', 'k', '>']

/-- `<think>R</think>A`. -/
def tagged (reasoning answer : Text) : Text := openTag ++ (reasoning ++ (closeTag ++ answer))

/-- A closing tag that begins before a `<` ends before it. -/
theorem thinkClose_of_append {u rest s : Text} (hne : u ≠ []) (h : thinkClose (u ++ '<' :: s) = some rest) :
    thinkClose u ≠ none := by
  obtain ⟨w, hw, hword⟩ := thinkClose_local.word h
  rcases List.append_eq_append_iff.1 hw with ⟨as, rfl, hrest⟩ | ⟨bs, rfl, hrest⟩
  · cases as with
    | nil =>
      rw [List.append_nil] at hword
      simp [hword]
    | cons c as =>
      obtain ⟨rfl, -⟩ := List.cons.inj hrest
      cases u with
      | nil => exact absurd rfl hne
      | cons d u => exact absurd (by simp) (not_mem_tail_of_thinkClose hword)
  · rw [thinkClose_local.append (t := bs) hword]
    simp

theorem find_thinkClose_append {reasoning answer : Text} (h : TagFree reasoning) :
    find thinkClose (reasoning ++ (closeTag ++ answer)) = some (reasoning, answer) := by
  refine thinkClose_local.find_append (by decide) fun u hne hu => ?_
  rw [Option.eq_none_iff_forall_ne_some]
  intro rest hrest
  exact thinkClose_of_append hne hrest (find_eq_none_iff.1 h.2 u hu)

theorem find_thinkBlock_of_tagFree {s : Text} (h : TagFree s) : find thinkBlock s = none :=
  find_eq_none_iff.2 fun t ht => by rw [thinkBlock, find_eq_none_iff.1 h.1 t ht, Option.bind_none]

theorem blocks_tagged {reasoning answer : Text} (hr : TagFree reasoning) (ha : TagFree answer) :
    blocks (tagged reasoning answer) = ([([], reasoning)], answer) := by
  have htag : thinkOpen openTag = some [] := by decide
  have hopen : thinkOpen (tagged reasoning answer) = some (reasoning ++ (closeTag ++ answer)) := thinkOpen_local.append htag
  have hblock : thinkBlock (tagged reasoning answer) = some (reasoning, answer) := by
    rw [thinkBlock, hopen, Option.bind_some, find_thinkClose_append hr]
  have hlength : (tagged reasoning answer).length = (openTag.tail ++ (reasoning ++ (closeTag ++ answer))).length + 1 :=
    List.length_cons
  rw [blocks, hlength, blocksFrom_step (find_of_match hblock), blocksFrom_none _ (find_thinkBlock_of_tagFree ha)]

theorem tagged_cons (reasoning answer : Text) :
    tagged reasoning answer = '<' :: 't' :: (openTag.tail.tail ++ (reasoning ++ (closeTag ++ answer))) := rfl

/-- A trimmed answer ends with no space, and an empty one leaves the tag at the end. -/
theorem tagged_concat {answer : Text} (reasoning : Text) (ha : trim answer = answer) :
    ∃ init last, tagged reasoning answer = init ++ [last] ∧ isSpace last = false := by
  have hlast : answer.rdropWhile isSpace = answer := by
    rw [← ha, trim, List.rdropWhile_idempotent]
  rcases List.eq_nil_or_concat answer with rfl | ⟨init, last, hconcat⟩
  · exact ⟨openTag ++ (reasoning ++ closeTag.dropLast), '>', by simp [tagged, closeTag], by decide⟩
  · subst hconcat
    refine ⟨openTag ++ (reasoning ++ (closeTag ++ init)), last, ?_, ?_⟩
    · simp [tagged]
    · have := List.rdropWhile_eq_self_iff.1 hlast (by simp)
      simpa using this

/-- Trimming stops at once at both ends of a tagged text. -/
theorem trim_tagged {answer : Text} (reasoning : Text) (ha : trim answer = answer) :
    trim (tagged reasoning answer) = tagged reasoning answer := by
  have hfirst : (tagged reasoning answer).dropWhile isSpace = tagged reasoning answer := by
    rw [tagged_cons, List.dropWhile_cons_of_neg (by decide)]
  obtain ⟨init, last, heq, hlast⟩ := tagged_concat reasoning ha
  rw [trim, hfirst, heq, List.rdropWhile_concat_neg _ _ _ (by simp [hlast])]

theorem trim_eq_nil_iff {s : Text} : trim s = [] ↔ ∀ c ∈ s, isSpace c = true := by
  constructor
  · intro h
    obtain ⟨before, after, hs, hbefore, hafter⟩ := exists_trim s
    rw [h, List.append_nil] at hs
    rw [hs]
    exact List.forall_mem_append.2 ⟨hbefore, hafter⟩
  · intro h
    rw [trim, List.dropWhile_eq_nil_iff.2 h, List.rdropWhile_nil]

/-- The first closing tag of a tagged text stands after its opening tag. -/
theorem trim_before_ne_nil {reasoning answer before after : Text}
    (h : find thinkClose (tagged reasoning answer) = some (before, after)) : trim before ≠ [] := by
  intro hblank
  obtain ⟨t, ht, hclose, -⟩ := find_eq_some_iff.1 h
  rw [tagged_cons] at ht
  cases before with
  | nil =>
    rw [List.nil_append] at ht
    rw [← ht] at hclose
    cases hclose
  | cons c before =>
    obtain ⟨rfl, -⟩ := List.cons.inj ht
    exact absurd (trim_eq_nil_iff.1 hblank '<' List.mem_cons_self) (by decide)

theorem split_tagged_iff {reasoning answer : Text} (hr : TagFree reasoning) (ha : TagFree answer) (htrim : trim answer = answer) :
    splitRuntimeReasoning (tagged reasoning answer) = (answer, trim reasoning) ↔ trim reasoning ≠ [] := by
  have hbodies : bodies (tagged reasoning answer) = [reasoning] := by
    rw [bodies, blocks_tagged hr ha]
    rfl
  have houtside : (outside (tagged reasoning answer)).flatten = answer := by
    rw [outside, blocks_tagged hr ha]
    simp
  rw [splitRuntimeReasoning, trim_tagged reasoning htrim]
  dsimp only
  rw [if_neg (by rw [tagged_cons]; exact List.cons_ne_nil _ _), hbodies, houtside, List.foldl_cons, List.foldl_nil, addParagraph]
  by_cases hblank : trim reasoning = []
  · refine iff_of_false (fun h => ?_) (not_not.2 hblank)
    rw [if_neg (not_not.2 hblank), if_neg (not_not.2 rfl)] at h
    cases hfind : find thinkClose (tagged reasoning answer) with
    | none =>
      refine thinkClose_local.find_eq_none.1 hfind closeTag ?_ (by decide)
      exact ⟨openTag ++ reasoning, answer, by simp [tagged]⟩
    | some found =>
      rw [hfind] at h
      exact trim_before_ne_nil hfind ((Prod.mk.inj h).2.trans hblank)
  · simp [hblank, htrim]

/-! ## The whole function -/

/-- The answer and the reasoning hold no tag exactly when the split is clean, and a tagged text is parted as it was
written exactly when its reasoning is not blank. -/
theorem splitRuntimeReasoning_exact_iff (content reasoning answer : Text) :
    (TagFree (splitRuntimeReasoning content).1 ∧ TagFree (splitRuntimeReasoning content).2 ↔ SplitsCleanly (trim content)) ∧
    (TagFree reasoning → TagFree answer → trim answer = answer →
      (splitRuntimeReasoning (tagged reasoning answer) = (answer, trim reasoning) ↔ trim reasoning ≠ [])) :=
  ⟨tagFree_split_iff content, split_tagged_iff⟩

theorem shortThought_parted :
    TagFree "a".toList ∧ TagFree "b".toList ∧ trim "b".toList = "b".toList ∧
      (splitRuntimeReasoning (tagged "a".toList "b".toList) = ("b".toList, trim "a".toList) ↔ trim "a".toList ≠ []) :=
  ⟨by decide, by decide, by decide,
    (splitRuntimeReasoning_exact_iff [] "a".toList "b".toList).2 (by decide) (by decide) (by decide)⟩

/-- A block without a thought leaves its opening tag in the reasoning. -/
theorem emptyThought_keeps_tag :
    ¬ ((∀ content, TagFree (splitRuntimeReasoning content).1 ∧ TagFree (splitRuntimeReasoning content).2) ∧
      ∀ reasoning answer, TagFree reasoning → TagFree answer → trim reasoning = reasoning → trim answer = answer →
        splitRuntimeReasoning (tagged reasoning answer) = (answer, reasoning)) := by
  rintro ⟨h, -⟩
  exact absurd (h "<think></think>A".toList).2 (by decide +kernel)

end Tanpopo.Chat
