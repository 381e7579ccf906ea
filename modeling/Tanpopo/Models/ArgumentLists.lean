import Tanpopo.Models.Startup
/-!
# Arguments that keep their values

`Tidy` says of a free-form list that every managed argument stands before a
value of its own. Then leaving out some arguments does not touch the others:
`positiveArgument` reads the same value before and after.
-/

namespace Tanpopo.Models

open Go

def batchArguments : List String := ["--batch-size", "--ubatch-size", "--prefill-step-size"]

/-- The arguments that a start sets or leaves out. -/
def managedArguments : List String :=
  batchArguments ++ dflashArguments ++ ["--spec-type", "--mtp-draft", "--mtp-block-size"]

/-- Neither a managed argument nor one with its value. -/
def Unmanaged (raw : String) : Prop := managedArguments.any (isArgument (trimSpace raw)) = false

/-- `spec` is what holds of the values of `--spec-type`. -/
inductive Tidy (spec : String → Prop) : List String → Prop
  | nil : Tidy spec []
  | single {raw : String} {rest : List String} (h : managedArguments.contains (trimSpace raw) = false)
    (hrest : Tidy spec rest) : Tidy spec (raw :: rest)
  | pair {raw value : String} {rest : List String} (h : managedArguments.contains (trimSpace raw) = true)
    (hvalue : Unmanaged value) (hspec : trimSpace raw = "--spec-type" → spec value) (hrest : Tidy spec rest) :
    Tidy spec (raw :: value :: rest)

theorem Tidy.append {spec : String → Prop} {a b : List String} (ha : Tidy spec a) (hb : Tidy spec b) : Tidy spec (a ++ b) := by
  induction ha with
  | nil => exact hb
  | single h _ ih => exact .single h ih
  | pair h hvalue hspec _ ih => exact .pair h hvalue hspec ih

/-! ## Names -/

theorem not_isArgument_of_unmanaged {raw name : String} (h : Unmanaged raw) (hname : name ∈ managedArguments) :
    isArgument (trimSpace raw) name = false := by
  rw [Unmanaged, List.any_eq_false] at h
  exact Bool.eq_false_iff.2 (h name hname)

theorem not_any_of_unmanaged {raw : String} {names : List String} (h : Unmanaged raw) (hnames : names ⊆ managedArguments) :
    names.any (isArgument (trimSpace raw)) = false := by
  rw [List.any_eq_false]
  intro name hname
  exact Bool.eq_false_iff.1 (not_isArgument_of_unmanaged h (hnames hname))

theorem managed_not_inline : ∀ a ∈ managedArguments, ∀ b ∈ managedArguments, hasPrefix a (b ++ "=") = false := by decide +kernel

theorem managed_inline_inj : ∀ a ∈ managedArguments, ∀ b ∈ managedArguments, hasPrefix (a ++ "=") (b ++ "=") = true → a = b := by
  decide +kernel

/-- A managed argument is no other one. -/
theorem not_isArgument_of_ne {argument name : String} (h : argument ∈ managedArguments) (hname : name ∈ managedArguments)
    (hne : argument ≠ name) : isArgument argument name = false := by
  rw [isArgument, decide_eq_false hne, managed_not_inline argument h name hname]
  rfl

theorem hasPrefix_total {text a b : String} (ha : hasPrefix text a = true) (hb : hasPrefix text b = true) :
    hasPrefix a b = true ∨ hasPrefix b a = true := by
  rw [hasPrefix, List.isPrefixOf_iff_prefix] at ha hb
  rw [hasPrefix, hasPrefix, List.isPrefixOf_iff_prefix, List.isPrefixOf_iff_prefix]
  exact List.prefix_or_prefix_of_prefix hb ha

/-- One text is not written for two arguments, unless one is an inline value of the other. -/
theorem isArgument_unique {names : List String} (hexact : ∀ a ∈ names, ∀ b ∈ names, hasPrefix a (b ++ "=") = false)
    (hinline : ∀ a ∈ names, ∀ b ∈ names, hasPrefix (a ++ "=") (b ++ "=") = true → a = b) {argument a b : String}
    (ha : a ∈ names) (hb : b ∈ names) (h : isArgument argument a = true) (h' : isArgument argument b = true) : a = b := by
  rw [isArgument, Bool.or_eq_true, decide_eq_true_eq] at h h'
  rcases h with rfl | h <;> rcases h' with h' | h'
  · exact h'
  · rw [hexact _ ha b hb] at h'
    cases h'
  · rw [h', hexact b hb a ha] at h
    cases h
  · rcases hasPrefix_total h h' with h | h
    · exact hinline a ha b hb h
    · exact (hinline b hb a ha h).symm

theorem isArgument_inj {argument a b : String} (ha : a ∈ managedArguments) (hb : b ∈ managedArguments)
    (h : isArgument argument a = true) (h' : isArgument argument b = true) : a = b :=
  isArgument_unique managed_not_inline managed_inline_inj ha hb h h'

/-! ## The value of an argument -/

/-- A text that is not an argument is passed over. -/
theorem positiveArgument_skip {name raw : String} (h : isArgument (trimSpace raw) name = false) (rest : List String) :
    positiveArgument name (raw :: rest) = positiveArgument name rest := by
  rw [isArgument, Bool.or_eq_false_iff, decide_eq_false_iff_not] at h
  simp only [positiveArgument, if_neg h.1, if_neg (Bool.eq_false_iff.1 h.2), Int.lt_irrefl, if_false]

theorem firstPositive_or (inline next : Int) {a b other : Option Int} (h : a = b.or other) :
    (if 0 < inline then some inline else if 0 < next then some next else a) =
      (if 0 < inline then some inline else if 0 < next then some next else b).or other := by
  by_cases hinline : 0 < inline
  · rw [if_pos hinline, if_pos hinline, Option.some_or]
  · rw [if_neg hinline, if_neg hinline]
    by_cases hnext : 0 < next
    · rw [if_pos hnext, if_pos hnext, Option.some_or]
    · rw [if_neg hnext, if_neg hnext, h]

theorem positiveArgument_cons_or {name raw : String} {a b : List String} {other : Option Int}
    (h : positiveArgument name a = (positiveArgument name b).or other) (hhead : trimSpace raw = name → a.head? = b.head?) :
    positiveArgument name (raw :: a) = (positiveArgument name (raw :: b)).or other := by
  have hnext : (if trimSpace raw = name then (a.head?.map fun value => atoi (trimSpace value)).getD 0 else 0) =
      if trimSpace raw = name then (b.head?.map fun value => atoi (trimSpace value)).getD 0 else 0 := by
    by_cases hraw : trimSpace raw = name
    · rw [if_pos hraw, if_pos hraw, hhead hraw]
    · rw [if_neg hraw, if_neg hraw]
  simp only [positiveArgument, hnext]
  exact firstPositive_or _ _ h

theorem positiveArgument_cons {name raw : String} {a b : List String} (h : positiveArgument name a = positiveArgument name b)
    (hhead : trimSpace raw = name → a.head? = b.head?) :
    positiveArgument name (raw :: a) = positiveArgument name (raw :: b) := by
  have hor : positiveArgument name (raw :: a) = (positiveArgument name (raw :: b)).or none :=
    positiveArgument_cons_or (by rwa [Option.or_none]) hhead
  rwa [Option.or_none] at hor

theorem ne_of_not_managed {raw name : String} (h : managedArguments.contains (trimSpace raw) = false)
    (hname : name ∈ managedArguments) : trimSpace raw ≠ name := by
  rintro rfl
  rw [List.contains_iff_mem.2 hname] at h
  cases h

theorem positiveArgument_append {spec : String → Prop} {name : String} (hname : name ∈ managedArguments) {a : List String}
    (ha : Tidy spec a) (b : List String) : positiveArgument name (a ++ b) = (positiveArgument name a).or (positiveArgument name b) := by
  induction ha with
  | nil => rfl
  | single h _ ih => exact positiveArgument_cons_or ih fun hraw => absurd hraw (ne_of_not_managed h hname)
  | @pair raw value rest _ hvalue _ _ ih =>
    have hskip := not_isArgument_of_unmanaged hvalue hname
    have hvalues : positiveArgument name (value :: (rest ++ b)) =
        (positiveArgument name (value :: rest)).or (positiveArgument name b) := by
      rw [positiveArgument_skip hskip, positiveArgument_skip hskip, ih]
    exact positiveArgument_cons_or hvalues fun _ => rfl

/-! ## Leaving arguments out -/

section
variable {names : List String}

theorem withoutNamed_keep {raw : String} (h : names.any (isArgument (trimSpace raw)) = false) (rest : List String) :
    withoutNamed names (raw :: rest) = raw :: withoutNamed names rest := by
  have hcontains : names.contains (trimSpace raw) = false := by
    rw [List.any_eq_false] at h
    refine Bool.eq_false_iff.2 fun hmem => h _ (List.contains_iff_mem.1 hmem) ?_
    simp [isArgument]
  cases rest with
  | nil => simp [withoutNamed, h]
  | cons value rest => rw [withoutNamed, if_neg (Bool.eq_false_iff.1 hcontains), if_neg (Bool.eq_false_iff.1 h)]

theorem withoutNamed_inline {raw : String} (h : names.contains (trimSpace raw) = false)
    (hany : names.any (isArgument (trimSpace raw)) = true) (rest : List String) :
    withoutNamed names (raw :: rest) = withoutNamed names rest := by
  cases rest with
  | nil => simp [withoutNamed, hany]
  | cons value rest => rw [withoutNamed, if_neg (Bool.eq_false_iff.1 h), if_pos hany]

theorem withoutNamed_pair {raw : String} (h : names.contains (trimSpace raw) = true) (value : String) (rest : List String) :
    withoutNamed names (raw :: value :: rest) = withoutNamed names rest := by
  rw [withoutNamed, if_pos h]

/-- What is left out is not found any more. -/
theorem positiveArgument_withoutNamed_self {name : String} (hname : name ∈ names) (l : List String) :
    positiveArgument name (withoutNamed names l) = none := by
  have hskip : ∀ raw, ¬ names.any (isArgument (trimSpace raw)) = true → isArgument (trimSpace raw) name = false := by
    intro raw h
    rw [Bool.not_eq_true, List.any_eq_false] at h
    exact Bool.eq_false_iff.2 (h name hname)
  induction l using withoutNamed.induct names with
  | case1 => rfl
  | case2 raw h => rw [withoutNamed, if_pos h]; rfl
  | case3 raw h =>
    rw [withoutNamed, if_neg h, positiveArgument_skip (hskip raw h)]
    rfl
  | case4 raw value rest h ih => rwa [withoutNamed, if_pos h]
  | case5 raw value rest h hany ih => rwa [withoutNamed, if_neg h, if_pos hany]
  | case6 raw value rest h hany ih => rwa [withoutNamed, if_neg h, if_neg hany, positiveArgument_skip (hskip raw hany)]

theorem withoutNamed_sublist (l : List String) : (withoutNamed names l).Sublist l := by
  induction l using withoutNamed.induct names with
  | case1 => exact .slnil
  | case2 raw h => rw [withoutNamed, if_pos h]; exact List.nil_sublist _
  | case3 raw h => rw [withoutNamed, if_neg h]
  | case4 raw value rest h ih => rw [withoutNamed, if_pos h]; exact (ih.cons _).cons _
  | case5 raw value rest h hany ih => rw [withoutNamed, if_neg h, if_pos hany]; exact ih.cons _
  | case6 raw value rest h hany ih => rw [withoutNamed, if_neg h, if_neg hany]; exact ih.cons_cons _

variable (hnames : names ⊆ managedArguments)
include hnames

theorem not_any_of_exact {raw : String} (h : managedArguments.contains (trimSpace raw) = true)
    (hnot : names.contains (trimSpace raw) = false) : names.any (isArgument (trimSpace raw)) = false := by
  rw [List.any_eq_false]
  intro name hname
  refine Bool.eq_false_iff.1 (not_isArgument_of_ne (List.contains_iff_mem.1 h) (hnames hname) ?_)
  rintro heq
  rw [heq, List.contains_iff_mem.2 hname] at hnot
  cases hnot

theorem not_contains_of_not_managed {raw : String} (h : managedArguments.contains (trimSpace raw) = false) :
    names.contains (trimSpace raw) = false := by
  refine Bool.eq_false_iff.2 fun hmem => ?_
  rw [List.contains_iff_mem.2 (hnames (List.contains_iff_mem.1 hmem))] at h
  cases h

theorem Tidy.withoutNamed {spec : String → Prop} {l : List String} (h : Tidy spec l) : Tidy spec (withoutNamed names l) := by
  induction h with
  | nil => exact .nil
  | @single raw rest h _ ih =>
    by_cases hany : names.any (isArgument (trimSpace raw)) = true
    · rwa [withoutNamed_inline (not_contains_of_not_managed hnames h) hany]
    · rw [withoutNamed_keep (Bool.eq_false_iff.2 hany)]
      exact .single h ih
  | @pair raw value rest h hvalue hspec _ ih =>
    by_cases hcontains : names.contains (trimSpace raw) = true
    · rwa [withoutNamed_pair hcontains]
    · rw [withoutNamed_keep (not_any_of_exact hnames h (Bool.eq_false_iff.2 hcontains)),
        withoutNamed_keep (not_any_of_unmanaged hvalue hnames)]
      exact .pair h hvalue hspec ih

/-- What is not left out is read as before. -/
theorem positiveArgument_withoutNamed {spec : String → Prop} {name : String} (hname : name ∈ managedArguments)
    (hnot : name ∉ names) {l : List String} (h : Tidy spec l) : positiveArgument name (Models.withoutNamed names l) = positiveArgument name l := by
  induction h with
  | nil => rfl
  | @single raw rest h _ ih =>
    by_cases hany : names.any (isArgument (trimSpace raw)) = true
    · have hskip : isArgument (trimSpace raw) name = false := by
        obtain ⟨other, hother, harg⟩ := List.any_eq_true.1 hany
        refine Bool.eq_false_iff.2 fun harg' => hnot ?_
        rwa [← isArgument_inj (hnames hother) hname harg harg']
      rw [withoutNamed_inline (not_contains_of_not_managed hnames h) hany, positiveArgument_skip hskip, ih]
    · rw [withoutNamed_keep (Bool.eq_false_iff.2 hany)]
      exact positiveArgument_cons ih fun hraw => absurd hraw (ne_of_not_managed h hname)
  | @pair raw value rest h hvalue hspec _ ih =>
    have hskip := not_isArgument_of_unmanaged hvalue hname
    by_cases hcontains : names.contains (trimSpace raw) = true
    · have hraw : trimSpace raw ≠ name := fun heq => hnot (heq ▸ List.contains_iff_mem.1 hcontains)
      rw [withoutNamed_pair hcontains, ih,
        positiveArgument_skip (not_isArgument_of_ne (List.contains_iff_mem.1 h) hname hraw), positiveArgument_skip hskip]
    · rw [withoutNamed_keep (not_any_of_exact hnames h (Bool.eq_false_iff.2 hcontains)),
        withoutNamed_keep (not_any_of_unmanaged hvalue hnames)]
      refine positiveArgument_cons ?_ fun _ => rfl
      rw [positiveArgument_skip hskip, positiveArgument_skip hskip, ih]

end

/-! ## DFlash -/

theorem rdropWhile_keeps {α : Type} {p : α → Bool} {start : List α} {last : α} (h : p last = false) (rest : List α) :
    (start ++ [last]) <+: (start ++ [last] ++ rest).rdropWhile p := by
  induction rest using List.reverseRecOn with
  | nil =>
    have hsame : (start ++ [last]).rdropWhile p = start ++ [last] := List.rdropWhile_concat_neg p _ _ (by simp [h])
    exact ⟨[], by rw [List.append_nil, hsame]⟩
  | append_singleton rest x ih =>
    rw [← List.append_assoc, List.rdropWhile_concat]
    split
    · exact ih
    · rw [List.append_assoc]
      exact List.prefix_append _ _

theorem trimSpace_spec (value : String) : hasPrefix (trimSpace ("--spec-type=" ++ value)) "--spec-type=" = true := by
  have hstart : "--spec-type=".toList = "--spec-type".toList ++ ['='] := by decide
  have hdrop : (("--spec-type".toList ++ ['=']) ++ value.toList).dropWhile isSpace =
      ("--spec-type".toList ++ ['=']) ++ value.toList := by
    rw [show "--spec-type".toList = '-' :: "-spec-type".toList by decide]
    exact List.dropWhile_cons_of_neg (by decide)
  rw [hasPrefix, List.isPrefixOf_iff_prefix, trimSpace_toList, String.toList_append, hstart, hdrop]
  exact rdropWhile_keeps (by decide) _

theorem isArgument_spec (value : String) : isArgument (trimSpace ("--spec-type=" ++ value)) "--spec-type" = true := by
  rw [isArgument, show ("--spec-type" ++ "=" : String) = "--spec-type=" by decide, trimSpace_spec, Bool.or_true]

theorem spec_mem : "--spec-type" ∈ managedArguments := by decide

section
variable {raw : String} {rest : List String}

@[simp] theorem withoutDFlash_nil : withoutDFlashArguments [] = [] := rfl

theorem withoutDFlash_keep (hspec : isArgument (trimSpace raw) "--spec-type" = false)
    (hany : dflashArguments.any (isArgument (trimSpace raw)) = false) :
    withoutDFlashArguments (raw :: rest) = raw :: withoutDFlashArguments rest := by
  have hcontains : dflashArguments.contains (trimSpace raw) = false := by
    rw [List.any_eq_false] at hany
    refine Bool.eq_false_iff.2 fun hmem => hany _ (List.contains_iff_mem.1 hmem) ?_
    simp [isArgument]
  rw [isArgument, Bool.or_eq_false_iff, decide_eq_false_iff_not] at hspec
  have hnone : ¬ hasPrefix (trimSpace raw) "--spec-type=" = true := Bool.eq_false_iff.1 hspec.2
  cases rest with
  | nil =>
    have hnot : ¬ (trimSpace raw = "--spec-type" ∨ dflashArguments.any (isArgument (trimSpace raw)) = true) :=
      fun h => h.elim hspec.1 (Bool.eq_false_iff.1 hany)
    rw [withoutDFlash_nil, withoutDFlashArguments, if_neg hnot, if_neg hnone]
  | cons value rest =>
    rw [withoutDFlashArguments, if_neg (Bool.eq_false_iff.1 hcontains), if_neg hspec.1, if_neg (Bool.eq_false_iff.1 hany),
      if_neg hnone]

theorem withoutDFlash_inline (hcontains : dflashArguments.contains (trimSpace raw) = false) (hspec : trimSpace raw ≠ "--spec-type")
    (hany : dflashArguments.any (isArgument (trimSpace raw)) = true) :
    withoutDFlashArguments (raw :: rest) = withoutDFlashArguments rest := by
  cases rest with
  | nil => rw [withoutDFlash_nil, withoutDFlashArguments, if_pos (Or.inr hany)]
  | cons value rest => rw [withoutDFlashArguments, if_neg (Bool.eq_false_iff.1 hcontains), if_neg hspec, if_pos hany]

def inlineSpecType (value : String) : List String := if value = "" then [] else ["--spec-type=" ++ value]

theorem withoutDFlash_specInline (hcontains : dflashArguments.contains (trimSpace raw) = false)
    (hspec : trimSpace raw ≠ "--spec-type") (hany : dflashArguments.any (isArgument (trimSpace raw)) = false)
    (hstart : hasPrefix (trimSpace raw) "--spec-type=" = true) :
    withoutDFlashArguments (raw :: rest) =
      inlineSpecType (withoutDFlashSpecType (trimPrefix (trimSpace raw) "--spec-type=")) ++ withoutDFlashArguments rest := by
  cases rest with
  | nil =>
    have hnot : ¬ (trimSpace raw = "--spec-type" ∨ dflashArguments.any (isArgument (trimSpace raw)) = true) :=
      fun h => h.elim hspec (Bool.eq_false_iff.1 hany)
    rw [withoutDFlash_nil, withoutDFlashArguments, if_neg hnot, if_pos hstart, List.append_nil]
    rfl
  | cons value rest =>
    rw [withoutDFlashArguments, if_neg (Bool.eq_false_iff.1 hcontains), if_neg hspec, if_neg (Bool.eq_false_iff.1 hany),
      if_pos hstart]
    rfl

end

/-- What leaving out arguments of speculative decoding does not do. -/
structure Untouched (l l' : List String) : Prop where
  tidy : Tidy (fun _ => True) l'
  value : ∀ name ∈ batchArguments, positiveArgument name l' = positiveArgument name l
  mtp : hasAnyArgument l' mtpArguments = true → hasAnyArgument l mtpArguments = true

theorem mtp_cons {raw : String} {l l' : List String}
    (h : hasAnyArgument l' mtpArguments = true → hasAnyArgument l mtpArguments = true) :
    hasAnyArgument (raw :: l') mtpArguments = true → hasAnyArgument (raw :: l) mtpArguments = true := by
  intro hmtp
  rw [hasAnyArgument, List.any_cons, Bool.or_eq_true] at hmtp ⊢
  exact hmtp.imp_right h

theorem batch_managed {name : String} (h : name ∈ batchArguments) : name ∈ managedArguments :=
  List.mem_append_left _ (List.mem_append_left _ h)

namespace Untouched

variable {l l' : List String} {raw value : String} (h : Untouched l l')
include h

theorem single (hraw : managedArguments.contains (trimSpace raw) = false) : Untouched (raw :: l) (raw :: l') where
  tidy := .single hraw h.tidy
  value name hname :=
    positiveArgument_cons (h.value name hname) fun heq => absurd heq (ne_of_not_managed hraw (batch_managed hname))
  mtp := mtp_cons h.mtp

theorem pair (hraw : managedArguments.contains (trimSpace raw) = true) (hvalue : Unmanaged value) :
    Untouched (raw :: value :: l) (raw :: value :: l') where
  tidy := .pair hraw hvalue (fun _ => trivial) h.tidy
  value name hname := by
    have hskip := not_isArgument_of_unmanaged hvalue (batch_managed hname)
    refine positiveArgument_cons ?_ fun _ => rfl
    rw [positiveArgument_skip hskip, positiveArgument_skip hskip, h.value name hname]
  mtp := mtp_cons (mtp_cons h.mtp)

theorem drop (hraw : ∀ name ∈ batchArguments, isArgument (trimSpace raw) name = false) : Untouched (raw :: l) l' where
  tidy := h.tidy
  value name hname := by rw [positiveArgument_skip (hraw name hname), h.value name hname]
  mtp hmtp := by
    rw [hasAnyArgument, List.any_cons, Bool.or_eq_true]
    exact .inr (h.mtp hmtp)

theorem addInline (value : String) : Untouched l (inlineSpecType value ++ l') := by
  unfold inlineSpecType
  split
  · exact h
  · have hnot : ∀ name ∈ managedArguments, name ≠ "--spec-type" → isArgument (trimSpace ("--spec-type=" ++ value)) name = false :=
      fun name hname hne => Bool.eq_false_iff.2 fun harg => hne (isArgument_inj hname spec_mem harg (isArgument_spec value))
    have hexact : managedArguments.contains (trimSpace ("--spec-type=" ++ value)) = false := by
      refine Bool.eq_false_iff.2 fun hmem => ?_
      have hinline := managed_not_inline _ (List.contains_iff_mem.1 hmem) _ spec_mem
      rw [show ("--spec-type" ++ "=" : String) = "--spec-type=" by decide, trimSpace_spec] at hinline
      cases hinline
    refine ⟨.single hexact h.tidy, fun name hname => ?_, fun hmtp => ?_⟩
    · rw [List.singleton_append,
        positiveArgument_skip (hnot name (batch_managed hname) (by rintro rfl; exact absurd hname (by decide))), h.value name hname]
    · rw [List.singleton_append, hasAnyArgument, List.any_cons, Bool.or_eq_true] at hmtp
      refine h.mtp (hmtp.resolve_left fun hany => ?_)
      obtain ⟨name, hname, harg⟩ := List.any_eq_true.1 hany
      have hmem : ∀ name ∈ mtpArguments, name ∈ managedArguments ∧ name ≠ "--spec-type" := by decide
      rw [hnot name (hmem name hname).1 (hmem name hname).2] at harg
      cases harg

theorem addPair (hvalue : Unmanaged value) : Untouched l ("--spec-type" :: value :: l') where
  tidy := .pair (by decide) hvalue (fun _ => trivial) h.tidy
  value name hname := by
    have hspec : ∀ name ∈ batchArguments, isArgument (trimSpace "--spec-type") name = false := by decide
    rw [positiveArgument_skip (hspec name hname),
      positiveArgument_skip (not_isArgument_of_unmanaged hvalue (batch_managed hname)), h.value name hname]
  mtp hmtp := by
    have hspec : mtpArguments.any (isArgument (trimSpace "--spec-type")) = false := by decide
    have hmtpValue : mtpArguments.any (isArgument (trimSpace value)) = false := not_any_of_unmanaged hvalue (by decide)
    rw [hasAnyArgument, List.any_cons, hspec, List.any_cons, hmtpValue, Bool.false_or, Bool.false_or] at hmtp
    exact h.mtp hmtp

end Untouched

theorem hasAnyArgument_sublist {l l' expected : List String} (h : l'.Sublist l) (hany : hasAnyArgument l' expected = true) :
    hasAnyArgument l expected = true := by
  obtain ⟨raw, hmem, harg⟩ := List.any_eq_true.1 hany
  exact List.any_eq_true.2 ⟨raw, h.subset hmem, harg⟩

theorem Untouched.trans {a b c : List String} (h : Untouched a b) (h' : Untouched b c) : Untouched a c :=
  ⟨h'.tidy, fun name hname => (h'.value name hname).trans (h.value name hname), h.mtp ∘ h'.mtp⟩

theorem untouched_withoutNamed (names : List String) (hnames : names ⊆ managedArguments)
    (hbatch : ∀ name ∈ batchArguments, name ∉ names) {l : List String} (h : Tidy (fun _ => True) l) :
    Untouched l (withoutNamed names l) where
  tidy := h.withoutNamed hnames
  value name hname := positiveArgument_withoutNamed hnames (batch_managed hname) (hbatch name hname) h
  mtp := hasAnyArgument_sublist (withoutNamed_sublist l)

/-- What a start may get: the other types of `--spec-type` are not themselves managed arguments. -/
abbrev TidyRequest : List String → Prop := Tidy fun value => Unmanaged (withoutDFlashSpecType value)

theorem untouched_withoutDFlash {l : List String} (h : TidyRequest l) : Untouched l (withoutDFlashArguments l) := by
  have hdflash : dflashArguments ⊆ managedArguments := by decide
  have hbatch : ∀ name ∈ batchArguments, name ∉ dflashArguments ∧ name ≠ "--spec-type" := by decide
  have hspecNot : "--spec-type" ∉ dflashArguments := by decide
  induction h with
  | nil => exact ⟨.nil, fun _ _ => rfl, id⟩
  | @single raw rest hraw _ ih =>
    have hcontains := not_contains_of_not_managed hdflash hraw
    have hspec := ne_of_not_managed hraw spec_mem
    by_cases hany : dflashArguments.any (isArgument (trimSpace raw)) = true
    · -- An argument of DFlash with its value in one text.
      rw [withoutDFlash_inline hcontains hspec hany]
      refine ih.drop fun name hname => Bool.eq_false_iff.2 fun harg => ?_
      obtain ⟨other, hother, hotherArg⟩ := List.any_eq_true.1 hany
      rw [← isArgument_inj (batch_managed hname) (hdflash hother) harg hotherArg] at hother
      exact (hbatch name hname).1 hother
    · rw [Bool.not_eq_true] at hany
      by_cases hinline : isArgument (trimSpace raw) "--spec-type" = true
      · -- The types that are left are written back in the same spelling.
        have hstart : hasPrefix (trimSpace raw) "--spec-type=" = true := by
          rw [isArgument, decide_eq_false hspec, Bool.false_or] at hinline
          exact hinline
        rw [withoutDFlash_specInline hcontains hspec hany hstart]
        refine (ih.drop fun name hname => Bool.eq_false_iff.2 fun harg => ?_).addInline _
        exact (hbatch name hname).2 (isArgument_inj (batch_managed hname) spec_mem harg hinline)
      · rw [withoutDFlash_keep (Bool.eq_false_iff.2 hinline) hany]
        exact ih.single hraw
  | @pair raw value rest hraw hvalue hspecValue _ ih =>
    have hexact := List.contains_iff_mem.1 hraw
    -- Neither an argument that is dropped nor its value is a name of the batch.
    have hdropped : trimSpace raw ∉ batchArguments → Untouched (raw :: value :: rest) (withoutDFlashArguments rest) := by
      intro hnot
      refine (ih.drop fun name hname => not_isArgument_of_unmanaged hvalue (batch_managed hname)).drop fun name hname => ?_
      refine not_isArgument_of_ne hexact (batch_managed hname) ?_
      rintro rfl
      exact hnot hname
    by_cases hcontains : dflashArguments.contains (trimSpace raw) = true
    · rw [withoutDFlashArguments, if_pos hcontains]
      exact hdropped fun hname => (hbatch _ hname).1 (List.contains_iff_mem.1 hcontains)
    · by_cases hspec : trimSpace raw = "--spec-type"
      · -- What is written back is the only value that the request did not have.
        have hrest := hdropped fun hname => (hbatch _ hname).2 hspec
        rw [withoutDFlashArguments, if_neg hcontains, if_pos hspec, specType]
        split
        · exact hrest
        · exact hrest.addPair (hspecValue hspec)
      · rw [withoutDFlash_keep (not_isArgument_of_ne hexact spec_mem hspec)
          (not_any_of_exact hdflash hraw (Bool.eq_false_iff.2 hcontains)),
          withoutDFlash_keep (not_isArgument_of_unmanaged hvalue spec_mem) (not_any_of_unmanaged hvalue hdflash)]
        exact ih.pair hraw hvalue

theorem untouched_withoutSpeculative {l : List String} (h : TidyRequest l) :
    Untouched l (withoutSpeculativeDecodingArguments l) := by
  have hdflash := untouched_withoutDFlash h
  have hdraft := hdflash.trans (untouched_withoutNamed (["--model-draft", "--dflash-draft", "--mtp-draft"])
    (by decide) (by decide) hdflash.tidy)
  exact hdraft.trans (untouched_withoutNamed (["--mtp-block-size"]) (by decide) (by decide) hdraft.tidy)

/-! ## Setting arguments -/

section
variable {spec : String → Prop} {l : List String} {name : String} {value : Nat}

theorem positiveArgument_set_self (hname : name ∈ managedArguments) (h : Tidy spec l) :
    positiveArgument name (setManagedIntegerArgument l name value) = positiveArgument name [name, toString value] := by
  have htidy : Tidy spec (withoutNamed [name] l) := h.withoutNamed (List.cons_subset.2 ⟨hname, List.nil_subset _⟩)
  rw [setManagedIntegerArgument, positiveArgument_append hname htidy, positiveArgument_withoutNamed_self (List.mem_singleton_self _),
    Option.none_or]

theorem positiveArgument_set_other {other : String} (hname : name ∈ managedArguments) (hother : other ∈ managedArguments)
    (hne : other ≠ name) (h : Tidy spec l) (hnone : positiveArgument other [name, toString value] = none) :
    positiveArgument other (setManagedIntegerArgument l name value) = positiveArgument other l := by
  have hnames : [name] ⊆ managedArguments := List.cons_subset.2 ⟨hname, List.nil_subset _⟩
  rw [setManagedIntegerArgument, positiveArgument_append hother (h.withoutNamed hnames), hnone, Option.or_none,
    positiveArgument_withoutNamed hnames hother (fun hmem => hne (List.mem_singleton.1 hmem)) h]

theorem Tidy.set (hname : name ∈ batchArguments) (htrim : trimSpace name = name) (hvalue : Unmanaged (toString value))
    (h : Tidy spec l) : Tidy spec (setManagedIntegerArgument l name value) := by
  have hmanaged := batch_managed hname
  have hspec : trimSpace name ≠ "--spec-type" := by
    rw [htrim]
    rintro rfl
    exact absurd hname (by decide)
  refine (h.withoutNamed (List.cons_subset.2 ⟨hmanaged, List.nil_subset _⟩)).append (.pair ?_ hvalue (fun heq => absurd heq hspec) .nil)
  rw [htrim]
  exact List.contains_iff_mem.2 hmanaged

theorem mtp_of_set (hnot : hasAnyArgument [name, toString value] mtpArguments = false)
    (h : hasAnyArgument (setManagedIntegerArgument l name value) mtpArguments = true) : hasAnyArgument l mtpArguments = true := by
  rw [setManagedIntegerArgument, hasAnyArgument, List.any_append, ← hasAnyArgument, ← hasAnyArgument, hnot, Bool.or_false] at h
  exact hasAnyArgument_sublist (withoutNamed_sublist l) h

end

end Tanpopo.Models
