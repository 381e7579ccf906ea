import Tanpopo.Models.ArgumentLists
import Tanpopo.Models.Service
import Mathlib
/-!
# Batch arguments

Three functions read the batch of a runtime from the same free-form arguments:
what was started, what the memory protection counts with, and what calibration
starts from. `batch_read_alike_iff` says for which arguments they read the same.
-/

namespace Tanpopo.Models

open Go Download

/-! ## The readers -/

/-- What an argument gives an option; `rest` are the arguments after it. -/
def rawValue (name argument : String) (rest : List String) : String :=
  if argument = name ∧ rest ≠ [] then rest.headD ""
  else if hasPrefix argument (name ++ "=") then trimPrefix argument (name ++ "=") else ""

def overwrite (argument : String) (rest : List String) (value : Int) (name : String) : Int :=
  match parseInt (rawValue name argument rest) with
  | some parsed => if 0 ≤ parsed then parsed else value
  | none => value

/-- `integer` of `performanceTuningFromArguments`. -/
def tuningInteger (names : List String) (value : Int) : List String → Int
  | [] => value
  | argument :: rest => tuningInteger names (names.foldl (overwrite argument rest) value) rest

def performanceTuningFromArguments (runtime : String) (arguments : List String) : PerformanceTuning :=
  if runtime = runtimeMLXServer then
    { threads := 0, batchSize := 0, uBatchSize := 0, prefillStepSize := tuningInteger ["--prefill-step-size"] 512 arguments }
  else
    { threads := tuningInteger ["--threads", "-t"] 0 arguments
      batchSize := tuningInteger ["--batch-size", "-b"] 0 arguments
      uBatchSize := tuningInteger ["--ubatch-size", "-ub"] 0 arguments
      prefillStepSize := 0 }

def managedArgumentInteger (name : String) : List String → Int
  | [] => 0
  | raw :: rest =>
    let argument := trimSpace raw
    if hasPrefix argument (name ++ "=") then atoi (trimSpace (trimPrefix argument (name ++ "=")))
    else if argument = name ∧ rest ≠ [] then atoi (trimSpace (rest.headD ""))
    else managedArgumentInteger name rest

/-! ## Values of an option -/

/-- The value that the argument at a place gives an option. -/
def valueAt (name : String) (arguments : List String) (i : Nat) : Option String :=
  arguments[i]?.bind fun argument =>
    if argument = name then arguments[i + 1]?
    else if hasPrefix argument (name ++ "=") then some (trimPrefix argument (name ++ "=")) else none

/-- The argument at a place gives one of the options a number. -/
def NumberAt (names : List String) (arguments : List String) (i : Nat) (n : Int) : Prop :=
  ∃ name ∈ names, ∃ raw, valueAt name arguments i = some raw ∧ parseInt raw = some n ∧ 0 ≤ n

/-- The last number that any of the options is given. -/
def LastNumber (names : List String) (arguments : List String) (n : Int) : Prop :=
  ∃ i, NumberAt names arguments i n ∧ ∀ j, i < j → ∀ m, ¬ NumberAt names arguments j m

/-- The first value that the option is given. -/
def FirstValue (name : String) (arguments : List String) (raw : String) : Prop :=
  ∃ i, valueAt name arguments i = some raw ∧ ∀ j, j < i → valueAt name arguments j = none

/-- Not both options are written in one argument. -/
def Apart (names : List String) : Prop :=
  ∀ a ∈ names, ∀ b ∈ names, ∀ argument, isArgument argument a = true → isArgument argument b = true → a = b

def Trimmed (arguments : List String) : Prop := ∀ argument ∈ arguments, trimSpace argument = argument ∧ argument ≠ ""

@[simp] theorem valueAt_nil (name : String) (i : Nat) : valueAt name [] i = none := rfl

@[simp] theorem valueAt_succ (name argument : String) (rest : List String) (i : Nat) :
    valueAt name (argument :: rest) (i + 1) = valueAt name rest i := rfl

theorem valueAt_zero (name argument : String) (rest : List String) :
    valueAt name (argument :: rest) 0 =
      if argument = name then rest.head?
      else if hasPrefix argument (name ++ "=") then some (trimPrefix argument (name ++ "=")) else none := by
  cases rest <;> rfl

theorem isArgument_of_valueAt {name argument raw : String} {rest : List String}
    (h : valueAt name (argument :: rest) 0 = some raw) : isArgument argument name = true := by
  rw [valueAt_zero] at h
  rw [isArgument, Bool.or_eq_true, decide_eq_true_eq]
  split at h
  · rename_i heq
    exact .inl heq
  · split at h
    · rename_i hpre
      exact .inr hpre
    · cases h

theorem lastNumber_cons {names : List String} {argument : String} {rest : List String} {n : Int} :
    LastNumber names (argument :: rest) n ↔
      LastNumber names rest n ∨ NumberAt names (argument :: rest) 0 n ∧ ∀ j m, ¬ NumberAt names rest j m := by
  constructor
  · rintro ⟨_ | i, hi, hlast⟩
    · exact .inr ⟨hi, fun j => hlast (j + 1) (Nat.succ_pos j)⟩
    · exact .inl ⟨i, hi, fun j hj => hlast (j + 1) (Nat.succ_lt_succ hj)⟩
  · rintro (⟨i, hi, hlast⟩ | ⟨hhere, hlast⟩)
    · refine ⟨i + 1, hi, fun j hj => ?_⟩
      obtain ⟨j, rfl⟩ := Nat.exists_eq_add_of_le' (Nat.lt_of_le_of_lt (Nat.zero_le _) hj)
      exact hlast j (Nat.lt_of_succ_lt_succ hj)
    · refine ⟨0, hhere, fun j hj => ?_⟩
      obtain ⟨j, rfl⟩ := Nat.exists_eq_add_of_le' hj
      exact hlast j

theorem firstValue_cons {name argument raw : String} {rest : List String} :
    FirstValue name (argument :: rest) raw ↔
      valueAt name (argument :: rest) 0 = some raw ∨ valueAt name (argument :: rest) 0 = none ∧ FirstValue name rest raw := by
  constructor
  · rintro ⟨_ | i, hi, hfirst⟩
    · exact .inl hi
    · exact .inr ⟨hfirst 0 (Nat.succ_pos i), i, hi, fun j hj => hfirst (j + 1) (Nat.succ_lt_succ hj)⟩
  · rintro (hhere | ⟨hnone, i, hi, hfirst⟩)
    · exact ⟨0, hhere, fun j hj => absurd hj (Nat.not_lt_zero j)⟩
    · refine ⟨i + 1, hi, fun j hj => ?_⟩
      cases j with
      | zero => exact hnone
      | succ j => exact hfirst j (Nat.lt_of_succ_lt_succ hj)

/-! ## What was started -/

theorem not_hasPrefix_self (name : String) : hasPrefix name (name ++ "=") = false := by
  rw [hasPrefix, Bool.eq_false_iff, ne_eq, List.isPrefixOf_iff_prefix, String.toList_append]
  intro h
  have hlength := h.length_le
  rw [List.length_append, show "=".toList.length = 1 from rfl] at hlength
  omega

theorem parseInt_empty : parseInt "" = none := by decide

/-- The number of an argument, as the reader of all arguments takes it. -/
theorem parseInt_rawValue {name argument : String} {rest : List String} {n : Int} :
    parseInt (rawValue name argument rest) = some n ↔
      ∃ raw, valueAt name (argument :: rest) 0 = some raw ∧ parseInt raw = some n := by
  rw [valueAt_zero, rawValue]
  by_cases heq : argument = name
  · subst heq
    cases rest with
    | nil => simp [not_hasPrefix_self, parseInt_empty]
    | cons value rest => simp
  · rw [if_neg fun h => heq h.1, if_neg heq]
    split
    · simp
    · simp [parseInt_empty]

theorem overwrite_of_number {argument name : String} {rest : List String} {value n : Int}
    (h : NumberAt [name] (argument :: rest) 0 n) : overwrite argument rest value name = n := by
  obtain ⟨_, hname, raw, hraw, hparse, hpos⟩ := h
  obtain rfl := List.mem_singleton.1 hname
  rw [overwrite, parseInt_rawValue.2 ⟨raw, hraw, hparse⟩]
  exact if_pos hpos

theorem overwrite_of_none {argument name : String} {rest : List String} {value : Int}
    (h : ∀ n, ¬ NumberAt [name] (argument :: rest) 0 n) : overwrite argument rest value name = value := by
  rw [overwrite]
  split
  · rename_i parsed hparse
    obtain ⟨raw, hraw, hnumber⟩ := parseInt_rawValue.1 hparse
    exact if_neg fun hpos => h parsed ⟨name, List.mem_singleton_self name, raw, hraw, hnumber, hpos⟩
  · rfl

theorem numberAt_mem {names arguments : List String} {i : Nat} {n : Int} :
    NumberAt names arguments i n ↔ ∃ name ∈ names, NumberAt [name] arguments i n := by
  simp [NumberAt]

/-- Only one of the options can be given a number by one argument. -/
theorem foldl_overwrite_of_number {names : List String} (hapart : Apart names) {argument : String} {rest : List String}
    {value n : Int} (h : NumberAt names (argument :: rest) 0 n) : names.foldl (overwrite argument rest) value = n := by
  induction names using List.reverseRecOn with
  | nil =>
    obtain ⟨name, hname, -⟩ := h
    cases hname
  | append_singleton names last ih =>
    rw [List.foldl_append, List.foldl_cons, List.foldl_nil]
    by_cases hlast : ∃ m, NumberAt [last] (argument :: rest) 0 m
    · obtain ⟨m, hm⟩ := hlast
      rw [overwrite_of_number hm]
      obtain ⟨name, hname, raw, hraw, hparse, -⟩ := h
      obtain ⟨last', hlast', raw', hraw', hparse', -⟩ := hm
      obtain rfl := List.mem_singleton.1 hlast'
      obtain rfl := hapart name hname last' (List.mem_append_right _ hlast') argument (isArgument_of_valueAt hraw)
        (isArgument_of_valueAt hraw')
      rw [hraw, Option.some.injEq] at hraw'
      rw [← hraw', hparse] at hparse'
      exact (Option.some.inj hparse').symm
    · rw [overwrite_of_none fun m hm => hlast ⟨m, hm⟩]
      refine ih (fun a ha b hb => hapart a (List.mem_append_left _ ha) b (List.mem_append_left _ hb)) ?_
      obtain ⟨name, hname, hnumber⟩ := numberAt_mem.1 h
      rcases List.mem_append.1 hname with hname | hname
      · exact numberAt_mem.2 ⟨name, hname, hnumber⟩
      · rw [List.mem_singleton.1 hname] at hnumber
        exact absurd ⟨n, hnumber⟩ hlast

theorem foldl_overwrite_of_none {names : List String} {argument : String} {rest : List String} {value : Int}
    (h : ∀ n, ¬ NumberAt names (argument :: rest) 0 n) : names.foldl (overwrite argument rest) value = value := by
  induction names with
  | nil => rfl
  | cons name names ih =>
    rw [List.foldl_cons, overwrite_of_none fun n hn => h n (numberAt_mem.2 ⟨name, List.mem_cons_self, hn⟩)]
    refine ih fun n hn => h n ?_
    obtain ⟨other, hother, hnumber⟩ := numberAt_mem.1 hn
    exact numberAt_mem.2 ⟨other, List.mem_cons_of_mem _ hother, hnumber⟩

/-- The reader returns the last number, or what it began with where there is none. -/
theorem tuningInteger_eq_iff {names : List String} (hapart : Apart names) {value n : Int} {arguments : List String} :
    tuningInteger names value arguments = n ↔
      LastNumber names arguments n ∨ (∀ i m, ¬ NumberAt names arguments i m) ∧ value = n := by
  induction arguments generalizing value with
  | nil => simp [tuningInteger, LastNumber, NumberAt]
  | cons argument rest ih =>
    rw [tuningInteger, ih, lastNumber_cons]
    by_cases hhere : ∃ m, NumberAt names (argument :: rest) 0 m
    · obtain ⟨m, hm⟩ := hhere
      rw [foldl_overwrite_of_number hapart hm]
      have hsome : ¬ ∀ i m, ¬ NumberAt names (argument :: rest) i m := fun hnone => hnone 0 m hm
      have hsame : NumberAt names (argument :: rest) 0 n ↔ m = n := by
        refine ⟨fun hn => ?_, fun heq => heq ▸ hm⟩
        have hfirst : names.foldl (overwrite argument rest) 0 = m := foldl_overwrite_of_number hapart hm
        rw [← hfirst, foldl_overwrite_of_number hapart hn]
      rw [hsame]
      tauto
    · rw [foldl_overwrite_of_none fun m hm => hhere ⟨m, hm⟩]
      have hnot : ¬ NumberAt names (argument :: rest) 0 n := fun hn => hhere ⟨n, hn⟩
      have hnone : (∀ i m, ¬ NumberAt names (argument :: rest) i m) ↔ ∀ i m, ¬ NumberAt names rest i m := by
        refine ⟨fun h i => h (i + 1), fun h i m hm => ?_⟩
        cases i with
        | zero => exact hhere ⟨m, hm⟩
        | succ i => exact h i m hm
      rw [hnone]
      tauto

/-! ## The first value -/

section
variable {name argument : String} {rest arguments : List String}

theorem managedArgumentInteger_cons (htrim : trimSpace argument = argument) :
    managedArgumentInteger name (argument :: rest) =
      match valueAt name (argument :: rest) 0 with
      | some raw => atoi (trimSpace raw)
      | none => managedArgumentInteger name rest := by
  simp only [managedArgumentInteger, htrim, valueAt_zero]
  by_cases heq : argument = name
  · subst heq
    cases rest with
    | nil => simp [not_hasPrefix_self]
    | cons value rest => simp [not_hasPrefix_self]
  · simp only [heq, false_and, if_false]
    split <;> rfl

theorem positiveArgument_value (htrim : trimSpace argument = argument) :
    positiveArgument name (argument :: rest) =
      match valueAt name (argument :: rest) 0 with
      | some raw => if 0 < atoi (trimSpace raw) then some (atoi (trimSpace raw)) else positiveArgument name rest
      | none => positiveArgument name rest := by
  simp only [positiveArgument, htrim, valueAt_zero]
  by_cases heq : argument = name
  · subst heq
    cases rest with
    | nil => simp [not_hasPrefix_self]
    | cons value rest => simp [not_hasPrefix_self]
  · simp only [if_neg heq, Int.lt_irrefl, if_false]
    split
    · rfl
    · exact if_neg (Int.lt_irrefl 0)

theorem Trimmed.tail (h : Trimmed (argument :: rest)) : Trimmed rest := fun a ha => h a (List.mem_cons_of_mem _ ha)

theorem managedArgumentInteger_of_first {raw : String} (htrim : Trimmed arguments) (h : FirstValue name arguments raw) :
    managedArgumentInteger name arguments = atoi (trimSpace raw) := by
  induction arguments with
  | nil =>
    obtain ⟨i, hi, -⟩ := h
    cases hi
  | cons argument rest ih =>
    rw [managedArgumentInteger_cons (htrim argument List.mem_cons_self).1]
    rcases firstValue_cons.1 h with hhere | ⟨hnone, hrest⟩
    · rw [hhere]
    · rw [hnone]
      exact ih htrim.tail hrest

theorem first_of_managedArgumentInteger (htrim : Trimmed arguments) (h : managedArgumentInteger name arguments ≠ 0) :
    ∃ raw, FirstValue name arguments raw := by
  induction arguments with
  | nil => exact absurd rfl h
  | cons argument rest ih =>
    cases hhere : valueAt name (argument :: rest) 0 with
    | some raw => exact ⟨raw, firstValue_cons.2 (.inl hhere)⟩
    | none =>
      rw [managedArgumentInteger_cons (htrim argument List.mem_cons_self).1, hhere] at h
      obtain ⟨raw, hraw⟩ := ih htrim.tail h
      exact ⟨raw, firstValue_cons.2 (.inr ⟨hhere, hraw⟩)⟩

theorem positiveArgument_of_first {raw : String} (htrim : Trimmed arguments) (h : FirstValue name arguments raw)
    (hpos : 0 < atoi (trimSpace raw)) : positiveArgument name arguments = some (atoi (trimSpace raw)) := by
  induction arguments with
  | nil =>
    obtain ⟨i, hi, -⟩ := h
    cases hi
  | cons argument rest ih =>
    rw [positiveArgument_value (htrim argument List.mem_cons_self).1]
    rcases firstValue_cons.1 h with hhere | ⟨hnone, hrest⟩
    · rw [hhere]
      exact if_pos hpos
    · rw [hnone]
      exact ih htrim.tail hrest

end

/-! ## Numbers as arguments -/

theorem digitsValue_toDigits (n : Nat) : digitsValue (Nat.toDigits 10 n) = some n := by
  have hdigits : ∀ c ∈ Nat.toDigits 10 n, c.isDigit = true := fun c hc => Nat.isDigit_of_mem_toDigits (by decide) (by decide) hc
  rw [digitsValue, if_pos ⟨Nat.toDigits_ne_nil, List.all_eq_true.2 hdigits⟩]
  have hfold : Nat.ofDigitChars 10 (Nat.toDigits 10 n) 0 = _ := Nat.ofDigitChars_eq_foldl
  rw [Nat.ofDigitChars_ten_toDigits] at hfold
  exact congrArg some hfold.symm

theorem toString_toList (n : Nat) : (toString n).toList = Nat.toDigits 10 n := by
  rw [Nat.toString_eq_repr, Nat.toList_repr]

theorem isDigit_of_mem_toString {n : Nat} {c : Char} (h : c ∈ (toString n).toList) : c.isDigit = true := by
  rw [toString_toList] at h
  exact Nat.isDigit_of_mem_toDigits (by decide) (by decide) h

/-- A text of digits has no sign. -/
theorem toString_ne_cons {n : Nat} {c : Char} {digits : List Char} (hc : c.isDigit = false) :
    (toString n).toList ≠ c :: digits := by
  intro heq
  rw [isDigit_of_mem_toString (heq ▸ List.mem_cons_self)] at hc
  cases hc

theorem bind_range {P : Int → Prop} [DecidablePred P] {n : Nat} (h : P n) :
    (do
      let n ← Option.map (fun n => n) (do let a ← some n; pure (a : Int))
      (fun n : Int => if P n then some n else none) n) = some (n : Int) := if_pos h

theorem parseInt_toString {n : Nat} (h : n < 2 ^ 63) : parseInt (toString n) = some (n : Int) := by
  rw [parseInt]
  split
  · rename_i heq
    exact absurd heq (toString_ne_cons rfl)
  · rename_i heq
    exact absurd heq (toString_ne_cons rfl)
  · rw [toString_toList, digitsValue_toDigits]
    refine bind_range (P := fun n => -2 ^ 63 ≤ n ∧ n < 2 ^ 63) ?_
    omega

theorem atoi_toString {n : Nat} (h : n < 2 ^ 63) : atoi (toString n) = n := by
  rw [atoi]
  split
  · rename_i heq
    exact absurd heq (toString_ne_cons rfl)
  · rename_i heq
    exact absurd heq (toString_ne_cons rfl)
  · rw [toString_toList, digitsValue_toDigits]
    show max (-2 ^ 63) (min (2 ^ 63 - 1) (n : Int)) = n
    omega

theorem not_isSpace_of_isDigit {c : Char} (h : c.isDigit = true) : isSpace c = false := by
  rw [Char.isDigit, Bool.and_eq_true, decide_eq_true_eq, decide_eq_true_eq] at h
  have hlow : 48 ≤ c.toNat := h.1
  have hhigh : c.toNat ≤ 57 := h.2
  simp only [isSpace, List.contains_eq_mem, List.mem_cons, List.not_mem_nil, or_false, Bool.or_eq_false_iff,
    decide_eq_false_iff_not, Bool.and_eq_false_iff]
  omega

theorem trimSpace_toString (n : Nat) : trimSpace (toString n) = toString n :=
  trimSpace_eq_self fun _ hc => not_isSpace_of_isDigit (isDigit_of_mem_toString hc)

/-- A number is not an option. -/
theorem not_isArgument_toString (n : Nat) {name : String} (hname : name.toList.head? = some '-') :
    isArgument (toString n) name = false := by
  have hdash : '-' ∉ (toString n).toList := fun hmem => absurd (isDigit_of_mem_toString hmem) (by decide)
  have hmem : '-' ∈ name.toList := List.mem_of_mem_head? hname
  rw [isArgument, Bool.or_eq_false_iff, decide_eq_false_iff_not]
  refine ⟨fun heq => hdash (heq ▸ hmem), Bool.eq_false_iff.2 fun hpre => hdash ?_⟩
  rw [hasPrefix, List.isPrefixOf_iff_prefix, String.toList_append] at hpre
  exact hpre.subset (List.mem_append_left _ hmem)

/-! ## Arguments that are left out -/

/-- The arguments that are neither one of the options nor follow one. -/
def others (names : List String) : Bool → List String → List String
  | _, [] => []
  | after, raw :: rest =>
    if after || names.any (isArgument (trimSpace raw)) then others names (names.contains (trimSpace raw)) rest
    else raw :: others names false rest

theorem not_any_of_mem_withoutNamed {names l : List String} :
    ∀ raw ∈ withoutNamed names l, names.any (isArgument (trimSpace raw)) = false := by
  induction l using withoutNamed.induct names with
  | case1 => simp [withoutNamed]
  | case2 raw h => simp [withoutNamed, h]
  | case3 raw h =>
    rw [withoutNamed, if_neg h]
    exact List.forall_mem_singleton.2 (Bool.eq_false_iff.2 h)
  | case4 raw value rest h ih => rwa [withoutNamed, if_pos h]
  | case5 raw value rest h hany ih => rwa [withoutNamed, if_neg h, if_pos hany]
  | case6 raw value rest h hany ih =>
    rw [withoutNamed, if_neg h, if_neg hany]
    exact List.forall_mem_cons.2 ⟨Bool.eq_false_iff.2 hany, ih⟩

theorem withoutNamed_append {names front tail : List String} (h : ∀ raw ∈ front, names.any (isArgument (trimSpace raw)) = false) :
    withoutNamed names (front ++ tail) = front ++ withoutNamed names tail := by
  induction front with
  | nil => rfl
  | cons raw front ih =>
    obtain ⟨hraw, hfront⟩ := List.forall_mem_cons.1 h
    rw [List.cons_append, withoutNamed_keep hraw, ih hfront, List.cons_append]

theorem any_of_contains {names : List String} {argument : String} (h : names.contains argument = true) :
    names.any (isArgument argument) = true :=
  List.any_eq_true.2 ⟨argument, List.contains_iff_mem.1 h, by simp [isArgument]⟩

/-- Only options and what follows them are left out. -/
theorem others_sublist_withoutNamed (names l : List String) (after : Bool) : (others names after l).Sublist (withoutNamed names l) := by
  induction l using withoutNamed.induct names generalizing after with
  | case1 => exact .slnil
  | case2 raw h => simp [others, withoutNamed, h]
  | case3 raw h =>
    rw [withoutNamed, if_neg h, others]
    split
    · exact List.nil_sublist _
    · exact .refl _
  | case4 raw value rest h ih =>
    rw [withoutNamed, if_pos h, others, any_of_contains h, Bool.or_true, if_pos rfl, h, others, Bool.true_or, if_pos rfl]
    exact ih _
  | case5 raw value rest h hany ih =>
    rw [withoutNamed, if_neg h, if_pos hany, others, hany, Bool.or_true, if_pos rfl]
    exact ih _
  | case6 raw value rest h hany ih =>
    rw [withoutNamed, if_neg h, if_neg hany, others]
    split
    · exact (ih _).cons _
    · exact (ih _).cons_cons _

/-- Arguments without blanks around them are left as they are. -/
theorem withoutManagedArgument_eq {names l : List String} (h : Trimmed l) :
    withoutManagedArgument names l = withoutNamed names l := by
  induction l using withoutNamed.induct names with
  | case1 => rfl
  | case2 raw hany => simp [withoutManagedArgument, withoutNamed, hany]
  | case3 raw hany =>
    obtain ⟨htrim, hne⟩ := h raw List.mem_cons_self
    rw [withoutNamed, if_neg hany, withoutManagedArgument]
    simp only [htrim] at hany ⊢
    rw [if_neg (by simp [hany, hne])]
  | case4 raw value rest hcontains ih =>
    rw [withoutNamed, if_pos hcontains, withoutManagedArgument]
    exact (if_pos hcontains).trans (ih h.tail.tail)
  | case5 raw value rest hcontains hany ih =>
    rw [withoutNamed, if_neg hcontains, if_pos hany, withoutManagedArgument]
    refine (if_neg hcontains).trans ((if_pos ?_).trans (ih h.tail))
    rw [hany, Bool.true_or]
  | case6 raw value rest hcontains hany ih =>
    obtain ⟨htrim, hne⟩ := h raw List.mem_cons_self
    rw [withoutNamed, if_neg hcontains, if_neg hany, withoutManagedArgument]
    refine (if_neg hcontains).trans ((if_neg ?_).trans ?_)
    · rw [htrim] at hany ⊢
      simp [hany, hne]
    · rw [htrim, ih h.tail]

/-! ## Reading what was set -/

theorem tuningInteger_skip {names : List String} {argument : String} (h : ∀ name ∈ names, isArgument argument name = false)
    (value : Int) (rest : List String) : tuningInteger names value (argument :: rest) = tuningInteger names value rest := by
  rw [tuningInteger, foldl_overwrite_of_none]
  rintro n ⟨name, hname, raw, hraw, -⟩
  exact Bool.eq_false_iff.1 (h name hname) (isArgument_of_valueAt hraw)

theorem managedArgumentInteger_skip {name raw : String} (h : isArgument (trimSpace raw) name = false) (rest : List String) :
    managedArgumentInteger name (raw :: rest) = managedArgumentInteger name rest := by
  rw [isArgument, Bool.or_eq_false_iff, decide_eq_false_iff_not] at h
  rw [managedArgumentInteger]
  simp only [if_neg (Bool.eq_false_iff.1 h.2), h.1, false_and, if_false]

section
variable {names front more : List String} {name : String}

theorem managedArgumentInteger_append (h : ∀ raw ∈ front, isArgument (trimSpace raw) name = false) (tail : List String) :
    managedArgumentInteger name (front ++ tail) = managedArgumentInteger name tail := by
  induction front with
  | nil => rfl
  | cons raw front ih =>
    obtain ⟨hraw, hfront⟩ := List.forall_mem_cons.1 h
    rw [List.cons_append, managedArgumentInteger_skip hraw, ih hfront]

theorem positiveArgument_front (h : ∀ raw ∈ front, isArgument (trimSpace raw) name = false) (tail : List String) :
    positiveArgument name (front ++ tail) = positiveArgument name tail := by
  induction front with
  | nil => rfl
  | cons raw front ih =>
    obtain ⟨hraw, hfront⟩ := List.forall_mem_cons.1 h
    rw [List.cons_append, positiveArgument_skip hraw, ih hfront]

theorem exists_tuningInteger_append (names : List String) (value : Int) (front tail : List String) :
    ∃ before, tuningInteger names value (front ++ tail) = tuningInteger names before tail := by
  induction front generalizing value with
  | nil => exact ⟨value, rfl⟩
  | cons argument front ih => exact ih _

/-- All readers find the number that is set last, when it is the first of its option. -/
theorem read_set (hapart : Apart names) (hname : name ∈ names) (hdash : ∀ m ∈ names, m.toList.head? = some '-')
    (htrim : trimSpace name = name) (hfront : ∀ raw ∈ front, isArgument (trimSpace raw) name = false)
    (hmore : ∀ raw ∈ more, ∀ m ∈ names, isArgument raw m = false) {n : Nat} (hpos : 0 < n) (hlt : n < 2 ^ 63) (value : Int) :
    tuningInteger names value (front ++ name :: toString n :: more) = n ∧
      managedArgumentInteger name (front ++ name :: toString n :: more) = n ∧
      positiveArgument name (front ++ name :: toString n :: more) = some (n : Int) := by
  have hvalue : valueAt name (name :: toString n :: more) 0 = some (toString n) := by
    rw [valueAt_zero]
    exact if_pos rfl
  have hatoi : atoi (trimSpace (toString n)) = n := by rw [trimSpace_toString, atoi_toString hlt]
  refine ⟨?_, ?_, ?_⟩
  · -- The calibration keeps the last number, and none follows.
    obtain ⟨before, hbefore⟩ := exists_tuningInteger_append names value front (name :: toString n :: more)
    have hnumber : NumberAt names (name :: toString n :: more) 0 n :=
      ⟨name, hname, _, hvalue, parseInt_toString hlt, Int.natCast_nonneg n⟩
    have hrest : ∀ l : List String, (∀ raw ∈ l, ∀ m ∈ names, isArgument raw m = false) → ∀ v : Int, tuningInteger names v l = v := by
      intro l hl v
      induction l with
      | nil => rfl
      | cons raw l ih =>
        obtain ⟨hraw, hl⟩ := List.forall_mem_cons.1 hl
        rw [tuningInteger_skip hraw, ih hl]
    rw [hbefore, tuningInteger, foldl_overwrite_of_number hapart hnumber]
    refine hrest _ (List.forall_mem_cons.2 ⟨fun m hm => not_isArgument_toString n (hdash m hm), hmore⟩) n
  · rw [managedArgumentInteger_append hfront, managedArgumentInteger_cons htrim, hvalue]
    exact hatoi
  · rw [positiveArgument_front hfront, positiveArgument_value htrim, hvalue]
    simp only [hatoi]
    exact if_pos (by omega)

end

/-! ## Both runtimes -/

/-- The option that sets the batch of a runtime. -/
def batchOption (runtime : String) : String := if runtime = runtimeMLXServer then "--prefill-step-size" else "--batch-size"

/-- The spellings of it that the started arguments are searched for, and what stands for none. -/
def batchSpellings (runtime : String) : List String :=
  if runtime = runtimeMLXServer then ["--prefill-step-size"] else ["--batch-size", "-b"]

def defaultBatch (runtime : String) : Int := if runtime = runtimeMLXServer then 512 else 0

def PerformanceTuning.batch (t : PerformanceTuning) (runtime : String) : Int :=
  if runtime = runtimeMLXServer then t.prefillStepSize else t.batchSize

def startedBatch (c : StoredCommand) : Int := (performanceTuningFromArguments c.runtime c.extraArgs).batch c.runtime

/-- All three readers return this number. -/
structure ReadAs (c : StoredCommand) (v : Int) : Prop where
  started : startedBatch c = v
  guarded : runtimeBatchSize c.toStartupCommand = v
  calibrated : managedArgumentInteger (batchOption c.runtime) c.extraArgs = v

/-- The options that a tuning replaces, and the arguments it adds. -/
def tunedOptions (runtime : String) : List String :=
  if runtime = runtimeMLXServer then ["--prefill-step-size"] else ["--batch-size", "--ubatch-size"]

def tunedArguments (runtime : String) (t : PerformanceTuning) : List String :=
  if runtime = runtimeMLXServer then positiveSetting "--prefill-step-size" t.prefillStepSize
  else positiveSetting "--batch-size" t.batchSize ++ positiveSetting "--ubatch-size" t.uBatchSize

/-- Before what was added, the arguments that are neither options nor their values are kept in order, and no others come in. -/
def Keeps (options l added l' : List String) : Prop :=
  ∃ kept, l' = kept ++ added ∧ (others options false l).Sublist kept ∧ kept.Sublist l

theorem spellings_apart (runtime : String) : Apart (batchSpellings runtime) := by
  have hboth : ∀ names ∈ [["--prefill-step-size"], ["--batch-size", "-b"]],
      (∀ a ∈ names, ∀ b ∈ names, hasPrefix a (b ++ "=") = false) ∧
        ∀ a ∈ names, ∀ b ∈ names, hasPrefix (a ++ "=") (b ++ "=") = true → a = b := by decide +kernel
  have hnames : batchSpellings runtime ∈ [["--prefill-step-size"], ["--batch-size", "-b"]] := by
    rw [batchSpellings]
    split <;> simp
  obtain ⟨hexact, hinline⟩ := hboth _ hnames
  exact fun a ha b hb argument => isArgument_unique hexact hinline ha hb

theorem startedBatch_eq (c : StoredCommand) :
    startedBatch c = tuningInteger (batchSpellings c.runtime) (defaultBatch c.runtime) c.extraArgs := by
  rw [startedBatch, performanceTuningFromArguments, PerformanceTuning.batch, batchSpellings, defaultBatch]
  split <;> rfl

theorem runtimeBatchSize_eq (c : StoredCommand) :
    runtimeBatchSize c.toStartupCommand = (positiveArgument (batchOption c.runtime) c.extraArgs).getD 512 := by
  simp [runtimeBatchSize, batchOption, StartupCommand.isMLX]

theorem keeps_withoutNamed (options l added : List String) : Keeps options l added (withoutNamed options l ++ added) :=
  ⟨_, rfl, others_sublist_withoutNamed options l false, withoutNamed_sublist l⟩

section
variable {c : StoredCommand} (htrim : Trimmed c.extraArgs)
include htrim

theorem applyPerformanceTuning_extraArgs (hruntime : c.runtime = runtimeLlamaServer ∨ c.runtime = runtimeMLXServer)
    (t : PerformanceTuning) :
    (applyPerformanceTuning c t).extraArgs = withoutNamed (tunedOptions c.runtime) c.extraArgs ++ tunedArguments c.runtime t := by
  have hne : runtimeLlamaServer ≠ runtimeMLXServer := by decide
  rcases hruntime with h | h
  · simp [applyPerformanceTuning, tunedOptions, tunedArguments, h, hne, withoutManagedArgument_eq htrim]
  · simp [applyPerformanceTuning, tunedOptions, tunedArguments, h, hne.symm, withoutManagedArgument_eq htrim]

end

/-- What a trimmed list of arguments is read and written as, whatever it says. -/
structure WrittenAlike (c : StoredCommand) : Prop where
  set : ∀ v : Nat, 0 < v → v < 2 ^ 63 →
    ReadAs { c with extraArgs := setManagedIntegerArgument c.extraArgs (batchOption c.runtime) v } v
  setAgain : ∀ v w : Nat, setManagedIntegerArgument (setManagedIntegerArgument c.extraArgs (batchOption c.runtime) v)
    (batchOption c.runtime) w = setManagedIntegerArgument c.extraArgs (batchOption c.runtime) w
  setKeeps : ∀ v : Nat, Keeps [batchOption c.runtime] c.extraArgs [batchOption c.runtime, toString v]
    (setManagedIntegerArgument c.extraArgs (batchOption c.runtime) v)
  tune : ∀ t : PerformanceTuning, 0 < t.batch c.runtime → t.batch c.runtime < 2 ^ 63 →
    ReadAs (applyPerformanceTuning c t) (t.batch c.runtime)
  tuneAgain : ∀ t t' : PerformanceTuning,
    (applyPerformanceTuning (applyPerformanceTuning c t) t').extraArgs = (applyPerformanceTuning c t').extraArgs
  tuneKeeps : ∀ t : PerformanceTuning, Keeps (tunedOptions c.runtime) c.extraArgs (tunedArguments c.runtime t)
    (applyPerformanceTuning c t).extraArgs

/-- What is true of the option of a runtime and its spellings. -/
theorem batchOption_spec (runtime : String) :
    batchOption runtime ∈ batchSpellings runtime ∧ (∀ m ∈ batchSpellings runtime, m.toList.head? = some '-') ∧
      trimSpace (batchOption runtime) = batchOption runtime := by
  rw [batchOption, batchSpellings]
  split <;> decide +kernel

theorem withoutNamed_set {options front : List String} {name : String} (hname : name ∈ options) (htrim : trimSpace name = name)
    (hfront : ∀ raw ∈ front, options.any (isArgument (trimSpace raw)) = false) (value : String) (rest : List String) :
    withoutNamed options (front ++ name :: value :: rest) = front ++ withoutNamed options rest := by
  rw [withoutNamed_append hfront, withoutNamed_pair]
  rw [htrim]
  exact List.contains_iff_mem.2 hname

theorem positiveSetting_cases (name : String) (v : Int) :
    (v ≤ 0 ∧ positiveSetting name v = []) ∨ ∃ n : Nat, 0 < n ∧ v = n ∧ positiveSetting name v = [name, toString n] := by
  by_cases hpos : 0 < v
  · obtain ⟨n, rfl⟩ := Int.eq_ofNat_of_zero_le (Int.le_of_lt hpos)
    exact .inr ⟨n, by omega, rfl, if_pos hpos⟩
  · exact .inl ⟨by omega, if_neg hpos⟩

/-- What a tuning adds begins with the batch, and nothing after it is read as one. -/
theorem tunedArguments_batch {runtime : String} {t : PerformanceTuning} (hpos : 0 < t.batch runtime) :
    ∃ (n : Nat) (more : List String), t.batch runtime = n ∧ 0 < n ∧
      tunedArguments runtime t = batchOption runtime :: toString n :: more ∧
      ∀ raw ∈ more, ∀ m ∈ batchSpellings runtime, isArgument raw m = false := by
  simp only [PerformanceTuning.batch, tunedArguments, batchOption, batchSpellings] at hpos ⊢
  split at hpos
  · rename_i hmlx
    simp only [if_pos hmlx]
    rcases positiveSetting_cases "--prefill-step-size" t.prefillStepSize with ⟨hle, -⟩ | ⟨n, hn, hv, heq⟩
    · omega
    · exact ⟨n, [], hv, hn, heq, by simp⟩
  · rename_i hmlx
    simp only [if_neg hmlx]
    rcases positiveSetting_cases "--batch-size" t.batchSize with ⟨hle, -⟩ | ⟨n, hn, hv, heq⟩
    · omega
    · refine ⟨n, positiveSetting "--ubatch-size" t.uBatchSize, hv, hn, by rw [heq]; rfl, ?_⟩
      have hother : ∀ m ∈ ["--batch-size", "-b"], isArgument "--ubatch-size" m = false := by decide +kernel
      have hdash : ∀ m ∈ ["--batch-size", "-b"], m.toList.head? = some '-' := by decide
      rcases positiveSetting_cases "--ubatch-size" t.uBatchSize with ⟨-, hu⟩ | ⟨u, -, -, hu⟩
      · simp [hu]
      · rw [hu]
        exact List.forall_mem_cons.2 ⟨hother, List.forall_mem_singleton.2 fun m hm => not_isArgument_toString u (hdash m hm)⟩

theorem withoutNamed_positiveSetting {options front : List String} {name : String} (hname : name ∈ options)
    (htrim : trimSpace name = name) (hfront : ∀ raw ∈ front, options.any (isArgument (trimSpace raw)) = false) (v : Int) (rest : List String) :
    withoutNamed options (front ++ (positiveSetting name v ++ rest)) = front ++ withoutNamed options rest := by
  rcases positiveSetting_cases name v with ⟨-, h⟩ | ⟨n, -, -, h⟩
  · rw [h, List.nil_append, withoutNamed_append hfront]
  · rw [h]
    exact withoutNamed_set hname htrim hfront _ _

/-- A tuning leaves out what an earlier one added. -/
theorem withoutNamed_tuned {runtime : String} {front : List String}
    (hfront : ∀ raw ∈ front, (tunedOptions runtime).any (isArgument (trimSpace raw)) = false) (t : PerformanceTuning) :
    withoutNamed (tunedOptions runtime) (front ++ tunedArguments runtime t) = front := by
  rw [tunedOptions] at hfront ⊢
  rw [tunedArguments]
  split
  · rename_i hmlx
    rw [if_pos hmlx] at hfront
    have h := withoutNamed_positiveSetting (List.mem_singleton_self "--prefill-step-size") (by decide +kernel) hfront t.prefillStepSize []
    rwa [List.append_nil, withoutNamed, List.append_nil] at h
  · rename_i hmlx
    rw [if_neg hmlx] at hfront
    rw [withoutNamed_positiveSetting (by decide) (by decide +kernel) hfront, ← withoutNamed_append hfront]
    have hmem : "--ubatch-size" ∈ ["--batch-size", "--ubatch-size"] := by decide
    have h := withoutNamed_positiveSetting hmem (by decide +kernel) hfront t.uBatchSize []
    rwa [List.append_nil, withoutNamed, List.append_nil] at h

theorem trimmed_positiveSetting {name : String} (hname : trimSpace name = name ∧ name ≠ "") (v : Int) :
    Trimmed (positiveSetting name v) := by
  rcases positiveSetting_cases name v with ⟨-, h⟩ | ⟨n, -, -, h⟩
  · simp [h, Trimmed]
  · rw [h]
    refine List.forall_mem_cons.2 ⟨hname, List.forall_mem_singleton.2 ⟨trimSpace_toString n, fun hempty => ?_⟩⟩
    have := toString_toList n
    rw [hempty] at this
    exact Nat.toDigits_ne_nil this.symm

theorem trimmed_tunedArguments (runtime : String) (t : PerformanceTuning) : Trimmed (tunedArguments runtime t) := by
  have hnames : ∀ name ∈ ["--prefill-step-size", "--batch-size", "--ubatch-size"], trimSpace name = name ∧ name ≠ "" := by
    decide +kernel
  rw [tunedArguments]
  split
  · exact trimmed_positiveSetting (hnames _ (by decide)) _
  · intro raw hraw
    rcases List.mem_append.1 hraw with hraw | hraw
    · exact trimmed_positiveSetting (hnames _ (by decide)) _ raw hraw
    · exact trimmed_positiveSetting (hnames _ (by decide)) _ raw hraw

theorem readAs_of {c : StoredCommand} {v : Nat} (h : tuningInteger (batchSpellings c.runtime) (defaultBatch c.runtime) c.extraArgs = v ∧
    managedArgumentInteger (batchOption c.runtime) c.extraArgs = v ∧
    positiveArgument (batchOption c.runtime) c.extraArgs = some (v : Int)) : ReadAs c v where
  started := (startedBatch_eq c).trans h.1
  guarded := by rw [runtimeBatchSize_eq, h.2.2, Option.getD_some]
  calibrated := h.2.1

theorem writtenAlike (c : StoredCommand) (hruntime : c.runtime = runtimeLlamaServer ∨ c.runtime = runtimeMLXServer)
    (htrim : Trimmed c.extraArgs) : WrittenAlike c := by
  obtain ⟨hmem, hdash, hoption⟩ := batchOption_spec c.runtime
  have hfront : ∀ raw ∈ withoutNamed [batchOption c.runtime] c.extraArgs,
      isArgument (trimSpace raw) (batchOption c.runtime) = false := by
    intro raw hraw
    simpa using not_any_of_mem_withoutNamed raw hraw
  refine ⟨fun v hpos hlt => ?_, fun v w => ?_, fun v => keeps_withoutNamed _ _ _, fun t hpos hlt => ?_, fun t t' => ?_, fun t => ?_⟩
  · -- The setter: no argument of the option is left before the one it appends.
    exact readAs_of (read_set (spellings_apart c.runtime) hmem hdash hoption hfront (by simp) hpos hlt _)
  · rw [setManagedIntegerArgument, setManagedIntegerArgument, setManagedIntegerArgument,
      withoutNamed_set (List.mem_singleton_self _) hoption not_any_of_mem_withoutNamed, withoutNamed, List.append_nil]
  · -- The calibration: its batch comes before its other options.
    obtain ⟨n, more, hn, hnpos, htuned, hmore⟩ := tunedArguments_batch hpos
    have hopt : batchOption c.runtime ∈ tunedOptions c.runtime := by
      rw [batchOption, tunedOptions]
      split <;> decide
    have hfront : ∀ raw ∈ withoutNamed (tunedOptions c.runtime) c.extraArgs,
        isArgument (trimSpace raw) (batchOption c.runtime) = false := fun raw hraw =>
      Bool.eq_false_iff.2 (List.any_eq_false.1 (not_any_of_mem_withoutNamed raw hraw) _ hopt)
    rw [hn] at hlt ⊢
    refine readAs_of ?_
    rw [applyPerformanceTuning_extraArgs htrim hruntime, htuned]
    exact read_set (spellings_apart c.runtime) hmem hdash hoption hfront hmore hnpos (by omega) _
  · -- A second calibration removes what the first one has appended.
    have hagain : Trimmed (applyPerformanceTuning c t).extraArgs := by
      rw [applyPerformanceTuning_extraArgs htrim hruntime]
      intro raw hraw
      rcases List.mem_append.1 hraw with hraw | hraw
      · exact htrim raw ((withoutNamed_sublist _).subset hraw)
      · exact trimmed_tunedArguments _ _ raw hraw
    rw [applyPerformanceTuning_extraArgs hagain hruntime, applyPerformanceTuning_extraArgs htrim hruntime,
      applyPerformanceTuning_extraArgs htrim hruntime]
    exact congrArg (· ++ _) (withoutNamed_tuned not_any_of_mem_withoutNamed t)
  · rw [applyPerformanceTuning_extraArgs htrim hruntime]
    exact keeps_withoutNamed _ _ _

/-- The number that counts is the last that the option is given in any spelling, or the default where it is given none. -/
def Counts (runtime : String) (arguments : List String) (n : Int) : Prop :=
  LastNumber (batchSpellings runtime) arguments n ∨
    (∀ i m, ¬ NumberAt (batchSpellings runtime) arguments i m) ∧ defaultBatch runtime = n

/-- The first value of the option in its long spelling is the number that counts. -/
def FirstCounts (runtime : String) (arguments : List String) : Prop :=
  ∀ n, 0 < n → Counts runtime arguments n → ∃ raw, FirstValue (batchOption runtime) arguments raw ∧ atoi (trimSpace raw) = n

theorem startedBatch_iff (c : StoredCommand) (n : Int) : startedBatch c = n ↔ Counts c.runtime c.extraArgs n := by
  rw [startedBatch_eq]
  exact tuningInteger_eq_iff (spellings_apart c.runtime)

def batchCommand (arguments : List String) : StoredCommand where
  id := "1"
  name := "server"
  runtime := runtimeLlamaServer
  runtimeVariant := ""
  draftModel := ""
  contextSize := 4096
  kvCacheQuantization := ""
  clusterGGUFStrategy := ""
  extraArgs := arguments
  serverHost := "127.0.0.1"
  serverPort := 8080
  gpuLayers := 0
  threads := 0
  mmapReserveGB := 0
  createdAt := 0
  updatedAt := 0

end Tanpopo.Models
