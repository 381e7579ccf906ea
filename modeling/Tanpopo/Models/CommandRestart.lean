import Tanpopo.Models.CommandFile
import Mathlib
/-!
# The startup commands after a restart

- `Kept`: a list of commands that is read back from its file.
- `commands_survive`: whatever is changed, the file is accepted again.
-/

namespace Tanpopo.Models

open Go Download

variable {c command : StoredCommand} {l m : List StoredCommand} {version now : Int} {fault : Option String}

/-! ## Normalising -/

theorem ite_error_ok {α : Type} {p : Prop} [Decidable p] {err : String} {x : Except String α} {a : α} :
    (if p then .error err else x) = .ok a ↔ ¬ p ∧ x = .ok a := by
  split <;> simp_all

def managed (raw : String) : Bool := managedKVCacheArguments.contains (trimSpace (argumentName (trimSpace raw)))

theorem mem_withoutManaged {raw : String} {arguments : List String} (h : raw ∈ withoutManagedKVCacheArguments arguments) :
    raw ∈ arguments ∧ managed raw = false := by
  fun_induction withoutManagedKVCacheArguments arguments with
  | case1 => cases h
  | case2 => cases h
  | case3 only hmanaged =>
    obtain rfl := List.mem_singleton.1 h
    exact ⟨h, by simpa [managed] using hmanaged⟩
  | case4 first value rest argument hmanaged ih =>
    rcases List.mem_cons.1 h with rfl | h
    · exact ⟨List.mem_cons_self, by simpa [managed, argument] using hmanaged⟩
    · exact ⟨List.mem_cons_of_mem _ (ih h).1, (ih h).2⟩
  | case5 first value rest argument hmanaged hinline ih => exact ⟨List.mem_cons_of_mem _ (ih h).1, (ih h).2⟩
  | case6 first value rest argument hmanaged hinline ih =>
    exact ⟨List.mem_cons_of_mem _ (List.mem_cons_of_mem _ (ih h).1), (ih h).2⟩

theorem withoutManaged_eq_self {arguments : List String} (h : ∀ raw ∈ arguments, managed raw = false) :
    withoutManagedKVCacheArguments arguments = arguments := by
  fun_induction withoutManagedKVCacheArguments arguments with
  | case1 => rfl
  | case2 raw hmanaged =>
    have hraw := h raw List.mem_cons_self
    rw [managed, hmanaged] at hraw
    cases hraw
  | case3 => rfl
  | case4 first value rest argument hmanaged ih => rw [ih fun raw hraw => h raw (List.mem_cons_of_mem _ hraw)]
  | case5 first value rest argument hmanaged hinline ih | case6 first value rest argument hmanaged hinline ih =>
    have hraw := h first List.mem_cons_self
    simp only [managed] at hraw
    simp only [argument, hraw, Bool.not_false, not_true_eq_false] at hmanaged

/-- The arguments of a normalised command. -/
def normalizedArguments (arguments : List String) : List String :=
  withoutManagedKVCacheArguments ((arguments.map trimSpace).filter fun arg => arg ≠ "")

theorem normalizedArguments_idem (arguments : List String) :
    normalizedArguments (normalizedArguments arguments) = normalizedArguments arguments := by
  have hmem : ∀ raw ∈ normalizedArguments arguments, trimSpace raw = raw ∧ raw ≠ "" ∧ managed raw = false := by
    intro raw hraw
    obtain ⟨hfiltered, hmanaged⟩ := mem_withoutManaged hraw
    obtain ⟨hmapped, hne⟩ := List.mem_filter.1 hfiltered
    obtain ⟨given, -, rfl⟩ := List.mem_map.1 hmapped
    exact ⟨trimSpace_trimSpace given, of_decide_eq_true hne, hmanaged⟩
  generalize normalizedArguments arguments = found at hmem
  have hmap : found.map trimSpace = found := (List.map_congr_left fun raw hraw => (hmem raw hraw).1).trans (List.map_id _)
  have hfilter : (found.filter fun arg => arg ≠ "") = found :=
    List.filter_eq_self.2 fun raw hraw => decide_eq_true (hmem raw hraw).2.1
  rw [normalizedArguments, hmap, hfilter]
  exact withoutManaged_eq_self fun raw hraw => (hmem raw hraw).2.2

theorem valid_quantization (h : validateCommand c = .ok ()) : c.kvCacheQuantization = "q8" ∨ c.kvCacheQuantization = "q4" := by
  simp only [validateCommand, ite_error_ok] at h
  have hquantization := h.2.2.2.2.2.2.2.2.2.2.2.2.2.1
  by_contra hneither
  refine hquantization ?_
  simp only [not_or] at hneither
  simp [hneither.1, hneither.2]

theorem normalizeCommand_eq_self (hid : trimSpace c.id = c.id) (hname : trimSpace c.name = c.name)
    (hruntime : trimSpace c.runtime = c.runtime) (hruntime' : c.runtime ≠ "")
    (hvariant : trimSpace c.runtimeVariant = c.runtimeVariant)
    (hquantization : c.kvCacheQuantization = "q8" ∨ c.kvCacheQuantization = "q4")
    (hdraft : trimSpace c.draftModel = c.draftModel) (hhost : trimSpace c.serverHost = c.serverHost)
    (hhost' : c.serverHost ≠ "") (hargs : normalizedArguments c.extraArgs = c.extraArgs) : normalizeCommand c = c := by
  have hlower : toLower (trimSpace c.kvCacheQuantization) = c.kvCacheQuantization ∧ c.kvCacheQuantization ≠ "" := by
    rcases hquantization with heq | heq
    · rw [heq]
      decide
    · rw [heq]
      decide
  rw [normalizedArguments] at hargs
  obtain ⟨⟨id, name, runtime, variant, draft, size, quantization, strategy, args⟩, host, port, layers, threads, reserve, created,
    updated⟩ := c
  simp only at hid hname hruntime hruntime' hvariant hlower hdraft hhost hhost' hargs
  simp only [normalizeCommand, hid, hname, hruntime, hvariant, hlower.1, hdraft, hhost, hargs, if_neg hruntime', if_neg hhost',
    if_neg hlower.2]

section
variable (c : StoredCommand)

theorem normalizeCommand_id : (normalizeCommand c).id = trimSpace c.id := rfl
theorem normalizeCommand_name : (normalizeCommand c).name = trimSpace c.name := rfl
theorem normalizeCommand_runtime :
    (normalizeCommand c).runtime = if trimSpace c.runtime = "" then runtimeLlamaServer else trimSpace c.runtime := rfl
theorem normalizeCommand_runtimeVariant : (normalizeCommand c).runtimeVariant = trimSpace c.runtimeVariant := rfl
theorem normalizeCommand_draftModel : (normalizeCommand c).draftModel = trimSpace c.draftModel := rfl
theorem normalizeCommand_contextSize : (normalizeCommand c).contextSize = c.contextSize := rfl
theorem normalizeCommand_extraArgs : (normalizeCommand c).extraArgs = normalizedArguments c.extraArgs := rfl
theorem normalizeCommand_serverHost :
    (normalizeCommand c).serverHost = if trimSpace c.serverHost = "" then "0.0.0.0" else trimSpace c.serverHost := rfl
theorem normalizeCommand_serverPort : (normalizeCommand c).serverPort = c.serverPort := rfl
theorem normalizeCommand_gpuLayers : (normalizeCommand c).gpuLayers = c.gpuLayers := rfl
theorem normalizeCommand_threads : (normalizeCommand c).threads = c.threads := rfl
theorem normalizeCommand_mmapReserveGB : (normalizeCommand c).mmapReserveGB = c.mmapReserveGB := rfl
theorem normalizeCommand_kvCacheQuantization : (normalizeCommand c).kvCacheQuantization =
    if toLower (trimSpace c.kvCacheQuantization) = "" then "q4" else toLower (trimSpace c.kvCacheQuantization) := by
  simp only [normalizeCommand]

end

theorem normalizeCommand_idem (h : validateCommand (normalizeCommand c) = .ok ()) :
    normalizeCommand (normalizeCommand c) = normalizeCommand c := by
  have htrim : ∀ fallback text : String, trimSpace fallback = fallback →
      trimSpace (if trimSpace text = "" then fallback else trimSpace text) =
        if trimSpace text = "" then fallback else trimSpace text := by
    intro fallback text hfallback
    split
    · exact hfallback
    · exact trimSpace_trimSpace text
  have hne : ∀ fallback text : String, fallback ≠ "" → (if trimSpace text = "" then fallback else trimSpace text) ≠ "" := by
    intro fallback text hfallback
    split
    · exact hfallback
    · assumption
  refine normalizeCommand_eq_self ?_ ?_ ?_ ?_ ?_ (valid_quantization h) ?_ ?_ ?_ ?_
  · exact trimSpace_trimSpace c.id
  · exact trimSpace_trimSpace c.name
  · rw [normalizeCommand_runtime c]
    exact htrim runtimeLlamaServer c.runtime (by decide)
  · rw [normalizeCommand_runtime c]
    exact hne runtimeLlamaServer c.runtime (by decide)
  · exact trimSpace_trimSpace c.runtimeVariant
  · exact trimSpace_trimSpace c.draftModel
  · rw [normalizeCommand_serverHost c]
    exact htrim "0.0.0.0" c.serverHost (by decide)
  · rw [normalizeCommand_serverHost c]
    exact hne "0.0.0.0" c.serverHost (by decide)
  · exact normalizedArguments_idem c.extraArgs

theorem normalizeCommand_strategy (c : StoredCommand) (text : String) :
    normalizeCommand { c with clusterGGUFStrategy := text } = { normalizeCommand c with clusterGGUFStrategy := text } := by
  simp only [normalizeCommand]

theorem validateCommand_strategy (c : StoredCommand) (text : String) :
    validateCommand { c with clusterGGUFStrategy := text } = validateCommand c := by
  simp only [validateCommand]

/-! ## Reading -/

/-- A command as a start reads it from a file of the current version. -/
abbrev reread (c : StoredCommand) : StoredCommand := readCommand currentCommandFileVersion c

theorem reread_eq (c : StoredCommand) : reread c = normalizeCommand { c with clusterGGUFStrategy := "" } := by
  rw [reread, readCommand, if_neg (by decide)]

theorem readCommand_of_le (h : 9 ≤ version) (c : StoredCommand) : readCommand version c = reread c := by
  rw [reread_eq, readCommand, if_neg (by omega)]

theorem reread_id (c : StoredCommand) : (reread c).id = trimSpace c.id := by
  rw [reread_eq]
  rfl

theorem reread_name (c : StoredCommand) : (reread c).name = trimSpace c.name := by
  rw [reread_eq]
  rfl

theorem reread_readCommand (h : validateCommand (readCommand version c) = .ok ()) :
    reread (readCommand version c) = readCommand version c := by
  have hstrategy : ({ readCommand version c with clusterGGUFStrategy := "" } : StoredCommand) = readCommand version c := by
    simp only [readCommand, normalizeCommand]
    split
    · unfold migrateLegacyKVCacheQuantization
      split <;> rfl
    · rfl
  rw [reread_eq, hstrategy]
  exact normalizeCommand_idem h

theorem valid_reread (h : validateCommand (normalizeCommand c) = .ok ()) :
    validateCommand (reread (normalizeCommand c)) = .ok () := by
  rw [reread_eq, normalizeCommand_strategy, validateCommand_strategy, normalizeCommand_idem h]
  exact h

/-- No two commands share an id, or a name up to upper case. -/
def Distinct (l : List StoredCommand) : Prop := (l.map (·.id)).Nodup ∧ (l.map fun c => toLower c.name).Nodup

theorem distinct_concat : Distinct (l ++ [c]) ↔
    Distinct l ∧ (∀ other ∈ l, other.id ≠ c.id) ∧ ∀ other ∈ l, toLower other.name ≠ toLower c.name := by
  simp only [Distinct, List.map_append, List.map_cons, List.map_nil, List.nodup_append, List.nodup_singleton, true_and,
    List.mem_map, List.mem_singleton, forall_exists_index, and_imp, forall_apply_eq_imp_iff₂, forall_eq]
  tauto

theorem Distinct.of_append (h : Distinct (l ++ m)) : Distinct l := by
  simp only [Distinct, List.map_append] at h
  exact ⟨h.1.of_append_left, h.2.of_append_left⟩

theorem any_id_false {id : String} : l.any (·.id = id) = false ↔ ∀ other ∈ l, other.id ≠ id := by
  simp [List.any_eq_false]

theorem any_name_false {name : String} :
    (l.any fun other => toLower other.name = toLower name) = false ↔ ∀ other ∈ l, toLower other.name ≠ toLower name := by
  simp [List.any_eq_false]

theorem readCommands_ok {seen result : List StoredCommand} (hseen : Distinct seen)
    (h : readCommands version l seen = .ok result) :
    result = seen ++ l.map (readCommand version) ∧ (∀ c ∈ l, validateCommand (readCommand version c) = .ok ()) ∧
      Distinct result := by
  induction l generalizing seen with
  | nil =>
    cases h
    exact ⟨by simp, by simp, hseen⟩
  | cons c rest ih =>
    simp only [readCommands] at h
    split at h
    · cases h
    next hvalid =>
      split at h
      · cases h
      next hid =>
        split at h
        · cases h
        next hname =>
          have hdistinct : Distinct (seen ++ [readCommand version c]) :=
            distinct_concat.2 ⟨hseen, any_id_false.1 (Bool.eq_false_iff.2 hid), any_name_false.1 (Bool.eq_false_iff.2 hname)⟩
          obtain ⟨rfl, hrest, hresult⟩ := ih hdistinct h
          refine ⟨by simp, ?_, hresult⟩
          intro c' hc'
          rcases List.mem_cons.1 hc' with rfl | hc'
          · exact hvalid
          · exact hrest c' hc'

theorem readCommands_of (seen : List StoredCommand) (hvalid : ∀ c ∈ l, validateCommand (readCommand version c) = .ok ())
    (hdistinct : Distinct (seen ++ l.map (readCommand version))) :
    readCommands version l seen = .ok (seen ++ l.map (readCommand version)) := by
  induction l generalizing seen with
  | nil => simp [readCommands]
  | cons c rest ih =>
    have hsplit : seen ++ (c :: rest).map (readCommand version) =
        (seen ++ [readCommand version c]) ++ rest.map (readCommand version) := by simp
    rw [hsplit] at hdistinct ⊢
    obtain ⟨-, hid, hname⟩ := distinct_concat.1 hdistinct.of_append
    simp only [readCommands, hvalid c List.mem_cons_self]
    rw [if_neg (Bool.eq_false_iff.1 (any_id_false.2 hid)), if_neg (Bool.eq_false_iff.1 (any_name_false.2 hname))]
    exact ih _ (fun c' hc' => hvalid c' (List.mem_cons_of_mem _ hc')) hdistinct

/-! ## Lists that are read back -/

structure Kept (m : List StoredCommand) : Prop where
  nonempty : m ≠ []
  valid : ∀ c ∈ m, validateCommand (reread c) = .ok ()
  ids : ∀ c ∈ m, trimSpace c.id = c.id
  names : ∀ c ∈ m, trimSpace c.name = c.name
  distinct : Distinct m

theorem Kept.distinct_reread (h : Kept m) : Distinct (m.map reread) := by
  have hids : (m.map reread).map (·.id) = m.map (·.id) := by
    rw [List.map_map]
    exact List.map_congr_left fun c hc => (reread_id c).trans (h.ids c hc)
  have hnames : (m.map reread).map (fun c => toLower c.name) = m.map fun c => toLower c.name := by
    rw [List.map_map]
    exact List.map_congr_left fun c hc => congrArg toLower ((reread_name c).trans (h.names c hc))
  rw [Distinct, hids, hnames]
  exact h.distinct

theorem Kept.reread_reread (h : Kept m) : (m.map reread).map reread = m.map reread := by
  rw [List.map_map]
  exact List.map_congr_left fun c hc => reread_readCommand (h.valid c hc)

/-- What was read is read back. -/
theorem kept_readCommands (hnonempty : l ≠ []) (hvalid : ∀ c ∈ l, validateCommand (readCommand version c) = .ok ())
    (hdistinct : Distinct (l.map (readCommand version))) : Kept (l.map (readCommand version)) where
  nonempty := by simpa using hnonempty
  valid c hc := by
    obtain ⟨given, hgiven, rfl⟩ := List.mem_map.1 hc
    rw [reread_readCommand (hvalid given hgiven)]
    exact hvalid given hgiven
  ids c hc := by
    obtain ⟨given, -, rfl⟩ := List.mem_map.1 hc
    exact trimSpace_trimSpace _
  names c hc := by
    obtain ⟨given, -, rfl⟩ := List.mem_map.1 hc
    exact trimSpace_trimSpace _
  distinct := hdistinct

theorem Kept.map_reread (h : Kept m) : Kept (m.map reread) := kept_readCommands h.nonempty h.valid h.distinct_reread

/-- A file of the current version that holds such a list is accepted, and not written. -/
theorem Kept.reopens (h : Kept m) (hl : l.map reread = m.map reread) (fallback : StoredCommand) (now : Int)
    (fault : Option String) :
    newCommandStore (.file ⟨currentCommandFileVersion, l⟩) fallback now fault =
      .ok ⟨.file ⟨currentCommandFileVersion, l⟩, some ⟨m.map reread⟩⟩ := by
  have hnonempty : l ≠ [] := by
    rintro rfl
    exact h.nonempty (List.map_eq_nil_iff.1 hl.symm)
  have hvalid : ∀ c ∈ l, validateCommand (reread c) = .ok () := by
    intro c hc
    have hmem : reread c ∈ m.map reread := hl ▸ List.mem_map_of_mem hc
    obtain ⟨c', hc', heq⟩ := List.mem_map.1 hmem
    exact heq ▸ h.valid c' hc'
  have hread := readCommands_of [] hvalid (by rw [List.nil_append, hl]; exact h.distinct_reread)
  rw [List.nil_append, hl] at hread
  simp only [newCommandStore, if_neg (lt_irrefl currentCommandFileVersion), if_neg hnonempty, hread]

/-! ## Changes -/

section
variable {s : CommandStore} {id : String}

theorem persist_ok {updated : List StoredCommand} {s' : CommandStore} (h : s.persist updated fault = (.ok (), s')) :
    s' = ⟨updated⟩ := by
  rcases persist_result s updated fault with ⟨err, heq⟩ | heq
  · rw [heq] at h
    cases h
  · rw [heq] at h
    cases h
    rfl

theorem persist_error {updated : List StoredCommand} {err : String} {s' : CommandStore}
    (h : s.persist updated fault = (.error err, s')) : s' = s := by
  rcases persist_result s updated fault with ⟨err, heq⟩ | heq
  · rw [heq] at h
    cases h
    rfl
  · rw [heq] at h
    cases h

theorem create_cases (s : CommandStore) (command : StoredCommand) (randomBytes : Except String (List UInt8)) (now : Int)
    (fault : Option String) :
    (∃ err, s.create command randomBytes now fault = (.error err, s)) ∨
    ∃ bytes c, randomBytes = .ok bytes ∧
      c = normalizeCommand { command with id := "profile-" ++ hexEncode bytes, createdAt := now, updatedAt := now } ∧
      validateCommand c = .ok () ∧ ensureUniqueName s.commands c.name "" = .ok () ∧
      s.create command randomBytes now fault = (.ok c, ⟨s.commands ++ [c]⟩) := by
  unfold CommandStore.create
  cases randomBytes with
  | error err => exact .inl ⟨err, rfl⟩
  | ok bytes =>
    simp only
    split
    · exact .inl ⟨_, rfl⟩
    next hvalid =>
      split
      · exact .inl ⟨_, rfl⟩
      next hunique =>
        split
        next hpersist => exact .inl ⟨_, by rw [persist_error hpersist]⟩
        next hpersist => exact .inr ⟨bytes, _, rfl, rfl, hvalid, hunique, by rw [persist_ok hpersist]⟩

theorem update_cases (s : CommandStore) (id : String) (command : StoredCommand) (now : Int) (fault : Option String) :
    (∃ err, s.update id command now fault = (.error err, s)) ∨
    ∃ index c, (s.commands.findIdx? fun current => current.id = trimSpace id) = some index ∧ c.id = trimSpace id ∧
      trimSpace c.name = c.name ∧ validateCommand (reread c) = .ok () ∧
      ensureUniqueName s.commands c.name (trimSpace id) = .ok () ∧
      s.update id command now fault = (.ok c, ⟨s.commands.set index c⟩) := by
  unfold CommandStore.update
  simp only
  split
  · exact .inl ⟨_, rfl⟩
  next index hindex =>
    split
    · exact .inl ⟨_, rfl⟩
    next hvalid =>
      split
      · exact .inl ⟨_, rfl⟩
      next hunique =>
        split
        next hpersist => exact .inl ⟨_, by rw [persist_error hpersist]⟩
        next hpersist =>
          refine .inr ⟨index, _, hindex, ?_, ?_, valid_reread hvalid, hunique, by rw [persist_ok hpersist]⟩
          · rw [normalizeCommand_id, trimSpace_trimSpace]
          · rw [normalizeCommand_name, trimSpace_trimSpace]

theorem unique_of_ensure {name exceptID : String} (h : ensureUniqueName l name exceptID = .ok ())
    (hname : trimSpace name = name) :
    ∀ other ∈ l, other.id ≠ exceptID → toLower other.name ≠ toLower name := by
  intro other hother hid heq
  unfold ensureUniqueName at h
  rw [hname] at h
  simp only at h
  split at h
  · cases h
  next hnone =>
    refine hnone (List.any_eq_true.2 ⟨other, hother, ?_⟩)
    simp [hid, heq]

theorem Kept.concat (h : Kept m) (hvalid : validateCommand (reread c) = .ok ()) (hid : trimSpace c.id = c.id)
    (hname : trimSpace c.name = c.name) (hfresh : ∀ other ∈ m, other.id ≠ c.id)
    (hunique : ∀ other ∈ m, toLower other.name ≠ toLower c.name) : Kept (m ++ [c]) where
  nonempty := by simp
  valid := by simpa [or_imp, forall_and] using ⟨h.valid, hvalid⟩
  ids := by simpa [or_imp, forall_and] using ⟨h.ids, hid⟩
  names := by simpa [or_imp, forall_and] using ⟨h.names, hname⟩
  distinct := distinct_concat.2 ⟨h.distinct, hfresh, hunique⟩

theorem nodup_set {α β : Type} (f : α → β) {xs : List α} {x : α} {i : Nat} (h : (xs.map f).Nodup)
    (hx : ∀ j y, xs[j]? = some y → j ≠ i → f y ≠ f x) : ((xs.set i x).map f).Nodup := by
  rw [List.nodup_iff_pairwise_ne, List.pairwise_iff_getElem] at h ⊢
  intro j k hj hk hlt
  simp only [List.length_map, List.length_set] at hj hk
  have hjk := h j k (by simpa using hj) (by simpa using hk) hlt
  simp only [List.getElem_map, List.getElem_set] at hjk ⊢
  split
  · split
    · omega
    next hne => exact (hx k _ (List.getElem?_eq_getElem hk) (Ne.symm hne)).symm
  · split
    next hne heq => exact hx j _ (List.getElem?_eq_getElem hj) (Ne.symm hne)
    · exact hjk

theorem Kept.replace {index : Nat} (h : Kept m) (hindex : (m.findIdx? fun current => current.id = c.id) = some index)
    (hvalid : validateCommand (reread c) = .ok ()) (hid : trimSpace c.id = c.id) (hname : trimSpace c.name = c.name)
    (hunique : ∀ other ∈ m, other.id ≠ c.id → toLower other.name ≠ toLower c.name) : Kept (m.set index c) := by
  obtain ⟨hlt, hold, -⟩ := List.findIdx?_eq_some_iff_getElem.1 hindex
  have hold := of_decide_eq_true hold
  have hothers : ∀ j y, m[j]? = some y → j ≠ index → y.id ≠ c.id := by
    intro j y hy hne heq
    have hnodup := List.nodup_iff_injective_get.1 h.distinct.1
    obtain ⟨hj, rfl⟩ := List.getElem?_eq_some_iff.1 hy
    have hsame := @hnodup ⟨j, by simpa using hj⟩ ⟨index, by simpa using hlt⟩ (by simpa using heq.trans hold.symm)
    exact hne (Fin.mk.inj hsame)
  have hmem : ∀ {P : StoredCommand → Prop}, (∀ y ∈ m, P y) → P c → ∀ y ∈ m.set index c, P y := by
    intro P hP hc y hy
    rcases List.mem_or_eq_of_mem_set hy with hy | rfl
    · exact hP y hy
    · exact hc
  exact
    { nonempty := by
        rw [Ne, ← List.length_eq_zero_iff, List.length_set]
        omega
      valid := hmem h.valid hvalid
      ids := hmem h.ids hid
      names := hmem h.names hname
      distinct := ⟨nodup_set _ h.distinct.1 hothers, nodup_set _ h.distinct.2 fun j y hy hne =>
        hunique y (List.mem_of_getElem? hy) (hothers j y hy hne)⟩ }

theorem Kept.filter {p : StoredCommand → Bool} (h : Kept m) (hnonempty : m.filter p ≠ []) : Kept (m.filter p) where
  nonempty := hnonempty
  valid c hc := h.valid c (List.mem_filter.1 hc).1
  ids c hc := h.ids c (List.mem_filter.1 hc).1
  names c hc := h.names c (List.mem_filter.1 hc).1
  distinct := ⟨h.distinct.1.sublist (List.filter_sublist.map _), h.distinct.2.sublist (List.filter_sublist.map _)⟩

/-- Deleting the commands of one id leaves others, for ids are distinct. -/
theorem Kept.filter_ne_nil (h : Kept m) (hlength : 1 < m.length) (id : String) : (m.filter fun c => c.id ≠ id) ≠ [] := by
  intro hnil
  have hall : ∀ c ∈ m, c.id = id := by
    intro c hc
    have hc' := List.filter_eq_nil_iff.1 hnil c hc
    simpa using hc'
  have hmap : m.map (·.id) = List.replicate m.length id := by
    rw [List.eq_replicate_iff]
    refine ⟨List.length_map _, fun x hx => ?_⟩
    obtain ⟨c, hc, rfl⟩ := List.mem_map.1 hx
    exact hall c hc
  have hnodup := h.distinct.1
  rw [hmap, List.nodup_replicate] at hnodup
  omega

theorem hexEncode_not_space {bytes : List UInt8} : ∀ x ∈ (hexEncode bytes).toList, isSpace x = false := by
  have hdigit : ∀ n < 16, isSpace (hexDigit n) = false := by decide +kernel
  intro x hx
  rw [hexEncode, String.toList_ofList, List.mem_flatMap] at hx
  obtain ⟨b, -, hc⟩ := hx
  have hb := b.toNat_lt
  rcases List.mem_cons.1 hc with rfl | hc
  · exact hdigit _ (by omega)
  · rw [List.mem_singleton] at hc
    exact hc ▸ hdigit _ (by omega)

theorem trimSpace_profile (bytes : List UInt8) : trimSpace ("profile-" ++ hexEncode bytes) = "profile-" ++ hexEncode bytes := by
  refine trimSpace_eq_self fun x hx => ?_
  rw [String.toList_append, List.mem_append] at hx
  rcases hx with hx | hx
  · have hall : ("profile-".toList.all fun y => !isSpace y) = true := by decide +kernel
    simpa using List.all_eq_true.1 hall x hx
  · exact hexEncode_not_space x hx

end

/-! ## Opening -/

/-- The file holds what is kept, and would be read back. -/
def CommandWorld.Settled (w : CommandWorld) (m : List StoredCommand) : Prop :=
  Kept m ∧ w.store = some ⟨m⟩ ∧ ∃ l, w.disk = .file ⟨currentCommandFileVersion, l⟩ ∧ l.map reread = m.map reread

theorem settled_saved (h : Kept m) : (CommandWorld.mk (.file ⟨currentCommandFileVersion, m⟩) (some ⟨m⟩)).Settled m :=
  ⟨h, rfl, m, rfl, rfl⟩

theorem Kept.opens {w : CommandWorld} {fallback : StoredCommand} (h : Kept m) (hl : l.map reread = m.map reread)
    (hopen : newCommandStore (.file ⟨currentCommandFileVersion, l⟩) fallback now fault = .ok w) : w.Settled (m.map reread) := by
  rw [h.reopens hl] at hopen
  cases hopen
  exact ⟨h.map_reread, rfl, l, rfl, hl.trans h.reread_reread.symm⟩

namespace CommandWorld
variable {w w' : CommandWorld} {call : CommandCall}

theorem Settled.reopens (h : w.Settled m) (fallback : StoredCommand) (now : Int) (fault : Option String) :
    newCommandStore w.disk fallback now fault = .ok ⟨w.disk, some ⟨m.map reread⟩⟩ := by
  obtain ⟨hkept, -, l, hdisk, hl⟩ := h
  rw [hdisk]
  exact hkept.reopens hl fallback now fault

theorem Settled.step (h : w.Settled m) (hstep : CommandSteps w call w') : ∃ m', w'.Settled m' := by
  obtain ⟨hkept, hstore, l, hdisk, hl⟩ := h
  have hsame : ∀ {α : Type} (err : String), (w.saved ((.error err, ⟨m⟩) : Except String α × CommandStore)).Settled m :=
    fun err => ⟨hkept, rfl, l, hdisk, hl⟩
  cases call with
  | create command randomBytes now fault =>
    simp only [CommandSteps, CommandWorld.step, hstore, Option.bind_eq_bind, Option.bind_some] at hstep
    split at hstep
    · cases hstep
    next hfresh =>
      obtain rfl := Option.some.inj hstep
      rcases create_cases ⟨m⟩ command randomBytes now fault with ⟨err, heq⟩ | ⟨bytes, c, hbytes, hc, hvalid, hunique, heq⟩
      · exact ⟨m, heq ▸ hsame err⟩
      · have hid : c.id = "profile-" ++ hexEncode bytes := by
          rw [hc, normalizeCommand_id]
          exact trimSpace_profile bytes
        have hname : trimSpace c.name = c.name := by
          rw [hc, normalizeCommand_name, trimSpace_trimSpace]
        have hnew : ∀ other ∈ m, other.id ≠ c.id := by
          intro other hother hother'
          refine hfresh (List.any_eq_true.2 ⟨other, hother, ?_⟩)
          rw [hbytes, hother', hid]
          exact decide_eq_true rfl
        have hnonempty : ∀ other ∈ m, other.id ≠ "" := by
          intro other hother hempty
          have hother' := hkept.valid other hother
          simp only [validateCommand, ite_error_ok] at hother'
          refine hother'.1 ?_
          rw [reread_id, hkept.ids other hother, hempty]
          rfl
        have hnames : ∀ other ∈ m, toLower other.name ≠ toLower c.name :=
          fun other hother => unique_of_ensure hunique hname other hother (hnonempty other hother)
        refine ⟨m ++ [c], heq ▸ settled_saved (hkept.concat ?_ ?_ hname hnew hnames)⟩
        · exact hc ▸ valid_reread (hc ▸ hvalid)
        · rw [hid, trimSpace_profile]
  | update id command now fault =>
    simp only [CommandSteps, CommandWorld.step, hstore, Option.map_some, Option.some.injEq] at hstep
    obtain rfl := hstep
    rcases update_cases ⟨m⟩ id command now fault with ⟨err, heq⟩ | ⟨index, c, hindex, hid, hname, hvalid, hunique, heq⟩
    · exact ⟨m, heq ▸ hsame err⟩
    · refine ⟨m.set index c, heq ▸ settled_saved (hkept.replace (hid ▸ hindex) hvalid ?_ hname ?_)⟩
      · rw [hid, trimSpace_trimSpace]
      · rw [hid]
        exact unique_of_ensure hunique hname
  | delete id fault =>
    simp only [CommandSteps, CommandWorld.step, hstore, Option.map_some, Option.some.injEq] at hstep
    obtain rfl := hstep
    rcases delete_cases ⟨m⟩ id fault with ⟨hnot, hsame'⟩ | ⟨⟨hlength, -⟩, heq⟩
    · rcases hresult : CommandStore.delete ⟨m⟩ id fault with ⟨result, s⟩
      rw [hresult] at hsame'
      obtain rfl : s = ⟨m⟩ := hsame'
      cases result with
      | error err => exact ⟨m, hsame err⟩
      | ok => exact ⟨m, settled_saved hkept⟩
    · rw [heq]
      exact ⟨_, settled_saved (hkept.filter (hkept.filter_ne_nil hlength _))⟩
  | restart fallback now fault =>
    simp only [CommandSteps, CommandWorld.step] at hstep
    rw [hdisk, hkept.reopens hl] at hstep
    obtain rfl := Option.some.inj hstep
    exact ⟨m.map reread, hkept.map_reread, rfl, l, rfl, hl.trans hkept.reread_reread.symm⟩

theorem Settled.run {calls : List CommandCall} (h : w.Settled m) (hrun : Run CommandSteps w calls w') : ∃ m', w'.Settled m' := by
  refine hrun.inv (fun w => ∃ m, w.Settled m) (fun w call w' hsettled hstep => ?_) ⟨m, h⟩
  obtain ⟨m, hm⟩ := hsettled
  exact hm.step hstep

end CommandWorld

/-! ## Presets -/

/-- A command that takes what is checked of it from two others that pass the checks. -/
theorem valid_mix {base given : StoredCommand} (hbase : validateCommand base = .ok ()) (hgiven : validateCommand given = .ok ())
    (hid : c.id = given.id) (hname : c.name = given.name) (hruntime : c.runtime = given.runtime)
    (hvariant : c.runtimeVariant = given.runtimeVariant) (hdraft : c.draftModel = given.draftModel)
    (hsize : c.contextSize = given.contextSize) (hargs : c.extraArgs = given.extraArgs) (hhost : c.serverHost = base.serverHost)
    (hport : c.serverPort = base.serverPort)
    (hquantization : c.kvCacheQuantization = given.kvCacheQuantization ∨ c.kvCacheQuantization = base.kvCacheQuantization)
    (hlayers : c.gpuLayers = given.gpuLayers ∨ c.gpuLayers = base.gpuLayers)
    (hthreads : c.threads = given.threads ∨ c.threads = base.threads)
    (hreserve : c.mmapReserveGB = given.mmapReserveGB ∨ c.mmapReserveGB = base.mmapReserveGB) : validateCommand c = .ok () := by
  simp only [validateCommand, ite_error_ok] at hbase hgiven ⊢
  obtain ⟨-, -, -, -, -, -, -, hhost', hport', -, hlayers', hthreads', hreserve', hquantization', -⟩ := hbase
  obtain ⟨hid', hchars, hname', hruntime', hvariant', hdraft', hgguf, -, -, hsize', hlayers'', hthreads'', hreserve'',
    hquantization'', hargs', -⟩ := hgiven
  rw [hid, hname, hruntime, hvariant, hdraft, hsize, hargs, hhost, hport]
  refine ⟨hid', hchars, hname', hruntime', hvariant', hdraft', hgguf, hhost', hport', hsize', ?_, ?_, ?_, ?_, hargs', trivial⟩
  · rcases hlayers with heq | heq
    · rwa [heq]
    · rwa [heq]
  · rcases hthreads with heq | heq
    · rwa [heq]
    · rwa [heq]
  · rcases hreserve with heq | heq
    · rwa [heq]
    · rwa [heq]
  · rcases hquantization with heq | heq
    · rwa [heq]
    · rwa [heq]

/-- A preset, valid for one time and one base. -/
def sampleBase : StoredCommand := baseCommand (mlxPreset 0 "" "" "" []) 0

theorem mlxPreset_valid {id name quantization : String} {args : List String} (now : Int)
    (h : validateCommand (reread (mlxPreset 0 id name quantization args)) = .ok ()) :
    validateCommand (reread (mlxPreset now id name quantization args)) = .ok () := by
  simp only [reread_eq, normalizeCommand, mlxPreset, validateCommand] at h ⊢
  exact h

section
variable {base sample : StoredCommand} (hbase : validateCommand base = .ok ()) (hsteady : normalizeCommand base = base)
include hbase hsteady

theorem newPreset_valid (id name : String) (args : List String) (quantization : Option String)
    (hlike : base.runtime = sample.runtime ∧ base.runtimeVariant = sample.runtimeVariant ∧ base.draftModel = sample.draftModel ∧
      base.contextSize = sample.contextSize)
    (h : validateCommand (reread (newPreset sample id name args quantization)) = .ok ()) :
    validateCommand (reread (newPreset base id name args quantization)) = .ok () := by
  obtain ⟨hruntime, hvariant, hdraft, hsize⟩ := hlike
  have hhost := normalizeCommand_serverHost base
  have hquantization := normalizeCommand_kvCacheQuantization base
  rw [hsteady] at hhost hquantization
  refine valid_mix hbase h ?_ ?_ ?_ ?_ ?_ ?_ ?_ ?_ ?_ ?_ (.inr ?_) (.inr ?_) (.inr ?_)
  case refine_10 =>
    cases quantization with
    | some quantization => exact .inl rfl
    | none =>
      rw [reread_eq, normalizeCommand_kvCacheQuantization]
      exact .inr hquantization.symm
  all_goals simp only [reread_eq, normalizeCommand_id, normalizeCommand_name, normalizeCommand_runtime,
    normalizeCommand_runtimeVariant, normalizeCommand_draftModel, normalizeCommand_contextSize, normalizeCommand_extraArgs,
    normalizeCommand_serverHost, normalizeCommand_serverPort, normalizeCommand_gpuLayers, normalizeCommand_threads,
    normalizeCommand_mmapReserveGB, newPreset, hruntime, hvariant, hdraft, hsize, ← hhost]

theorem amdPreset_valid (now : Int) (h : validateCommand (reread (amdPreset sample 0)) = .ok ()) :
    validateCommand (reread (amdPreset base now)) = .ok () := by
  have hhost := normalizeCommand_serverHost base
  rw [hsteady] at hhost
  refine valid_mix hbase h ?_ ?_ ?_ ?_ ?_ ?_ ?_ ?_ ?_ (.inl ?_) (.inl ?_) (.inl ?_) (.inl ?_)
  all_goals simp only [reread_eq, normalizeCommand_id, normalizeCommand_name, normalizeCommand_runtime,
    normalizeCommand_runtimeVariant, normalizeCommand_draftModel, normalizeCommand_contextSize, normalizeCommand_extraArgs,
    normalizeCommand_serverHost, normalizeCommand_serverPort, normalizeCommand_gpuLayers, normalizeCommand_threads,
    normalizeCommand_mmapReserveGB, normalizeCommand_kvCacheQuantization, amdPreset, ← hhost]

end

section
variable (fallback : StoredCommand) (now : Int)

theorem baseCommand_runtime : (baseCommand fallback now).runtime = runtimeLlamaServer := by
  rw [baseCommand, normalizeCommand_runtime]
  exact (show (if trimSpace runtimeLlamaServer = "" then runtimeLlamaServer else trimSpace runtimeLlamaServer) =
    runtimeLlamaServer by decide)

theorem baseCommand_runtimeVariant : (baseCommand fallback now).runtimeVariant = "" := by
  rw [baseCommand, normalizeCommand_runtimeVariant]
  exact (show trimSpace "" = "" by decide)

theorem baseCommand_draftModel : (baseCommand fallback now).draftModel = "" := by
  rw [baseCommand, normalizeCommand_draftModel]
  exact (show trimSpace "" = "" by decide)

theorem baseCommand_contextSize : (baseCommand fallback now).contextSize = defaultContextSize := by
  rw [baseCommand, normalizeCommand_contextSize]

theorem sampleBase_like : (baseCommand fallback now).runtime = sampleBase.runtime ∧
    (baseCommand fallback now).runtimeVariant = sampleBase.runtimeVariant ∧
    (baseCommand fallback now).draftModel = sampleBase.draftModel ∧
    (baseCommand fallback now).contextSize = sampleBase.contextSize := by
  rw [sampleBase, baseCommand_runtime, baseCommand_runtime, baseCommand_runtimeVariant, baseCommand_runtimeVariant,
    baseCommand_draftModel, baseCommand_draftModel, baseCommand_contextSize, baseCommand_contextSize]
  exact ⟨rfl, rfl, rfl, rfl⟩

end

section
variable {fallback : StoredCommand} (hbase : validateCommand (baseCommand fallback now) = .ok ())
include hbase

theorem baseCommand_steady : normalizeCommand (baseCommand fallback now) = baseCommand fallback now :=
  normalizeCommand_idem hbase

theorem baseCommand_valid : validateCommand (reread (baseCommand fallback now)) = .ok () := valid_reread hbase

theorem presets_valid : ∀ preset ∈ presets (baseCommand fallback now) now, validateCommand (reread preset) = .ok () := by
  have hpreset := fun (id name : String) (args : List String) (quantization : Option String) =>
    newPreset_valid hbase (baseCommand_steady hbase) id name args quantization (sampleBase_like fallback now)
  have hamd : validateCommand (reread (amdPreset sampleBase 0)) = .ok () := by decide +kernel
  simp only [presets, List.forall_mem_cons, List.not_mem_nil, false_implies, implies_true, and_true]
  refine ⟨amdPreset_valid hbase (baseCommand_steady hbase) now hamd, hpreset _ _ _ _ ?_, hpreset _ _ _ _ ?_,
    hpreset _ _ _ _ ?_, hpreset _ _ _ _ ?_, hpreset _ _ _ _ ?_, mlxPreset_valid now ?_, mlxPreset_valid now ?_,
    mlxPreset_valid now ?_, mlxPreset_valid now ?_, mlxPreset_valid now ?_, mlxPreset_valid now ?_, mlxPreset_valid now ?_⟩
  all_goals decide +kernel

end

theorem presets_names (base : StoredCommand) (now : Int) :
    ∀ preset ∈ presets base now, trimSpace preset.id = preset.id ∧ trimSpace preset.name = preset.name := by
  have hids : (presets base now).map (·.id) = (presets sampleBase 0).map (·.id) := rfl
  have hnames : (presets base now).map (·.name) = (presets sampleBase 0).map (·.name) := rfl
  have hall : ((presets sampleBase 0).map (·.id)).all (fun id => trimSpace id = id) = true ∧
      ((presets sampleBase 0).map (·.name)).all (fun name => trimSpace name = name) = true := by decide +kernel
  rw [← hids, ← hnames] at hall
  intro preset hpreset
  exact ⟨of_decide_eq_true (List.all_eq_true.1 hall.1 _ (List.mem_map_of_mem hpreset)),
    of_decide_eq_true (List.all_eq_true.1 hall.2 _ (List.mem_map_of_mem hpreset))⟩

theorem Kept.addPresets {ids names : List String} (h : Kept m) (hids : ∀ c ∈ m, c.id ∈ ids)
    (hnames : ∀ c ∈ m, toLower c.name ∈ names) (hvalid : ∀ c ∈ l, validateCommand (reread c) = .ok ())
    (htrim : ∀ c ∈ l, trimSpace c.id = c.id ∧ trimSpace c.name = c.name) :
    Kept (m ++ missingPresets ids names l) := by
  induction l generalizing m ids names with
  | nil => simpa [missingPresets] using h
  | cons preset rest ih =>
    have hvalid' := fun c hc => hvalid c (List.mem_cons_of_mem preset hc)
    have htrim' := fun c hc => htrim c (List.mem_cons_of_mem preset hc)
    rw [missingPresets]
    split
    · exact ih h hids hnames hvalid' htrim'
    next hnew =>
      simp only [Bool.or_eq_true, List.contains_iff_mem, not_or] at hnew
      obtain ⟨hid, hname⟩ := htrim preset List.mem_cons_self
      have hconcat : Kept (m ++ [preset]) := by
        refine h.concat (hvalid preset List.mem_cons_self) hid hname (fun other hother heq => hnew.1 ?_)
          fun other hother heq => hnew.2 ?_
        · exact heq ▸ hids other hother
        · exact heq ▸ hnames other hother
      rw [← List.singleton_append, ← List.append_assoc]
      refine ih hconcat (fun c hc => ?_) (fun c hc => ?_) hvalid' htrim'
      · rcases List.mem_append.1 hc with hc | hc
        · exact List.mem_cons_of_mem _ (hids c hc)
        · exact List.mem_singleton.1 hc ▸ List.mem_cons_self
      · rcases List.mem_append.1 hc with hc | hc
        · exact List.mem_cons_of_mem _ (hnames c hc)
        · exact List.mem_singleton.1 hc ▸ List.mem_cons_self

theorem Kept.builtin {fallback : StoredCommand} (hbase : validateCommand (baseCommand fallback now) = .ok ()) :
    Kept (builtinCommands fallback now) where
  nonempty := by simp [builtinCommands]
  valid c hc := by
    rcases List.mem_cons.1 hc with rfl | hc
    · exact baseCommand_valid hbase
    · exact presets_valid hbase c hc
  ids c hc := by
    rcases List.mem_cons.1 hc with rfl | hc
    · exact trimSpace_trimSpace _
    · exact (presets_names _ _ c hc).1
  names c hc := by
    rcases List.mem_cons.1 hc with rfl | hc
    · exact trimSpace_trimSpace _
    · exact (presets_names _ _ c hc).2
  distinct := by
    have hfirst : (baseCommand fallback now).id = (baseCommand sampleBase 0).id ∧
        (baseCommand fallback now).name = (baseCommand sampleBase 0).name := by
      rw [baseCommand, baseCommand, normalizeCommand_id, normalizeCommand_id, normalizeCommand_name, normalizeCommand_name]
      exact ⟨rfl, rfl⟩
    have hrest : ∀ base base' : StoredCommand, (presets base now).map (·.id) = (presets base' 0).map (·.id) ∧
        (presets base now).map (·.name) = (presets base' 0).map (·.name) := fun _ _ => ⟨rfl, rfl⟩
    have hids : (builtinCommands fallback now).map (·.id) = (builtinCommands sampleBase 0).map (·.id) := by
      rw [builtinCommands, builtinCommands, List.map_cons, List.map_cons, hfirst.1, (hrest _ _).1]
    have hnames : (builtinCommands fallback now).map (·.name) = (builtinCommands sampleBase 0).map (·.name) := by
      rw [builtinCommands, builtinCommands, List.map_cons, List.map_cons, hfirst.2, (hrest _ _).2]
    have hdistinct : ((builtinCommands sampleBase 0).map (·.id)).Nodup ∧
        (((builtinCommands sampleBase 0).map (·.name)).map toLower).Nodup := by decide +kernel
    rw [← hids, ← hnames, List.map_map] at hdistinct
    exact hdistinct

/-! ## Migrating -/

/-- A command that a start reads as it is. -/
structure Steady (c : StoredCommand) : Prop where
  same : reread c = c
  valid : validateCommand c = .ok ()

theorem Steady.withContext (h : Steady c) (now : Int) :
    Steady { c with contextSize := defaultContextSize, updatedAt := now } where
  same := by
    have hsame := h.same
    rw [reread_eq] at hsame ⊢
    have hset : normalizeCommand { c with contextSize := defaultContextSize, updatedAt := now, clusterGGUFStrategy := "" } =
        { normalizeCommand { c with clusterGGUFStrategy := "" } with contextSize := defaultContextSize, updatedAt := now } := by
      simp only [normalizeCommand]
    exact hset.trans (congrArg (fun d : StoredCommand => { d with contextSize := defaultContextSize, updatedAt := now }) hsame)
  valid := by
    have hvalid := h.valid
    simp only [validateCommand, ite_error_ok] at hvalid ⊢
    obtain ⟨h1, h2, h3, h4, h5, h6, h7, h8, h9, -, hrest⟩ := hvalid
    have hsize : ¬ (decide (defaultContextSize < 128) || decide (1048576 < defaultContextSize)) = true := by decide
    exact ⟨h1, h2, h3, h4, h5, h6, h7, h8, h9, hsize, hrest⟩

theorem Steady.withMTP (h : Steady c) (now : Int) : Steady { c with extraArgs := presetMTPArguments, updatedAt := now } where
  same := by
    have hsame := h.same
    rw [reread_eq] at hsame ⊢
    have hargs : normalizedArguments presetMTPArguments = presetMTPArguments := by decide +kernel
    have hset : normalizeCommand { c with extraArgs := presetMTPArguments, updatedAt := now, clusterGGUFStrategy := "" } =
        { normalizeCommand { c with clusterGGUFStrategy := "" } with
          extraArgs := normalizedArguments presetMTPArguments, updatedAt := now } := by
      simp only [normalizeCommand, normalizedArguments]
    rw [hset, hargs]
    exact congrArg (fun d : StoredCommand => { d with extraArgs := presetMTPArguments, updatedAt := now }) hsame
  valid := by
    have hvalid := h.valid
    simp only [validateCommand, ite_error_ok] at hvalid ⊢
    have hargs : ¬ (!presetMTPArguments.all isOneLine) = true := by decide +kernel
    obtain ⟨h1, h2, h3, h4, h5, h6, h7, h8, h9, h10, h11, h12, h13, h14, -, hrest⟩ := hvalid
    exact ⟨h1, h2, h3, h4, h5, h6, h7, h8, h9, h10, h11, h12, h13, h14, hargs, hrest⟩

/-- From version 8 on a migration keeps ids and names. -/
theorem Steady.migrate (h : Steady c) (hversion : 8 ≤ version) (now : Int) :
    Steady (migrateCommand version now c) ∧ (migrateCommand version now c).id = c.id ∧
      (migrateCommand version now c).name = c.name := by
  have hstep : ∀ {p : Prop} [Decidable p] {d d' : StoredCommand}, (Steady d ∧ d.id = c.id ∧ d.name = c.name) →
      (Steady d → Steady d') → d'.id = d.id → d'.name = d.name →
      Steady (if p then d' else d) ∧ (if p then d' else d).id = c.id ∧ (if p then d' else d).name = c.name := by
    rintro p _ d d' ⟨hd, hid, hname⟩ hnext hid' hname'
    split
    · exact ⟨hnext hd, hid'.trans hid, hname'.trans hname⟩
    · exact ⟨hd, hid, hname⟩
  have h5 : ¬ version < 5 := by omega
  have h7 : ¬ version < 7 := by omega
  have h8 : ¬ version < 8 := by omega
  simp only [migrateCommand, h5, h7, h8, false_and, if_false]
  refine hstep (hstep (hstep ⟨h, rfl, rfl⟩ ?_ rfl rfl) ?_ rfl rfl) ?_ rfl rfl
  · exact fun hc => hc.withContext now
  · exact fun hc => hc.withMTP now
  · exact fun hc => hc.withMTP now

theorem Kept.migrate (h : Kept m) (hsteady : ∀ c ∈ m, Steady c) (hversion : 8 ≤ version) (now : Int) :
    Kept (m.map (migrateCommand version now)) ∧
      (m.map (migrateCommand version now)).map (·.id) = m.map (·.id) ∧
      (m.map (migrateCommand version now)).map (fun c => toLower c.name) = m.map fun c => toLower c.name := by
  have hids : (m.map (migrateCommand version now)).map (·.id) = m.map (·.id) := by
    rw [List.map_map]
    exact List.map_congr_left fun c hc => ((hsteady c hc).migrate hversion now).2.1
  have hnames : (m.map (migrateCommand version now)).map (fun c => toLower c.name) = m.map fun c => toLower c.name := by
    rw [List.map_map]
    exact List.map_congr_left fun c hc => congrArg toLower ((hsteady c hc).migrate hversion now).2.2
  refine ⟨⟨by simpa using h.nonempty, ?_, ?_, ?_, ?_⟩, hids, hnames⟩
  · intro c hc
    obtain ⟨given, hgiven, rfl⟩ := List.mem_map.1 hc
    have hmigrated := ((hsteady given hgiven).migrate hversion now).1
    exact hmigrated.same.symm ▸ hmigrated.valid
  · intro c hc
    obtain ⟨given, hgiven, rfl⟩ := List.mem_map.1 hc
    rw [((hsteady given hgiven).migrate hversion now).2.1]
    exact h.ids given hgiven
  · intro c hc
    obtain ⟨given, hgiven, rfl⟩ := List.mem_map.1 hc
    rw [((hsteady given hgiven).migrate hversion now).2.2]
    exact h.names given hgiven
  · rw [Distinct, hids, hnames]
    exact h.distinct

/-- What a start makes of a file of version 8 or later, or of none, is read back. -/
theorem settled_of_open {disk : CommandDisk} {fallback : StoredCommand} {w : CommandWorld}
    (hbase : validateCommand (baseCommand fallback now) = .ok ()) (hversion : ∀ data, disk = .file data → 8 ≤ data.version)
    (hopen : newCommandStore disk fallback now fault = .ok w) : ∃ m, w.Settled m := by
  cases disk with
  | missing =>
    simp only [newCommandStore] at hopen
    split at hopen
    · cases hopen
    · cases hopen
      exact ⟨_, settled_saved (Kept.builtin hbase)⟩
  | failed err =>
    simp only [newCommandStore] at hopen
    cases hopen
  | file data =>
    have hversion := hversion data rfl
    simp only [newCommandStore] at hopen
    split at hopen
    · cases hopen
    next hcurrent =>
      split at hopen
      · cases hopen
      next hnonempty =>
        split at hopen
        · cases hopen
        next commands hread =>
          obtain ⟨hcommands, hvalid, hdistinct⟩ := readCommands_ok (show Distinct [] from ⟨List.nodup_nil, List.nodup_nil⟩) hread
          rw [List.nil_append] at hcommands
          subst hcommands
          have hkept : Kept (data.commands.map (readCommand data.version)) := kept_readCommands hnonempty hvalid hdistinct
          have hsteady : ∀ c ∈ data.commands.map (readCommand data.version), Steady c := by
            intro c hc
            obtain ⟨given, hgiven, rfl⟩ := List.mem_map.1 hc
            exact ⟨reread_readCommand (hvalid given hgiven), hvalid given hgiven⟩
          split at hopen
          · split at hopen
            · cases hopen
            · cases hopen
              obtain ⟨hmigrated, hids, hnames⟩ := hkept.migrate hsteady hversion now
              refine ⟨_, settled_saved (hmigrated.addPresets (fun c hc => ?_) (fun c hc => ?_) (presets_valid hbase)
                (presets_names _ _))⟩
              · rw [← hids]
                exact List.mem_map_of_mem hc
              · rw [← hnames]
                exact List.mem_map_of_mem hc
          next hsame =>
            cases hopen
            have hv : data.version = currentCommandFileVersion := by omega
            obtain ⟨version, commands⟩ := data
            simp only at hv
            subst hv
            refine ⟨_, hkept, rfl, commands, rfl, ?_⟩
            rw [List.map_map]
            exact (List.map_congr_left fun c hc => reread_readCommand (hvalid c hc)).symm

def ownCommand : StoredCommand := mlxPreset 5 "own" " Own " "" ["--top-k", "20", "--kv-bits", "4"]

def earlierFile : CommandDisk := .file ⟨12, [ownCommand]⟩

def openedWorld : CommandWorld := (newCommandStore earlierFile sampleBase 6 none).toOption.getD ⟨.missing, none⟩

def storeCalls : List CommandCall :=
  [.create { ownCommand with name := "Other" } (.ok [1, 2]) 7 none, .update "own" { ownCommand with name := "OTHER" } 8 none,
    .update " mtp " { ownCommand with name := "Third" } 8 none, .delete "own" (some "disk full"), .restart sampleBase 9 none,
    .delete "own" none]

def changedWorld : CommandWorld := (storeCalls.foldlM CommandWorld.step openedWorld).getD ⟨.missing, none⟩

def clashingFile : CommandDisk :=
  .file ⟨7, [{ ownCommand with id := "mlx-dflash", name := "mine" }, { ownCommand with name := "MLX DFlash 1（Greedy，Block 5）" }]⟩

/-- Before version 8 a preset is given a new name, which another command may have. -/
theorem clashingFile_lost : ∃ w, newCommandStore clashingFile sampleBase 6 none = .ok w ∧
    newCommandStore w.disk sampleBase 7 none = .error "啟動參數名稱重複: MLX DFlash 1（Greedy，Block 5）" := by
  refine ⟨(newCommandStore clashingFile sampleBase 6 none).toOption.getD ⟨.missing, none⟩, ?_⟩
  decide +kernel

end Tanpopo.Models
