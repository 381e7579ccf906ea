import Tanpopo.Models.Startup
/-!
# The store of startup commands

The presets a model is started with. A change is written to the file before it
is kept in memory. Ids are trimmed wherever a request brings one.
-/

namespace Tanpopo.Models

open Go Download

structure StoredCommand extends StartupCommand where
  serverHost : String
  serverPort : Int
  gpuLayers : Int
  threads : Int
  mmapReserveGB : Int
  createdAt : Int
  updatedAt : Int
  deriving DecidableEq

/-! ## Checks -/

def managedKVCacheArguments : List String :=
  ["--cache-type-k", "-ctk", "--cache-type-v", "-ctv", "--kv-bits", "--kv-group-size", "--kv-scheme", "--quantized-kv-start"]

/-- The name of an argument, before an inline value. -/
def argumentName (argument : String) : String := String.ofList (argument.toList.takeWhile (· ≠ '='))

/-- Leave out the arguments of the KV cache with their values. -/
def withoutManagedKVCacheArguments : List String → List String
  | [] => []
  | [raw] => if managedKVCacheArguments.contains (trimSpace (argumentName (trimSpace raw))) then [] else [raw]
  | raw :: value :: rest =>
    let argument := trimSpace raw
    if !managedKVCacheArguments.contains (trimSpace (argumentName argument)) then
      raw :: withoutManagedKVCacheArguments (value :: rest)
    else if argument.toList.contains '=' then withoutManagedKVCacheArguments (value :: rest)
    else withoutManagedKVCacheArguments rest

def normalizeCommand (command : StoredCommand) : StoredCommand :=
  let runtime := trimSpace command.runtime
  let serverHost := trimSpace command.serverHost
  let quantization := toLower (trimSpace command.kvCacheQuantization)
  { command with
    id := trimSpace command.id
    name := trimSpace command.name
    runtime := if runtime = "" then runtimeLlamaServer else runtime
    runtimeVariant := trimSpace command.runtimeVariant
    kvCacheQuantization := if quantization = "" then "q4" else quantization
    draftModel := trimSpace command.draftModel
    serverHost := if serverHost = "" then "0.0.0.0" else serverHost
    extraArgs := withoutManagedKVCacheArguments ((command.extraArgs.map trimSpace).filter fun arg => arg ≠ "") }

def isIDChar (c : Char) : Bool := c.isLower || c.isDigit || c = '-' || c = '_'

def isOneLine (text : String) : Bool := !containsAny text "\x0d\n\x00"

def validateCommand (command : StoredCommand) : Except String Unit :=
  if command.id = "" || 64 < command.id.utf8ByteSize then .error "啟動參數 ID 格式錯誤"
  else if !command.id.toList.all isIDChar then .error "啟動參數 ID 僅可包含小寫英數字、連字號與底線"
  else if command.name = "" || 100 < command.name.length || !isOneLine command.name then
    .error "名稱不可為空、不可換行且最多 100 個字元"
  else if command.runtime ≠ runtimeLlamaServer && command.runtime ≠ runtimeMLXServer then
    .error "Runtime 僅支援 llama-server 或 mlx-server"
  else if command.runtimeVariant ≠ "" && (command.runtime ≠ runtimeLlamaServer || !isAMDRuntimeVariant command.runtimeVariant) then
    .error "不支援的 Runtime 版本"
  else if 1024 < command.draftModel.utf8ByteSize || !isOneLine command.draftModel then
    .error "Draft 模型不可換行且最多 1024 個字元"
  else if command.runtime = runtimeLlamaServer && command.draftModel ≠ "" && !equalFold (pathExt command.draftModel) ".gguf" then
    .error "Draft 模型必須是 .gguf 檔案"
  else if command.serverHost = "" || !isOneLine command.serverHost then .error "監聽 Host 格式錯誤"
  else if command.serverPort < 1 || 65535 < command.serverPort then .error "監聽 Port 必須介於 1 到 65535"
  else if command.contextSize < 128 || 1048576 < command.contextSize then .error "Context Size 必須介於 128 到 1048576"
  else if command.gpuLayers < -1 then .error "GPU Layers 不可小於 -1"
  else if command.threads < 0 then .error "Threads 不可小於 0"
  else if !([0, 4, 8, 16, 24, 32, 48, 64, 96, 128] : List Int).contains command.mmapReserveGB then
    .error "MMap 記憶體保留目標只支援自動、4、8、16、24、32、48、64、96 或 128 GB"
  else if command.kvCacheQuantization ≠ "q8" && command.kvCacheQuantization ≠ "q4" then
    .error "KV Cache 量化格式只支援 Q8 或 Q4"
  else if !command.extraArgs.all isOneLine then .error "額外參數不可包含換行或 NUL 字元"
  else .ok ()

def ensureUniqueName (commands : List StoredCommand) (name exceptID : String) : Except String Unit :=
  let nameKey := toLower (trimSpace name)
  if commands.any fun command => command.id ≠ exceptID && toLower command.name = nameKey then .error "啟動參數名稱不可重複"
  else .ok ()

/-! ## Changes -/

def errCommandNotFound : String := "找不到指定的啟動參數"

structure CommandStore where
  commands : List StoredCommand
  deriving DecidableEq

/-- `fault` is the error of the first file operation that fails. -/
def CommandStore.persist (s : CommandStore) (updated : List StoredCommand) (fault : Option String) :
    Except String Unit × CommandStore :=
  match fault with
  | some err => (.error err, s)
  | none => (.ok (), ⟨updated⟩)

/-- Trimmed, so that it also finds a command by an id with space around it. -/
def CommandStore.get (s : CommandStore) (id : String) : Except String StoredCommand :=
  match s.commands.find? fun command => command.id = trimSpace id with
  | none => .error errCommandNotFound
  | some command => .ok command

/-- `randomBytes` are those of `randomID`. -/
def CommandStore.create (s : CommandStore) (command : StoredCommand) (randomBytes : Except String (List UInt8)) (now : Int)
    (fault : Option String) : Except String StoredCommand × CommandStore :=
  match randomBytes with
  | .error err => (.error err, s)
  | .ok bytes =>
    let command := normalizeCommand { command with id := "profile-" ++ hexEncode bytes, createdAt := now, updatedAt := now }
    match validateCommand command with
    | .error err => (.error err, s)
    | .ok () =>
      match ensureUniqueName s.commands command.name "" with
      | .error err => (.error err, s)
      | .ok () =>
        match s.persist (s.commands ++ [command]) fault with
        | (.error err, s) => (.error err, s)
        | (.ok (), s) => (.ok command, s)

def CommandStore.update (s : CommandStore) (id : String) (command : StoredCommand) (now : Int) (fault : Option String) :
    Except String StoredCommand × CommandStore :=
  let id := trimSpace id
  match s.commands.findIdx? fun current => current.id = id with
  | none => (.error errCommandNotFound, s)
  | some index =>
    let createdAt := (s.commands[index]?.map StoredCommand.createdAt).getD 0
    let command := normalizeCommand { command with id, createdAt, updatedAt := now }
    match validateCommand command with
    | .error err => (.error err, s)
    | .ok () =>
      match ensureUniqueName s.commands command.name id with
      | .error err => (.error err, s)
      | .ok () =>
        match s.persist (s.commands.set index command) fault with
        | (.error err, s) => (.error err, s)
        | (.ok (), s) => (.ok command, s)

def CommandStore.delete (s : CommandStore) (id : String) (fault : Option String) : Except String Unit × CommandStore :=
  let id := trimSpace id
  if s.commands.length ≤ 1 then (.error "至少需要保留一組啟動參數", s)
  else if ¬ s.commands.any fun command => command.id = id then (.error errCommandNotFound, s)
  else s.persist (s.commands.filter fun command => command.id ≠ id) fault

/-! ## Which commands there are -/

/-- There is a command with this id. -/
def CommandStore.Has (s : CommandStore) (id : String) : Prop := ∃ command ∈ s.commands, command.id = id

instance (s : CommandStore) (id : String) : Decidable (s.Has id) :=
  inferInstanceAs (Decidable (∃ command ∈ s.commands, command.id = id))

section
variable {s : CommandStore} {id : String} {fault : Option String}

theorem persist_result (s : CommandStore) (updated : List StoredCommand) (fault : Option String) :
    (∃ err, s.persist updated fault = (.error err, s)) ∨ s.persist updated fault = (.ok (), ⟨updated⟩) := by
  cases fault with
  | none => exact .inr rfl
  | some err => exact .inl ⟨err, rfl⟩

/-- A new command takes none away. -/
theorem create_has (command : StoredCommand) (randomBytes : Except String (List UInt8)) (now : Int) (fault : Option String)
    (h : s.Has id) : (s.create command randomBytes now fault).2.Has id := by
  unfold CommandStore.create
  cases randomBytes with
  | error => exact h
  | ok bytes =>
    simp only
    split
    · exact h
    split
    · exact h
    rcases persist_result s (s.commands ++ [normalizeCommand
      { command with id := "profile-" ++ hexEncode bytes, createdAt := now, updatedAt := now }]) fault with ⟨err, heq⟩ | heq <;>
      rw [heq]
    · exact h
    · obtain ⟨found, hmem, hid⟩ := h
      exact ⟨found, List.mem_append_left _ hmem, hid⟩

/-- A changed command keeps its id. -/
theorem update_has (given : String) (command : StoredCommand) (now : Int) (fault : Option String) (h : s.Has id) :
    (s.update given command now fault).2.Has id := by
  unfold CommandStore.update
  simp only
  split
  · exact h
  · next index hindex =>
    split
    · exact h
    split
    · exact h
    generalize hnew : normalizeCommand { command with
      id := trimSpace given, createdAt := (s.commands[index]?.map StoredCommand.createdAt).getD 0, updatedAt := now } = new
    have hid : new.id = trimSpace given := by
      rw [← hnew]
      exact trimSpace_trimSpace given
    rcases persist_result s (s.commands.set index new) fault with ⟨err, heq⟩ | heq <;> rw [heq]
    · exact h
    · -- the command that is replaced has the id that was given
      obtain ⟨hlt, hold, -⟩ := List.findIdx?_eq_some_iff_getElem.1 hindex
      have hold := of_decide_eq_true hold
      obtain ⟨found, hmem, hfound⟩ := h
      obtain ⟨i, hi, rfl⟩ := List.getElem_of_mem hmem
      by_cases heqi : index = i
      · subst heqi
        exact ⟨new, List.mem_set hlt _, by rw [hid, ← hold, hfound]⟩
      · refine ⟨s.commands[i], ?_, hfound⟩
        exact List.mem_of_getElem? (i := i) (by rw [List.getElem?_set_ne heqi, List.getElem?_eq_getElem hi])

/-- A deletion that happens: there are others, the command exists, the file is written. -/
def CommandStore.Deletes (s : CommandStore) (id : String) (fault : Option String) : Prop :=
  1 < s.commands.length ∧ s.Has (trimSpace id) ∧ fault = none

theorem delete_cases (s : CommandStore) (id : String) (fault : Option String) :
    (¬ s.Deletes id fault ∧ (s.delete id fault).2 = s) ∨
    (s.Deletes id fault ∧ s.delete id fault = (.ok (), ⟨s.commands.filter fun command => command.id ≠ trimSpace id⟩)) := by
  have hany : (s.commands.any fun command => command.id = trimSpace id) = true ↔ s.Has (trimSpace id) := by
    simp only [List.any_eq_true, decide_eq_true_eq, CommandStore.Has]
  unfold CommandStore.delete CommandStore.Deletes
  simp only
  by_cases hlength : s.commands.length ≤ 1
  · rw [if_pos hlength]
    exact .inl ⟨fun h => Nat.not_lt.2 hlength h.1, rfl⟩
  rw [if_neg hlength]
  by_cases hhas : s.Has (trimSpace id)
  · rw [if_neg (not_not.2 (hany.2 hhas))]
    cases fault with
    | none => exact .inr ⟨⟨Nat.lt_of_not_le hlength, hhas, rfl⟩, rfl⟩
    | some err => exact .inl ⟨fun h => (nomatch h.2.2), rfl⟩
  · rw [if_pos fun h => hhas (hany.1 h)]
    exact .inl ⟨fun h => hhas h.2.1, rfl⟩

theorem has_filter (s : CommandStore) (id other : String) :
    (CommandStore.mk (s.commands.filter fun command => command.id ≠ other)).Has id ↔ s.Has id ∧ id ≠ other := by
  constructor
  · rintro ⟨command, hmem, rfl⟩
    obtain ⟨hmem, hne⟩ := List.mem_filter.1 hmem
    exact ⟨⟨command, hmem, rfl⟩, of_decide_eq_true hne⟩
  · rintro ⟨⟨command, hmem, rfl⟩, hne⟩
    exact ⟨command, List.mem_filter.2 ⟨hmem, decide_eq_true hne⟩, rfl⟩

end
end Tanpopo.Models
