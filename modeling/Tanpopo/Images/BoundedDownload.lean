import Tanpopo.Lib.Runs
/-!
# Bounded downloads of images

The caller of `load`, the cancellation handler and the delegate of the URL
session share one download. Each takes its lock for one section at a time, and
the sections of the three come in any order. `download_completes_once` says what
holds in every state they can reach.
-/

namespace Tanpopo.Images

abbrev Data := List UInt8

inductive Failure where
  | invalidImageURL (message : String)
  | imageTooLarge
  | cancellation
  | transport (message : String)
  deriving DecidableEq

/-! ## Where images may come from -/

/-- The parts of a URL that `validate` reads. -/
structure URL where
  scheme : Option String
  host : Option String
  user : Option String
  password : Option String
  port : Option Int
  deriving DecidableEq

/-- `lowercased` and the set of allowed origins, as Foundation and Swift have them. -/
structure Origins where
  lowercased : String → String
  allowed : String → Bool

def unauthorized : Failure := .invalidImageURL "圖片來源未授權；請使用 data URL，或由管理者設定 --image-allowed-origin。"

def validate (origins : Origins) (url : URL) : Except Failure Unit :=
  if url.scheme.map origins.lowercased ≠ some "https" then .error unauthorized
  else
    match url.host.map origins.lowercased with
    | none => .error unauthorized
    | some host =>
      if url.user = none ∧ url.password = none ∧ origins.allowed ("https://" ++ host ++ ":" ++ toString (url.port.getD 443)) then .ok ()
      else .error unauthorized

/-! ## The download -/

/-- A response; one that is not of HTTP has no status code. -/
structure URLResponse where
  statusCode : Option Int
  expectedContentLength : Int
  deriving DecidableEq

def URLResponse.isSuccess (r : URLResponse) : Bool := r.statusCode.any fun code => 200 ≤ code && code ≤ 299

/-- Where a call of `finish` is: before its section, or after it with what it took there. -/
inductive Finish where
  | entering (result : Except Failure Data)
  | leaving (session continuation : Bool) (result : Except Failure Data)

/-- The body of `withCheckedThrowingContinuation`. -/
inductive Loader where
  | ready
  | throwing
  | returned
  deriving DecidableEq

/-- The serial queue of the delegate, and where the callback on it is. -/
inductive Delegate where
  | idle
  | receiving (chunk : Data)
  | reading
  | finishing (f : Finish)

structure BoundedImageDownload where
  finished : Bool
  continuation : Bool
  session : Bool
  buffer : Data
  -- the parties
  loader : Loader
  cancelled : Bool
  canceller : Option Finish
  delegate : Delegate
  -- the URL session
  started : Bool
  allowed : Bool
  refused : Bool
  invalidated : Bool
  completed : Bool
  -- what has happened
  requested : List URL
  responses : List URLResponse
  received : List Data
  resumed : List (Except Failure Data)

def Finish.result : Finish → Except Failure Data
  | .entering result => result
  | .leaving _ _ result => result

/-- A call that has taken the continuation is about to resume it. -/
def Finish.token : Finish → Nat
  | .entering _ => 0
  | .leaving _ continuation _ => continuation.toNat

def Delegate.token : Delegate → Nat
  | .idle => 0
  | .receiving _ => 0
  | .reading => 0
  | .finishing f => f.token

def Loader.token : Loader → Nat
  | .ready => 0
  | .throwing => 1
  | .returned => 0

namespace BoundedImageDownload

def init : BoundedImageDownload where
  finished := false
  continuation := false
  session := false
  buffer := []
  loader := .ready
  cancelled := false
  canceller := none
  delegate := .idle
  started := false
  allowed := false
  refused := false
  invalidated := false
  completed := false
  requested := []
  responses := []
  received := []
  resumed := []

variable (s : BoundedImageDownload)

/-- The section of `finish`, and what it does after it. -/
def finish : Finish → BoundedImageDownload × Option Finish
  | .entering result =>
    if s.finished then (s, none)
    else
      ({ s with finished := true, continuation := false, session := false, buffer := [] },
        some (.leaving s.session s.continuation result))
  | .leaving session continuation result =>
    ({ s with
        invalidated := s.invalidated || session
        resumed := if continuation then s.resumed ++ [result] else s.resumed }, none)

/-- The callbacks of the URL session. -/
inductive Callback where
  | didReceiveResponse (response : URLResponse)
  | didReceiveData (chunk : Data)
  | didComplete (error : Option Failure)
  | willPerformHTTPRedirection (url : Option URL)

inductive Move where
  | load
  | cancel
  | canceller
  | callback (c : Callback)
  | delegate

variable (origins : Origins) (maximumBytes : Nat) (url : URL)

/-- What the URL session may deliver: data and an end without error only where a response was
allowed and none was refused, and nothing once it has completed. -/
def delivers : Callback → Bool
  | .didReceiveResponse _ => s.started && !s.completed && !s.refused
  | .didReceiveData _ => s.started && !s.completed && s.allowed && !s.refused
  | .didComplete none => s.started && !s.completed && s.allowed && !s.refused
  | .didComplete (some _) => s.started && !s.completed
  | .willPerformHTTPRedirection _ => s.started && !s.completed

/-- A callback up to its first section. -/
def called : Callback → BoundedImageDownload
  | .didReceiveResponse response =>
    let s := { s with responses := s.responses ++ [response] }
    if !response.isSuccess then
      { s with refused := true, delegate := .finishing (.entering (.error (.invalidImageURL "圖片伺服器未回傳成功狀態"))) }
    else if response.expectedContentLength > maximumBytes then
      { s with refused := true, delegate := .finishing (.entering (.error .imageTooLarge)) }
    else { s with allowed := true }
  | .didReceiveData chunk => { s with received := s.received ++ [chunk], delegate := .receiving chunk }
  | .didComplete (some error) => { s with completed := true, delegate := .finishing (.entering (.error error)) }
  | .didComplete none => { s with completed := true, delegate := .reading }
  | .willPerformHTTPRedirection none =>
    { s with delegate := .finishing (.entering (.error (.invalidImageURL "無效的圖片重新導向"))) }
  | .willPerformHTTPRedirection (some url) =>
    match validate origins url with
    | .ok () => { s with requested := s.requested ++ [url] }
    | .error error => { s with delegate := .finishing (.entering (.error error)) }

/-- The next section of the callback on the queue. -/
def delegateStep : Option BoundedImageDownload :=
  match s.delegate with
  | .idle => none
  | .receiving chunk =>
    if s.finished then some { s with delegate := .idle }
    else if (chunk.length : Int) > maximumBytes - s.buffer.length then
      some { s with delegate := .finishing (.entering (.error .imageTooLarge)) }
    else some { s with buffer := s.buffer ++ chunk, delegate := .idle }
  | .reading => some { s with delegate := .finishing (.entering (.ok s.buffer)) }
  | .finishing f =>
    match s.finish f with
    | (s, some f) => some { s with delegate := .finishing f }
    | (s, none) => some { s with delegate := .idle }

def loadStep : Option BoundedImageDownload :=
  match s.loader with
  | .ready =>
    if s.finished then some { s with loader := .throwing }
    else some { s with continuation := true, session := true, started := true, requested := s.requested ++ [url], loader := .returned }
  | .throwing => some { s with resumed := s.resumed ++ [.error .cancellation], loader := .returned }
  | .returned => none

def next : Move → Option BoundedImageDownload
  | .load => s.loadStep url
  | .cancel => if s.cancelled then none else some { s with cancelled := true, canceller := some (.entering (.error .cancellation)) }
  | .canceller => s.canceller.map fun f => { (s.finish f).1 with canceller := (s.finish f).2 }
  | .callback c =>
    match s.delegate with
    | .idle => if s.delivers c then some (s.called origins maximumBytes c) else none
    | _ => none
  | .delegate => s.delegateStep maximumBytes

/-- `load` up to its continuation. -/
def load : Except Failure BoundedImageDownload :=
  match validate origins url with
  | .ok () => .ok init
  | .error error => .error error

/-- No party has a section before it, and a task that was started has completed. -/
def Settled : Prop := s.loader = .returned ∧ s.canceller = none ∧ s.delegate = .idle ∧ (s.started = true → s.completed = true)

/-! ## The continuation -/

/-- How often the continuation is still to be resumed, or has been. -/
def tokens : Nat :=
  s.continuation.toNat + (s.canceller.elim 0 Finish.token) + s.delegate.token + s.loader.token + s.resumed.length

/-- Once the continuation exists, it is in one place. -/
structure Once : Prop where
  held : s.tokens = if s.loader = .ready then 0 else 1
  waiting : s.finished = false → s.loader ≠ .ready → s.continuation = true
  finished : s.finished = true → s.continuation = false
  throwing : s.loader = .throwing → s.finished = true
  ready : s.loader = .ready → s.started = false
  completed : s.completed = true →
    s.finished = true ∨ s.delegate = .reading ∨ ∃ result, s.delegate = .finishing (.entering result)
  unstarted : s.started = false → s.completed = false ∧ s.delegate = .idle
  returned : s.loader = .returned → s.finished = true ∨ s.started = true
  uncancelled : s.cancelled = false → s.canceller = none
  left : ∀ session continuation result, s.delegate = .finishing (.leaving session continuation result) → s.finished = true

variable {s}

/-- What `finish` does at either of its places. -/
theorem finish_cases (f : Finish) :
    (∃ result, f = .entering result ∧ s.finished = true ∧ s.finish f = (s, none)) ∨
      (∃ result, f = .entering result ∧ s.finished = false ∧
        s.finish f = ({ s with finished := true, continuation := false, session := false, buffer := [] },
          some (.leaving s.session s.continuation result))) ∨
      ∃ session continuation result, f = .leaving session continuation result ∧
        s.finish f = ({ s with
          invalidated := s.invalidated || session
          resumed := if continuation then s.resumed ++ [result] else s.resumed }, none) := by
  cases f with
  | entering result =>
    cases hfinished : s.finished with
    | true => exact .inl ⟨result, rfl, rfl, by simp [finish, hfinished]⟩
    | false => exact .inr (.inl ⟨result, rfl, rfl, by simp [finish, hfinished]⟩)
  | leaving session continuation result => exact .inr (.inr ⟨session, continuation, result, rfl, rfl⟩)

theorem once_init : init.Once := by constructor <;> simp [init, tokens, Delegate.token, Loader.token]

theorem Once.load {s' : BoundedImageDownload} (h : s.Once) (hstep : s.loadStep url = some s') : s'.Once := by
  obtain ⟨hheld, hwaiting, hfinished, hthrowing, hready, hcompleted, hunstarted, hreturned, huncancelled, hleft⟩ := h
  rw [tokens] at hheld
  unfold loadStep at hstep
  cases hloader : s.loader with
  | ready =>
    rw [hloader, Loader.token, if_pos rfl] at hheld
    rw [hloader] at hstep
    cases hf : s.finished with
    | true =>
      -- cancelled before there was a continuation
      rw [hf] at hstep
      obtain rfl := Option.some.inj hstep
      constructor <;> simp_all [tokens, Loader.token]
    | false =>
      rw [hf] at hstep
      obtain rfl := Option.some.inj hstep
      constructor <;> simp_all [tokens, Loader.token]
  | throwing =>
    rw [hloader, Loader.token, if_neg (by simp)] at hheld
    rw [hloader] at hstep
    obtain rfl := Option.some.inj hstep
    have hfin := hthrowing hloader
    constructor <;> simp_all [tokens, Loader.token]
    omega
  | returned =>
    rw [hloader] at hstep
    cases hstep

/-- A party that calls `finish` holds what it takes, until it resumes it. -/
theorem finish_tokens (f : Finish) :
    (s.finish f).1.continuation.toNat + (s.finish f).2.elim 0 Finish.token + (s.finish f).1.resumed.length =
      s.continuation.toNat + f.token + s.resumed.length := by
  rcases finish_cases (s := s) f with ⟨result, rfl, -, heq⟩ | ⟨result, rfl, -, heq⟩ | ⟨session, continuation, result, rfl, heq⟩
  · rw [heq]
    rfl
  · rw [heq]
    simp [Finish.token]
  · rw [heq]
    cases continuation
    · simp [Finish.token]
    · simp [Finish.token]
      omega

theorem Once.canceller {s' : BoundedImageDownload} (h : s.Once)
    (hstep : (s.canceller.map fun f => { (s.finish f).1 with canceller := (s.finish f).2 }) = some s') : s'.Once := by
  obtain ⟨f, hf, rfl⟩ := Option.map_eq_some_iff.1 hstep
  obtain ⟨hheld, hwaiting, hfinished, hthrowing, hready, hcompleted, hunstarted, hreturned, huncancelled, hleft⟩ := h
  have htokens := finish_tokens (s := s) f
  rw [tokens, hf, Option.elim_some] at hheld
  rcases finish_cases (s := s) f with ⟨result, rfl, hfin, heq⟩ | ⟨result, rfl, hfin, heq⟩ | ⟨session, continuation, result, rfl, heq⟩
  · rw [heq] at htokens ⊢
    constructor <;> simp_all [tokens, Finish.token]
  · rw [heq] at htokens ⊢
    constructor <;> simp_all [tokens, Finish.token]
  · rw [heq] at htokens ⊢
    constructor <;> simp_all [tokens, Finish.token]
    omega

theorem Once.cancel {s' : BoundedImageDownload} (h : s.Once)
    (hstep : (if s.cancelled then none
      else some { s with cancelled := true, canceller := some (.entering (.error .cancellation)) }) = some s') : s'.Once := by
  obtain ⟨hheld, hwaiting, hfinished, hthrowing, hready, hcompleted, hunstarted, hreturned, huncancelled, hleft⟩ := h
  cases hc : s.cancelled with
  | true =>
    rw [hc] at hstep
    cases hstep
  | false =>
    rw [hc] at hstep
    obtain rfl := Option.some.inj hstep
    rw [tokens, huncancelled hc] at hheld
    constructor <;> simp_all [tokens, Finish.token]

/-- What the queue's sections do. -/
theorem delegateStep_cases {s' : BoundedImageDownload} (hstep : s.delegateStep maximumBytes = some s') :
    (∃ chunk, s.delegate = .receiving chunk ∧ s.finished = true ∧ s' = { s with delegate := .idle }) ∨
      (∃ chunk, s.delegate = .receiving chunk ∧ s.finished = false ∧
        s' = { s with delegate := .finishing (.entering (.error .imageTooLarge)) }) ∨
      (∃ chunk, s.delegate = .receiving chunk ∧ s.finished = false ∧ (chunk.length : Int) ≤ maximumBytes - s.buffer.length ∧
        s' = { s with buffer := s.buffer ++ chunk, delegate := .idle }) ∨
      (s.delegate = .reading ∧ s' = { s with delegate := .finishing (.entering (.ok s.buffer)) }) ∨
      (∃ result, s.delegate = .finishing (.entering result) ∧ s.finished = true ∧ s' = { s with delegate := .idle }) ∨
      (∃ result, s.delegate = .finishing (.entering result) ∧ s.finished = false ∧
        s' = { s with
          finished := true, continuation := false, session := false, buffer := []
          delegate := .finishing (.leaving s.session s.continuation result) }) ∨
      ∃ session continuation result, s.delegate = .finishing (.leaving session continuation result) ∧
        s' = { s with
          invalidated := s.invalidated || session
          resumed := if continuation then s.resumed ++ [result] else s.resumed
          delegate := .idle } := by
  unfold delegateStep at hstep
  cases hd : s.delegate with
  | idle =>
    rw [hd] at hstep
    cases hstep
  | receiving chunk =>
    simp only [hd] at hstep
    split at hstep
    · rename_i hfin
      exact .inl ⟨chunk, rfl, hfin, (Option.some.inj hstep).symm⟩
    · rename_i hfin
      rw [Bool.not_eq_true] at hfin
      split at hstep
      · exact .inr (.inl ⟨chunk, rfl, hfin, (Option.some.inj hstep).symm⟩)
      · rename_i hfits
        exact .inr (.inr (.inl ⟨chunk, rfl, hfin, Int.not_lt.1 hfits, (Option.some.inj hstep).symm⟩))
  | reading =>
    rw [hd] at hstep
    exact .inr (.inr (.inr (.inl ⟨rfl, (Option.some.inj hstep).symm⟩)))
  | finishing f =>
    simp only [hd] at hstep
    rcases finish_cases (s := s) f with ⟨result, rfl, hfin, heq⟩ | ⟨result, rfl, hfin, heq⟩ | ⟨session, continuation, result, rfl, heq⟩
    · rw [heq] at hstep
      exact .inr (.inr (.inr (.inr (.inl ⟨result, rfl, hfin, (Option.some.inj hstep).symm⟩))))
    · rw [heq] at hstep
      exact .inr (.inr (.inr (.inr (.inr (.inl ⟨result, rfl, hfin, (Option.some.inj hstep).symm⟩)))))
    · rw [heq] at hstep
      exact .inr (.inr (.inr (.inr (.inr (.inr ⟨session, continuation, result, rfl, (Option.some.inj hstep).symm⟩)))))

theorem Once.delegate {s' : BoundedImageDownload} (h : s.Once) (hstep : s.delegateStep maximumBytes = some s') : s'.Once := by
  obtain ⟨hheld, hwaiting, hfinished, hthrowing, hready, hcompleted, hunstarted, hreturned, huncancelled, hleft⟩ := h
  rw [tokens] at hheld
  rcases delegateStep_cases maximumBytes hstep with ⟨chunk, hd, hfin, rfl⟩ | ⟨chunk, hd, hfin, rfl⟩ | ⟨chunk, hd, hfin, -, rfl⟩ | ⟨hd, rfl⟩ |
    ⟨result, hd, hfin, rfl⟩ | ⟨result, hd, hfin, rfl⟩ | ⟨session, continuation, result, hd, rfl⟩ <;> rw [hd, Delegate.token] at hheld
  · constructor <;> simp_all [tokens, Delegate.token]
  · constructor <;> simp_all [tokens, Delegate.token, Finish.token]
  · constructor <;> simp_all [tokens, Delegate.token]
  · constructor <;> simp_all [tokens, Delegate.token, Finish.token]
  · constructor <;> simp_all [tokens, Delegate.token, Finish.token]
  · -- The continuation moves from the state to the queue.
    constructor <;> simp_all [tokens, Delegate.token, Finish.token]
    omega
  · -- The queue resumes the continuation, if it took it.
    have hfin := hleft session continuation result hd
    cases continuation
    · constructor <;> simp_all [tokens, Delegate.token, Finish.token]
    · have hne : s.loader ≠ .ready := by
        intro hready'
        rw [(hunstarted (hready hready')).2] at hd
        cases hd
      rw [if_neg hne, hfinished hfin] at hheld
      simp only [Finish.token, Bool.toNat_true, Bool.toNat_false, Nat.zero_add] at hheld
      constructor <;> simp_all [tokens, Delegate.token]
      omega

/-- A callback is delivered to a queue that is idle, and takes nothing. -/
theorem Once.called (h : s.Once) {c : Callback} (hidle : s.delegate = .idle) (hdelivers : s.delivers c = true) :
    (s.called origins maximumBytes c).Once := by
  have hstarted : s.started = true ∧ s.completed = false := by
    cases c with
    | didComplete error => cases error <;> simp_all [delivers]
    | _ => simp_all [delivers]
  obtain ⟨hstarted, hopen⟩ := hstarted
  obtain ⟨hheld, hwaiting, hfinished, hthrowing, hready, hcompleted, hunstarted, hreturned, huncancelled, hleft⟩ := h
  rw [tokens, hidle, Delegate.token] at hheld
  cases c with
  | didReceiveResponse response =>
    simp only [BoundedImageDownload.called]
    split
    · constructor <;> simp_all [tokens, Delegate.token, Finish.token]
    · split
      · constructor <;> simp_all [tokens, Delegate.token, Finish.token]
      · constructor <;> simp_all [tokens, Delegate.token]
  | didReceiveData chunk => constructor <;> simp_all [BoundedImageDownload.called, tokens, Delegate.token]
  | didComplete error =>
    cases error with
    | none => constructor <;> simp_all [BoundedImageDownload.called, tokens, Delegate.token]
    | some error => constructor <;> simp_all [BoundedImageDownload.called, tokens, Delegate.token, Finish.token]
  | willPerformHTTPRedirection target =>
    cases target with
    | none => constructor <;> simp_all [BoundedImageDownload.called, tokens, Delegate.token, Finish.token]
    | some target =>
      simp only [BoundedImageDownload.called]
      split
      · constructor <;> simp_all [tokens, Delegate.token]
      · constructor <;> simp_all [tokens, Delegate.token, Finish.token]

/-! ## The data -/

/-- These are all chunks that were received, within the bound, after a successful response. -/
def Complete (s : BoundedImageDownload) (data : Data) : Prop :=
  s.completed = true ∧ data = s.received.flatten ∧ data.length ≤ maximumBytes ∧ ∃ response ∈ s.responses, response.isSuccess = true

structure Faithful (s : BoundedImageDownload) : Prop where
  bound : s.buffer.length ≤ maximumBytes
  kept : s.finished = false → s.delegate = .idle ∨ s.delegate = .reading → s.buffer = s.received.flatten
  receiving : ∀ chunk, s.finished = false → s.delegate = .receiving chunk → s.buffer ++ chunk = s.received.flatten
  allowed : s.allowed = true → ∃ response ∈ s.responses, response.isSuccess = true
  reading : s.delegate = .reading → s.completed = true ∧ s.allowed = true
  entering : ∀ data, s.finished = false → s.delegate = .finishing (.entering (.ok data)) → s.Complete maximumBytes data
  leaving : ∀ session continuation data, s.delegate = .finishing (.leaving session continuation (.ok data)) →
    s.Complete maximumBytes data
  cancelling : ∀ f, s.canceller = some f → f.result = .error .cancellation
  resumed : ∀ data, .ok data ∈ s.resumed → s.Complete maximumBytes data
  asked : ∀ url ∈ s.requested, validate origins url = .ok ()

theorem faithful_init : (init).Faithful origins maximumBytes := by constructor <;> simp [init]

section
variable {origins : Origins} {maximumBytes : Nat} {url : URL} {s' : BoundedImageDownload} (h : s.Faithful origins maximumBytes)
include h

theorem Faithful.load (hurl : validate origins url = .ok ()) (hstep : s.loadStep url = some s') :
    s'.Faithful origins maximumBytes := by
  obtain ⟨hbound, hkept, hreceiving, hallowed, hreading, hentering, hleaving, hcancelling, hresumed, hasked⟩ := h
  unfold loadStep at hstep
  split at hstep
  · split at hstep
    · obtain rfl := Option.some.inj hstep
      exact ⟨hbound, hkept, hreceiving, hallowed, hreading, hentering, hleaving, hcancelling, hresumed, hasked⟩
    · obtain rfl := Option.some.inj hstep
      refine ⟨hbound, hkept, hreceiving, hallowed, hreading, hentering, hleaving, hcancelling, hresumed, fun u hu => ?_⟩
      rcases List.mem_append.1 hu with hu | hu
      · exact hasked u hu
      · rw [List.mem_singleton.1 hu, hurl]
  · obtain rfl := Option.some.inj hstep
    refine ⟨hbound, hkept, hreceiving, hallowed, hreading, hentering, hleaving, hcancelling, fun data hdata => ?_, hasked⟩
    rcases List.mem_append.1 hdata with hdata | hdata
    · exact hresumed data hdata
    · cases List.mem_singleton.1 hdata
  · cases hstep

theorem Faithful.canceller
    (hstep : (s.canceller.map fun f => { (s.finish f).1 with canceller := (s.finish f).2 }) = some s') :
    s'.Faithful origins maximumBytes := by
  obtain ⟨f, hf, rfl⟩ := Option.map_eq_some_iff.1 hstep
  obtain ⟨hbound, hkept, hreceiving, hallowed, hreading, hentering, hleaving, hcancelling, hresumed, hasked⟩ := h
  have hresult := hcancelling f hf
  rcases finish_cases (s := s) f with ⟨result, rfl, hfin, heq⟩ | ⟨result, rfl, hfin, heq⟩ | ⟨session, continuation, result, rfl, heq⟩
  · rw [heq]
    exact ⟨hbound, hkept, hreceiving, hallowed, hreading, hentering, hleaving, by simp, hresumed, hasked⟩
  · rw [heq]
    refine ⟨Nat.zero_le _, by simp, by simp, hallowed, hreading, by simp, hleaving, ?_, hresumed, hasked⟩
    intro f hf
    obtain rfl := Option.some.inj hf
    exact hresult
  · rw [heq]
    refine ⟨hbound, hkept, hreceiving, hallowed, hreading, hentering, hleaving, by simp, fun data hdata => ?_, hasked⟩
    cases continuation with
    | false => exact hresumed data hdata
    | true =>
      rcases List.mem_append.1 hdata with hdata | hdata
      · exact hresumed data hdata
      · rw [← List.mem_singleton.1 hdata] at hresult
        cases hresult

theorem Faithful.delegate (hs : s.Once) (hstep : s.delegateStep maximumBytes = some s') : s'.Faithful origins maximumBytes := by
  obtain ⟨hbound, hkept, hreceiving, hallowed, hreading, hentering, hleaving, hcancelling, hresumed, hasked⟩ := h
  rcases delegateStep_cases maximumBytes hstep with ⟨chunk, hd, hfin, rfl⟩ | ⟨chunk, hd, hfin, rfl⟩ | ⟨chunk, hd, hfin, hfits, rfl⟩ |
    ⟨hd, rfl⟩ | ⟨result, hd, hfin, rfl⟩ | ⟨result, hd, hfin, rfl⟩ | ⟨session, continuation, result, hd, rfl⟩
  · exact ⟨hbound, by simp [hfin], by simp, hallowed, by simp, by simp, by simp, hcancelling, hresumed, hasked⟩
  · exact ⟨hbound, by simp, by simp, hallowed, by simp, by simp, by simp, hcancelling, hresumed, hasked⟩
  · -- The chunk is within the bound.
    have hflatten := hreceiving chunk hfin hd
    refine ⟨?_, fun _ _ => hflatten, by simp, hallowed, by simp, by simp, by simp, hcancelling, hresumed, hasked⟩
    rw [List.length_append]
    omega
  · -- All chunks are in the buffer that is read.
    obtain ⟨hcompleted, hok⟩ := hreading hd
    refine ⟨hbound, by simp, by simp, hallowed, by simp, ?_, by simp, hcancelling, hresumed, hasked⟩
    rintro data hfin heq
    cases heq
    exact ⟨hcompleted, hkept hfin (.inr hd), hbound, hallowed hok⟩
  · exact ⟨hbound, by simp [hfin], by simp, hallowed, by simp, by simp, by simp, hcancelling, hresumed, hasked⟩
  · refine ⟨Nat.zero_le _, by simp, by simp, hallowed, by simp, by simp, ?_, hcancelling, hresumed, hasked⟩
    rintro session continuation data heq
    cases heq
    exact hentering data hfin hd
  · have hfin := hs.left session continuation result hd
    refine ⟨hbound, by simp [hfin], by simp, hallowed, by simp, by simp, by simp, hcancelling, fun data hdata => ?_, hasked⟩
    cases continuation with
    | false => exact hresumed data hdata
    | true =>
      rcases List.mem_append.1 hdata with hdata | hdata
      · exact hresumed data hdata
      · rw [← List.mem_singleton.1 hdata] at hd
        exact hleaving session true data hd

/-- Nothing has completed yet when a callback is delivered, so no data is final. -/
theorem Faithful.called {c : Callback} (hidle : s.delegate = .idle) (hdelivers : s.delivers c = true) :
    (s.called origins maximumBytes c).Faithful origins maximumBytes := by
  obtain ⟨hbound, hkept, hreceiving, hallowed, hreading, hentering, hleaving, hcancelling, hresumed, hasked⟩ := h
  -- The session delivers nothing after its completion.
  have hopen : s.completed = false := by
    cases c with
    | didComplete error => cases error <;> simp_all [delivers]
    | _ => simp_all [delivers]
  have hnone : ∀ data, .ok data ∉ s.resumed := fun data hdata => by
    rw [(hresumed data hdata).1] at hopen
    cases hopen
  have hbuffer : s.finished = false → s.buffer = s.received.flatten := fun hfin => hkept hfin (.inl hidle)
  cases c with
  | didReceiveResponse response =>
    -- A response that allowed the transfer stays among those received.
    have hmore : s.allowed = true → ∃ r ∈ s.responses ++ [response], r.isSuccess = true := fun hok =>
      (hallowed hok).imp fun r hr => ⟨List.mem_append_left _ hr.1, hr.2⟩
    simp only [BoundedImageDownload.called]
    split
    · exact ⟨hbound, by simp, by simp, hmore, by simp, by simp, by simp, hcancelling, fun data hdata => absurd hdata (hnone data), hasked⟩
    · rename_i hsuccess
      split
      · exact ⟨hbound, by simp, by simp, hmore, by simp, by simp, by simp, hcancelling, fun data hdata => absurd hdata (hnone data), hasked⟩
      · refine ⟨hbound, fun hfin _ => hbuffer hfin, by simp [hidle], fun _ => ?_, by simp [hidle], by simp [hidle], by simp [hidle],
          hcancelling, fun data hdata => absurd hdata (hnone data), hasked⟩
        exact ⟨response, List.mem_append_right _ (List.mem_singleton_self _), by simpa using hsuccess⟩
  | didReceiveData chunk =>
    refine ⟨hbound, by simp [BoundedImageDownload.called], ?_, hallowed, by simp [BoundedImageDownload.called],
      by simp [BoundedImageDownload.called], by simp [BoundedImageDownload.called], hcancelling,
      fun data hdata => absurd hdata (hnone data), hasked⟩
    rintro chunk' hfin heq
    cases heq
    show s.buffer ++ chunk = (s.received ++ [chunk]).flatten
    rw [hbuffer hfin, List.flatten_append, List.flatten_singleton]
  | didComplete error =>
    cases error with
    | none =>
      have hok : s.allowed = true := by simp_all [delivers]
      exact ⟨hbound, fun hfin _ => hbuffer hfin, by simp [BoundedImageDownload.called], hallowed, fun _ => ⟨rfl, hok⟩,
        by simp [BoundedImageDownload.called], by simp [BoundedImageDownload.called], hcancelling,
        fun data hdata => absurd hdata (hnone data), hasked⟩
    | some error =>
      exact ⟨hbound, by simp [BoundedImageDownload.called], by simp [BoundedImageDownload.called], hallowed,
        by simp [BoundedImageDownload.called], by simp [BoundedImageDownload.called], by simp [BoundedImageDownload.called],
        hcancelling, fun data hdata => absurd hdata (hnone data), hasked⟩
  | willPerformHTTPRedirection target =>
    cases target with
    | none =>
      exact ⟨hbound, by simp [BoundedImageDownload.called], by simp [BoundedImageDownload.called], hallowed,
        by simp [BoundedImageDownload.called], by simp [BoundedImageDownload.called], by simp [BoundedImageDownload.called],
        hcancelling, hresumed, hasked⟩
    | some target =>
      simp only [BoundedImageDownload.called]
      split
      · rename_i hvalid
        refine ⟨hbound, hkept, hreceiving, hallowed, hreading, hentering, hleaving, hcancelling, hresumed, fun u hu => ?_⟩
        rcases List.mem_append.1 hu with hu | hu
        · exact hasked u hu
        · rw [List.mem_singleton.1 hu, hvalid]
      · exact ⟨hbound, by simp, by simp, hallowed, by simp, by simp, by simp, hcancelling, hresumed, hasked⟩

end

/-! ## Every order of sections -/

/-- The next section of any party. -/
abbrev Step (origins : Origins) (maximumBytes : Nat) (url : URL) : BoundedImageDownload → Move → BoundedImageDownload → Prop :=
  fun s m s' => s.next origins maximumBytes url m = some s'

theorem step_keeps {origins : Origins} {maximumBytes : Nat} {url : URL} (hurl : validate origins url = .ok ())
    (s : BoundedImageDownload) (m : Move) (s' : BoundedImageDownload) (h : s.Once ∧ s.Faithful origins maximumBytes)
    (hstep : Step origins maximumBytes url s m s') : s'.Once ∧ s'.Faithful origins maximumBytes := by
  obtain ⟨hs, hf⟩ := h
  cases m with
  | load => exact ⟨hs.load url hstep, hf.load hurl hstep⟩
  | cancel =>
    refine ⟨hs.cancel hstep, ?_⟩
    obtain ⟨hbound, hkept, hreceiving, hallowed, hreading, hentering, hleaving, hcancelling, hresumed, hasked⟩ := hf
    simp only [Step, next] at hstep
    split at hstep
    · cases hstep
    · obtain rfl := Option.some.inj hstep
      refine ⟨hbound, hkept, hreceiving, hallowed, hreading, hentering, hleaving, fun f hf => ?_, hresumed, hasked⟩
      obtain rfl := Option.some.inj hf
      rfl
  | canceller => exact ⟨hs.canceller hstep, hf.canceller hstep⟩
  | callback c =>
    simp only [Step, next] at hstep
    split at hstep
    · rename_i hidle
      split at hstep
      · rename_i hdelivers
        obtain rfl := Option.some.inj hstep
        exact ⟨hs.called origins maximumBytes hidle hdelivers, hf.called hidle hdelivers⟩
      · cases hstep
    · cases hstep
  | delegate => exact ⟨hs.delegate maximumBytes hstep, hf.delegate hs hstep⟩

/-- Where the continuation has gone when no party has a section before it. -/
theorem Once.settled {s : BoundedImageDownload} (h : s.Once) (hsettled : s.Settled) : s.resumed.length = 1 := by
  obtain ⟨hloader, hcanceller, hidle, hended⟩ := hsettled
  have hheld := h.held
  have hfinished : s.finished = true := by
    rcases h.returned hloader with hfin | hstarted
    · exact hfin
    · rcases h.completed (hended hstarted) with hfin | hreading | ⟨result, hentering⟩
      · exact hfin
      · rw [hidle] at hreading
        cases hreading
      · rw [hidle] at hentering
        cases hentering
  rw [tokens, h.finished hfinished, hcanceller, hidle, hloader, if_neg (by simp)] at hheld
  simpa [Delegate.token, Loader.token] using hheld

/-- In every order of cancellation, response, data, redirects and completion. -/
theorem download_completes_once {origins : Origins} {maximumBytes : Nat} {url : URL} {start s : BoundedImageDownload} {moves : List Move}
    (hload : load origins url = .ok start) (hrun : Run (Step origins maximumBytes url) start moves s) :
    s.resumed.length ≤ 1 ∧ (s.Settled → s.resumed.length = 1) ∧
      (∀ data, .ok data ∈ s.resumed → data = s.received.flatten ∧ data.length ≤ maximumBytes ∧
        ∃ response ∈ s.responses, response.isSuccess = true) ∧
      s.buffer.length ≤ maximumBytes ∧ ∀ u ∈ s.requested, validate origins u = .ok () := by
  have hurl : validate origins url = .ok () := by
    rw [load] at hload
    split at hload
    · rename_i hvalid
      exact hvalid
    · cases hload
  obtain rfl : init = start := by
    rw [load, hurl] at hload
    exact Except.ok.inj hload
  obtain ⟨hs, hf⟩ := hrun.inv _ (step_keeps hurl) ⟨once_init, faithful_init origins maximumBytes⟩
  refine ⟨?_, hs.settled, fun data hdata => (hf.resumed data hdata).2, hf.bound, hf.asked⟩
  have hheld := hs.held
  rw [tokens] at hheld
  split at hheld <;> omega

end BoundedImageDownload

/-! ## A download that succeeds -/

def exampleOrigins : Origins where
  lowercased := id
  allowed := (· = "https://images.example.com:443")

def exampleURL : URL where
  scheme := some "https"
  host := some "images.example.com"
  user := none
  password := none
  port := none

open BoundedImageDownload in
def exampleMoves : List Move :=
  [.load, .callback (.didReceiveResponse ⟨some 200, 3⟩), .callback (.didReceiveData [1, 2]), .delegate,
    .callback (.didReceiveData [3]), .delegate, .callback (.didComplete none), .delegate, .cancel, .delegate, .canceller, .delegate]

open BoundedImageDownload in
theorem image_completes_once : ∃ s, Run (Step exampleOrigins 3 exampleURL) init exampleMoves s ∧
    s.resumed.length ≤ 1 ∧ (s.Settled → s.resumed.length = 1) ∧
      (∀ data, .ok data ∈ s.resumed → data = s.received.flatten ∧ data.length ≤ 3 ∧
        ∃ response ∈ s.responses, response.isSuccess = true) ∧
      s.buffer.length ≤ 3 ∧ ∀ u ∈ s.requested, validate exampleOrigins u = .ok () := by
  cases h : exampleMoves.foldlM (fun s m => next s exampleOrigins 3 exampleURL m) init with
  | none =>
    have hsome : (exampleMoves.foldlM (fun s m => next s exampleOrigins 3 exampleURL m) init).isSome = true := by decide +kernel
    rw [h] at hsome
    cases hsome
  | some s =>
    have hrun : Run (Step exampleOrigins 3 exampleURL) init exampleMoves s := Run.of_foldlM h
    have hload : load exampleOrigins exampleURL = .ok init := by rfl
    exact ⟨s, hrun, download_completes_once hload hrun⟩

end Tanpopo.Images
