import Tanpopo.Lib.Runs
import Tanpopo.Lib.Table
import Tanpopo.Server.Limits
/-!
# The admission ledger

A generation request is accepted with a placeholder of 0 bytes, planned against
what the other requests have reserved, and finished by the task that prepares
it or by the token loop, whichever fails or ends first; both may. The steps of
different requests interleave in any order.
-/

namespace Tanpopo.Server

def maximumConcurrentGenerations : Nat := 4

/-- How far the task of a request has come. -/
inductive Flow where
  | idle
  /-- The reservation is made. -/
  | accepted
  /-- In `cancellableGenerationStream`, whose `defer` releases the reservation on an error. -/
  | preparing
  | planned
  /-- An error is on its way out. -/
  | throwing
  | failed
  /-- The stream was returned; the token loop releases the reservation. -/
  | handedOff
  deriving DecidableEq

/-- The token loop of a request. -/
inductive Loop where
  | idle
  | running
  | finished
  deriving DecidableEq

/-- `released` counts the removals of the reservation. -/
structure Request where
  flow : Flow
  loop : Loop
  released : Nat

structure Runtime (Id : Type) where
  generationReservations : Table Id ℚ
  generationMemoryBaseline : Option ℚ
  requests : Id → Request

/-- The parts of the configuration that the runtime plans with. -/
structure ServerConfiguration where
  maxTokens : Int
  prefillStepSize : Int
  maxTokens_mem : 1 ≤ maxTokens ∧ maxTokens ≤ 1048576
  prefillStepSize_mem : 1 ≤ prefillStepSize ∧ prefillStepSize ≤ 65536

def ServerConfiguration.parameters (configuration : ServerConfiguration) (maxTokens : Option Int) : GenerateParameters where
  maxTokens := some (max 1 (maxTokens.getD configuration.maxTokens))
  prefillStepSize := configuration.prefillStepSize

namespace Runtime

variable {Id : Type} [DecidableEq Id]

def initial : Runtime Id where
  generationReservations := ∅
  generationMemoryBaseline := none
  requests _ := ⟨.idle, .idle, 0⟩

def setRequest (s : Runtime Id) (id : Id) (request : Request) : Runtime Id :=
  { s with requests := Function.update s.requests id request }

def setFlow (s : Runtime Id) (id : Id) (flow : Flow) : Runtime Id := s.setRequest id { s.requests id with flow }

def reserveGeneration (s : Runtime Id) (id : Id) (isCancelled : Bool) : Except RequestError (Runtime Id) :=
  if isCancelled then .error .cancelled
  else if s.generationReservations.length < maximumConcurrentGenerations then
    .ok { s with generationReservations := s.generationReservations.set id 0 }
  else .error (.busy maximumConcurrentGenerations)

def finishGeneration (s : Runtime Id) (id : Id) : Runtime Id :=
  let request := s.requests id
  let removed := if (s.generationReservations.get? id).isSome then 1 else 0
  let reservations := s.generationReservations.delete id
  { generationReservations := reservations
    generationMemoryBaseline := if reservations.entries.all (·.2 = 0) then none else s.generationMemoryBaseline
    requests := Function.update s.requests id { request with released := request.released + removed } }

/-- The part of `makeGenerationStream` between two awaits. -/
def planGeneration (s : Runtime Id) (limits : MLXRequestLimits) (configuration : ServerConfiguration) (id : Id)
    (promptTokens : Int) (maxTokens : Option Int) (supportsChunking : Bool) (currentMemoryBytes planMemoryBytes : Nat) :
    Except RequestError (GenerateParameters × Runtime Id) :=
  let baseline := s.generationMemoryBaseline.getD currentMemoryBytes
  let reservedFloor := baseline + s.generationReservations.total
  match limits.plan planMemoryBytes promptTokens (configuration.parameters maxTokens) supportsChunking reservedFloor
      maximumConcurrentGenerations with
  | .error err => .error err
  | .ok (parameters, reservedBytes) =>
    .ok (parameters, { s with
      generationMemoryBaseline := some baseline
      generationReservations := s.generationReservations.set id reservedBytes })

end Runtime

/-- One step of one request. -/
inductive AdmissionEvent (Id : Type) where
  | accept (id : Id) (isCancelled : Bool)
  | prepare (id : Id)
  | plan (id : Id) (promptTokens : Int) (maxTokens : Option Int) (supportsChunking : Bool)
    (currentMemoryBytes planMemoryBytes : Nat)
  /-- `container.generate` starts the token loop. -/
  | start (id : Id)
  /-- An error or a cancellation, before the stream is returned. -/
  | fail (id : Id)
  | unwind (id : Id)
  | handOff (id : Id)
  /-- The token loop ends and signals it. -/
  | didFinish (id : Id)

/-- The steps that a request can take. -/
inductive Admission {Id : Type} [DecidableEq Id] (limits : MLXRequestLimits) (configuration : ServerConfiguration) :
    Runtime Id → AdmissionEvent Id → Runtime Id → Prop
  | accept {s t : Runtime Id} {id isCancelled} (hflow : (s.requests id).flow = .idle)
      (h : s.reserveGeneration id isCancelled = .ok t) :
      Admission limits configuration s (.accept id isCancelled) (t.setFlow id .accepted)
  | refuse {s : Runtime Id} {id isCancelled err} (hflow : (s.requests id).flow = .idle)
      (h : s.reserveGeneration id isCancelled = .error err) :
      Admission limits configuration s (.accept id isCancelled) s
  | prepare {s : Runtime Id} {id} (hflow : (s.requests id).flow = .accepted) :
      Admission limits configuration s (.prepare id) (s.setFlow id .preparing)
  | plan {s t : Runtime Id} {id promptTokens maxTokens supportsChunking currentMemoryBytes planMemoryBytes parameters}
      (hflow : (s.requests id).flow = .preparing)
      (h : s.planGeneration limits configuration id promptTokens maxTokens supportsChunking currentMemoryBytes
        planMemoryBytes = .ok (parameters, t)) :
      Admission limits configuration s
        (.plan id promptTokens maxTokens supportsChunking currentMemoryBytes planMemoryBytes) (t.setFlow id .planned)
  | refusePlan {s : Runtime Id} {id promptTokens maxTokens supportsChunking currentMemoryBytes planMemoryBytes err}
      (hflow : (s.requests id).flow = .preparing)
      (h : s.planGeneration limits configuration id promptTokens maxTokens supportsChunking currentMemoryBytes
        planMemoryBytes = .error err) :
      Admission limits configuration s
        (.plan id promptTokens maxTokens supportsChunking currentMemoryBytes planMemoryBytes) (s.setFlow id .throwing)
  | start {s : Runtime Id} {id} (hflow : (s.requests id).flow = .planned) (hloop : (s.requests id).loop = .idle) :
      Admission limits configuration s (.start id) (s.setRequest id { s.requests id with loop := .running })
  | fail {s : Runtime Id} {id} (hflow : (s.requests id).flow = .preparing ∨ (s.requests id).flow = .planned) :
      Admission limits configuration s (.fail id) (s.setFlow id .throwing)
  | unwind {s : Runtime Id} {id} (hflow : (s.requests id).flow = .throwing) :
      Admission limits configuration s (.unwind id) ((s.finishGeneration id).setFlow id .failed)
  | handOff {s : Runtime Id} {id} (hflow : (s.requests id).flow = .planned) (hloop : (s.requests id).loop ≠ .idle) :
      Admission limits configuration s (.handOff id) (s.setFlow id .handedOff)
  | didFinish {s : Runtime Id} {id} (hloop : (s.requests id).loop = .running) :
      Admission limits configuration s (.didFinish id)
        ((s.finishGeneration id).setRequest id { (s.finishGeneration id).requests id with loop := .finished })

/-! ## The invariant -/

/-- The reservation of a request is held from its acceptance until it fails or its loop ends. -/
structure Request.Ok (request : Request) (reservation : Option ℚ) : Prop where
  released : request.released = if request.flow = .failed ∨ request.loop = .finished then 1 else 0
  held : reservation.isSome ↔ request.flow ≠ .idle ∧ request.released = 0
  started : request.loop ≠ .idle →
    request.flow = .planned ∨ request.flow = .throwing ∨ request.flow = .failed ∨ request.flow = .handedOff
  handedOff : request.flow = .handedOff → request.loop ≠ .idle
  placeholder : request.flow = .accepted ∨ request.flow = .preparing → reservation = some 0

/-- The ledger is within its bounds. -/
structure Balanced (limits : MLXRequestLimits) {Id : Type} [DecidableEq Id] (reservations : Table Id ℚ)
    (baseline : Option ℚ) : Prop where
  count : reservations.length ≤ maximumConcurrentGenerations
  nonneg : ∀ id bytes, reservations.get? id = some bytes → 0 ≤ bytes
  unused : baseline = none → ∀ id bytes, reservations.get? id = some bytes → bytes = 0
  budget : ∀ b, baseline = some b → b + reservations.total ≤ limits.memoryLimit

structure Runtime.Inv (limits : MLXRequestLimits) {Id : Type} [DecidableEq Id] (s : Runtime Id) : Prop where
  requests : ∀ id, (s.requests id).Ok (s.generationReservations.get? id)
  balanced : Balanced limits s.generationReservations s.generationMemoryBaseline

section
variable {Id : Type} [DecidableEq Id] {limits : MLXRequestLimits} {configuration : ServerConfiguration}
variable {reservations : Table Id ℚ} {baseline : Option ℚ} {s t : Runtime Id} {id : Id}

/-! ## The ledger -/

theorem Balanced.accept (h : Balanced limits reservations baseline) (hid : reservations.get? id = none)
    (hcount : reservations.length < maximumConcurrentGenerations) : Balanced limits (reservations.set id 0) baseline where
  count := (Table.length_set_le id 0).trans hcount
  nonneg := by
    intro id' bytes hget
    rcases Table.get?_set_eq_some.1 hget with ⟨-, rfl⟩ | ⟨-, hget⟩
    · exact le_refl _
    · exact h.nonneg id' bytes hget
  unused := by
    intro hnone id' bytes hget
    rcases Table.get?_set_eq_some.1 hget with ⟨-, rfl⟩ | ⟨-, hget⟩
    · rfl
    · exact h.unused hnone id' bytes hget
  budget := by
    intro b hb
    have htotal := Table.total_eq_delete (t := reservations) id
    rw [hid, Option.getD_none, zero_add] at htotal
    rw [Table.total_set, zero_add, ← htotal]
    exact h.budget b hb

/-- Releasing a reservation leaves less to pay, and no baseline once nothing is reserved. -/
theorem Balanced.release (h : Balanced limits reservations baseline) (id : Id) :
    Balanced limits (reservations.delete id)
      (if (reservations.delete id).entries.all (·.2 = 0) then none else baseline) where
  count := (Table.length_filter_le _).trans h.count
  nonneg := fun id' bytes hget => h.nonneg id' bytes (Table.get?_delete_eq_some.1 hget).2
  unused := by
    intro hnone id' bytes hget
    split at hnone
    · rename_i hall
      simpa using List.all_eq_true.1 hall _ (Table.get?_eq_some.1 hget)
    · exact h.unused hnone id' bytes (Table.get?_delete_eq_some.1 hget).2
  budget := by
    intro b hb
    split at hb
    · cases hb
    · have hbudget := h.budget b hb
      have hnonneg : 0 ≤ (reservations.get? id).getD 0 := by
        cases hget : reservations.get? id with
        | none => exact le_refl _
        | some bytes => exact h.nonneg id bytes hget
      rw [Table.total_eq_delete id] at hbudget
      linarith

theorem total_eq_zero (h : ∀ id bytes, reservations.get? id = some bytes → bytes = 0) : reservations.total = 0 := by
  refine List.sum_eq_zero fun bytes hmem => ?_
  obtain ⟨e, he, rfl⟩ := List.mem_map.1 hmem
  exact h e.1 e.2 (Table.get?_eq_some.2 he)

/-- A plan replaces the placeholder by bytes that the limit has room for. -/
theorem Balanced.plan (h : Balanced limits reservations baseline) {bytes floor b : ℚ}
    (hid : reservations.get? id = some 0) (hb : 0 < bytes) (hfloor : floor = b + reservations.total)
    (hfits : floor + bytes ≤ limits.memoryLimit) : Balanced limits (reservations.set id bytes) (some b) where
  count := (Table.length_set_le_of_get? hid).trans h.count
  nonneg := by
    intro id' bytes' hget
    rcases Table.get?_set_eq_some.1 hget with ⟨-, rfl⟩ | ⟨-, hget⟩
    · exact hb.le
    · exact h.nonneg id' bytes' hget
  unused := nofun
  budget := by
    rintro _ ⟨⟩
    have htotal := Table.total_eq_delete (t := reservations) id
    rw [hid, Option.getD_some, zero_add] at htotal
    rw [Table.total_set, ← htotal]
    linarith

theorem planGeneration_ok {promptTokens : Int} {maxTokens : Option Int} {supportsChunking : Bool}
    {currentMemoryBytes planMemoryBytes : Nat} {parameters : GenerateParameters}
    (h : s.planGeneration limits configuration id promptTokens maxTokens supportsChunking currentMemoryBytes
      planMemoryBytes = .ok (parameters, t)) :
    ∃ bytes, 0 < bytes ∧ 1 ≤ parameters.prefillStepSize ∧ parameters.prefillStepSize ≤ configuration.prefillStepSize ∧
      s.generationMemoryBaseline.getD currentMemoryBytes + s.generationReservations.total + bytes ≤ limits.memoryLimit ∧
      t = { s with
        generationMemoryBaseline := some (s.generationMemoryBaseline.getD currentMemoryBytes)
        generationReservations := s.generationReservations.set id bytes } := by
  unfold Runtime.planGeneration at h
  dsimp only at h
  split at h
  · cases h
  · rename_i result bytes hplan
    cases h
    obtain ⟨hone, hle, hfits, hpos⟩ := MLXRequestLimits.plan_ok configuration.prefillStepSize_mem.1 hplan
    refine ⟨bytes, hpos ?_, hone, hle, hfits, rfl⟩
    exact (Int.zero_le_ofNat 1).trans (le_max_left _ _)

/-! ## The states of a request -/

namespace Request.Ok
variable {request : Request} {reservation : Option ℚ}

theorem accept (h : request.Ok reservation) (hflow : request.flow = .idle) :
    reservation = none ∧ Request.Ok { request with flow := .accepted } (some 0) := by
  obtain ⟨flow, loop, released⟩ := request
  obtain ⟨hreleased, hheld, hstarted, -, -⟩ := h
  cases hflow
  have hloop : loop = .idle := by
    by_contra hne
    simpa using hstarted hne
  subst hloop
  refine ⟨?_, ?_⟩
  · simpa using hheld
  · constructor <;> simp_all

theorem prepare (h : request.Ok reservation) (hflow : request.flow = .accepted) :
    Request.Ok { request with flow := .preparing } reservation := by
  obtain ⟨flow, loop, released⟩ := request
  obtain ⟨hreleased, hheld, hstarted, -, hplaceholder⟩ := h
  cases hflow
  constructor <;> simp_all

theorem planned (h : request.Ok reservation) (hflow : request.flow = .preparing) (bytes : ℚ) :
    Request.Ok { request with flow := .planned } (some bytes) := by
  obtain ⟨flow, loop, released⟩ := request
  obtain ⟨hreleased, hheld, hstarted, -, hplaceholder⟩ := h
  cases hflow
  constructor <;> simp_all

theorem throwing (h : request.Ok reservation) (hflow : request.flow = .preparing ∨ request.flow = .planned) :
    Request.Ok { request with flow := .throwing } reservation := by
  obtain ⟨flow, loop, released⟩ := request
  obtain ⟨hreleased, hheld, hstarted, -, -⟩ := h
  rcases hflow with hflow | hflow <;> cases hflow <;> constructor <;> simp_all

theorem start (h : request.Ok reservation) (hflow : request.flow = .planned) (hloop : request.loop = .idle) :
    Request.Ok { request with loop := .running } reservation := by
  obtain ⟨flow, loop, released⟩ := request
  obtain ⟨hreleased, hheld, -, -, -⟩ := h
  cases hflow
  cases hloop
  constructor <;> simp_all

theorem handOff (h : request.Ok reservation) (hflow : request.flow = .planned) (hloop : request.loop ≠ .idle) :
    Request.Ok { request with flow := .handedOff } reservation := by
  obtain ⟨flow, loop, released⟩ := request
  obtain ⟨hreleased, hheld, -, -, -⟩ := h
  cases hflow
  constructor <;> simp_all

/-- The first of the two ends of a request removes the reservation, the second finds none. -/
theorem released_add (h : request.Ok reservation) (hflow : request.flow ≠ .idle) :
    request.released + (if reservation.isSome then 1 else 0) = 1 := by
  have hreleased := h.released
  by_cases hheld : reservation.isSome = true
  · rw [if_pos hheld, (h.held.1 hheld).2]
  · have hne : request.released ≠ 0 := fun hzero => hheld (h.held.2 ⟨hflow, hzero⟩)
    rw [if_neg hheld]
    split at hreleased <;> omega

theorem failed (h : request.Ok reservation) (hflow : request.flow = .throwing) :
    Request.Ok { request with
      flow := .failed, released := request.released + if reservation.isSome then 1 else 0 } none := by
  rw [h.released_add (by rw [hflow]; nofun)]
  constructor <;> simp

theorem finished (h : request.Ok reservation) (hloop : request.loop = .running) :
    Request.Ok { request with
      loop := .finished, released := request.released + if reservation.isSome then 1 else 0 } none := by
  have hstarted := h.started (by rw [hloop]; nofun)
  rw [h.released_add (by rcases hstarted with h | h | h | h <;> rw [h] <;> nofun)]
  obtain ⟨flow, loop, released⟩ := request
  dsimp only at hstarted
  rcases hstarted with rfl | rfl | rfl | rfl <;> constructor <;> simp

end Request.Ok

/-! ## One step -/

/-- A step of `id` leaves the other requests and their reservations alone. -/
theorem Runtime.Inv.step (h : s.Inv limits) (id : Id) (hself : (t.requests id).Ok (t.generationReservations.get? id))
    (hrequests : ∀ other, other ≠ id → t.requests other = s.requests other)
    (hreservations : ∀ other, other ≠ id → t.generationReservations.get? other = s.generationReservations.get? other)
    (hbalanced : Balanced limits t.generationReservations t.generationMemoryBaseline) : t.Inv limits where
  requests := by
    intro other
    by_cases hother : other = id
    · exact hother ▸ hself
    · rw [hrequests other hother, hreservations other hother]
      exact h.requests other
  balanced := hbalanced

@[simp] theorem setRequest_self (request : Request) : (s.setRequest id request).requests id = request := by
  simp [Runtime.setRequest]

theorem setRequest_of_ne {other : Id} (h : other ≠ id) (request : Request) :
    (s.setRequest id request).requests other = s.requests other := by
  simp [Runtime.setRequest, h]

@[simp] theorem setFlow_self (flow : Flow) : (s.setFlow id flow).requests id = { s.requests id with flow } :=
  setRequest_self _

theorem finishGeneration_self : (s.finishGeneration id).requests id = { s.requests id with
    released := (s.requests id).released + if (s.generationReservations.get? id).isSome then 1 else 0 } := by
  simp [Runtime.finishGeneration]

/-- Only the flow of a request changes. -/
theorem Runtime.Inv.setFlow (h : s.Inv limits) (flow : Flow)
    (hself : Request.Ok { s.requests id with flow } (s.generationReservations.get? id)) : (s.setFlow id flow).Inv limits :=
  h.step id (by rw [setFlow_self]; exact hself) (fun _ hne => setRequest_of_ne hne _) (fun _ _ => rfl) h.balanced

theorem inv_finish (h : s.Inv limits) {request : Request} (hself : request.Ok none) :
    Runtime.Inv limits ((s.finishGeneration id).setRequest id request) := by
  refine h.step id ?_ (fun other hne => ?_) (fun other hne => Table.get?_delete.trans (if_neg hne)) (h.balanced.release id)
  · rw [setRequest_self]
    change request.Ok ((s.generationReservations.delete id).get? id)
    rwa [Table.get?_delete, if_pos rfl]
  · rw [setRequest_of_ne hne]
    simp [Runtime.finishGeneration, hne]

theorem inv_step {event : AdmissionEvent Id} (h : s.Inv limits) (hstep : Admission limits configuration s event t) :
    t.Inv limits := by
  cases hstep with
  | @accept t id isCancelled hflow haccept =>
    obtain ⟨hnone, hok⟩ := (h.requests id).accept hflow
    unfold Runtime.reserveGeneration at haccept
    split at haccept
    · cases haccept
    split at haccept
    · rename_i hcount
      cases haccept
      refine h.step id ?_ (fun other hne => setRequest_of_ne hne _)
        (fun other hne => Table.get?_set.trans (if_neg hne)) (h.balanced.accept hnone hcount)
      rw [setFlow_self]
      change Request.Ok _ ((s.generationReservations.set id 0).get? id)
      rwa [Table.get?_set, if_pos rfl]
    · cases haccept
  | refuse => exact h
  | @prepare id hflow => exact h.setFlow _ ((h.requests id).prepare hflow)
  | @plan t id promptTokens maxTokens supportsChunking currentMemoryBytes planMemoryBytes parameters hflow hplan =>
    have hok := h.requests id
    obtain ⟨bytes, hpos, -, -, hfits, rfl⟩ := planGeneration_ok hplan
    refine h.step id ?_ (fun other hne => setRequest_of_ne hne _)
      (fun other hne => Table.get?_set.trans (if_neg hne))
      (h.balanced.plan (hok.placeholder (.inr hflow)) hpos rfl hfits)
    rw [setFlow_self]
    change Request.Ok _ ((s.generationReservations.set id bytes).get? id)
    rw [Table.get?_set, if_pos rfl]
    exact hok.planned hflow bytes
  | @refusePlan id _ _ _ _ _ _ hflow => exact h.setFlow _ ((h.requests id).throwing (.inl hflow))
  | @start id hflow hloop =>
    exact h.step id (by rw [setRequest_self]; exact (h.requests id).start hflow hloop)
      (fun other hne => setRequest_of_ne hne _) (fun _ _ => rfl) h.balanced
  | @fail id hflow => exact h.setFlow _ ((h.requests id).throwing hflow)
  | @unwind id hflow =>
    refine inv_finish h ?_
    rw [finishGeneration_self]
    exact (h.requests id).failed hflow
  | @handOff id hflow hloop => exact h.setFlow _ ((h.requests id).handOff hflow hloop)
  | @didFinish id hloop =>
    refine inv_finish h ?_
    rw [finishGeneration_self]
    exact (h.requests id).finished hloop

theorem initial_inv (limits : MLXRequestLimits) : (Runtime.initial : Runtime Id).Inv limits where
  requests _ := ⟨rfl, by simp [Runtime.initial], by simp [Runtime.initial], by simp [Runtime.initial],
    by simp [Runtime.initial]⟩
  balanced := ⟨Nat.zero_le _, nofun, fun _ => nofun, nofun⟩

/-! ## Every interleaving -/

theorem finishGeneration_of_ne {other : Id} (h : other ≠ id) : (s.finishGeneration id).requests other = s.requests other := by
  simp [Runtime.finishGeneration, h]

/-- A removal is never undone. -/
theorem released_le {event : AdmissionEvent Id} (hstep : Admission limits configuration s event t) (other : Id) :
    (s.requests other).released ≤ (t.requests other).released := by
  have hset : ∀ (u : Runtime Id) (id : Id) request, (u.requests id).released ≤ request.released →
      (u.requests other).released ≤ ((u.setRequest id request).requests other).released := by
    intro u id request hle
    by_cases hother : other = id
    · subst hother
      rwa [setRequest_self]
    · rw [setRequest_of_ne hother]
  have hfinish : ∀ id, (s.requests other).released ≤ ((s.finishGeneration id).requests other).released := by
    intro id
    by_cases hother : other = id
    · subst hother
      rw [finishGeneration_self]
      exact Nat.le_add_right _ _
    · rw [finishGeneration_of_ne hother]
  cases hstep with
  | accept hflow haccept =>
    unfold Runtime.reserveGeneration at haccept
    split at haccept
    · cases haccept
    split at haccept
    · cases haccept
      exact hset _ _ _ (le_refl _)
    · cases haccept
  | refuse => exact le_refl _
  | prepare => exact hset s _ _ (le_refl _)
  | plan hflow hplan =>
    obtain ⟨bytes, -, -, -, -, rfl⟩ := planGeneration_ok hplan
    exact hset _ _ _ (le_refl _)
  | refusePlan => exact hset s _ _ (le_refl _)
  | start => exact hset s _ _ (le_refl _)
  | fail => exact hset s _ _ (le_refl _)
  | unwind => exact (hfinish _).trans (hset _ _ _ (le_refl _))
  | handOff => exact hset s _ _ (le_refl _)
  | didFinish => exact (hfinish _).trans (hset _ _ _ (le_refl _))

/-- The task of the request is over, and so is its token loop. -/
def Request.Ended (request : Request) : Prop :=
  (request.flow = .failed ∨ request.flow = .handedOff) ∧ request.loop ≠ .running

theorem released_of_ended {request : Request} {reservation : Option ℚ} (h : request.Ok reservation)
    (hended : request.Ended) : request.released = 1 := by
  rw [h.released, if_pos]
  obtain ⟨hfailed | hhanded, hloop⟩ := hended
  · exact .inl hfailed
  · cases hstate : request.loop with
    | idle => exact absurd hstate (h.handedOff hhanded)
    | running => exact absurd hstate hloop
    | finished => exact .inr rfl

/-- In every interleaving: at most four reservations; each accepted request
holds one until it is removed, once and for good, by the time it ends; a
baseline while something is reserved; baseline and reservations within the
limit; and plans that fit. -/
theorem admission_ledger (limits : MLXRequestLimits) (configuration : ServerConfiguration)
    {events : List (AdmissionEvent Id)} {s : Runtime Id}
    (h : Run (Admission limits configuration) Runtime.initial events s) :
    s.generationReservations.length ≤ maximumConcurrentGenerations ∧
    (∀ id, (s.requests id).flow ≠ .idle →
      ((s.generationReservations.get? id).isSome ∧ (s.requests id).released = 0 ∨
        s.generationReservations.get? id = none ∧ (s.requests id).released = 1) ∧
      ((s.requests id).Ended → (s.requests id).released = 1) ∧
      ((s.requests id).released = 1 → ∀ more t, Run (Admission limits configuration) s more t →
        t.generationReservations.get? id = none ∧ (t.requests id).released = 1)) ∧
    ((∃ id bytes, s.generationReservations.get? id = some bytes ∧ bytes ≠ 0) → s.generationMemoryBaseline.isSome) ∧
    s.generationMemoryBaseline.getD 0 + s.generationReservations.total ≤ limits.memoryLimit ∧
    ∀ id promptTokens maxTokens supportsChunking currentMemoryBytes planMemoryBytes parameters t,
      s.planGeneration limits configuration id promptTokens maxTokens supportsChunking currentMemoryBytes
        planMemoryBytes = .ok (parameters, t) →
      1 ≤ parameters.prefillStepSize ∧ parameters.prefillStepSize ≤ configuration.prefillStepSize ∧
      ∃ bytes, t.generationReservations.get? id = some bytes ∧
        s.generationMemoryBaseline.getD currentMemoryBytes + s.generationReservations.total + bytes ≤
          limits.memoryLimit := by
  have hstep : ∀ (s : Runtime Id) e t, s.Inv limits → Admission limits configuration s e t → t.Inv limits :=
    fun _ _ _ hs he => inv_step hs he
  have hinv : s.Inv limits := h.inv _ hstep (initial_inv limits)
  have hreleased : ∀ (u : Runtime Id) id, u.Inv limits → (u.requests id).released ≤ 1 := by
    intro u id hu
    rw [(hu.requests id).released]
    split <;> omega
  refine ⟨hinv.balanced.count, fun id hflow => ⟨?_, released_of_ended (hinv.requests id), fun hone more t hmore => ?_⟩,
    ?_, ?_, ?_⟩
  · -- A request either holds its reservation or has released it.
    by_cases hheld : (s.generationReservations.get? id).isSome = true
    · exact .inl ⟨hheld, ((hinv.requests id).held.1 hheld).2⟩
    · have hne : (s.requests id).released ≠ 0 := fun hzero => hheld ((hinv.requests id).held.2 ⟨hflow, hzero⟩)
      have hle := hreleased s id hinv
      exact .inr ⟨Option.not_isSome_iff_eq_none.1 hheld, by omega⟩
  · -- What was released once is never less, and never more than once.
    have ht := hmore.inv _ hstep hinv
    have hle := hmore.mono (fun s => s.Inv limits) (fun s t => (s.requests id).released ≤ (t.requests id).released)
      (fun _ => le_refl _) (fun _ _ _ => le_trans) (fun s e t hs he => ⟨inv_step hs he, released_le he id⟩) hinv
    have hle' := hreleased t id ht
    refine ⟨?_, by omega⟩
    rw [← Option.not_isSome_iff_eq_none, (ht.requests id).held]
    rintro ⟨-, hzero⟩
    omega
  · rintro ⟨id, bytes, hget, hne⟩
    by_contra hnone
    exact hne (hinv.balanced.unused (Option.not_isSome_iff_eq_none.1 hnone) id bytes hget)
  · -- Without a baseline nothing is reserved.
    cases hbaseline : s.generationMemoryBaseline with
    | some b => exact hinv.balanced.budget b hbaseline
    | none =>
      have hlimit : (0 : ℚ) < limits.memoryLimit := by exact_mod_cast limits.memoryLimit_pos
      rw [total_eq_zero (hinv.balanced.unused hbaseline)]
      simpa using hlimit.le
  · intro id promptTokens maxTokens supportsChunking currentMemoryBytes planMemoryBytes parameters t hplan
    obtain ⟨bytes, -, hone, hle, hfits, rfl⟩ := planGeneration_ok hplan
    exact ⟨hone, hle, bytes, Table.get?_set.trans (if_pos rfl), hfits⟩

end

def sampleLimits : MLXRequestLimits :=
  .init ⟨fun _ => none, none⟩ (some 32768) none 68719476736 68719476736 0

def sampleConfiguration : ServerConfiguration where
  maxTokens := 4096
  prefillStepSize := 512
  maxTokens_mem := by decide
  prefillStepSize_mem := by decide

/-- The runtime when the first request is about to be planned. -/
def samplePrepared : Runtime Nat :=
  let accepted := { (Runtime.initial : Runtime Nat) with generationReservations := Table.set 0 0 ∅ }
  (accepted.setFlow 0 .accepted).setFlow 0 .preparing

/-- A request is accepted and planned on a machine with 64 GiB, and stays within its limit. -/
theorem sample_request_fits : ∃ t, Run (Admission sampleLimits sampleConfiguration) Runtime.initial
    [.accept 0 false, .prepare 0, .plan 0 1000 none true 1073741824 1073741824] t ∧
    t.generationMemoryBaseline.getD 0 + t.generationReservations.total ≤ sampleLimits.memoryLimit := by
  have hok : (samplePrepared.planGeneration sampleLimits sampleConfiguration 0 1000 none true 1073741824
      1073741824).isOk = true := by decide +kernel
  cases hplan : samplePrepared.planGeneration sampleLimits sampleConfiguration 0 1000 none true 1073741824 1073741824 with
  | error err =>
    rw [hplan] at hok
    cases hok
  | ok result =>
    have hrun : Run (Admission sampleLimits sampleConfiguration) Runtime.initial
        [.accept 0 false, .prepare 0, .plan 0 1000 none true 1073741824 1073741824] (result.2.setFlow 0 .planned) :=
      .cons (.accept rfl rfl) (.cons (.prepare rfl) (.cons (.plan rfl hplan) .nil))
    exact ⟨_, hrun, (admission_ledger sampleLimits sampleConfiguration hrun).2.2.2.1⟩

end Tanpopo.Server
