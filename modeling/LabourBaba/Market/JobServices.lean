import LabourBaba.Market.Lifecycle
import LabourBaba.Store.Calls

/-!
# Job and requirement services

`jobService`, `jobReqService` and the job state machine, statement by statement.
Identifiers that the database generates are arguments of the calls; an identifier
already in use fails on the primary key.
-/
namespace LabourBaba.Market

open Store

/-- The statements of the services: those a property has to tell apart carry the
values the call has computed for them, all others are `step`. -/
inductive Label where
  | step
  | jobCreated (job : Job) (requirements : List Requirement)
  | dispatchStarted (jobId : Id)
  | requirementCreated (requirement : Requirement)
  | demandUpdated (requirementId : Id) (needed : Nat) (seen : Requirement)
  | jobCancelled (jobId : Id)
  | accepted (booking : Booking) (nowFilled jobBooked : Bool)
  | offerDeclined (requirementId workerId : Id)
  | waveExhausted (requirementId : Id) (waveNumber : Nat)
  /-- `wave` is the one whose own dispatch job gives up; a decline or a timeout has none. -/
  | noWorkers (requirementId : Id) (wave : Option Nat)
  | waveRequirement (requirementId : Id) (waveNumber : Nat)
  | waveLookup (requirementId : Id) (waveNumber : Nat)
  | waveCommitted (requirementId : Id) (waveNumber : Nat)
  | offersTimedOut (requirementId : Id) (waveNumber : Nat)
  | otpRejected (bookingId : Id)
  | workStarted (bookingId jobId : Id) (jobStarted : Bool)
  | completionRequested (bookingId : Id)
  | completionConfirmed (bookingId jobId : Id) (jobCompleted : Bool)
  | bookingCancelled (booking : Booking) (jobReopened : Bool)
  | reconciled (requirementId : Id) (status : Option RequirementStatus)
  | enqueued
  | ticked
deriving DecidableEq, Repr

abbrev Service := Call Label Db Write Key Failure

def step {α : Type} (f : Db → Except Failure (List Write × α)) : Service α := Call.stmt .step f

def query {α : Type} (f : Db → α) : Service α := Call.read .step f

def assertPolicy (decision : Except Failure Unit) : Service Unit :=
  match decision with
  | .ok _ => pure ()
  | .error e => throw e

/-- `queue.add`: Redis may be unreachable, and then nothing is enqueued. -/
def addDispatchJob (data : DispatchJobData) : Service Unit := do
  let reachable ← Call.choose
  if reachable then Call.send .enqueued fun _ => ([⟨.addDispatchJob data, rfl⟩], ())
  else throw .queueUnavailable

def addTimeoutJob (data : TimeoutJobData) : Service Unit := do
  let reachable ← Call.choose
  if reachable then Call.send .enqueued fun _ => ([⟨.addTimeoutJob data, rfl⟩], ())
  else throw .queueUnavailable

/-! ### Job state machine -/

structure JobTransitionResult where
  job : Option Job
  previousStatus : JobStatus
  currentStatus : JobStatus
  action : JobAction

/-- The compare-and-set UPDATE of the transition, and whether it matched the row. -/
def casJobStatus (jobId : Id) (currentStatus targetStatus : JobStatus) : Service Bool :=
  step fun d => match d.job jobId with
    | some job =>
      if job.status = currentStatus then .ok ([.jobStatus jobId targetStatus], true)
      else .ok ([], false)
    | none => .ok ([], false)

/-- The row `SELECT ... FOR UPDATE` returns, or else a plain read of it. -/
def lockJob (jobId : Id) : Service (Option Job) := do
  let row ← Call.lock .step
    (fun d => if (d.job jobId).isSome then [.job jobId] else []) fun d => d.job jobId
  match row with
  | some job => pure (some job)
  | none => query fun d => d.job jobId

/-- `jobStateService.transition`, inside the caller's transaction. -/
def jobTransition (jobId : Id) (action : JobAction) (actor : TransitionActor) :
    Service JobTransitionResult := do
  let lockedJob ← lockJob jobId
  match lockedJob with
  | none => throw (.jobNotFound s!"Job '{jobId}' not found")
  | some job =>
    match jobCanTransition job.status action actor job.customerId with
    | .error e => throw e
    | .ok rule => do
      let updated ← casJobStatus jobId job.status rule.targetStatus
      if updated then do
        let updatedJob ← query fun d => d.job jobId
        step fun _ => .ok ([.jobTransition
          { jobId, fromStatus := some job.status, toStatus := rule.targetStatus, action
            actorType := actor.role, actorId := actor.id }], ())
        pure { job := updatedJob, previousStatus := job.status
               currentStatus := rule.targetStatus, action }
      else throw (.jobStateConflict
        s!"Job '{jobId}' was concurrently modified; status is no longer '{job.status.text}'")

/-- `try ... catch` around a job transition that ignores a `JobInvalidTransitionError`
from one of the listed statuses. The result says whether the body went through. -/
def unlessInvalidFrom {α : Type} (ignored : List JobStatus) (body : Service α) : Service Bool := do
  let result ← Call.attempt body
  match result with
  | .ok _ => pure true
  | .error (.jobInvalidTransition fromStatus action message) =>
    if fromStatus ∈ ignored then pure false
    else throw (.jobInvalidTransition fromStatus action message)
  | .error e => throw e

/-! ### Creation -/

structure NewRequirement where
  id : Id
  workerCountNeeded : Int
deriving DecidableEq, Repr

structure CreateJobReq where
  latitude : Option Rat := none
  longitude : Option Rat := none
  requirements : List NewRequirement := []
deriving DecidableEq, Repr

/-- The row a new requirement becomes, and the INSERT with the constraints of its table. -/
def NewRequirement.row (jobId : Id) (r : NewRequirement) : Requirement :=
  { id := r.id, jobId, workerCountNeeded := r.workerCountNeeded.toNat
    workerCountFilled := 0, status := .OPEN }

def insertRequirement (jobId : Id) (r : NewRequirement) (d : Db) :
    Except Failure (List Write × Unit) :=
  if (d.requirement r.id).isSome then .error (.uniqueViolation "job_requirement_pkey")
  else if r.workerCountNeeded ≤ 0 then
    .error (.checkViolation "chk_job_requirement_worker_count_positive")
  else if (d.job jobId).isNone then .error (.foreignKeyViolation "fk_requirement_job")
  else .ok ([.insertRequirement (r.row jobId)], ())

/-- The first transaction of `createJob`. -/
def insertJob (job : Job) (requirements : List NewRequirement) : Service Unit := do
  step fun d =>
    if (d.job job.id).isSome then .error (.uniqueViolation "job_pkey")
    else .ok ([.insertJob job], ())
  step fun _ => .ok ([.jobTransition
    { jobId := job.id, fromStatus := none, toStatus := .OPEN, action := .CREATE
      actorType := .CUSTOMER, actorId := some job.customerId }], ())
  Call.each requirements fun r => step (insertRequirement job.id r)

/-- The second transaction of `createJob`. -/
def startDispatch (jobId : Id) : Service Unit := do
  let _ ← jobTransition jobId .START_DISPATCH { role := .SYSTEM }
  step fun d => .ok ([.requirementStatus
    ((d.requirements.filter fun r => r.jobId = jobId ∧ r.status = .OPEN).map (·.id))
    .DISPATCHING], ())

def createJob (jobId customerId : Id) (payload : CreateJobReq) : Service Unit :=
  match validateOptionalCoordinatePair payload.latitude payload.longitude with
  | .error message => throw (.badRequest message)
  | .ok (latitude, longitude) => do
    let job : Job := { id := jobId, customerId, latitude, longitude, status := .OPEN
                       dispatchStatus := .IDLE }
    Call.transaction
      (fun _ => .jobCreated job (payload.requirements.map (·.row jobId)))
      (insertJob job payload.requirements)
    let createdRequirements ← query fun d => d.requirements.filter fun r => r.jobId = jobId
    let _ ← unlessInvalidFrom [.DISPATCHING]
      (Call.transaction (fun _ => .dispatchStarted jobId) (startDispatch jobId))
    -- a requirement whose job cannot be enqueued is only logged
    Call.each createdRequirements fun r => do
      let _ ← Call.attempt (addDispatchJob { requirementId := r.id, jobId })
      pure ()

def createJobReq (jobId : Id) (payload : NewRequirement) (actor : Option AuthenticatedUser) :
    Service Unit :=
  match actor with
  | none => throw (.authorization "Authentication required" 401 "UNAUTHORIZED")
  | some actor => do
    let job ← query fun d => d.job jobId
    match job with
    | none => throw (.plain "Job not found")
    | some job => do
      assertPolicy (canCreateRequirement actor job)
      if payload.workerCountNeeded ≤ 0 then
        throw (.requirementWorkerCountInvalid "worker_count_needed must be an integer >= 1")
      else Call.stmt (.requirementCreated (payload.row jobId)) (insertRequirement jobId payload)

/-! ### Demand -/

/-- The UPDATE of `updateDemand`, under the capacity CHECK constraint. -/
def setDemand (requirementId : Id) (needed : Nat) (status : RequirementStatus) (d : Db) :
    Except Failure (List Write × Unit) :=
  match d.requirement requirementId with
  | none => .error .recordNotFound
  | some row =>
    if needed < row.workerCountFilled then
      .error (.checkViolation "chk_job_requirement_worker_count_capacity")
    else .ok ([.requirementNeeded requirementId needed,
               .requirementStatus [requirementId] status], ())

/-- `requirementStateService.updateDemand`; returns the row its decision was based on. -/
def updateDemand (requirementId : Id) (newWorkerCountNeeded : Int) (actor : AuthenticatedUser) :
    Service Requirement :=
  if newWorkerCountNeeded ≤ 0 then
    throw (.requirementWorkerCountInvalid "worker_count_needed must be an integer >= 1")
  else do
    let found ← query fun d =>
      (d.requirement requirementId).map fun r => (r, (d.job r.jobId).map (·.customerId))
    match found with
    | none => throw (.requirementNotFound s!"Requirement '{requirementId}' not found")
    | some (req, customerId) =>
      if actor.role = .CUSTOMER ∧ customerId.isSome ∧ customerId ≠ some actor.id then
        throw (.requirementForbidden "Forbidden: You do not own this requirement")
      else if req.status = .CANCELLED then
        throw (.requirementInvalidTransition req.status
          "Cannot update worker demand for a cancelled requirement")
      else if newWorkerCountNeeded.toNat < req.workerCountFilled then
        throw (.requirementCapacityExceeded
          s!"Cannot reduce required workers to {newWorkerCountNeeded} because {req.workerCountFilled} worker(s) are already booked")
      else do
        step (setDemand requirementId newWorkerCountNeeded.toNat
          (demandStatus req.status ⟨newWorkerCountNeeded.toNat, req.workerCountFilled⟩))
        pure req

def updateRequirementDemand (jobId requirementId : Id) (newWorkerCountNeeded : Int)
    (actor : Option AuthenticatedUser) : Service Requirement :=
  match actor with
  | none => throw (.authorization "Authentication required" 401 "UNAUTHORIZED")
  | some actor =>
    Call.transaction (.demandUpdated requirementId newWorkerCountNeeded.toNat) do
      let found ← query fun d =>
        (d.requirement requirementId).bind fun r =>
          if r.jobId = jobId then (d.job r.jobId).map (·.customerId) else none
      match found with
      | none => throw (.plain "Requirement not found")
      | some customerId => do
        assertPolicy (canUpdateRequirement actor customerId)
        updateDemand requirementId newWorkerCountNeeded actor

/-! ### Cancellation -/

/-- `job_dispatch.updateMany`: the offers a filter selects get a status. -/
def setOffers (select : Dispatch → Bool) (status : DispatchStatus) : Service Nat :=
  step fun d =>
    let offers := (d.dispatches.filter select).map (·.key)
    .ok ([.dispatchStatus offers status], offers.length)

def cancelJob (jobId : Id) (actor : TransitionActor) : Service JobTransitionResult :=
  Call.transaction (fun _ => .jobCancelled jobId) do
    let transitionResult ← jobTransition jobId .CANCEL actor
    step fun d => .ok ([.requirementStatus
      ((d.requirements.filter fun r =>
        r.jobId = jobId ∧ r.status ≠ .FILLED ∧ r.status ≠ .CANCELLED).map (·.id))
      .CANCELLED], ())
    let reqs ← query fun d => d.requirements.filter fun r => r.jobId = jobId
    Call.each reqs fun r => do
      let _ ← setOffers (fun x => x.requirementId = r.id ∧ x.status = .pending) .cancelled
      pure ()
    pure transitionResult

end LabourBaba.Market
