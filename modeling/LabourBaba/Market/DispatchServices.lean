import LabourBaba.Market.BookingServices

/-!
# Dispatch services and workers

`acceptDispatch` and `declineDispatch`, the BullMQ processors of dispatch waves and
wave timeouts, and the reconciliation scan. Which workers match a requirement's skill
and radius is an argument of the wave processor; that a worker has no offer of the
requirement yet and no confirmed or running booking is read from the store, as in
the candidate query.
-/
namespace LabourBaba.Market

open Store

/-! ### Acceptance -/

/-- What both reads of `acceptDispatch` reject: a closed requirement, then a full one. -/
def acceptable (req : Requirement) (jobStatus : Option JobStatus) : Except Failure Unit :=
  if req.status = .CANCELLED ∨ jobStatus = some .CANCELLED ∨ jobStatus = some .COMPLETED then
    .error (.dispatchAcceptance "Requirement or job is no longer active" "REQUIREMENT_CANCELLED" 409)
  else if req.status = .FILLED ∨ req.workerCountNeeded ≤ req.workerCountFilled then
    .error (.dispatchAcceptance "Requirement slots are already full" "SLOTS_FULL" 409)
  else .ok ()

/-- Why an offer that is not pending and unexpired cannot be accepted. -/
def offerRejection (x : Dispatch) (requirementFull : Bool) (now : Nat) : Option Failure :=
  match x.status with
  | .accepted => some (.dispatchAcceptance "This dispatch has already been accepted"
      "DISPATCH_ALREADY_ACCEPTED" 409)
  | .declined | .timeout => some (.dispatchAcceptance
      s!"Dispatch is in terminal state: {x.status.text}" "DISPATCH_NOT_ACTIONABLE" 409)
  | .expired =>
    if requirementFull then
      some (.dispatchAcceptance "Requirement slots are already full" "SLOTS_FULL" 409)
    else some (.dispatchAcceptance
      s!"Dispatch is in terminal state: {x.status.text}" "DISPATCH_NOT_ACTIONABLE" 409)
  | .pending | .cancelled =>
    if x.expiresAt.any (· ≤ now) then
      some (.dispatchAcceptance "Dispatch has expired" "DISPATCH_EXPIRED" 410)
    else none

def Requirement.isFull (req : Requirement) : Bool :=
  decide (req.workerCountNeeded ≤ req.workerCountFilled ∨ req.status = .FILLED)

def preflightRequirement (found : Option (Requirement × Option JobStatus)) : Except Failure Unit :=
  match found with
  | none => .ok ()
  | some (req, jobStatus) => acceptable req jobStatus

def preflightOffer (found : Option (Requirement × Option JobStatus)) (offer : Option Dispatch)
    (now : Nat) : Except Failure Unit :=
  match offer with
  | none => .ok ()
  | some x =>
    match offerRejection x ((found.map fun pair => pair.1.isFull).getD false) now with
    | some e => .error e
    | none => .ok ()

/-- `tx.job_requirement.findUnique` with the job it includes. -/
def Db.requirementWithJob (d : Db) (requirementId : Id) : Option (Requirement × Option JobStatus) :=
  (d.requirement requirementId).map fun r => (r, (d.job r.jobId).map (·.status))

/-- The conditional UPDATE of the worker's offer, with the number of rows it changed. -/
def acceptOffer (requirementId workerId : Id) (now : Nat) (d : Db) :
    Except Failure (List Write × Nat) :=
  match d.dispatch requirementId workerId with
  | some x =>
    if x.status = .pending ∧ x.expiresAt.any (now < ·) then
      .ok ([.dispatchStatus [(requirementId, workerId)] .accepted], 1)
    else .ok ([], 0)
  | none => .ok ([], 0)

/-- The error for an offer that the conditional UPDATE did not match. -/
def unacceptedOffer (offer : Option Dispatch) (requirementFull : Bool) (now : Nat) : Failure :=
  match offer with
  | none => .dispatchAcceptance "No valid dispatch found for this worker on this requirement"
      "NO_VALID_DISPATCH" 404
  | some x => (offerRejection x requirementFull now).getD
      (.dispatchAcceptance "Dispatch cannot be accepted in its current state"
        "DISPATCH_NOT_ACCEPTABLE" 409)

/-- `job_requirement.update` of the reserved slot, under the capacity CHECK constraint. -/
def reserveSlot (requirementId : Id) (newFilled : Nat) (nowFilled : Bool) (d : Db) :
    Except Failure (List Write × Unit) :=
  match d.requirement requirementId with
  | none => .error .recordNotFound
  | some row =>
    if row.workerCountNeeded < newFilled then
      .error (.checkViolation "chk_job_requirement_worker_count_capacity")
    else .ok ([.requirementFilled requirementId newFilled,
               .requirementStatus [requirementId]
                 (if nowFilled then .FILLED else .PARTIALLY_FILLED)], ())

def insertBooking (booking : Booking) (d : Db) : Except Failure (List Write × Unit) :=
  if (d.booking booking.id).isSome then .error (.uniqueViolation "booking_pkey")
  else if d.slotTaken booking.requirementId booking.workerId then
    .error (.uniqueViolation "uniq_booking_requirement_worker")
  else .ok ([.insertBooking booking], ())

def insertOutbox (key : OutboxKey) (d : Db) : Except Failure (List Write × Unit) :=
  if key ∈ d.outbox then .error (.uniqueViolation "uniq_notification_outbox_idempotency_key")
  else .ok ([.outbox key], ())

/-- `checkJobComplete`: whether all requirements of the job are filled. -/
def checkJobComplete (jobId : Id) : Service Bool := do
  let unfilledCount ← query fun d =>
    d.requirements.countP fun r => decide (r.jobId = jobId ∧ r.status ≠ .FILLED)
  if unfilledCount = 0 then do
    let _ ← unlessInvalidFrom [.BOOKED, .IN_PROGRESS, .COMPLETED]
      (jobTransition jobId .MARK_BOOKED { role := .SYSTEM })
    step fun d => if (d.job jobId).isNone then .error .recordNotFound
      else .ok ([.jobDispatchStatus jobId .FILLED], ())
    pure true
  else pure false

/-- Closing a requirement that has just been filled: the workers whose offers expire, and whether
the job is fully booked. -/
def closeFilled (nowFilled : Bool) (requirementId jobId : Id) : Service (List Id × Bool) :=
  if nowFilled then do
    let expiredWorkerIds ← query fun d =>
      (d.dispatches.filter fun x => x.requirementId = requirementId ∧ x.status = .pending).map
        (·.workerId)
    let _ ← setOffers (fun x => x.requirementId = requirementId ∧ x.status = .pending) .expired
    let jobFullyBooked ← checkJobComplete jobId
    pure (expiredWorkerIds, jobFullyBooked)
  else pure ([], false)

/-- What `acceptDispatch` returns; `booking` is the inserted row with all its columns. -/
structure Acceptance where
  booking : Booking
  otp : Nat
  nowFilled : Bool
  newFilled : Nat
  needed : Nat
  jobId : Id
  customerId : Id
  expiredWorkerIds : List Id
  jobFullyBooked : Bool
deriving DecidableEq, Repr

/-- The identifier, the OTP and the hash of the OTP drawn for a new booking. -/
structure NewBooking where
  id : Id
  otp : Nat
  otpHash : Nat
deriving DecidableEq, Repr

def acceptTx (cfg : Config) (requirementId workerId : Id) (new : NewBooking) :
    Service Acceptance := do
  lockRequirement requirementId
  let found ← query fun d => (d.requirement requirementId).map fun r => (r, d.job r.jobId)
  match found with
  | none => throw (.dispatchAcceptance "Requirement not found" "REQUIREMENT_NOT_FOUND" 404)
  | some (_, none) => throw .recordNotFound
  | some (req, some job) => do
    assertPolicy (acceptable req (some job.status))
    let existingBooking ← query fun d => d.slotTaken requirementId workerId
    if existingBooking then
      throw (.dispatchAcceptance "Worker already has an active booking for this requirement"
        "BOOKING_ALREADY_EXISTS" 409)
    else do
      let now ← query fun d => d.now
      let count ← step (acceptOffer requirementId workerId now)
      if count = 0 then do
        let offer ← query fun d => d.dispatch requirementId workerId
        throw (unacceptedOffer offer req.isFull now)
      else do
        let newFilled := req.workerCountFilled + 1
        let nowFilled := decide (req.workerCountNeeded ≤ newFilled)
        step (reserveSlot requirementId newFilled nowFilled)
        let issuedAt ← query fun d => d.now
        let booking : Booking :=
          { id := new.id, jobId := req.jobId, requirementId, workerId
            customerId := job.customerId, status := .CONFIRMED, otpHash := new.otpHash
            otpExpiresAt := issuedAt + cfg.bookingOtpTtlSeconds * 1000, otpAttempts := 0 }
        step (insertBooking booking)
        step (insertOutbox (.bookingConfirmed booking.id job.customerId))
        let (expiredWorkerIds, jobFullyBooked) ← closeFilled nowFilled requirementId req.jobId
        pure { booking, otp := new.otp, nowFilled, newFilled, needed := req.workerCountNeeded
               jobId := req.jobId, customerId := job.customerId, expiredWorkerIds, jobFullyBooked }

/-- How `acceptDispatch` rethrows what its transaction threw. -/
def acceptanceError : Failure → Failure
  | .uniqueViolation "uniq_booking_requirement_worker" =>
    .dispatchAcceptance "Worker already has an active booking for this requirement"
      "BOOKING_ALREADY_EXISTS" 409
  | .checkViolation _ => .dispatchAcceptance "Requirement slots are already full" "SLOTS_FULL" 409
  | e => e

def acceptDispatch (cfg : Config) (requirementId workerId : Id) (new : NewBooking) :
    Service Acceptance := do
  let preReq ← query fun d => d.requirementWithJob requirementId
  let preDispatch ← query fun d => d.dispatch requirementId workerId
  let nowPre ← query fun d => d.now
  assertPolicy (preflightRequirement preReq)
  assertPolicy (preflightOffer preReq preDispatch nowPre)
  let result ← Call.attempt (Call.transaction
    (fun a => .accepted a.booking a.nowFilled a.jobFullyBooked)
    (acceptTx cfg requirementId workerId new))
  match result with
  | .ok acceptance => pure acceptance
  | .error e => throw (acceptanceError e)

/-! ### Waves -/

/-- `job_requirement.update` to NO_WORKERS_AVAILABLE, wherever dispatch gives up. -/
def noWorkers (requirementId : Id) (d : Db) : Except Failure (List Write × Unit) :=
  if (d.requirement requirementId).isNone then .error .recordNotFound
  else .ok ([.requirementStatus [requirementId] .NO_WORKERS_AVAILABLE], ())

/-- `dispatch_wave.updateMany` to exhausted. -/
def exhaustWave (requirementId : Id) (waveNumber : Nat) : Service Unit :=
  Call.stmt (.waveExhausted requirementId waveNumber) fun _ =>
    .ok ([.exhaustWave requirementId waveNumber], ())

def declineDispatch (cfg : Config) (requirementId workerId : Id) : Service Unit := do
  Call.transaction (fun _ => .offerDeclined requirementId workerId) do
    let _ ← setOffers (fun x => x.requirementId = requirementId ∧ x.workerId = workerId ∧
      x.status = .pending) .declined
    step fun _ => .ok ([.declineCount workerId], ())
  let currentWaveDispatch ← query fun d => d.dispatch requirementId workerId
  match currentWaveDispatch with
  | none => pure ()
  | some x => do
    let currentWave := x.waveNumber
    let pendingCount ← query fun d => d.dispatches.countP fun y =>
      decide (y.requirementId = requirementId ∧ y.waveNumber = currentWave ∧ y.status = .pending)
    if pendingCount = 0 then do
      let found ← query fun d => d.requirement requirementId
      match found with
      | none => pure ()
      | some req => do
        -- the guard compares with the lower-case 'filled', which no row carries
        exhaustWave requirementId currentWave
        let nextPlan := planDispatchWave cfg req.workerCountNeeded req.workerCountFilled
          (currentWave + 1)
        if nextPlan.canDispatch then do
          let _ ← Call.attempt (addDispatchJob
            { requirementId, jobId := req.jobId, waveNumber := currentWave + 1 })
          pure ()
        else Call.stmt (.noWorkers requirementId none) (noWorkers requirementId)
    else pure ()

inductive DispatchOperationStatus where
  | created | already_processed | skipped_terminal | skipped_not_found | no_workers
deriving DecidableEq, Repr

structure DispatchOperationResult where
  status : DispatchOperationStatus
  workerIds : List Id := []
  workersDispatchedCount : Nat := 0
deriving DecidableEq, Repr

/-- `getEligibleDispatchCandidates` on the workers that match skill and radius. -/
def Db.candidates (d : Db) (requirementId : Id) (matching : List Id) (limit : Nat) : List Id :=
  (matching.filter fun w =>
    (d.dispatch requirementId w).isNone &&
      !(d.bookings.any fun b => decide (b.workerId = w ∧
        (b.status = .CONFIRMED ∨ b.status = .IN_PROGRESS)))).take (max 1 (min limit 100))

def insertWave (wave : Wave) (d : Db) : Except Failure (List Write × Unit) :=
  if (d.wave wave.requirementId wave.waveNumber).isSome then
    .error (.uniqueViolation "uniq_dispatch_wave_req_wave")
  else if (d.requirement wave.requirementId).isNone then
    .error (.foreignKeyViolation "fk_wave_requirement")
  else .ok ([.insertWave wave], ())

/-- `executeWrites`: the wave, its offers and their outbox events. -/
def executeWrites (requirementId : Id) (waveNumber waveSize : Nat) (waveWorkers : List Id)
    (expiresAt : Nat) : Service Unit := do
  let now ← query fun d => d.now
  step (insertWave { requirementId, waveNumber, workersNotified := waveSize
                     status := .active, notifiedAt := now })
  step fun _ => .ok (waveWorkers.zipIdx.map (fun (w, i) => .insertDispatch
    { requirementId, workerId := w, waveNumber, wavePosition := i + 1, status := .pending
      expiresAt := some expiresAt }), ())
  step fun _ => .ok (waveWorkers.map (fun w => .outbox (.incomingJob requirementId waveNumber w)), ())

/-- The result of a wave that exists already. -/
def alreadyProcessed (requirementId : Id) (waveNumber : Nat) (existing : Option Wave) :
    Service DispatchOperationResult := do
  let workerIds ← query fun d => (d.dispatches.filter fun x =>
    x.requirementId = requirementId ∧ x.waveNumber = waveNumber).map (·.workerId)
  pure { status := .already_processed, workerIds
         workersDispatchedCount := (existing.map (·.workersNotified)).getD workerIds.length }

/-- Steps 4 and 5 of the processor: persist the wave, then enqueue its timeout. -/
def persistWave (data : DispatchJobData) (plan : DispatchWavePlan) (workers : List Id)
    (isFinalAllowedWave : Bool) : Service DispatchOperationResult := do
  let waveWorkers := workers.take plan.targetCandidateCount
  let now ← query fun d => d.now
  let persisted ← Call.attempt (Call.transaction
    (fun _ => .waveCommitted data.requirementId data.waveNumber)
    (executeWrites data.requirementId data.waveNumber plan.targetCandidateCount waveWorkers
      (now + plan.timeoutMs)))
  match persisted with
  | .error (.uniqueViolation _) => do
    let existing ← Call.read (.waveLookup data.requirementId data.waveNumber) fun d =>
      d.wave data.requirementId data.waveNumber
    alreadyProcessed data.requirementId data.waveNumber existing
  | .error e => throw e
  | .ok _ => do
    addTimeoutJob
      { requirementId := data.requirementId, jobId := data.jobId, waveNumber := data.waveNumber
        totalWorkersFound := workers.length, offset := data.offset
        waveSize := plan.targetCandidateCount
        hasMoreCandidates := some (decide (plan.targetCandidateCount ≤ workers.length))
        candidatesExhausted := some (workers.isEmpty && isFinalAllowedWave) }
    pure { status := .created, workerIds := waveWorkers
           workersDispatchedCount := waveWorkers.length }

def giveUp (requirementId : Id) (waveNumber : Nat) : Service DispatchOperationResult := do
  Call.stmt (.noWorkers requirementId (some waveNumber)) (noWorkers requirementId)
  pure { status := .no_workers }

def processDispatchJob (cfg : Config) (data : DispatchJobData) (matching : List Id) :
    Service DispatchOperationResult := do
  let found ← Call.read (.waveRequirement data.requirementId data.waveNumber) fun d =>
    (d.requirement data.requirementId).map fun r => (r, d.job r.jobId)
  match found with
  | none => pure { status := .skipped_not_found }
  | some (req, job) =>
    if req.status = .FILLED ∨ req.status = .CANCELLED then pure { status := .skipped_terminal }
    else do
      let existingWave ← Call.read (.waveLookup data.requirementId data.waveNumber) fun d =>
        d.wave data.requirementId data.waveNumber
      match existingWave with
      | some wave => alreadyProcessed data.requirementId data.waveNumber (some wave)
      | none =>
        if ¬ validateDispatchCoordinates (job.bind (·.latitude)) (job.bind (·.longitude)) then
          giveUp data.requirementId data.waveNumber
        else if data.waveNumber = 0 then throw (.plain "waveNumber must start at 1")
        else
          let initialPlan := planDispatchWave cfg req.workerCountNeeded req.workerCountFilled
            data.waveNumber
          if ¬ initialPlan.canDispatch then pure { status := .skipped_terminal }
          else do
            let workers ← query fun d =>
              d.candidates data.requirementId matching initialPlan.targetCandidateCount
            let plan := planDispatchWave cfg req.workerCountNeeded req.workerCountFilled
              data.waveNumber (some workers.length)
            if ¬ plan.canDispatch then giveUp data.requirementId data.waveNumber
            else persistWave data plan workers initialPlan.isFinalAllowedWave

/-! ### Timeouts -/

/-- Whether a timeout job says that no candidate is left, with its fallbacks for jobs
that do not carry the newer fields. -/
def TimeoutJobData.isCandidatesExhausted (data : TimeoutJobData) : Bool :=
  match data.candidatesExhausted, data.hasMoreCandidates with
  | some exhausted, _ => exhausted
  | none, some more => !more && decide (4 < data.waveNumber + 1)
  | none, none => decide (data.totalWorkersFound ≤ data.offset + data.waveSize)

def processTimeoutJob (cfg : Config) (data : TimeoutJobData) : Service Unit := do
  let found ← query fun d => d.requirement data.requirementId
  match found with
  | none => pure ()
  | some req =>
    if req.status = .FILLED ∨ req.status = .CANCELLED then pure ()
    else do
      let _ ← Call.stmt (.offersTimedOut data.requirementId data.waveNumber) fun d =>
        let offers := (d.dispatches.filter fun x => x.requirementId = data.requirementId ∧
          x.waveNumber = data.waveNumber ∧ x.status = .pending).map (·.key)
        .ok ([.dispatchStatus offers .timeout], offers.length)
      exhaustWave data.requirementId data.waveNumber
      let nextPlan := planDispatchWave cfg req.workerCountNeeded req.workerCountFilled
        (data.waveNumber + 1) none data.isCandidatesExhausted
      if ¬ nextPlan.canDispatch ∨ ¬ nextPlan.shouldTryNextWave then
        Call.stmt (.noWorkers data.requirementId none) (noWorkers data.requirementId)
      else addDispatchJob { requirementId := data.requirementId, jobId := data.jobId
                            waveNumber := data.waveNumber + 1
                            offset := data.offset + data.waveSize }

/-! ### Reconciliation -/

structure ReconciliationReport where
  scannedRequirements : Nat := 0
  expiredWavesClosed : Nat := 0
  activeTimeoutsRestored : Nat := 0
  missingWavesScheduled : Nat := 0
  errors : List (Id × Failure) := []
deriving DecidableEq, Repr

/-- The requirements the scan considers: open or dispatching, of a job still looking for
workers. -/
def Db.reconcilable (d : Db) : List Requirement :=
  d.requirements.filter fun r =>
    decide (r.status = .DISPATCHING ∨ r.status = .OPEN) &&
      match d.job r.jobId with
      | some job => decide (job.status ≠ .BOOKED ∧ job.status ≠ .COMPLETED ∧
          job.status ≠ .CANCELLED)
      | none => false

/-- `findFirst` ordered by descending wave number. -/
def Db.latestWave (d : Db) (requirementId : Id) : Option Wave :=
  (d.waves.filter fun w => w.requirementId = requirementId).foldl (fun best w =>
    match best with
    | none => some w
    | some b => if b.waveNumber < w.waveNumber then some w else some b) none

/-- What the repair of one requirement adds to the report, and the status it wrote. -/
structure Repair where
  report : ReconciliationReport := {}
  status : Option RequirementStatus := none

/-- The tail of cases A and D: schedule the next wave, or give up. -/
def scheduleNext (cfg : Config) (req : Requirement) (latest : Wave) (closed : Nat) :
    Service Repair :=
  let nextPlan := planDispatchWave cfg req.workerCountNeeded req.workerCountFilled
    (latest.waveNumber + 1)
  if nextPlan.canDispatch then do
    addDispatchJob { requirementId := req.id, jobId := req.jobId
                     waveNumber := latest.waveNumber + 1
                     offset := latest.waveNumber * latest.workersNotified }
    pure { report := { expiredWavesClosed := closed, missingWavesScheduled := 1 } }
  else do
    step (noWorkers req.id)
    pure { report := { expiredWavesClosed := closed }, status := some .NO_WORKERS_AVAILABLE }

/-- Case A: the active wave expired while the system was down. -/
def closeExpired (cfg : Config) (req : Requirement) (latest : Wave) : Service Repair := do
  let _ ← setOffers (fun x => x.requirementId = req.id ∧ x.waveNumber = latest.waveNumber ∧
    x.status = .pending) .timeout
  step fun _ => .ok ([.exhaustWave req.id latest.waveNumber], ())
  scheduleNext cfg req latest 1

/-- Case B: the active wave is in flight, its timeout is enqueued again. -/
def restoreTimeout (req : Requirement) (latest : Wave) : Service Repair := do
  addTimeoutJob { requirementId := req.id, jobId := req.jobId, waveNumber := latest.waveNumber
                  totalWorkersFound := latest.workersNotified
                  offset := (latest.waveNumber - 1) * latest.workersNotified
                  waveSize := latest.workersNotified }
  pure { report := { activeTimeoutsRestored := 1 } }

/-- Case C: no wave yet. -/
def scheduleFirst (req : Requirement) : Service Repair := do
  onlyIf (decide (req.status ≠ .DISPATCHING)) (step fun d =>
    if (d.requirement req.id).isNone then .error .recordNotFound
    else .ok ([.requirementStatus [req.id] .DISPATCHING], ()))
  addDispatchJob { requirementId := req.id, jobId := req.jobId }
  pure { report := { missingWavesScheduled := 1 }
         status := if req.status ≠ .DISPATCHING then some .DISPATCHING else none }

def repairTx (cfg : Config) (now : Nat) (req : Requirement) (scannedWave : Option Wave) :
    Service Repair := do
  let canProcess ← Call.skipLocked .step (.requirement req.id)
  if ¬ canProcess then pure {}
  else do
    let currentWave ← query fun d => d.latestWave req.id
    match currentWave.or scannedWave with
    | none => scheduleFirst req
    | some latest =>
      match latest.status with
      | .active =>
        if latest.notifiedAt + cfg.timeoutMs ≤ now then closeExpired cfg req latest
        else restoreTimeout req latest
      | .exhausted => scheduleNext cfg req latest 0

def repair (cfg : Config) (now : Nat) (req : Requirement) (scannedWave : Option Wave) :
    Service ReconciliationReport := do
  let result ← Call.attempt (Call.transaction (fun r => .reconciled req.id r.status)
    (repairTx cfg now req scannedWave))
  match result with
  | .ok r => pure r.report
  | .error e => pure { errors := [(req.id, e)] }

def ReconciliationReport.add (a b : ReconciliationReport) : ReconciliationReport :=
  { scannedRequirements := a.scannedRequirements
    expiredWavesClosed := a.expiredWavesClosed + b.expiredWavesClosed
    activeTimeoutsRestored := a.activeTimeoutsRestored + b.activeTimeoutsRestored
    missingWavesScheduled := a.missingWavesScheduled + b.missingWavesScheduled
    errors := a.errors ++ b.errors }

def repairAll (cfg : Config) (now : Nat) (report : ReconciliationReport) :
    List (Requirement × Option Wave) → Service ReconciliationReport
  | [] => pure report
  | (req, scannedWave) :: rest =>
    if req.isFull then repairAll cfg now report rest
    else do
      let repaired ← repair cfg now req scannedWave
      repairAll cfg now (report.add repaired) rest

def reconcileDispatchState (cfg : Config) : Service ReconciliationReport := do
  let candidates ← query fun d => d.reconcilable.map fun r => (r, d.latestWave r.id)
  let now ← query fun d => d.now
  repairAll cfg now { scannedRequirements := candidates.length } candidates

end LabourBaba.Market
