import LabourBaba.Market.JobServices

/-!
# Booking services

The booking state machine and the calls of `bookingService` that move a booking, each
with the job-level step it runs inside the same transaction.

A violated unique constraint aborts the PostgreSQL transaction it happens in. Where
the source catches such a violation inside a transaction and carries on, the next
statement fails, so these statements throw `transactionAborted`.
-/
namespace LabourBaba.Market

open Store

/-- The characters that `String.prototype.trim` strips. -/
def isTrimmed (c : Char) : Bool :=
  c.toNat ∈ [9, 10, 11, 12, 13, 32, 160, 5760, 8192, 8193, 8194, 8195, 8196, 8197, 8198, 8199,
    8200, 8201, 8202, 8232, 8233, 8239, 8287, 12288, 65279]

def Text.isBlank (text : Text) : Bool := text.all isTrimmed

/-! ### Booking state machine -/

structure BookingTransitionResult where
  booking : Booking
  previousStatus : BookingStatus
  currentStatus : BookingStatus
  action : BookingAction
  isIdempotent : Bool

/-- `SELECT ... FROM booking WHERE ... FOR UPDATE`. An identifier without a row is locked too:
the database generates identifiers that no running call holds, so no row appears under one
that a transaction has already asked for. -/
def lockBooking (bookingId : Id) (inScope : Booking → Bool) : Service (Option Booking) :=
  Call.lock .step
    (fun d => if (d.booking bookingId).all inScope then [.booking bookingId] else [])
    fun d => (d.booking bookingId).filter inScope

/-- The locked row of a booking, or else a plain read of it. -/
def lockOrReadBooking (bookingId : Id) (inScope : Booking → Bool) : Service (Option Booking) := do
  let row ← lockBooking bookingId inScope
  match row with
  | some booking => pure (some booking)
  | none => query fun d => (d.booking bookingId).filter inScope

/-- The UPDATE of a booking transition with its lifecycle columns. -/
def setBookingStatus (bookingId : Id) (targetStatus : BookingStatus) (now : Nat) (d : Db) :
    Except Failure (List Write × Unit) :=
  if (d.booking bookingId).isNone then .error .recordNotFound
  else if targetStatus = .IN_PROGRESS then
    .ok ([.bookingStatus bookingId targetStatus, .bookingOtpConsumed bookingId now], ())
  else .ok ([.bookingStatus bookingId targetStatus], ())

/-- `bookingStateService.transition`, inside the caller's transaction. -/
def bookingTransition (bookingId : Id) (action : BookingAction) (actor : TransitionActor)
    (reason : Text) : Service BookingTransitionResult := do
  let lockedBooking ← lockOrReadBooking bookingId fun _ => true
  match lockedBooking with
  | none => throw (.bookingNotFound s!"Booking '{bookingId}' not found")
  | some booking =>
    if action = .CONFIRM_COMPLETION ∧ booking.status = .COMPLETED then
      if actor.role = .CUSTOMER ∧ actor.id ≠ some booking.customerId then
        throw (.bookingForbidden "Forbidden: You do not own this booking")
      else pure { booking, previousStatus := .COMPLETED, currentStatus := .COMPLETED, action
                  isIdempotent := true }
    else if action = .REQUEST_COMPLETION ∧ booking.status = .AWAITING_CONFIRMATION then
      if actor.role = .WORKER ∧ actor.id ≠ some booking.workerId then
        throw (.bookingForbidden "Forbidden: You are not assigned to this booking")
      else pure { booking, previousStatus := .AWAITING_CONFIRMATION
                  currentStatus := .AWAITING_CONFIRMATION, action, isIdempotent := true }
    else match bookingCanTransition booking.status action actor booking.customerId booking.workerId with
      | .error e => throw e
      | .ok targetStatus =>
        if action = .CANCEL ∧ reason.isBlank then
          throw (.bookingInvalidTransition booking.status action
            "Cancellation reason is required and cannot be empty")
        else do
          let now ← query fun d => d.now
          step (setBookingStatus bookingId targetStatus now)
          step fun _ => .ok ([.bookingTransition
            { bookingId, fromStatus := booking.status, toStatus := targetStatus, action
              actorType := actor.role, actorId := actor.id }], ())
          pure { booking, previousStatus := booking.status, currentStatus := targetStatus, action
                 isIdempotent := false }

/-! ### Starting work -/

/-- The authorization check of `verifyOtp`. -/
def otpPolicy (actor : Option AuthenticatedUser) (workerId : Id) (booking : Booking) :
    Except Failure Unit :=
  match actor with
  | some actor => canVerifyOtp actor booking
  | none =>
    if booking.workerId ≠ workerId then
      .error (.authorization "Forbidden: You are not assigned to this booking" 403 "FORBIDDEN")
    else .ok ()

def isRole (actor : Option AuthenticatedUser) (role : Role) : Bool :=
  match actor with
  | some actor => decide (actor.role = role)
  | none => false

/-- The acting user's id if the actor has the given role, else the id passed by the caller. -/
def effectiveId (actor : Option AuthenticatedUser) (role : Role) (id : Id) : Id :=
  match actor with
  | some actor => if actor.role = role then actor.id else id
  | none => id

/-- The acting user's id whatever the role, else the id passed by the caller. -/
def actingId (actor : Option AuthenticatedUser) (id : Id) : Id :=
  match actor with
  | some actor => actor.id
  | none => id

def roleOr (actor : Option AuthenticatedUser) (role : Role) : Role :=
  match actor with
  | some actor => actor.role
  | none => role

def bookingForOtp (bookingId workerId : Id) (actor : Option AuthenticatedUser) :
    Service (Option Booking) := do
  let effectiveWorkerId := effectiveId actor .WORKER workerId
  let assigned ← lockOrReadBooking bookingId fun b =>
    isRole actor .ADMIN || decide (b.workerId = effectiveWorkerId)
  match assigned with
  | some booking => pure (some booking)
  | none => do
    let candidate ← query fun d => d.booking bookingId
    match candidate with
    | none => pure none
    | some booking => do
      assertPolicy (otpPolicy actor effectiveWorkerId booking)
      pure (some booking)

inductive OtpResult where
  | verified (jobId : Id) (jobStarted : Bool)
  | rejected (isNowLocked : Bool)

/-- The attempt counter's UPDATE; the lock time is only set when the limit is reached. -/
def countOtpAttempt (bookingId : Id) (attempts : Nat) (isNowLocked : Bool) (now : Nat) (d : Db) :
    Except Failure (List Write × Unit) :=
  match d.booking bookingId with
  | none => .error .recordNotFound
  | some row =>
    .ok ([.bookingOtpAttempts bookingId attempts
      (if isNowLocked then some now else row.otpLockedAt)], ())

/-- The comparison with the hash. A wrong guess always runs to the commit of its counter, so
what is recorded with the transaction is every wrong guess but that of a crashed call. -/
def compareOtp (cfg : Config) (booking : Booking) (otp now : Nat) : Service Bool :=
  step fun _ => .ok ([.guessed { bookingId := booking.id, otp, at_ := now
                                 matched := cfg.comparePassword otp booking.otpHash }],
    cfg.comparePassword otp booking.otpHash)

def verifyOtpTx (cfg : Config) (bookingId workerId : Id) (otp : Nat)
    (actor : Option AuthenticatedUser) : Service OtpResult := do
  let effectiveWorkerId := effectiveId actor .WORKER workerId
  let lockedBooking ← bookingForOtp bookingId workerId actor
  match lockedBooking with
  | none => throw (.authorization "Booking not found" 404 "FORBIDDEN")
  | some booking => do
    assertPolicy (otpPolicy actor workerId booking)
    let now ← query fun d => d.now
    if booking.status ≠ .CONFIRMED then
      throw (.otpWrongState
        s!"Cannot verify OTP: Booking is in status '{booking.status.text}', expected 'CONFIRMED'")
    else if booking.otpConsumedAt.isSome ∨ booking.otpVerified = true then
      throw (.otpAlreadyConsumed "Booking OTP has already been verified and consumed")
    else if booking.otpLockedAt.isSome ∨ cfg.bookingOtpMaxAttempts ≤ booking.otpAttempts then
      throw (.otpLocked "Maximum verification attempts exceeded. Booking OTP is locked.")
    else if booking.otpExpiresAt < now then
      throw (.otpExpired "Booking OTP has expired")
    else do
      let isValid ← compareOtp cfg booking otp now
      if isValid then do
        let _ ← bookingTransition bookingId .START_WORK
          { id := some effectiveWorkerId, role := roleOr actor .WORKER } []
        let jobStarted ← unlessInvalidFrom [.IN_PROGRESS]
          (jobTransition booking.jobId .START_WORK { id := some effectiveWorkerId, role := .WORKER })
        pure (.verified booking.jobId jobStarted)
      else do
        let isNowLocked := decide (cfg.bookingOtpMaxAttempts ≤ booking.otpAttempts + 1)
        step (countOtpAttempt bookingId (booking.otpAttempts + 1) isNowLocked now)
        pure (.rejected isNowLocked)

def OtpResult.label (bookingId : Id) : OtpResult → Label
  | .verified jobId jobStarted => .workStarted bookingId jobId jobStarted
  | .rejected _ => .otpRejected bookingId

def verifyOtp (cfg : Config) (bookingId workerId : Id) (otp : Nat)
    (actor : Option AuthenticatedUser) : Service Unit := do
  let txResult ← Call.transaction (OtpResult.label bookingId)
    (verifyOtpTx cfg bookingId workerId otp actor)
  match txResult with
  | .verified _ _ => pure ()
  | .rejected true =>
    throw (.otpLocked "Maximum verification attempts exceeded. Booking OTP is locked.")
  | .rejected false => throw (.otpInvalid "Invalid OTP")

/-! ### Completion -/

/-- The authorization check of `completeBooking`. -/
def completePolicy (actor : Option AuthenticatedUser) (workerId : Id) (booking : Booking) :
    Except Failure Unit :=
  match actor with
  | some actor => canComplete actor booking
  | none =>
    if booking.workerId ≠ workerId then
      .error (.authorization "Forbidden: You are not assigned to this booking" 403 "FORBIDDEN")
    else .ok ()

def completeBooking (bookingId workerId : Id) (actor : Option AuthenticatedUser) : Service Unit := do
  let effectiveWorkerId := effectiveId actor .WORKER workerId
  Call.transaction (fun _ => .completionRequested bookingId) do
    let found ← query fun d => (d.booking bookingId).filter fun b =>
      isRole actor .ADMIN || decide (b.workerId = effectiveWorkerId)
    match found with
    | none => throw (.authorization "Booking not found" 404 "FORBIDDEN")
    | some booking => do
      assertPolicy (completePolicy actor workerId booking)
      let _ ← bookingTransition bookingId .REQUEST_COMPLETION
        { id := some effectiveWorkerId, role := roleOr actor .WORKER } []
      pure ()

/-- The authorization check of `confirmComplete`. -/
def confirmPolicy (actor : Option AuthenticatedUser) (customerId : Id) (booking : Booking) :
    Except Failure Unit :=
  match actor with
  | some actor => canConfirmCompletion actor booking
  | none =>
    if booking.customerId ≠ customerId then
      .error (.authorization "Forbidden: You do not own this booking" 403 "FORBIDDEN")
    else .ok ()

def createReview (review : Review) : Service Unit :=
  step fun d =>
    if d.reviews.any fun old => old.bookingId = review.bookingId then .error .transactionAborted
    else .ok ([.review review], ())

/-- `notification_outbox.create` with the caught unique violation. -/
def createOutbox (key : OutboxKey) : Service Unit :=
  step fun d =>
    if key ∈ d.outbox then .error .transactionAborted else .ok ([.outbox key], ())

def onlyIf (condition : Bool) (body : Service Unit) : Service Unit :=
  if condition then body else pure ()

/-- Whether the parent job was completed by this confirmation. -/
def completeJobIfDone (jobId : Id) (actor : TransitionActor) : Service Bool := do
  let uncompletedBookings ← query fun d =>
    d.bookings.countP fun b => decide (b.jobId = jobId) && !b.status.isTerminal
  if uncompletedBookings = 0 then
    unlessInvalidFrom [.COMPLETED] (jobTransition jobId .COMPLETE actor)
  else pure false

def confirmCompleteTx (bookingId customerId : Id) (rating : Option Nat)
    (actor : Option AuthenticatedUser) : Service (Id × Bool) := do
  let effectiveCustomerId := effectiveId actor .CUSTOMER customerId
  let rated := decide (rating.getD 0 ≠ 0)
  let found ← query fun d => (d.booking bookingId).filter fun b =>
    isRole actor .ADMIN || decide (b.customerId = effectiveCustomerId)
  match found with
  | none => throw (.authorization "Booking not found" 404 "FORBIDDEN")
  | some booking => do
    assertPolicy (confirmPolicy actor customerId booking)
    if rated ∧ booking.status ≠ .COMPLETED ∧ booking.status ≠ .AWAITING_CONFIRMATION then
      throw (.bookingInvalidTransition booking.status .CONFIRM_COMPLETION
        "Cannot review a booking that is not completed")
    else do
      let confirmer : TransitionActor :=
        { id := some effectiveCustomerId, role := roleOr actor .CUSTOMER }
      let transitionResult ← bookingTransition bookingId .CONFIRM_COMPLETION confirmer []
      onlyIf rated (createReview
        { bookingId, workerId := booking.workerId, customerId := effectiveCustomerId
          rating := rating.getD 0 })
      let jobCompleted ← completeJobIfDone booking.jobId confirmer
      onlyIf (!transitionResult.isIdempotent)
        (createOutbox (.bookingCompleted bookingId booking.workerId))
      pure (booking.jobId, jobCompleted)

def confirmComplete (bookingId customerId : Id) (rating : Option Nat)
    (actor : Option AuthenticatedUser) : Service Unit := do
  let _ ← Call.transaction (fun r => .completionConfirmed bookingId r.1 r.2)
    (confirmCompleteTx bookingId customerId rating actor)
  pure ()

/-! ### Cancellation -/

/-- `SELECT id FROM job_requirement WHERE id = ... FOR UPDATE`. The identifier is locked
whether or not it has a row: the database generates identifiers that no running call
holds, so no row appears under one that a transaction has already asked for. -/
def lockRequirement (requirementId : Id) : Service Unit :=
  Call.lock .step (fun _ => [.requirement requirementId]) fun _ => ()

/-- The UPDATE of `reconcileCapacity`, under the capacity CHECK constraint. -/
def setCapacity (requirementId : Id) (filled : Nat) (status : RequirementStatus) (d : Db) :
    Except Failure (List Write × Unit) :=
  match d.requirement requirementId with
  | none => .error .recordNotFound
  | some row =>
    if row.workerCountNeeded < filled then
      .error (.checkViolation "chk_job_requirement_worker_count_capacity")
    else .ok ([.requirementFilled requirementId filled,
               .requirementStatus [requirementId] status], ())

/-- The bookings of a requirement that hold a slot. -/
def Db.activeBookings (d : Db) (requirementId : Id) : Nat :=
  d.bookings.countP fun b => decide (b.requirementId = requirementId) && b.status.isActive

/-- `requirementStateService.reconcileCapacity`, inside the caller's transaction. -/
def reconcileCapacity (requirementId : Id) : Service RequirementCapacity := do
  lockRequirement requirementId
  let found ← query fun d => d.requirement requirementId
  match found with
  | none => throw (.requirementNotFound s!"Requirement '{requirementId}' not found")
  | some req => do
    let activeBookingsCount ← query fun d => d.activeBookings requirementId
    if req.workerCountNeeded = 0 then
      throw (.requirementWorkerCountInvalid
        s!"Invalid worker_count_needed: {req.workerCountNeeded}. Must be an integer >= 1")
    else do
      let capacity : RequirementCapacity := ⟨req.workerCountNeeded, activeBookingsCount⟩
      step (setCapacity requirementId activeBookingsCount (reconciledStatus req.status capacity))
      pure capacity

/-- Whether the parent job goes back to dispatching because no booking is left. -/
def reopenJobIfEmpty (jobId : Id) : Service Bool := do
  let activeBookings ← query fun d =>
    d.bookings.countP fun b => decide (b.jobId = jobId) && b.status.isActive
  if activeBookings = 0 then
    unlessInvalidFrom [.CANCELLED, .DISPATCHING, .COMPLETED]
      (jobTransition jobId .REOPEN_DISPATCH { role := .SYSTEM })
  else pure false

/-- The authorization check of `cancelBooking`. -/
def cancelPolicy (actor : Option AuthenticatedUser) (userId : Id) (booking : Booking) :
    Except Failure Unit :=
  match actor with
  | some actor => canCancel actor booking
  | none =>
    if booking.customerId ≠ userId ∧ booking.workerId ≠ userId then
      .error (.authorization "Forbidden: Not an authorized participant of this booking" 403
        "FORBIDDEN")
    else .ok ()

/-- The rows that the role of the acting user may lock. -/
def cancelScope (role : Role) (actorId : Id) (b : Booking) : Bool :=
  match role with
  | .ADMIN => true
  | .WORKER => decide (b.workerId = actorId)
  | _ => decide (b.customerId = actorId)

def cancelBookingTx (bookingId userId : Id) (reason : Text) (actor : Option AuthenticatedUser) :
    Service (Booking × Bool) := do
  let effectiveActorId := actingId actor userId
  let effectiveRole := roleOr actor .CUSTOMER
  let lockedBooking ← lockOrReadBooking bookingId (cancelScope effectiveRole effectiveActorId)
  match lockedBooking with
  | none => throw (.authorization "Booking not found" 404 "FORBIDDEN")
  | some booking => do
    assertPolicy (cancelPolicy actor userId booking)
    if reason.isBlank then
      throw (.bookingInvalidTransition booking.status .CANCEL
        "Cancellation reason is required and cannot be empty")
    else do
      let transitionResult ← bookingTransition bookingId .CANCEL
        { id := some effectiveActorId, role := effectiveRole } reason
      if transitionResult.isIdempotent then pure (booking, false)
      else do
        let _ ← reconcileCapacity booking.requirementId
        let _ ← setOffers (fun x => x.requirementId = booking.requirementId ∧
          x.workerId = booking.workerId ∧ (x.status = .accepted ∨ x.status = .pending)) .cancelled
        let jobReopened ← reopenJobIfEmpty booking.jobId
        createOutbox (if effectiveRole = .WORKER
          then .bookingCancelled bookingId .CUSTOMER booking.customerId
          else .bookingCancelled bookingId .WORKER booking.workerId)
        pure (booking, jobReopened)

def cancelBooking (bookingId userId : Id) (reason : Text) (actor : Option AuthenticatedUser) :
    Service Unit := do
  let _ ← Call.transaction (fun r => .bookingCancelled r.1 r.2)
    (cancelBookingTx bookingId userId reason actor)
  pure ()

end LabourBaba.Market
