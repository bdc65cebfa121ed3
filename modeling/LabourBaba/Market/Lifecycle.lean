import LabourBaba.Market.Schema

/-!
# Lifecycle rules

The transition tables of jobs and bookings, the capacity model of requirements, the
wave planner and the access policies: everything the services decide without
touching the store, with the errors they throw.
-/
namespace LabourBaba.Market

open Store

/-! ### Errors -/

def JobStatus.text : JobStatus → String
  | .OPEN => "OPEN"
  | .DISPATCHING => "DISPATCHING"
  | .BOOKED => "BOOKED"
  | .IN_PROGRESS => "IN_PROGRESS"
  | .COMPLETED => "COMPLETED"
  | .CANCELLED => "CANCELLED"

def JobAction.text : JobAction → String
  | .CREATE => "CREATE"
  | .START_DISPATCH => "START_DISPATCH"
  | .MARK_BOOKED => "MARK_BOOKED"
  | .REOPEN_DISPATCH => "REOPEN_DISPATCH"
  | .START_WORK => "START_WORK"
  | .COMPLETE => "COMPLETE"
  | .CANCEL => "CANCEL"

def BookingStatus.text : BookingStatus → String
  | .CONFIRMED => "CONFIRMED"
  | .IN_PROGRESS => "IN_PROGRESS"
  | .AWAITING_CONFIRMATION => "AWAITING_CONFIRMATION"
  | .COMPLETED => "COMPLETED"
  | .CANCELLED => "CANCELLED"

def BookingAction.text : BookingAction → String
  | .CREATE => "CREATE"
  | .START_WORK => "START_WORK"
  | .REQUEST_COMPLETION => "REQUEST_COMPLETION"
  | .CONFIRM_COMPLETION => "CONFIRM_COMPLETION"
  | .CANCEL => "CANCEL"

def DispatchStatus.text : DispatchStatus → String
  | .pending => "pending"
  | .accepted => "accepted"
  | .declined => "declined"
  | .timeout => "timeout"
  | .cancelled => "cancelled"
  | .expired => "expired"

def Role.text : Role → String
  | .CUSTOMER => "customer"
  | .WORKER => "worker"
  | .ADMIN => "admin"
  | .SYSTEM => "SYSTEM"
  | .DISPATCH_WORKER => "DISPATCH_WORKER"

/-- What a service throws: its error classes, and the database and queue errors that
pass through it. -/
inductive Failure where
  | authorization (message : String) (statusCode : Nat) (code : String)
  | jobNotFound (message : String)
  | jobInvalidTransition (fromStatus : JobStatus) (action : JobAction) (message : String)
  | jobStateConflict (message : String)
  | jobForbidden (message : String)
  | bookingNotFound (message : String)
  | bookingInvalidTransition (fromStatus : BookingStatus) (action : BookingAction) (message : String)
  | bookingForbidden (message : String)
  | otpWrongState (message : String)
  | otpAlreadyConsumed (message : String)
  | otpLocked (message : String)
  | otpExpired (message : String)
  | otpInvalid (message : String)
  | requirementNotFound (message : String)
  | requirementInvalidTransition (fromStatus : RequirementStatus) (message : String)
  | requirementCapacityExceeded (message : String)
  | requirementWorkerCountInvalid (message : String)
  | requirementForbidden (message : String)
  | dispatchAcceptance (message code : String) (statusCode : Nat)
  | badRequest (message : String)
  | plain (message : String)
  | uniqueViolation (constraint : String)
  | checkViolation (constraint : String)
  | foreignKeyViolation (constraint : String)
  | recordNotFound
  /-- PostgreSQL refuses every statement after a failed one until the rollback. -/
  | transactionAborted
  | queueUnavailable
deriving DecidableEq, Repr

/-- The status code and the code the error classes carry. -/
def Failure.http : Failure → Nat × String
  | .authorization _ status code => (status, code)
  | .jobNotFound _ => (404, "JOB_NOT_FOUND")
  | .jobInvalidTransition _ _ _ => (400, "JOB_INVALID_TRANSITION")
  | .jobStateConflict _ => (409, "JOB_STATE_CONFLICT")
  | .jobForbidden _ => (403, "JOB_FORBIDDEN")
  | .bookingNotFound _ => (404, "BOOKING_NOT_FOUND")
  | .bookingInvalidTransition _ _ _ => (400, "BOOKING_INVALID_TRANSITION")
  | .bookingForbidden _ => (403, "BOOKING_FORBIDDEN")
  | .otpWrongState _ => (400, "OTP_WRONG_STATE")
  | .otpAlreadyConsumed _ => (409, "OTP_ALREADY_USED")
  | .otpLocked _ => (400, "OTP_LOCKED")
  | .otpExpired _ => (400, "OTP_EXPIRED")
  | .otpInvalid _ => (400, "OTP_INVALID")
  | .requirementNotFound _ => (404, "REQUIREMENT_NOT_FOUND")
  | .requirementInvalidTransition _ _ => (400, "REQUIREMENT_INVALID_TRANSITION")
  | .requirementCapacityExceeded _ => (409, "REQUIREMENT_CAPACITY_EXCEEDED")
  | .requirementWorkerCountInvalid _ => (400, "REQUIREMENT_WORKER_COUNT_INVALID")
  | .requirementForbidden _ => (403, "REQUIREMENT_FORBIDDEN")
  | .dispatchAcceptance _ code status => (status, code)
  | .badRequest _ => (400, "")
  | .uniqueViolation _ => (500, "P2002")
  | .checkViolation _ => (500, "23514")
  | .foreignKeyViolation _ => (500, "P2003")
  | .recordNotFound => (500, "P2025")
  | .transactionAborted => (500, "25P02")
  | .plain _ | .queueUnavailable => (500, "")

/-! ### Coordinates -/

/-- `validateCoordinatePair`: the failed check's message, if any. -/
def validateCoordinatePair (latitude longitude : Option Rat) : Except String (Rat × Rat) :=
  match latitude, longitude with
  | none, none =>
    .error "Coordinates are required: both latitude and longitude must be provided"
  | some lat, some lon =>
    if lat < -90 ∨ 90 < lat then .error "Latitude must be between -90 and 90 degrees"
    else if lon < -180 ∨ 180 < lon then .error "Longitude must be between -180 and 180 degrees"
    else .ok (lat, lon)
  | _, _ =>
    .error "Partial coordinate pair rejected: both latitude and longitude must be provided together"

/-- `validateOptionalCoordinatePair`: an absent pair is accepted too. -/
def validateOptionalCoordinatePair (latitude longitude : Option Rat) :
    Except String (Option Rat × Option Rat) :=
  match latitude, longitude with
  | none, none => .ok (none, none)
  | _, _ => (validateCoordinatePair latitude longitude).map fun pair => (some pair.1, some pair.2)

def validateDispatchCoordinates (latitude longitude : Option Rat) : Bool :=
  match validateCoordinatePair latitude longitude with
  | .ok _ => true
  | .error _ => false

/-! ### Jobs -/

structure JobTransitionRule where
  targetStatus : JobStatus
  allowedRoles : List Role

def jobTransitionTable : JobStatus → JobAction → Option JobTransitionRule
  | .OPEN, .START_DISPATCH => some ⟨.DISPATCHING, [.ADMIN, .SYSTEM, .DISPATCH_WORKER]⟩
  | .OPEN, .MARK_BOOKED => some ⟨.BOOKED, [.ADMIN, .SYSTEM, .DISPATCH_WORKER, .WORKER]⟩
  | .OPEN, .CANCEL => some ⟨.CANCELLED, [.CUSTOMER, .ADMIN, .SYSTEM]⟩
  | .DISPATCHING, .MARK_BOOKED => some ⟨.BOOKED, [.ADMIN, .SYSTEM, .DISPATCH_WORKER, .WORKER]⟩
  | .DISPATCHING, .START_WORK => some ⟨.IN_PROGRESS, [.ADMIN, .SYSTEM, .WORKER]⟩
  | .DISPATCHING, .CANCEL => some ⟨.CANCELLED, [.CUSTOMER, .ADMIN, .SYSTEM]⟩
  | .BOOKED, .START_WORK => some ⟨.IN_PROGRESS, [.ADMIN, .SYSTEM, .WORKER]⟩
  | .BOOKED, .REOPEN_DISPATCH => some ⟨.DISPATCHING, [.ADMIN, .SYSTEM, .DISPATCH_WORKER]⟩
  | .BOOKED, .COMPLETE => some ⟨.COMPLETED, [.CUSTOMER, .ADMIN, .SYSTEM]⟩
  | .BOOKED, .CANCEL => some ⟨.CANCELLED, [.CUSTOMER, .ADMIN, .SYSTEM]⟩
  | .IN_PROGRESS, .REOPEN_DISPATCH => some ⟨.DISPATCHING, [.ADMIN, .SYSTEM, .DISPATCH_WORKER]⟩
  | .IN_PROGRESS, .COMPLETE => some ⟨.COMPLETED, [.CUSTOMER, .ADMIN, .SYSTEM]⟩
  | .IN_PROGRESS, .CANCEL => some ⟨.CANCELLED, [.ADMIN, .SYSTEM]⟩
  | _, _ => none

/-- `canTransition` of the job state machine: the rule that applies, or the error that
the transition throws for the refusal's reason. -/
def jobCanTransition (currentStatus : JobStatus) (action : JobAction) (actor : TransitionActor)
    (jobCustomerId : Id) : Except Failure JobTransitionRule :=
  if actor.role = .CUSTOMER ∧ actor.id.isSome ∧ actor.id ≠ some jobCustomerId then
    .error (.jobForbidden "Forbidden: You do not own this job")
  else match jobTransitionTable currentStatus action with
    | none => .error (.jobInvalidTransition currentStatus action
        s!"Action '{action.text}' is not allowed when job is in status '{currentStatus.text}'")
    | some rule =>
      if actor.role ∈ rule.allowedRoles then .ok rule
      else .error (.jobInvalidTransition currentStatus action
        s!"Actor role '{actor.role.text}' is not authorized to execute '{action.text}'")

/-! ### Bookings -/

structure BookingTransitionRule where
  targetStatus : BookingStatus
  allowedRoles : List Role
  requiresWorkerMatch : Bool := false
  requiresCustomerMatch : Bool := false

def bookingTransitionTable : BookingStatus → BookingAction → Option BookingTransitionRule
  | .CONFIRMED, .START_WORK =>
    some { targetStatus := .IN_PROGRESS, allowedRoles := [.WORKER, .ADMIN, .SYSTEM],
           requiresWorkerMatch := true }
  | .CONFIRMED, .CANCEL =>
    some { targetStatus := .CANCELLED, allowedRoles := [.CUSTOMER, .WORKER, .ADMIN, .SYSTEM] }
  | .IN_PROGRESS, .REQUEST_COMPLETION =>
    some { targetStatus := .AWAITING_CONFIRMATION, allowedRoles := [.WORKER, .ADMIN, .SYSTEM],
           requiresWorkerMatch := true }
  | .IN_PROGRESS, .CANCEL =>
    some { targetStatus := .CANCELLED, allowedRoles := [.ADMIN, .SYSTEM, .CUSTOMER, .WORKER] }
  | .AWAITING_CONFIRMATION, .CONFIRM_COMPLETION =>
    some { targetStatus := .COMPLETED, allowedRoles := [.CUSTOMER, .ADMIN, .SYSTEM],
           requiresCustomerMatch := true }
  | .AWAITING_CONFIRMATION, .CANCEL =>
    some { targetStatus := .CANCELLED, allowedRoles := [.ADMIN, .SYSTEM, .CUSTOMER] }
  | _, _ => none

/-- `canTransition` of the booking state machine: the target status, or the error that
the transition throws for the refusal's reason. -/
def bookingCanTransition (currentStatus : BookingStatus) (action : BookingAction)
    (actor : TransitionActor) (customerId workerId : Id) : Except Failure BookingStatus :=
  match bookingTransitionTable currentStatus action with
  | none => .error (.bookingInvalidTransition currentStatus action
      s!"Illegal booking transition: Action '{action.text}' is not permitted from status '{currentStatus.text}'")
  | some rule =>
    if ¬ (actor.role ∈ rule.allowedRoles ∨ actor.role = .ADMIN ∨ actor.role = .SYSTEM) then
      .error (.bookingForbidden
        s!"Role '{actor.role.text}' is not authorized to perform '{action.text}' on booking")
    else if rule.requiresWorkerMatch ∧ actor.role = .WORKER ∧ actor.id ≠ some workerId then
      .error (.bookingForbidden "Forbidden: You are not assigned to this booking")
    else if rule.requiresCustomerMatch ∧ actor.role = .CUSTOMER ∧ actor.id ≠ some customerId then
      .error (.bookingForbidden "Forbidden: You do not own this booking")
    else .ok rule.targetStatus

/-- `ACTIVE_BOOKING_STATUSES`: everything but a cancelled booking holds its slot. -/
def BookingStatus.isActive : BookingStatus → Bool
  | .CONFIRMED | .IN_PROGRESS | .AWAITING_CONFIRMATION | .COMPLETED => true
  | .CANCELLED => false

def BookingStatus.isTerminal : BookingStatus → Bool
  | .COMPLETED | .CANCELLED => true
  | .CONFIRMED | .IN_PROGRESS | .AWAITING_CONFIRMATION => false

/-! ### Capacity -/

/-- `calculateRequirementCapacity`, of a positive demand. -/
structure RequirementCapacity where
  workerCountNeeded : Nat
  filledCapacity : Nat

namespace RequirementCapacity

variable (c : RequirementCapacity)

def remainingCapacity : Nat := c.workerCountNeeded - c.filledCapacity

def isFilled : Bool := decide (c.workerCountNeeded ≤ c.filledCapacity)

def isPartiallyFilled : Bool :=
  decide (0 < c.filledCapacity ∧ c.filledCapacity < c.workerCountNeeded)

end RequirementCapacity

/-- The status `reconcileCapacity` writes for the recounted bookings. -/
def reconciledStatus (currentStatus : RequirementStatus) (capacity : RequirementCapacity) :
    RequirementStatus :=
  if currentStatus = .CANCELLED then .CANCELLED
  else if capacity.isFilled then .FILLED
  else if capacity.isPartiallyFilled then .PARTIALLY_FILLED
  else if currentStatus = .DISPATCHING then .DISPATCHING
  else .OPEN

/-- The status `updateDemand` writes for a new demand. -/
def demandStatus (currentStatus : RequirementStatus) (capacity : RequirementCapacity) :
    RequirementStatus :=
  if capacity.isFilled then .FILLED
  else if capacity.isPartiallyFilled ∧ currentStatus = .FILLED then .PARTIALLY_FILLED
  else currentStatus

/-! ### Configuration and the wave planner -/

/-- `dispatchWaveConfig` and `bookingConfig`, with the password hash comparison. -/
structure Config where
  workerMultiplier : Nat := 2
  radiusMetersByWave : List Nat := [3000, 5000, 10000, 15000]
  timeoutMs : Nat := 30000
  maxWaves : Nat := 4
  bookingOtpTtlSeconds : Nat := 86400
  bookingOtpMaxAttempts : Nat := 5
  comparePassword : Nat → Nat → Bool

structure DispatchWavePlan where
  waveNumber : Nat
  remainingCapacity : Nat
  targetCandidateCount : Nat
  radiusMeters : Nat
  timeoutMs : Nat
  isFinalAllowedWave : Bool
  canDispatch : Bool
  shouldTryNextWave : Bool
deriving DecidableEq, Repr

/-- `planDispatchWave` for a wave number of at least one. -/
def planDispatchWave (cfg : Config) (workerCountNeeded workersAlreadyAssigned waveNumber : Nat)
    (availableCandidates : Option Nat := none) (candidatesExhausted : Bool := false) :
    DispatchWavePlan :=
  let remainingCapacity := workerCountNeeded - workersAlreadyAssigned
  let targetByCapacity := remainingCapacity * cfg.workerMultiplier
  let targetCandidateCount := match availableCandidates with
    | none => targetByCapacity
    | some available => min targetByCapacity available
  let isFinalAllowedWave := decide (cfg.maxWaves ≤ waveNumber)
  let canDispatch := decide
    (waveNumber ≤ cfg.maxWaves ∧ 0 < remainingCapacity ∧ 0 < targetCandidateCount)
  { waveNumber, remainingCapacity, targetCandidateCount
    radiusMeters := (cfg.radiusMetersByWave[min waveNumber cfg.maxWaves - 1]?).getD 0
    timeoutMs := cfg.timeoutMs
    isFinalAllowedWave, canDispatch
    shouldTryNextWave := canDispatch && !isFinalAllowedWave && !candidatesExhausted }

/-! ### Policies -/

def canCreateRequirement (actor : AuthenticatedUser) (job : Job) : Except Failure Unit :=
  if actor.role = .ADMIN then .ok ()
  else if actor.role = .CUSTOMER then
    if job.customerId = actor.id then .ok ()
    else .error (.authorization "Forbidden: You do not own this job" 403 "NOT_OWNER")
  else .error (.authorization "Forbidden: Only customers can add requirements to jobs" 403
    "ROLE_FORBIDDEN")

def canUpdateRequirement (actor : AuthenticatedUser) (jobCustomerId : Id) : Except Failure Unit :=
  if actor.role = .ADMIN then .ok ()
  else if actor.role = .CUSTOMER then
    if jobCustomerId = actor.id then .ok ()
    else .error (.authorization "Forbidden: You do not own this requirement" 403 "NOT_OWNER")
  else .error (.authorization "Forbidden: Insufficient permissions to update requirement" 403
    "ROLE_FORBIDDEN")

def canVerifyOtp (actor : AuthenticatedUser) (booking : Booking) : Except Failure Unit :=
  if actor.role = .ADMIN then .ok ()
  else if actor.role ≠ .WORKER then
    .error (.authorization "Forbidden: Only assigned workers can verify job OTP" 403
      "ROLE_FORBIDDEN")
  else if booking.workerId ≠ actor.id then
    .error (.authorization "Forbidden: You are not assigned to this booking" 403
      "NOT_ASSIGNED_WORKER")
  else .ok ()

def canComplete (actor : AuthenticatedUser) (booking : Booking) : Except Failure Unit :=
  if actor.role ≠ .WORKER then
    .error (.authorization "Forbidden: Only assigned workers can mark jobs complete" 403
      "ROLE_FORBIDDEN")
  else if booking.workerId ≠ actor.id then
    .error (.authorization "Forbidden: You are not assigned to this booking" 403
      "NOT_ASSIGNED_WORKER")
  else .ok ()

def canConfirmCompletion (actor : AuthenticatedUser) (booking : Booking) : Except Failure Unit :=
  if actor.role ≠ .CUSTOMER then
    .error (.authorization "Forbidden: Only customers can confirm booking completion" 403
      "ROLE_FORBIDDEN")
  else if booking.customerId ≠ actor.id then
    .error (.authorization "Forbidden: You do not own this booking" 403 "NOT_OWNER")
  else .ok ()

def canCancel (actor : AuthenticatedUser) (booking : Booking) : Except Failure Unit :=
  if actor.role = .ADMIN then .ok ()
  else if actor.role = .CUSTOMER ∧ booking.customerId = actor.id then .ok ()
  else if actor.role = .WORKER ∧ booking.workerId = actor.id then .ok ()
  else .error (.authorization "Forbidden: You are not an authorized participant of this booking" 403
    "NOT_PARTICIPANT")

end LabourBaba.Market
