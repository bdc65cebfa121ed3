import LabourBaba.Market.Acceptance

/-!
# Responses to acceptances

The controller of a worker's accept request. It sends the worker what `acceptDispatch` returns, and
with it the start OTP and the row that stores the OTP's hash, so the response of an accepted request
tells the worker what the customer is to hand over at the door.
-/
namespace LabourBaba.Market

open Store

/-! ### The controller -/

/-- The names of a worker under which the client sent a truthy value. -/
structure ClientWorker where
  worker_id : Bool := false
  workerId : Bool := false

structure AcceptJobRequest where
  user : Option AuthenticatedUser
  body : ClientWorker := {}
  query : ClientWorker := {}
  requirementId : Option Id

inductive ResponseBody where
  | data (result : Acceptance)
  | failure (message : String) (code : Option String)
deriving DecidableEq

structure Response where
  status : Nat
  body : ResponseBody
deriving DecidableEq

def Failure.message : Failure → String
  | .authorization message _ _ | .jobNotFound message | .jobInvalidTransition _ _ message
  | .jobStateConflict message | .jobForbidden message | .bookingNotFound message
  | .bookingInvalidTransition _ _ message | .bookingForbidden message | .otpWrongState message
  | .otpAlreadyConsumed message | .otpLocked message | .otpExpired message | .otpInvalid message
  | .requirementNotFound message | .requirementInvalidTransition _ message
  | .requirementCapacityExceeded message | .requirementWorkerCountInvalid message
  | .requirementForbidden message | .dispatchAcceptance message _ _ | .badRequest message
  | .plain message => message
  | .uniqueViolation constraint | .checkViolation constraint | .foreignKeyViolation constraint =>
    constraint
  | .recordNotFound | .transactionAborted | .queueUnavailable => ""

/-- The status of an error: its own, or the one its message stands for. -/
def dispatchStatusCode : Failure → Nat
  | .plain message =>
    if message ∈ ["SLOTS_FULL", "DISPATCH_ALREADY_ACCEPTED", "BOOKING_ALREADY_EXISTS"] then 409
    else if message ∈ ["REQUIREMENT_NOT_FOUND", "NO_VALID_DISPATCH", "Requirement not found"] then 404
    else if message = "DISPATCH_EXPIRED" then 410
    else 500
  | e => e.http.1

def handleDispatchControllerError (error : Failure) : Response :=
  if dispatchStatusCode error < 500 then
    ⟨dispatchStatusCode error, .failure error.message
      (if error.http.2 = "" then none else some error.http.2)⟩
  else ⟨500, .failure "An unexpected internal error occurred." (some "INTERNAL_SERVER_ERROR")⟩

/-- What the controller checks: the requirement and the worker of a request it passes on. -/
def acceptJobChecks (request : AcceptJobRequest) : Except Response (Id × Id) :=
  match request.user with
  | none => .error ⟨401, .failure "Unauthorized: Authentication required" none⟩
  | some user =>
    if user.role ≠ .WORKER then .error ⟨403, .failure "Forbidden: Worker role required" none⟩
    else if request.body.worker_id || request.body.workerId || request.query.worker_id ||
        request.query.workerId then
      .error ⟨400, .failure "Client-controlled worker identity is not permitted" none⟩
    else
      match request.requirementId with
      | none => .error ⟨400, .failure "Requirement ID is required" none⟩
      | some requirementId => .ok (requirementId, user.id)

def acceptJob (cfg : Config) (request : AcceptJobRequest) (new : NewBooking) : Service Response :=
  match acceptJobChecks request with
  | .error response => pure response
  | .ok (requirementId, workerId) => do
    let result ← Call.attempt (acceptDispatch cfg requirementId workerId new)
    match result with
    | .ok booking => pure ⟨200, .data booking⟩
    | .error error => pure (handleDispatchControllerError error)

/-! ### What the worker learns -/

/-- The request of a worker for a requirement, with no worker named by the client. -/
structure AcceptJobRequest.Asks (request : AcceptJobRequest) (requirementId workerId : Id) : Prop where
  worker : request.user = some ⟨workerId, .WORKER⟩
  unnamed : (request.body.worker_id || request.body.workerId || request.query.worker_id ||
    request.query.workerId) = false
  requirement : request.requirementId = some requirementId

section Responses

variable {d : Db} {requirementId workerId id : Id} {req : Requirement} {job : Job} {cfg : Config}
  {request : AcceptJobRequest}

theorem acceptJobChecks_ok_iff :
    acceptJobChecks request = .ok (requirementId, workerId) ↔ request.Asks requirementId workerId := by
  constructor
  · intro passes
    rw [acceptJobChecks] at passes
    split at passes
    next => cases passes
    next user authenticated =>
      split at passes
      next => cases passes
      next worker =>
        rw [not_not] at worker
        split at passes
        next => cases passes
        next unnamed =>
          split at passes
          next => cases passes
          next stated =>
            cases passes
            refine ⟨?_, by simpa using unnamed, stated⟩
            rw [authenticated, ← worker]
  · rintro ⟨worker, unnamed, requirement⟩
    simp [acceptJobChecks, worker, unnamed, requirement]

/-- An acceptable call whose draw collides with a stored row. -/
theorem acceptDispatch_collides (answer : Bool) (cfg : Config)
    (acceptable' : d.Acceptable requirementId workerId req job)
    (collides : ¬ (d.booking id = none ∧ .bookingConfirmed id job.customerId ∉ d.outbox)) :
    ∃ e, ∀ otp otpHash, Call.result answer (fun res _ _ => res = .error e)
      (acceptDispatch cfg requirementId workerId { id, otp, otpHash }) none d := by
  obtain ⟨requirementPasses, offerPasses⟩ := preflight_acceptable acceptable'
  obtain ⟨e, thrown⟩ := acceptTx_collides answer cfg acceptable' collides
  refine ⟨acceptanceError e, fun otp otpHash => ?_⟩
  rw [acceptDispatch]
  simp only [query, Call.result_bind, Call.result_read, Call.resultThen_ok, Tx.view_none,
    requirementPasses, offerPasses, assertPolicy, Call.result_pure, Call.result_attempt,
    Call.result_transaction]
  refine Call.result_mono ?_ (thrown otp otpHash)
  rintro res tx d' ⟨rfl, -⟩
  rfl

/-- The response of a request that `acceptDispatch` refuses. -/
theorem acceptJob_refuses (answer : Bool) (asks : request.Asks requirementId workerId)
    {new : NewBooking} {e : Failure}
    (refused : Call.result answer (fun res _ _ => res = .error e)
      (acceptDispatch cfg requirementId workerId new) none d) :
    Call.result answer (fun res _ _ => res = .ok (handleDispatchControllerError e))
      (acceptJob cfg request new) none d := by
  rw [acceptJob, acceptJobChecks_ok_iff.mpr asks]
  simp only [Call.result_bind, Call.result_attempt]
  refine Call.result_mono ?_ refused
  rintro res tx d' rfl
  rfl

/-- The response of an accepted request. -/
theorem acceptJob_accepts (answer : Bool) (cfg : Config) (asks : request.Asks requirementId workerId)
    (acceptable' : d.Acceptable requirementId workerId req job) (new : NewBooking)
    (unused : new.Unused d job.customerId) (unique : Table.Unique Dispatch.key d.dispatches) :
    Call.result answer
      (fun res _ _ => res = .ok ⟨200, .data (d.acceptance cfg requirementId workerId new req job)⟩)
      (acceptJob cfg request new) none d := by
  rw [acceptJob, acceptJobChecks_ok_iff.mpr asks]
  simp only [Call.result_bind, Call.result_attempt]
  refine Call.result_mono ?_ (acceptDispatch_accepts answer cfg acceptable' unused unique)
  rintro res tx d' ⟨rfl, -⟩
  rfl

/-- The response is the same whatever OTP, with whatever hash, is drawn. -/
def OtpHidden (cfg : Config) (answer : Bool) (d : Db) (request : AcceptJobRequest) (id : Id) : Prop :=
  ∀ otp₁ hash₁ otp₂ hash₂,
    ((acceptJob cfg request ⟨id, otp₁, hash₁⟩).run.alone answer none d).1 =
      ((acceptJob cfg request ⟨id, otp₂, hash₂⟩).run.alone answer none d).1

theorem otpHidden_of_response {answer : Bool} {response : Except Failure Response}
    (responds : ∀ otp hash, Call.result answer (fun res _ _ => res = response)
      (acceptJob cfg request ⟨id, otp, hash⟩) none d) : OtpHidden cfg answer d request id :=
  fun otp₁ hash₁ otp₂ hash₂ => (responds otp₁ hash₁).trans (responds otp₂ hash₂).symm

/-- Two OTPs get two responses. -/
theorem accepted_reveals (answer : Bool) (cfg : Config) (asks : request.Asks requirementId workerId)
    (acceptable' : d.Acceptable requirementId workerId req job)
    (unused : d.booking id = none ∧ .bookingConfirmed id job.customerId ∉ d.outbox)
    (unique : Table.Unique Dispatch.key d.dispatches) : ¬ OtpHidden cfg answer d request id := by
  intro hidden
  have first := acceptJob_accepts answer cfg asks acceptable' ⟨id, 0, 0⟩ unused unique
  have second := acceptJob_accepts answer cfg asks acceptable' ⟨id, 1, 0⟩ unused unique
  have same := (first.symm.trans (hidden 0 0 1 0)).trans second
  simp [Db.acceptance] at same

end Responses

/-- The response hides the OTP from the worker exactly when the request is refused. -/
theorem otp_hidden_iff (cfg : Config) (answer : Bool) (d : Db) (request : AcceptJobRequest) (id : Id)
    (unique : Table.Unique Dispatch.key d.dispatches) :
    OtpHidden cfg answer d request id ↔
      ¬ ∃ requirementId workerId req job, request.Asks requirementId workerId ∧
        d.Acceptable requirementId workerId req job ∧
        d.booking id = none ∧ .bookingConfirmed id job.customerId ∉ d.outbox := by
  constructor
  · rintro hidden ⟨requirementId, workerId, req, job, asks, acceptable', unused⟩
    exact accepted_reveals answer cfg asks acceptable' unused unique hidden
  · intro refused
    cases checked : acceptJobChecks request with
    | error response =>
      have responds : ∀ otp hash, Call.result answer (fun res _ _ => res = .ok response)
          (acceptJob cfg request ⟨id, otp, hash⟩) none d := fun otp hash => by
        rw [acceptJob, checked]
        rfl
      exact otpHidden_of_response responds
    | ok target =>
      obtain ⟨requirementId, workerId⟩ := target
      have asks := acceptJobChecks_ok_iff.mp checked
      by_cases acceptable' : ∃ req job, d.Acceptable requirementId workerId req job
      · obtain ⟨req, job, acceptable'⟩ := acceptable'
        have collides : ¬ (d.booking id = none ∧ .bookingConfirmed id job.customerId ∉ d.outbox) :=
          fun unused => refused ⟨_, _, req, job, asks, acceptable', unused⟩
        obtain ⟨e, throws⟩ := acceptDispatch_collides answer cfg acceptable' collides
        exact otpHidden_of_response fun otp hash => acceptJob_refuses answer asks (throws otp hash)
      · obtain ⟨e, throws⟩ := acceptDispatch_refuses answer cfg acceptable'
        exact otpHidden_of_response fun otp hash => acceptJob_refuses answer asks
          (Call.result_mono (fun _ _ _ ends => ends.1) (throws _))

/-- The request of the last worker a job waits for. -/
def lastWorkerAccepts : AcceptJobRequest :=
  { user := some ⟨7, .WORKER⟩, requirementId := some 2 }

theorem lastWorkerAccepts_asks : lastWorkerAccepts.Asks 2 7 := ⟨rfl, rfl, rfl⟩

/-- A customer's request is turned away with the OTP untold. -/
theorem customer_learns_nothing :
    OtpHidden plainConfig true lastWorkerWanted { lastWorkerAccepts with user := some ⟨5, .CUSTOMER⟩ } 9 := by
  refine (otp_hidden_iff plainConfig true lastWorkerWanted _ 9 lastWorkerWanted_unique).mpr ?_
  rintro ⟨requirementId, workerId, req, job, asks, -⟩
  have worker := asks.worker
  simp at worker

theorem last_worker_learns_otp : ¬ OtpHidden plainConfig true lastWorkerWanted lastWorkerAccepts 9 :=
  accepted_reveals true plainConfig lastWorkerAccepts_asks lastWorkerWanted_acceptable
    (lastWorkerWanted_fresh.unused _) lastWorkerWanted_unique

end LabourBaba.Market
