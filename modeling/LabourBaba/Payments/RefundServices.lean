import LabourBaba.Payments.WebhookServices
import Mathlib

/-!
# Refunds and reconciliation

`refundPayment` with its two claims, and `reconcileStalePayments`. Between the claim and
the write that records the outcome stands the provider's call: the request may be decided
at any time after it was sent, also after the caller has given up waiting, and the answer
may not arrive.
-/
namespace LabourBaba.Payments

open Store
open Market (Id Text Role AuthenticatedUser)

/-! ### The provider adapter -/

def fetchPayment (cfg : Config) (razorpayPaymentId : Id) : Service ProviderPayment :=
  if cfg.configured = false then throw notConfigured
  else do
    let reachable ← Call.choose
    let payment ← query fun d => d.capture razorpayPaymentId
    match reachable, payment with
    | true, some payment => pure payment
    | true, none => throw (.provider "Failed to fetch provider payment: unknown"
        "FETCH_PAYMENT_FAILED" 502)
    | false, _ => throw (.provider s!"Failed to fetch provider payment: {cfg.networkError}"
        "FETCH_PAYMENT_FAILED" 502)

def fetchOrder (cfg : Config) (orderId : Id) : Service ProviderOrder :=
  if cfg.configured = false then throw notConfigured
  else do
    let reachable ← Call.choose
    let order ← query fun d => d.order orderId
    match reachable, order with
    | true, some order => pure order
    | true, none => throw (.provider "Failed to fetch provider order: unknown"
        "FETCH_ORDER_FAILED" 502)
    | false, _ => throw (.provider s!"Failed to fetch provider order: {cfg.networkError}"
        "FETCH_ORDER_FAILED" 502)

/-- The amount of a refund request, which is passed on unchecked. -/
inductive RequestedAmount where
  | integer (n : Int)
  | other
deriving DecidableEq, Repr

def RequestedAmount.valid : RequestedAmount → Bool
  | .integer n => decide (0 < n)
  | .other => false

def requestedPaise : Option RequestedAmount → Option Int
  | some (.integer n) => some n
  | _ => none

structure RazorpayRefundResult where
  razorpayRefundId : Id
  amount : Int
  status : String

def refundProviderFailed (description : String) : Failure :=
  .provider s!"Payment provider failed to process refund: {description}"
    "REFUND_PROVIDER_FAILED" 502

/-- What the SDK's answer to a sent request becomes: without a decision it has timed out. -/
def refundResult (cfg : Config) (amountPaise : Option Int) :
    Option AttemptState → Except Failure RazorpayRefundResult
  | some (.accepted answer) =>
    match answer.refundId with
    | none => .error (.provider "Payment provider returned an invalid refund ID."
        "REFUND_PROVIDER_RESPONSE_INVALID" 502)
    | some refundId =>
      .ok { razorpayRefundId := refundId
            amount := (amountOr (some answer.amount) amountPaise).getD 0
            status := answer.status.getD "processed" }
  | some (.rejected description) => .error (refundProviderFailed description)
  | _ => .error (refundProviderFailed cfg.networkError)

/-- Call `me` sends the request of its attempt `n` and waits for the answer. -/
def razorpayCreateRefund (cfg : Config) (paymentId : Id) (n : Nat)
    (amountPaise : Option RequestedAmount) : Service RazorpayRefundResult :=
  if (amountPaise.all RequestedAmount.valid) = false then
    throw (.provider "Refund amount must be a positive integer in paise."
      "REFUND_AMOUNT_INVALID" 422)
  else if cfg.configured = false then throw notConfigured
  else do
    Call.send (.refundSent paymentId) fun _ => ([⟨.sendRefund n, rfl⟩], ())
    let delivered ← Call.choose
    let attempt ← query fun d => d.attempt n
    match refundResult cfg (requestedPaise amountPaise)
        (if delivered then attempt.map RefundAttempt.state else none) with
    | .ok refund => pure refund
    | .error e => throw e

/-! ### Claims -/

structure RefundResponse where
  message : String
  refundId : Option Id
deriving DecidableEq, Repr

/-- A claim goes on to the provider, or the call is already answered. -/
inductive Claim where
  | claimed (n : Nat)
  | answered (response : RefundResponse)

/-- `reason || fallback`. -/
def reasonOr (reason : Option String) (fallback : String) : String :=
  match reason with
  | some text => if text = "" then fallback else text
  | none => fallback

/-- The claiming `updateMany`; a claim opens the attempt of this call. -/
def claimWhere (statuses : List PaymentStatus) (attempt : RefundAttempt) (reason : String) (d : Db) :
    Except Failure (List Write × Option Nat) :=
  match d.payment attempt.paymentId with
  | some row =>
    if row.status ∈ statuses then
      .ok ([.updatePayment attempt.paymentId
              { status := some .REFUND_PENDING, refundReason := some (some reason) },
            .claimRefund attempt], some d.attempts.length)
    else .ok ([], none)
  | none => .ok ([], none)

/-- The provider has executed a refund. -/
def ProviderPayment.refundSeen (p : ProviderPayment) : Bool :=
  decide (p.status = .refunded) || decide (0 < p.amountRefunded) ||
    match p.refundStatus with
    | some status => decide (status ≠ "null")
    | none => false

def refundInProgress : Failure :=
  .payment "A refund operation is already in progress for this payment."
    "REFUND_ALREADY_PENDING" 409

/-- The pre-flight check of a payment in REFUND_UNKNOWN or REFUND_PENDING. -/
def preflight (cfg : Config) (p : Payment) (attempt : RefundAttempt) (reason : Option String) :
    Service Claim := do
  let providerPayment ← fetchPayment cfg attempt.razorpayPaymentId
  if providerPayment.refundSeen then do
    Call.stmt (.refundReconciled p.id) (setPayment p.id
      { status := some .REFUNDED
        refundAmount := some (amountOr (some providerPayment.amountRefunded) p.amount)
        refundStatus := some (some (providerPayment.refundStatus.getD "processed")) })
    pure (.answered { message := "Payment has already been refunded (reconciled with provider)."
                      refundId := p.razorpayRefundId })
  else do
    let claimed ← Call.stmt (.refundReclaimed p.id)
      (claimWhere [.REFUND_UNKNOWN, .REFUND_PENDING] attempt
        (reasonOr reason "Retry after provider reconciliation verified unrefunded"))
    match claimed with
    | some n => pure (.claimed n)
    | none => throw refundInProgress

def reconciledClaim (cfg : Config) (p : Payment) (attempt : RefundAttempt) (reason : Option String) :
    Service Claim := do
  let result ← Call.attempt (preflight cfg p attempt reason)
  match result with
  | .ok claim => pure claim
  | .error (.payment message code statusCode) => throw (.payment message code statusCode)
  | .error _ => throw (.payment
      ("A refund operation is already in progress or ambiguous. Reconciliation with payment " ++
        "provider could not be completed. Please retry shortly.")
      "REFUND_RECONCILIATION_REQUIRED" 409)

/-- The atomic claim of a payment in COMPLETED or REFUND_FAILED. -/
def normalClaim (p : Payment) (attempt : RefundAttempt) (reason : Option String) : Service Claim := do
  let claimed ← Call.stmt (.refundClaimed p.id)
    (claimWhere [.COMPLETED, .REFUND_FAILED] attempt
      (reasonOr reason "Customer/Admin requested refund"))
  match claimed with
  | some n => pure (.claimed n)
  | none => do
    let current ← query fun d => d.payment p.id
    match current with
    | some row =>
      if row.status = .REFUNDED then
        pure (.answered { message := "Payment has already been refunded."
                          refundId := row.razorpayRefundId })
      else if row.status = .REFUND_PENDING ∨ row.status = .REFUND_UNKNOWN then
        throw refundInProgress
      else throw (.payment s!"Cannot refund: payment status is '{row.status.text}', not COMPLETED."
        "REFUND_INVALID_STATE" 409)
    | none => throw (.payment
        s!"Cannot refund: payment status is '{p.status.text}', not COMPLETED."
        "REFUND_INVALID_STATE" 409)

/-- Step 3: which of the two claims a payment needs. -/
def claimFor (cfg : Config) (p : Payment) (attempt : RefundAttempt) (reason : Option String) :
    Service Claim :=
  if p.status = .REFUND_UNKNOWN ∨ p.status = .REFUND_PENDING then
    reconciledClaim cfg p attempt reason
  else normalClaim p attempt reason

/-! ### Refunding -/

/-- The UPDATE of step 5; the refund id is unique. -/
def setRefunded (paymentId : Id) (n : Nat) (refund : RazorpayRefundResult) (d : Db) :
    Except Failure (List Write × Unit) :=
  if (d.payment paymentId).isNone then .error .recordNotFound
  else if d.payments.any fun other =>
      decide (other.id ≠ paymentId ∧ other.razorpayRefundId = some refund.razorpayRefundId) then
    .error .uniqueViolation
  else .ok ([.updatePayment paymentId
      { status := some .REFUNDED, razorpayRefundId := some (some refund.razorpayRefundId)
        refundAmount := some (some refund.amount), refundStatus := some (some refund.status) },
    .recordRefund n], ())

/-- Step 5, after the provider has accepted the refund. -/
def settleRefund (p : Payment) (customerId : Id) (n : Nat) (refund : RazorpayRefundResult) :
    Service Unit := do
  let reachable ← Call.choose
  if reachable then
    Call.transaction (fun _ => .refundSettled p.id) do
      step (setRefunded p.id n refund)
      step fun _ => .ok ([.outbox { eventType := .REFUND_COMPLETED, paymentId := p.id
                                    recipientType := .CUSTOMER, recipientId := customerId }], ())
  else throw .database

def executeRefund (cfg : Config) (p : Payment) (customerId : Id) (n : Nat)
    (refundAmountPaise : Option RequestedAmount) : Service RazorpayRefundResult := do
  let refund ← razorpayCreateRefund cfg p.id n refundAmountPaise
  settleRefund p customerId n refund
  pure refund

/-- The status that step 6 records for an error. -/
def failureStatus (err : Failure) : PaymentStatus :=
  if 400 ≤ err.statusCode ∧ err.statusCode < 500 then .REFUND_FAILED else .REFUND_UNKNOWN

/-- Step 6: the write that records the error. -/
def recordFailure (paymentId : Id) (n : Nat) (err : Failure) : Service Unit :=
  let status := (failureStatus err).text
  let message := err.message
  Call.stmt (.refundFailed paymentId (failureStatus err)) fun d =>
    if (d.payment paymentId).isNone then .error .recordNotFound
    else .ok ([.updatePayment paymentId
        { status := some (failureStatus err)
          refundReason := some (some s!"Provider refund failure ({status}): {message}") },
      .recordRefund n], ())

/-- Steps 4 to 6. -/
def refundClaimed (cfg : Config) (p : Payment) (customerId : Id) (n : Nat)
    (refundAmountPaise : Option RequestedAmount) : Service RefundResponse := do
  let result ← Call.attempt (executeRefund cfg p customerId n refundAmountPaise)
  match result with
  | .ok refund =>
    pure { message := "Refund processed successfully with payment provider."
           refundId := some refund.razorpayRefundId }
  | .error err => do
    let message := err.message
    recordFailure p.id n err
    throw (.payment s!"Payment refund failed: {message}"
      (if failureStatus err = .REFUND_UNKNOWN then "REFUND_UNKNOWN" else "REFUND_FAILED") 502)

/-- Steps 2 and 3, of a payment that can be refunded. -/
def refundFor (cfg : Config) (me : Nat) (p : Payment) (customerId : Id)
    (refundAmountPaise : Option RequestedAmount) (reason : Option String) :
    Service RefundResponse :=
  if p.status = .REFUNDED then
    pure { message := "Payment has already been refunded.", refundId := p.razorpayRefundId }
  else match p.razorpayPaymentId with
    | none => throw (.payment "Cannot refund: missing Razorpay payment capture reference."
        "REFUND_MISSING_CAPTURE_REF" 422)
    | some razorpayPaymentId => do
      let attempt : RefundAttempt :=
        { call := me, paymentId := p.id, razorpayPaymentId
          amount := requestedPaise refundAmountPaise }
      let claim ← claimFor cfg p attempt reason
      match claim with
      | .answered response => pure response
      | .claimed n => refundClaimed cfg p customerId n refundAmountPaise

def canRefund (actor : AuthenticatedUser) (booking : Booking) : Except Failure Unit :=
  if actor.role = .ADMIN then .ok ()
  else if actor.role = .CUSTOMER ∧ booking.customerId = actor.id then .ok ()
  else .error (.authorization "Forbidden: Only the booking customer can request a refund" 403
    "NOT_OWNER")

/-- `refundPayment` as the call with the given number. -/
def refundPayment (cfg : Config) (me : Nat) (bookingId : Id) (actor : AuthenticatedUser)
    (refundAmountPaise : Option RequestedAmount) (reason : Option String) :
    Service RefundResponse :=
  if actor.role = .WORKER then
    throw (.payment "Workers are not authorized to refund payments." "REFUND_NOT_AUTHORIZED" 403)
  else do
    let booking ← query fun d => (d.booking bookingId).filter fun b =>
      decide (actor.role = .CUSTOMER → b.customerId = actor.id)
    match booking with
    | none => throw (.payment
        "Booking not found or you do not have permission to refund its payment."
        "REFUND_NOT_AUTHORIZED" 403)
    | some booking =>
      match canRefund actor booking with
      | .error e => throw e
      | .ok _ => do
        let payment ← query fun d => d.paymentOfBooking bookingId
        match payment with
        | none => throw (.payment "No payment record found for this booking."
            "REFUND_NO_PAYMENT" 404)
        | some p => refundFor cfg me p booking.customerId refundAmountPaise reason

/-! ### Reconciliation -/

structure ReconciliationResult where
  totalEvaluated : Nat := 0
  reconciledCompleted : Nat := 0
  reconciledFailed : Nat := 0
  quarantined : Nat := 0
  skipped : Nat := 0
  errors : Nat := 0
deriving DecidableEq, Repr

/-- The oldest page of PENDING payments that are older than the threshold and not flagged. -/
def stalePayments (olderThanMinutes : Nat) (d : Db) : List Payment :=
  ((d.payments.filter fun p =>
      decide (p.status = .PENDING ∧ p.createdAt + olderThanMinutes * 60 * 1000 < d.now ∧
        p.quarantineReason = none)).insertionSort fun p q => p.createdAt ≤ q.createdAt).take 50

def reconcilePaid (p : Payment) (order : ProviderOrder) (result : ReconciliationResult) :
    Service ReconciliationResult :=
  let storedAmount := showAmount p.amount
  let amount := showAmount (some order.amount)
  let stored := String.ofList p.currency
  let currency := String.ofList order.currency
  if p.amount.any fun stored => decide (order.amount ≠ stored) then do
    Call.stmt (.quarantined p.id) (setPayment p.id
      { quarantineReason := some (some
          s!"Reconciliation amount mismatch: local={storedAmount}p, provider={amount}p") })
    pure { result with quarantined := result.quarantined + 1 }
  else if p.currency ≠ [] ∧ upperCase order.currency ≠ upperCase p.currency then do
    Call.stmt (.quarantined p.id) (setPayment p.id
      { quarantineReason := some (some
          s!"Reconciliation currency mismatch: local={stored}, provider={currency}") })
    pure { result with quarantined := result.quarantined + 1 }
  else do
    let transitioned ← Call.transaction (fun _ => .reconciled p.id .COMPLETED)
      (transitionPaymentStatus p.id .PENDING .COMPLETED {})
    pure { result with reconciledCompleted := result.reconciledCompleted + transitioned.toNat }

def reconcilePayment (cfg : Config) (p : Payment) (result : ReconciliationResult) :
    Service ReconciliationResult :=
  match p.razorpayOrderId with
  | none => pure { result with skipped := result.skipped + 1 }
  | some orderId => do
    let order ← fetchOrder cfg orderId
    if order.status = .paid then reconcilePaid p order result
    else if order.status = .created ∧ 3 < order.attempts then do
      let _ ← Call.transaction (fun _ => .reconciled p.id .FAILED)
        (transitionPaymentStatus p.id .PENDING .FAILED {})
      pure { result with reconciledFailed := result.reconciledFailed + 1 }
    else pure { result with skipped := result.skipped + 1 }

def reconcileEach (cfg : Config) : List Payment → ReconciliationResult → Service ReconciliationResult
  | [], result => pure result
  | p :: rest, result => do
    let outcome ← Call.attempt (reconcilePayment cfg p result)
    match outcome with
    | .ok result => reconcileEach cfg rest result
    | .error _ => reconcileEach cfg rest { result with errors := result.errors + 1 }

def reconcileStalePayments (cfg : Config) (olderThanMinutes : Nat) : Service ReconciliationResult := do
  let stale ← query (stalePayments olderThanMinutes)
  reconcileEach cfg stale { totalEvaluated := stale.length }

end LabourBaba.Payments
