import LabourBaba.Payments.OrderServices

/-!
# Webhook handlers

`handleWebhook` from the verified and parsed body on, and the three transactions behind
it. The insertion of the event is the claim of a delivery: a second delivery of the same
event waits for the first and then fails on the unique constraint. A payment found by its
order id or capture id is read without a lock.
-/
namespace LabourBaba.Payments

open Store
open Market (Id Text Role)

structure PaymentEntity where
  id : Option Id := none
  orderId : Option Id := none
  amount : Option Int := none
  currency : Option Text := none
deriving DecidableEq, Repr

structure RefundEntity where
  id : Option Id := none
  paymentId : Option Id := none
  amount : Option Int := none
deriving DecidableEq, Repr

structure WebhookBody where
  event : Text
  payment : Option PaymentEntity := none
  refund : Option RefundEntity := none
deriving DecidableEq, Repr

namespace WebhookBody

def razorpayOrderId (body : WebhookBody) : Option Id := body.payment.bind PaymentEntity.orderId

def razorpayPaymentId (body : WebhookBody) : Option Id :=
  (body.payment.bind PaymentEntity.id).or (body.refund.bind RefundEntity.paymentId)

end WebhookBody

def deriveWebhookEventId (eventType : Text) (paymentEntityId orderId : Option Id) : Option EventId :=
  if eventType = "payment.captured".toList ∧ paymentEntityId.isSome then
    paymentEntityId.map .payment
  else if eventType = "payment.failed".toList ∧ orderId.isSome then orderId.map .failed
  else if "refund.".toList.isPrefixOf eventType ∧ paymentEntityId.isSome then
    paymentEntityId.map fun id => .ofPayment id eventType
  else orderId.map fun id => .ofOrder id eventType

/-! ### Inside the transactions -/

/-- The event's INSERT, with status PROCESSING. -/
def newEvent (id : EventId) (eventType : Text) (d : Db) : Except Failure (List Write × Unit) :=
  if (d.event id).isSome then .error .uniqueViolation
  else .ok ([.insertEvent { id, eventType }], ())

def claimEvent (id : EventId) (eventType : Text) : Service Unit := step (newEvent id eventType)

def finishEvent (id : EventId) (status : WebhookEventStatus) (failureReason : Option String) :
    Service Unit :=
  step fun _ => .ok ([.updateEvent id status failureReason], ())

/-- The outbox events for the parties of a payment's booking. -/
def notices (eventType : OutboxEventType) (paymentId : Id) (toWorker : Bool) :
    Option Booking → List OutboxEvent
  | none => []
  | some booking =>
    { eventType, paymentId, recipientType := .CUSTOMER, recipientId := booking.customerId } ::
      if toWorker then
        [{ eventType, paymentId, recipientType := .WORKER, recipientId := booking.workerId }]
      else []

def notify (eventType : OutboxEventType) (p : Payment) (toWorker : Bool) : Service Unit := do
  let booking ← query fun d => d.booking p.bookingId
  step fun _ => .ok ((notices eventType p.id toWorker booking).map .outbox, ())

/-- `number` in a message. -/
def showAmount (amount : Option Int) : String :=
  match amount with
  | some n => toString n
  | none => "null"

def amountMismatch (capturedAmount : Option Int) (p : Payment) : Bool :=
  match capturedAmount, p.amount with
  | some captured, some stored => decide (captured ≠ stored)
  | _, _ => false

def currencyMismatch (capturedCurrency : Option Text) (p : Payment) : Bool :=
  match capturedCurrency with
  | some captured =>
    decide (captured ≠ [] ∧ p.currency ≠ [] ∧ upperCase captured ≠ upperCase p.currency)
  | none => false

/-- A mismatch is recorded on the event and flags the payment. -/
def quarantine (eventId : EventId) (p : Payment) (failureReason quarantineReason message : String) :
    Service (Applied × String) := do
  finishEvent eventId .FAILED (some failureReason)
  step (setPayment p.id { quarantineReason := some (some quarantineReason) })
  pure (.quarantined p.id, message)

/-- Steps 5 to 7 of a captured payment. -/
def completePayment (eventId : EventId) (p : Payment) (razorpayPaymentId : Id) :
    Service (Applied × String) := do
  let transitioned ← transitionPaymentStatus p.id .PENDING .COMPLETED
    { razorpayPaymentId := some (some razorpayPaymentId) }
  if transitioned then do
    notify .PAYMENT_COMPLETED p true
    finishEvent eventId .PROCESSED none
    pure (.moved p.id, "Payment captured")
  else do
    finishEvent eventId .PROCESSED none
    pure (.kept p.id, "already completed")

def processPaymentCapturedTx (eventId : EventId) (eventType : Text) (orderId razorpayPaymentId : Id)
    (capturedAmount : Option Int) (capturedCurrency : Option Text) : Service (Applied × String) := do
  claimEvent eventId eventType
  let localPayment ← query fun d => d.paymentOfOrder orderId
  match localPayment with
  | none => do
    finishEvent eventId .FAILED (some "No matching local payment")
    pure (.unmatched, "Event acknowledged (no matching local payment)")
  | some p =>
    let storedAmount := showAmount p.amount
    let amount := showAmount capturedAmount
    let stored := String.ofList p.currency
    let currency := String.ofList (capturedCurrency.getD [])
    if amountMismatch capturedAmount p then
      quarantine eventId p s!"Amount mismatch: local={storedAmount}, provider={amount}"
        s!"Amount mismatch: local={storedAmount}p, provider={amount}p"
        "Event acknowledged (amount mismatch flagged for review)"
    else if currencyMismatch capturedCurrency p then
      quarantine eventId p s!"Currency mismatch: local={stored}, provider={currency}"
        s!"Currency mismatch: local={stored}, provider={currency}"
        "Event acknowledged (currency mismatch flagged for review)"
    else completePayment eventId p razorpayPaymentId

def processPaymentFailedTx (eventId : EventId) (eventType : Text) (orderId : Id) :
    Service (Applied × String) := do
  claimEvent eventId eventType
  let localPayment ← query fun d => d.paymentOfOrder orderId
  match localPayment with
  | none => do
    finishEvent eventId .FAILED (some "No matching local payment")
    pure (.unmatched, "Event acknowledged (no matching payment)")
  | some p => do
    let transitioned ← Call.attempt (transitionPaymentStatus p.id .PENDING .FAILED {})
    match transitioned with
    | .ok true => do
      notify .PAYMENT_FAILED p false
      finishEvent eventId .PROCESSED none
      pure (.moved p.id, "Payment failed")
    | _ => do
      finishEvent eventId .PROCESSED none
      pure (.kept p.id, "already transitioned")

/-- `value || fallback` on amounts: zero counts as missing. -/
def amountOr (amount fallback : Option Int) : Option Int :=
  match amount with
  | some n => if n = 0 then fallback else some n
  | none => fallback

/-- The statuses a refund webhook moves to REFUNDED. -/
def refundableByWebhook : List PaymentStatus :=
  [.COMPLETED, .REFUND_PENDING, .REFUND_FAILED, .REFUND_UNKNOWN]

def processRefundProcessedTx (eventId : EventId) (eventType : Text) (razorpayPaymentId : Id)
    (refundId : Option Id) (refundAmount : Option Int) : Service (Applied × String) := do
  claimEvent eventId eventType
  let localPayment ← query fun d => d.paymentOfCapture razorpayPaymentId
  match localPayment with
  | none => do
    finishEvent eventId .FAILED (some "No matching payment for refund")
    pure (.unmatched, "Event acknowledged (no matching payment for refund)")
  | some p =>
    if p.status ∈ refundableByWebhook then do
      step (setPayment p.id
        { status := some .REFUNDED, razorpayRefundId := some (refundId.or p.razorpayRefundId)
          refundAmount := some (amountOr refundAmount p.refundAmount)
          refundStatus := some (some "processed") })
      notify .REFUND_COMPLETED p false
      finishEvent eventId .PROCESSED none
      pure (.moved p.id, "Refund processed successfully")
    else if p.status = .REFUNDED ∧ p.razorpayRefundId = none ∧ refundId.isSome then do
      step (setPayment p.id
        { razorpayRefundId := some refundId
          refundAmount := some (amountOr refundAmount p.refundAmount)
          refundStatus := some (some "processed") })
      finishEvent eventId .PROCESSED none
      pure (.enriched p.id, "Refund processed successfully")
    else do
      finishEvent eventId .PROCESSED none
      pure (.kept p.id, "Refund processed successfully")

/-! ### Deliveries -/

/-- The catch block of the handlers: a duplicate is acknowledged. -/
def acknowledge (duplicate : String) (label : Applied → Label)
    (body : Service (Applied × String)) : Service String := do
  let result ← Call.attempt (Call.transaction (fun r => label r.1) body)
  match result with
  | .ok (_, message) => pure message
  | .error .uniqueViolation => pure duplicate
  | .error e => throw e

def processPaymentCaptured (eventId : EventId) (eventType : Text)
    (razorpayOrderId razorpayPaymentId : Option Id) (capturedAmount : Option Int)
    (capturedCurrency : Option Text) : Service String :=
  match razorpayOrderId, razorpayPaymentId with
  | some orderId, some paymentId =>
    acknowledge "Duplicate event — already processed" (.captured orderId paymentId)
      (processPaymentCapturedTx eventId eventType orderId paymentId capturedAmount capturedCurrency)
  | _, _ => pure "Event acknowledged (missing identifiers)"

def processPaymentFailed (eventId : EventId) (eventType : Text) (razorpayOrderId : Option Id) :
    Service String :=
  match razorpayOrderId with
  | some orderId =>
    acknowledge "Duplicate event — already processed" (.failed orderId)
      (processPaymentFailedTx eventId eventType orderId)
  | none => pure "Event acknowledged (missing order_id)"

def processRefundProcessed (eventId : EventId) (eventType : Text) (razorpayPaymentId refundId : Option Id)
    (refundAmount : Option Int) : Service String :=
  match razorpayPaymentId with
  | some paymentId =>
    acknowledge "Duplicate refund event — already processed" (.refundEvent paymentId)
      (processRefundProcessedTx eventId eventType paymentId refundId refundAmount)
  | none => pure "Event acknowledged (missing payment_id)"

def handleWebhook (body : WebhookBody) : Service String :=
  let name := String.ofList body.event
  match deriveWebhookEventId body.event body.razorpayPaymentId body.razorpayOrderId with
  | none => pure s!"Event '{name}' acknowledged (no stable identity)"
  | some eventId =>
    if body.event = "payment.captured".toList then
      processPaymentCaptured eventId body.event body.razorpayOrderId body.razorpayPaymentId
        (body.payment.bind PaymentEntity.amount) (body.payment.bind PaymentEntity.currency)
    else if body.event = "payment.failed".toList then
      processPaymentFailed eventId body.event body.razorpayOrderId
    else if body.event = "refund.processed".toList ∨ body.event = "refund.created".toList then
      processRefundProcessed eventId body.event body.razorpayPaymentId
        (body.refund.bind RefundEntity.id) (body.refund.bind RefundEntity.amount)
    else pure s!"Event '{name}' acknowledged"

end LabourBaba.Payments
