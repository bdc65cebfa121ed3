import LabourBaba.Payments.Schema
import LabourBaba.Store.Calls

/-!
# Order creation

`createOrder` with the provider adapter it calls, and `transitionPaymentStatus`. What the
SDK does with a request is an argument of the call; the reply of a request that was sent
may be lost. A statement the source guards against database errors may fail.
-/
namespace LabourBaba.Payments

open Store
open Market (Id Text Role AuthenticatedUser BookingStatus)

/-- The errors the payment services throw. Those of Prisma have no status code. -/
inductive Failure where
  | payment (message code : String) (statusCode : Nat)
  | provider (message code : String) (statusCode : Nat)
  | authorization (reason : String) (statusCode : Nat) (code : String)
  | uniqueViolation
  | recordNotFound
  | database
deriving DecidableEq, Repr

/-- `err?.statusCode || err?.status || 500`. -/
def Failure.statusCode : Failure → Nat
  | .payment _ _ statusCode | .provider _ _ statusCode | .authorization _ statusCode _ => statusCode
  | .uniqueViolation | .recordNotFound | .database => 500

def Failure.message : Failure → String
  | .payment message _ _ | .provider message _ _ => message
  | .authorization reason _ _ => reason
  | .uniqueViolation => "Unique constraint failed"
  | .recordNotFound => "No record was found for an update"
  | .database => "Can't reach database server"

structure Config where
  currency : Text := "INR".toList
  /-- Both Razorpay credentials are set. -/
  configured : Bool := true
  /-- The message of the SDK's error when no answer arrives. -/
  networkError : String := "ETIMEDOUT"

/-- What a webhook transaction did to the payment it found. -/
inductive Applied where
  | unmatched
  | quarantined (paymentId : Id)
  | moved (paymentId : Id)
  | enriched (paymentId : Id)
  | kept (paymentId : Id)
deriving DecidableEq, Repr

/-- The statements of the services: those a property has to tell apart carry the
values the call has computed for them, all others are `step`. -/
inductive Label where
  | step
  | intended (paymentId bookingId : Id)
  | reclaimed (paymentId : Id)
  | orderCreated (bookingId : Id)
  | orderFailed (paymentId : Id)
  | orderSaved (paymentId orderId : Id)
  | captured (orderId razorpayPaymentId : Id) (result : Applied)
  | failed (orderId : Id) (result : Applied)
  | refundEvent (razorpayPaymentId : Id) (result : Applied)
  | quarantined (paymentId : Id)
  | reconciled (paymentId : Id) (status : PaymentStatus)
  | refundReconciled (paymentId : Id)
  | refundReclaimed (paymentId : Id)
  | refundClaimed (paymentId : Id)
  | refundSent (paymentId : Id)
  | refundSettled (paymentId : Id)
  | refundFailed (paymentId : Id) (status : PaymentStatus)
  | provider
  | ticked
deriving DecidableEq, Repr

abbrev Service := Call Label Db Write Key Failure

def step {α : Type} (f : Db → Except Failure (List Write × α)) : Service α := Call.stmt .step f

def query {α : Type} (f : Db → α) : Service α := Call.read .step f

/-- `payment.update({ where: { id }, data })`. -/
def setPayment (paymentId : Id) (data : PaymentData) (d : Db) : Except Failure (List Write × Unit) :=
  if (d.payment paymentId).isNone then .error .recordNotFound
  else .ok ([.updatePayment paymentId data], ())

/-- `payment.updateMany({ where, data })` on one id, and whether it matched the row. -/
def setPaymentWhere (paymentId : Id) (matching : Payment → Bool) (data : PaymentData) (d : Db) :
    Except Failure (List Write × Bool) :=
  match d.payment paymentId with
  | some row =>
    if matching row then .ok ([.updatePayment paymentId data], true) else .ok ([], false)
  | none => .ok ([], false)

def transitionPaymentStatus (paymentId : Id) (fromStatus toStatus : PaymentStatus)
    (metadata : PaymentData) : Service Bool :=
  if toStatus ∈ legalPaymentTransitions fromStatus then
    step (setPaymentWhere paymentId (fun row => decide (row.status = fromStatus))
      { metadata with status := some toStatus })
  else throw (.payment
    s!"Illegal payment state transition from '{fromStatus.text}' to '{toStatus.text}'."
    "PAYMENT_INVALID_STATE_TRANSITION" 409)

/-! ### The provider adapter -/

def upperCase (text : Text) : Text := text.map Char.toUpper

/-- What the SDK does with `orders.create`. -/
inductive OrdersCreate where
  /-- An error, and no order. -/
  | refused
  /-- An order, whose reply does not arrive. -/
  | lost
  | replied (idPresent : Bool) (amount : Int) (currency : Text)
deriving DecidableEq, Repr

structure RazorpayOrderResult where
  razorpayOrderId : Id
  amount : Int
  currency : Text

def orderCreationFailed : Failure :=
  .provider "Payment provider failed to create order. Please try again."
    "PAYMENT_ORDER_CREATION_FAILED" 502

def notConfigured : Failure :=
  .provider "Razorpay credentials are not configured. Set RAZORPAY_KEY_ID and RAZORPAY_KEY_SECRET."
    "PAYMENT_NOT_CONFIGURED" 503

/-- The order the provider creates, by its id. -/
def sendOrder (bookingId : Id) (amount : Int) (currency : Text) : Service Id :=
  Call.send (.orderCreated bookingId) fun d =>
    ([⟨.createOrder { bookingId, amount, currency }, rfl⟩], d.orders.length)

/-- The checks on the reply of `orders.create`. -/
def checkOrder (amountPaise : Int) (currency : Text) (orderId : Id) (idPresent : Bool)
    (returnedAmount : Int) (returnedCurrency : Text) : Except Failure RazorpayOrderResult :=
  if idPresent = false then
    .error (.provider "Payment provider returned an invalid order ID."
      "PAYMENT_PROVIDER_RESPONSE_INVALID" 502)
  else if returnedAmount ≠ amountPaise then
    .error (.provider "Payment provider returned an unexpected amount."
      "PAYMENT_AMOUNT_MISMATCH" 502)
  else if upperCase returnedCurrency ≠ upperCase currency then
    .error (.provider "Payment provider returned an unexpected currency."
      "PAYMENT_CURRENCY_MISMATCH" 502)
  else .ok { razorpayOrderId := orderId, amount := returnedAmount
             currency := upperCase returnedCurrency }

def razorpayCreateOrder (cfg : Config) (amountPaise : Int) (currency : Text) (bookingId : Id)
    (answer : OrdersCreate) : Service RazorpayOrderResult :=
  if amountPaise ≤ 0 then
    throw (.provider "Invalid payment amount: must be a positive integer in paise."
      "PAYMENT_AMOUNT_INVALID" 422)
  else if currency ≠ "INR".toList then
    let name := String.ofList currency
    throw (.provider s!"Unsupported currency '{name}'. Only INR is supported."
      "PAYMENT_CURRENCY_UNSUPPORTED" 422)
  else if cfg.configured = false then throw notConfigured
  else match answer with
    | .refused => throw orderCreationFailed
    | .lost => do
      let _ ← sendOrder bookingId amountPaise currency
      throw orderCreationFailed
    | .replied idPresent returnedAmount returnedCurrency => do
      let orderId ← sendOrder bookingId amountPaise currency
      match checkOrder amountPaise currency orderId idPresent returnedAmount returnedCurrency with
      | .ok order => pure order
      | .error e => throw e

/-! ### Creating an order -/

def payableBookingStatuses : List String := ["confirmed", "CONFIRMED", "OTP_PENDING", "PENDING"]

structure PaymentOrderResponse where
  paymentId : Id
  razorpayOrderId : Id
  amount : Int
  currency : Text
  status : PaymentStatus
  bookingId : Id
deriving DecidableEq, Repr

/-- The response built from a stored row. -/
def Payment.response (p : Payment) (orderId bookingId : Id) (amountPaise : Int) :
    PaymentOrderResponse :=
  { paymentId := p.id, razorpayOrderId := orderId, amount := p.amount.getD amountPaise
    currency := p.currency, status := p.status, bookingId }

def newIntent (bookingId newId : Id) (amountPaise : Int) (currency : Text) (now : Nat) : Payment :=
  { id := newId, bookingId, status := .PENDING, amount := some amountPaise, currency
    createdAt := now }

def createIntent (bookingId newId : Id) (amountPaise : Int) (currency : Text) : Service Payment :=
  Call.stmt (.intended newId bookingId) fun d =>
    if d.payments.any (newIntent bookingId newId amountPaise currency d.now).clash then
      .error .uniqueViolation
    else .ok ([.insertPayment (newIntent bookingId newId amountPaise currency d.now)],
      newIntent bookingId newId amountPaise currency d.now)

/-- Step 5: the record of the payment intent, and whether this call has claimed it. -/
def claimOrder (bookingId newId : Id) (amountPaise : Int) (currency : Text)
    (existing : Option Payment) : Service (Option Payment × Bool) :=
  match existing with
  | none => do
    let created ← Call.attempt (createIntent bookingId newId amountPaise currency)
    match created with
    | .ok payment => pure (some payment, true)
    | .error .uniqueViolation => do
      let payment ← query fun d => d.paymentOfBooking bookingId
      pure (payment, false)
    | .error e => throw e
  | some existing =>
    if existing.status = .FAILED then do
      let claimed ← Call.stmt (.reclaimed existing.id)
        (setPaymentWhere existing.id (fun row => decide (row.status = .FAILED))
          { status := some .PENDING, amount := some (some amountPaise), currency := some currency
            razorpayOrderId := some none })
      let payment ← query fun d => d.payment existing.id
      pure (payment, claimed)
    else pure (some existing, false)

/-- The failure of the provider's call, unless an order id has been stored meanwhile. -/
def failOrder (paymentId : Id) (reason : String) : Service Bool :=
  Call.stmt (.orderFailed paymentId)
    (setPaymentWhere paymentId (fun row => decide (row.razorpayOrderId = none))
      { status := some .FAILED, quarantineReason := some (some reason) })

def orderData (order : RazorpayOrderResult) : PaymentData :=
  { razorpayOrderId := some (some order.razorpayOrderId), amount := some (some order.amount)
    currency := some order.currency, status := some .PENDING }

/-- The UPDATE that stores the order id, which is unique. -/
def saveOrder (paymentId : Id) (order : RazorpayOrderResult) : Service Payment :=
  Call.stmt (.orderSaved paymentId order.razorpayOrderId) fun d =>
    match d.payment paymentId with
    | none => .error .recordNotFound
    | some row =>
      if d.payments.any fun other =>
          decide (other.id ≠ paymentId ∧ other.razorpayOrderId = some order.razorpayOrderId) then
        .error .uniqueViolation
      else .ok ([.updatePayment paymentId (orderData order)], row.update (orderData order))

def persistOrder (paymentId : Id) (order : RazorpayOrderResult) : Service Payment := do
  let reachable ← Call.choose
  if reachable then saveOrder paymentId order else throw .database

/-- Step 6: the claimant creates the order at the provider and stores its id. -/
def executeOrder (cfg : Config) (bookingId : Id) (amountPaise : Int) (currency : Text)
    (record : Payment) (answer : OrdersCreate) : Service PaymentOrderResponse := do
  let providerOrder ← Call.attempt (razorpayCreateOrder cfg amountPaise currency bookingId answer)
  match providerOrder with
  | .error providerErr => do
    let reachable ← Call.choose
    if reachable then do
      let _ ← failOrder record.id providerErr.message
      throw providerErr
    else throw providerErr
  | .ok order => do
    let saved ← Call.attempt (persistOrder record.id order)
    match saved with
    | .ok updated => pure (updated.response order.razorpayOrderId bookingId amountPaise)
    | .error _ => throw (.payment
        "Payment order was created with provider but could not be saved. Please retry."
        "PAYMENT_PERSISTENCE_FAILED" 500)

/-- The bounded polling of step 7. -/
def pollOrder (bookingId : Id) (amountPaise : Int) : Nat → Service PaymentOrderResponse
  | 0 => throw (.payment "Payment order creation is in progress. Please retry in a moment."
      "PAYMENT_ORDER_CREATION_IN_PROGRESS" 409)
  | attempts + 1 => do
    let refreshed ← query fun d => d.paymentOfBooking bookingId
    match refreshed with
    | none => pollOrder bookingId amountPaise attempts
    | some row =>
      match row.razorpayOrderId with
      | some orderId => pure (row.response orderId bookingId amountPaise)
      | none =>
        if row.status = .FAILED then
          throw (.payment "Payment provider failed to create order. Please try again."
            "PAYMENT_ORDER_CREATION_FAILED" 502)
        else pollOrder bookingId amountPaise attempts

/-- Step 7: contenders that have not claimed resolve to the stored order. -/
def awaitOrder (bookingId : Id) (amountPaise : Int) (record : Option Payment) :
    Service PaymentOrderResponse :=
  match record with
  | some row =>
    match row.razorpayOrderId with
    | some orderId => pure (row.response orderId bookingId amountPaise)
    | none => pollOrder bookingId amountPaise 25
  | none => pollOrder bookingId amountPaise 25

/-- Step 4: what an existing record already answers. -/
def existingOrder (bookingId : Id) (amountPaise : Int) :
    Option Payment → Option (Except Failure PaymentOrderResponse)
  | none => none
  | some row =>
    if row.status = .COMPLETED ∨ row.status = .REFUNDED then
      some (.error (.payment "A payment has already been completed for this booking."
        "PAYMENT_ALREADY_COMPLETED" 409))
    else if row.status = .PENDING then
      row.razorpayOrderId.map fun orderId => .ok (row.response orderId bookingId amountPaise)
    else none

def orderFor (cfg : Config) (bookingId newId : Id) (amountPaise : Int) (answer : OrdersCreate) :
    Service PaymentOrderResponse := do
  let existing ← query fun d => d.paymentOfBooking bookingId
  match existingOrder bookingId amountPaise existing with
  | some (.ok response) => pure response
  | some (.error e) => throw e
  | none => do
    let claim ← claimOrder bookingId newId amountPaise cfg.currency existing
    match claim with
    | (some record, true) => executeOrder cfg bookingId amountPaise cfg.currency record answer
    | (record, _) => awaitOrder bookingId amountPaise record

def rateMissing : Failure :=
  .payment "This booking does not have a valid rate configured. Payment cannot be initiated."
    "PAYMENT_RATE_MISSING" 422

def createOrder (cfg : Config) (bookingId customerId newId : Id) (answer : OrdersCreate) :
    Service PaymentOrderResponse := do
  let booking ← query fun d =>
    (d.booking bookingId).filter fun b => decide (b.customerId = customerId)
  match booking with
  | none => throw (.payment
      "Booking not found or you do not have permission to create a payment for it."
      "PAYMENT_NOT_AUTHORIZED" 403)
  | some booking =>
    if booking.status.text ∈ payableBookingStatuses then
      match booking.ratePerDay with
      | none => throw rateMissing
      | some rate =>
        if rate ≤ 0 then throw rateMissing
        else orderFor cfg bookingId newId (rate * 100) answer
    else throw (.payment
      (s!"Booking is not in a payable state (current status: '{booking.status.text}'). " ++
        "Payment is only allowed for bookings in: confirmed, CONFIRMED, OTP_PENDING, PENDING.")
      "PAYMENT_NOT_PAYABLE" 409)

end LabourBaba.Payments
