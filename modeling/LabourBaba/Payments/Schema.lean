import LabourBaba.Market.Lifecycle
import LabourBaba.Store.Pool

/-!
# The payment schema

The `payment` and `payment_webhook_event` tables, the bookings as the payment services
read them, the notification outbox, and the provider. An update sets the columns of its
`data` object and leaves the others. No transaction covers the provider: its orders, its
payments, and the refund requests it has received.

A refund attempt is the trace of one `refundPayment` call from its claim on: `claimed` until
the request is sent, then the state of the request at the provider, and whether the call
has recorded how it ended. The services never read an attempt other than their own.
-/
namespace LabourBaba.Payments

open Store
open Market (Id Text Role AuthenticatedUser BookingStatus)

inductive PaymentStatus where
  | PENDING | COMPLETED | FAILED | REFUND_PENDING | REFUNDED | REFUND_FAILED | REFUND_UNKNOWN
deriving DecidableEq, Repr

def PaymentStatus.text : PaymentStatus → String
  | .PENDING => "PENDING"
  | .COMPLETED => "COMPLETED"
  | .FAILED => "FAILED"
  | .REFUND_PENDING => "REFUND_PENDING"
  | .REFUNDED => "REFUNDED"
  | .REFUND_FAILED => "REFUND_FAILED"
  | .REFUND_UNKNOWN => "REFUND_UNKNOWN"

/-- `LEGAL_PAYMENT_TRANSITIONS`. -/
def legalPaymentTransitions : PaymentStatus → List PaymentStatus
  | .PENDING => [.COMPLETED, .FAILED]
  | .COMPLETED => [.REFUND_PENDING]
  | .REFUND_PENDING => [.REFUNDED, .REFUND_FAILED, .REFUND_UNKNOWN]
  | .REFUND_UNKNOWN => [.REFUNDED, .REFUND_PENDING, .REFUND_FAILED]
  | .REFUND_FAILED => [.REFUND_PENDING]
  | .FAILED => [.PENDING]
  | .REFUNDED => []

/-! ### Rows -/

structure Payment where
  id : Id
  bookingId : Id
  razorpayOrderId : Option Id := none
  razorpayPaymentId : Option Id := none
  razorpayRefundId : Option Id := none
  status : PaymentStatus
  amount : Option Int
  currency : Text
  refundAmount : Option Int := none
  refundStatus : Option String := none
  refundReason : Option String := none
  quarantineReason : Option String := none
  createdAt : Nat
deriving DecidableEq, Repr

/-- The `data` object of an update: the columns it sets. -/
structure PaymentData where
  status : Option PaymentStatus := none
  razorpayOrderId : Option (Option Id) := none
  razorpayPaymentId : Option (Option Id) := none
  razorpayRefundId : Option (Option Id) := none
  amount : Option (Option Int) := none
  currency : Option Text := none
  refundAmount : Option (Option Int) := none
  refundStatus : Option (Option String) := none
  refundReason : Option (Option String) := none
  quarantineReason : Option (Option String) := none
deriving DecidableEq, Repr

def Payment.update (data : PaymentData) (p : Payment) : Payment :=
  { p with
    status := data.status.getD p.status
    razorpayOrderId := data.razorpayOrderId.getD p.razorpayOrderId
    razorpayPaymentId := data.razorpayPaymentId.getD p.razorpayPaymentId
    razorpayRefundId := data.razorpayRefundId.getD p.razorpayRefundId
    amount := data.amount.getD p.amount
    currency := data.currency.getD p.currency
    refundAmount := data.refundAmount.getD p.refundAmount
    refundStatus := data.refundStatus.getD p.refundStatus
    refundReason := data.refundReason.getD p.refundReason
    quarantineReason := data.quarantineReason.getD p.quarantineReason }

/-- The primary key and the unique `booking_id`. -/
def Payment.clash (p old : Payment) : Bool :=
  decide (p.id = old.id) || decide (p.bookingId = old.bookingId)

/-- The columns no update sets. -/
def Payment.core (p : Payment) : Id × Id := (p.id, p.bookingId)

/-- The derived `provider_event_id`. Provider identifiers contain no colon, so texts of
different form are different. -/
inductive EventId where
  /-- The captured payment's own id. -/
  | payment (paymentEntityId : Id)
  /-- `${orderId}:failed` -/
  | failed (orderId : Id)
  /-- `${paymentEntityId}:${eventType}` -/
  | ofPayment (paymentEntityId : Id) (eventType : Text)
  /-- `${orderId}:${eventType}` -/
  | ofOrder (orderId : Id) (eventType : Text)
deriving DecidableEq, Repr

inductive WebhookEventStatus where
  | PROCESSING | PROCESSED | FAILED
deriving DecidableEq, Repr

structure WebhookEvent where
  id : EventId
  eventType : Text
  status : WebhookEventStatus := .PROCESSING
  failureReason : Option String := none
deriving DecidableEq, Repr

def WebhookEvent.finish (status : WebhookEventStatus) (failureReason : Option String)
    (e : WebhookEvent) : WebhookEvent :=
  { e with status, failureReason }

def WebhookEvent.clash (e old : WebhookEvent) : Bool := decide (e.id = old.id)

inductive OutboxEventType where
  | PAYMENT_COMPLETED | PAYMENT_FAILED | REFUND_COMPLETED
deriving DecidableEq, Repr

/-- An outbox event by its idempotency key. -/
structure OutboxEvent where
  eventType : OutboxEventType
  paymentId : Id
  recipientType : Role
  recipientId : Id
deriving DecidableEq, Repr

def OutboxEvent.clash (e old : OutboxEvent) : Bool := decide (e = old)

/-- A booking with the rate of its requirement. -/
structure Booking where
  id : Id
  customerId : Id
  workerId : Id
  status : BookingStatus
  ratePerDay : Option Int
deriving DecidableEq, Repr

/-! ### The provider -/

inductive OrderStatus where
  | created | attempted | paid
deriving DecidableEq, Repr

/-- An order at the provider; its id is its position. -/
structure ProviderOrder where
  bookingId : Id
  amount : Int
  currency : Text
  status : OrderStatus := .created
  attempts : Nat := 0
deriving DecidableEq, Repr

def ProviderOrder.move (status : OrderStatus) (attempts : Nat) (o : ProviderOrder) :
    ProviderOrder :=
  { o with status, attempts }

inductive ProviderPaymentStatus where
  | created | authorized | captured | refunded | failed
deriving DecidableEq, Repr

structure ProviderPayment where
  id : Id
  orderId : Id
  amount : Int
  currency : Text
  status : ProviderPaymentStatus := .captured
  amountRefunded : Int := 0
  refundStatus : Option String := none
deriving DecidableEq, Repr

def ProviderPayment.clash (p old : ProviderPayment) : Bool := decide (p.id = old.id)

/-- The provider's answer to a refund request. A missing or blank refund id is `none`. -/
structure RefundAnswer where
  refundId : Option Id
  amount : Int
  status : Option String
deriving DecidableEq, Repr

inductive AttemptState where
  | claimed
  | inFlight
  | accepted (answer : RefundAnswer)
  | rejected (description : String)
deriving DecidableEq, Repr

/-- A history variable: one claim of a refund and what became of it. It is recorded when its
call has written the end of it, and known if the provider was not still deciding then. -/
structure RefundAttempt where
  call : Nat
  paymentId : Id
  razorpayPaymentId : Id
  amount : Option Int := none
  state : AttemptState := .claimed
  recorded : Bool := false
  known : Bool := false
deriving DecidableEq, Repr

/-- What the provider holds against the payment once it has accepted a refund. -/
def ProviderPayment.refund (amount : Int) (p : ProviderPayment) : ProviderPayment :=
  { p with
    amountRefunded := p.amountRefunded + amount
    status := if p.amount ≤ p.amountRefunded + amount then .refunded else p.status
    refundStatus := some (if p.amount ≤ p.amountRefunded + amount then "full" else "partial") }

structure Db where
  payments : List Payment := []
  events : List WebhookEvent := []
  outbox : List OutboxEvent := []
  bookings : List Booking := []
  orders : List ProviderOrder := []
  captures : List ProviderPayment := []
  attempts : List RefundAttempt := []
  now : Nat := 0
deriving DecidableEq, Repr

namespace Db

def payment (d : Db) (id : Id) : Option Payment := Table.find Payment.id d.payments id

def paymentOfBooking (d : Db) (bookingId : Id) : Option Payment :=
  Table.find Payment.bookingId d.payments bookingId

def paymentOfOrder (d : Db) (orderId : Id) : Option Payment :=
  Table.find Payment.razorpayOrderId d.payments (some orderId)

def paymentOfCapture (d : Db) (razorpayPaymentId : Id) : Option Payment :=
  Table.find Payment.razorpayPaymentId d.payments (some razorpayPaymentId)

def event (d : Db) (id : EventId) : Option WebhookEvent := Table.find WebhookEvent.id d.events id

def booking (d : Db) (id : Id) : Option Booking := Table.find Booking.id d.bookings id

def order (d : Db) (id : Id) : Option ProviderOrder := d.orders[id]?

def capture (d : Db) (id : Id) : Option ProviderPayment := Table.find ProviderPayment.id d.captures id

def attempt (d : Db) (n : Nat) : Option RefundAttempt := d.attempts[n]?

end Db

/-! ### Writes -/

inductive Write where
  | insertPayment (p : Payment)
  | updatePayment (id : Id) (data : PaymentData)
  | insertEvent (e : WebhookEvent)
  | updateEvent (id : EventId) (status : WebhookEventStatus) (failureReason : Option String)
  | outbox (e : OutboxEvent)
  | putBooking (b : Booking)
  | createOrder (o : ProviderOrder)
  | moveOrder (id : Id) (status : OrderStatus) (attempts : Nat)
  | takePayment (p : ProviderPayment)
  | claimRefund (a : RefundAttempt)
  | sendRefund (n : Nat)
  | acceptRefund (n : Nat) (answer : RefundAnswer)
  | rejectRefund (n : Nat) (description : String)
  | recordRefund (n : Nat)
  | tick
deriving DecidableEq, Repr

def RefundAttempt.send (a : RefundAttempt) : RefundAttempt := { a with state := .inFlight }

/-- The provider decides on a request it has received and not decided yet. -/
def RefundAttempt.decide (state : AttemptState) (a : RefundAttempt) : RefundAttempt :=
  if a.state = .inFlight then { a with state } else a

def RefundAttempt.record (a : RefundAttempt) : RefundAttempt :=
  { a with recorded := true, known := a.state != .inFlight }

/-- The payment at the provider that an undecided request is for. -/
def Db.requested (d : Db) (n : Nat) : List Id :=
  match d.attempt n with
  | some a => if a.state = .inFlight then [a.razorpayPaymentId] else []
  | none => []

def Write.apply (w : Write) (d : Db) : Db :=
  match w with
  | .insertPayment p => { d with payments := Table.insert Payment.clash d.payments p }
  | .updatePayment id data =>
    { d with payments := Table.modify Payment.id d.payments [id] (Payment.update data) }
  | .insertEvent e => { d with events := Table.insert WebhookEvent.clash d.events e }
  | .updateEvent id status failureReason =>
    { d with events :=
        Table.modify WebhookEvent.id d.events [id] (WebhookEvent.finish status failureReason) }
  | .outbox e => { d with outbox := Table.insert OutboxEvent.clash d.outbox e }
  | .putBooking b => { d with bookings := b :: d.bookings.filter fun old => decide (old.id ≠ b.id) }
  | .createOrder o => { d with orders := d.orders ++ [o] }
  | .moveOrder id status attempts =>
    { d with orders := d.orders.modify id (ProviderOrder.move status attempts) }
  | .takePayment p => { d with captures := Table.insert ProviderPayment.clash d.captures p }
  | .claimRefund a => { d with attempts := d.attempts ++ [a] }
  | .sendRefund n => { d with attempts := d.attempts.modify n RefundAttempt.send }
  | .acceptRefund n answer =>
    { d with
      attempts := d.attempts.modify n (RefundAttempt.decide (.accepted answer))
      captures := Table.modify ProviderPayment.id d.captures (d.requested n)
        (ProviderPayment.refund answer.amount) }
  | .rejectRefund n description =>
    { d with attempts := d.attempts.modify n (RefundAttempt.decide (.rejected description)) }
  | .recordRefund n => { d with attempts := d.attempts.modify n RefundAttempt.record }
  | .tick => { d with now := d.now + 1 }

inductive Key where
  | payment (id : Id)
  | event (id : EventId)
deriving DecidableEq, Repr

def Write.keys : Write → List Key
  | .insertPayment p => [.payment p.id]
  | .updatePayment id _ => [.payment id]
  | .insertEvent e => [.event e.id]
  | .updateEvent id _ _ => [.event id]
  | _ => []

abbrev Key.Row : Key → Type
  | .payment _ => Option Payment
  | .event _ => Option WebhookEvent

def Db.row (d : Db) : (k : Key) → k.Row
  | .payment id => d.payment id
  | .event id => d.event id

theorem Write.row_apply (w : Write) (d : Db) (k : Key) (untouched : k ∉ w.keys) :
    (w.apply d).row k = d.row k := by
  cases k with
  | payment id =>
    cases w with
    | insertPayment p =>
      have other : p.id ≠ id := fun h => untouched (by simp [Write.keys, h])
      simp only [Db.row, Db.payment, Write.apply, Table.find_insert_of_ne other]
    | updatePayment i data =>
      exact Table.find_modify_of_notMem _ _ _ _ (fun _ => rfl) (by simpa [Write.keys] using untouched)
    | _ => rfl
  | event id =>
    cases w with
    | insertEvent e =>
      have other : e.id ≠ id := fun h => untouched (by simp [Write.keys, h])
      simp only [Db.row, Db.event, Write.apply, Table.find_insert_of_ne other]
    | updateEvent i status reason =>
      exact Table.find_modify_of_notMem _ _ _ _ (fun _ => rfl) (by simpa [Write.keys] using untouched)
    | _ => rfl

instance : RowStore Db Write Key where
  Row := Key.Row
  row := Db.row
  write := Write.apply
  keys := Write.keys
  row_write := Write.row_apply

@[simp] theorem write_eq_apply (w : Write) (d : Db) : write w d = w.apply d := rfl

@[simp] theorem keys_eq (w : Write) : keys Db w = w.keys := rfl

end LabourBaba.Payments
