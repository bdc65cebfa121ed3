import LabourBaba.Payments.RefundServices

/-!
# The payment system

The calls of the payment services, and what happens around them: the provider takes
payments, moves orders and decides refund requests, the marketplace changes bookings, and
time passes. A run interleaves any number of them, statement by statement.
-/
namespace LabourBaba.Payments

open Store
open Market (Id Text Role AuthenticatedUser)

inductive Op where
  | createOrder (bookingId customerId newId : Id) (answer : OrdersCreate)
  | handleWebhook (body : WebhookBody)
  | refundPayment (bookingId : Id) (actor : AuthenticatedUser)
      (refundAmountPaise : Option RequestedAmount) (reason : Option String)
  | reconcileStalePayments (olderThanMinutes : Nat)
  | putBooking (booking : Booking)
  | moveOrder (orderId : Id) (status : OrderStatus) (attempts : Nat)
  | takePayment (payment : ProviderPayment)
  | acceptRefund (n : Nat) (answer : RefundAnswer)
  | rejectRefund (n : Nat) (description : String)
  | tick
deriving DecidableEq, Repr

inductive Reply where
  | order (response : PaymentOrderResponse)
  | acknowledged (message : String)
  | refund (response : RefundResponse)
  | reconciled (result : ReconciliationResult)
  | done
deriving DecidableEq, Repr

abbrev Outcome := Except Failure Reply

def replying {α : Type} (reply : α → Reply) (service : Service α) : Service Reply := do
  let a ← service
  pure (reply a)

/-- A step of the provider or of the marketplace. -/
def outside (w : Unlocked Db) : Service Reply := Call.send .provider fun _ => ([w], .done)

def serviceOf (cfg : Config) (me : Nat) : Op → Service Reply
  | .createOrder bookingId customerId newId answer =>
    replying .order (createOrder cfg bookingId customerId newId answer)
  | .handleWebhook body => replying .acknowledged (handleWebhook body)
  | .refundPayment bookingId actor refundAmountPaise reason =>
    replying .refund (refundPayment cfg me bookingId actor refundAmountPaise reason)
  | .reconcileStalePayments olderThanMinutes =>
    replying .reconciled (reconcileStalePayments cfg olderThanMinutes)
  | .putBooking booking => outside ⟨.putBooking booking, rfl⟩
  | .moveOrder orderId status attempts => outside ⟨.moveOrder orderId status attempts, rfl⟩
  | .takePayment payment => outside ⟨.takePayment payment, rfl⟩
  | .acceptRefund n answer => outside ⟨.acceptRefund n answer, rfl⟩
  | .rejectRefund n description => outside ⟨.rejectRefund n description, rfl⟩
  | .tick => Call.send .ticked fun _ => ([⟨.tick, rfl⟩], .done)

def system (cfg : Config) (me : Nat) (op : Op) : Prog Label Db Write Key Outcome :=
  (serviceOf cfg me op).run

abbrev PaymentPool := Pool Label Db Write Key Op Outcome

abbrev PaymentThread := Thread Label Db Write Key Op Outcome

/-- The label of the statement an event runs. -/
def labelOf (p : PaymentPool) : Event Op → Option Label
  | .run i _ => p.next i
  | _ => none

/-- No payment, no booking and no call. -/
def start : PaymentPool := { db := {} }

/-- A run of the payment system whose statements all meet a condition on the store. -/
abbrev Runs (cfg : Config) (cond : Label → Db → Prop) : PaymentPool → Prop :=
  Pool.Reaches (system cfg) (Pool.Meets cond) start

/-- Every run. -/
abbrev Reachable (cfg : Config) : PaymentPool → Prop := Runs cfg fun _ _ => True

/-- The payment system after a schedule of events that all meet a condition. -/
def played (cond : Label → Db → Prop) [∀ ℓ d, Decidable (cond ℓ d)] (moves : List (Pool.Move Op)) :
    PaymentPool :=
  start.after (system {}) (Pool.Meets cond) 60 moves

theorem runs_played (cond : Label → Db → Prop) [∀ ℓ d, Decidable (cond ℓ d)]
    (moves : List (Pool.Move Op)) : Runs {} cond (played cond moves) :=
  Pool.Reaches.refl.after 60 moves

/-! ### A paid booking, for the schedules spelled out -/

/-- Booking 1 is paid: its order is created, the provider takes payment 9 and reports it. -/
def paid : List (Pool.Move Op) :=
  [.event (.spawn (.putBooking { id := 1, customerId := 7, workerId := 10, status := .CONFIRMED
                                 ratePerDay := some 5 })),
   .drive 0 true,
   .event (.spawn (.createOrder 1 7 1 (.replied true 500 "INR".toList))),
   .drive 1 true,
   .event (.spawn (.takePayment { id := 9, orderId := 0, amount := 500
                                  currency := "INR".toList })),
   .drive 2 true,
   .event (.spawn (.handleWebhook { event := "payment.captured".toList
                                    payment := some { id := some 9, orderId := some 0
                                                      amount := some 500
                                                      currency := some "INR".toList } })),
   .drive 3 true]

/-- Call `i` asks for a refund of booking 1 and issues its statements up to the sent request. -/
def sendsRefund (i : Nat) (amount : Int) : List (Pool.Move Op) :=
  [.event (.spawn (.refundPayment 1 ⟨7, .CUSTOMER⟩ (some (.integer amount)) none)),
   .event (.run i true), .event (.run i true), .event (.run i true), .event (.run i true)]

/-- The provider reports a refund of payment 9. -/
def refundReported : Op :=
  .handleWebhook { event := "refund.processed".toList
                   refund := some { id := some 3, paymentId := some 9, amount := some 500 } }

end LabourBaba.Payments
