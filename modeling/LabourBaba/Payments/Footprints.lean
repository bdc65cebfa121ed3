import LabourBaba.Payments.Conformance
import LabourBaba.Store.Footprint

/-!
# What the payment services write

New rows come from one place each: a payment from the order that is created for its booking,
a webhook event from the delivery that claims it, a booking from the marketplace. All other
statements amend what is stored. A webhook transaction claims its event before it reads
anything, and only the claim can violate a unique constraint.
-/
namespace LabourBaba.Payments

open Store
open Market (Id Text AuthenticatedUser)

/-- The write adds no payment, no webhook event and no booking. -/
def Write.amends : Write → Bool
  | .insertPayment _ | .insertEvent _ | .putBooking _ => false
  | _ => true

/-- The write amends what is stored, or adds a payment of the booking. -/
def Write.intends (bookingId : Id) (w : Write) : Prop :=
  w.amends = true ∨ ∃ p, w = .insertPayment p ∧ p.bookingId = bookingId

/-- The statement reports no captured payment. -/
def Label.silent : Label → Bool
  | .captured .. => false
  | _ => true

/-- The statement is silent, and none of those by which an order is created. -/
def Label.amends : Label → Bool
  | .captured .. | .intended .. | .reclaimed _ | .orderCreated _ | .orderFailed _
  | .orderSaved .. => false
  | _ => true

theorem silent_of_amends {ℓ : Label} (amends : ℓ.amends = true) : ℓ.silent = true := by
  cases ℓ <;> first | rfl | cases amends

section Shapes

variable {α : Type}

abbrev Amends (c : Service α) : Prop :=
  Call.Emits (fun w => w.amends = true) (fun ℓ => ℓ.amends = true) false c

abbrev Intends (bookingId : Id) (c : Service α) : Prop :=
  Call.Emits (Write.intends bookingId) (fun ℓ => ℓ.silent = true) false c

/-- Inside a transaction. -/
abbrev AmendsInTx (c : Service α) : Prop := Call.Plain (fun w => w.amends = true) c

end Shapes

section Statements

variable {d : Db} {ws : List Write}

theorem setPayment_amends {id : Id} {data : PaymentData} {a : Unit}
    (result : setPayment id data d = .ok (ws, a)) : ∀ w ∈ ws, w.amends = true := by
  obtain ⟨row, -, -, rfl⟩ := setPayment_ok result
  simp [Write.amends]

theorem setPaymentWhere_amends {id : Id} {matching : Payment → Bool} {data : PaymentData}
    {hit : Bool} (result : setPaymentWhere id matching data d = .ok (ws, hit)) :
    ∀ w ∈ ws, w.amends = true := by
  rcases setPaymentWhere_ok result with ⟨-, rfl⟩ | ⟨row, -, -, -, -, rfl⟩
  · simp
  · simp [Write.amends]

theorem claimWhere_amends {statuses : List PaymentStatus} {attempt : RefundAttempt}
    {reason : String} {n : Option Nat}
    (result : claimWhere statuses attempt reason d = .ok (ws, n)) : ∀ w ∈ ws, w.amends = true := by
  simp only [claimWhere] at result
  (repeat' split at result) <;> cases result <;> simp [Write.amends]

end Statements

/-! ### Orders -/

section Orders

variable {bookingId : Id}

theorem createIntent_intends (newId : Id) (amountPaise : Int) (currency : Text) :
    Intends bookingId (createIntent bookingId newId amountPaise currency) := by
  refine .stmt (Or.inr rfl) fun d ws p result => ?_
  split at result
  · cases result
  · cases result
    simp [Write.intends, newIntent]

theorem claimOrder_intends (newId : Id) (amountPaise : Int) (currency : Text)
    (existing : Option Payment) :
    Intends bookingId (claimOrder bookingId newId amountPaise currency existing) := by
  cases existing with
  | none =>
    refine (createIntent_intends newId amountPaise currency).attempt.bind fun created => ?_
    match created with
    | .ok p => exact .pure _
    | .error .uniqueViolation => exact Call.Emits.bind (.read _ _) fun p => .pure _
    | .error (.payment ..) | .error (.provider ..) | .error (.authorization ..)
    | .error .recordNotFound | .error .database => exact .throw _
  | some existing =>
    simp only [claimOrder]
    split
    · refine Call.Emits.bind (.stmt (Or.inr rfl) fun d ws hit result w member => ?_) fun claimed =>
        Call.Emits.bind (.read _ _) fun p => .pure _
      exact Or.inl (setPaymentWhere_amends result w member)
    · exact .pure _

theorem sendOrder_intends (amount : Int) (currency : Text) :
    Intends bookingId (sendOrder bookingId amount currency) :=
  .send rfl fun d w member => Or.inl (by simp_all [Write.amends])

theorem razorpayCreateOrder_intends (cfg : Config) (amountPaise : Int) (currency : Text)
    (answer : OrdersCreate) :
    Intends bookingId (razorpayCreateOrder cfg amountPaise currency bookingId answer) := by
  simp only [razorpayCreateOrder]
  split
  · exact .throw _
  split
  · exact .throw _
  split
  · exact .throw _
  cases answer with
  | refused => exact .throw _
  | lost => exact (sendOrder_intends _ _).bind fun _ => .throw _
  | replied idPresent returnedAmount returnedCurrency =>
    refine (sendOrder_intends _ _).bind fun orderId => ?_
    split
    · exact .pure _
    · exact .throw _

theorem persistOrder_intends (paymentId : Id) (order : RazorpayOrderResult) :
    Intends bookingId (persistOrder paymentId order) := by
  refine Call.Emits.bind .choose fun reachable => ?_
  cases reachable with
  | false => exact .throw _
  | true =>
    refine .stmt (Or.inr rfl) fun d ws p result => ?_
    (repeat' split at result) <;> cases result
    simp [Write.intends, Write.amends]

theorem executeOrder_intends (cfg : Config) (amountPaise : Int) (currency : Text) (record : Payment)
    (answer : OrdersCreate) :
    Intends bookingId (executeOrder cfg bookingId amountPaise currency record answer) := by
  refine (razorpayCreateOrder_intends cfg amountPaise currency answer).attempt.bind fun order => ?_
  cases order with
  | error providerErr =>
    refine Call.Emits.bind .choose fun reachable => ?_
    cases reachable with
    | false => exact .throw _
    | true =>
      refine Call.Emits.bind (.stmt (Or.inr rfl) fun d ws hit result w member => ?_) fun _ =>
        .throw _
      exact Or.inl (setPaymentWhere_amends result w member)
  | ok order =>
    refine (persistOrder_intends record.id order).attempt.bind fun saved => ?_
    cases saved with
    | error e => exact .throw _
    | ok updated => exact .pure _

theorem pollOrder_intends (amountPaise : Int) (attempts : Nat) :
    Intends bookingId (pollOrder bookingId amountPaise attempts) := by
  induction attempts with
  | zero => exact .throw _
  | succ attempts ih =>
    refine Call.Emits.bind (.read _ _) fun refreshed => ?_
    cases refreshed with
    | none => exact ih
    | some row =>
      dsimp only
      split
      · exact .pure _
      · split
        · exact .throw _
        · exact ih

theorem orderFor_intends (cfg : Config) (newId : Id) (amountPaise : Int) (answer : OrdersCreate) :
    Intends bookingId (orderFor cfg bookingId newId amountPaise answer) := by
  refine Call.Emits.bind (.read _ _) fun existing => ?_
  split
  · exact .pure _
  · exact .throw _
  · refine (claimOrder_intends newId amountPaise cfg.currency existing).bind fun claim => ?_
    split
    · exact executeOrder_intends cfg amountPaise cfg.currency _ answer
    · simp only [awaitOrder]
      (repeat' split) <;> first | exact .pure _ | exact pollOrder_intends amountPaise 25

theorem createOrder_intends (cfg : Config) (customerId newId : Id) (answer : OrdersCreate) :
    Intends bookingId (createOrder cfg bookingId customerId newId answer) := by
  refine Call.Emits.bind (.read _ _) fun booking => ?_
  cases booking with
  | none => exact .throw _
  | some booking =>
    dsimp only
    split
    · split
      · exact .throw _
      · split
        · exact .throw _
        · exact orderFor_intends cfg newId _ answer
    · exact .throw _

end Orders

/-! ### Refunds and reconciliation -/

theorem fetchPayment_amends (cfg : Config) (razorpayPaymentId : Id) :
    Amends (fetchPayment cfg razorpayPaymentId) := by
  simp only [fetchPayment]
  split
  · exact .throw _
  · refine Call.Emits.bind .choose fun reachable => Call.Emits.bind (.read _ _) fun payment => ?_
    (repeat' split) <;> first | exact .pure _ | exact .throw _

theorem preflight_amends (cfg : Config) (p : Payment) (attempt : RefundAttempt)
    (reason : Option String) : Amends (preflight cfg p attempt reason) := by
  refine (fetchPayment_amends cfg _).bind fun providerPayment => ?_
  split
  · exact Call.Emits.bind (.stmt (Or.inr rfl) fun d ws _ => setPayment_amends) fun _ => .pure _
  · refine Call.Emits.bind (.stmt (Or.inr rfl) fun d ws n => claimWhere_amends) fun claimed => ?_
    cases claimed with
    | some n => exact .pure _
    | none => exact .throw _

theorem normalClaim_amends (p : Payment) (attempt : RefundAttempt) (reason : Option String) :
    Amends (normalClaim p attempt reason) := by
  refine Call.Emits.bind (.stmt (Or.inr rfl) fun d ws n => claimWhere_amends) fun claimed => ?_
  cases claimed with
  | some n => exact .pure _
  | none =>
    refine Call.Emits.bind (.read _ _) fun current => ?_
    cases current with
    | none => exact .throw _
    | some row =>
      dsimp only
      (repeat' split) <;> first | exact .pure _ | exact .throw _

theorem claimFor_amends (cfg : Config) (p : Payment) (attempt : RefundAttempt)
    (reason : Option String) : Amends (claimFor cfg p attempt reason) := by
  simp only [claimFor]
  split
  · refine (preflight_amends cfg p attempt reason).attempt.bind fun result => ?_
    (repeat' split) <;> first | exact .pure _ | exact .throw _
  · exact normalClaim_amends p attempt reason

theorem settleRefund_amends (p : Payment) (customerId : Id) (n : Nat)
    (refund : RazorpayRefundResult) : Amends (settleRefund p customerId n refund) := by
  refine Call.Emits.bind .choose fun reachable => ?_
  cases reachable with
  | false => exact .throw _
  | true =>
    refine .transaction (fun _ => rfl) (.bind (.stmt (Or.inl rfl) fun d ws _ result => ?_) fun _ =>
      .stmt (Or.inl rfl) fun d ws _ result => ?_)
    · simp only [setRefunded] at result
      (repeat' split at result) <;> cases result
      simp [Write.amends]
    · cases result
      simp [Write.amends]

theorem executeRefund_amends (cfg : Config) (p : Payment) (customerId : Id) (n : Nat)
    (refundAmountPaise : Option RequestedAmount) :
    Amends (executeRefund cfg p customerId n refundAmountPaise) := by
  refine Call.Emits.bind ?_ fun refund => (settleRefund_amends p customerId n refund).bind fun _ =>
    .pure _
  simp only [razorpayCreateRefund]
  split
  · exact .throw _
  split
  · exact .throw _
  refine Call.Emits.bind (.send rfl fun _ => by simp [Write.amends]) fun _ =>
    Call.Emits.bind .choose fun delivered => Call.Emits.bind (.read _ _) fun attempt => ?_
  split
  · exact .pure _
  · exact .throw _

theorem refundClaimed_amends (cfg : Config) (p : Payment) (customerId : Id) (n : Nat)
    (refundAmountPaise : Option RequestedAmount) :
    Amends (refundClaimed cfg p customerId n refundAmountPaise) := by
  refine (executeRefund_amends cfg p customerId n refundAmountPaise).attempt.bind fun result => ?_
  cases result with
  | ok refund => exact .pure _
  | error err =>
    refine Call.Emits.bind (.stmt (Or.inr rfl) fun d ws _ result => ?_) fun _ => .throw _
    split at result
    · cases result
    · cases result
      simp [Write.amends]

theorem refundPayment_amends (cfg : Config) (me : Nat) (bookingId : Id) (actor : AuthenticatedUser)
    (refundAmountPaise : Option RequestedAmount) (reason : Option String) :
    Amends (refundPayment cfg me bookingId actor refundAmountPaise reason) := by
  simp only [refundPayment]
  split
  · exact .throw _
  refine Call.Emits.bind (.read _ _) fun booking => ?_
  split
  · exact .throw _
  split
  · exact .throw _
  refine Call.Emits.bind (.read _ _) fun payment => ?_
  split
  · exact .throw _
  next p =>
    simp only [refundFor]
    split
    · exact .pure _
    split
    · exact .throw _
    refine (claimFor_amends cfg p _ reason).bind fun claim => ?_
    split
    · exact .pure _
    · exact refundClaimed_amends cfg p _ _ refundAmountPaise

theorem fetchOrder_amends (cfg : Config) (orderId : Id) : Amends (fetchOrder cfg orderId) := by
  simp only [fetchOrder]
  split
  · exact .throw _
  · refine Call.Emits.bind .choose fun reachable => Call.Emits.bind (.read _ _) fun order => ?_
    (repeat' split) <;> first | exact .pure _ | exact .throw _

theorem transitionPaymentStatus_amends (paymentId : Id) (fromStatus toStatus : PaymentStatus)
    (metadata : PaymentData) :
    AmendsInTx (transitionPaymentStatus paymentId fromStatus toStatus metadata) := by
  simp only [transitionPaymentStatus]
  split
  · exact .stmt fun d ws hit => setPaymentWhere_amends
  · exact .throw _

theorem reconcilePaid_amends (p : Payment) (order : ProviderOrder) (result : ReconciliationResult) :
    Amends (reconcilePaid p order result) := by
  simp only [reconcilePaid]
  split
  · exact Call.Emits.bind (.stmt (Or.inr rfl) fun d ws _ => setPayment_amends) fun _ => .pure _
  split
  · exact Call.Emits.bind (.stmt (Or.inr rfl) fun d ws _ => setPayment_amends) fun _ => .pure _
  refine Call.Emits.bind (.transaction (fun _ => rfl) ?_) fun _ => .pure _
  exact (transitionPaymentStatus_amends _ _ _ _).emits

theorem reconcilePayment_amends (cfg : Config) (p : Payment) (result : ReconciliationResult) :
    Amends (reconcilePayment cfg p result) := by
  simp only [reconcilePayment]
  split
  · exact .pure _
  refine (fetchOrder_amends cfg _).bind fun order => ?_
  split
  · exact reconcilePaid_amends p order result
  split
  · refine Call.Emits.bind (.transaction (fun _ => rfl) ?_) fun _ => .pure _
    exact (transitionPaymentStatus_amends _ _ _ _).emits
  · exact .pure _

theorem reconcileEach_amends (cfg : Config) (ps : List Payment) (result : ReconciliationResult) :
    Amends (reconcileEach cfg ps result) := by
  induction ps generalizing result with
  | nil => exact .pure _
  | cons p rest ih =>
    refine (reconcilePayment_amends cfg p result).attempt.bind fun outcome => ?_
    cases outcome with
    | ok result => exact ih result
    | error e => exact ih _

theorem reconcileStalePayments_amends (cfg : Config) (olderThanMinutes : Nat) :
    Amends (reconcileStalePayments cfg olderThanMinutes) :=
  Call.Emits.bind (.read _ _) fun stale => reconcileEach_amends cfg stale _

theorem outside_amends (w : Unlocked Db) (amends : w.val.amends = true) : Amends (outside w) := by
  refine .send rfl fun _ v member => ?_
  rwa [List.mem_singleton.mp member]

/-! ### Webhook transactions -/

/-- What a delivery is answered that finds its event recorded. -/
def dismissals : List String :=
  ["Duplicate event — already processed", "Duplicate refund event — already processed"]

/-- The transaction claims the event first and then amends what is stored, without a unique
constraint in its way. -/
def ClaimsFirst (eventId : EventId) (eventType : Text) (body : Service (Applied × String)) : Prop :=
  ∃ rest : Service (Applied × String), body = (claimEvent eventId eventType >>= fun _ => rest) ∧
    (AmendsInTx rest ∧ Call.Avoids .uniqueViolation rest) ∧
    Call.Gives (fun r => r.2 ∉ dismissals) rest

/-- A statement list of a webhook transaction after its claim. -/
abbrev FollowsClaim {α : Type} (c : Service α) : Prop :=
  AmendsInTx c ∧ Call.Avoids .uniqueViolation c

namespace FollowsClaim

variable {α β : Type}

theorem pure (a : α) : FollowsClaim (Pure.pure a : Service α) := ⟨.pure a, .pure a⟩

theorem bind {c : Service α} {f : α → Service β} (first : FollowsClaim c)
    (next : ∀ a, FollowsClaim (f a)) : FollowsClaim (c >>= f) :=
  ⟨first.1.bind fun a => (next a).1, first.2.bind fun a => (next a).2⟩

theorem read (f : Db → α) : FollowsClaim (query f) := ⟨.read _ _, .read _ _⟩

theorem stmt {f : Db → Except Failure (List Write × α)}
    (amends : ∀ d ws a, f d = .ok (ws, a) → ∀ w ∈ ws, w.amends = true)
    (fails : ∀ d, f d ≠ .error .uniqueViolation) : FollowsClaim (step f) :=
  ⟨.stmt amends, .stmt fails⟩

end FollowsClaim

theorem finishEvent_follows (id : EventId) (status : WebhookEventStatus) (reason : Option String) :
    FollowsClaim (finishEvent id status reason) := by
  refine .stmt (fun d ws _ result => ?_) fun d failed => by cases failed
  cases result
  simp [Write.amends]

theorem notify_follows (eventType : OutboxEventType) (p : Payment) (toWorker : Bool) :
    FollowsClaim (notify eventType p toWorker) := by
  refine .bind (.read _) fun booking => .stmt (fun d ws _ result w member => ?_) fun d failed => by
    cases failed
  cases result
  obtain ⟨e, -, rfl⟩ := List.mem_map.mp member
  rfl

theorem setPayment_follows (id : Id) (data : PaymentData) :
    FollowsClaim (step (setPayment id data)) := by
  refine .stmt (fun d ws _ => setPayment_amends) fun d failed => ?_
  simp only [setPayment] at failed
  split at failed <;> cases failed

theorem setPaymentWhere_fails (id : Id) (matching : Payment → Bool) (data : PaymentData) (d : Db)
    (e : Failure) : setPaymentWhere id matching data d ≠ .error e := by
  intro failed
  simp only [setPaymentWhere] at failed
  (repeat' split at failed) <;> cases failed

theorem transitionPaymentStatus_follows (paymentId : Id) (fromStatus toStatus : PaymentStatus)
    (metadata : PaymentData) :
    FollowsClaim (transitionPaymentStatus paymentId fromStatus toStatus metadata) := by
  refine ⟨transitionPaymentStatus_amends paymentId fromStatus toStatus metadata, ?_⟩
  simp only [transitionPaymentStatus]
  split
  · exact .stmt fun d => setPaymentWhere_fails _ _ _ d _
  · exact .throw (by simp)

theorem quarantine_follows (eventId : EventId) (p : Payment)
    (failureReason quarantineReason message : String) :
    FollowsClaim (quarantine eventId p failureReason quarantineReason message) :=
  .bind (finishEvent_follows _ _ _) fun _ => .bind (setPayment_follows _ _) fun _ => .pure _

theorem completePayment_follows (eventId : EventId) (p : Payment) (razorpayPaymentId : Id) :
    FollowsClaim (completePayment eventId p razorpayPaymentId) := by
  refine .bind (transitionPaymentStatus_follows _ _ _ _) fun transitioned => ?_
  cases transitioned with
  | true =>
    exact .bind (notify_follows _ _ _) fun _ => .bind (finishEvent_follows _ _ _) fun _ => .pure _
  | false => exact .bind (finishEvent_follows _ _ _) fun _ => .pure _

theorem quarantine_gives {eventId : EventId} {p : Payment}
    {failureReason quarantineReason message : String} (other : message ∉ dismissals) :
    Call.Gives (fun r => r.2 ∉ dismissals)
      (quarantine eventId p failureReason quarantineReason message) :=
  .bind (.any _) fun _ _ => .bind (.any _) fun _ _ => .pure other

theorem completePayment_gives (eventId : EventId) (p : Payment) (razorpayPaymentId : Id) :
    Call.Gives (fun r => r.2 ∉ dismissals) (completePayment eventId p razorpayPaymentId) := by
  refine .bind (.any _) fun transitioned _ => ?_
  cases transitioned with
  | true =>
    exact .bind (.any _) fun _ _ => .bind (.any _) fun _ _ => .pure (by simp [dismissals])
  | false => exact .bind (.any _) fun _ _ => .pure (by simp [dismissals])

theorem processPaymentCapturedTx_claimsFirst (eventId : EventId) (eventType : Text)
    (orderId razorpayPaymentId : Id) (capturedAmount : Option Int)
    (capturedCurrency : Option Text) :
    ClaimsFirst eventId eventType (processPaymentCapturedTx eventId eventType orderId
      razorpayPaymentId capturedAmount capturedCurrency) := by
  refine ⟨_, rfl, FollowsClaim.bind (.read _) fun localPayment => ?_,
    Call.Gives.bind (.any _) fun localPayment _ => ?_⟩
  · cases localPayment with
    | none => exact .bind (finishEvent_follows _ _ _) fun _ => .pure _
    | some p =>
      dsimp only
      split
      · exact quarantine_follows _ _ _ _ _
      split
      · exact quarantine_follows _ _ _ _ _
      · exact completePayment_follows _ _ _
  · cases localPayment with
    | none => exact .bind (.any _) fun _ _ => .pure (by simp [dismissals])
    | some p =>
      dsimp only
      split
      · exact quarantine_gives (by simp [dismissals])
      split
      · exact quarantine_gives (by simp [dismissals])
      · exact completePayment_gives _ _ _

theorem processPaymentFailedTx_claimsFirst (eventId : EventId) (eventType : Text) (orderId : Id) :
    ClaimsFirst eventId eventType (processPaymentFailedTx eventId eventType orderId) := by
  refine ⟨_, rfl, FollowsClaim.bind (.read _) fun localPayment => ?_,
    Call.Gives.bind (.any _) fun localPayment _ => ?_⟩
  · cases localPayment with
    | none => exact .bind (finishEvent_follows _ _ _) fun _ => .pure _
    | some p =>
      have moved := transitionPaymentStatus_follows p.id .PENDING .FAILED {}
      refine .bind (c := Call.attempt _) ⟨moved.1.attempt, .attempt _⟩ fun transitioned => ?_
      split
      · exact .bind (notify_follows _ _ _) fun _ =>
          .bind (finishEvent_follows _ _ _) fun _ => .pure _
      · exact .bind (finishEvent_follows _ _ _) fun _ => .pure _
  · cases localPayment with
    | none => exact .bind (.any _) fun _ _ => .pure (by simp [dismissals])
    | some p =>
      refine .bind (.any _) fun transitioned _ => ?_
      split
      · exact .bind (.any _) fun _ _ => .bind (.any _) fun _ _ => .pure (by simp [dismissals])
      · exact .bind (.any _) fun _ _ => .pure (by simp [dismissals])

theorem processRefundProcessedTx_claimsFirst (eventId : EventId) (eventType : Text)
    (razorpayPaymentId : Id) (refundId : Option Id) (refundAmount : Option Int) :
    ClaimsFirst eventId eventType
      (processRefundProcessedTx eventId eventType razorpayPaymentId refundId refundAmount) := by
  refine ⟨_, rfl, FollowsClaim.bind (.read _) fun localPayment => ?_,
    Call.Gives.bind (.any _) fun localPayment _ => ?_⟩
  · cases localPayment with
    | none => exact .bind (finishEvent_follows _ _ _) fun _ => .pure _
    | some p =>
      dsimp only
      split
      · exact .bind (setPayment_follows _ _) fun _ => .bind (notify_follows _ _ _) fun _ =>
          .bind (finishEvent_follows _ _ _) fun _ => .pure _
      split
      · exact .bind (setPayment_follows _ _) fun _ => .bind (finishEvent_follows _ _ _) fun _ =>
          .pure _
      · exact .bind (finishEvent_follows _ _ _) fun _ => .pure _
  · cases localPayment with
    | none => exact .bind (.any _) fun _ _ => .pure (by simp [dismissals])
    | some p =>
      dsimp only
      split
      · exact .bind (.any _) fun _ _ => .bind (.any _) fun _ _ => .bind (.any _) fun _ _ =>
          .pure (by simp [dismissals])
      split
      · exact .bind (.any _) fun _ _ => .bind (.any _) fun _ _ => .pure (by simp [dismissals])
      · exact .bind (.any _) fun _ _ => .pure (by simp [dismissals])

end LabourBaba.Payments
