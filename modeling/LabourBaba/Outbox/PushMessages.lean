import LabourBaba.Outbox.Schema
import LabourBaba.Text.Json
import LabourBaba.Text.Objects

/-!
# Push messages

The payloads that the producers of outbox events write, and the data map that
`executeRecordDelivery` and `sendFCMToTokens` make of them. The payload is spread unchanged into
the data of the message, so that the message is well formed exactly if the payload holds strings
only (`wellFormed_iff_textual`); the events whose producers write other values are never
accepted by the provider (`push_wellFormed_iff`).

A member that is `undefined` is an optional value without one: the stored JSON leaves it out. An
instant is its ISO text.
-/
namespace LabourBaba.Push

open Utf16 Objects

/-! ### Events -/

/-- What a producer writes of an event, as far as a delivery reads it. -/
structure NewEvent where
  eventType : Text
  aggregateType : Text
  aggregateId : Text
  aggregateVersion : ℤ := 1
  recipientType : Outbox.RecipientType
  recipientId : Text
  payload : List (Text × Option Json)
  correlationId : Option Text := none

def text (s : Text) : Option Json := some (.string s)

def number (n : ℤ) : Option Json := some (.number (Decimal.ofInt n))

/-- A nullable column. -/
def column {α : Type} (value : α → Option Json) (content : Option α) : Option Json :=
  content.elim (some .null) value

/-- `value || fallback` of a text. -/
def orText (value : Option Text) (fallback : Text) : Text :=
  (value.filter (· ≠ [])).getD fallback

/-- `${paise / 100}`. -/
def rupees (paise : ℤ) : Text :=
  numberText ⟨(paise : ℚ) / 100, 2, by exact_mod_cast Rat.den_dvd paise 100⟩

/-- `${amount ?? 0}`, and `first || second || 0` for an amount that may be missing. -/
def firstAmount (first second : Option ℤ) : ℤ := ((first.filter (· ≠ 0)).or second).getD 0

/-- The events of the program, each with the values that its producer has. -/
inductive Notice
  | incomingJob (jobId requirementId workerId : Text) (waveNumber : ℤ)
      (skillType : Option Text) (ratePerDay : Option ℤ) (location customerName : Option Text)
      (expiresAt : Text) (correlationId : Option Text)
  | bookingConfirmed (bookingId jobId requirementId workerId customerId : Text)
      (skillType : Option Text) (otp : Text)
  | bookingCompleted (bookingId jobId workerId : Text) (rating : Option Decimal)
  | bookingCancelled (bookingId jobId workerId customerId reason : Text)
      (isWorkerCancelling : Bool)
  | paymentConfirmed (paymentId bookingId customerId : Text) (amount : Option ℤ) (currency : Text)
      (correlationId : Option Text)
  | paymentReceived (paymentId bookingId workerId : Text) (amount : Option ℤ) (currency : Text)
      (correlationId : Option Text)
  | paymentFailed (paymentId bookingId customerId : Text) (correlationId : Option Text)
  | refundReported (paymentId bookingId customerId : Text) (refundId : Option Text)
      (refundAmount paymentAmount : Option ℤ) (correlationId : Option Text)
  | refundCompleted (paymentId bookingId customerId razorpayRefundId : Text) (amount : ℤ)
      (correlationId : Option Text)

def Notice.event : Notice → NewEvent
  -- processDispatchJob, one event for each worker of the wave
  | .incomingJob jobId requirementId workerId waveNumber skillType ratePerDay location customerName
      expiresAt correlationId =>
    { eventType := lit "incoming_job"
      aggregateType := lit "requirement"
      aggregateId := requirementId
      recipientType := .worker
      recipientId := workerId
      payload :=
        [(lit "jobId", text jobId),
         (lit "requirementId", text requirementId),
         (lit "waveNumber", number waveNumber),
         (lit "title", text (lit "New Job")),
         (lit "body", text (orText skillType (lit "New Job Opportunity"))),
         (lit "ratePerDay", column number ratePerDay),
         (lit "location", column text (location.filter (· ≠ []))),
         (lit "customerName", text (orText customerName (lit "Customer"))),
         (lit "expiresAt", text expiresAt)]
      correlationId := correlationId.filter (· ≠ []) }
  -- acceptDispatch
  | .bookingConfirmed bookingId jobId requirementId workerId customerId skillType otp =>
    { eventType := lit "booking_confirmed"
      aggregateType := lit "booking"
      aggregateId := bookingId
      recipientType := .customer
      recipientId := customerId
      payload :=
        [(lit "bookingId", text bookingId),
         (lit "jobId", text jobId),
         (lit "requirementId", text requirementId),
         (lit "workerId", text workerId),
         (lit "skillType", column text skillType),
         (lit "otp", text otp),
         (lit "title", text (lit "Worker Confirmed")),
         (lit "body", text (lit "A worker has accepted and confirmed your booking."))] }
  -- confirmBookingCompletion; a request without a rating leaves it undefined
  | .bookingCompleted bookingId jobId workerId rating =>
    { eventType := lit "booking_completed"
      aggregateType := lit "booking"
      aggregateId := bookingId
      recipientType := .worker
      recipientId := workerId
      payload :=
        [(lit "bookingId", text bookingId),
         (lit "jobId", text jobId),
         (lit "rating", rating.map Json.number),
         (lit "title", text (lit "Booking Completed")),
         (lit "body", text (lit "Customer has confirmed completion of the booking."))] }
  -- cancelBooking: the other party is told
  | .bookingCancelled bookingId jobId workerId customerId reason isWorkerCancelling =>
    { eventType := lit "booking_cancelled"
      aggregateType := lit "booking"
      aggregateId := bookingId
      recipientType := if isWorkerCancelling then .customer else .worker
      recipientId := if isWorkerCancelling then customerId else workerId
      payload :=
        [(lit "bookingId", text bookingId),
         (lit "jobId", text jobId),
         (lit "reason", text reason),
         (lit "title", text (lit "Booking Cancelled")),
         (lit "body", text (lit "Booking has been cancelled: " ++
           orText (some reason) (lit "No reason provided")))] }
  -- the capture webhook, to the customer
  | .paymentConfirmed paymentId bookingId customerId amount currency correlationId =>
    { eventType := lit "PAYMENT_COMPLETED"
      aggregateType := lit "payment"
      aggregateId := paymentId
      recipientType := .customer
      recipientId := customerId
      payload :=
        [(lit "paymentId", text paymentId),
         (lit "bookingId", text bookingId),
         (lit "amount", column number amount),
         (lit "currency", text currency),
         (lit "title", text (lit "Payment Successful")),
         (lit "body", text (lit "Your payment of ₹" ++ rupees (amount.getD 0) ++
           lit " has been confirmed."))]
      correlationId := correlationId.filter (· ≠ []) }
  -- and to the worker
  | .paymentReceived paymentId bookingId workerId amount currency correlationId =>
    { eventType := lit "PAYMENT_COMPLETED"
      aggregateType := lit "payment"
      aggregateId := paymentId
      recipientType := .worker
      recipientId := workerId
      payload :=
        [(lit "paymentId", text paymentId),
         (lit "bookingId", text bookingId),
         (lit "amount", column number amount),
         (lit "currency", text currency),
         (lit "title", text (lit "Payment Received")),
         (lit "body", text (lit "Payment of ₹" ++ rupees (amount.getD 0) ++
           lit " received for booking."))]
      correlationId := correlationId.filter (· ≠ []) }
  -- the failure webhook
  | .paymentFailed paymentId bookingId customerId correlationId =>
    { eventType := lit "PAYMENT_FAILED"
      aggregateType := lit "payment"
      aggregateId := paymentId
      recipientType := .customer
      recipientId := customerId
      payload :=
        [(lit "paymentId", text paymentId),
         (lit "bookingId", text bookingId),
         (lit "title", text (lit "Payment Failed")),
         (lit "body", text (lit "Your payment attempt failed. Please try again."))]
      correlationId := correlationId.filter (· ≠ []) }
  -- the refund webhook: both fields of the refund may be missing in its body
  | .refundReported paymentId bookingId customerId refundId refundAmount paymentAmount
      correlationId =>
    { eventType := lit "REFUND_COMPLETED"
      aggregateType := lit "payment"
      aggregateId := paymentId
      recipientType := .customer
      recipientId := customerId
      payload :=
        [(lit "paymentId", text paymentId),
         (lit "bookingId", text bookingId),
         (lit "refundId", refundId.map Json.string),
         (lit "amount", refundAmount.bind number),
         (lit "title", text (lit "Refund Processed")),
         (lit "body", text (lit "Your refund of ₹" ++
           rupees (firstAmount refundAmount paymentAmount) ++ lit " has been processed."))]
      correlationId := correlationId.filter (· ≠ []) }
  -- refundPayment
  | .refundCompleted paymentId bookingId customerId razorpayRefundId amount correlationId =>
    { eventType := lit "REFUND_COMPLETED"
      aggregateType := lit "payment"
      aggregateId := paymentId
      recipientType := .customer
      recipientId := customerId
      payload :=
        [(lit "paymentId", text paymentId),
         (lit "bookingId", text bookingId),
         (lit "refundId", text razorpayRefundId),
         (lit "amount", number amount),
         (lit "title", text (lit "Refund Processed")),
         (lit "body", text (lit "Your refund of ₹" ++ rupees amount ++
           lit " has been processed."))]
      correlationId := correlationId.filter (· ≠ []) }

/-! ### Messages -/

/-- The row of an event, with the columns that the database fills in. -/
structure OutboxRecord where
  id : Text
  createdAt : Text
  event : NewEvent

/-- The payload as it is read back. -/
def OutboxRecord.payload (r : OutboxRecord) : List (Text × Json) :=
  r.event.payload.filterMap fun member => member.2.map fun value => (member.1, value)

/-- The members that a delivery adds to the payload. -/
def identity (r : OutboxRecord) : List (Text × Json) :=
  [(lit "eventId", .string r.id),
   (lit "deliveryId", .string (r.id ++ lit ":" ++ r.event.recipientId ++ lit ":fcm")),
   (lit "outboxId", .string r.id),
   (lit "eventType", .string r.event.eventType),
   (lit "aggregateId", .string r.event.aggregateId),
   (lit "aggregateType", .string r.event.aggregateType),
   (lit "aggregateVersion", .string (numeral r.event.aggregateVersion)),
   (lit "occurredAt", .string r.createdAt),
   (lit "correlationId", .string (r.event.correlationId.getD []))]

def truthy : Json → Bool
  | .null => false
  | .bool b => b
  | .number x => x.1 ≠ 0
  | .string s => s ≠ []
  | .array _ | .object _ => true

/-- `payload[key] || fallback`. -/
def memberOr (payload : List (Text × Json)) (key fallback : Text) : Json :=
  (((payload.find? fun member => member.1 = key).map Prod.snd).filter truthy).getD
    (.string fallback)

structure FCMPayload where
  title : Json
  body : Json
  data : List (Text × Json)

/-- What `executeRecordDelivery` hands to the sender. -/
def fcmPayload (r : OutboxRecord) : FCMPayload where
  title := memberOr r.payload (lit "title") (lit "LabourBaba Notification")
  body := memberOr r.payload (lit "body") []
  data := spread (spread [] r.payload) (identity r)

/-- The data map of the message that `sendFCMToTokens` builds. -/
def messageData (payload : FCMPayload) : List (Text × Json) :=
  spread [(lit "title", payload.title), (lit "body", payload.body)] payload.data

def isText : Json → Bool
  | .string _ => true
  | _ => false

/-- What the provider requires of the data of a message. -/
def WellFormed (data : List (Text × Json)) : Prop := ∀ member ∈ data, isText member.2 = true

/-! ### The payload decides -/

theorem isText_memberOr {payload : List (Text × Json)} {key : Text} (fallback : Text)
    (absent : key ∉ payload.map Prod.fst) : isText (memberOr payload key fallback) = true := by
  have missing : (payload.find? fun member => member.1 = key) = none :=
    List.find?_eq_none.mpr fun member inside same =>
      absent (List.mem_map.mpr ⟨member, inside, of_decide_eq_true same⟩)
  rw [memberOr, missing]
  rfl

theorem isText_identity (r : OutboxRecord) : ∀ member ∈ identity r, isText member.2 = true := by
  simp [identity, isText]

theorem keys_payload (r : OutboxRecord) :
    (r.payload.map Prod.fst).Sublist (r.event.payload.map Prod.fst) := by
  unfold OutboxRecord.payload
  induction r.event.payload with
  | nil => exact List.Sublist.refl []
  | cons member rest ih =>
    obtain ⟨key, value⟩ := member
    cases value with
    | none => exact ih.cons key
    | some v => exact ih.cons_cons key

/-- The title and the body of a notification are hidden by those of its data. -/
theorem messageData_wellFormed {payload : FCMPayload} (distinct : (payload.data.map Prod.fst).Nodup)
    (title : lit "title" ∉ payload.data.map Prod.fst → isText payload.title = true)
    (body : lit "body" ∉ payload.data.map Prod.fst → isText payload.body = true) :
    WellFormed (messageData payload) ↔ ∀ member ∈ payload.data, isText member.2 = true := by
  rw [WellFormed, messageData, forall_spread distinct, List.forall_mem_cons,
    List.forall_mem_singleton]
  exact ⟨And.left, fun data => ⟨data, title, body⟩⟩

theorem stored_textual (r : OutboxRecord) :
    (∀ member ∈ r.payload, isText member.2 = true) ↔
      ∀ member ∈ r.event.payload, ∀ v ∈ member.2, isText v = true := by
  simp only [OutboxRecord.payload, List.mem_filterMap, Option.map_eq_some_iff]
  constructor
  · exact fun all member inside v held => all (member.1, v) ⟨member, inside, v, held, rfl⟩
  · rintro all _ ⟨member, inside, v, held, rfl⟩
    exact all member inside v held

/-- A message is well formed if and only if each member that the producer gave its payload is a
string. -/
theorem wellFormed_iff_textual (r : OutboxRecord)
    (distinct : (r.event.payload.map Prod.fst ++ (identity r).map Prod.fst).Nodup) :
    WellFormed (messageData (fcmPayload r)) ↔
      ∀ member ∈ r.event.payload, ∀ v ∈ member.2, isText v = true := by
  have fresh : ((r.payload ++ identity r).map Prod.fst).Nodup := by
    rw [List.map_append]
    exact distinct.sublist ((keys_payload r).append (List.Sublist.refl _))
  have own : (r.payload.map Prod.fst).Nodup :=
    fresh.sublist (by rw [List.map_append]; exact List.sublist_append_left _ _)
  have data : (fcmPayload r).data = r.payload ++ identity r := by
    have read : spread [] r.payload = r.payload := spread_append own
    unfold fcmPayload
    rw [read, spread_append fresh]
  have absent : ∀ key, key ∉ (fcmPayload r).data.map Prod.fst → key ∉ r.payload.map Prod.fst := by
    intro key hidden present
    rw [data, List.map_append] at hidden
    exact hidden (List.mem_append_left _ present)
  have keys : ((fcmPayload r).data.map Prod.fst).Nodup := by rw [data]; exact fresh
  rw [messageData_wellFormed keys (fun hidden => isText_memberOr _ (absent _ hidden))
    (fun hidden => isText_memberOr _ (absent _ hidden)), data, List.forall_mem_append,
    stored_textual]
  exact and_iff_left (isText_identity r)

/-! ### The events of the program -/

theorem Notice.distinct (notice : Notice) (id createdAt : Text) :
    (notice.event.payload.map Prod.fst ++
      (identity ⟨id, createdAt, notice.event⟩).map Prod.fst).Nodup := by
  -- the keys are the same whatever the values are
  cases notice <;>
    simp only [Notice.event, identity, List.map_cons, List.map_nil, List.cons_append,
      List.nil_append] <;>
    decide +kernel

/-- The producer has strings only: its event has no number, and no column that it copies is
null. -/
def Notice.textual : Notice → Prop
  | .incomingJob .. => False
  | .bookingConfirmed _ _ _ _ _ skillType _ => skillType ≠ none
  | .bookingCompleted _ _ _ rating => rating = none
  | .bookingCancelled .. => True
  | .paymentConfirmed .. => False
  | .paymentReceived .. => False
  | .paymentFailed .. => True
  | .refundReported _ _ _ _ refundAmount _ _ => refundAmount = none
  | .refundCompleted .. => False

/-- The provider can accept the message of an event if and only if its producer has strings
only. -/
theorem push_wellFormed_iff (notice : Notice) (id createdAt : Text) :
    WellFormed (messageData (fcmPayload ⟨id, createdAt, notice.event⟩)) ↔ notice.textual := by
  rw [wellFormed_iff_textual _ (notice.distinct id createdAt)]
  cases notice with
  | incomingJob => simp [Notice.event, Notice.textual, isText, text, number]
  | bookingConfirmed _ _ _ _ _ skillType =>
    cases skillType <;> simp [Notice.event, Notice.textual, isText, text, column]
  | bookingCompleted _ _ _ rating =>
    cases rating <;> simp [Notice.event, Notice.textual, isText, text]
  | bookingCancelled => simp [Notice.event, Notice.textual, isText, text]
  | paymentConfirmed _ _ _ amount =>
    cases amount <;> simp [Notice.event, Notice.textual, isText, text, number, column]
  | paymentReceived _ _ _ amount =>
    cases amount <;> simp [Notice.event, Notice.textual, isText, text, number, column]
  | paymentFailed => simp [Notice.event, Notice.textual, isText, text]
  | refundReported _ _ _ refundId refundAmount =>
    cases refundId <;> cases refundAmount <;>
      simp [Notice.event, Notice.textual, isText, text, number]
  | refundCompleted => simp [Notice.event, Notice.textual, isText, text, number]

/-- A first wave for a plumber. -/
def plumberWave : Notice :=
  .incomingJob (lit "job") (lit "requirement") (lit "worker") 1 (some (lit "Plumber")) (some 800)
    (some (lit "Pune")) (some (lit "Asha")) (lit "2026-01-01T10:01:00.000Z") none

/-- The number of the wave reaches the provider as a number. -/
theorem waveNumber_sent :
    ¬ ∀ (notice : Notice) (id createdAt : Text),
      WellFormed (messageData (fcmPayload ⟨id, createdAt, notice.event⟩)) := by
  intro every
  have sent := every plumberWave (lit "event") (lit "2026-01-01T10:00:00.000Z")
  have number : (messageData (fcmPayload ⟨lit "event", lit "2026-01-01T10:00:00.000Z",
      plumberWave.event⟩)).any (fun member => !isText member.2) = true := by decide +kernel
  obtain ⟨member, inside, other⟩ := List.any_eq_true.mp number
  simp [sent member inside] at other

end LabourBaba.Push
