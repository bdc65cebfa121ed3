import LabourBaba.Payments.Footprints
import LabourBaba.Payments.Captures
import LabourBaba.Store.Alone

/-!
# Completed payments

Two services move a payment to COMPLETED. The delivery of the captured payment stores the
provider's payment id with it and writes the notices to both parties of the booking in the
same transaction; the reconciliation of stale payments sets the status alone, and a refund of
such a payment fails for the missing id. `announcing` follows what the notices rest on: a
booking keeps its parties, and the booking of a stored payment is stored.
-/
namespace LabourBaba.Payments

open Store
open Market (Id Text Role AuthenticatedUser)

/-! ### Bookings and their parties -/

/-- The customer and the worker of every booking. -/
abbrev Parties := Id → Id × Id

def Booking.parties (b : Booking) : Id × Id := (b.customerId, b.workerId)

/-- Stored bookings have their parties, and the booking of a stored payment is stored. -/
structure Booked (parties : Parties) (d : Db) : Prop where
  parties : ∀ b ∈ d.bookings, b.parties = parties b.id
  stored : ∀ p ∈ d.payments, (d.booking p.bookingId).isSome = true

/-- A payment is added for a stored booking, and a booking is stored with its parties. -/
def Write.fits (parties : Parties) (d : Db) : Write → Prop
  | .insertPayment p => (d.booking p.bookingId).isSome = true
  | .putBooking b => b.parties = parties b.id
  | _ => True

theorem booking_apply (w : Write) {d : Db} {id : Id} (stored : (d.booking id).isSome = true) :
    ((w.apply d).booking id).isSome = true := by
  cases w with
  | putBooking b =>
    obtain ⟨old, found⟩ := Option.isSome_iff_exists.mp stored
    by_cases same : b.id = id
    · simp [Db.booking, Write.apply, Table.find_cons, same]
    · have kept : old ∈ d.bookings.filter fun old => decide (old.id ≠ b.id) := by
        refine List.mem_filter.mpr ⟨Table.mem_of_find found, decide_eq_true ?_⟩
        rw [show old.id = id from Table.find_key found]
        exact fun clash => same clash.symm
      obtain ⟨new, found'⟩ : ∃ new, Table.find Booking.id _ old.id = some new :=
        Table.find_isSome_of_mem kept
      rw [show old.id = id from Table.find_key found] at found'
      simp only [Db.booking, Write.apply, Table.find_cons, if_neg same]
      exact Option.isSome_iff_exists.mpr ⟨new, found'⟩
  | _ => exact stored

theorem booking_applyAll (ws : List Write) {d : Db} {id : Id}
    (stored : (d.booking id).isSome = true) : ((applyAll ws d).booking id).isSome = true := by
  induction ws generalizing d with
  | nil => exact stored
  | cons w ws ih => exact ih (booking_apply w stored)

theorem Booked.apply {parties : Parties} {d : Db} {w : Write} (booked : Booked parties d)
    (fits : w.fits parties d) : Booked parties (w.apply d) := by
  cases w with
  | insertPayment p =>
    refine ⟨booked.parties, fun q member => ?_⟩
    rcases Table.mem_insert member with old | rfl
    · exact booked.stored q old
    · exact fits
  | updatePayment id data =>
    refine ⟨booked.parties, fun q member => ?_⟩
    obtain ⟨old, stored, rfl⟩ := Table.mem_modify.mp member
    split <;> exact booked.stored old stored
  | putBooking b =>
    refine ⟨fun c member => ?_, fun p member => ?_⟩
    · rcases List.mem_cons.mp member with rfl | old
      · exact fits
      · exact booked.parties c (List.mem_filter.mp old).1
    · exact booking_apply (.putBooking b) (booked.stored p member)
  | _ => exact ⟨booked.parties, booked.stored⟩

theorem Write.fits.apply {parties : Parties} {d : Db} {w v : Write} (fits : w.fits parties d) :
    w.fits parties (v.apply d) := by
  cases w with
  | insertPayment p => exact booking_apply v fits
  | _ => exact fits

theorem Booked.applyAll {parties : Parties} {ws : List Write} {d : Db} (booked : Booked parties d)
    (fits : ∀ w ∈ ws, w.fits parties d) : Booked parties (applyAll ws d) := by
  induction ws generalizing d with
  | nil => exact booked
  | cons w ws ih =>
    refine ih (booked.apply (fits w List.mem_cons_self)) fun v member => ?_
    exact (fits v (List.mem_cons_of_mem _ member)).apply

theorem fits_of_amends {parties : Parties} {d : Db} {w : Write} (amends : w.amends = true) :
    w.fits parties d := by
  cases w with
  | insertPayment | putBooking => cases amends
  | _ => trivial

theorem outbox_applyAll (ws : List Write) {d : Db} {e : OutboxEvent} (stored : e ∈ d.outbox) :
    e ∈ (applyAll ws d).outbox := by
  induction ws generalizing d with
  | nil => exact stored
  | cons w ws ih =>
    refine ih ?_
    cases w with
    | outbox new => exact Table.mem_insert_of_mem stored
    | _ => exact stored

theorem outbox_of_mem {ws : List Write} {e : OutboxEvent} (member : .outbox e ∈ ws) (d : Db) :
    e ∈ (applyAll ws d).outbox := by
  obtain ⟨before, after, rfl⟩ := List.append_of_mem member
  rw [applyAll_append, applyAll_cons]
  refine outbox_applyAll after ?_
  simp only [write_eq_apply, Write.apply, Table.insert]
  split
  next clash =>
    obtain ⟨old, stored, same⟩ := List.any_eq_true.mp clash
    exact of_decide_eq_true same ▸ stored
  next => simp

/-! ### The notices of a completion -/

/-- The PAYMENT_COMPLETED event of the payment for one party is in the outbox. -/
def Notified (d : Db) (paymentId : Id) (recipientType : Role) (recipientId : Id) : Prop :=
  { eventType := .PAYMENT_COMPLETED, paymentId, recipientType, recipientId } ∈ d.outbox

def BothNotified (d : Db) (paymentId : Id) (parties : Id × Id) : Prop :=
  Notified d paymentId .CUSTOMER parties.1 ∧ Notified d paymentId .WORKER parties.2

/-- A delivery that has moved a payment has notified both parties of its booking. -/
def Announced (parties : Parties) (ℓ : Label) (d : Db) : Prop :=
  ∀ orderId captureId id, ℓ = .captured orderId captureId (.moved id) →
    ∃ row ∈ d.payments, row.id = id ∧ BothNotified d id (parties row.bookingId)

structure Announces (parties : Parties) (ℓ : Label) (d d' : Db) : Prop where
  later : Later d d'
  outbox : ∀ e ∈ d.outbox, e ∈ d'.outbox
  bookings : ∀ id, (d.booking id).isSome = true → (d'.booking id).isSome = true
  booked : Booked parties d'
  announced : Announced parties ℓ d'

/-- The protocol of the calls, while bookings keep their parties. -/
def announcing (parties : Parties) : Protocol Label Db where
  inv := Booked parties
  pre _ _ := True
  guar _ ℓ d d' := Announces parties ℓ d d'
  evo _ d d' := Later d d' ∧ ∀ id, (d.booking id).isSome = true → (d'.booking id).isSome = true
  evo_refl _ d := ⟨.refl d, fun _ stored => stored⟩
  evo_trans _ _ _ _ first second :=
    ⟨first.1.trans second.1, fun id stored => second.2 id (first.2 id stored)⟩
  guar_inv _ _ _ _ _ step := step.booked
  guar_evo _ _ _ _ _ _ _ step := ⟨step.later, step.bookings⟩

instance (parties : Parties) : (announcing parties).Lax := ⟨fun _ _ _ => trivial⟩

section Calls

variable {parties : Parties} {me : Nat} {d : Db}

theorem does_of_fits {ws : List Write} (ℓ : Label) (booked : Booked parties d)
    (fits : ∀ w ∈ ws, w.fits parties d) (announced : Announced parties ℓ (applyAll ws d)) :
    (announcing parties).Does me ℓ d (applyAll ws d) :=
  Or.inr ⟨.applyAll ws d, fun _ => outbox_applyAll ws, fun _ => booking_applyAll ws,
    booked.applyAll fits, announced⟩

theorem announced_of_silent {ℓ : Label} (silent : ℓ.silent = true) (d : Db) :
    Announced parties ℓ d := by
  rintro orderId captureId id rfl
  cases silent

/-- A call that reports no captured payment, and adds neither payments nor bookings. -/
theorem amends_safe {α : Type} {c : Service α} (amends : Amends c) :
    Call.Safe (announcing parties) me c := by
  refine amends.safe fun ℓ d ws amending booked _ written => ?_
  exact does_of_fits ℓ booked (fun w member => fits_of_amends (written w member))
    (announced_of_silent (silent_of_amends amending) _)

/-- An order is created for a booking that has been read. -/
theorem createOrder_safe (cfg : Config) (bookingId customerId newId : Id) (answer : OrdersCreate) :
    Call.Safe (announcing parties) me (createOrder cfg bookingId customerId newId answer) := by
  have kept : ∀ i ℓ d d', (announcing parties).inv d → (announcing parties).guar i ℓ d d' →
      (d.booking bookingId).isSome = true → (d'.booking bookingId).isSome = true :=
    fun _ _ _ _ _ step => step.bookings bookingId
  have stable : ∀ d d', (announcing parties).evo me d d' → (d.booking bookingId).isSome = true →
      (d'.booking bookingId).isSome = true := fun _ _ evo => evo.2 bookingId
  have ordered : ∀ amountPaise d, (d.booking bookingId).isSome = true →
      Call.wp (announcing parties) me (fun _ tx _ => tx = none)
        (orderFor cfg bookingId newId amountPaise answer) none d := by
    intro amountPaise d stored
    have safe : Call.Safe ((announcing parties).within _ kept) me
        (orderFor cfg bookingId newId amountPaise answer) := by
      refine (orderFor_intends cfg newId amountPaise answer).safe ?_
      rintro ℓ d ws silent ⟨booked, stored⟩ _ written
      show (announcing parties).Does me ℓ d (applyAll ws d)
      refine does_of_fits ℓ booked (fun w member => ?_) (announced_of_silent silent _)
      rcases written w member with amends | ⟨p, rfl, mine⟩
      · exact fits_of_amends amends
      · exact (mine ▸ stored : (d.booking p.bookingId).isSome = true)
    exact wp_of_within stable _ _ _ stored (safe d)
  intro d
  rw [createOrder, Call.wp_bind, query, Call.wp_read]
  intro d₁ _ _
  rw [Call.andThen_ok]
  split
  · exact rfl
  next booking found =>
    split
    · split
      · exact rfl
      · split
        · exact rfl
        · refine ordered _ d₁ ?_
          cases stored : d₁.booking bookingId with
          | none => simp [stored] at found
          | some b => rfl
    · exact rfl

/-! ### Deliveries of a captured payment -/

/-- Where the transaction is to arrive: its writes notify both parties if it moves the payment. -/
abbrev Settles (parties : Parties) (me : Nat) (orderId captureId : Id) :
    Except Failure (Applied × String) → Option PaymentTx → Db → Prop :=
  Call.inTx fun r t d => ∀ d', (announcing parties).Rely me t.locks d d' → True →
    (announcing parties).Does me (.captured orderId captureId r.1) d' (applyAll t.writes d')

/-- The transaction has only claimed its event and amended what is stored. -/
def Begun (t : PaymentTx) : Prop := ∀ w ∈ t.writes, (∃ e, w = .insertEvent e) ∨ w.amends = true

theorem Begun.fits {t : PaymentTx} (begun : Begun t) : ∀ w ∈ t.writes, w.fits parties d := by
  intro w member
  rcases begun w member with ⟨e, rfl⟩ | amends
  · trivial
  · exact fits_of_amends amends

theorem Begun.grows {t t' : PaymentTx} {ws : List Write} (begun : Begun t)
    (grows : Tx.Grows t t' ws) (amends : ∀ w ∈ ws, w.amends = true) : Begun t' := by
  intro w member
  rw [grows.writes] at member
  rcases List.mem_append.mp member with old | new
  · exact begun w old
  · exact Or.inr (amends w new)

/-- The rest of a delivery that does not move the payment. -/
theorem quiet_settles {orderId captureId : Id} {t : PaymentTx} {c : Service (Applied × String)}
    (begun : Begun t) (booked : Booked parties d) (amends : AmendsInTx c)
    (quiet : Call.Gives (fun r => ∀ id, r.1 ≠ .moved id) c) :
    Call.wp (announcing parties) me (Settles parties me orderId captureId) c (some t) d := by
  have plain : Call.wp (announcing parties) me (fun _ tx' _ => ∃ t' ws, tx' = some t' ∧
      Tx.Grows t t' ws ∧ ∀ w ∈ ws, w.amends = true) c (some t) d :=
    wp_of_plain amends booked fun _ _ t' ws _ grows written => ⟨t', ws, rfl, grows, written⟩
  refine wp_mono ?_ _ _ _ (wp_of_gives quiet plain)
  rintro (failure | r) _ d₁ ⟨⟨t', ws, rfl, grows, written⟩, kept⟩
  · trivial
  · intro d₂ rely _
    refine does_of_fits _ rely.inv (begun.grows grows written).fits ?_
    rintro order capture id same
    injection same with _ _ moved
    exact absurd moved (kept r rfl id)

/-- The notices to the parties of a stored booking. -/
theorem mem_notices {eventType : OutboxEventType} {paymentId : Id} {b : Booking} :
    { eventType, paymentId, recipientType := .CUSTOMER, recipientId := b.customerId } ∈
        notices eventType paymentId true (some b) ∧
      { eventType, paymentId, recipientType := .WORKER, recipientId := b.workerId } ∈
        notices eventType paymentId true (some b) := by
  simp [notices]

theorem begun_bookings {t : PaymentTx} (begun : Begun t) (d : Db) :
    (applyAll t.writes d).bookings = d.bookings := by
  have plain : ∀ (ws : List Write) (d : Db),
      (∀ w ∈ ws, (∃ e, w = .insertEvent e) ∨ w.amends = true) →
      (applyAll ws d).bookings = d.bookings := by
    intro ws
    induction ws with
    | nil => exact fun _ _ => rfl
    | cons w ws ih =>
      intro d begun
      have first : (w.apply d).bookings = d.bookings := by
        rcases begun w List.mem_cons_self with ⟨e, rfl⟩ | amends
        · rfl
        · cases w with
          | putBooking b => cases amends
          | _ => rfl
      exact (ih _ fun v member => begun v (List.mem_cons_of_mem _ member)).trans first
  exact plain t.writes d begun

/-- Steps 5 to 7: the notices go to the booking of the payment that was found. -/
theorem completePayment_settles {orderId captureId : Id} {eventId : EventId} {t : PaymentTx}
    {p : Payment} (begun : Begun t) (booked : Booked parties d) (member : p ∈ d.payments) :
    Call.wp (announcing parties) me (Settles parties me orderId captureId)
      (completePayment eventId p captureId) (some t) d := by
  have stored := booked.stored p member
  rw [completePayment, Call.wp_bind]
  refine wp_of_plain (transitionPaymentStatus_amends _ _ _ _) booked ?_
  rintro (failure | transitioned) d₁ t₁ ws₁ rely₁ grows₁ written₁
  · trivial
  rw [Call.andThen_ok]
  have begun₁ := begun.grows grows₁ written₁
  cases transitioned with
  | false =>
    refine quiet_settles begun₁ rely₁.inv ?_ ?_
    · exact ((finishEvent_follows _ _ _).bind fun _ => .pure _).1
    · exact .bind (.any _) fun _ _ => .pure (by simp)
  | true =>
    rw [if_pos rfl, Call.wp_bind, notify, Call.wp_bind, query, Call.wp_read]
    intro d₂ rely₂ _
    rw [Call.andThen_ok, step]
    -- the booking of the payment is stored, with its parties
    have rely := grows₁.rely rely₁ rely₂
    obtain ⟨b, found⟩ := Option.isSome_iff_exists.mp (rely.evo.2 _ stored)
    have view : (applyAll t₁.writes d₂).booking p.bookingId = some b := by
      rw [Db.booking, begun_bookings begun₁]
      exact found
    have named : b.id = p.bookingId := Table.find_key found
    have known : b.parties = parties p.bookingId :=
      named ▸ rely.inv.parties b (Table.mem_of_find found)
    rw [Tx.view_some, view]
    refine Call.stmt_inTx ?_ (by rintro _ _ _ _ ⟨⟩)
    rintro d₃ t₃ ws₃ _ rely₃ _ ⟨⟩ grows₃ _
    rw [Call.andThen_ok]
    have noticed : ∀ w ∈ (notices .PAYMENT_COMPLETED p.id true (some b)).map Write.outbox,
        w.amends = true := by simp [notices, Write.amends]
    have begun₃ := begun₁.grows grows₃ noticed
    have ending : AmendsInTx (do
        finishEvent eventId .PROCESSED none
        pure (Applied.moved p.id, "Payment captured")) :=
      ((finishEvent_follows _ _ _).bind fun _ => .pure _).1
    have plain : Call.wp (announcing parties) me (fun _ tx' d' => ∃ t' ws, tx' = some t' ∧
        (announcing parties).Rely me t₃.locks d₃ d' ∧ Tx.Grows t₃ t' ws ∧
          ∀ w ∈ ws, w.amends = true) _ (some t₃) d₃ :=
      wp_of_plain ending rely₃.inv fun _ _ t' ws rely grows written =>
        ⟨t', ws, rfl, rely, grows, written⟩
    have moves : Call.Gives (fun r : Applied × String => r.1 = .moved p.id) (do
        finishEvent eventId .PROCESSED none
        pure (Applied.moved p.id, "Payment captured")) := .bind (.any _) fun _ _ => .pure rfl
    refine wp_mono ?_ _ _ _ (wp_of_gives moves plain)
    rintro (failure | r) _ d₄ ⟨⟨t₄, ws₄, rfl, rely₄, grows₄, written₄⟩, moved⟩
    · trivial
    intro d₅ rely₅ _
    refine does_of_fits _ rely₅.inv (begun₃.grows grows₄ written₄).fits ?_
    rintro order capture id same
    injection same with _ _ same
    obtain rfl : p.id = id := Applied.moved.inj ((moved r rfl).symm.trans same)
    have later := rely.evo.1.trans (rely₃.evo.1.trans (rely₄.evo.1.trans
      (rely₅.evo.1.trans (.applyAll t₄.writes d₅))))
    obtain ⟨row, member', core⟩ := later.payments.mem member
    obtain ⟨sameId, sameBooking⟩ : row.id = p.id ∧ row.bookingId = p.bookingId := by
      simpa [Payment.core] using core
    have written : ∀ e ∈ notices .PAYMENT_COMPLETED p.id true (some b), .outbox e ∈ t₄.writes := by
      intro e noticed
      rw [grows₄.writes, grows₃.writes]
      exact List.mem_append_left _ (List.mem_append_right _ (List.mem_map_of_mem noticed))
    refine ⟨row, member', sameId, ?_⟩
    rw [sameBooking, ← known]
    exact ⟨outbox_of_mem (written _ mem_notices.1) d₅, outbox_of_mem (written _ mem_notices.2) d₅⟩

theorem processPaymentCaptured_safe (eventId : EventId) (eventType : Text)
    (orderId razorpayPaymentId : Option Id) (amount : Option Int) (currency : Option Text) :
    Call.Safe (announcing parties) me (processPaymentCaptured eventId eventType orderId
      razorpayPaymentId amount currency) := by
  simp only [processPaymentCaptured]
  split
  next orderId captureId =>
    refine Call.Safe.bind (.attempt (.transaction fun d => ?_)) fun result => ?_
    · show Call.wp (announcing parties) me (Settles parties me orderId captureId) _ (some {}) d
      rw [processPaymentCapturedTx, Call.wp_bind, claimEvent, step]
      refine Call.stmt_inTx ?_ fun _ _ _ _ _ => trivial
      intro d₁ t ws _ rely₁ _ result grows _
      have claimed : t.writes = [.insertEvent { id := eventId, eventType }] := by
        simp only [newEvent] at result
        split at result <;> cases result
        exact grows.writes
      -- nothing but the event has been written when the payment is looked up
      have begun : Begun t := by simp [Begun, claimed]
      rw [Call.andThen_ok, Call.wp_bind, query, Call.wp_read]
      intro d₂ rely₂ _
      rw [Call.andThen_ok]
      cases found : (Tx.view (some t) d₂).paymentOfOrder orderId with
      | none =>
        refine quiet_settles begun rely₂.inv ?_ ?_
        · exact ((finishEvent_follows _ _ _).bind fun _ => .pure _).1
        · exact .bind (.any _) fun _ _ => .pure (by simp)
      | some p =>
        dsimp only
        split
        · exact quiet_settles begun rely₂.inv (quarantine_follows _ _ _ _ _).1
            (.bind (.any _) fun _ _ => .bind (.any _) fun _ _ => .pure (by simp))
        split
        · exact quiet_settles begun rely₂.inv (quarantine_follows _ _ _ _ _).1
            (.bind (.any _) fun _ _ => .bind (.any _) fun _ _ => .pure (by simp))
        · rw [Tx.view_some, claimed] at found
          exact completePayment_settles begun rely₂.inv (Table.mem_of_find found)
    · split
      · exact .pure _
      · exact .pure _
      · exact .throw _
  next => exact .pure _

/-- A delivery that reports no captured payment. -/
theorem acknowledge_safe {eventId : EventId} {eventType : Text} {duplicate : String}
    {label : Applied → Label} {tx : Service (Applied × String)}
    (silent : ∀ r, (label r).silent = true) (claims : ClaimsFirst eventId eventType tx) :
    Call.Safe (announcing parties) me (acknowledge duplicate label tx) := by
  obtain ⟨rest, rfl, ⟨amends, -⟩, -⟩ := claims
  refine Call.Safe.bind (.attempt (.transaction fun d => ?_)) fun result => ?_
  · rw [Call.wp_bind, claimEvent, step]
    refine Call.stmt_inTx ?_ fun _ _ _ _ _ => trivial
    intro d₁ t ws _ rely₁ _ result grows _
    have claimed : t.writes = [.insertEvent { id := eventId, eventType }] := by
      simp only [newEvent] at result
      split at result <;> cases result
      exact grows.writes
    have begun : Begun t := by simp [Begun, claimed]
    rw [Call.andThen_ok]
    refine wp_of_plain amends rely₁.inv ?_
    rintro (failure | r) d₂ t' ws' rely₂ grows' written
    · trivial
    · intro d₃ rely₃ _
      exact does_of_fits _ rely₃.inv (begun.grows grows' written).fits
        (announced_of_silent (silent r.1) _)
  · split
    · exact .pure _
    · exact .pure _
    · exact .throw _

theorem handleWebhook_safe (body : WebhookBody) :
    Call.Safe (announcing parties) me (handleWebhook body) := by
  simp only [handleWebhook]
  split
  · exact .pure _
  split
  · exact processPaymentCaptured_safe _ _ _ _ _ _
  split
  · simp only [processPaymentFailed]
    split
    · exact acknowledge_safe (fun _ => rfl) (processPaymentFailedTx_claimsFirst _ _ _)
    · exact .pure _
  split
  · simp only [processRefundProcessed]
    split
    · exact acknowledge_safe (fun _ => rfl) (processRefundProcessedTx_claimsFirst _ _ _ _ _)
    · exact .pure _
  · exact .pure _

end Calls

/-- The bookings that the marketplace stores have their parties. -/
theorem announcing_verified (cfg : Config) {parties : Parties} {ops : Nat → Option Op}
    (fixed : ∀ i b, ops i = some (.putBooking b) → b.parties = parties b.id) :
    Pool.VerifiedAs (announcing parties) (fun _ _ _ _ => True) (system cfg) ops := by
  intro me op mine d
  have safe : Call.Safe (announcing parties) me (serviceOf cfg me op) := by
    cases op with
    | handleWebhook body => exact (handleWebhook_safe body).bind fun _ => .pure _
    | createOrder bookingId customerId newId answer =>
      exact (createOrder_safe cfg bookingId customerId newId answer).bind fun _ => .pure _
    | refundPayment bookingId actor amount reason =>
      exact (amends_safe (refundPayment_amends cfg me bookingId actor amount reason)).bind
        fun _ => .pure _
    | reconcileStalePayments olderThanMinutes =>
      exact (amends_safe (reconcileStalePayments_amends cfg olderThanMinutes)).bind fun _ => .pure _
    | putBooking booking =>
      refine .send fun d booked _ => does_of_fits _ booked ?_ (announced_of_silent rfl _)
      intro w member
      obtain rfl := List.mem_singleton.mp member
      exact fixed me booking mine
    | moveOrder | takePayment | acceptRefund | rejectRefund => exact amends_safe (outside_amends _ rfl)
    | tick =>
      have ticks : Amends (serviceOf cfg me .tick) := .send rfl fun _ => by simp [Write.amends]
      exact amends_safe ticks
  exact wp_mono (fun _ _ _ _ => trivial) _ _ _ (safe d)

/-! ### What every run keeps -/

/-- The row has the id of a payment that the provider took for an order of the booking, and both
parties of the booking have been notified. -/
structure Completed (d : Db) (row : Payment) : Prop where
  captured : ∃ captureId capture, row.razorpayPaymentId = some captureId ∧
    d.capture captureId = some capture ∧ d.placed capture.orderId row.bookingId
  notified : ∃ booking, d.booking row.bookingId = some booking ∧
    BothNotified d row.id booking.parties

/-- Deliveries report payments that the provider took for the order, and the reconciliation
completes no payment: it finds each that it is about to complete out of PENDING. -/
def webhookCompletes (ℓ : Label) (d : Db) : Bool :=
  match ℓ with
  | .captured orderId captureId _ => d.genuine orderId captureId
  | .reconciled id .COMPLETED => (d.payment id).all fun p => decide (p.status ≠ .PENDING)
  | _ => true

/-- The same with the parties given for each booking. -/
structure Whole (parties : Parties) (d : Db) (row : Payment) : Prop where
  captured : ∃ captureId capture, row.razorpayPaymentId = some captureId ∧
    d.capture captureId = some capture ∧ d.placed capture.orderId row.bookingId
  notified : BothNotified d row.id (parties row.bookingId)

section Steps

variable {parties : Parties} {i : Nat} {ℓ : Label} {d d' : Db} {row row' : Payment}

theorem Whole.later (whole : Whole parties d row) (announces : Announces parties ℓ d d')
    (core : row'.core = row.core) (same : row'.razorpayPaymentId = row.razorpayPaymentId) :
    Whole parties d' row' := by
  obtain ⟨captureId, capture, shows, found, placed⟩ := whole.captured
  obtain ⟨capture', found', ordered⟩ := announces.later.capture found
  obtain ⟨sameId, sameBooking⟩ : row'.id = row.id ∧ row'.bookingId = row.bookingId := by
    simpa [Payment.core] using core
  refine ⟨⟨captureId, capture', same.trans shows, found', ?_⟩, ?_⟩
  · rw [ordered, sameBooking]
    exact announces.later.orders _ _ placed
  · rw [sameId, sameBooking]
    exact ⟨announces.outbox _ whole.notified.1, announces.outbox _ whole.notified.2⟩

/-- A move that ends in COMPLETED: the report of a captured payment, a reconciliation, or one
that leaves the status and the payment id alone. -/
theorem Move.completes {data : PaymentData} (move : Move d ℓ row data)
    (completed : (row.update data).status = .COMPLETED) :
    (∃ orderId captureId, ℓ = .captured orderId captureId (.moved row.id) ∧
        d.placed orderId row.bookingId ∧
        (row.update data).razorpayPaymentId = some captureId) ∨
      (ℓ = .reconciled row.id .COMPLETED ∧ row.status = .PENDING) ∨
      row.status = .COMPLETED ∧ (row.update data).razorpayPaymentId = row.razorpayPaymentId := by
  cases move with
  | captured pending placed => exact Or.inl ⟨_, _, rfl, placed, rfl⟩
  | reconciled pending outcome =>
    obtain rfl : _ = PaymentStatus.COMPLETED := completed
    exact Or.inr (Or.inl ⟨rfl, pending⟩)
  | mismatched | enriched | quarantined => exact Or.inr (Or.inr ⟨completed, rfl⟩)
  | reclaimed | orderFailed | orderSaved | failed | refunded | refundReconciled => cases completed

/-- No other update of a payment ends in COMPLETED. -/
theorem not_completed {data : PaymentData} (kind : Claiming ℓ row data ∨ ∃ a, Recording a ℓ row data) :
    (row.update data).status ≠ .COMPLETED := by
  rcases kind with claiming | ⟨a, recording⟩
  · cases claiming <;> simp [Payment.update]
  · cases recording with
    | settled => simp [Payment.update]
    | failed outcome => rcases outcome with rfl | ⟨rfl, -⟩ <;> simp [Payment.update]

theorem Commit.keepsWhole {ws : List Write} (commit : Commit i d ℓ ws) (wf : Wf d)
    (cond : webhookCompletes ℓ d = true) (announces : Announces parties ℓ d (applyAll ws d))
    (whole : ∀ row ∈ d.payments, row.status = .COMPLETED → Whole parties d row) :
    ∀ row ∈ (applyAll ws d).payments, row.status = .COMPLETED →
      Whole parties (applyAll ws d) row := by
  intro row member completed
  have wf' := commit.keepsWf wf
  cases commit.payments with
  | same same => exact (whole row (same ▸ member) completed).later announces rfl rfl
  | inserted p pending unplaced fresh after =>
    rw [after] at member
    rcases List.mem_append.mp member with old | new
    · exact (whole row old completed).later announces rfl rfl
    · rw [List.mem_singleton.mp new, pending] at completed
      cases completed
  | updated p data found kind after =>
    have member' := member
    rw [after] at member'
    obtain ⟨old, stored, rfl⟩ := Table.mem_modify.mp member'
    by_cases hit : old.id ∈ [p.id]
    · obtain rfl := Table.eq_of_find wf.ids found stored (List.mem_singleton.mp hit)
      rw [if_pos hit] at completed member ⊢
      rcases kind with move | rest
      · rcases move.completes completed with ⟨orderId, captureId, rfl, placed, shows⟩ |
          ⟨rfl, pending⟩ | ⟨before, same⟩
        · -- the delivery: the provider's payment, and the notices of the same transaction
          simp only [webhookCompletes, Db.genuine, Bool.and_eq_true, Option.any_eq_true,
            decide_eq_true_eq] at cond
          obtain ⟨⟨capture, taken, rfl⟩, -⟩ := cond
          obtain ⟨capture', taken', ordered⟩ := announces.later.capture taken
          refine ⟨⟨captureId, capture', shows, taken', ?_⟩, ?_⟩
          · rw [ordered]
            exact announces.later.orders _ _ placed
          · obtain ⟨other, stored', named, notified⟩ := announces.announced _ _ _ rfl
            obtain rfl := Table.eq_of_find wf'.ids (Table.find_of_mem wf'.ids member) stored' named
            exact notified
        · -- the reconciliation, which the run rules out
          simp [webhookCompletes, found, pending] at cond
        · exact (whole old stored before).later announces rfl same
      · exact absurd completed (not_completed rest)
    · rw [if_neg hit] at completed ⊢
      exact (whole old stored completed).later announces rfl rfl

end Steps

/-! ### Refunds of a payment with its provider id -/

def missingCaptureRef : Failure :=
  .payment "Cannot refund: missing Razorpay payment capture reference." "REFUND_MISSING_CAPTURE_REF"
    422

/-- The payment of the booking has the provider's payment id. -/
def Identified (bookingId : Id) (d : Db) : Prop :=
  ∃ row ∈ d.payments, row.bookingId = bookingId ∧ row.razorpayPaymentId.isSome = true

theorem update_identified {ℓ : Label} {d : Db} {p : Payment} {data : PaymentData}
    (kind : Move d ℓ p data ∨ Claiming ℓ p data ∨ ∃ a, Recording a ℓ p data)
    (identified : p.razorpayPaymentId.isSome = true) :
    (p.update data).razorpayPaymentId.isSome = true := by
  rcases kind with move | claiming | ⟨a, recording⟩
  · cases move with
    | captured => rfl
    | _ => exact identified
  · cases claiming <;> exact identified
  · cases recording <;> exact identified

theorem identified_kept (bookingId : Id) (i : Nat) (ℓ : Label) (d d' : Db) (wf : Wf d)
    (guar : protocol.guar i ℓ d d') (identified : Identified bookingId d) :
    Identified bookingId d' := by
  obtain ⟨ws, rfl, commit⟩ := guar
  obtain ⟨row, member, booked, shows⟩ := identified
  cases commit.payments with
  | same same => exact ⟨row, same ▸ member, booked, shows⟩
  | inserted p pending unplaced fresh after =>
    exact ⟨row, after ▸ List.mem_append_left _ member, booked, shows⟩
  | updated p data found kind after =>
    refine ⟨if row.id ∈ [p.id] then row.update data else row, ?_, ?_, ?_⟩
    · rw [after]
      exact Table.mem_modify.mpr ⟨row, member, rfl⟩
    · split <;> exact booked
    · split
      next hit =>
        obtain rfl := Table.eq_of_find wf.ids found member (List.mem_singleton.mp hit)
        exact update_identified kind shows
      next => exact shows

/-- The protocol from the point on where the payment has the id. -/
abbrev identifying (bookingId : Id) : Protocol Label Db :=
  protocol.within (Identified bookingId) (identified_kept bookingId)

instance (bookingId : Id) : (identifying bookingId).Lax := ⟨fun _ _ _ => trivial⟩

section Refunds

variable {cfg : Config} {me : Nat} {d : Db}

theorem preflight_avoids (p : Payment) (attempt : RefundAttempt) (reason : Option String) :
    Call.Avoids missingCaptureRef (preflight cfg p attempt reason) := by
  refine .bind ?_ fun providerPayment => ?_
  · simp only [fetchPayment]
    split
    · exact .throw (by simp [notConfigured, missingCaptureRef])
    · refine .bind .choose fun reachable => .bind (.read _ _) fun payment => ?_
      (repeat' split) <;> first | exact .pure _ | exact .throw (by simp [missingCaptureRef])
  · split
    · refine .bind (.stmt fun d failed => ?_) fun _ => .pure _
      simp only [setPayment] at failed
      split at failed <;> cases failed
    · refine .bind (.stmt fun d failed => ?_) fun claimed => ?_
      · simp only [claimWhere] at failed
        (repeat' split at failed) <;> cases failed
      · cases claimed with
        | some n => exact .pure _
        | none => exact .throw (by simp [refundInProgress, missingCaptureRef])

theorem claimFor_avoids (p : Payment) (attempt : RefundAttempt) (reason : Option String) :
    Call.Avoids missingCaptureRef (claimFor cfg p attempt reason) := by
  simp only [claimFor]
  split
  · refine .attemptThen (preflight_avoids p attempt reason) fun r other => ?_
    split
    · exact .pure _
    next message code statusCode =>
      exact .throw fun same => other (congrArg Except.error same)
    · exact .throw (by simp [missingCaptureRef])
  · refine .bind (.stmt fun d failed => ?_) fun claimed => ?_
    · simp only [claimWhere] at failed
      (repeat' split at failed) <;> cases failed
    · cases claimed with
      | some n => exact .pure _
      | none =>
        refine .bind (.read _ _) fun current => ?_
        cases current with
        | none => exact .throw (by simp [missingCaptureRef])
        | some row =>
          dsimp only
          (repeat' split) <;>
            first
            | exact .pure _
            | exact .throw (by simp [refundInProgress, missingCaptureRef])

theorem refundFor_avoids {p : Payment} (identified : p.razorpayPaymentId.isSome = true)
    (customerId : Id) (amount : Option RequestedAmount) (reason : Option String) :
    Call.Avoids missingCaptureRef (refundFor cfg me p customerId amount reason) := by
  simp only [refundFor]
  split
  · exact .pure _
  split
  next missing => simp [missing] at identified
  refine .bind (claimFor_avoids p _ reason) fun claim => ?_
  split
  · exact .pure _
  · refine .bind (.attempt _) fun result => ?_
    cases result with
    | ok refund => exact .pure _
    | error err =>
      refine .bind (.stmt fun d failed => ?_) fun _ => .throw ?_
      · split at failed <;> cases failed
      · simp only [missingCaptureRef, ne_eq, Failure.payment.injEq, not_and]
        intro _ code
        split at code <;> simp at code

theorem wp_query {α : Type} {P : Protocol Label Db} {tx : Option PaymentTx}
    {Q : Except Failure α → Option PaymentTx → Db → Prop} (f : Db → α) :
    Call.wp P me Q (query f) tx d =
      ∀ d', P.Rely me (Tx.held tx) d d' → P.pre .step d' → Q (.ok (f (Tx.view tx d'))) tx d' :=
  Call.wp_read _ _

/-- A refund that starts after the payment has its id does not miss it. -/
theorem refundPayment_identified (bookingId : Id) (actor : AuthenticatedUser)
    (amount : Option RequestedAmount) (reason : Option String) :
    Call.wp (identifying bookingId) me (fun r _ _ => r ≠ .error missingCaptureRef)
      (refundPayment cfg me bookingId actor amount reason) none d := by
  rw [refundPayment]
  split
  · exact fun failed => by simp [missingCaptureRef] at failed
  rw [Call.wp_bind, wp_query]
  intro d₁ _ _
  rw [Call.andThen_ok]
  split
  · exact fun failed => by simp [missingCaptureRef] at failed
  next booking _ =>
  split
  next e refused =>
    simp only [canRefund] at refused
    (repeat' split at refused) <;> cases refused
    exact fun failed => by simp [missingCaptureRef] at failed
  rw [Call.wp_bind, wp_query]
  intro d₂ rely _
  rw [Call.andThen_ok]
  split
  · exact fun failed => by simp [missingCaptureRef] at failed
  next p found =>
    obtain ⟨wf, row, member, booked, shows⟩ := rely.inv
    obtain rfl := Table.eq_of_find wf.bookings found member booked
    have yields : YieldsFrom me d₂ (refundFor cfg me row booking.customerId amount reason)
        fun _ _ => True :=
      refundFor_yields cfg row _ amount reason d₂
    refine wp_mono ?_ _ _ _ (wp_of_gives (refundFor_avoids shows _ amount reason)
      (wp_within _ _ _ yields))
    exact fun _ _ _ holds => holds.2

end Refunds

/-! ### Every run -/

section Runs

variable {cfg : Config} {p q : PaymentPool}

/-- The marketplace stores a booking with the same customer and worker each time. -/
def PartiesKept (p : PaymentPool) : Prop :=
  ∀ th ∈ p.threads, ∀ th' ∈ p.threads, ∀ b b', th.op = .putBooking b → th'.op = .putBooking b' →
    b.id = b'.id → b.parties = b'.parties

theorem exists_parties (kept : PartiesKept p) :
    ∃ parties : Parties, ∀ i b, p.ops i = some (.putBooking b) → b.parties = parties b.id := by
  classical
  have parties : ∀ id, ∃ known : Id × Id, ∀ i b, p.ops i = some (.putBooking b) → b.id = id →
      b.parties = known := by
    intro id
    by_cases stored : ∃ i b, p.ops i = some (.putBooking b) ∧ b.id = id
    · obtain ⟨i, b, mine, named⟩ := stored
      refine ⟨b.parties, fun j b' other named' => ?_⟩
      obtain ⟨th, found, op⟩ := Option.map_eq_some_iff.mp mine
      obtain ⟨th', found', op'⟩ := Option.map_eq_some_iff.mp other
      exact kept th' (List.mem_of_getElem? found') th (List.mem_of_getElem? found) b' b op' op
        (named'.trans named.symm)
    · exact ⟨(0, 0), fun i b mine named => absurd ⟨i, b, mine, named⟩ stored⟩
  choose known same using parties
  exact ⟨known, fun i b mine => same b.id i b mine rfl⟩

theorem announcing_sound {cond : Label → Db → Prop} {parties : Parties} {ops : Nat → Option Op}
    (fixed : ∀ i b, ops i = some (.putBooking b) → b.parties = parties b.id)
    (run : Runs cfg cond p) (cast : Pool.Casts ops p) :
    Pool.Sound (announcing parties) (fun _ _ _ _ => True) p :=
  Pool.Reaches.soundAs (announcing_verified cfg fixed) (fun _ _ _ _ _ _ _ _ => trivial)
    (fun p e _ => .of_lax p e) (.empty ⟨by simp, by simp⟩) run cast

theorem whole_of_run {parties : Parties} {ops : Nat → Option Op}
    (fixed : ∀ i b, ops i = some (.putBooking b) → b.parties = parties b.id)
    (run : Runs cfg (fun ℓ d => webhookCompletes ℓ d = true) p) (cast : Pool.Casts ops p) :
    ∀ row ∈ p.db.payments, row.status = .COMPLETED → Whole parties p.db row := by
  induction run with
  | refl => exact fun row member => by cases member
  | @step p q e before allowed stepped ih =>
    have earlier := ih (cast.of_step stepped)
    have next := (announcing_sound fixed before (cast.of_step stepped)).stepAs
      (announcing_verified cfg fixed) cast (fun _ _ _ _ _ => trivial) (.of_lax p e) stepped
    -- the two protocols speak of the same statement
    rcases next.does with same | ⟨i, answer, ℓ, rfl, labelled, announces⟩
    · rwa [same]
    rcases commit_of_event (sound_of_runs before) stepped with same |
      ⟨j, answer', ℓ', ws, event, labelled', after, commit⟩
    · rwa [same]
    · obtain ⟨rfl, -⟩ : i = j ∧ answer = answer' := by simpa using event
      obtain rfl := Option.some.inj (labelled.symm.trans labelled')
      rw [after] at announces ⊢
      exact commit.keepsWhole (wf_of_runs before) (allowed i answer ℓ rfl labelled) announces earlier

/-- What the calls from number `n` on return, if they refund the booking. -/
def refundsFrom (n : Nat) (bookingId : Id) (i : Nat) (op : Op) (outcome : Outcome) (_ : Db) : Prop :=
  ∀ actor amount reason, n ≤ i → op = .refundPayment bookingId actor amount reason →
    outcome ≠ .error missingCaptureRef

theorem refundsFrom_verified (cfg : Config) (n : Nat) (bookingId : Id) :
    Pool.Verified (identifying bookingId) (refundsFrom n bookingId) (system cfg) := by
  intro me op d
  by_cases refund : ∃ actor amount reason, op = .refundPayment bookingId actor amount reason
  · obtain ⟨actor, amount, reason, rfl⟩ := refund
    show Call.wp (identifying bookingId) me _
      (replying .refund (refundPayment cfg me bookingId actor amount reason)) none d
    rw [replying, Call.wp_bind]
    refine Call.wp_mono ?_ (refundPayment_identified bookingId actor amount reason)
    rintro (e | response) tx d' other _ _ _ _ _ failed
    · exact other (congrArg Except.error (Except.error.inj failed))
    · cases failed
  · refine wp_mono (fun outcome _ d _ => ?_) _ _ _ (wp_within _ _ _ (verified cfg me op d))
    exact fun actor amount reason _ same => absurd ⟨actor, amount, reason, same⟩ refund

theorem refund_identified {cond : Label → Db → Prop} (run : Runs cfg cond p) {bookingId : Id}
    {actor : AuthenticatedUser} {amount : Option RequestedAmount} {reason : Option String}
    {th : PaymentThread} (identified : Identified bookingId p.db)
    (reached : Pool.Reaches (system cfg) (fun _ _ => True)
      (p.spawned (system cfg) (.refundPayment bookingId actor amount reason)) q)
    (found : q.threads[p.threads.length]? = some th) :
    th.prog.returned ≠ some (.error missingCaptureRef) := by
  intro returned
  have early : ∀ (i : Nat) (th : PaymentThread), p.threads[i]? = some th → ∀ a d,
      refundsFrom p.threads.length bookingId i th.op a d := by
    intro i th found a d _ _ _ late
    have below := (List.getElem?_eq_some_iff.mp found).1
    omega
  have sound : Pool.Sound (identifying bookingId) (refundsFrom p.threads.length bookingId) p :=
    (sound_of_runs run).within identified fun i th found a d _ => early i th found a d
  have further : Pool.Reaches (system cfg) (fun _ _ => True) p q :=
    Pool.Reaches.trans (.step (.spawn _) .refl trivial rfl) reached
  have returns := further.returnedAs ((refundsFrom_verified cfg _ bookingId).as q.ops)
    (fun _ _ _ _ _ _ _ _ => trivial) sound (fun _ _ _ _ _ _ _ _ holds _ => holds)
    (fun i th a found _ => early i th found a p.db) q.casts_ops
  obtain ⟨th', found', op⟩ := reached.op (Pool.getElem?_spawned (system cfg) p _)
  obtain rfl := Option.some.inj (found.symm.trans found')
  exact returns _ th _ found returned actor amount reason le_rfl op rfl

/-- In every run whose payments are completed by deliveries, a completed payment has the
provider's payment id and the notices to both parties, and a refund of it that is asked for from
then on does not fail for the missing id, whatever happens meanwhile. -/
theorem completed_payment_whole (cfg : Config) {p : PaymentPool} (kept : PartiesKept p)
    (run : Runs cfg (fun ℓ d => webhookCompletes ℓ d = true) p) :
    ∀ row ∈ p.db.payments, row.status = .COMPLETED → Completed p.db row ∧
      ∀ actor amount reason q th,
        Pool.Reaches (system cfg) (fun _ _ => True)
          (p.spawned (system cfg) (.refundPayment row.bookingId actor amount reason)) q →
        q.threads[p.threads.length]? = some th →
        th.prog.returned ≠ some (.error missingCaptureRef) := by
  intro row member completed
  obtain ⟨parties, fixed⟩ := exists_parties kept
  have whole := whole_of_run fixed run p.casts_ops row member completed
  have booked : Booked parties p.db := (announcing_sound fixed run p.casts_ops).inv
  refine ⟨⟨whole.captured, ?_⟩, ?_⟩
  · obtain ⟨b, found⟩ := Option.isSome_iff_exists.mp (booked.stored row member)
    have known := booked.parties b (Table.mem_of_find found)
    rw [show b.id = row.bookingId from Table.find_key found] at known
    exact ⟨b, found, known ▸ whole.notified⟩
  · intro actor amount reason q th reached found
    obtain ⟨captureId, capture, shows, -⟩ := whole.captured
    have identified : Identified row.bookingId p.db := ⟨row, member, rfl, by simp [shows]⟩
    exact refund_identified run identified reached found

end Runs

/-- Every booking that the calls store is the given one. -/
def storesOnly (b : Booking) (p : PaymentPool) : Bool :=
  p.threads.all fun th =>
    match th.op with
    | .putBooking b' => decide (b' = b)
    | _ => true

theorem partiesKept_of_one {b : Booking} {p : PaymentPool} (only : storesOnly b p = true) :
    PartiesKept p := by
  have same : ∀ th ∈ p.threads, ∀ b', th.op = .putBooking b' → b' = b := by
    intro th member b' op
    have one := List.all_eq_true.mp only th member
    simpa [op] using one
  intro th member th' member' b₁ b₂ op op' _
  rw [same th member b₁ op, same th' member' b₂ op']

def paidBooking : Booking :=
  { id := 1, customerId := 7, workerId := 10, status := .CONFIRMED, ratePerDay := some 5 }

private theorem paid_completed :
    storesOnly paidBooking (played (fun ℓ d => webhookCompletes ℓ d = true) paid) = true ∧
      ∃ row ∈ (played (fun ℓ d => webhookCompletes ℓ d = true) paid).db.payments,
        row.status = .COMPLETED := by
  decide +kernel

/-- The run of a paid booking is one of them. -/
theorem completed_payment_whole_paid :
    ∃ row ∈ (played (fun ℓ d => webhookCompletes ℓ d = true) paid).db.payments,
      row.status = .COMPLETED ∧
        Completed (played (fun ℓ d => webhookCompletes ℓ d = true) paid).db row := by
  obtain ⟨only, row, member, completed⟩ := paid_completed
  exact ⟨row, member, completed, (completed_payment_whole {} (partiesKept_of_one only)
    (runs_played _ paid) row member completed).1⟩

/-- The provider takes payment 9 and the order is paid, but its event does not arrive before the
reconciliation. -/
def reconciledFirst : List (Pool.Move Op) :=
  paid.take 6 ++
    [.event (.spawn (.moveOrder 0 .paid 1)), .drive 3 true, .event (.spawn .tick), .drive 4 true,
     .event (.spawn (.reconcileStalePayments 0)), .drive 5 true]

/-- The customer asks for a refund then. -/
def refusedRefund : PaymentPool :=
  Pool.drive (system {}) (fun _ _ => True) 6 true 60
    ((played (fun _ _ => True) reconciledFirst).spawned (system {})
      (.refundPayment 1 ⟨7, .CUSTOMER⟩ none none))

private theorem reconciled_row :
    storesOnly paidBooking (played (fun _ _ => True) reconciledFirst) = true ∧
      (played (fun _ _ => True) reconciledFirst).threads.length = 6 ∧
      ∃ row ∈ (played (fun _ _ => True) reconciledFirst).db.payments, row.status = .COMPLETED ∧
        row.razorpayPaymentId = none ∧
        (played (fun _ _ => True) reconciledFirst).db.outbox = [] := by
  decide +kernel

private theorem refund_refused :
    ∃ th, refusedRefund.threads[6]? = some th ∧
      th.prog.returned = some (.error missingCaptureRef) := by
  have failed : (refusedRefund.threads[6]?.any fun th =>
      decide (th.prog.returned = some (.error missingCaptureRef))) = true := by decide +kernel
  obtain ⟨th, found, returned⟩ := (Option.any_eq_true _ _).mp failed
  exact ⟨th, found, of_decide_eq_true returned⟩

/-- The reconciled payment is COMPLETED without the provider's payment id and without notices,
and its refund fails. -/
theorem reconciled_payment_incomplete :
    ∃ (p q : PaymentPool) (row : Payment) (th : PaymentThread), Reachable {} p ∧ PartiesKept p ∧
      row ∈ p.db.payments ∧ row.status = .COMPLETED ∧ ¬ Completed p.db row ∧ p.db.outbox = [] ∧
      Pool.Reaches (system {}) (fun _ _ => True)
        (p.spawned (system {}) (.refundPayment 1 ⟨7, .CUSTOMER⟩ none none)) q ∧
      q.threads[p.threads.length]? = some th ∧
      th.prog.returned = some (.error missingCaptureRef) := by
  obtain ⟨only, length, row, member, completed, missing, silent⟩ := reconciled_row
  obtain ⟨th, found, returned⟩ := refund_refused
  refine ⟨_, refusedRefund, row, th, runs_played _ reconciledFirst, partiesKept_of_one only, member,
    completed, fun whole => ?_, silent, .drive .refl _ _ _, length ▸ found, returned⟩
  obtain ⟨captureId, capture, shows, -⟩ := whole.captured
  rw [missing] at shows
  cases shows

end LabourBaba.Payments
