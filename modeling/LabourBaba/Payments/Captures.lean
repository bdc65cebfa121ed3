import LabourBaba.Payments.Conformance

/-!
# Captured payments

A delivery of a captured payment is consumed by the insertion of its event, whatever became
of the payment row. The row keeps the payment if it was PENDING under the order the payment
was made for, or if it is flagged for review. It does not if an earlier failure of the same
order, the reconciliation or a new order came first; and a late write of `createOrder` can
still reset a row that has kept the payment.
-/
namespace LabourBaba.Payments

open Store
open Market (Id)

/-- COMPLETED and the refund states. -/
def keptStatuses : List PaymentStatus :=
  [.COMPLETED, .REFUND_PENDING, .REFUND_UNKNOWN, .REFUND_FAILED, .REFUNDED]

/-- The row shows the captured payment, or is flagged for review. -/
def Payment.keeps (captureId : Id) (p : Payment) : Bool :=
  p.quarantineReason.isSome ||
    (decide (p.status ∈ keptStatuses) && decide (p.razorpayPaymentId = some captureId))

/-- The payment row of the booking keeps the captured payment. -/
def Db.keeps (d : Db) (bookingId captureId : Id) : Bool :=
  d.payments.any fun p => decide (p.bookingId = bookingId) && p.keeps captureId

/-- The provider took the payment for the order, which it holds. -/
def Db.genuine (d : Db) (orderId captureId : Id) : Bool :=
  (d.capture captureId).any (fun c => decide (c.orderId = orderId)) && (d.order orderId).isSome

/-- The row was PENDING under the order, or is flagged by this delivery. -/
def Applied.applied : Applied → Bool
  | .moved _ | .quarantined _ => true
  | _ => false

/-- The deliveries report payments that the provider has taken, and find a row that takes the
payment or has it; a late order id finds a row without a captured payment. -/
def findsOrder (ℓ : Label) (d : Db) : Bool :=
  match ℓ with
  | .captured orderId captureId result =>
    d.genuine orderId captureId &&
      (result.applied || (d.order orderId).any fun o => d.keeps o.bookingId captureId)
  | .orderSaved id _ =>
    (d.payment id).all fun p => p.quarantineReason.isSome || decide (p.status ∈ [.PENDING, .FAILED])
  | _ => true

theorem keeps_iff {d : Db} {bookingId captureId : Id} :
    d.keeps bookingId captureId = true ↔
      ∃ p ∈ d.payments, p.bookingId = bookingId ∧ p.keeps captureId = true := by
  simp [Db.keeps]

section Steps

variable {d : Db} {ℓ : Label} {i : Nat} {ws : List Write} {bookingId captureId : Id}

theorem flagged_or_settled {p : Payment} (keeps : p.keeps captureId = true) :
    p.quarantineReason.isSome = true ∨
      p.status ∈ keptStatuses ∧ p.razorpayPaymentId = some captureId := by
  simpa [Payment.keeps] using keeps

/-- A change that sets neither the capture nor the flag keeps a payment if it leaves the
status among the kept ones. -/
theorem keeps_update {p : Payment} {data : PaymentData} (keeps : p.keeps captureId = true)
    (flag : p.quarantineReason.isSome = true → (p.update data).quarantineReason.isSome = true)
    (settled : p.status ∈ keptStatuses → p.quarantineReason.isSome = true ∨
      (p.update data).status ∈ keptStatuses ∧
        (p.update data).razorpayPaymentId = p.razorpayPaymentId) :
    (p.update data).keeps captureId = true := by
  simp only [Payment.keeps, Bool.or_eq_true, Bool.and_eq_true, decide_eq_true_eq]
  rcases flagged_or_settled keeps with flagged | ⟨status, shows⟩
  · exact Or.inl (flag flagged)
  · rcases settled status with flagged | ⟨status', same⟩
    · exact Or.inl (flag flagged)
    · exact Or.inr ⟨status', same.trans shows⟩

theorem unpaid_notMem {status : PaymentStatus} (unpaid : status ∈ [.PENDING, .FAILED]) :
    status ∉ keptStatuses := by
  cases status <;> simp [keptStatuses] at unpaid ⊢

theorem Move.keeps {p : Payment} {data : PaymentData} (move : Move d ℓ p data)
    (found : d.payment p.id = some p) (finds : findsOrder ℓ d = true)
    (keeps : p.keeps captureId = true) : (p.update data).keeps captureId = true := by
  cases move with
  | reclaimed failed =>
    exact keeps_update keeps id fun status => absurd status (unpaid_notMem (by simp [failed]))
  | orderFailed | mismatched | quarantined => simp [Payment.keeps, Payment.update]
  | orderSaved =>
    refine keeps_update keeps id fun status => ?_
    simp only [findsOrder, found, Option.all_some, Bool.or_eq_true, decide_eq_true_eq] at finds
    exact finds.imp id fun unpaid => absurd status (unpaid_notMem unpaid)
  | captured pending | failed pending | reconciled pending =>
    exact keeps_update keeps id fun status => absurd status (unpaid_notMem (by simp [pending]))
  | enriched => exact keeps_update keeps id fun status => Or.inr ⟨status, rfl⟩
  | refunded | refundReconciled =>
    exact keeps_update keeps id fun _ => Or.inr ⟨by simp [Payment.update, keptStatuses], rfl⟩

/-- Every update keeps a payment that the row has. -/
theorem update_keeps {p : Payment} {data : PaymentData}
    (kind : Move d ℓ p data ∨ Claiming ℓ p data ∨ ∃ a, Recording a ℓ p data)
    (found : d.payment p.id = some p) (finds : findsOrder ℓ d = true)
    (keeps : p.keeps captureId = true) : (p.update data).keeps captureId = true := by
  rcases kind with move | claiming | ⟨a, recording⟩
  · exact move.keeps found finds keeps
  · refine keeps_update keeps ?_ fun _ => Or.inr ⟨?_, ?_⟩
    · cases claiming <;> exact id
    · cases claiming <;> simp [Payment.update, keptStatuses]
    · cases claiming <;> rfl
  · refine keeps_update keeps ?_ fun _ => Or.inr ⟨?_, ?_⟩
    · cases recording <;> exact id
    · cases recording with
      | settled => simp [Payment.update, keptStatuses]
      | failed outcome =>
        rcases outcome with rfl | ⟨rfl, -⟩ <;> simp [Payment.update, keptStatuses]
    · cases recording <;> rfl

theorem Commit.keepsCapture (commit : Commit i d ℓ ws) (wf : Wf d) (finds : findsOrder ℓ d = true)
    (keeps : d.keeps bookingId captureId = true) :
    (applyAll ws d).keeps bookingId captureId = true := by
  obtain ⟨row, member, booked, kept⟩ := keeps_iff.mp keeps
  refine keeps_iff.mpr ?_
  cases commit.payments with
  | same same => exact ⟨row, same ▸ member, booked, kept⟩
  | inserted p pending unplaced fresh after =>
    exact ⟨row, after ▸ List.mem_append_left _ member, booked, kept⟩
  | updated p data found kind after =>
    refine ⟨if row.id ∈ [p.id] then row.update data else row, ?_, ?_, ?_⟩
    · rw [after]
      exact Table.mem_modify.mpr ⟨row, member, rfl⟩
    · split <;> exact booked
    · split
      next named =>
        obtain rfl := Table.eq_of_find wf.ids found member (List.mem_singleton.mp named)
        exact update_keeps kind found finds kept
      next => exact kept

/-! ### Consumed deliveries -/

/-- An event is stored by the commit of its delivery only. -/
theorem event_applyAll {id : EventId} (ws : List Write) {d : Db}
    (stored : ((applyAll ws d).event id).isSome = true) :
    (d.event id).isSome = true ∨ ∃ e, .insertEvent e ∈ ws ∧ e.id = id := by
  induction ws generalizing d with
  | nil => exact Or.inl stored
  | cons w ws ih =>
    rw [applyAll_cons] at stored
    rcases ih stored with before | ⟨e, member, named⟩
    · by_cases inserts : ∃ e, w = .insertEvent e ∧ e.id = id
      · obtain ⟨e, rfl, named⟩ := inserts
        exact Or.inr ⟨e, List.mem_cons_self, named⟩
      · refine Or.inl ?_
        rw [write_eq_apply] at before
        cases w with
        | insertEvent e =>
          have other : e.id ≠ id := fun named => inserts ⟨e, rfl, named⟩
          rwa [Db.event, Write.apply, Table.find_insert_of_ne other] at before
        | updateEvent n status reason =>
          rwa [Db.event, Write.apply, Table.find_modify _ _ (WebhookEvent.finish status reason) _
            fun _ => rfl, Option.isSome_map] at before
        | _ => exact before
    · exact Or.inr ⟨e, List.mem_cons_of_mem _ member, named⟩

theorem Commit.claims (commit : Commit i d ℓ ws) : ℓ.Claims ws := by
  cases commit with
  | plain _ claims => exact claims
  | inserted | claimed | sent | accepted | rejected =>
    intro e y member
    simp at member
  | moved _ _ _ claims =>
    intro e y member
    refine claims e y ?_
    simpa using member
  | recorded _ _ _ _ _ _ _ claims =>
    intro e y member
    refine claims e y ?_
    simpa using member

theorem placed_unique {orderId bookingId' : Id} (placed : d.placed orderId bookingId)
    (placed' : d.placed orderId bookingId') : bookingId = bookingId' := by
  obtain ⟨order, found, rfl⟩ := placed
  obtain ⟨order', found', rfl⟩ := placed'
  rw [Option.some.inj (found.symm.trans found')]

/-- A delivery that changes the payment leaves the row of the order's booking keeping it. -/
theorem Commit.appliesCapture {orderId : Id} {result : Applied}
    (commit : Commit i d (.captured orderId captureId result) ws) (applied : result.applied = true)
    (placed : d.placed orderId bookingId) : (applyAll ws d).keeps bookingId captureId = true := by
  cases commit with
  | plain _ _ idle =>
    cases result with
    | moved | quarantined => exact idle.elim
    | unmatched | enriched | kept => cases applied
  | claimed _ claiming => cases claiming
  | recorded _ _ _ _ _ recording => cases recording
  | @moved _ p data before after found move still =>
    have updated : (p.update data).keeps captureId = true ∧ d.placed orderId p.bookingId := by
      cases move with
      | captured pending ordered =>
        exact ⟨by simp [Payment.keeps, Payment.update, keptStatuses], ordered⟩
      | mismatched ordered => exact ⟨by simp [Payment.keeps, Payment.update], ordered⟩
    refine keeps_iff.mpr ⟨p.update data, ?_, placed_unique updated.2 placed, updated.1⟩
    rw [(moved_applyAll still d).1]
    exact Table.mem_modify.mpr ⟨p, Table.mem_of_find found, by simp⟩

/-- Every consumed delivery is of a payment the provider took, and its booking keeps it. -/
def ConsumedKept (d : Db) : Prop :=
  ∀ captureId, (d.event (.payment captureId)).isSome = true →
    ∃ c bookingId, d.capture captureId = some c ∧ d.placed c.orderId bookingId ∧
      d.keeps bookingId captureId = true

theorem Commit.keepsConsumed (commit : Commit i d ℓ ws) (wf : Wf d) (finds : findsOrder ℓ d = true)
    (consumed : ConsumedKept d) : ConsumedKept (applyAll ws d) := by
  intro captureId stored
  have later := Later.applyAll ws d
  rcases event_applyAll ws stored with before | ⟨e, member, named⟩
  · obtain ⟨c, bookingId, found, placed, keeps⟩ := consumed captureId before
    obtain ⟨c', found', same⟩ := later.capture found
    exact ⟨c', bookingId, found', same ▸ later.orders _ _ placed,
      commit.keepsCapture wf finds keeps⟩
  · obtain ⟨orderId, result, rfl⟩ := commit.claims e captureId member named
    have cond := finds
    simp only [findsOrder, Db.genuine, Bool.and_eq_true, Bool.or_eq_true, Option.any_eq_true,
      decide_eq_true_eq] at cond
    obtain ⟨⟨⟨c, found, rfl⟩, exists'⟩, row⟩ := cond
    obtain ⟨order, stored'⟩ := Option.isSome_iff_exists.mp exists'
    have placed : d.placed c.orderId order.bookingId := ⟨order, stored', rfl⟩
    obtain ⟨c', found', same⟩ := later.capture found
    refine ⟨c', order.bookingId, found', same ▸ later.orders _ _ placed, ?_⟩
    rcases row with applied | ⟨order', stored'', keeps⟩
    · exact commit.appliesCapture applied placed
    · obtain rfl := Option.some.inj (stored'.symm.trans stored'')
      exact commit.keepsCapture wf finds keeps

end Steps

/-! ### Every run -/

/-- The call delivers the captured payment for the order. -/
def Op.delivers (op : Op) (orderId captureId : Id) : Bool :=
  match op with
  | .handleWebhook body =>
    decide (body.event = "payment.captured".toList ∧ body.razorpayOrderId = some orderId ∧
      body.razorpayPaymentId = some captureId)
  | _ => false

/-- The call has been answered with success. -/
def acknowledged (th : PaymentThread) : Bool :=
  match th.prog.returned with
  | some (.ok _) => true
  | _ => false

/-- A captured payment whose delivery has been acknowledged is kept by the row of the booking
that its order was created for. -/
def CapturesKept (p : PaymentPool) : Prop :=
  ∀ th ∈ p.threads, ∀ orderId captureId, th.op.delivers orderId captureId = true →
    acknowledged th = true → p.db.genuine orderId captureId = true →
      ∀ bookingId, p.db.placed orderId bookingId → p.db.keeps bookingId captureId = true

theorem promised_mono {op : Op} {outcome : Outcome} {d d' : Db} (later : Later d d')
    (promise : promised op outcome d) : promised op outcome d' := by
  simp only [promised] at promise ⊢
  split
  · intro orderId captureId captured ordered paid
    exact later.event (promise orderId captureId captured ordered paid)
  · trivial

/-- Acknowledged deliveries are consumed. -/
theorem stored_of_acknowledged {cfg : Config} {cond : Label → Db → Prop} {p : PaymentPool}
    (run : Runs cfg cond p) {th : PaymentThread} {orderId captureId : Id} (member : th ∈ p.threads)
    (delivers : th.op.delivers orderId captureId = true) (done : acknowledged th = true) :
    (p.db.event (.payment captureId)).isSome = true := by
  have promises : ∀ (i : Nat) (th : PaymentThread) outcome, p.threads[i]? = some th →
      th.prog.returned = some outcome → promised th.op outcome p.db := by
    refine Pool.Reaches.returned (verified cfg) (fun _ _ _ _ _ _ _ _ => trivial)
      (.empty Wf.empty) ?_ (by simp) run
    rintro i op outcome j ℓ d _ - promise ⟨ws, rfl, -⟩
    exact promised_mono (.applyAll ws d) promise
  obtain ⟨i, found⟩ := List.mem_iff_getElem?.mp member
  simp only [acknowledged] at done
  split at done
  next reply returned =>
    have promise := promises i th _ found returned
    cases op : th.op with
    | handleWebhook body =>
      rw [op] at promise delivers
      obtain ⟨captured, ordered, paid⟩ := of_decide_eq_true delivers
      exact promise orderId captureId captured ordered paid
    | _ =>
      rw [op] at delivers
      cases delivers
  next => cases done

/-- The first attempt on the order fails; its event arrives before that of the second attempt,
which the provider has taken. -/
def failedFirst : List (Pool.Move Op) :=
  paid.take 6 ++
    [.event (.spawn (.handleWebhook { event := "payment.failed".toList
                                      payment := some { id := some 8, orderId := some 0 } })),
     .drive 3 true,
     .event (.spawn (.handleWebhook { event := "payment.captured".toList
                                      payment := some { id := some 9, orderId := some 0
                                                        amount := some 500
                                                        currency := some "INR".toList } })),
     .drive 4 true]

end LabourBaba.Payments
