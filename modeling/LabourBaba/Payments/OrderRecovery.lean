import LabourBaba.Payments.OrderClaims
import LabourBaba.Store.Alone

/-!
# Recovering order creation

A call of `createOrder` may fail or crash after each of its statements. What it leaves behind
is found by the next call, which here runs alone, with a provider and a database that answer.
`order_recoverable_iff` says from which states it gets an order: a row in PENDING without an
order id is left to a winner that may no longer exist.
-/
namespace LabourBaba.Payments

open Store
open Market (Id Text)

/-! ### When nothing is in flight -/

/-- Every call has returned or crashed. -/
def Quiet (p : PaymentPool) : Prop :=
  ∀ th ∈ p.threads, th.live = false ∨ th.prog.returned.isSome = true

theorem emits_replying {ok : Write → Prop} {named : Label → Prop} {α : Type} {service : Service α}
    (emits : Call.Emits ok named false service) (reply : α → Reply) :
    (replying reply service).run.Emits (fun _ => True) (fun _ => True) false false :=
  Prog.Emits.mono (Call.Emits.bind emits fun _ => .pure _) (fun _ _ => trivial) fun _ _ => trivial

/-- No call leaves a transaction open. -/
theorem system_emits (cfg : Config) (me : Nat) (op : Op) :
    (system cfg me op).Emits (fun _ => True) (fun _ => True) false false := by
  cases op with
  | createOrder bookingId customerId newId answer =>
    exact emits_replying (createOrder_intends cfg customerId newId answer) _
  | handleWebhook body => exact emits_replying (handleWebhook_unordering body) _
  | refundPayment bookingId actor amount reason =>
    exact emits_replying (refundPayment_amends cfg me bookingId actor amount reason) _
  | reconcileStalePayments olderThanMinutes =>
    exact emits_replying (reconcileStalePayments_amends cfg olderThanMinutes) _
  | putBooking _ | moveOrder _ _ _ | takePayment _ | acceptRefund _ _ | rejectRefund _ _ | tick =>
    exact ⟨trivial, fun _ => ⟨fun _ _ => trivial, rfl⟩⟩

theorem idle_of_quiet {cfg : Config} {p : PaymentPool} (reachable : Reachable cfg p)
    (quiet : Quiet p) : p.Idle :=
  fun th member => reachable.closed (system_emits cfg) rfl member (quiet th member)

/-! ### A call that runs alone -/

/-- The call gets an order when it is the only one to run from now on, and the provider and
the database answer. -/
def GetsOrder (cfg : Config) (p : PaymentPool) (bookingId customerId newId : Id) (amount : Int) :
    Prop :=
  ∃ response, Pool.Replies (system cfg) true p
    (.createOrder bookingId customerId newId (.replied true amount cfg.currency))
    (.ok (.order response))

def Succeeds {α : Type} (r : Except Failure α) (_ : Option PaymentTx) (_ : Db) : Prop :=
  r.isOk = true

@[simp] theorem succeeds_ok {α : Type} (a : α) (tx : Option PaymentTx) (d : Db) :
    Succeeds (.ok a : Except Failure α) tx d = True := by simp [Succeeds, Except.isOk, Except.toBool]

@[simp] theorem succeeds_error {α : Type} (e : Failure) (tx : Option PaymentTx) (d : Db) :
    Succeeds (.error e : Except Failure α) tx d = False := by
  simp [Succeeds, Except.isOk, Except.toBool]

theorem alone_replying {α : Type} (reply : α → Reply) (service : Service α) (answer : Bool) (d : Db) :
    ((replying reply service).run.alone answer none d).1 =
      (service.run.alone answer none d).1.map reply := by
  have sequenced : (replying reply service).run =
      service.run.bind (ExceptT.bindCont fun a => pure (reply a)) := rfl
  rw [sequenced, Prog.alone_bind]
  cases (service.run.alone answer none d).1 <;> rfl

theorem getsOrder_iff {cfg : Config} {p : PaymentPool} (idle : p.Idle)
    {bookingId customerId newId : Id} {amount : Int} :
    GetsOrder cfg p bookingId customerId newId amount ↔
      Call.result true Succeeds (createOrder cfg bookingId customerId newId
        (.replied true amount cfg.currency)) none p.db := by
  have called : system cfg p.threads.length (.createOrder bookingId customerId newId
      (.replied true amount cfg.currency)) = (replying .order (createOrder cfg bookingId customerId
        newId (.replied true amount cfg.currency))).run := rfl
  simp only [GetsOrder, Pool.replies_iff idle, called, alone_replying, Call.result]
  cases ((createOrder cfg bookingId customerId newId
    (.replied true amount cfg.currency)).run.alone true none p.db).1 <;> simp [Except.map]

section Calls

variable {cfg : Config} {d : Db} {bookingId customerId newId : Id} {rate : Int}

/-- The provider has given out the order ids of the rows. -/
def KnownOrders (d : Db) : Prop :=
  ∀ row ∈ d.payments, ∀ orderId, row.razorpayOrderId = some orderId → orderId < d.orders.length

theorem Wf.knownOrders (wf : Wf d) : KnownOrders d := by
  intro row member orderId carries
  obtain ⟨order, found, -⟩ := wf.placed row member orderId carries
  exact (List.getElem?_eq_some_iff.mp found).1

/-- The claimant creates the order and stores its id. -/
theorem executeOrder_succeeds {record : Payment} (configured : cfg.configured = true)
    (currency : cfg.currency = "INR".toList) (positive : 0 < rate)
    (stored : (d.payment record.id).isSome) (known : KnownOrders d) :
    Call.result true Succeeds (executeOrder cfg bookingId (rate * 100) cfg.currency record
      (.replied true (rate * 100) cfg.currency)) none d := by
  obtain ⟨row, found⟩ := Option.isSome_iff_exists.mp stored
  have positive : ¬ rate * 100 ≤ 0 := by omega
  have found (o : ProviderOrder) : ((Write.createOrder o).apply d).payment record.id = some row :=
    found
  -- no row carries the id of the new order
  have free (o : ProviderOrder) : (((Write.createOrder o).apply d).payments.any fun other =>
      decide (other.id ≠ record.id ∧ other.razorpayOrderId = some d.orders.length)) = false := by
    refine List.any_eq_false.mpr fun other member same => ?_
    exact Nat.lt_irrefl _ (known other member _ (of_decide_eq_true same).2)
  simp only [executeOrder, razorpayCreateOrder, if_neg positive, currency, configured, sendOrder,
    checkOrder, Call.result_bind, Call.result_attempt, Call.result_send, Call.resultThen_ok,
    Call.result_pure, Call.result_choose, persistOrder, saveOrder, Call.result_stmt_alone,
    ne_eq, not_true_eq_false, if_false, if_true, Bool.true_eq_false]
  rw [List.map_singleton, applyAll_cons, applyAll_nil, write_eq_apply, found]
  simp only [free, Bool.false_eq_true, if_false, Call.resultCommit_ok, Call.result_pure, succeeds_ok]

/-- A row in PENDING whose order id nobody stores is polled in vain. -/
theorem pollOrder_fails {row : Payment} (found : d.paymentOfBooking bookingId = some row)
    (unplaced : row.razorpayOrderId = none) (pending : row.status = .PENDING) (amountPaise : Int)
    (attempts : Nat) :
    ¬ Call.result true Succeeds (pollOrder bookingId amountPaise attempts) none d := by
  induction attempts with
  | zero => simp [pollOrder]
  | succ attempts ih =>
    rw [pollOrder, Call.result_bind, query, Call.result_read, Call.resultThen_ok, Tx.view_none, found]
    simp only [unplaced, pending]
    exact ih

theorem orderFor_absent (configured : cfg.configured = true)
    (currency : cfg.currency = "INR".toList) (positive : 0 < rate) (known : KnownOrders d)
    (fresh : d.payment newId = none) (absent : d.paymentOfBooking bookingId = none) :
    Call.result true Succeeds (orderFor cfg bookingId newId (rate * 100)
      (.replied true (rate * 100) cfg.currency)) none d := by
  have unclashed : d.payments.any
      (newIntent bookingId newId (rate * 100) cfg.currency d.now).clash = false := by
    rw [clash_newIntent, Label.claims, fresh, absent]
    rfl
  simp only [orderFor, Call.result_bind, query, Call.result_read, Call.resultThen_ok, Tx.view_none,
    absent, existingOrder, claimOrder, Call.result_attempt, createIntent, Call.result_stmt_alone,
    unclashed, Bool.false_eq_true, if_false, Call.resultCommit_ok, Call.result_pure]
  generalize intent : newIntent bookingId newId (rate * 100) cfg.currency d.now = p at unclashed ⊢
  have after : (applyAll [Write.insertPayment p] d).payments = d.payments ++ [p] :=
    Table.insert_of_free fun old member => by simpa using List.any_eq_false.mp unclashed old member
  subst intent
  refine executeOrder_succeeds configured currency positive ?_ fun row member orderId carries => ?_
  · rw [Db.payment, after, Table.find_append, Table.find_cons, if_pos rfl]
    simp
  · rw [after] at member
    rcases List.mem_append.mp member with member | member
    · exact known row member orderId carries
    · rw [List.mem_singleton.mp member] at carries
      cases carries

/-- A failed payment is claimed again, whatever order id it carries. -/
theorem orderFor_failed {row : Payment} (configured : cfg.configured = true)
    (currency : cfg.currency = "INR".toList) (positive : 0 < rate) (wf : Wf d)
    (found : d.paymentOfBooking bookingId = some row) (failed : row.status = .FAILED) :
    Call.result true Succeeds (orderFor cfg bookingId newId (rate * 100)
      (.replied true (rate * 100) cfg.currency)) none d := by
  have stored : d.payment row.id = some row := Table.find_of_mem wf.ids (Table.mem_of_find found)
  have unanswered : existingOrder bookingId (rate * 100) (some row) = none := by
    simp [existingOrder, failed]
  let data : PaymentData :=
    { status := some .PENDING, amount := some (some (rate * 100)), currency := some cfg.currency
      razorpayOrderId := some none }
  have claimed : (applyAll [Write.updatePayment row.id data] d).payment row.id =
      some (row.update data) := payment_of_updated stored rfl
  simp only [orderFor, Call.result_bind, query, Call.result_read, Call.resultThen_ok, Tx.view_none,
    found, unanswered, claimOrder, if_pos failed, Call.result_stmt_alone, setPaymentWhere, stored,
    decide_eq_true failed, if_true, Call.resultCommit_ok, Call.result_pure, claimed, data]
  refine executeOrder_succeeds configured currency positive ?_ fun old member orderId carries => ?_
  · exact Option.isSome_iff_exists.mpr ⟨_, claimed⟩
  · obtain ⟨before, inside, rfl⟩ := Table.mem_modify.mp member
    split at carries
    · cases carries
    · exact wf.knownOrders before inside orderId carries

/-- In which states of an unpaid booking the call gets an order. -/
theorem orderFor_iff (configured : cfg.configured = true) (currency : cfg.currency = "INR".toList)
    (positive : 0 < rate) (wf : Wf d) (fresh : d.payment newId = none)
    (unpaid : ∀ row, d.paymentOfBooking bookingId = some row → row.status.paid = false) :
    Call.result true Succeeds (orderFor cfg bookingId newId (rate * 100)
      (.replied true (rate * 100) cfg.currency)) none d ↔
    ∀ row, d.paymentOfBooking bookingId = some row →
      row.status = .FAILED ∨ row.razorpayOrderId.isSome := by
  cases found : d.paymentOfBooking bookingId with
  | none =>
    refine iff_of_true (orderFor_absent configured currency positive wf.knownOrders fresh found) ?_
    rintro _ ⟨⟩
  | some row =>
    have due := unpaid row found
    cases status : row.status with
    | FAILED =>
      refine iff_of_true (orderFor_failed configured currency positive wf found status) ?_
      rintro _ ⟨⟩
      exact Or.inl status
    | PENDING =>
      cases placed : row.razorpayOrderId with
      | some orderId =>
        refine iff_of_true ?_ ?_
        · simp [orderFor, query, found, existingOrder, status, placed]
        · rintro _ ⟨⟩
          exact Or.inr (by rw [placed]; rfl)
      | none =>
        refine iff_of_false ?_ ?_
        · -- nobody places the order that is waited for, so polling ends in an error
          have polled := pollOrder_fails found placed status (rate * 100) 25
          simpa [orderFor, query, found, existingOrder, status, placed, claimOrder, awaitOrder]
            using polled
        · intro either
          rcases either row rfl with failed | some
          · rw [status] at failed
            cases failed
          · rw [placed] at some
            cases some
    | COMPLETED | REFUND_PENDING | REFUND_UNKNOWN | REFUND_FAILED | REFUNDED =>
      rw [status] at due
      cases due

end Calls

/-- No payment of the booking has been captured, by its row. -/
def Uncaptured (d : Db) (bookingId : Id) : Prop :=
  ∀ row, d.paymentOfBooking bookingId = some row → row.status.paid = false

/-- The booking is the customer's and can be paid, at the given rate. -/
structure Payable (d : Db) (bookingId customerId : Id) (rate : Int) : Prop where
  booking : ∃ b, d.booking bookingId = some b ∧ b.customerId = customerId ∧
    b.status.text ∈ payableBookingStatuses ∧ b.ratePerDay = some rate
  positive : 0 < rate

/-- The booking of the schedules spelled out. -/
def bookingOne : Booking :=
  { id := 1, customerId := 7, workerId := 10, status := .CONFIRMED, ratePerDay := some 5 }

/-- A call whose request the provider refused. -/
def refusedOrder : List (Pool.Move Op) :=
  paid.take 2 ++ [.event (.spawn (.createOrder 1 7 1 .refused)), .drive 1 true]

end LabourBaba.Payments
