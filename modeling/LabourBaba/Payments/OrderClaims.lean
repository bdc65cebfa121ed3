import LabourBaba.Payments.OrderOffers
import LabourBaba.Payments.Footprints

/-!
# The claim of an order

A call of `createOrder` sends a request to the provider only after it has claimed the payment,
by the INSERT of the row or by its UPDATE from FAILED to PENDING. The claim is open until the
call has saved the order or has given up. As long as nobody else fails a payment whose
claimant is at work, no second claim can be made meanwhile (`one_order_per_claim`).
-/
namespace LabourBaba.Payments

open Store
open Market (Id Text)

/-! ### Claims -/

/-- The statement makes its call the claimant of the payment. -/
def Label.claimsOn (paymentId : Id) (ℓ : Label) (d : Db) : Bool :=
  ℓ.claims d && match ℓ with
    | .intended id _ | .reclaimed id => decide (id = paymentId)
    | _ => false

/-- The claimant has saved the order, or has given up. -/
def Label.closes (paymentId : Id) : Label → Bool
  | .orderSaved id _ | .orderFailed id => decide (id = paymentId)
  | _ => false

/-- The call has claimed the payment, and has neither saved an order nor given up since. -/
def claimOpen (issued : List (Label × Db)) (paymentId : Id) : Bool :=
  (issued.any fun e => e.1.claimsOn paymentId e.2) && issued.all fun e => !e.1.closes paymentId

/-- The statement sends an order request to the provider. -/
def Label.sends : Label → Bool
  | .orderCreated _ => true
  | _ => false

section Open

variable {issued : List (Label × Db)} {paymentId : Id} {ℓ : Label} {d : Db}

theorem claimsOn_iff : ℓ.claimsOn paymentId d = true ↔
    ℓ.claims d = true ∧ ((∃ bookingId, ℓ = .intended paymentId bookingId) ∨
      ℓ = .reclaimed paymentId) := by
  cases ℓ <;> simp [Label.claimsOn, Label.claims]

theorem claimOpen_concat (isOpen : claimOpen issued paymentId = true)
    (stays : ℓ.closes paymentId = false) : claimOpen (issued ++ [(ℓ, d)]) paymentId = true := by
  rw [claimOpen, Bool.and_eq_true] at isOpen ⊢
  rw [List.any_append, List.all_append, isOpen.1, isOpen.2]
  simp [stays]

/-- What is open after a statement was open before, or has just been claimed. -/
theorem claimOpen_of_concat (isOpen : claimOpen (issued ++ [(ℓ, d)]) paymentId = true) :
    ℓ.closes paymentId = false ∧
      (claimOpen issued paymentId = true ∨ ℓ.claimsOn paymentId d = true) := by
  rw [claimOpen, List.any_append, List.all_append, Bool.and_eq_true, Bool.or_eq_true,
    Bool.and_eq_true] at isOpen
  obtain ⟨claimed, unclosed, last⟩ := isOpen
  refine ⟨by simpa using last, ?_⟩
  rcases claimed with earlier | now
  · exact Or.inl (by rw [claimOpen, earlier, unclosed, Bool.and_self])
  · exact Or.inr (by simpa using now)

theorem claims_of_claimOpen (isOpen : claimOpen issued paymentId = true) :
    ∃ e ∈ issued, e.1.claims e.2 = true := by
  rw [claimOpen, Bool.and_eq_true] at isOpen
  obtain ⟨e, member, claims⟩ := List.any_eq_true.mp isOpen.1
  simp only [Label.claimsOn, Bool.and_eq_true] at claims
  exact ⟨e, member, claims.1⟩

end Open

/-! ### What the statements of a call are -/

/-- What each statement of a `createOrder` call for the booking finds and writes: at most one
claim, an order request and its outcome only while the claim is open, and one request. -/
def orderStatement (bookingId : Id) (ℓ : Label) (seen : List (Label × Db)) (d : Db)
    (ws : List Write) : Prop :=
  match ℓ with
  | .intended paymentId booked => booked = bookingId ∧ (∀ e ∈ seen, e.1.claims e.2 = false) ∧
      (ℓ.claims d = false → ws = []) ∧ (ℓ.claims d = true → ∃ p, ws = [.insertPayment p] ∧
        p.id = paymentId ∧ p.bookingId = bookingId ∧ p.status = .PENDING ∧
        p.razorpayOrderId = none)
  | .reclaimed paymentId => (∀ row, d.payment paymentId = some row → row.bookingId = bookingId) ∧
      (∀ e ∈ seen, e.1.claims e.2 = false) ∧ (ℓ.claims d = false → ws = []) ∧
      (ℓ.claims d = true → ∃ data, ws = [.updatePayment paymentId data] ∧
        data.status = some .PENDING ∧ data.razorpayOrderId = some none)
  | .orderCreated booked => booked = bookingId ∧ (∀ e ∈ seen, e.1.sends = false) ∧
      ∃ paymentId, claimOpen seen paymentId = true
  | .orderSaved paymentId orderId => claimOpen seen paymentId = true ∧
      ∃ d', (.orderCreated bookingId, d') ∈ seen ∧ d'.orders.length = orderId
  | .orderFailed paymentId => claimOpen seen paymentId = true
  | _ => ws = []

abbrev OrderIssues (bookingId : Id) {α : Type} (seen : List (Label × Db)) (c : Service α)
    (Q : Except Failure α → List (Label × Db) → Prop) : Prop :=
  Call.Issues comesNext (orderStatement bookingId) seen c Q

section Statements

variable {bookingId : Id} {seen : List (Label × Db)}

theorem razorpayCreateOrder_claims {paymentId : Id} (isOpen : claimOpen seen paymentId = true)
    (unsent : ∀ e ∈ seen, e.1.sends = false) (cfg : Config) (amountPaise : Int) (currency : Text)
    (answer : OrdersCreate) :
    OrderIssues bookingId seen (razorpayCreateOrder cfg amountPaise currency bookingId answer)
      fun r seen => claimOpen seen paymentId = true ∧ ∀ order, r = .ok order →
        ∃ d, (.orderCreated bookingId, d) ∈ seen ∧ d.orders.length = order.razorpayOrderId := by
  have sent : OrderIssues bookingId seen (sendOrder bookingId amountPaise currency) fun r seen =>
      claimOpen seen paymentId = true ∧ ∀ orderId, r = .ok orderId →
        ∃ d, (.orderCreated bookingId, d) ∈ seen ∧ d.orders.length = orderId := by
    refine .send fun d _ => ⟨⟨rfl, unsent, paymentId, isOpen⟩, claimOpen_concat isOpen rfl, ?_⟩
    rintro _ ⟨⟩
    exact ⟨d, by simp, rfl⟩
  simp only [razorpayCreateOrder]
  split
  · exact .throw ⟨isOpen, by simp⟩
  split
  · exact .throw ⟨isOpen, by simp⟩
  split
  · exact .throw ⟨isOpen, by simp⟩
  cases answer with
  | refused => exact .throw ⟨isOpen, by simp⟩
  | lost => exact sent.bind (fun _ _ sent => .throw ⟨sent.1, by simp⟩) fun _ _ sent => ⟨sent.1, by simp⟩
  | replied idPresent returnedAmount returnedCurrency =>
    refine sent.bind (fun orderId seen sent => ?_) fun _ _ sent => ⟨sent.1, by simp⟩
    split
    next order checked =>
      have same : order.razorpayOrderId = orderId := by
        simp only [checkOrder] at checked
        (repeat' split at checked) <;> cases checked
        rfl
      refine .pure ⟨sent.1, ?_⟩
      rintro _ ⟨⟩
      rw [same]
      exact sent.2 orderId rfl
    next => exact .throw ⟨sent.1, by simp⟩

theorem executeOrder_claims {record : Payment} (isOpen : claimOpen seen record.id = true)
    (unsent : ∀ e ∈ seen, e.1.sends = false) (cfg : Config) (amountPaise : Int) (currency : Text)
    (answer : OrdersCreate) :
    OrderIssues bookingId seen (executeOrder cfg bookingId amountPaise currency record answer)
      fun _ _ => True := by
  refine .bind (Q := fun r seen => ∃ order, r = .ok order ∧ claimOpen seen record.id = true ∧
    ∀ a, order = .ok a → ∃ d, (.orderCreated bookingId, d) ∈ seen ∧
      d.orders.length = a.razorpayOrderId) (.attempt ?_) ?_ fun _ _ _ => trivial
  · exact (razorpayCreateOrder_claims isOpen unsent cfg amountPaise currency answer).mono
      fun r _ created => ⟨r, rfl, created⟩
  rintro _ seen ⟨providerErr | order, ⟨⟩, isOpen, created⟩
  · refine .bind (Q := fun _ seen => claimOpen seen record.id = true) (.choose fun _ => isOpen) ?_
      fun _ _ _ => trivial
    intro reachable seen isOpen
    cases reachable with
    | false => exact .throw trivial
    | true =>
      exact .bind (Q := fun _ _ => True) (.stmt fun d _ => ⟨isOpen, trivial⟩)
        (fun _ _ _ => .throw trivial) fun _ _ _ => trivial
  · refine .bind (Q := fun _ _ => True) (.attempt ?_) ?_ fun _ _ _ => trivial
    · refine .bind (Q := fun r seen' => r.isOk = true ∧ seen' = seen) (.choose fun _ => ⟨rfl, rfl⟩) ?_
        fun _ _ _ => trivial
      rintro reachable _ ⟨-, rfl⟩
      cases reachable with
      | false => exact .throw trivial
      | true => exact .stmt fun d _ => ⟨⟨isOpen, created order rfl⟩, trivial⟩
    · intro saved seen _
      cases saved with
      | error e => exact .throw trivial
      | ok updated => exact .pure trivial

theorem pollOrder_claims (amountPaise : Int) (attempts : Nat) (seen : List (Label × Db)) :
    OrderIssues bookingId seen (pollOrder bookingId amountPaise attempts) fun _ _ => True := by
  induction attempts generalizing seen with
  | zero => exact .throw trivial
  | succ attempts ih =>
    refine .bind (Q := fun _ _ => True) (.read fun d _ => ⟨rfl, trivial⟩) ?_ fun _ _ _ => trivial
    intro refreshed seen _
    cases refreshed with
    | none => exact ih seen
    | some row =>
      dsimp only
      split
      · exact .pure trivial
      · split
        · exact .throw trivial
        · exact ih seen

theorem awaitOrder_claims (amountPaise : Int) (record : Option Payment) (seen : List (Label × Db)) :
    OrderIssues bookingId seen (awaitOrder bookingId amountPaise record) fun _ _ => True := by
  simp only [awaitOrder]
  split
  · split
    · exact .pure trivial
    · exact pollOrder_claims _ _ _
  · exact pollOrder_claims _ _ _

/-- After its claim a claimant has the claim of its record open, and has sent nothing. -/
def ClaimantOf (r : Except Failure (Option Payment × Bool)) (seen : List (Label × Db)) : Prop :=
  ∀ record, r = .ok (some record, true) →
    claimOpen seen record.id = true ∧ ∀ e ∈ seen, e.1.sends = false

theorem claimantOf_lost (record : Option Payment) (seen : List (Label × Db)) :
    ClaimantOf (.ok (record, false)) seen := by
  rintro _ ⟨⟩

theorem claimantOf_error (e : Failure) (seen : List (Label × Db)) : ClaimantOf (.error e) seen := by
  rintro _ ⟨⟩

theorem claimOrder_claims {d₀ first : Db} (newId : Id) (amountPaise : Int) (currency : Text)
    (wf : Wf first) :
    OrderIssues bookingId [(.step, d₀), (.step, first)]
      (claimOrder bookingId newId amountPaise currency (first.paymentOfBooking bookingId))
      ClaimantOf := by
  cases existing : first.paymentOfBooking bookingId with
  | none =>
    refine .bind (Q := fun r seen => ∃ d, seen = [(.step, d₀), (.step, first),
        (.intended newId bookingId, d)] ∧ ∀ payment, r = .ok (.ok payment) →
          payment.id = newId ∧ Label.claims (.intended newId bookingId) d = true)
      (.attempt (.stmt fun d _ => ⟨⟨rfl, by simp, ?_⟩, d, rfl, ?_⟩)) ?_ ?_
    · rw [clash_newIntent]
      cases Label.claims (.intended newId bookingId) d with
      | true => exact ⟨by simp, fun _ => ⟨_, rfl, rfl, rfl, rfl, rfl⟩⟩
      | false => exact ⟨fun _ => rfl, by simp⟩
    · rw [clash_newIntent]
      cases Label.claims (.intended newId bookingId) d with
      | true =>
        rintro _ ⟨⟩
        exact ⟨rfl, rfl⟩
      | false =>
        intro _ same
        simp [Except.map] at same
    · -- the insertion was the claim: it has won exactly if no record clashed
      rintro created seen ⟨d, rfl, won⟩
      split
      next payment =>
        obtain ⟨named, claims⟩ := won payment rfl
        refine .pure ?_
        rintro _ ⟨⟩
        rw [named]
        simp [claimOpen, Label.claimsOn, Label.closes, Label.sends, claims]
      · exact .bind (Q := fun _ _ => True) (.read fun d _ => ⟨rfl, trivial⟩)
          (fun _ _ _ => .pure (claimantOf_lost _ _)) fun _ _ _ => claimantOf_error _ _
      · exact .throw (claimantOf_error _ _)
    · exact fun _ _ _ => claimantOf_error _ _
  | some row =>
    simp only [claimOrder]
    split
    · refine .bind (Q := fun r seen => ∃ d, r = .ok (Label.claims (.reclaimed row.id) d) ∧
          seen = [(.step, d₀), (.step, first), (.reclaimed row.id, d)])
        (.stmt fun d next => ⟨⟨fun stored found => ?_, by simp, ?_⟩, d, ?_, rfl⟩) ?_ ?_
      · obtain ⟨row', found', booked⟩ := holds_of_later (next.2 (.step, first) (by simp))
          (holds_of_booking wf existing)
        rw [← Option.some.inj (found'.symm.trans found)]
        exact booked
      · simp only [setPaymentWhere, Label.claims]
        cases d.payment row.id with
        | none => exact ⟨fun _ => rfl, by simp⟩
        | some stored =>
          rw [Option.any_some]
          dsimp only
          split
          next failed => exact ⟨by simp [failed], fun _ => ⟨_, rfl, rfl, rfl⟩⟩
          next unfailed => exact ⟨fun _ => rfl, fun failed => absurd failed unfailed⟩
      · simp only [setPaymentWhere, Label.claims]
        cases d.payment row.id with
        | none => rfl
        | some stored =>
          rw [Option.any_some]
          dsimp only
          split
          next failed =>
            rw [failed]
            rfl
          next unfailed =>
            rw [Bool.eq_false_iff.mpr unfailed]
            rfl
      · -- the reset of the FAILED record was the claim, and the read after it finds that record
        rintro _ _ ⟨d, ⟨⟩, rfl⟩
        refine .bind (Q := fun r seen => ∃ d', r = .ok (d'.payment row.id) ∧
            seen = [(.step, d₀), (.step, first), (.reclaimed row.id, d), (.step, d')])
          (.read fun d' _ => ⟨rfl, d', rfl, rfl⟩) ?_ fun _ _ _ => claimantOf_error _ _
        rintro _ _ ⟨d', ⟨⟩, rfl⟩
        refine .pure fun record won => ?_
        obtain ⟨found, claims⟩ := Prod.mk.inj (Except.ok.inj won)
        have named : record.id = row.id := Table.find_key found
        rw [named]
        simp [claimOpen, Label.claimsOn, Label.closes, Label.sends, claims]
      · exact fun _ _ _ => claimantOf_error _ _
    · exact .pure (claimantOf_lost _ _)

theorem orderFor_claims {d₀ : Db} (cfg : Config) (newId : Id) (amountPaise : Int)
    (answer : OrdersCreate) :
    OrderIssues bookingId [(.step, d₀)] (orderFor cfg bookingId newId amountPaise answer)
      fun _ _ => True := by
  refine .bind (Q := fun r seen => ∃ d, r = .ok (d.paymentOfBooking bookingId) ∧ Wf d ∧
      seen = [(.step, d₀), (.step, d)]) (.read fun d next => ⟨rfl, d, rfl, next.1, rfl⟩) ?_
    fun _ _ _ => trivial
  rintro _ _ ⟨first, ⟨⟩, wf, rfl⟩
  split
  · exact .pure trivial
  · exact .throw trivial
  · refine (claimOrder_claims newId amountPaise cfg.currency wf).bind ?_ fun _ _ _ => trivial
    intro claim seen claimant
    split
    next record =>
      obtain ⟨isOpen, unsent⟩ := claimant record rfl
      exact executeOrder_claims isOpen unsent cfg amountPaise cfg.currency answer
    next => exact awaitOrder_claims _ _ _

theorem createOrder_claims (cfg : Config) (bookingId customerId newId : Id) (answer : OrdersCreate) :
    OrderIssues bookingId [] (createOrder cfg bookingId customerId newId answer) fun _ _ => True := by
  refine .bind (Q := fun r seen => ∃ d, seen = [(.step, d)]) (.read fun d _ => ⟨rfl, d, rfl⟩) ?_
    fun _ _ _ => trivial
  rintro booking _ ⟨d, rfl⟩
  cases booking with
  | none => exact .throw trivial
  | some booking =>
    dsimp only
    split
    · split
      · exact .throw trivial
      · split
        · exact .throw trivial
        · exact orderFor_claims _ _ _ _
    · exact .throw trivial

end Statements

/-! ### The other calls -/

/-- The statement is one of those by which an order is created. -/
def Label.ordering : Label → Bool
  | .intended .. | .reclaimed _ | .orderCreated _ | .orderFailed _ | .orderSaved .. => true
  | _ => false

theorem ordering_of_amends {ℓ : Label} (amends : ℓ.amends = true) : ℓ.ordering = false := by
  cases ℓ <;> first | rfl | cases amends

/-- The booking that a call creates an order for. -/
def Op.ordersFor : Op → Option Id
  | .createOrder bookingId _ _ _ => some bookingId
  | _ => none

/-- What is said of the statements of a call: all other calls write under other labels. -/
def orderAssertion (op : Op) (ℓ : Label) (seen : List (Label × Db)) (d : Db) (ws : List Write) :
    Prop :=
  match op.ordersFor with
  | some bookingId => orderStatement bookingId ℓ seen d ws
  | none => ws = [] ∨ ℓ.ordering = false

theorem acknowledge_unordering {duplicate : String} {label : Applied → Label} {eventId : EventId}
    {eventType : Text} {tx : Service (Applied × String)} (other : ∀ r, (label r).ordering = false)
    (claims : ClaimsFirst eventId eventType tx) :
    Call.Emits (fun _ => True) (fun ℓ => ℓ.ordering = false) false
      (acknowledge duplicate label tx) := by
  obtain ⟨rest, rfl, ⟨plain, -⟩, -⟩ := claims
  have body : Call.Plain (fun _ : Write => True) (claimEvent eventId eventType >>= fun _ => rest) :=
    Call.Plain.bind (.stmt fun _ _ _ _ _ _ => trivial) fun _ => plain.mono fun _ _ => trivial
  refine Call.Emits.bind (Call.Emits.transaction (fun r => other r.1) body.emits).attempt fun r => ?_
  cases r with
  | ok r => exact .pure _
  | error e => cases e <;> first | exact .pure _ | exact .throw _

theorem handleWebhook_unordering (body : WebhookBody) :
    Call.Emits (fun _ => True) (fun ℓ => ℓ.ordering = false) false (handleWebhook body) := by
  simp only [handleWebhook]
  split
  · exact .pure _
  split
  · simp only [processPaymentCaptured]
    split
    · exact acknowledge_unordering (fun _ => rfl) (processPaymentCapturedTx_claimsFirst _ _ _ _ _ _)
    · exact .pure _
  split
  · simp only [processPaymentFailed]
    split
    · exact acknowledge_unordering (fun _ => rfl) (processPaymentFailedTx_claimsFirst _ _ _)
    · exact .pure _
  split
  · simp only [processRefundProcessed]
    split
    · exact acknowledge_unordering (fun _ => rfl) (processRefundProcessedTx_claimsFirst _ _ _ _ _)
    · exact .pure _
  · exact .pure _

theorem traced_of_unordering {op : Op} {α : Type} {ok : Write → Prop} {c : Service α}
    (other : op.ordersFor = none)
    (emits : Call.Emits ok (fun ℓ => ℓ.ordering = false) false c) (reply : α → Reply) :
    (replying reply c).run.traced comesNext (orderAssertion op) (fun _ _ _ => True) none [] := by
  have closed : (replying reply c).run.Emits ok (fun ℓ => ℓ.ordering = false) false
      (none : Option PaymentTx).isSome := Call.Emits.bind emits fun _ => .pure _
  refine Prog.traced_of_emits (fun ℓ seen d ws written => ?_) (fun _ _ _ => trivial) closed []
  rw [orderAssertion, other]
  exact written

theorem traced_of_amends {op : Op} {α : Type} {c : Service α} (other : op.ordersFor = none)
    (amends : Amends c) (reply : α → Reply) :
    (replying reply c).run.traced comesNext (orderAssertion op) (fun _ _ _ => True) none [] := by
  have closed : (replying reply c).run.Emits (fun w => w.amends = true)
      (fun ℓ => ℓ.amends = true) false (none : Option PaymentTx).isSome :=
    Call.Emits.bind amends fun _ => .pure _
  refine Prog.traced_of_emits (fun ℓ seen d ws written => ?_) (fun _ _ _ => trivial) closed []
  rw [orderAssertion, other]
  exact written.imp id ordering_of_amends

theorem traced_outside {op : Op} (other : op.ordersFor = none) (w : Unlocked Db) :
    (outside w).run.traced comesNext (orderAssertion op) (fun _ _ _ => True) none [] := by
  refine fun d _ => ⟨?_, trivial⟩
  rw [orderAssertion, other]
  exact Or.inr rfl

theorem system_claims (cfg : Config) (me : Nat) (op : Op) :
    (system cfg me op).traced comesNext (orderAssertion op) (fun _ _ _ => True) none [] := by
  cases op with
  | createOrder bookingId customerId newId answer =>
    have claims : OrderIssues bookingId []
        (replying .order (createOrder cfg bookingId customerId newId answer)) fun _ _ => True :=
      (createOrder_claims cfg bookingId customerId newId answer).bind
        (fun _ _ _ => .pure trivial) fun _ _ _ => trivial
    exact Prog.traced_mono (fun _ _ _ _ => trivial) _ _ _ claims
  | handleWebhook body => exact traced_of_unordering rfl (handleWebhook_unordering body) _
  | refundPayment bookingId actor amount reason =>
    exact traced_of_amends rfl (refundPayment_amends cfg me bookingId actor amount reason) _
  | reconcileStalePayments olderThanMinutes =>
    exact traced_of_amends rfl (reconcileStalePayments_amends cfg olderThanMinutes) _
  | tick =>
    refine fun d _ => ⟨?_, trivial⟩
    exact Or.inr rfl
  | putBooking _ | moveOrder _ _ _ | takePayment _ | acceptRefund _ _ | rejectRefund _ _ =>
    exact traced_outside rfl _

/-! ### Claimants -/

/-- The booking for which a call of `createOrder` is at work. -/
def workingFor (p : PaymentPool) (i : Nat) : Option Id :=
  p.threads[i]?.bind fun th =>
    if th.live && th.prog.returned.isNone then th.op.ordersFor else none

def claimsPayment (paymentId : Id) (e : Entry Label Db Op) : Bool :=
  e.op.ordersFor.isSome && e.label.claimsOn paymentId e.store

/-- The call that has made the latest claim of the payment. -/
def latestClaimant (journal : List (Entry Label Db Op)) (paymentId : Id) : Option Nat :=
  (journal.filter (claimsPayment paymentId)).getLast?.map Entry.call

/-- The payment that a webhook or a reconciliation fails. -/
def Label.fails : Label → Option Id
  | .failed _ (.moved id) | .reconciled id .FAILED => some id
  | _ => none

/-- The event does not fail a payment whose claimant is at work. -/
def sparesClaimants (p : PaymentPool) (journal : List (Entry Label Db Op)) (e : Event Op) : Bool :=
  (p.published e).isEmpty || ((labelOf p e).bind Label.fails).all fun paymentId =>
    (List.range p.threads.length).all fun i =>
      (workingFor p i).isNone || !claimOpen (ownTrace journal i) paymentId

section Claimants

variable {p q : PaymentPool} {journal : List (Entry Label Db Op)} {e : Entry Label Db Op}
  {paymentId bookingId : Id} {i : Nat}

theorem workingFor_iff : workingFor p i = some bookingId ↔ ∃ th, p.threads[i]? = some th ∧
    th.live = true ∧ th.prog.returned = none ∧ th.op.ordersFor = some bookingId := by
  simp only [workingFor, Option.bind_eq_some_iff]
  refine exists_congr fun th => and_congr_right fun _ => ?_
  split
  next running =>
    rw [Bool.and_eq_true, Option.isNone_iff_eq_none] at running
    simp [running]
  next idle =>
    rw [Bool.and_eq_true, Option.isNone_iff_eq_none] at idle
    exact ⟨nofun, fun running => absurd ⟨running.1, running.2.1⟩ idle⟩

theorem workingFor_of_step {cfg : Config} {e : Event Op} (stepped : p.step (system cfg) e = some q)
    (working : workingFor q i = some bookingId) :
    i = p.threads.length ∨ workingFor p i = some bookingId := by
  obtain ⟨th, found, live, running, orders⟩ := workingFor_iff.mp working
  rcases Pool.running_of_step stepped found live running with new | ⟨th₀, found₀, same, old⟩
  · exact Or.inl new
  · exact Or.inr (workingFor_iff.mpr ⟨th₀, found₀, old.1, old.2, same ▸ orders⟩)

theorem latestClaimant_claimed (claims : claimsPayment paymentId e = true) :
    latestClaimant (journal ++ [e]) paymentId = some e.call := by
  rw [latestClaimant, List.filter_append, List.filter_singleton, claims, cond_true,
    List.getLast?_concat, Option.map_some]

theorem latestClaimant_kept (other : claimsPayment paymentId e = false) :
    latestClaimant (journal ++ [e]) paymentId = latestClaimant journal paymentId := by
  rw [latestClaimant, List.filter_append, List.filter_singleton, other, cond_false,
    List.append_nil, latestClaimant]

theorem published_of_spared {e : Event Op} {ℓ : Label} (spared : sparesClaimants p journal e = true)
    (label : labelOf p e = some ℓ) (fails : ℓ.fails = some paymentId)
    (working : workingFor p i = some bookingId)
    (isOpen : claimOpen (ownTrace journal i) paymentId = true) : p.published e = [] := by
  rw [sparesClaimants, label, Option.bind_some, fails, Option.all_some, Bool.or_eq_true,
    List.isEmpty_iff, List.all_eq_true] at spared
  refine spared.resolve_right fun spared => ?_
  obtain ⟨th, found, -⟩ := workingFor_iff.mp working
  have spares := spared i (List.mem_range.mpr (List.getElem?_eq_some_iff.mp found).1)
  rw [working, isOpen] at spares
  cases spares

end Claimants

/-! ### What an event does to a claimed payment -/

/-- The row of a payment that is claimed for the booking, before its order is saved. -/
structure ClaimHeld (bookingId : Id) (row : Payment) : Prop where
  booked : row.bookingId = bookingId
  unsaved : row.razorpayOrderId = none
  unfailed : row.status ≠ .FAILED

section Rows

variable {i : Nat} {ℓ : Label} {d d' : Db} {paymentId bookingId : Id} {row : Payment}

theorem payment_of_updated {data : PaymentData} {p : Payment} (found : d.payment p.id = some p)
    (after : d'.payments = Table.modify Payment.id d.payments [p.id] (Payment.update data)) :
    d'.payment p.id = some (p.update data) := by
  have stored : Table.find Payment.id d.payments p.id = some p := found
  have keyed : ∀ row : Payment, (row.update data).id = row.id := fun _ => rfl
  rw [Db.payment, after, Table.find_modify _ _ _ _ keyed, stored]
  simp

theorem payment_of_updated_ne {data : PaymentData} {p : Payment} (other : p.id ≠ paymentId)
    (after : d'.payments = Table.modify Payment.id d.payments [p.id] (Payment.update data)) :
    d'.payment paymentId = d.payment paymentId := by
  have keyed : ∀ row : Payment, (row.update data).id = row.id := fun _ => rfl
  rw [Db.payment, after, Table.find_modify_of_notMem _ _ _ _ keyed (by simp [other.symm])]
  rfl

/-- Only the claimant and a FAILED transition end a claim. -/
theorem PaymentsChange.claimHeld (change : PaymentsChange i ℓ d d')
    (found : d.payment paymentId = some row) (held : ClaimHeld bookingId row)
    (stays : ℓ.closes paymentId = false) (spared : ℓ.fails ≠ some paymentId) :
    ∃ row', d'.payment paymentId = some row' ∧ ClaimHeld bookingId row' := by
  cases change with
  | same same => exact ⟨row, by rw [Db.payment, same]; exact found, held⟩
  | inserted p _ _ fresh after =>
    refine ⟨row, ?_, held⟩
    rw [Db.payment, after, ← Table.insert_of_free fresh]
    exact Table.find_insert_of_some found
  | updated p data stored kind after =>
    -- an update of another payment leaves the claim alone
    by_cases named : p.id = paymentId
    · subst named
      obtain rfl := Option.some.inj (stored.symm.trans found)
      refine ⟨_, payment_of_updated found after, held.booked, ?_, ?_⟩
      · rcases kind with move | claiming | ⟨a, recording⟩
        · cases move with
          | orderSaved => simp [Label.closes] at stays
          | reclaimed => rfl
          | _ => exact held.unsaved
        · cases claiming <;> exact held.unsaved
        · cases recording <;> exact held.unsaved
      · rcases kind with move | claiming | ⟨a, recording⟩
        · cases move with
          | orderFailed | orderSaved => simp [Label.closes] at stays
          | failed => exact absurd rfl spared
          | reconciled _ outcome =>
            rcases outcome with rfl | rfl
            · simp [Payment.update]
            · exact absurd rfl spared
          | reclaimed | captured | refunded | refundReconciled => simp [Payment.update]
          | mismatched | enriched | quarantined => exact held.unfailed
        · cases claiming <;> simp [Payment.update]
        · cases recording with
          | settled => simp [Payment.update]
          | failed outcome => rcases outcome with rfl | ⟨rfl, -⟩ <;> simp [Payment.update]
    · exact ⟨row, (payment_of_updated_ne named after).trans found, held⟩

/-- An order id in a row was there before, or has just been saved. -/
theorem PaymentsChange.ordered (change : PaymentsChange i ℓ d d') {orderId : Id}
    (found : d'.payment paymentId = some row) (carries : row.razorpayOrderId = some orderId) :
    ∃ old, d.payment paymentId = some old ∧ old.bookingId = row.bookingId ∧
      (old.razorpayOrderId = some orderId ∨ ℓ = .orderSaved paymentId orderId) := by
  cases change with
  | same same =>
    rw [Db.payment, same] at found
    exact ⟨row, found, rfl, Or.inl carries⟩
  | inserted p _ unplaced fresh after =>
    rw [Db.payment, after, Table.find_append] at found
    cases stored : Table.find Payment.id d.payments paymentId with
    | some old =>
      rw [stored, Option.some_or] at found
      obtain rfl := Option.some.inj found
      exact ⟨old, stored, rfl, Or.inl carries⟩
    | none =>
      rw [stored, Option.none_or] at found
      obtain rfl := List.mem_singleton.mp (Table.mem_of_find found)
      rw [unplaced] at carries
      cases carries
  | updated p data stored kind after =>
    by_cases named : p.id = paymentId
    · subst named
      obtain rfl := Option.some.inj ((payment_of_updated stored after).symm.trans found)
      refine ⟨p, stored, rfl, ?_⟩
      rcases kind with move | claiming | ⟨a, recording⟩
      · cases move with
        | reclaimed => cases carries
        | orderSaved =>
          obtain rfl := Option.some.inj carries
          exact Or.inr rfl
        | _ => exact Or.inl carries
      · cases claiming <;> exact Or.inl carries
      · cases recording <;> exact Or.inl carries
    · rw [payment_of_updated_ne named after] at found
      exact ⟨row, found, rfl, Or.inl carries⟩

/-- What a claim finds: no row, or a failed one. -/
theorem unclaimed_of_claimsOn (claims : ℓ.claimsOn paymentId d = true)
    (found : d.payment paymentId = some row) : row.status = .FAILED := by
  obtain ⟨claims, ⟨booked, rfl⟩ | rfl⟩ := claimsOn_iff.mp claims
  · rw [Label.claims, found] at claims
    cases claims
  · rw [Label.claims, found] at claims
    exact of_decide_eq_true claims

/-- What a claim leaves: a row that is claimed for the booking. -/
theorem claimed_of_claimsOn {seen : List (Label × Db)} {ws : List Write}
    (claims : ℓ.claimsOn paymentId d = true) (issued : orderStatement bookingId ℓ seen d ws) :
    ∃ row, (applyAll ws d).payment paymentId = some row ∧ ClaimHeld bookingId row := by
  obtain ⟨claims, ⟨booked, rfl⟩ | rfl⟩ := claimsOn_iff.mp claims
  · obtain ⟨rfl, -, -, wrote⟩ := issued
    obtain ⟨p, rfl, rfl, rfl, pending, unsaved⟩ := wrote claims
    refine ⟨p, ?_, rfl, unsaved, by rw [pending]; nofun⟩
    rw [Label.claims, Bool.and_eq_true, Option.isNone_iff_eq_none, Option.isNone_iff_eq_none] at claims
    have free : ∀ old ∈ d.payments, p.clash old = false := fun old member => by
      have differ := Table.find_none_iff.mp claims.1 old member
      have differ' := Table.find_none_iff.mp claims.2 old member
      simp [Payment.clash, differ.symm, differ'.symm]
    have after : (applyAll [Write.insertPayment p] d).payments = d.payments ++ [p] :=
      Table.insert_of_free free
    rw [Db.payment, after, Table.find_append, show Table.find Payment.id d.payments p.id = none from
      claims.1, Option.none_or, Table.find_cons, if_pos rfl]
  · obtain ⟨booked, -, -, wrote⟩ := issued
    obtain ⟨data, rfl, pending, unsaved⟩ := wrote claims
    rw [Label.claims, Option.any_eq_true] at claims
    obtain ⟨row, found, -⟩ := claims
    obtain rfl : row.id = paymentId := Table.find_key found
    refine ⟨row.update data, payment_of_updated found rfl, booked row found, ?_, ?_⟩
    · simp [Payment.update, unsaved]
    · simp [Payment.update, pending]

end Rows

/-! ### The invariant of a run -/

/-- A claimant at work has made the latest claim, and its row is as it left it; an order id in
a row is that of an order which the latest claimant has created. -/
structure ClaimsKept (p : PaymentPool) (journal : List (Entry Label Db Op)) : Prop where
  working : ∀ i paymentId bookingId, workingFor p i = some bookingId →
    claimOpen (ownTrace journal i) paymentId = true →
      latestClaimant journal paymentId = some i ∧
        ∃ row, p.db.payment paymentId = some row ∧ ClaimHeld bookingId row
  created : ∀ paymentId row orderId, p.db.payment paymentId = some row →
    row.razorpayOrderId = some orderId → ∃ i d, latestClaimant journal paymentId = some i ∧
      (.orderCreated row.bookingId, d) ∈ ownTrace journal i ∧ d.orders.length = orderId

/-- What is known of an event by which call `j` issues a statement. -/
structure OrderStep (p q : PaymentPool) (journal : List (Entry Label Db Op)) (j : Nat) (op : Op)
    (ℓ : Label) : Prop where
  change : PaymentsChange j ℓ p.db q.db
  asserted : ∃ ws, q.db = applyAll ws p.db ∧ orderAssertion op ℓ (ownTrace journal j) p.db ws
  working : ∀ bookingId, op.ordersFor = some bookingId → workingFor p j = some bookingId
  spared : ∀ paymentId, ℓ.fails = some paymentId → ∀ i bookingId, workingFor p i = some bookingId →
    claimOpen (ownTrace journal i) paymentId = true → q.db = p.db
  after : ∀ i bookingId, workingFor q i = some bookingId →
    ownTrace journal i = [] ∨ workingFor p i = some bookingId
  same : ∀ bookingId, workingFor q j = some bookingId → op.ordersFor = some bookingId

theorem claimOpen_of_closes {bookingId paymentId : Id} {ℓ : Label} {seen : List (Label × Db)}
    {d : Db} {ws : List Write} (issued : orderStatement bookingId ℓ seen d ws)
    (closes : ℓ.closes paymentId = true) :
    claimOpen seen paymentId = true ∧ ℓ.ordering = true := by
  cases ℓ with
  | orderSaved id orderId =>
    obtain rfl := of_decide_eq_true closes
    exact ⟨issued.1, rfl⟩
  | orderFailed id =>
    obtain rfl := of_decide_eq_true closes
    exact ⟨issued, rfl⟩
  | _ => cases closes

namespace OrderStep

variable {p q : PaymentPool} {journal : List (Entry Label Db Op)} {i j : Nat} {op : Op} {ℓ : Label}
  {paymentId bookingId : Id}

/-- Another call's statement under a label of order creation writes nothing. -/
theorem idle (step : OrderStep p q journal j op ℓ) (other : op.ordersFor = none)
    (orders : ℓ.ordering = true) : q.db = p.db := by
  obtain ⟨ws, after, asserted⟩ := step.asserted
  rw [orderAssertion, other] at asserted
  rcases asserted with rfl | unordering
  · exact after
  · rw [orders] at unordering
    cases unordering

theorem unclaimed (kept : ClaimsKept p journal) (working : workingFor p i = some bookingId)
    (isOpen : claimOpen (ownTrace journal i) paymentId = true) :
    claimsPayment paymentId ⟨j, op, ℓ, p.db⟩ = false := by
  obtain ⟨-, row, found, held⟩ := kept.working i paymentId bookingId working isOpen
  refine Bool.eq_false_iff.mpr fun claims => ?_
  rw [claimsPayment, Bool.and_eq_true] at claims
  exact held.unfailed (unclaimed_of_claimsOn claims.2 found)

/-- The row of a claimant at work, unless the statement is the one that ends its claim. -/
theorem claimHeld (step : OrderStep p q journal j op ℓ) (kept : ClaimsKept p journal)
    (working : workingFor p i = some bookingId)
    (isOpen : claimOpen (ownTrace journal i) paymentId = true)
    (stays : i = j → ℓ.closes paymentId = false) :
    ∃ row, q.db.payment paymentId = some row ∧ ClaimHeld bookingId row := by
  obtain ⟨mine, row, found, held⟩ := kept.working i paymentId bookingId working isOpen
  by_cases same : q.db = p.db
  · exact ⟨row, by rw [same]; exact found, held⟩
  refine step.change.claimHeld found held (Bool.eq_false_iff.mpr fun closes => ?_) fun fails =>
    same (step.spared paymentId fails i bookingId working isOpen)
  -- a claim is only closed by its own claimant, which is the latest
  obtain ⟨ws, -, asserted⟩ := step.asserted
  cases orders : op.ordersFor with
  | none =>
    have ordering : ℓ.ordering = true := by
      cases ℓ <;> first | rfl | cases closes
    exact same (step.idle orders ordering)
  | some booked =>
    rw [orderAssertion, orders] at asserted
    obtain ⟨theirs, -⟩ := claimOpen_of_closes asserted closes
    obtain ⟨latest, -⟩ := kept.working j paymentId booked (step.working booked orders) theirs
    obtain rfl := Option.some.inj (mine.symm.trans latest)
    rw [stays rfl] at closes
    cases closes

theorem keeps (step : OrderStep p q journal j op ℓ) (kept : ClaimsKept p journal) :
    ClaimsKept q (journal ++ [⟨j, op, ℓ, p.db⟩]) := by
  constructor
  · intro i paymentId bookingId working isOpen
    rw [ownTrace_append] at isOpen
    by_cases mine : i = j
    · subst mine
      have orders := step.same bookingId working
      have before := step.working bookingId orders
      rw [ownTrace_self ⟨i, op, ℓ, p.db⟩] at isOpen
      obtain ⟨stays, isOpen⟩ := claimOpen_of_concat isOpen
      by_cases claims : claimsPayment paymentId ⟨i, op, ℓ, p.db⟩ = true
      · refine ⟨latestClaimant_claimed claims, ?_⟩
        rw [claimsPayment, Bool.and_eq_true] at claims
        obtain ⟨ws, after, asserted⟩ := step.asserted
        rw [orderAssertion, orders] at asserted
        rw [after]
        exact claimed_of_claimsOn claims.2 asserted
      · have unclaimed := Bool.eq_false_iff.mpr claims
        have isOpen : claimOpen (ownTrace journal i) paymentId = true := by
          refine isOpen.resolve_right fun claimsOn => claims ?_
          rw [claimsPayment, orders]
          exact claimsOn
        rw [latestClaimant_kept unclaimed]
        exact ⟨(kept.working i paymentId bookingId before isOpen).1,
          step.claimHeld kept before isOpen fun _ => stays⟩
    · rw [ownTrace_other (e := ⟨j, op, ℓ, p.db⟩) (Ne.symm mine), List.append_nil] at isOpen
      have before : workingFor p i = some bookingId := by
        refine (step.after i bookingId working).resolve_left fun unknown => ?_
        rw [unknown] at isOpen
        cases isOpen
      rw [latestClaimant_kept (unclaimed kept before isOpen)]
      exact ⟨(kept.working i paymentId bookingId before isOpen).1,
        step.claimHeld kept before isOpen fun same => absurd same mine⟩
  · intro paymentId row orderId found carries
    obtain ⟨old, stored, booked, source⟩ := step.change.ordered found carries
    obtain ⟨ws, after, asserted⟩ := step.asserted
    have unclaimed : claimsPayment paymentId ⟨j, op, ℓ, p.db⟩ = false := by
      refine Bool.eq_false_iff.mpr fun claims => ?_
      rw [claimsPayment, Bool.and_eq_true, Option.isSome_iff_exists] at claims
      obtain ⟨⟨_, orders⟩, claimsOn⟩ := claims
      -- the row of a claim carries no order
      rw [orderAssertion, orders] at asserted
      obtain ⟨row', found', held⟩ := claimed_of_claimsOn claimsOn asserted
      rw [← after, found] at found'
      obtain rfl := Option.some.inj found'
      rw [held.unsaved] at carries
      cases carries
    have earlier (carried : old.razorpayOrderId = some orderId) :
        ∃ i d, latestClaimant (journal ++ [⟨j, op, ℓ, p.db⟩]) paymentId = some i ∧
          (.orderCreated row.bookingId, d) ∈ ownTrace (journal ++ [⟨j, op, ℓ, p.db⟩]) i ∧
            d.orders.length = orderId := by
      obtain ⟨i, d, latest, created, numbered⟩ := kept.created paymentId old orderId stored carried
      rw [latestClaimant_kept unclaimed]
      refine ⟨i, d, latest, ?_, numbered⟩
      rw [ownTrace_append, ← booked]
      exact List.mem_append_left _ created
    rcases source with carried | rfl
    · exact earlier carried
    · cases orders : op.ordersFor with
      | none =>
        have same := step.idle orders rfl
        rw [same, stored] at found
        obtain rfl := Option.some.inj found
        exact earlier carries
      | some bookedFor =>
        rw [orderAssertion, orders] at asserted
        obtain ⟨isOpen, d, created, numbered⟩ := asserted
        obtain ⟨latest, row', found', held⟩ :=
          kept.working j paymentId bookedFor (step.working bookedFor orders) isOpen
        rw [latestClaimant_kept unclaimed]
        refine ⟨j, d, latest, ?_, numbered⟩
        obtain rfl := Option.some.inj (stored.symm.trans found')
        rw [ownTrace_append, ← booked, held.booked]
        exact List.mem_append_left _ created

end OrderStep

/-! ### In a run -/

/-- A run with its journal in which no payment is failed while its claimant is at work. -/
abbrev Spared (cfg : Config) : PaymentPool → List (Entry Label Db Op) → Prop :=
  Journaled cfg fun p journal e => sparesClaimants p journal e = true

theorem follows_of_journaled {cfg : Config}
    {ok : PaymentPool → List (Entry Label Db Op) → Event Op → Prop} {p : PaymentPool}
    {journal : List (Entry Label Db Op)} (records : Journaled cfg ok p journal) :
    Pool.Follows comesNext orderAssertion (fun _ _ _ _ => True) p journal :=
  records.follows rfl (fun _ _ i => comesNext_of_records i) (system_claims cfg)

section Runs

variable {cfg : Config} {p q : PaymentPool} {journal : List (Entry Label Db Op)}

theorem orderStep_of_event (records : Spared cfg p journal) {e : Event Op}
    (spared : sparesClaimants p journal e = true) (stepped : p.step (system cfg) e = some q) :
    (p.entry e = none ∧ q.db = p.db) ∨ ∃ j op ℓ, p.entry e = some ⟨j, op, ℓ, p.db⟩ ∧
      OrderStep p q journal j op ℓ := by
  have follows := follows_of_journaled records
  rcases follows.issued (fun i => comesNext_of_records i records) stepped with
    quiet | ⟨j, answer, ℓ, th, ws, rfl, found, live, label, entry, after, asserted⟩
  · exact Or.inl quiet
  refine Or.inr ⟨j, th.op, ℓ, entry, ?_, ⟨ws, after, asserted⟩, ?_, ?_, ?_, ?_⟩
  · -- the event commits what its label says
    have reachable : Reachable cfg p := records.reaches fun _ _ _ _ _ _ _ _ _ => trivial
    rcases commit_of_event (sound_of_runs reachable) stepped with
      same | ⟨i, answer', ℓ', vs, event, next, after', commit⟩
    · exact .same (congrArg Db.payments same)
    · cases event
      have next' : p.next j = some ℓ := by rw [Pool.next, found, Option.bind_some, label]
      obtain rfl := Option.some.inj (next.symm.trans next')
      rw [after']
      exact commit.payments
  · intro bookingId orders
    refine workingFor_iff.mpr ⟨th, found, live, ?_, orders⟩
    cases prog : th.prog with
    | ret a =>
      rw [prog] at label
      cases label
    | _ => rfl
  · intro paymentId fails i bookingId working isOpen
    have next : labelOf p (.run j answer) = some ℓ := by
      rw [labelOf, Pool.next, found, Option.bind_some, label]
    rw [Pool.published_of_step stepped, published_of_spared spared next fails working isOpen]
    rfl
  · intro i bookingId working
    rcases workingFor_of_step stepped working with rfl | before
    · exact Or.inl (ownTrace_eq_nil follows.known)
    · exact Or.inr before
  · intro bookingId working
    obtain ⟨th', found', -, -, orders⟩ := workingFor_iff.mp working
    obtain ⟨th'', found'', same⟩ := Pool.op_of_step stepped found
    obtain rfl := Option.some.inj (found'.symm.trans found'')
    rw [← same]
    exact orders

theorem claimsKept (records : Spared cfg p journal) : ClaimsKept p journal := by
  induction records with
  | refl =>
    refine ⟨fun i paymentId bookingId _ isOpen => ?_, fun paymentId row orderId found _ => ?_⟩
    · cases isOpen
    · cases found
  | @step p q journal e before spared stepped kept =>
    rcases orderStep_of_event before spared stepped with ⟨entry, same⟩ | ⟨j, op, ℓ, entry, step⟩
    · rw [entry, Option.toList_none, List.append_nil]
      refine ⟨fun i paymentId bookingId working isOpen => ?_, ?_⟩
      · rw [same]
        rcases workingFor_of_step stepped working with rfl | working
        · rw [ownTrace_eq_nil (follows_of_journaled before).known] at isOpen
          cases isOpen
        · exact kept.working i paymentId bookingId working isOpen
      · rw [same]
        exact kept.created
    · rw [entry, Option.toList_some]
      exact step.keeps kept

/-- The request of the call is on its way, or its answer is not recorded yet. -/
def Ordering (p : PaymentPool) (journal : List (Entry Label Db Op)) (i : Nat) (bookingId : Id) :
    Prop :=
  workingFor p i = some bookingId ∧ (p.next i = some (.orderCreated bookingId) ∨
    ∃ d, (ownTrace journal i).getLast? = some (.orderCreated bookingId, d))

/-- An order request is the only one of its call and follows a claim of the payment by this
call, two requests for a booking are never in progress at the same time, and an order id in a
row is that of an order which the call with the latest claim has created. -/
structure OneOrderPerClaim (p : PaymentPool) (journal : List (Entry Label Db Op)) : Prop where
  claimed : ∀ before e after bookingId, journal = before ++ e :: after →
    e.op.ordersFor = some bookingId → e.label.sends = true →
      e.label = .orderCreated bookingId ∧ (∀ s ∈ ownTrace before e.call, s.1.sends = false) ∧
        ∃ paymentId row, claimOpen (ownTrace before e.call) paymentId = true ∧
          e.store.payment paymentId = some row ∧ ClaimHeld bookingId row
  alone : ∀ i j bookingId, Ordering p journal i bookingId → Ordering p journal j bookingId → i = j
  created : ∀ paymentId row orderId, p.db.payment paymentId = some row →
    row.razorpayOrderId = some orderId → ∃ i d, latestClaimant journal paymentId = some i ∧
      (.orderCreated row.bookingId, d) ∈ ownTrace journal i ∧ d.orders.length = orderId

theorem request_claimed (records : Spared cfg p journal) {before after : List (Entry Label Db Op)}
    {e : Entry Label Db Op} {bookingId : Id} (split : journal = before ++ e :: after)
    (orders : e.op.ordersFor = some bookingId) (sends : e.label.sends = true) :
    e.label = .orderCreated bookingId ∧ (∀ s ∈ ownTrace before e.call, s.1.sends = false) ∧
      ∃ paymentId row, claimOpen (ownTrace before e.call) paymentId = true ∧
        e.store.payment paymentId = some row ∧ ClaimHeld bookingId row := by
  induction records generalizing after with
  | refl => cases before <;> cases split
  | @step p q journal event earlier spared stepped ih =>
    rcases Pool.split_concat split with ⟨rest, split⟩ | ⟨entry, rfl⟩
    · exact ih split
    rcases orderStep_of_event earlier spared stepped with ⟨none, -⟩ | ⟨j, op, ℓ, same, step⟩
    · rw [none] at entry
      cases entry
    · obtain rfl := Option.some.inj (entry.symm.trans same)
      obtain ⟨ws, -, asserted⟩ := step.asserted
      rw [orderAssertion, show op.ordersFor = some bookingId from orders] at asserted
      cases ℓ with
      | orderCreated booked =>
        obtain ⟨rfl, unsent, paymentId, isOpen⟩ := asserted
        obtain ⟨-, row, found, held⟩ :=
          (claimsKept earlier).working j paymentId booked (step.working booked orders) isOpen
        exact ⟨rfl, unsent, paymentId, row, isOpen, found, held⟩
      | _ => cases sends

/-- A call whose order request is in progress has an open claim. -/
theorem claimOpen_of_ordering {ok : PaymentPool → List (Entry Label Db Op) → Event Op → Prop}
    (records : Journaled cfg ok p journal) {i : Nat} {bookingId : Id}
    (ordering : Ordering p journal i bookingId) :
    ∃ paymentId, claimOpen (ownTrace journal i) paymentId = true := by
  have follows := follows_of_journaled records
  obtain ⟨working, next | ⟨d, last⟩⟩ := ordering
  all_goals obtain ⟨th, found, live, -, orders⟩ := workingFor_iff.mp working
  · rw [Pool.next, found, Option.bind_some] at next
    obtain ⟨ws, asserted⟩ := Prog.traced_label next (comesNext_of_records i records)
      (follows.calls i th found (Or.inl live))
    rw [orderAssertion, orders] at asserted
    exact asserted.2.2
  · obtain ⟨before, op, after, split, own⟩ := split_of_last last
    obtain ⟨th', found', same⟩ := records.caller ⟨i, op, .orderCreated bookingId, d⟩ (by simp [split])
    obtain rfl := Option.some.inj (found.symm.trans found')
    obtain ⟨ws, asserted⟩ := follows.asserted before _ after split
    rw [orderAssertion, ← same, orders] at asserted
    obtain ⟨-, -, paymentId, isOpen⟩ := asserted
    exact ⟨paymentId, by rw [own]; exact claimOpen_concat isOpen rfl⟩

/-- In every run of order creations, webhooks, reconciliations, refunds and whatever else the
provider and the marketplace do, with crashes at any point: as long as no FAILED transition of
a webhook or of a reconciliation hits a payment whose claimant is at work, there is one order
request for each claim. -/
theorem one_order_per_claim (records : Spared cfg p journal) : OneOrderPerClaim p journal := by
  have kept := claimsKept records
  refine ⟨fun _ _ _ _ split => request_claimed records split, ?_, kept.created⟩
  intro i j bookingId first second
  obtain ⟨paymentId, isOpen⟩ := claimOpen_of_ordering records first
  obtain ⟨paymentId', isOpen'⟩ := claimOpen_of_ordering records second
  obtain ⟨latest, row, found, held⟩ := kept.working i paymentId bookingId first.1 isOpen
  obtain ⟨latest', row', found', held'⟩ := kept.working j paymentId' bookingId second.1 isOpen'
  have reachable : Reachable cfg p := records.reaches fun _ _ _ _ _ _ _ _ _ => trivial
  -- a booking has one payment
  have bookings := (wf_of_runs reachable).bookings
  have stored := Table.find_of_mem bookings (Table.mem_of_find found)
  have stored' := Table.find_of_mem bookings (Table.mem_of_find found')
  rw [held.booked] at stored
  rw [held'.booked] at stored'
  obtain rfl := Option.some.inj (stored.symm.trans stored')
  obtain rfl : paymentId = paymentId' := (Table.find_key found).symm.trans (Table.find_key found')
  exact Option.some.inj (latest.symm.trans latest')

end Runs

/-- The run of a schedule whose events spare the claimants. -/
def spared (moves : List (Pool.Move Op)) : PaymentPool × List (Entry Label Db Op) :=
  Pool.record (system {}) (fun p journal e => sparesClaimants p journal e = true) 60 (start, []) moves

theorem spared_records (moves : List (Pool.Move Op)) :
    Spared {} (spared moves).1 (spared moves).2 :=
  Pool.Records.record (r := (start, [])) .refl 60 moves

/-- The paid booking: its row carries the one order that was created for it. -/
theorem one_order_per_claim_sample :
    ((spared paid).1.db.payment 1).map Payment.razorpayOrderId = some (some 0) ∧
      latestClaimant (spared paid).2 1 = some 1 ∧ OneOrderPerClaim (spared paid).1 (spared paid).2 :=
  ⟨by decide +kernel, by decide +kernel,
    one_order_per_claim (spared_records paid)⟩

/-- A webhook fails the payment of an abandoned order and a customer's call claims it again,
while a reconciliation that has read the row before is about to fail it: it fails the new claim,
and a third call sends an order request next to the second. -/
theorem two_orders_at_once : ∃ p journal, Journaled {} (fun _ _ _ => True) p journal ∧
    ¬ OneOrderPerClaim p journal := by
  let order : Op := .createOrder 1 7 2 (.replied true 500 "INR".toList)
  let statement (i : Nat) : Pool.Move Op := .event (.run i true)
  let moves : List (Pool.Move Op) := paid.take 4 ++
    [.event (.spawn .tick), .drive 2 true,
     .event (.spawn (.moveOrder 0 .created 4)), .drive 3 true,
     .event (.spawn (.reconcileStalePayments 0)), statement 4, statement 4, statement 4,
     .event (.spawn (.handleWebhook { event := "payment.failed".toList
                                      payment := some { id := some 9, orderId := some 0
                                                        amount := some 500
                                                        currency := some "INR".toList } })),
     .drive 5 true,
     .event (.spawn order), statement 6, statement 6, statement 6, statement 6,
     .drive 4 true,
     .event (.spawn order), statement 7, statement 7, statement 7, statement 7]
  have ordering : ∀ i ∈ [6, 7], workingFor (journaled moves).1 i = some 1 ∧
      (journaled moves).1.next i = some (.orderCreated 1) := by decide +kernel
  refine ⟨_, _, journaled_records moves, fun orders => ?_⟩
  obtain ⟨working, next⟩ := ordering 6 (by simp)
  obtain ⟨working', next'⟩ := ordering 7 (by simp)
  exact nomatch orders.alone 6 7 1 ⟨working, Or.inl next⟩ ⟨working', Or.inl next'⟩

end LabourBaba.Payments
