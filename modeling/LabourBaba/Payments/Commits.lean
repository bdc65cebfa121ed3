import LabourBaba.Payments.System

/-!
# What a payment statement may commit

One constructor of `Commit` for each kind of commit: its label, its writes, and what holds
of the committed store at that instant. `Move`, `Claiming` and `Recording` say which row a
statement may find and which columns it sets; what a call has read before without a lock is
not among the facts. The calls keep to `protocol`: its invariant is that rows are unique and
carry only orders placed for their booking, and a call may count on its own refund attempt.
-/
namespace LabourBaba.Payments

open Store
open Market (Id Text)

/-! ### What no write undoes -/

/-- The order was created for the booking. -/
def Db.placed (d : Db) (orderId bookingId : Id) : Prop :=
  ∃ order, d.order orderId = some order ∧ order.bookingId = bookingId

structure Later (d d' : Db) : Prop where
  payments : Table.Evolves Payment.core d.payments d'.payments
  events : Table.Evolves WebhookEvent.id d.events d'.events
  captures : Table.Evolves (fun c : ProviderPayment => (c.id, c.orderId)) d.captures d'.captures
  orders : ∀ id bookingId, d.placed id bookingId → d'.placed id bookingId

namespace Later

theorem refl (d : Db) : Later d d := ⟨.refl _, .refl _, .refl _, fun _ _ placed => placed⟩

theorem trans {d d' d'' : Db} (first : Later d d') (second : Later d' d'') : Later d d'' where
  payments := first.payments.trans second.payments
  events := first.events.trans second.events
  captures := first.captures.trans second.captures
  orders id bookingId placed := second.orders id bookingId (first.orders id bookingId placed)

theorem write (w : Write) (d : Db) : Later d (w.apply d) := by
  have same := refl d
  cases w with
  | insertPayment p => exact { same with payments := .of_insert _ _ }
  | updatePayment id data => exact { same with payments := .of_modify _ _ fun _ => rfl }
  | insertEvent e => exact { same with events := .of_insert _ _ }
  | updateEvent id status reason => exact { same with events := .of_modify _ _ fun _ => rfl }
  | createOrder o =>
    refine { same with orders := ?_ }
    rintro id bookingId ⟨order, found, booked⟩
    have below := (List.getElem?_eq_some_iff.mp found).1
    exact ⟨order, (List.getElem?_append_left below).trans found, booked⟩
  | moveOrder n status attempts =>
    refine { same with orders := ?_ }
    rintro id bookingId ⟨order, found, booked⟩
    refine ⟨if n = id then order.move status attempts else order, ?_, ?_⟩
    · have stored : d.orders[id]? = some order := found
      simp only [Db.order, Write.apply, List.getElem?_modify, stored]
      split <;> rfl
    · split <;> exact booked
  | takePayment p => exact { same with captures := .of_insert _ _ }
  | acceptRefund n answer => exact { same with captures := .of_modify _ _ fun _ => rfl }
  | outbox | putBooking | claimRefund | sendRefund | rejectRefund | recordRefund | tick =>
    exact { same with }

theorem applyAll (ws : List Write) (d : Db) : Later d (applyAll ws d) := by
  induction ws generalizing d with
  | nil => exact refl d
  | cons w ws ih => exact (write w d).trans (ih _)

variable {d d' : Db}

theorem payment {id : Id} {p : Payment} (later : Later d d') (found : d.payment id = some p) :
    ∃ p', d'.payment id = some p' ∧ p'.bookingId = p.bookingId := by
  obtain ⟨p', found', same⟩ := later.payments.find Payment.id Prod.fst (fun _ => rfl) found
  exact ⟨p', found', congrArg Prod.snd same⟩

theorem event {id : EventId} (later : Later d d') (found : (d.event id).isSome) :
    (d'.event id).isSome := by
  obtain ⟨e, found⟩ := Option.isSome_iff_exists.mp found
  obtain ⟨e', found', -⟩ := later.events.find WebhookEvent.id (fun key => key) (fun _ => rfl) found
  exact Option.isSome_iff_exists.mpr ⟨e', found'⟩

theorem capture {id : Id} {c : ProviderPayment} (later : Later d d') (found : d.capture id = some c) :
    ∃ c', d'.capture id = some c' ∧ c'.orderId = c.orderId := by
  obtain ⟨c', found', same⟩ := later.captures.find ProviderPayment.id Prod.fst (fun _ => rfl) found
  exact ⟨c', found', congrArg Prod.snd same⟩

end Later

/-! ### Moves of a row -/

/-- What a statement other than the refund call's own finds in a row and sets. -/
inductive Move (d : Db) : Label → Payment → PaymentData → Prop
  | reclaimed {p : Payment} {amount : Option Int} {currency : Text} (failed : p.status = .FAILED) :
    Move d (.reclaimed p.id) p
      { status := some .PENDING, amount := some amount, currency := some currency
        razorpayOrderId := some none }
  | orderFailed {p : Payment} {reason : String} (unsaved : p.razorpayOrderId = none) :
    Move d (.orderFailed p.id) p
      { status := some .FAILED, quarantineReason := some (some reason) }
  | orderSaved {p : Payment} {order : RazorpayOrderResult}
      (placed : d.placed order.razorpayOrderId p.bookingId) :
    Move d (.orderSaved p.id order.razorpayOrderId) p (orderData order)
  | captured {p : Payment} {orderId captureId : Id} (pending : p.status = .PENDING)
      (placed : d.placed orderId p.bookingId) :
    Move d (.captured orderId captureId (.moved p.id)) p
      { status := some .COMPLETED, razorpayPaymentId := some (some captureId) }
  | mismatched {p : Payment} {orderId captureId : Id} {reason : String}
      (placed : d.placed orderId p.bookingId) :
    Move d (.captured orderId captureId (.quarantined p.id)) p
      { quarantineReason := some (some reason) }
  | failed {p : Payment} {orderId : Id} (pending : p.status = .PENDING) :
    Move d (.failed orderId (.moved p.id)) p { status := some .FAILED }
  | refunded {p : Payment} {captureId : Id} {refundId : Option Id} {amount : Option Int} :
    Move d (.refundEvent captureId (.moved p.id)) p
      { status := some .REFUNDED, razorpayRefundId := some refundId, refundAmount := some amount
        refundStatus := some (some "processed") }
  | enriched {p : Payment} {captureId : Id} {refundId : Option Id} {amount : Option Int} :
    Move d (.refundEvent captureId (.enriched p.id)) p
      { razorpayRefundId := some refundId, refundAmount := some amount
        refundStatus := some (some "processed") }
  | quarantined {p : Payment} {reason : String} :
    Move d (.quarantined p.id) p { quarantineReason := some (some reason) }
  | reconciled {p : Payment} {status : PaymentStatus} (pending : p.status = .PENDING)
      (outcome : status = .COMPLETED ∨ status = .FAILED) :
    Move d (.reconciled p.id status) p { status := some status }
  | refundReconciled {p : Payment} {amount : Option Int} {status : String} :
    Move d (.refundReconciled p.id) p
      { status := some .REFUNDED, refundAmount := some amount, refundStatus := some (some status) }

/-- The two claims of a refund. -/
inductive Claiming : Label → Payment → PaymentData → Prop
  | normal {p : Payment} {reason : String} (source : p.status ∈ [.COMPLETED, .REFUND_FAILED]) :
    Claiming (.refundClaimed p.id) p
      { status := some .REFUND_PENDING, refundReason := some (some reason) }
  | retry {p : Payment} {reason : String} (source : p.status ∈ [.REFUND_UNKNOWN, .REFUND_PENDING]) :
    Claiming (.refundReclaimed p.id) p
      { status := some .REFUND_PENDING, refundReason := some (some reason) }

/-- How a refund call records the end of its attempt: a definite failure is only recorded of
a request that was not sent. -/
inductive Recording (a : RefundAttempt) : Label → Payment → PaymentData → Prop
  | settled {p : Payment} {refund : RazorpayRefundResult} :
    Recording a (.refundSettled p.id) p
      { status := some .REFUNDED, razorpayRefundId := some (some refund.razorpayRefundId)
        refundAmount := some (some refund.amount), refundStatus := some (some refund.status) }
  | failed {p : Payment} {status : PaymentStatus} {reason : String}
      (outcome : status = .REFUND_UNKNOWN ∨ status = .REFUND_FAILED ∧ a.state = .claimed) :
    Recording a (.refundFailed p.id status) p
      { status := some status, refundReason := some (some reason) }

/-! ### Commits -/

/-- Writes to neither the payments nor the attempts. -/
def Write.plain : Write → Bool
  | .insertPayment _ | .updatePayment _ _ | .claimRefund _ | .sendRefund _ | .acceptRefund _ _
  | .rejectRefund _ _ | .recordRefund _ => false
  | _ => true

/-- The event of a captured payment is only claimed by the delivery of that payment. -/
def Label.Claims (ℓ : Label) (ws : List Write) : Prop :=
  ∀ e captureId, .insertEvent e ∈ ws → e.id = .payment captureId →
    ∃ orderId result, ℓ = .captured orderId captureId result

/-- A delivery that says it changed the payment does change it. -/
def Label.Idle : Label → Prop
  | .captured _ _ (.moved _) | .captured _ _ (.quarantined _) => False
  | _ => True

inductive Commit (i : Nat) (d : Db) : Label → List Write → Prop
  | plain {ℓ : Label} {ws : List Write} (still : ∀ w ∈ ws, w.plain = true) (claims : ℓ.Claims ws)
      (idle : ℓ.Idle) : Commit i d ℓ ws
  | inserted {p : Payment} (pending : p.status = .PENDING) (unplaced : p.razorpayOrderId = none)
      (fresh : ∀ old ∈ d.payments, p.clash old = false) :
    Commit i d (.intended p.id p.bookingId) [.insertPayment p]
  | moved {ℓ : Label} {p : Payment} {data : PaymentData} {before after : List Write}
      (found : d.payment p.id = some p) (move : Move d ℓ p data)
      (still : ∀ w ∈ before ++ after, w.plain = true) (claims : ℓ.Claims (before ++ after)) :
    Commit i d ℓ (before ++ .updatePayment p.id data :: after)
  | claimed {ℓ : Label} {p : Payment} {data : PaymentData} {a : RefundAttempt}
      (found : d.payment p.id = some p) (claiming : Claiming ℓ p data) (mine : a.call = i)
      (named : a.paymentId = p.id) (fresh : a.state = .claimed ∧ a.recorded = false) :
    Commit i d ℓ [.updatePayment p.id data, .claimRefund a]
  | sent {n : Nat} {a : RefundAttempt} (attempt : d.attempt n = some a) (mine : a.call = i)
      (fresh : a.state = .claimed ∧ a.recorded = false) :
    Commit i d (.refundSent a.paymentId) [.sendRefund n]
  | accepted {n : Nat} {answer : RefundAnswer} : Commit i d .provider [.acceptRefund n answer]
  | rejected {n : Nat} {description : String} : Commit i d .provider [.rejectRefund n description]
  | recorded {ℓ : Label} {p : Payment} {data : PaymentData} {n : Nat} {a : RefundAttempt}
      {after : List Write} (found : d.payment p.id = some p) (attempt : d.attempt n = some a)
      (mine : a.call = i) (named : a.paymentId = p.id) (unrecorded : a.recorded = false)
      (recording : Recording a ℓ p data) (still : ∀ w ∈ after, w.plain = true)
      (claims : ℓ.Claims after) :
    Commit i d ℓ (.updatePayment p.id data :: .recordRefund n :: after)

theorem plain_applyAll {ws : List Write} (still : ∀ w ∈ ws, w.plain = true) (d : Db) :
    (applyAll ws d).payments = d.payments ∧ (applyAll ws d).attempts = d.attempts := by
  induction ws generalizing d with
  | nil => exact ⟨rfl, rfl⟩
  | cons w ws ih =>
    obtain ⟨payments, attempts⟩ :=
      ih (fun v member => still v (List.mem_cons_of_mem _ member)) (w.apply d)
    have quiet := still w List.mem_cons_self
    rw [applyAll_cons, write_eq_apply, payments, attempts]
    cases w <;> first | exact ⟨rfl, rfl⟩ | cases quiet

/-- One update of a payment among writes that touch neither payments nor attempts. -/
theorem moved_applyAll {before after : List Write} {id : Id} {data : PaymentData}
    (still : ∀ w ∈ before ++ after, w.plain = true) (d : Db) :
    (applyAll (before ++ .updatePayment id data :: after) d).payments =
        Table.modify Payment.id d.payments [id] (Payment.update data) ∧
      (applyAll (before ++ .updatePayment id data :: after) d).attempts = d.attempts := by
  obtain ⟨payments, attempts⟩ :=
    plain_applyAll (fun w member => still w (List.mem_append_left _ member)) d
  obtain ⟨payments', attempts'⟩ := plain_applyAll
    (fun w member => still w (List.mem_append_right _ member))
    (write (.updatePayment id data : Write) (applyAll before d))
  rw [applyAll_append, applyAll_cons, payments', attempts']
  exact ⟨by simp only [write_eq_apply, Write.apply, payments], attempts⟩

/-- The update that ends an attempt, before writes that touch neither. -/
theorem recorded_applyAll {after : List Write} {id : Id} {data : PaymentData} {n : Nat}
    (still : ∀ w ∈ after, w.plain = true) (d : Db) :
    (applyAll (.updatePayment id data :: .recordRefund n :: after) d).payments =
        Table.modify Payment.id d.payments [id] (Payment.update data) ∧
      (applyAll (.updatePayment id data :: .recordRefund n :: after) d).attempts =
        d.attempts.modify n RefundAttempt.record := by
  rw [applyAll_cons, applyAll_cons]
  exact plain_applyAll still _

/-- What a commit does to the payments: nothing, a new row, or one update. -/
inductive PaymentsChange (i : Nat) (ℓ : Label) (d d' : Db) : Prop
  | same (same : d'.payments = d.payments)
  | inserted (p : Payment) (pending : p.status = .PENDING) (unplaced : p.razorpayOrderId = none)
      (fresh : ∀ old ∈ d.payments, p.clash old = false) (after : d'.payments = d.payments ++ [p])
  | updated (p : Payment) (data : PaymentData) (found : d.payment p.id = some p)
      (kind : Move d ℓ p data ∨ Claiming ℓ p data ∨ ∃ a, Recording a ℓ p data)
      (after : d'.payments = Table.modify Payment.id d.payments [p.id] (Payment.update data))

theorem Commit.payments {i : Nat} {d : Db} {ℓ : Label} {ws : List Write}
    (commit : Commit i d ℓ ws) : PaymentsChange i ℓ d (applyAll ws d) := by
  cases commit with
  | plain still => exact .same (plain_applyAll still d).1
  | @inserted p pending unplaced fresh =>
    exact .inserted p pending unplaced fresh (Table.insert_of_free fresh)
  | @moved _ p data before after found move still =>
    exact .updated p data found (.inl move) (moved_applyAll still d).1
  | @claimed _ p data _ found claiming => exact .updated p data found (.inr (.inl claiming)) rfl
  | sent => exact .same rfl
  | accepted => exact .same rfl
  | rejected => exact .same rfl
  | @recorded _ p data _ a after found _ _ _ _ recording still =>
    exact .updated p data found (.inr (.inr ⟨a, recording⟩)) (recorded_applyAll still d).1

/-! ### The invariant -/

structure Wf (d : Db) : Prop where
  ids : Table.Unique Payment.id d.payments
  bookings : Table.Unique Payment.bookingId d.payments
  placed : ∀ p ∈ d.payments, ∀ orderId, p.razorpayOrderId = some orderId →
    d.placed orderId p.bookingId

theorem Wf.empty : Wf {} := ⟨List.nodup_nil, List.nodup_nil, by simp⟩

/-- An update stores an order id only if the order was placed for the booking. -/
theorem placed_update {d : Db} {ℓ : Label} {p : Payment} {data : PaymentData} {orderId : Id}
    (kind : Move d ℓ p data ∨ Claiming ℓ p data ∨ ∃ a, Recording a ℓ p data)
    (carries : (p.update data).razorpayOrderId = some orderId) :
    p.razorpayOrderId = some orderId ∨ d.placed orderId p.bookingId := by
  rcases kind with move | claiming | ⟨a, recording⟩
  · cases move with
    | reclaimed => cases carries
    | orderSaved placed =>
      obtain rfl := Option.some.inj carries
      exact Or.inr placed
    | _ => exact Or.inl carries
  · cases claiming <;> exact Or.inl carries
  · cases recording <;> exact Or.inl carries

theorem Commit.keepsWf {i : Nat} {d : Db} {ℓ : Label} {ws : List Write} (wf : Wf d)
    (commit : Commit i d ℓ ws) : Wf (applyAll ws d) := by
  have later := Later.applyAll ws d
  cases commit.payments with
  | same same =>
    refine ⟨same ▸ wf.ids, same ▸ wf.bookings, fun p member orderId carries => ?_⟩
    exact later.orders _ _ (wf.placed p (same ▸ member) orderId carries)
  | inserted p pending unplaced fresh after =>
    have insertion := after.trans (Table.insert_of_free fresh).symm
    refine ⟨?_, ?_, fun q member orderId carries => ?_⟩
    · rw [insertion]
      exact Table.unique_insert p (fun old same => by simp [Payment.clash, same]) wf.ids
    · rw [insertion]
      exact Table.unique_insert p (fun old same => by simp [Payment.clash, same]) wf.bookings
    · rw [after] at member
      rcases List.mem_append.mp member with member | member
      · exact later.orders _ _ (wf.placed q member orderId carries)
      · rw [List.mem_singleton.mp member, unplaced] at carries
        cases carries
  | updated p data found kind after =>
    refine ⟨?_, ?_, fun q member orderId carries => ?_⟩
    · rw [after]
      exact Table.unique_modify _ _ (fun _ => rfl) wf.ids
    · rw [after, Table.Unique, Table.map_modify]
      · exact wf.bookings
      · exact fun _ => rfl
    · rw [after] at member
      obtain ⟨old, stored, rfl⟩ := Table.mem_modify.mp member
      refine later.orders _ _ ?_
      split at carries
      next named =>
        obtain rfl := Table.eq_of_find wf.ids found stored (List.mem_singleton.mp named)
        rw [if_pos named]
        exact (placed_update kind carries).elim (wf.placed old stored orderId) id
      next other =>
        rw [if_neg other]
        exact wf.placed old stored orderId carries

/-! ### The protocol -/

/-- A call's own attempt, while others act: only the provider's decision may move it. -/
def KeepsAttempts (me : Nat) (d d' : Db) : Prop :=
  ∀ n a, d.attempt n = some a → a.call = me →
    ∃ a', d'.attempt n = some a' ∧ a'.call = me ∧ a'.paymentId = a.paymentId ∧
      a'.recorded = a.recorded ∧ (a'.state = .claimed ↔ a.state = .claimed)

theorem KeepsAttempts.of_same {me : Nat} {d d' : Db} (same : d'.attempts = d.attempts) :
    KeepsAttempts me d d' := by
  intro n a found mine
  refine ⟨a, ?_, mine, rfl, rfl, Iff.rfl⟩
  rwa [Db.attempt, same]

/-- A statement that touches one attempt only, which is another call's or moved by a decision. -/
theorem KeepsAttempts.of_modify {me : Nat} {d d' : Db} {n : Nat} {f : RefundAttempt → RefundAttempt}
    (after : d'.attempts = d.attempts.modify n f)
    (keeps : ∀ a, d.attempt n = some a → a.call = me → (f a).call = me ∧
      (f a).paymentId = a.paymentId ∧ (f a).recorded = a.recorded ∧
      ((f a).state = .claimed ↔ a.state = .claimed)) : KeepsAttempts me d d' := by
  intro m a found mine
  have stored : d.attempts[m]? = some a := found
  simp only [Db.attempt, after, List.getElem?_modify, stored]
  by_cases hit : n = m
  · subst hit
    exact ⟨f a, by simp, keeps a found mine⟩
  · exact ⟨a, by simp [hit], mine, rfl, rfl, Iff.rfl⟩

theorem decide_keeps (state : AttemptState) (decided : state ≠ .claimed) (a : RefundAttempt) :
    (a.decide state).call = a.call ∧ (a.decide state).paymentId = a.paymentId ∧
      (a.decide state).recorded = a.recorded ∧
      ((a.decide state).state = .claimed ↔ a.state = .claimed) := by
  simp only [RefundAttempt.decide]
  split
  next flying => simp [flying, decided]
  next => simp

theorem Commit.keepsAttempts {i j : Nat} {d : Db} {ℓ : Label} {ws : List Write} (differ : i ≠ j)
    (commit : Commit i d ℓ ws) : KeepsAttempts j d (applyAll ws d) := by
  cases commit with
  | plain still => exact .of_same (plain_applyAll still d).2
  | inserted => exact .of_same rfl
  | moved _ _ still => exact .of_same (moved_applyAll still d).2
  | @claimed _ _ _ a =>
    intro n b found mine
    have below := (List.getElem?_eq_some_iff.mp found).1
    exact ⟨b, (List.getElem?_append_left below).trans found, mine, rfl, rfl, Iff.rfl⟩
  | @sent n a attempt mine =>
    have after : (applyAll [.sendRefund n] d).attempts = d.attempts.modify n RefundAttempt.send :=
      rfl
    refine .of_modify after fun b found other => ?_
    obtain rfl := Option.some.inj (attempt.symm.trans found)
    exact absurd (mine.symm.trans other) differ
  | @accepted n answer =>
    have after : (applyAll [.acceptRefund n answer] d).attempts =
        d.attempts.modify n (RefundAttempt.decide (.accepted answer)) := rfl
    refine .of_modify after fun a _ mine => ?_
    obtain ⟨call, rest⟩ := decide_keeps (.accepted answer) (by simp) a
    exact ⟨call.trans mine, rest⟩
  | @rejected n description =>
    have after : (applyAll [.rejectRefund n description] d).attempts =
        d.attempts.modify n (RefundAttempt.decide (.rejected description)) := rfl
    refine .of_modify after fun a _ mine => ?_
    obtain ⟨call, rest⟩ := decide_keeps (.rejected description) (by simp) a
    exact ⟨call.trans mine, rest⟩
  | @recorded _ p data n a after found attempt mine _ _ _ still =>
    refine .of_modify (recorded_applyAll still d).2 fun b found other => ?_
    obtain rfl := Option.some.inj (attempt.symm.trans found)
    exact absurd (mine.symm.trans other) differ

def protocol : Protocol Label Db where
  inv := Wf
  pre _ _ := True
  guar i ℓ d d' := ∃ ws, d' = applyAll ws d ∧ Commit i d ℓ ws
  evo me d d' := Later d d' ∧ KeepsAttempts me d d'
  evo_refl _ d := ⟨.refl d, .of_same rfl⟩
  evo_trans := by
    rintro me d d' d'' ⟨later, keeps⟩ ⟨later', keeps'⟩
    refine ⟨later.trans later', fun n a found mine => ?_⟩
    obtain ⟨b, found', mine', named, recorded, state⟩ := keeps n a found mine
    obtain ⟨c, found'', mine'', named', recorded', state'⟩ := keeps' n b found' mine'
    exact ⟨c, found'', mine'', named'.trans named, recorded'.trans recorded, state'.trans state⟩
  guar_inv := by
    rintro i ℓ d _ wf ⟨ws, rfl, commit⟩
    exact commit.keepsWf wf
  guar_evo := by
    rintro i j ℓ d _ differ wf ⟨ws, rfl, commit⟩
    exact ⟨.applyAll ws d, commit.keepsAttempts differ⟩

instance : Protocol.Lax protocol := ⟨fun _ _ _ => trivial⟩

end LabourBaba.Payments
