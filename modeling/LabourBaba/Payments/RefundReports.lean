import LabourBaba.Payments.Footprints
import LabourBaba.Payments.Refunds

/-!
# Reported refunds

REFUNDED says that the provider has reported a refund of the payment: it accepted a request, it
shows one on its payment, or it delivered a webhook. It does not say how much was refunded, for a
refund of any amount ends in this status. The refunded amount is the provider's, and within the
payment's amount as long as the provider's is.
-/
namespace LabourBaba.Payments

open Store
open Market (Id Text)

/-! ### The setting -/

/-- The columns of a payment that no refund changes. -/
def Payment.sold (p : Payment) : Id × Option Id × Option Int := (p.id, p.razorpayPaymentId, p.amount)

/-- A refunded amount that is within the payment's. -/
def Payment.covers (p : Payment) (refunded : Int) : Prop := ∀ amount ∈ p.amount, refunded ≤ amount

instance (p : Payment) (refunded : Int) : Decidable (p.covers refunded) :=
  inferInstanceAs (Decidable (∀ amount ∈ p.amount, refunded ≤ amount))

/-- What the adapter reads from the answer of an accepted request. -/
def RefundAttempt.refunded (a : RefundAttempt) : Option Int :=
  match a.state with
  | .accepted answer => some ((amountOr (some answer.amount) a.amount).getD 0)
  | _ => none

/-- The provider refunds no more than the payment. -/
def Db.Bounded (d : Db) : Prop :=
  ∀ row ∈ d.payments,
    (∀ c ∈ d.captures, row.razorpayPaymentId = some c.id → row.covers c.amountRefunded) ∧
    ∀ a ∈ d.attempts, a.paymentId = row.id → ∀ refunded ∈ a.refunded, row.covers refunded

instance (d : Db) : Decidable d.Bounded :=
  inferInstanceAs (Decidable (∀ row ∈ d.payments, (∀ c ∈ d.captures, _ → _) ∧
    ∀ a ∈ d.attempts, _ → ∀ refunded ∈ a.refunded, _))

def refundEvents : List Text := ["refund.created".toList, "refund.processed".toList]

/-- Refunds and what the provider does about them, nothing that creates or completes a payment.
A webhook reports no more than the payment's amount. -/
def Op.Refunds (payments : List Payment) : Op → Prop
  | .createOrder .. | .reconcileStalePayments _ => False
  | .handleWebhook body => body.event ∈ refundEvents ∧ ∀ captureId ∈ body.razorpayPaymentId,
      ∀ row ∈ payments, row.razorpayPaymentId = some captureId →
      ∀ refunded ∈ body.refund.bind RefundEntity.amount, row.covers refunded
  | _ => True

instance (payments : List Payment) : (op : Op) → Decidable (op.Refunds payments)
  | .createOrder .. | .reconcileStalePayments _ => inferInstanceAs (Decidable False)
  | .handleWebhook body => inferInstanceAs (Decidable (body.event ∈ refundEvents ∧ ∀ _ ∈ _, _))
  | .refundPayment .. | .putBooking _ | .moveOrder .. | .takePayment _ | .acceptRefund ..
  | .rejectRefund .. | .tick => inferInstanceAs (Decidable True)

/-- The provider has reported a refund of the payment. -/
inductive Reported (ops : Nat → Option Op) (d : Db) (row : Payment) : Prop
  | accepted {a : RefundAttempt} (member : a ∈ d.attempts) (named : a.paymentId = row.id)
      (accepted : a.isAccepted = true)
  | shown {c : ProviderPayment} (member : c ∈ d.captures) (named : row.razorpayPaymentId = some c.id)
      (shows : c.refundSeen = true)
  | delivered {i : Nat} {body : WebhookBody} {captureId : Id}
      (issued : ops i = some (.handleWebhook body)) (event : body.event ∈ refundEvents)
      (named : body.razorpayPaymentId = some captureId)
      (captured : row.razorpayPaymentId = some captureId)

/-- What is so of the payments `d` that refunds have left of the payments `d₀`. -/
structure RefundsSound (ops : Nat → Option Op) (d₀ d : Db) : Prop where
  sold : d.payments.map Payment.sold = d₀.payments.map Payment.sold
  covered : ∀ row ∈ d.payments, ∀ refunded ∈ row.refundAmount, row.covers refunded
  reported : ∀ row ∈ d.payments, row.status = .REFUNDED →
    (∃ old ∈ d₀.payments, old.id = row.id ∧ old.status = .REFUNDED) ∨ Reported ops d row

/-! ### What refunds keep -/

/-- What the provider has reported stays reported, and the requests of some calls are not sent. -/
structure RefundsMove (kept : Nat → Prop) (d d' : Db) : Prop where
  attempts : ∀ n a, d.attempt n = some a → ∃ a', d'.attempt n = some a' ∧ a'.call = a.call ∧
    a'.paymentId = a.paymentId ∧ a'.amount = a.amount ∧
    (∀ answer, a.state = .accepted answer → a'.state = .accepted answer) ∧
    (kept a.call → a.state = .claimed → a'.state = .claimed)
  captures : ∀ c ∈ d.captures, c.refundSeen = true →
    ∃ c' ∈ d'.captures, c'.id = c.id ∧ c'.refundSeen = true

section Moves

variable {ops : Nat → Option Op} {kept : Nat → Prop} {d d' d'' d₀ : Db} {row row' : Payment}

theorem RefundsMove.of_same (attempts : d'.attempts = d.attempts) (captures : d'.captures = d.captures) :
    RefundsMove kept d d' := by
  refine ⟨fun n a found => ⟨a, ?_, rfl, rfl, rfl, fun _ same => same, fun _ same => same⟩,
    fun c member shows => ⟨c, captures ▸ member, rfl, shows⟩⟩
  rwa [Db.attempt, attempts]

theorem RefundsMove.refl (d : Db) : RefundsMove kept d d := .of_same rfl rfl

theorem RefundsMove.trans (first : RefundsMove kept d d') (second : RefundsMove kept d' d'') :
    RefundsMove kept d d'' := by
  refine ⟨fun n a found => ?_, fun c member shows => ?_⟩
  · obtain ⟨b, found', call, named, amount, accepted, claimed⟩ := first.attempts n a found
    obtain ⟨c, found'', call', named', amount', accepted', claimed'⟩ := second.attempts n b found'
    refine ⟨c, found'', call'.trans call, named'.trans named, amount'.trans amount,
      fun answer same => accepted' answer (accepted answer same), fun mine same => ?_⟩
    exact claimed' (call ▸ mine) (claimed mine same)
  · obtain ⟨c', member', same, shows'⟩ := first.captures c member shows
    obtain ⟨c'', member'', same', shows''⟩ := second.captures c' member' shows'
    exact ⟨c'', member'', same'.trans same, shows''⟩

theorem Reported.moves (reported : Reported ops d row) (moves : RefundsMove kept d d') :
    Reported ops d' row := by
  cases reported with
  | @accepted a member named accepted =>
    obtain ⟨n, found⟩ := List.getElem?_of_mem member
    obtain ⟨a', found', -, named', -, kept, -⟩ := moves.attempts n a found
    refine .accepted (List.mem_of_getElem? found') (named'.trans named) ?_
    cases state : a.state with
    | accepted answer => simp [RefundAttempt.isAccepted, kept answer state]
    | _ => simp [RefundAttempt.isAccepted, state] at accepted
  | shown member named shows =>
    obtain ⟨c', member', same, shows'⟩ := moves.captures _ member shows
    exact .shown member' (named.trans (congrArg some same.symm)) shows'
  | delivered issued event named captured => exact .delivered issued event named captured

theorem Reported.of_sold (reported : Reported ops d row)
    (same : row'.sold = row.sold) : Reported ops d row' := by
  simp only [Payment.sold, Prod.mk.injEq] at same
  cases reported with
  | accepted member named accepted => exact .accepted member (named.trans same.1.symm) accepted
  | shown member named shows => exact .shown member (same.2.1.trans named) shows
  | delivered issued event named captured =>
    exact .delivered issued event named (same.2.1.trans captured)

/-- Nothing but a sent request takes an attempt out of what it is known to be. -/
theorem Write.refundsMove (w : Write) (unsent : ∀ n, w ≠ .sendRefund n) (d : Db) :
    RefundsMove kept d (w.apply d) := by
  have decides : ∀ n state, ∀ m a, d.attempt m = some a →
      ∃ a', (d.attempts.modify n (RefundAttempt.decide state))[m]? = some a' ∧ a'.call = a.call ∧
        a'.paymentId = a.paymentId ∧ a'.amount = a.amount ∧
        (∀ answer, a.state = .accepted answer → a'.state = .accepted answer) ∧
        (kept a.call → a.state = .claimed → a'.state = .claimed) := by
    intro n state m a found
    have stored : d.attempts[m]? = some a := found
    rw [List.getElem?_modify, stored]
    refine ⟨if n = m then a.decide state else a, rfl, ?_⟩
    split
    · simp only [RefundAttempt.decide]
      split
      next flying => simp [flying]
      next => simp
    · simp
  cases w with
  | sendRefund n => exact absurd rfl (unsent n)
  | claimRefund a =>
    refine ⟨fun n b found => ⟨b, ?_, rfl, rfl, rfl, fun _ same => same, fun _ same => same⟩,
      fun c member shows => ⟨c, member, rfl, shows⟩⟩
    exact (List.getElem?_append_left (List.getElem?_eq_some_iff.mp found).1).trans found
  | takePayment p =>
    refine ⟨(RefundsMove.refl d).attempts, fun c member shows => ⟨c, ?_, rfl, shows⟩⟩
    exact Table.mem_insert_of_mem member
  | acceptRefund n answer =>
    refine ⟨decides n (.accepted answer), fun c member shows => ?_⟩
    refine ⟨if c.id ∈ d.requested n then c.refund answer.amount else c,
      Table.mem_modify.mpr ⟨c, member, rfl⟩, ?_, ?_⟩
    · split <;> rfl
    · split
      · -- a payment that is refunded in full or in part shows it
        simp only [ProviderPayment.refundSeen, ProviderPayment.refund, Bool.or_eq_true]
        right
        split <;> simp
      · exact shows
  | rejectRefund n description =>
    exact ⟨decides n (.rejected description), (RefundsMove.refl d : RefundsMove kept d d).captures⟩
  | recordRefund n =>
    refine ⟨fun m a found => ?_, (RefundsMove.refl d : RefundsMove kept d d).captures⟩
    have stored : d.attempts[m]? = some a := found
    refine ⟨if n = m then a.record else a, ?_, ?_⟩
    · simp only [Db.attempt, Write.apply, List.getElem?_modify, stored]
      rfl
    · split <;> simp [RefundAttempt.record]
  | _ => exact .of_same rfl rfl

/-- A write of a refund call or a refund webhook, or of the provider. -/
def Write.Reports (ops : Nat → Option Op) (d₀ d : Db) : Write → Prop
  | .insertPayment _ | .sendRefund _ => False
  | .updatePayment id data => data.razorpayPaymentId = none ∧ data.amount = none ∧
      ∀ row ∈ d₀.payments, row.id = id →
        (∀ refunded, data.refundAmount = some (some refunded) → row.covers refunded) ∧
        (data.status = some .REFUNDED → Reported ops d row)
  | _ => True

/-- What call `i` commits: such writes, or the request of its claimed attempt. -/
inductive RefundCommit (ops : Nat → Option Op) (d₀ : Db) (i : Nat) (d : Db) : List Write → Prop
  | writes {ws : List Write} (each : ∀ w ∈ ws, w.Reports ops d₀ d) : RefundCommit ops d₀ i d ws
  | sends {n : Nat} {a : RefundAttempt} (found : d.attempt n = some a) (mine : a.call = i)
      (fresh : a.state = .claimed) : RefundCommit ops d₀ i d [.sendRefund n]

theorem Write.Reports.unsent {w : Write} (reports : w.Reports ops d₀ d) : ∀ n, w ≠ .sendRefund n := by
  rintro n rfl
  exact reports

theorem moves_applyAll {ws : List Write} (unsent : ∀ w ∈ ws, ∀ n, w ≠ .sendRefund n) (d : Db) :
    RefundsMove kept d (applyAll ws d) := by
  induction ws generalizing d with
  | nil => exact .refl d
  | cons w ws ih =>
    have first : RefundsMove kept d (w.apply d) := w.refundsMove (unsent w List.mem_cons_self) d
    exact first.trans (ih (fun v member => unsent v (List.mem_cons_of_mem _ member)) _)

/-- A call sends its own request only. -/
theorem RefundCommit.moves {ws : List Write} {i : Nat} (commit : RefundCommit ops d₀ i d ws)
    (other : ¬ kept i) : RefundsMove kept d (applyAll ws d) := by
  cases commit with
  | writes each => exact moves_applyAll (fun w member => (each w member).unsent) d
  | @sends n a found mine fresh =>
    refine ⟨fun m b found' => ?_, fun c member shows => ⟨c, member, rfl, shows⟩⟩
    have stored : d.attempts[m]? = some b := found'
    refine ⟨if n = m then b.send else b, ?_, ?_⟩
    · simp only [Db.attempt, applyAll_cons, applyAll_nil, write_eq_apply, Write.apply,
        List.getElem?_modify, stored]
      rfl
    · by_cases hit : n = m
      · subst hit
        obtain rfl := Option.some.inj (found.symm.trans found')
        have mine' : ¬ kept a.call := mine ▸ other
        simp [RefundAttempt.send, fresh, mine']
      · simp [hit]

theorem covers_of_sold {refunded : Int} (same : row'.sold = row.sold) :
    row'.covers refunded ↔ row.covers refunded := by
  have amounts : row'.amount = row.amount := congrArg (fun sold => sold.2.2) same
  simp only [Payment.covers, amounts]

/-- A payment is still the one it was at the start. -/
theorem RefundsSound.origin (sound : RefundsSound ops d₀ d) (member : row ∈ d.payments) :
    ∃ old ∈ d₀.payments, old.sold = row.sold := by
  have here : row.sold ∈ d.payments.map Payment.sold := List.mem_map_of_mem member
  rw [sound.sold] at here
  exact List.mem_map.mp here

theorem RefundsSound.write {w : Write} {e : Db} (sound : RefundsSound ops d₀ e)
    (moves : RefundsMove (fun _ => False) d e) (reports : w.Reports ops d₀ d) :
    RefundsSound ops d₀ (w.apply e) := by
  have moves' : RefundsMove (fun _ => False) e (w.apply e) := w.refundsMove reports.unsent e
  cases w with
  | updatePayment id data =>
    obtain ⟨capture, amount, rows⟩ := reports
    -- no update changes what was sold
    have keeps : ∀ row : Payment, (row.update data).sold = row.sold := fun row => by
      simp [Payment.sold, Payment.update, capture, amount]
    refine ⟨?_, fun row' member refunded written => ?_, fun row' member status => ?_⟩
    · exact (Table.map_modify _ _ _ _ keeps).trans sound.sold
    · obtain ⟨row, stored, rfl⟩ := Table.mem_modify.mp member
      by_cases named : row.id ∈ [id]
      · rw [if_pos named] at written ⊢
        obtain ⟨old, atStart, same⟩ := sound.origin stored
        have sameId : old.id = row.id := congrArg Prod.fst same
        rw [covers_of_sold (keeps row)]
        -- an update without an amount leaves the one that was covered before
        cases set : data.refundAmount with
        | none =>
          simp only [Payment.update, set, Option.getD_none] at written
          exact sound.covered row stored refunded written
        | some value =>
          simp only [Payment.update, set, Option.getD_some] at written
          obtain rfl := Option.mem_def.mp written
          have covers := (rows old atStart (sameId.trans (List.mem_singleton.mp named))).1 refunded set
          exact (covers_of_sold same).mp covers
      · rw [if_neg named] at written ⊢
        exact sound.covered row stored refunded written
    · obtain ⟨row, stored, rfl⟩ := Table.mem_modify.mp member
      have before : row.status = .REFUNDED →
          (∃ old ∈ d₀.payments, old.id = row.id ∧ old.status = .REFUNDED) ∨
            Reported ops (Write.apply (.updatePayment id data) e) row :=
        fun refunded => (sound.reported row stored refunded).imp_right fun shown => shown.moves moves'
      by_cases named : row.id ∈ [id]
      · rw [if_pos named] at status ⊢
        obtain ⟨old, atStart, same⟩ := sound.origin stored
        have sameId : old.id = row.id := congrArg Prod.fst same
        -- an update without a status leaves the payment refunded for the reason it had
        cases set : data.status with
        | none =>
          simp only [Payment.update, set, Option.getD_none] at status
          exact (before status).imp_right fun shown => shown.of_sold (keeps row)
        | some value =>
          simp only [Payment.update, set, Option.getD_some] at status
          have shown := (rows old atStart (sameId.trans (List.mem_singleton.mp named))).2
            (set.trans (congrArg some status))
          refine Or.inr ((shown.moves moves).moves moves' |>.of_sold ?_)
          exact (keeps row).trans same.symm
      · rw [if_neg named] at status ⊢
        exact before status
  | insertPayment | sendRefund => exact reports.elim
  | _ => exact ⟨sound.sold, sound.covered, fun row member status =>
      (sound.reported row member status).imp_right fun shown => shown.moves moves'⟩

theorem RefundsSound.writes {ws : List Write} {e : Db} (sound : RefundsSound ops d₀ e)
    (moves : RefundsMove (fun _ => False) d e) (each : ∀ w ∈ ws, w.Reports ops d₀ d) :
    RefundsSound ops d₀ (applyAll ws e) := by
  induction ws generalizing e with
  | nil => exact sound
  | cons w ws ih =>
    have reports := each w List.mem_cons_self
    exact ih (sound.write moves reports) (moves.trans (w.refundsMove reports.unsent e))
      fun v member => each v (List.mem_cons_of_mem _ member)

theorem RefundsSound.commit {ws : List Write} {i : Nat} (sound : RefundsSound ops d₀ d)
    (commit : RefundCommit ops d₀ i d ws) : RefundsSound ops d₀ (applyAll ws d) := by
  have moves : RefundsMove (fun _ => False) d (applyAll ws d) := commit.moves (not_false)
  cases commit with
  | writes each => exact sound.writes (.refl d) each
  | sends => exact ⟨sound.sold, sound.covered, fun row member status =>
      (sound.reported row member status).imp_right fun shown => shown.moves moves⟩

end Moves

/-- Refunds on a provider that refunds no more than the payment. -/
def refunding (ops : Nat → Option Op) (d₀ : Db) : Protocol Label Db where
  inv := RefundsSound ops d₀
  pre _ d := d.Bounded
  guar i _ d d' := ∃ ws, d' = applyAll ws d ∧ RefundCommit ops d₀ i d ws
  evo me := RefundsMove (· = me)
  evo_refl _ d := .refl d
  evo_trans _ _ _ _ first second := first.trans second
  guar_inv := by
    rintro i ℓ d _ sound ⟨ws, rfl, commit⟩
    exact sound.commit commit
  guar_evo := by
    rintro i j ℓ d _ differ - ⟨ws, rfl, commit⟩
    exact commit.moves differ

instance (ops : Nat → Option Op) (d₀ : Db) : (refunding ops d₀).Lax := ⟨fun _ _ _ => trivial⟩

/-! ### The calls -/

/-- What a call that has read a payment knows of it from then on. -/
structure Known (d₀ : Db) (p : Payment) : Prop where
  sold : ∀ row ∈ d₀.payments, row.id = p.id → row.sold = p.sold
  covered : ∀ refunded ∈ p.refundAmount, p.covers refunded

/-- The call's own attempt, not sent yet. -/
def Db.owns (d : Db) (me n : Nat) (attempt : RefundAttempt) : Prop :=
  ∃ a, d.attempt n = some a ∧ a.call = me ∧ a.paymentId = attempt.paymentId ∧
    a.amount = attempt.amount ∧ a.state = .claimed

/-- The provider has accepted the call's request. -/
def Db.granted (d : Db) (n : Nat) (attempt : RefundAttempt) (refunded : Int) : Prop :=
  ∃ a, d.attempt n = some a ∧ a.paymentId = attempt.paymentId ∧ a.isAccepted = true ∧
    a.refunded = some refunded

def Opened (me : Nat) (attempt : RefundAttempt) : Claim → Db → Prop
  | .claimed n, d => d.owns me n attempt
  | .answered _, _ => True

section Calls

variable {ops : Nat → Option Op} {d₀ d d' : Db} {me n : Nat} {p row : Payment}
  {attempt : RefundAttempt}

theorem RefundsSound.known (ids : Table.Unique Payment.id d₀.payments)
    (sound : RefundsSound ops d₀ d) (member : p ∈ d.payments) : Known d₀ p := by
  refine ⟨fun row atStart same => ?_, sound.covered p member⟩
  obtain ⟨old, atStart', same'⟩ := sound.origin member
  have sameId : old.id = p.id := congrArg Prod.fst same'
  obtain rfl := List.inj_on_of_nodup_map ids atStart' atStart (sameId.trans same.symm)
  exact same'

theorem RefundsSound.present (sound : RefundsSound ops d₀ d) (atStart : row ∈ d₀.payments) :
    ∃ now ∈ d.payments, now.sold = row.sold := by
  have here : row.sold ∈ d₀.payments.map Payment.sold := List.mem_map_of_mem atStart
  rw [← sound.sold] at here
  exact List.mem_map.mp here

theorem RefundsSound.covers_capture (sound : RefundsSound ops d₀ d) (bounded : d.Bounded)
    (atStart : row ∈ d₀.payments) {c : ProviderPayment} (stored : c ∈ d.captures)
    (named : row.razorpayPaymentId = some c.id) : row.covers c.amountRefunded := by
  obtain ⟨now, member, same⟩ := sound.present atStart
  have captured : now.razorpayPaymentId = row.razorpayPaymentId :=
    congrArg (fun sold => sold.2.1) same
  exact (covers_of_sold same).mp ((bounded now member).1 c stored (captured.trans named))

theorem RefundsSound.covers_attempt (sound : RefundsSound ops d₀ d) (bounded : d.Bounded)
    (atStart : row ∈ d₀.payments) {a : RefundAttempt} (stored : a ∈ d.attempts)
    (named : a.paymentId = row.id) {refunded : Int} (accepted : a.refunded = some refunded) :
    row.covers refunded := by
  obtain ⟨now, member, same⟩ := sound.present atStart
  have sameId : now.id = row.id := congrArg Prod.fst same
  exact (covers_of_sold same).mp
    ((bounded now member).2 a stored (named.trans sameId.symm) refunded accepted)

theorem covers_amountOr {refunded : Option Int} {chosen : Int}
    (reported : ∀ n ∈ refunded, p.covers n) {fallback : Option Int}
    (otherwise : ∀ n ∈ fallback, p.covers n) (read : amountOr refunded fallback = some chosen) :
    p.covers chosen := by
  cases refunded with
  | none => exact otherwise chosen read
  | some n =>
    rw [amountOr] at read
    split at read
    · exact otherwise chosen read
    · obtain rfl := Option.some.inj read
      exact reported _ rfl

theorem covers_amount {n : Int} (own : n ∈ p.amount) : p.covers n := by
  intro amount same
  rw [Option.mem_def.mp own] at same
  exact le_of_eq (Option.some.inj same)

theorem owns_of_moves (owns : d.owns me n attempt) (moves : RefundsMove (· = me) d d') :
    d'.owns me n attempt := by
  obtain ⟨a, found, mine, named, amount, fresh⟩ := owns
  obtain ⟨a', found', call, named', amount', -, claimed⟩ := moves.attempts n a found
  exact ⟨a', found', call.trans mine, named'.trans named, amount'.trans amount, claimed mine fresh⟩

theorem granted_of_moves {refunded : Int} (granted : d.granted n attempt refunded)
    (moves : RefundsMove (· = me) d d') : d'.granted n attempt refunded := by
  obtain ⟨a, found, named, accepted, read⟩ := granted
  obtain ⟨a', found', -, named', amount, kept, -⟩ := moves.attempts n a found
  refine ⟨a', found', named'.trans named, ?_, ?_⟩ <;> cases state : a.state
  case accepted answer => simp [RefundAttempt.isAccepted, kept answer state]
  case accepted answer =>
    simpa [RefundAttempt.refunded, kept answer state, state, amount] using read
  all_goals simp [RefundAttempt.isAccepted, state] at accepted

theorem refund_does {ℓ : Label} {ws : List Write} (each : ∀ w ∈ ws, w.Reports ops d₀ d) :
    (refunding ops d₀).Does me ℓ d (applyAll ws d) :=
  Or.inr ⟨ws, rfl, .writes each⟩

/-- An update that neither refunds the payment nor says how much was refunded. -/
theorem reports_update {id : Id} {data : PaymentData} (capture : data.razorpayPaymentId = none)
    (amount : data.amount = none) (refunded : data.refundAmount = none)
    (status : data.status ≠ some .REFUNDED) : (Write.updatePayment id data).Reports ops d₀ d :=
  ⟨capture, amount, fun _ _ _ => ⟨fun n written => by simp [refunded] at written,
    fun settles => absurd settles status⟩⟩

theorem claim_reports {ℓ : Label} {statuses : List PaymentStatus} {reason : String}
    (mine : attempt.call = me) (fresh : attempt.state = .claimed) :
    Call.YieldsFrom (refunding ops d₀) me d (Call.stmt ℓ (claimWhere statuses attempt reason))
      fun claim d => ∀ n, claim = some n → d.owns me n attempt := by
  refine .stmt fun d₁ ws claim _ _ result => ?_
  rcases claimWhere_ok result with ⟨rfl, rfl⟩ | ⟨row, found, named, among, rfl, rfl⟩
  · exact ⟨Or.inl rfl, by rintro n ⟨⟩⟩
  · refine ⟨refund_does (List.forall_mem_cons.mpr ⟨?_, by simp [Write.Reports]⟩), ?_⟩
    · exact reports_update rfl rfl rfl (by simp)
    · rintro n ⟨⟩
      exact ⟨attempt, List.getElem?_concat_length, mine, rfl, rfl, fresh⟩

theorem fetchPayment_reports (cfg : Config) (captureId : Id) :
    Call.YieldsFrom (refunding ops d₀) me d (fetchPayment cfg captureId) fun c d =>
      ∀ row ∈ d₀.payments, row.razorpayPaymentId = some captureId →
        row.covers c.amountRefunded ∧ (c.refundSeen = true → Reported ops d row) := by
  rw [fetchPayment]
  split
  · exact .throw _ _
  · refine .bind (fun _ _ => True) (.choose fun _ _ _ => trivial) fun reachable d₁ _ => ?_
    refine .bind (fun found d => ∀ c, found = some c → ∀ row ∈ d₀.payments,
      row.razorpayPaymentId = some captureId →
        row.covers c.amountRefunded ∧ (c.refundSeen = true → Reported ops d row)) (.read ?_) ?_
    · intro d₂ rely bounded c found row atStart captured
      have stored : c ∈ d₂.captures := Table.mem_of_find found
      have named : c.id = captureId := Table.find_key found
      rw [← named] at captured
      exact ⟨rely.inv.covers_capture bounded atStart stored captured, .shown stored captured⟩
    · intro payment d₂ known
      split
      next c => exact .pure (known c rfl)
      next => exact .throw _ _
      next => exact .throw _ _

theorem preflight_reports (cfg : Config) (known : Known d₀ p)
    (captured : p.razorpayPaymentId = some attempt.razorpayPaymentId) (reason : Option String)
    (mine : attempt.call = me) (fresh : attempt.state = .claimed) :
    Call.YieldsFrom (refunding ops d₀) me d (preflight cfg p attempt reason) (Opened me attempt) := by
  refine .bind _ (fetchPayment_reports cfg _) fun c d₁ shown => ?_
  split
  next seen =>
    refine .bind (fun _ _ => True) (.stmt fun d₂ ws _ rely _ result => ⟨?_, trivial⟩)
      fun _ _ _ => .pure trivial
    obtain ⟨-, -, -, rfl⟩ := setPayment_ok result
    refine refund_does (List.forall_mem_singleton.mpr ⟨rfl, rfl, fun row atStart same => ?_⟩)
    have sold := known.sold row atStart same
    have shows : row.razorpayPaymentId = some attempt.razorpayPaymentId :=
      (congrArg (fun sold => sold.2.1) sold).trans captured
    obtain ⟨covers, reported⟩ := shown row atStart shows
    refine ⟨fun refunded read => (covers_of_sold sold).mpr ?_, fun _ => (reported seen).moves rely.evo⟩
    refine covers_amountOr ?_ (fun n own => covers_amount own) (Option.some.inj read)
    rintro n ⟨⟩
    exact (covers_of_sold sold).mp covers
  next =>
    refine .bind _ (claim_reports mine fresh) fun claimed d₂ owns => ?_
    cases claimed with
    | none => exact .throw _ _
    | some n => exact .pure (owns n rfl)

theorem claimFor_reports (cfg : Config) (known : Known d₀ p)
    (captured : p.razorpayPaymentId = some attempt.razorpayPaymentId) (reason : Option String)
    (mine : attempt.call = me) (fresh : attempt.state = .claimed) :
    Call.YieldsFrom (refunding ops d₀) me d (claimFor cfg p attempt reason) (Opened me attempt) := by
  rw [claimFor]
  split
  · refine .bind _ (preflight_reports cfg known captured reason mine fresh).attempt
      fun result d₁ opened => ?_
    cases result with
    | ok claim => exact .pure (opened claim rfl)
    | error e => cases e <;> exact .throw _ _
  · refine .bind _ (claim_reports mine fresh) fun claimed d₁ owns => ?_
    cases claimed with
    | some n => exact .pure (owns n rfl)
    | none =>
      refine .bind (fun _ _ => True) (.read fun _ _ _ => trivial) fun current d₂ _ => ?_
      cases current with
      | none => exact .throw _ _
      | some row =>
        dsimp only
        split
        · exact .pure trivial
        · split
          · exact .throw _ _
          · exact .throw _ _

/-- A refund that the call reports as made has been accepted for its payment. -/
theorem razorpayCreateRefund_reports (cfg : Config) (paymentId : Id)
    (amountPaise : Option RequestedAmount) (asked : attempt.amount = requestedPaise amountPaise)
    (owns : d.owns me n attempt) :
    Call.YieldsFrom (refunding ops d₀) me d (razorpayCreateRefund cfg paymentId n amountPaise)
      fun refund d => d.granted n attempt refund.amount := by
  rw [razorpayCreateRefund]
  split
  · exact .throw _ _
  split
  · exact .throw _ _
  · let mine' (d : Db) : Prop :=
      ∃ a, d.attempt n = some a ∧ a.paymentId = attempt.paymentId ∧ a.amount = attempt.amount
    refine .bind (fun _ d => mine' d) (.send fun d₁ rely₁ _ => ?_) fun _ d₁ sent => ?_
    · obtain ⟨a, found, mine, named, amount, fresh⟩ := owns_of_moves owns rely₁.evo
      refine ⟨Or.inr ⟨_, rfl, .sends found mine fresh⟩, a.send, ?_, named, amount⟩
      have stored : d₁.attempts[n]? = some a := found
      simp [Db.attempt, Write.apply, stored]
    refine .bind (fun _ d => mine' d) (.choose fun d₂ _ rely₂ => ?_) fun delivered d₂ kept => ?_
    · obtain ⟨a, found, named, amount⟩ := sent
      obtain ⟨b, found', -, named', amount', -⟩ := rely₂.evo.attempts n a found
      exact ⟨b, found', named'.trans named, amount'.trans amount⟩
    · refine .bind (fun found d => ∃ a, d.attempt n = some a ∧ found = some a ∧
        a.paymentId = attempt.paymentId ∧ a.amount = attempt.amount) (.read fun d₃ rely₃ _ => ?_)
        fun found d₃ seen => ?_
      · obtain ⟨b, found, named, amount⟩ := kept
        obtain ⟨c, found', -, named', amount', -⟩ := rely₃.evo.attempts n b found
        exact ⟨c, found', found', named'.trans named, amount'.trans amount⟩
      · obtain ⟨b, found, rfl, named, amount⟩ := seen
        split
        next refund result =>
          refine .pure ⟨b, found, named, ?_⟩
          -- only an answer with a refund id becomes a refund
          cases delivered with
          | false => cases result
          | true =>
            rw [if_pos rfl, Option.map_some] at result
            cases state : b.state with
            | accepted answer =>
              simp only [refundResult, state] at result
              split at result
              next => cases result
              next =>
                cases result
                simp [RefundAttempt.isAccepted, RefundAttempt.refunded, state, amount, asked]
            | claimed | inFlight | rejected description =>
              rw [state] at result
              cases result
        next => exact .throw _ _

theorem settleRefund_reports (named : attempt.paymentId = p.id) (customerId : Id)
    (refund : RazorpayRefundResult) (granted : d.granted n attempt refund.amount) :
    Call.YieldsFrom (refunding ops d₀) me d (settleRefund p customerId n refund) fun _ _ => True := by
  refine .bind (fun _ d => d.granted n attempt refund.amount)
    (.choose fun d₁ _ rely => granted_of_moves granted rely.evo) fun reachable d₁ granted => ?_
  cases reachable with
  | false => exact .throw _ _
  | true =>
    rw [if_pos rfl]
    refine Call.transaction_commits (fun d₂ rely₂ => ?_) (fun _ _ => ⟨rfl, fun _ _ => trivial⟩)
      fun _ _ => ⟨rfl, by rintro _ ⟨⟩⟩
    simp only [Call.wp_bind, step]
    refine Call.stmt_inTx (fun d₃ t₃ ws _ rely₃ _ result grows₃ _ => ?_) fun _ _ _ _ _ => trivial
    obtain ⟨-, -, -, rfl⟩ := setRefunded_ok result
    rw [Call.andThen_ok]
    refine Call.stmt_inTx (fun d₄ t₄ ws _ rely₄ _ result grows₄ _ => ?_) fun _ _ _ _ _ => trivial
    cases result
    intro d₅ rely₅ bounded
    have since := granted_of_moves (granted_of_moves (granted_of_moves (granted_of_moves granted
      rely₂.evo) rely₃.evo) rely₄.evo) rely₅.evo
    obtain ⟨a, found, ofPayment, accepted, read⟩ := since
    have stored : a ∈ d₅.attempts := List.mem_of_getElem? found
    refine refund_does ?_
    rw [grows₄.after (grows₃.after rfl)]
    refine List.forall_mem_cons.mpr ⟨⟨rfl, rfl, fun row atStart same => ?_⟩, by simp [Write.Reports]⟩
    have mine : a.paymentId = row.id := ofPayment.trans (named.trans same.symm)
    refine ⟨fun refunded written => ?_, fun _ => .accepted stored mine accepted⟩
    obtain rfl := Option.some.inj (Option.some.inj written)
    exact rely₅.inv.covers_attempt bounded atStart stored mine read

theorem recordFailure_reports (paymentId : Id) (err : Failure) :
    Call.YieldsFrom (refunding ops d₀) me d (recordFailure paymentId n err) fun _ _ => True := by
  refine .stmt fun d₁ ws _ _ _ result => ⟨?_, trivial⟩
  split at result
  · cases result
  · cases result
    refine refund_does (List.forall_mem_cons.mpr ⟨?_, by simp [Write.Reports]⟩)
    refine reports_update rfl rfl rfl ?_
    simp only [failureStatus]
    split <;> simp

theorem refundClaimed_reports (cfg : Config) (customerId : Id) (named : attempt.paymentId = p.id)
    (amountPaise : Option RequestedAmount) (asked : attempt.amount = requestedPaise amountPaise)
    (owns : d.owns me n attempt) :
    Call.YieldsFrom (refunding ops d₀) me d (refundClaimed cfg p customerId n amountPaise)
      fun _ _ => True := by
  have executes : Call.YieldsFrom (refunding ops d₀) me d
      (executeRefund cfg p customerId n amountPaise) fun _ _ => True := by
    refine .bind _ (razorpayCreateRefund_reports cfg p.id amountPaise asked owns)
      fun refund d₁ granted => ?_
    exact .bind _ (settleRefund_reports named customerId refund granted) fun _ _ _ => .pure trivial
  refine .bind _ executes.attempt fun result d₁ _ => ?_
  cases result with
  | ok refund => exact .pure trivial
  | error err => exact .bind _ (recordFailure_reports p.id err) fun _ _ _ => .throw _ _

theorem refundPayment_reports (ids : Table.Unique Payment.id d₀.payments) (cfg : Config)
    (bookingId : Id) (actor : Market.AuthenticatedUser) (amountPaise : Option RequestedAmount)
    (reason : Option String) :
    Call.YieldsFrom (refunding ops d₀) me d (refundPayment cfg me bookingId actor amountPaise reason)
      fun _ _ => True := by
  rw [refundPayment]
  split
  · exact .throw _ _
  refine .bind (fun _ _ => True) (.read fun _ _ _ => trivial) fun booking d₁ _ => ?_
  cases booking with
  | none => exact .throw _ _
  | some booking =>
    dsimp only
    split
    · exact .throw _ _
    refine .bind (fun payment _ => ∀ p, payment = some p → Known d₀ p) (.read ?_) fun payment d₂ known => ?_
    · exact fun d₂ rely _ p found => rely.inv.known ids (Table.mem_of_find found)
    · cases payment with
      | none => exact .throw _ _
      | some p =>
        have known := known p rfl
        simp only [refundFor]
        split
        · exact .pure trivial
        split
        · exact .throw _ _
        next captureId captured =>
          refine .bind _ (claimFor_reports cfg known captured reason rfl rfl) fun claim d₃ opened => ?_
          cases claim with
          | answered response => exact .pure trivial
          | claimed n => exact refundClaimed_reports cfg _ rfl amountPaise rfl opened

/-! ### The webhook -/

theorem deriveWebhookEventId_refund {event : Text} (refund : event ∈ refundEvents)
    (captureId : Id) (orderId : Option Id) :
    deriveWebhookEventId event (some captureId) orderId = some (.ofPayment captureId event) := by
  rcases List.mem_cons.mp refund with rfl | refund
  · rfl
  · rw [List.mem_singleton.mp refund]
    rfl

theorem acknowledge_reports {duplicate : String} {label : Applied → Label}
    {tx : Service (Applied × String)}
    (commits : ∀ d', (refunding ops d₀).Rely me ([] : List Key) d d' →
      Call.wp (refunding ops d₀) me (Call.inTx fun a t d => ∀ d',
        (refunding ops d₀).Rely me t.locks d d' → (refunding ops d₀).pre (label a.1) d' →
        (refunding ops d₀).Does me (label a.1) d' (applyAll t.writes d')) tx (some {}) d') :
    Call.YieldsFrom (refunding ops d₀) me d (acknowledge duplicate label tx) fun _ _ => True := by
  have ends : Call.YieldsFrom (refunding ops d₀) me d (Call.transaction (fun r => label r.1) tx)
      fun _ _ => True :=
    Call.transaction_commits commits (fun _ _ => ⟨rfl, fun _ _ => trivial⟩)
      fun _ _ => ⟨rfl, by rintro _ ⟨⟩⟩
  refine .bind _ ends.attempt fun result d₁ _ => ?_
  match result with
  | .ok (_, message) => exact .pure trivial
  | .error .uniqueViolation => exact .pure trivial
  | .error (.payment ..) | .error (.provider ..) | .error (.authorization ..)
  | .error .recordNotFound | .error .database => exact .throw _ _

/-- The writes of a refund webhook once it has found its payment. -/
theorem processRefundProcessed_reports (ids : Table.Unique Payment.id d₀.payments)
    {body : WebhookBody} {captureId : Id} (mine : ops me = some (.handleWebhook body))
    (refunds : (Op.handleWebhook body).Refunds d₀.payments)
    (named : body.razorpayPaymentId = some captureId) (eventId : EventId) :
    Call.YieldsFrom (refunding ops d₀) me d
      (processRefundProcessed eventId body.event (some captureId) (body.refund.bind RefundEntity.id)
        (body.refund.bind RefundEntity.amount)) fun _ _ => True := by
  let reports (w : Write) : Prop := ∀ d, w.Reports ops d₀ d
  have finishes : ∀ status reason, Call.Plain reports (finishEvent eventId status reason) := by
    intro status reason
    rw [finishEvent, step]
    refine .stmt fun d ws _ result => ?_
    cases result
    exact List.forall_mem_singleton.mpr fun _ => trivial
  have notifies : ∀ p, Call.Plain reports (notify .REFUND_COMPLETED p false) := by
    intro p
    rw [notify, query]
    refine .bind (.read _ _) fun booking => ?_
    rw [step]
    refine .stmt fun d ws _ result w member => ?_
    cases result
    obtain ⟨e, -, rfl⟩ := List.mem_map.mp member
    exact fun _ => trivial
  -- the amount is the reported one, or the refund that the payment has had before
  have updates : ∀ p data, Known d₀ p → p.razorpayPaymentId = some captureId →
      data.razorpayPaymentId = none → data.amount = none →
      data.refundAmount = some (amountOr (body.refund.bind RefundEntity.amount) p.refundAmount) →
      Call.Plain reports (step (setPayment p.id data)) := by
    intro p data known captured capture amount refunded
    rw [step]
    refine .stmt fun d ws _ result => ?_
    obtain ⟨-, -, -, rfl⟩ := setPayment_ok result
    refine List.forall_mem_singleton.mpr fun d => ⟨capture, amount, fun row atStart same => ?_⟩
    have sold := known.sold row atStart same
    have shows : row.razorpayPaymentId = some captureId :=
      (congrArg (fun sold => sold.2.1) sold).trans captured
    refine ⟨fun n written => (covers_of_sold sold).mpr ?_, fun _ =>
      .delivered mine refunds.1 named shows⟩
    rw [refunded] at written
    refine covers_amountOr (fun m reported => ?_) known.covered (Option.some.inj written)
    exact (covers_of_sold sold).mp (refunds.2 captureId named row atStart shows m reported)
  rw [processRefundProcessed]
  refine acknowledge_reports fun d₁ rely₁ => ?_
  rw [processRefundProcessedTx, Call.wp_bind]
  have claims : Call.Plain reports (claimEvent eventId body.event) := by
    rw [claimEvent, step]
    refine .stmt fun d ws _ result => ?_
    simp only [newEvent] at result
    split at result <;> cases result
    exact List.forall_mem_singleton.mpr fun _ => trivial
  refine claims.inTx rely₁.inv fun r d₂ t₂ ws rely₂ grows₂ written => ?_
  cases r with
  | error e => trivial
  | ok _ =>
    rw [Call.andThen_ok, Call.wp_bind, query, Call.wp_read]
    intro d₃ rely₃ _
    rw [Call.andThen_ok, Tx.view_some, grows₂.after rfl, List.nil_append]
    -- the transaction sees the store with its own event added, which is as sound
    have sound : RefundsSound ops d₀ (applyAll ws d₃) :=
      rely₃.inv.writes (.refl d₃) fun w member => written w member d₃
    -- what follows the lookup adds writes that report, whichever branch is taken
    have commits : ∀ {rest : Service (Applied × String)}, Call.Plain reports rest →
        Call.wp (refunding ops d₀) me (Call.inTx fun (a : Applied × String) t d => ∀ d',
          (refunding ops d₀).Rely me t.locks d d' → (refunding ops d₀).pre (.refundEvent captureId a.1) d' →
          (refunding ops d₀).Does me (.refundEvent captureId a.1) d' (applyAll t.writes d'))
          rest (some t₂) d₃ := by
      intro rest plain
      refine plain.inTx rely₃.inv fun r d₄ t₄ more rely₄ grows₄ written' => ?_
      cases r with
      | error e => trivial
      | ok a =>
        intro d₅ _ _
        rw [grows₄.after (grows₂.after rfl)]
        refine refund_does fun w member => ?_
        rcases List.mem_append.mp member with first | later
        · exact written w first d₅
        · exact written' w later d₅
    cases found : (applyAll ws d₃).paymentOfCapture captureId with
    | none => exact commits (.bind (finishes _ _) fun _ => .pure _)
    | some p =>
      have known := sound.known ids (Table.mem_of_find found)
      have captured : p.razorpayPaymentId = some captureId := Table.find_key found
      dsimp only
      split
      · exact commits (.bind (updates p _ known captured rfl rfl rfl) fun _ =>
          .bind (notifies p) fun _ => .bind (finishes _ _) fun _ => .pure _)
      · split
        · exact commits (.bind (updates p _ known captured rfl rfl rfl) fun _ =>
            .bind (finishes _ _) fun _ => .pure _)
        · exact commits (.bind (finishes _ _) fun _ => .pure _)

theorem handleWebhook_reports (ids : Table.Unique Payment.id d₀.payments) {body : WebhookBody}
    (mine : ops me = some (.handleWebhook body))
    (refunds : (Op.handleWebhook body).Refunds d₀.payments) :
    Call.YieldsFrom (refunding ops d₀) me d (handleWebhook body) fun _ _ => True := by
  have event := refunds.1
  have uncaptured : body.event ≠ "payment.captured".toList := by
    rintro same
    exact absurd (same ▸ event) (by decide)
  have unfailed : body.event ≠ "payment.failed".toList := by
    rintro same
    exact absurd (same ▸ event) (by decide)
  have refund : body.event = "refund.processed".toList ∨ body.event = "refund.created".toList := by
    rcases List.mem_cons.mp event with created | processed
    · exact Or.inr created
    · exact Or.inl (List.mem_singleton.mp processed)
  simp only [handleWebhook]
  split
  · exact .pure trivial
  rw [if_neg uncaptured, if_neg unfailed, if_pos refund]
  cases named : body.razorpayPaymentId with
  | none => exact .pure trivial
  | some captureId => exact processRefundProcessed_reports ids mine refunds named _

end Calls

theorem refunding_verified (cfg : Config) {ops : Nat → Option Op} {d₀ : Db}
    (ids : Table.Unique Payment.id d₀.payments)
    (refunds : ∀ i op, ops i = some op → op.Refunds d₀.payments) :
    Pool.VerifiedAs (refunding ops d₀) (fun _ _ _ _ => True) (system cfg) ops := by
  intro me op mine d
  have outsides : ∀ w : Unlocked Db, (∀ d, w.1.Reports ops d₀ d) →
      Call.YieldsFrom (refunding ops d₀) me d (outside w) fun _ _ => True := fun w reports =>
    .send fun d' _ _ => ⟨refund_does (List.forall_mem_singleton.mpr (reports d')), trivial⟩
  have yields : Call.YieldsFrom (refunding ops d₀) me d (serviceOf cfg me op) fun _ _ => True := by
    have admitted := refunds me op mine
    cases op with
    | createOrder | reconcileStalePayments => exact absurd admitted not_false
    | handleWebhook body =>
      exact .bind _ (handleWebhook_reports ids mine admitted) fun _ _ _ => .pure trivial
    | refundPayment bookingId actor amount reason =>
      exact .bind _ (refundPayment_reports ids cfg bookingId actor amount reason)
        fun _ _ _ => .pure trivial
    | putBooking | moveOrder | takePayment | acceptRefund | rejectRefund =>
      exact outsides _ fun _ => trivial
    | tick =>
      exact .send fun d' _ _ => ⟨refund_does (List.forall_mem_singleton.mpr trivial), trivial⟩
  exact wp_mono (fun _ _ _ _ => trivial) _ _ _ yields

/-! ### Every run -/

/-- The store in which booking 1 is paid. -/
def paidStore : Db := (played (fun _ _ => True) paid).db

/-- 200 of the 500 paid are refunded, and the provider reports it. -/
def refundsInPart : List (Pool.Move Op) :=
  sendsRefund 0 200 ++
    [.event (.spawn (.acceptRefund 0 ⟨some 3, 200, some "processed"⟩)), .drive 1 true, .drive 0 true,
     .event (.spawn (.handleWebhook {
       event := "refund.processed".toList
       refund := some { id := some 3, paymentId := some 9, amount := some 200 } })),
     .drive 2 true]

def refundedInPart : PaymentPool :=
  Pool.after (system {}) (Pool.Meets fun _ d => d.Bounded) 60 { db := paidStore } refundsInPart

theorem refundedInPart_reached : Pool.Reaches (system {}) (Pool.Meets fun _ d => d.Bounded)
    { db := paidStore } refundedInPart :=
  Pool.Reaches.refl.after 60 refundsInPart

theorem refundedInPart_refunds : ∀ th ∈ refundedInPart.threads, th.op.Refunds paidStore.payments := by
  decide +kernel

end LabourBaba.Payments
