import LabourBaba.Payments.Footprints
import LabourBaba.Payments.Captures

/-!
# Webhook deliveries

Which event a delivery records, and what a second delivery of it finds. `deliveries` is
followed for the calls of one run at a time: a delivery commits only while its event is not
recorded, and nobody else records that event. Two different events of the provider are kept
apart only as far as `deriveWebhookEventId` keeps them apart.
-/
namespace LabourBaba.Payments

open Store
open Market (Id Text)

/-! ### The event of a delivery -/

def WebhookBody.eventId (body : WebhookBody) : Option EventId :=
  deriveWebhookEventId body.event body.razorpayPaymentId body.razorpayOrderId

/-- What a redelivery has in common with the first delivery, whatever else has changed in the
entities since. -/
def WebhookBody.identity (body : WebhookBody) : Text × Option Id × Option Id :=
  (body.event, body.razorpayPaymentId, body.razorpayOrderId)

/-- The event that the handler records: none for a type without a handler, and none if an
identifier is missing that the handler needs. -/
def WebhookBody.records (body : WebhookBody) : Option EventId :=
  if body.event = "payment.captured".toList then
    body.razorpayOrderId.bind fun _ => body.razorpayPaymentId.map .payment
  else if body.event = "payment.failed".toList then body.razorpayOrderId.map .failed
  else if body.event = "refund.processed".toList ∨ body.event = "refund.created".toList then
    body.razorpayPaymentId.map fun id => .ofPayment id body.event
  else none

def Op.records : Op → Option EventId
  | .handleWebhook body => body.records
  | _ => none

theorem records_of_identity {body body' : WebhookBody} (same : body'.identity = body.identity) :
    body'.records = body.records := by
  simp only [WebhookBody.identity, Prod.mk.injEq] at same
  simp only [WebhookBody.records, same]

/-- What a delivery does: nothing, or one transaction that claims its event. -/
inductive Delivers (body : WebhookBody) : Service String → Prop
  | nothing (message : String) (unrecorded : body.records = none) :
    Delivers body (pure message)
  | claiming (eventId : EventId) (duplicate : String) (label : Applied → Label)
      (tx : Service (Applied × String)) (records : body.records = some eventId)
      (derived : body.eventId = some eventId) (dismissal : duplicate ∈ dismissals)
      (claims : ClaimsFirst eventId body.event tx) :
    Delivers body (acknowledge duplicate label tx)

/-- The recorded event has the derived id. -/
theorem eventId_of_records {body : WebhookBody} {e : EventId} (records : body.records = some e) :
    body.eventId = some e := by
  simp only [WebhookBody.records] at records
  simp only [WebhookBody.eventId, deriveWebhookEventId]
  split at records
  next captured =>
    obtain ⟨orderId, ordered, records⟩ := Option.bind_eq_some_iff.mp records
    obtain ⟨id, paid, rfl⟩ := Option.map_eq_some_iff.mp records
    simp [captured, paid]
  split at records
  next failed =>
    obtain ⟨id, ordered, rfl⟩ := Option.map_eq_some_iff.mp records
    simp [failed, ordered]
  split at records
  next refund =>
    obtain ⟨id, paid, rfl⟩ := Option.map_eq_some_iff.mp records
    rcases refund with refund | refund <;> simp [refund, paid]
  next => cases records

theorem Delivers.of_records {body : WebhookBody} {e eventId : EventId} {duplicate : String}
    {label : Applied → Label} {tx : Service (Applied × String)}
    (derived : body.eventId = some eventId) (records : body.records = some e)
    (dismissal : duplicate ∈ dismissals) (claims : ClaimsFirst eventId body.event tx) :
    Delivers body (acknowledge duplicate label tx) := by
  obtain rfl := Option.some.inj (derived.symm.trans (eventId_of_records records))
  exact .claiming eventId duplicate label tx records derived dismissal claims

theorem handleWebhook_delivers (body : WebhookBody) : Delivers body (handleWebhook body) := by
  simp only [handleWebhook]
  split
  next underived =>
    -- without an event id there is nothing to record
    refine .nothing _ ?_
    cases records : body.records with
    | none => rfl
    | some e => exact absurd ((eventId_of_records records).symm.trans underived) (by simp)
  next eventId derived =>
    split
    next captured =>
      simp only [processPaymentCaptured]
      split
      next orderId paymentId ordered paid =>
        have records : body.records = some (.payment paymentId) := by
          rw [WebhookBody.records, if_pos captured, ordered, paid, Option.bind_some, Option.map_some]
        exact .of_records derived records (by simp [dismissals])
          (processPaymentCapturedTx_claimsFirst _ _ _ _ _ _)
      next missing =>
        refine .nothing _ ?_
        rw [WebhookBody.records, if_pos captured]
        cases ordered : body.razorpayOrderId with
        | none => rfl
        | some orderId =>
          cases paid : body.razorpayPaymentId with
          | none => rfl
          | some paymentId => exact (missing orderId paymentId ordered paid).elim
    split
    next uncaptured failed =>
      simp only [processPaymentFailed]
      split
      next orderId ordered =>
        have records : body.records = some (.failed orderId) := by
          rw [WebhookBody.records, if_neg uncaptured, if_pos failed, ordered, Option.map_some]
        exact .of_records derived records (by simp [dismissals])
          (processPaymentFailedTx_claimsFirst _ _ _)
      next missing =>
        refine .nothing _ ?_
        rw [WebhookBody.records, if_neg uncaptured, if_pos failed, missing, Option.map_none]
    split
    next uncaptured unfailed refund =>
      simp only [processRefundProcessed]
      split
      next paymentId paid =>
        have records : body.records = some (.ofPayment paymentId body.event) := by
          rw [WebhookBody.records, if_neg uncaptured, if_neg unfailed, if_pos refund, paid,
            Option.map_some]
        exact .of_records derived records (by simp [dismissals])
          (processRefundProcessedTx_claimsFirst _ _ _ _ _)
      next missing =>
        refine .nothing _ ?_
        rw [WebhookBody.records, if_neg uncaptured, if_neg unfailed, if_pos refund, missing,
          Option.map_none]
    next uncaptured unfailed unrefunded =>
      -- an event of another type is acknowledged and forgotten
      refine .nothing _ ?_
      rw [WebhookBody.records, if_neg uncaptured, if_neg unfailed, if_neg unrefunded]

/-! ### The calls of a run -/

/-- A delivery commits only while its event is not recorded, and no other call records it. -/
structure Deduplicates (op : Option Op) (d d' : Db) : Prop where
  later : Later d d'
  first : ∀ body, op = some (.handleWebhook body) →
    ∃ e, body.records = some e ∧ d.event e = none
  only : ∀ e, (d'.event e).isSome = true → (d.event e).isSome = true ∨ op.bind Op.records = some e

/-- The protocol of the calls with the given operations. -/
def deliveries (ops : Nat → Option Op) : Protocol Label Db where
  inv _ := True
  pre _ _ := True
  guar i _ d d' := Deduplicates (ops i) d d'
  evo _ d d' := Later d d'
  evo_refl _ d := .refl d
  evo_trans _ _ _ _ first second := first.trans second
  guar_inv _ _ _ _ _ _ := trivial
  guar_evo _ _ _ _ _ _ _ step := step.later

instance (ops : Nat → Option Op) : (deliveries ops).Lax := ⟨fun _ _ _ => trivial⟩

/-- An acknowledged delivery is recorded, if its handler records anything. -/
def recorded (op : Op) (outcome : Outcome) (d : Db) : Prop :=
  ∀ e reply, op.records = some e → outcome = .ok reply → (d.event e).isSome = true

section Calls

variable {ops : Nat → Option Op} {me : Nat} {d : Db}

theorem does_of_other {op : Op} (mine : ops me = some op) (other : ∀ body, op ≠ .handleWebhook body)
    {ws : List Write} (adds : ∀ e, .insertEvent e ∉ ws) (ℓ : Label) (d : Db) :
    (deliveries ops).Does me ℓ d (applyAll ws d) := by
  refine Or.inr ⟨.applyAll ws d, fun body same => ?_, fun e stored => ?_⟩
  · exact absurd (Option.some.inj (mine.symm.trans same)) (other body)
  · rcases event_applyAll ws stored with before | ⟨row, member, -⟩
    · exact Or.inl before
    · exact absurd member (adds row)

theorem other_verified {op : Op} {c : Service Reply} {ok : Write → Prop} {named : Label → Prop}
    (mine : ops me = some op) (other : ∀ body, op ≠ .handleWebhook body)
    (adds : ∀ e, ¬ ok (.insertEvent e)) (emits : Call.Emits ok named false c) :
    Call.wp (deliveries ops) me (fun outcome _ d => recorded op outcome d) c none d := by
  have safe : Call.Safe (deliveries ops) me c := by
    refine emits.safe fun ℓ d ws _ _ _ written => ?_
    exact does_of_other mine other (fun e member => adds e (written _ member)) ℓ d
  refine Call.wp_mono (fun outcome _ d _ => ?_) (safe d)
  cases op with
  | handleWebhook body => exact absurd rfl (other body)
  | _ => exact fun e reply records => by cases records

/-- After its claim a delivery holds the lock on its event, so that the event is still not
recorded when it commits. -/
theorem delivery_commits {body : WebhookBody} {e : EventId} {ws : List Write} (ℓ : Label)
    (mine : ops me = some (.handleWebhook body)) (records : body.records = some e)
    (unrecorded : d.event e = none) (amends : ∀ w ∈ ws, w.amends = true) :
    (deliveries ops).Does me ℓ d (applyAll (.insertEvent { id := e, eventType := body.event } :: ws) d) ∧
      ((applyAll (.insertEvent { id := e, eventType := body.event } :: ws) d).event e).isSome := by
  refine ⟨Or.inr ⟨.applyAll _ d, fun body' same => ?_, fun e' stored => ?_⟩, ?_⟩
  · obtain rfl := Op.handleWebhook.inj (Option.some.inj (mine.symm.trans same))
    exact ⟨e, records, unrecorded⟩
  · rcases event_applyAll _ stored with before | ⟨row, member, rfl⟩
    · exact Or.inl before
    · rcases List.mem_cons.mp member with same | member
      · right
        rw [Write.insertEvent.inj same, mine]
        exact records
      · cases amends _ member
  · exact event_of_insert (e := { id := e, eventType := body.event }) List.mem_cons_self d

theorem acknowledge_verified {body : WebhookBody} {e : EventId} {duplicate : String}
    {label : Applied → Label} {tx : Service (Applied × String)}
    (mine : ops me = some (.handleWebhook body)) (records : body.records = some e)
    (claims : ClaimsFirst e body.event tx) :
    Call.wp (deliveries ops) me (fun r _ d => ∀ message, r = .ok message → (d.event e).isSome = true)
      (acknowledge duplicate label tx) none d := by
  obtain ⟨rest, rfl, ⟨amends, avoids⟩, -⟩ := claims
  rw [acknowledge, Call.wp_bind, Call.wp_attempt, Call.wp_transaction]
  intro d₁ _
  rw [Call.wp_bind, claimEvent, step]
  refine Call.stmt_inTx ?_ ?_
  · -- the claim: the event is not recorded, and locked from now on
    intro d₂ t ws a _ _ result grows owns
    have claimed : ws = [.insertEvent { id := e, eventType := body.event }] ∧ d₂.event e = none := by
      simp only [newEvent] at result
      split at result
      · cases result
      next absent =>
        cases result
        exact ⟨rfl, by simpa using absent⟩
    obtain ⟨rfl, unrecorded⟩ := claimed
    have locked : Key.event e ∈ t.locks := owns _ List.mem_cons_self _ (by simp [Write.keys])
    have plain : Call.wp (deliveries ops) me (fun _ tx' d' => ∃ t' ws, tx' = some t' ∧
        (deliveries ops).Rely me t.locks d₂ d' ∧ Tx.Grows t t' ws ∧ ∀ w ∈ ws, w.amends = true)
        rest (some t) d₂ :=
      wp_of_plain amends trivial fun _ d' t' ws rely grows written =>
        ⟨t', ws, rfl, rely, grows, written⟩
    refine wp_mono ?_ _ _ _ (wp_of_gives avoids plain)
    rintro (failure | result) _ d₃ ⟨⟨t', ws, rfl, rely, grows', amended⟩, avoided⟩
    · intro d₄ _
      rw [Call.andThen_ok]
      cases failure with
      | uniqueViolation => exact absurd rfl avoided
      | _ => rintro message ⟨⟩
    · intro d₄ rely' _
      have same : d₄.event e = d₂.event e := by
        have kept := grows'.rely rely rely'
        exact kept.rows (.event e) locked
      have writes : t'.writes = .insertEvent { id := e, eventType := body.event } :: ws := by
        rw [grows'.writes, grows.writes]
        rfl
      rw [Tx.view_some, writes]
      obtain ⟨does, stored⟩ := delivery_commits (label result.1) mine records
        (same.trans unrecorded) amended
      refine ⟨does, ?_⟩
      rintro message -
      exact stored
  · -- the event is recorded already
    intro d₂ failure _ _ result
    have violated : failure = .uniqueViolation ∧ (d₂.event e).isSome = true := by
      simp only [newEvent] at result
      split at result
      next stored => exact ⟨(Except.error.inj result).symm, stored⟩
      next => cases result
    obtain ⟨rfl, stored⟩ := violated
    intro d₃ rely message _
    exact rely.evo.event stored

end Calls

theorem not_amends_insertEvent (e : WebhookEvent) : ¬ (Write.insertEvent e).amends = true := by
  simp [Write.amends]

theorem deliveries_verified (cfg : Config) (ops : Nat → Option Op) :
    Pool.VerifiedAs (deliveries ops) (fun _ => recorded) (system cfg) ops := by
  intro me op mine d
  cases op with
  | handleWebhook body =>
    have delivers := handleWebhook_delivers body
    show Call.wp _ me _ (replying .acknowledged (handleWebhook body)) none d
    generalize handleWebhook body = c at delivers
    rw [replying, Call.wp_bind]
    cases delivers with
    | nothing message unrecorded =>
      intro e reply records
      exact absurd (unrecorded.symm.trans records) (by simp)
    | claiming eventId duplicate label tx records derived dismissal claims =>
      refine Call.wp_mono ?_ (acknowledge_verified mine records claims)
      rintro (failure | message) tx' d' stored
      · rintro e reply - ⟨⟩
      · rintro e reply records' -
        obtain rfl := Option.some.inj (records.symm.trans records')
        exact stored message rfl
  | createOrder bookingId customerId newId answer =>
    refine other_verified mine (by simp) ?_
      ((createOrder_intends cfg customerId newId answer).bind fun _ => .pure _)
    simp [Write.intends, Write.amends]
  | refundPayment bookingId actor amount reason =>
    exact other_verified mine (by simp) not_amends_insertEvent
      ((refundPayment_amends cfg me bookingId actor amount reason).bind fun _ => .pure _)
  | reconcileStalePayments olderThanMinutes =>
    exact other_verified mine (by simp) not_amends_insertEvent
      ((reconcileStalePayments_amends cfg olderThanMinutes).bind fun _ => .pure _)
  | moveOrder | takePayment | acceptRefund | rejectRefund =>
    exact other_verified mine (by simp) not_amends_insertEvent (outside_amends _ rfl)
  | tick =>
    have ticks : Amends (serviceOf cfg me .tick) := .send rfl fun _ => by simp [Write.amends]
    exact other_verified mine (by simp) not_amends_insertEvent ticks
  | putBooking booking =>
    have puts : Call.Emits (fun w => w = .putBooking booking) (fun _ => True) false
        (serviceOf cfg me (.putBooking booking)) := .send trivial fun _ => by simp
    exact other_verified mine (by simp) (by simp) puts

/-! ### Answers -/

/-- The delivery was answered that its event had been processed before. -/
def dismissed (th : PaymentThread) : Bool :=
  match th.prog.returned with
  | some (.ok (.acknowledged message)) => decide (message ∈ dismissals)
  | _ => false

/-- A delivery that commits returns right after it, with an answer of its own. -/
def answers (_ : Label) (outcome : Outcome) : Prop :=
  ∀ message, outcome = .ok (.acknowledged message) → message ∉ dismissals

theorem handleWebhook_ends (cfg : Config) (body : WebhookBody) (me : Nat) :
    (system cfg me (.handleWebhook body)).EndsWith answers false := by
  have delivers := handleWebhook_delivers body
  show (replying .acknowledged (handleWebhook body)).run.EndsWith answers false
  generalize handleWebhook body = c at delivers
  cases delivers with
  | nothing message unrecorded => trivial
  | claiming eventId duplicate label tx records derived dismissal claims =>
    obtain ⟨rest, rfl, ⟨amends, -⟩, gives⟩ := claims
    have claiming : Call.Plain (fun _ => True) (claimEvent eventId body.event) :=
      .stmt fun _ _ _ _ _ _ => trivial
    have plain : Call.Plain (fun _ => True) (claimEvent eventId body.event >>= fun _ => rest) :=
      claiming.bind fun _ => amends.mono fun _ _ => trivial
    have answer := Call.Gives.bind (.any (claimEvent eventId body.event)) fun _ _ => gives
    refine (congrArg (Prog.EndsWith answers false) (Prog.bind_assoc _ _ _)).mpr ?_
    refine (congrArg (Prog.EndsWith answers false) (Prog.bind_assoc _ _ _)).mpr ?_
    refine Call.endsWith_transaction plain answer (fun r other => ?_) fun failure => ?_
    · refine ⟨_, rfl, ?_⟩
      rintro message ⟨⟩
      exact other
    · cases failure <;> exact ⟨_, rfl⟩

/-! ### Every run -/

section Runs

variable {cfg : Config} {cond : Label → Db → Prop} {p q : PaymentPool} {ops : Nat → Option Op}

theorem recorded_mono {op : Op} {outcome : Outcome} {d d' : Db} (later : Later d d')
    (holds : recorded op outcome d) : recorded op outcome d' :=
  fun e reply records returned => later.event (holds e reply records returned)

theorem deliveries_sound (run : Runs cfg cond p) (cast : Pool.Casts ops p) :
    Pool.Sound (deliveries ops) (fun _ => recorded) p :=
  Pool.Reaches.soundAs (deliveries_verified cfg ops) (fun _ _ _ _ _ _ _ _ => trivial)
    (fun p e _ => .of_lax p e) (.empty trivial) run cast

/-- An acknowledged delivery has recorded its event, or has found it recorded. -/
theorem recorded_of_acknowledged (run : Runs cfg cond p) {th : PaymentThread} {e : EventId}
    (member : th ∈ p.threads) (records : th.op.records = some e) (done : acknowledged th = true) :
    (p.db.event e).isSome = true := by
  obtain ⟨i, found⟩ := List.mem_iff_getElem?.mp member
  have promises := Pool.Reaches.returnedAs (deliveries_verified cfg p.ops)
    (fun _ _ _ _ _ _ _ _ => trivial) (.empty trivial)
    (fun _ _ _ _ _ _ _ _ holds step => recorded_mono step.later holds) (by simp) run
    p.casts_ops
  simp only [acknowledged] at done
  split at done
  next reply returned => exact promises i th _ found returned e reply records rfl
  next => cases done

/-- Once a delivery of an event has been acknowledged, no statement of a delivery of it changes
the store. -/
def RedeliveriesIdle (cfg : Config) (p : PaymentPool) : Prop :=
  ∀ th ∈ p.threads, ∀ body, th.op = .handleWebhook body → acknowledged th = true →
    ∀ (i : Nat) (th' : PaymentThread) body', p.threads[i]? = some th' →
      th'.op = .handleWebhook body' → body'.identity = body.identity →
      ∀ answer q, p.step (system cfg) (.run i answer) = some q → q.db = p.db

theorem redeliveries_idle (run : Runs cfg cond p) : RedeliveriesIdle cfg p := by
  intro th member body delivers done i th' body' found delivers' same answer q stepped
  have sound := deliveries_sound run (.of_step stepped q.casts_ops)
  have next := sound.stepAs (deliveries_verified cfg q.ops) q.casts_ops
    (fun _ _ _ _ _ => trivial) (.of_lax p _) stepped
  rcases next.does with unchanged | ⟨j, _, ℓ, event, -, deduplicates⟩
  · exact unchanged
  · obtain ⟨rfl, -⟩ : i = j ∧ _ := by simpa using event
    obtain ⟨th'', found', op⟩ := Pool.op_of_step stepped found
    have mine : q.ops i = some (.handleWebhook body') := by
      simp [Pool.ops, found', op, delivers']
    obtain ⟨e, records, unrecorded⟩ := deduplicates.first body' mine
    have records' : th.op.records = some e := by
      rw [delivers]
      exact (records_of_identity same).symm.trans records
    have stored := recorded_of_acknowledged run member records' done
    rw [unrecorded] at stored
    cases stored

/-- The call, if it is the only one with its event, records it just before it returns. -/
def AnsweredOnce (i : Nat) (e : EventId) (p : PaymentPool) : Prop :=
  (p.db.event e).isSome = true → ∃ th outcome, p.threads[i]? = some th ∧
    th.prog.returned = some outcome ∧ answers .step outcome

theorem answeredOnce_of_run {i : Nat} {e : EventId} {body : WebhookBody}
    (delivers : ops i = some (.handleWebhook body))
    (alone : ∀ j, (ops j).bind Op.records = some e → j = i) (run : Runs cfg cond p)
    (cast : Pool.Casts ops p) : AnsweredOnce i e p := by
  induction run with
  | refl => exact fun stored => by cases stored
  | @step p q event before allowed stepped ih =>
    intro stored
    have earlier := ih (cast.of_step stepped)
    have kept : (p.db.event e).isSome = true → ∃ th outcome, q.threads[i]? = some th ∧
        th.prog.returned = some outcome ∧ answers .step outcome := by
      intro stored
      obtain ⟨th, outcome, found, returned, answer⟩ := earlier stored
      obtain ⟨th', found', returned'⟩ := Pool.returned_of_step stepped found returned
      exact ⟨th', outcome, found', returned', answer⟩
    have next := (deliveries_sound before (cast.of_step stepped)).stepAs
      (deliveries_verified cfg ops) cast (fun _ _ _ _ _ => trivial) (.of_lax p _) stepped
    rcases next.does with same | ⟨j, answer, ℓ, rfl, -, deduplicates⟩
    · exact kept (same ▸ stored)
    rcases deduplicates.only e stored with old | mine
    · exact kept old
    -- the event is new, so that the statement is the commit of the call itself
    obtain rfl := alone j mine
    have running := Pool.alive_of_run stepped
    obtain ⟨th, found⟩ : ∃ th, p.threads[j]? = some th := by
      cases found : p.threads[j]? with
      | none => simp [Pool.step, found] at stepped
      | some th => exact ⟨th, rfl⟩
    have op : th.op = .handleWebhook body :=
      Option.some.inj (((cast.of_step stepped) j th found).symm.trans delivers)
    have ends := before.endsWith (handleWebhook_ends cfg body) (by simp [start]) th
      (List.mem_of_getElem? found) op (by simpa [Pool.alive, found] using running)
    rcases Pool.step_endsWith found ends stepped with same | ⟨ℓ, th', a, -, found', returned, answer⟩
    · exact kept (same ▸ stored)
    · exact ⟨th', a, found', returned, answer⟩

/-- A delivery that is dismissed has the derived event id of another delivery. -/
def DismissalsTwinned (p : PaymentPool) : Prop :=
  ∀ (i : Nat) (th : PaymentThread) body, p.threads[i]? = some th → th.op = .handleWebhook body →
    body.records.isSome = true → dismissed th = true →
    ∃ (j : Nat) (th' : PaymentThread) (body' : WebhookBody), j ≠ i ∧ p.threads[j]? = some th' ∧
      th'.op = .handleWebhook body' ∧ body'.eventId = body.eventId

theorem dismissals_twinned (run : Runs cfg cond p) : DismissalsTwinned p := by
  intro i th body found delivers recordable dismissal
  obtain ⟨e, records⟩ := Option.isSome_iff_exists.mp recordable
  by_contra lonely
  have mine : p.ops i = some (.handleWebhook body) := by simp [Pool.ops, found, delivers]
  have alone : ∀ j, (p.ops j).bind Op.records = some e → j = i := by
    intro j other
    by_contra differ
    simp only [Pool.ops, Option.bind_map, Option.bind_eq_some_iff] at other
    obtain ⟨th', found', records'⟩ := other
    cases op : th'.op with
    | handleWebhook body' =>
      simp only [Function.comp, op, Op.records] at records'
      refine lonely ⟨j, th', body', differ, found', op, ?_⟩
      rw [eventId_of_records records', eventId_of_records records]
    | _ =>
      simp only [Function.comp, op, Op.records] at records'
      cases records'
  simp only [dismissed] at dismissal
  split at dismissal
  next message returned =>
    have done : acknowledged th = true := by simp [acknowledged, returned]
    have stored := recorded_of_acknowledged run (List.mem_of_getElem? found)
      (by rw [delivers]; exact records) done
    obtain ⟨th', outcome, found', returned', answer⟩ :=
      answeredOnce_of_run mine alone run p.casts_ops stored
    obtain rfl := Option.some.inj (found.symm.trans found')
    obtain rfl := Option.some.inj (returned.symm.trans returned')
    exact answer message rfl (of_decide_eq_true dismissal)
  next => cases dismissal

end Runs

/-! ### Events of the provider -/

/-- The provider's records: the order of each payment attempt, and the payment of each refund. -/
structure Provider where
  orderOf : Id → Id
  paymentOf : Id → Id

/-- The events the handlers record, each by the payment attempt or the refund it is about. -/
inductive ProviderEvent where
  | paymentCaptured (paymentId : Id)
  | paymentFailed (paymentId : Id)
  | refundCreated (refundId : Id)
  | refundProcessed (refundId : Id)
deriving DecidableEq, Repr

namespace Provider

/-- The body is the provider's report of the event: a payment with its order, or a refund with
its payment. -/
def Reports (provider : Provider) (body : WebhookBody) : ProviderEvent → Prop
  | .paymentCaptured id => body.event = "payment.captured".toList ∧
      body.razorpayPaymentId = some id ∧ body.razorpayOrderId = some (provider.orderOf id)
  | .paymentFailed id => body.event = "payment.failed".toList ∧
      body.razorpayPaymentId = some id ∧ body.razorpayOrderId = some (provider.orderOf id)
  | .refundCreated id => body.event = "refund.created".toList ∧
      body.refund.bind RefundEntity.id = some id ∧
      body.razorpayPaymentId = some (provider.paymentOf id)
  | .refundProcessed id => body.event = "refund.processed".toList ∧
      body.refund.bind RefundEntity.id = some id ∧
      body.razorpayPaymentId = some (provider.paymentOf id)

/-- Two failed attempts on one order, or two refunds of one payment at the same stage. -/
def Collide (provider : Provider) : ProviderEvent → ProviderEvent → Prop
  | .paymentFailed id, .paymentFailed id' => provider.orderOf id = provider.orderOf id'
  | .refundCreated id, .refundCreated id' => provider.paymentOf id = provider.paymentOf id'
  | .refundProcessed id, .refundProcessed id' => provider.paymentOf id = provider.paymentOf id'
  | _, _ => False

/-- The derived id of an event. -/
def eventId (provider : Provider) : ProviderEvent → EventId
  | .paymentCaptured id => .payment id
  | .paymentFailed id => .failed (provider.orderOf id)
  | .refundCreated id => .ofPayment (provider.paymentOf id) "refund.created".toList
  | .refundProcessed id => .ofPayment (provider.paymentOf id) "refund.processed".toList

variable {provider : Provider} {x y : ProviderEvent} {body body' : WebhookBody}

theorem eventId_of_reports (reports : provider.Reports body x) :
    body.eventId = some (provider.eventId x) := by
  refine eventId_of_records ?_
  cases x with
  | paymentCaptured id =>
    obtain ⟨type, paid, ordered⟩ := reports
    rw [WebhookBody.records, if_pos type, ordered, paid]
    rfl
  | paymentFailed id =>
    obtain ⟨type, -, ordered⟩ := reports
    rw [WebhookBody.records, type, if_neg (by decide), if_pos rfl, ordered]
    rfl
  | refundCreated id =>
    obtain ⟨type, -, paid⟩ := reports
    rw [WebhookBody.records, type, if_neg (by decide), if_neg (by decide), if_pos (Or.inr rfl), paid]
    rfl
  | refundProcessed id =>
    obtain ⟨type, -, paid⟩ := reports
    rw [WebhookBody.records, type, if_neg (by decide), if_neg (by decide), if_pos (Or.inl rfl), paid]
    rfl

/-- The ids of different events differ, unless the two are told apart by an attempt or a refund
that is not part of the id. -/
theorem eventId_ne_iff (different : x ≠ y) :
    provider.eventId x ≠ provider.eventId y ↔ ¬ provider.Collide x y := by
  cases x <;> cases y <;> simp_all [eventId, Collide]

end Provider

/-- Deduplication is exact for all events but two failed attempts on one order and two refunds
of one payment at the same stage: in every run, an acknowledged event is not applied again, a
dismissed delivery shares its event id with another delivery of the run, and two different
events share an id only if they collide. -/
theorem deduplication_exact (cfg : Config) (provider : Provider) :
    (∀ p, Reachable cfg p → RedeliveriesIdle cfg p ∧ DismissalsTwinned p) ∧
      ∀ x y body body', x ≠ y → provider.Reports body x → provider.Reports body' y →
        (body.eventId ≠ body'.eventId ↔ ¬ provider.Collide x y) := by
  refine ⟨fun p run => ⟨redeliveries_idle run, dismissals_twinned run⟩, ?_⟩
  intro x y body body' different reports reports'
  rw [Provider.eventId_of_reports reports, Provider.eventId_of_reports reports', ne_eq,
    Option.some_inj]
  exact Provider.eventId_ne_iff different

/-- Two attempts on order 0 fail, 8 and then 9. -/
def failedTwice : List (Pool.Move Op) :=
  [.event (.spawn (.handleWebhook { event := "payment.failed".toList
                                    payment := some { id := some 8, orderId := some 0 } })),
   .drive 0 true,
   .event (.spawn (.handleWebhook { event := "payment.failed".toList
                                    payment := some { id := some 9, orderId := some 0 } })),
   .drive 1 true]

/-- The event of the second attempt is dismissed as a duplicate of the first. -/
theorem second_failure_dismissed :
    ∃ (provider : Provider) (x y : ProviderEvent) (body body' : WebhookBody) (p : PaymentPool),
      x ≠ y ∧ provider.Reports body x ∧ provider.Reports body' y ∧
        body.eventId = body'.eventId ∧ Reachable {} p ∧
        p.threads.map (fun th => (th.op, dismissed th)) =
          [(.handleWebhook body, false), (.handleWebhook body', true)] := by
  refine ⟨⟨fun _ => 0, id⟩, .paymentFailed 8, .paymentFailed 9,
    { event := "payment.failed".toList, payment := some { id := some 8, orderId := some 0 } },
    { event := "payment.failed".toList, payment := some { id := some 9, orderId := some 0 } },
    played (fun _ _ => True) failedTwice, by decide, ⟨rfl, rfl, rfl⟩, ⟨rfl, rfl, rfl⟩, rfl,
    runs_played _ failedTwice, ?_⟩
  decide +kernel

end LabourBaba.Payments
