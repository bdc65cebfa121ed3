import LabourBaba.Payments.Commits

/-!
# The payment services keep to the protocol

Each service is followed statement by statement: what it has read and can still count on
when it commits is what its commit says. `Yields` also states what a call has achieved when
it returns, which the next call in sequence builds on.
-/
namespace LabourBaba.Payments

open Store
open Market (Id Text)

abbrev PaymentTx := Tx Key Write

theorem does_of_commit {me : Nat} {ℓ : Label} {d : Db} {ws : List Write}
    (commit : Commit me d ℓ ws) : protocol.Does me ℓ d (applyAll ws d) :=
  Or.inr ⟨ws, rfl, commit⟩

section Yields

variable {α : Type} {me : Nat} {d : Db}

/-- A call that keeps to the protocol from the store `d` on. -/
abbrev YieldsFrom (me : Nat) (d : Db) (c : Service α) (post : α → Db → Prop) : Prop :=
  Call.YieldsFrom protocol me d c post

abbrev Yields (me : Nat) (c : Service α) (post : α → Db → Prop) : Prop :=
  ∀ d, YieldsFrom me d c post

/-- What no write undoes is still so when a call returns. -/
theorem YieldsFrom.keeping {c : Service α} {post : α → Db → Prop} {R : Db → Prop}
    (yields : YieldsFrom me d c post) (kept : ∀ d d', Later d d' → R d → R d') (first : R d) :
    YieldsFrom me d c (fun a d => post a d ∧ R d) := by
  have stable : ∀ (locked : List Key) d d', protocol.Rely me locked d d' → R d → R d' :=
    fun _ _ _ rely => kept _ _ rely.evo.1
  have own : ∀ ℓ d d', protocol.inv d → protocol.guar me ℓ d d' → R d → R d' := by
    rintro ℓ d _ - ⟨ws, rfl, -⟩
    exact kept _ _ (.applyAll ws d)
  have framed := wp_frame stable own _ _ _ first yields
  refine Call.wp_mono ?_ framed
  rintro r tx d ⟨⟨closed, holds⟩, later⟩
  exact ⟨closed, fun a ok => ⟨holds a ok, later⟩⟩

end Yields

/-! ### Single statements -/

section Statements

variable {me : Nat} {d : Db} {ws : List Write}

theorem setPayment_ok {id : Id} {data : PaymentData} {a : Unit}
    (result : setPayment id data d = .ok (ws, a)) :
    ∃ row, d.payment id = some row ∧ row.id = id ∧ ws = [.updatePayment id data] := by
  simp only [setPayment] at result
  split at result
  · cases result
  next stored =>
    cases found : d.payment id with
    | none => simp [found] at stored
    | some row => exact ⟨row, rfl, Table.find_key found, by cases result; rfl⟩

theorem setPaymentWhere_ok {id : Id} {matching : Payment → Bool} {data : PaymentData} {hit : Bool}
    (result : setPaymentWhere id matching data d = .ok (ws, hit)) :
    (hit = false ∧ ws = []) ∨ ∃ row, d.payment id = some row ∧ row.id = id ∧
      matching row = true ∧ hit = true ∧ ws = [.updatePayment id data] := by
  simp only [setPaymentWhere] at result
  split at result
  next row found =>
    split at result
    next holds =>
      cases result
      exact Or.inr ⟨row, found, Table.find_key found, holds, rfl, rfl⟩
    next =>
      cases result
      exact Or.inl ⟨rfl, rfl⟩
  next =>
    cases result
    exact Or.inl ⟨rfl, rfl⟩

theorem Label.Claims.of_none {ℓ : Label} (none : ∀ e, .insertEvent e ∉ ws) : ℓ.Claims ws :=
  fun e _ member => absurd member (none e)

/-- A statement that updates one payment, as `Move` allows. -/
theorem does_of_move {ℓ : Label} {row : Payment} {data : PaymentData}
    (found : d.payment row.id = some row) (move : Move d ℓ row data) :
    protocol.Does me ℓ d (applyAll [.updatePayment row.id data] d) := by
  have commit : Commit me d ℓ ([] ++ .updatePayment row.id data :: []) :=
    .moved found move (by simp) (.of_none (by simp))
  exact does_of_commit commit

end Statements

/-! ### Order creation -/

/-- The payment is stored, for the given booking. -/
def Db.holds (d : Db) (paymentId bookingId : Id) : Prop :=
  ∃ row, d.payment paymentId = some row ∧ row.bookingId = bookingId

section Orders

variable {me : Nat} {d d' : Db}

theorem holds_of_later {id bookingId : Id} (later : Later d d') (stored : d.holds id bookingId) :
    d'.holds id bookingId := by
  obtain ⟨row, found, booked⟩ := stored
  obtain ⟨row', found', same⟩ := later.payment found
  exact ⟨row', found', same.trans booked⟩

theorem holds_of_rely {locked : List Key} {id bookingId : Id}
    (rely : protocol.Rely me locked d d') (stored : d.holds id bookingId) :
    d'.holds id bookingId :=
  holds_of_later rely.evo.1 stored

theorem holds_of_booking {bookingId : Id} {p : Payment} (wf : Wf d)
    (found : d.paymentOfBooking bookingId = some p) : d.holds p.id bookingId :=
  ⟨p, Table.find_of_mem wf.ids (Table.mem_of_find found), Table.find_key found⟩

/-- What a claimant has: the stored record of its booking. -/
def Claimed (bookingId : Id) (claim : Option Payment × Bool) (d : Db) : Prop :=
  ∀ p, claim = (some p, true) → d.holds p.id bookingId

theorem createIntent_yields (bookingId newId : Id) (amountPaise : Int) (currency : Text) :
    Yields me (createIntent bookingId newId amountPaise currency)
      fun p d => d.holds p.id bookingId := by
  intro d
  refine .stmt fun d' ws p _ _ result => ?_
  split at result
  · cases result
  next free =>
    cases result
    have fresh : ∀ old ∈ d'.payments,
        (newIntent bookingId newId amountPaise currency d'.now).clash old = false := by
      simpa using free
    refine ⟨does_of_commit (.inserted rfl rfl fresh),
      newIntent bookingId newId amountPaise currency d'.now, ?_, rfl⟩
    -- no stored row has the new id, so the lookup passes them all and finds the new row
    have absent : Table.find Payment.id d'.payments newId = none := by
      refine Table.find_none_iff.mpr fun old member same => ?_
      have clashes : (newIntent bookingId newId amountPaise currency d'.now).clash old = true := by
        simp [Payment.clash, newIntent, same]
      exact absurd (clashes.symm.trans (fresh old member)) (by simp)
    simp only [Db.payment, applyAll_cons, applyAll_nil, write_eq_apply, Write.apply,
      Table.insert_of_free fresh]
    rw [newIntent, Table.find_append, absent, Option.none_or, Table.find_cons, if_pos rfl]

/-- The claim of a FAILED record, and the read after it. -/
theorem reclaim_yields {p : Payment} {bookingId : Id} (amountPaise : Int) (currency : Text)
    (stored : d.holds p.id bookingId) :
    YieldsFrom me d (claimOrder bookingId 0 amountPaise currency (some p)) (Claimed bookingId) := by
  simp only [claimOrder]
  split
  · refine .bind (fun _ d => d.holds p.id bookingId) (.stmt ?_) ?_
    · intro d₁ ws hit rely _ result
      have stored := holds_of_rely rely stored
      rcases setPaymentWhere_ok result with ⟨-, rfl⟩ | ⟨row, found, named, matched, -, rfl⟩
      · exact ⟨Or.inl rfl, stored⟩
      · refine ⟨?_, holds_of_later (.applyAll _ d₁) stored⟩
        rw [← named] at found ⊢
        exact does_of_move found (.reclaimed (of_decide_eq_true matched))
    · -- whether or not the claim has hit, the record is read again
      intro hit d₁ stored
      refine .bind (fun q d => ∀ p', q = some p' → d.holds p'.id bookingId) (.read ?_) ?_
      · intro d₂ rely _ p' found
        have named : p'.id = p.id := Table.find_key found
        rw [named]
        exact holds_of_rely rely stored
      · intro q d₂ known
        refine .pure ?_
        rintro p' ⟨⟩
        exact known p' rfl
  · exact .pure (by rintro q ⟨⟩)

theorem claimOrder_yields (bookingId newId : Id) (amountPaise : Int) (currency : Text)
    {existing : Option Payment} (known : ∀ p, existing = some p → d.holds p.id bookingId) :
    YieldsFrom me d (claimOrder bookingId newId amountPaise currency existing)
      (Claimed bookingId) := by
  cases existing with
  | none =>
    refine .bind _ (createIntent_yields bookingId newId amountPaise currency d).attempt ?_
    intro created d₁ stored
    match created with
    | .ok p =>
      refine .pure ?_
      rintro q ⟨⟩
      exact stored p rfl
    | .error .uniqueViolation =>
      -- another call has created the record first: it is read, but not claimed
      exact .bind (fun _ _ => True) (.read fun _ _ _ => trivial) fun p d₂ _ => .pure (by rintro q ⟨⟩)
    | .error (.payment ..) | .error (.provider ..) | .error (.authorization ..)
    | .error .recordNotFound | .error .database => exact .throw _ _
  | some p => exact reclaim_yields amountPaise currency (known p rfl)

theorem sendOrder_yields (bookingId : Id) (amount : Int) (currency : Text) :
    Yields me (sendOrder bookingId amount currency) fun orderId d => d.placed orderId bookingId := by
  intro d d' rely _
  refine ⟨does_of_commit (.plain (by simp [Write.plain]) (.of_none (by simp)) trivial), rfl, ?_⟩
  rintro _ ⟨⟩
  refine ⟨_, List.getElem?_concat_length, rfl⟩

theorem razorpayCreateOrder_yields (cfg : Config) (amountPaise : Int) (currency : Text) (bookingId : Id)
    (answer : OrdersCreate) :
    Yields me (razorpayCreateOrder cfg amountPaise currency bookingId answer)
      fun order d => d.placed order.razorpayOrderId bookingId := by
  intro d
  simp only [razorpayCreateOrder]
  split
  · exact .throw _ _
  split
  · exact .throw _ _
  split
  · exact .throw _ _
  cases answer with
  | refused => exact .throw _ _
  | lost => exact .bind _ (sendOrder_yields _ _ _ d) fun _ _ _ => .throw _ _
  | replied idPresent returnedAmount returnedCurrency =>
    refine .bind _ (sendOrder_yields _ _ _ d) fun orderId d₁ placed => ?_
    split
    next order checked =>
      refine .pure ?_
      have same : order.razorpayOrderId = orderId := by
        simp only [checkOrder] at checked
        (repeat' split at checked) <;> cases checked
        rfl
      rwa [same]
    next => exact .throw _ _

theorem failOrder_yields (paymentId : Id) (reason : String) :
    Yields me (failOrder paymentId reason) fun _ _ => True := by
  intro d
  refine .stmt fun d' ws hit _ _ result => ⟨?_, trivial⟩
  rcases setPaymentWhere_ok result with ⟨-, rfl⟩ | ⟨row, found, named, matched, -, rfl⟩
  · exact Or.inl rfl
  · rw [← named] at found ⊢
    exact does_of_move found (.orderFailed (of_decide_eq_true matched))

theorem persistOrder_yields {paymentId bookingId : Id} {order : RazorpayOrderResult}
    (stored : d.holds paymentId bookingId) (placed : d.placed order.razorpayOrderId bookingId) :
    YieldsFrom me d (persistOrder paymentId order) fun _ _ => True := by
  refine .bind (fun _ d => d.holds paymentId bookingId ∧ d.placed order.razorpayOrderId bookingId)
    (.choose fun d' _ rely => ⟨holds_of_rely rely stored, rely.evo.1.orders _ _ placed⟩) ?_
  rintro reachable d₁ ⟨stored, placed⟩
  cases reachable with
  | false => exact .throw _ _
  | true =>
    refine .stmt fun d₂ ws _ rely _ result => ⟨?_, trivial⟩
    obtain ⟨row, found, booked⟩ := holds_of_rely rely stored
    have named : row.id = paymentId := Table.find_key found
    rw [found] at result
    dsimp only at result
    split at result
    · cases result
    · cases result
      rw [← named] at found ⊢
      -- an order stays placed for its booking, whatever the row has gone through
      refine does_of_move found (.orderSaved ?_)
      rw [booked]
      exact rely.evo.1.orders _ _ placed

theorem executeOrder_yields (cfg : Config) {bookingId : Id} (amountPaise : Int) (currency : Text)
    {record : Payment} (answer : OrdersCreate) (stored : d.holds record.id bookingId) :
    YieldsFrom me d (executeOrder cfg bookingId amountPaise currency record answer)
      fun _ _ => True := by
  refine .bind _ (YieldsFrom.keeping
    (razorpayCreateOrder_yields cfg amountPaise currency bookingId answer d).attempt
    (fun _ _ => holds_of_later) stored) ?_
  rintro (providerErr | order) d₁ ⟨placed, stored⟩
  · refine .bind (fun _ _ => True) (.choose fun _ _ _ => trivial) fun reachable d₂ _ => ?_
    cases reachable with
    | false => exact .throw _ _
    | true => exact .bind _ (failOrder_yields _ _ d₂) fun _ _ _ => .throw _ _
  · refine .bind _ (persistOrder_yields stored (placed order rfl)).attempt fun saved d₂ _ => ?_
    cases saved with
    | error e => exact .throw _ _
    | ok updated => exact .pure trivial

theorem pollOrder_yields (bookingId : Id) (amountPaise : Int) (attempts : Nat) :
    Yields me (pollOrder bookingId amountPaise attempts) fun _ _ => True := by
  -- an attempt only reads
  induction attempts with
  | zero => exact fun d => .throw _ _
  | succ attempts ih =>
    intro d
    refine .bind (fun _ _ => True) (.read fun _ _ _ => trivial) fun refreshed d₁ _ => ?_
    cases refreshed with
    | none => exact ih d₁
    | some row =>
      dsimp only
      split
      · exact .pure trivial
      · split
        · exact .throw _ _
        · exact ih d₁

theorem awaitOrder_yields (bookingId : Id) (amountPaise : Int) (record : Option Payment) :
    Yields me (awaitOrder bookingId amountPaise record) fun _ _ => True := by
  intro d
  simp only [awaitOrder]
  split
  · split
    · exact .pure trivial
    · exact pollOrder_yields _ _ _ d
  · exact pollOrder_yields _ _ _ d

theorem orderFor_yields (cfg : Config) (bookingId newId : Id) (amountPaise : Int)
    (answer : OrdersCreate) :
    Yields me (orderFor cfg bookingId newId amountPaise answer) fun _ _ => True := by
  intro d
  refine .bind (fun existing d => ∀ p, existing = some p → d.holds p.id bookingId) (.read ?_) ?_
  · exact fun d₁ rely _ p found => holds_of_booking rely.inv found
  · intro existing d₁ known
    split
    · exact .pure trivial
    · exact .throw _ _
    · -- only the claimant asks the provider; the others wait for its order
      refine .bind _ (claimOrder_yields bookingId newId amountPaise cfg.currency known) ?_
      intro claim d₂ claimed
      split
      next record => exact executeOrder_yields cfg amountPaise cfg.currency answer (claimed record rfl)
      next => exact awaitOrder_yields _ _ _ d₂

theorem createOrder_yields (cfg : Config) (bookingId customerId newId : Id) (answer : OrdersCreate) :
    Yields me (createOrder cfg bookingId customerId newId answer) fun _ _ => True := by
  intro d
  refine .bind (fun _ _ => True) (.read fun _ _ _ => trivial) fun booking d₁ _ => ?_
  cases booking with
  | none => exact .throw _ _
  | some booking =>
    dsimp only
    split
    · split
      · exact .throw _ _
      · split
        · exact .throw _ _
        · exact orderFor_yields _ _ _ _ _ d₁
    · exact .throw _ _

end Orders

/-! ### Webhooks -/

/-- Where a webhook transaction is to arrive: whatever others commit until then, its writes are
a commit under its label and include the event. A duplicate finds the event stored. -/
def Delivered (me : Nat) (eventId : EventId) (label : Applied → Label) :
    Except Failure (Applied × String) → Option PaymentTx → Db → Prop
  | .ok r, some t, d => (∀ d', protocol.Rely me t.locks d d' → Commit me d' (label r.1) t.writes) ∧
      ∃ e, .insertEvent e ∈ t.writes ∧ e.id = eventId
  | .ok _, none, _ => False
  | .error e, _, d => e = .uniqueViolation → (d.event eventId).isSome

theorem event_of_insert {ws : List Write} {e : WebhookEvent} (member : .insertEvent e ∈ ws) (d : Db) :
    ((applyAll ws d).event e.id).isSome := by
  obtain ⟨before, after, rfl⟩ := List.append_of_mem member
  rw [applyAll_append, applyAll_cons]
  refine (Later.applyAll after _).event ?_
  -- when the insertion clashes, the event is stored already
  have stored : ∃ e' ∈ (Table.insert WebhookEvent.clash (applyAll before d).events e), e'.id = e.id := by
    simp only [Table.insert]
    split
    next clash =>
      obtain ⟨old, present, same⟩ := List.any_eq_true.mp clash
      exact ⟨old, present, (of_decide_eq_true same).symm⟩
    next => exact ⟨e, by simp, rfl⟩
  obtain ⟨e', present, same⟩ := stored
  rw [← same]
  exact Option.isSome_iff_exists.mpr (Table.find_isSome_of_mem present)

theorem acknowledge_yields {me : Nat} {eventId : EventId} {label : Applied → Label}
    {body : Service (Applied × String)} (duplicate : String)
    (commits : ∀ d, Call.wp protocol me (Delivered me eventId label) body (some {}) d) :
    Yields me (acknowledge duplicate label body) fun _ d => (d.event eventId).isSome := by
  intro d
  rw [acknowledge, YieldsFrom, Call.YieldsFrom, Call.wp_bind, Call.wp_attempt, Call.wp_transaction]
  intro d₁ _
  refine Call.wp_mono ?_ (commits d₁)
  rintro (e | r) tx d₂ delivered
  · intro d₃ rely
    have stored := fun violated => rely.evo.1.event (delivered violated)
    rw [Call.andThen_ok]
    cases e with
    | uniqueViolation =>
      -- a duplicate is acknowledged as well: its event is stored, and stays so
      refine ⟨rfl, ?_⟩
      rintro _ ⟨⟩
      exact stored rfl
    | _ => exact ⟨rfl, by rintro _ ⟨⟩⟩
  · cases tx with
    | none => exact delivered.elim
    | some t =>
      obtain ⟨commit, e, member, named⟩ := delivered
      intro d₃ rely _
      refine ⟨does_of_commit (commit d₃ rely), rfl, ?_⟩
      rintro _ ⟨⟩
      exact named ▸ event_of_insert member d₃

section Deliveries

variable {α : Type} {me : Nat} {t : PaymentTx} {d : Db}

theorem wp_claimEvent {id : EventId} {eventType : Text}
    {Q : Except Failure Unit → Option PaymentTx → Db → Prop}
    (duplicate : ∀ d', protocol.Rely me ([] : List Key) d d' → (d'.event id).isSome →
      Q (.error .uniqueViolation) (some {}) d')
    (claimed : ∀ d' t', protocol.Rely me ([] : List Key) d d' →
      t'.writes = [.insertEvent { id, eventType }] → Q (.ok ()) (some t') d') :
    Call.wp protocol me Q (claimEvent id eventType) (some {}) d := by
  rw [claimEvent, step]
  refine Call.stmt_inTx ?_ ?_
  · intro d' t' ws a rely _ result grows _
    have opened : ws = [.insertEvent { id, eventType }] := by
      simp only [newEvent] at result
      split at result <;> cases result
      rfl
    exact claimed d' t' rely (grows.writes.trans opened)
  · intro d' e rely _ result
    have violated : (d'.event id).isSome ∧ e = .uniqueViolation := by
      simp only [newEvent] at result
      split at result
      next stored => exact ⟨stored, (Except.error.inj result).symm⟩
      next => cases result
    exact violated.2 ▸ duplicate d' rely violated.1

theorem wp_finishEvent {id : EventId} {status : WebhookEventStatus} {reason : Option String}
    {Q : Except Failure Unit → Option PaymentTx → Db → Prop}
    (done : ∀ d' t', protocol.Rely me t.locks d d' → Tx.Grows t t' [.updateEvent id status reason] →
      Q (.ok ()) (some t') d') :
    Call.wp protocol me Q (finishEvent id status reason) (some t) d := by
  rw [finishEvent, step]
  refine Call.stmt_inTx ?_ ?_
  · intro d' t' ws a rely _ result grows _
    cases result
    exact done d' t' rely grows
  · intro d' e _ _ result
    cases result

theorem wp_notify {eventType : OutboxEventType} {p : Payment} {toWorker : Bool}
    {Q : Except Failure Unit → Option PaymentTx → Db → Prop}
    (done : ∀ d' t' ws, protocol.Rely me t.locks d d' → Tx.Grows t t' (List.map .outbox ws) →
      Q (.ok ()) (some t') d') :
    Call.wp protocol me Q (notify eventType p toWorker) (some t) d := by
  rw [notify, Call.wp_bind, query, Call.wp_read]
  intro d₁ rely₁ _
  rw [Call.andThen_ok, step]
  refine Call.stmt_inTx ?_ ?_
  · intro d₂ t' ws a rely₂ _ result grows _
    cases result
    exact done d₂ t' _ (rely₁.trans rely₂) grows
  · intro d' e _ _ result
    cases result

/-- The compare-and-set inside a transaction: the row it has matched is locked. -/
theorem wp_transition {id : Id} {source target : PaymentStatus} {metadata : PaymentData}
    {Q : Except Failure Bool → Option PaymentTx → Db → Prop}
    (legal : target ∈ legalPaymentTransitions source)
    (untouched : ∀ w ∈ t.writes, .payment id ∉ w.keys)
    (kept : ∀ d' t', protocol.Rely me t.locks d d' → Tx.Grows t t' [] → Q (.ok false) (some t') d')
    (moved : ∀ d' t' row, protocol.Rely me t.locks d d' →
      Tx.Grows t t' [.updatePayment id { metadata with status := some target }] →
      .payment id ∈ t'.locks → d'.payment id = some row → row.id = id → row.status = source →
      Q (.ok true) (some t') d') :
    Call.wp protocol me Q (transitionPaymentStatus id source target metadata) (some t) d := by
  rw [transitionPaymentStatus, if_pos legal, step]
  refine Call.stmt_inTx ?_ ?_
  · intro d' t' ws hit rely _ result grows locks
    -- the transaction has not written to the payment yet, so it sees the stored row
    have view : (applyAll t.writes d').payment id = d'.payment id :=
      row_applyAll t.writes d' (.payment id) untouched
    rcases setPaymentWhere_ok result with ⟨rfl, rfl⟩ | ⟨row, found, named, matched, rfl, rfl⟩
    · exact kept d' t' rely grows
    · rw [view] at found
      refine moved d' t' row rely grows ?_ found named (of_decide_eq_true matched)
      exact locks _ (List.mem_singleton.mpr rfl) _ (by simp [Write.keys])
  · intro d' e _ _ result
    simp only [setPaymentWhere] at result
    split at result
    · split at result <;> cases result
    · cases result

/-- An unconditional update inside a transaction. -/
theorem wp_setPayment {id : Id} {data : PaymentData}
    {Q : Except Failure Unit → Option PaymentTx → Db → Prop}
    (untouched : ∀ w ∈ t.writes, .payment id ∉ w.keys)
    (missing : ∀ d', Q (.error .recordNotFound) (some t) d')
    (done : ∀ d' t' row, protocol.Rely me t.locks d d' → Tx.Grows t t' [.updatePayment id data] →
      .payment id ∈ t'.locks → d'.payment id = some row → row.id = id → Q (.ok ()) (some t') d') :
    Call.wp protocol me Q (step (setPayment id data)) (some t) d := by
  rw [step]
  refine Call.stmt_inTx ?_ ?_
  · intro d' t' ws a rely _ result grows locks
    have view : (applyAll t.writes d').payment id = d'.payment id :=
      row_applyAll t.writes d' (.payment id) untouched
    obtain ⟨row, found, named, rfl⟩ := setPayment_ok result
    rw [view] at found
    refine done d' t' row rely grows ?_ found named
    exact locks _ (List.mem_singleton.mpr rfl) _ (by simp [Write.keys])
  · intro d' e _ _ result
    simp only [setPayment] at result
    split at result
    · cases result
      exact missing d'
    · cases result

/-- Writes of a delivery around its update of the payment: the event, and notices. -/
def Write.delivers (id : EventId) (w : Write) : Prop :=
  w.plain = true ∧ ∀ e, w = .insertEvent e → e.id = id

/-- The event of a captured payment goes with the label of its delivery. -/
def Names (eventId : EventId) (label : Applied → Label) : Prop :=
  ∀ captureId r, eventId = .payment captureId →
    ∃ orderId result, label r = .captured orderId captureId result

theorem Names.claims {eventId : EventId} {label : Applied → Label} {r : Applied} {ws : List Write}
    (names : Names eventId label) (delivers : ∀ w ∈ ws, w.delivers eventId) :
    (label r).Claims ws := by
  intro e captureId member named
  exact names captureId r (((delivers _ member).2 e rfl).symm.trans named)

theorem delivered_plain {eventId : EventId} {eventType : Text} {label : Applied → Label}
    {r : Applied × String} {after : List Write} (names : Names eventId label)
    (writes : t.writes = .insertEvent { id := eventId, eventType } :: after)
    (delivers : ∀ w ∈ after, w.delivers eventId) (idle : (label r.1).Idle) :
    Delivered me eventId label (.ok r) (some t) d := by
  have all : ∀ w ∈ t.writes, w.delivers eventId := by
    rw [writes]
    intro w member
    rcases List.mem_cons.mp member with rfl | member
    · exact ⟨rfl, by rintro e ⟨⟩; rfl⟩
    · exact delivers w member
  refine ⟨fun d' _ => .plain (fun w member => (all w member).1) (names.claims all) idle,
    { id := eventId, eventType }, ?_, rfl⟩
  rw [writes]
  exact List.mem_cons_self

theorem delivered_moved {eventId : EventId} {eventType : Text} {label : Applied → Label}
    {r : Applied × String} {id : Id} {row : Payment} {data : PaymentData}
    (before after : List Write) (names : Names eventId label)
    (writes : t.writes = .insertEvent { id := eventId, eventType } ::
      before ++ .updatePayment id data :: after)
    (delivers : ∀ w ∈ before ++ after, w.delivers eventId) (locked : .payment id ∈ t.locks)
    (found : d.payment id = some row) (named : row.id = id)
    (move : ∀ d', Later d d' → Move d' (label r.1) row data) :
    Delivered me eventId label (.ok r) (some t) d := by
  subst named
  have all : ∀ w ∈ (.insertEvent { id := eventId, eventType } :: before) ++ after,
      w.delivers eventId := by
    intro w member
    rcases List.mem_cons.mp member with rfl | member
    · exact ⟨rfl, by rintro e ⟨⟩; rfl⟩
    · exact delivers w member
  refine ⟨fun d' rely => ?_, { id := eventId, eventType }, ?_, rfl⟩
  · -- the row is locked, so at the commit it is what the update has found
    have still : d'.payment row.id = some row := (rely.rows (.payment row.id) locked).trans found
    rw [writes]
    exact .moved still (move d' rely.evo.1) (fun w member => (all w member).1) (names.claims all)
  · rw [writes]
    exact List.mem_cons_self

end Deliveries

section Handlers

variable {me : Nat}

theorem names_captured (orderId captureId : Id) :
    Names (.payment captureId) (.captured orderId captureId) := by
  rintro _ r ⟨⟩
  exact ⟨orderId, r, rfl⟩

/-- What a captured event knows of the payment it has found by its order id. -/
structure Located (d : Db) (orderId : Id) (p : Payment) : Prop where
  stored : d.holds p.id p.bookingId
  placed : d.placed orderId p.bookingId

theorem Located.later {d d' : Db} {orderId : Id} {p : Payment} (located : Located d orderId p)
    (later : Later d d') : Located d' orderId p :=
  ⟨holds_of_later later located.stored, later.orders _ _ located.placed⟩

theorem located_of_order {d : Db} {orderId : Id} {p : Payment} (wf : Wf d)
    (found : d.paymentOfOrder orderId = some p) : Located d orderId p := by
  have member := Table.mem_of_find found
  exact ⟨⟨p, Table.find_of_mem wf.ids member, rfl⟩,
    wf.placed p member orderId (Table.find_key found)⟩

theorem Located.row {d : Db} {orderId : Id} {p row : Payment} (located : Located d orderId p)
    (found : d.payment p.id = some row) : d.placed orderId row.bookingId := by
  obtain ⟨row', found', booked⟩ := located.stored
  obtain rfl := Option.some.inj (found.symm.trans found')
  exact booked ▸ located.placed

theorem quarantine_commits {orderId captureId : Id} {eventType : Text} {p : Payment} {t : PaymentTx}
    {d : Db} {failureReason quarantineReason message : String} (located : Located d orderId p)
    (writes : t.writes = [.insertEvent { id := .payment captureId, eventType }]) :
    Call.wp protocol me (Delivered me (.payment captureId) (.captured orderId captureId))
      (quarantine (.payment captureId) p failureReason quarantineReason message) (some t) d := by
  rw [quarantine, Call.wp_bind]
  refine wp_finishEvent fun d₁ t₁ rely₁ grows₁ => ?_
  rw [Call.andThen_ok, Call.wp_bind]
  refine wp_setPayment ?_ ?_ ?_
  · rw [grows₁.writes, writes]
    simp [Write.keys]
  · exact fun _ violated => by cases violated
  · intro d₂ t₂ row rely₂ grows₂ locked found named
    -- the order stays placed for the booking until the commit
    have here := (located.later rely₁.evo.1).later rely₂.evo.1
    have placed := here.row found
    rw [Call.andThen_ok, Call.wp_pure]
    have all : t₂.writes = .insertEvent { id := .payment captureId, eventType } ::
        [.updateEvent (.payment captureId) .FAILED (some failureReason)] ++
        .updatePayment p.id { quarantineReason := some (some quarantineReason) } :: [] := by
      rw [grows₂.writes, grows₁.writes, writes]
      rfl
    refine delivered_moved _ _ (names_captured _ _) all ?_ locked found named fun d' later => ?_
    · simp [Write.delivers, Write.plain]
    · rw [← named]
      exact .mismatched (later.orders _ _ placed)

theorem delivers_outbox (eventId : EventId) (ws : List OutboxEvent) :
    ∀ w ∈ List.map Write.outbox ws, w.delivers eventId := by
  intro w member
  obtain ⟨e, -, rfl⟩ := List.mem_map.mp member
  exact ⟨rfl, by rintro _ ⟨⟩⟩

theorem delivers_finish (eventId : EventId) (status : WebhookEventStatus) (reason : Option String) :
    ∀ w ∈ [Write.updateEvent eventId status reason], w.delivers eventId := by
  intro w member
  obtain rfl := List.mem_singleton.mp member
  exact ⟨rfl, by rintro _ ⟨⟩⟩

/-- A delivery that ends by finishing its event, without touching the payment. -/
theorem finish_commits {eventId : EventId} {eventType : Text} {label : Applied → Label}
    {t : PaymentTx} {d : Db} {status : WebhookEventStatus} {reason : Option String}
    {r : Applied × String} (names : Names eventId label)
    (writes : t.writes = [.insertEvent { id := eventId, eventType }]) (idle : (label r.1).Idle) :
    Call.wp protocol me (Delivered me eventId label)
      (do finishEvent eventId status reason; pure r) (some t) d := by
  rw [Call.wp_bind]
  refine wp_finishEvent fun d₁ t₁ _ grows => ?_
  rw [Call.andThen_ok, Call.wp_pure]
  have all : t₁.writes = .insertEvent { id := eventId, eventType } ::
      [.updateEvent eventId status reason] := by
    rw [grows.writes, writes]
    rfl
  exact delivered_plain names all (delivers_finish eventId status reason) idle

/-- A delivery that has updated the payment, notifies and finishes its event. -/
theorem notified_commits {eventId : EventId} {eventType : Text} {label : Applied → Label}
    {t : PaymentTx} {d : Db} {notice : OutboxEventType} {p : Payment} {toWorker : Bool}
    {status : WebhookEventStatus} {reason : Option String} {r : Applied × String} {id : Id}
    {row : Payment} {data : PaymentData} (names : Names eventId label)
    (writes : t.writes = [.insertEvent { id := eventId, eventType }, .updatePayment id data])
    (locked : .payment id ∈ t.locks) (found : d.payment id = some row) (named : row.id = id)
    (move : ∀ d', Later d d' → Move d' (label r.1) row data) :
    Call.wp protocol me (Delivered me eventId label)
      (do notify notice p toWorker; finishEvent eventId status reason; pure r) (some t) d := by
  rw [Call.wp_bind]
  refine wp_notify fun d₁ t₁ ws rely₁ grows₁ => ?_
  rw [Call.andThen_ok, Call.wp_bind]
  refine wp_finishEvent fun d₂ t₂ rely₂ grows₂ => ?_
  rw [Call.andThen_ok, Call.wp_pure]
  have rely := grows₁.rely rely₁ rely₂
  have still : d₂.payment id = some row := (rely.rows (.payment id) locked).trans found
  have all : t₂.writes = .insertEvent { id := eventId, eventType } ::
      [] ++ .updatePayment id data :: (ws.map .outbox ++ [.updateEvent eventId status reason]) := by
    rw [grows₂.writes, grows₁.writes, writes]
    rfl
  refine delivered_moved _ _ names all ?_ (grows₂.kept _ (grows₁.kept _ locked)) still named
    fun d' later => move d' (rely.evo.1.trans later)
  intro w member
  rw [List.nil_append] at member
  rcases List.mem_append.mp member with member | member
  · exact delivers_outbox eventId ws w member
  · exact delivers_finish eventId status reason w member

theorem completePayment_commits {orderId captureId : Id} {eventType : Text} {p : Payment}
    {t : PaymentTx} {d : Db} (located : Located d orderId p)
    (writes : t.writes = [.insertEvent { id := .payment captureId, eventType }]) :
    Call.wp protocol me (Delivered me (.payment captureId) (.captured orderId captureId))
      (completePayment (.payment captureId) p captureId) (some t) d := by
  rw [completePayment, Call.wp_bind]
  refine wp_transition (by decide) ?_ ?_ ?_
  · rw [writes]
    simp [Write.keys]
  · intro d₁ t₁ _ grows
    rw [Call.andThen_ok]
    exact finish_commits (names_captured _ _) (grows.same.trans writes) trivial
  · intro d₁ t₁ row rely grows locked found named pending
    rw [Call.andThen_ok]
    have placed := (located.later rely.evo.1).row found
    refine notified_commits (names_captured _ _) (grows.after writes) locked found named
      fun d' later => ?_
    rw [← named]
    exact .captured pending (later.orders _ _ placed)

theorem processPaymentCapturedTx_commits (orderId captureId : Id) (eventType : Text)
    (capturedAmount : Option Int) (capturedCurrency : Option Text) (d : Db) :
    Call.wp protocol me (Delivered me (.payment captureId) (.captured orderId captureId))
      (processPaymentCapturedTx (.payment captureId) eventType orderId captureId capturedAmount
        capturedCurrency) (some {}) d := by
  rw [processPaymentCapturedTx, Call.wp_bind]
  refine wp_claimEvent ?_ fun d₁ t₁ rely₁ writes => ?_
  · exact fun d' _ stored _ => stored
  · rw [Call.andThen_ok, Call.wp_bind, query, Call.wp_read]
    intro d₂ rely₂ _
    have view : (Tx.view (some t₁) d₂).paymentOfOrder orderId = d₂.paymentOfOrder orderId := by
      rw [Tx.view_some, writes]
      rfl
    rw [Call.andThen_ok, view]
    cases found : d₂.paymentOfOrder orderId with
    | none => exact finish_commits (names_captured _ _) writes trivial
    | some p =>
      have located := located_of_order rely₂.inv found
      dsimp only
      split
      · exact quarantine_commits located writes
      · split
        · exact quarantine_commits located writes
        · exact completePayment_commits located writes

theorem processPaymentFailedTx_commits (orderId : Id) (eventType : Text) (d : Db) :
    Call.wp protocol me (Delivered me (.failed orderId) (.failed orderId))
      (processPaymentFailedTx (.failed orderId) eventType orderId) (some {}) d := by
  have names : Names (.failed orderId) (.failed orderId) := by rintro _ _ ⟨⟩
  rw [processPaymentFailedTx, Call.wp_bind]
  refine wp_claimEvent ?_ fun d₁ t₁ rely₁ writes => ?_
  · exact fun d' _ stored _ => stored
  · rw [Call.andThen_ok, Call.wp_bind, query, Call.wp_read]
    intro d₂ rely₂ _
    rw [Call.andThen_ok]
    cases (Tx.view (some t₁) d₂).paymentOfOrder orderId with
    | none => exact finish_commits names writes trivial
    | some p =>
      rw [Call.wp_bind, Call.wp_attempt]
      refine wp_transition (by decide) ?_ ?_ ?_
      · rw [writes]
        simp [Write.keys]
      · intro d₃ t₂ _ grows
        exact finish_commits names (grows.same.trans writes) trivial
      · intro d₃ t₂ row rely grows locked found named pending
        refine notified_commits names (grows.after writes) locked found named fun d' later => ?_
        rw [← named]
        exact .failed pending

theorem processRefundProcessedTx_commits (eventId : EventId) (captureId : Id) (eventType : Text)
    (refundId : Option Id) (refundAmount : Option Int) (other : ∀ id, eventId ≠ .payment id) (d : Db) :
    Call.wp protocol me (Delivered me eventId (.refundEvent captureId))
      (processRefundProcessedTx eventId eventType captureId refundId refundAmount) (some {}) d := by
  have names : Names eventId (.refundEvent captureId) := fun id _ same => absurd same (other id)
  rw [processRefundProcessedTx, Call.wp_bind]
  refine wp_claimEvent ?_ fun d₁ t₁ rely₁ writes => ?_
  · exact fun d' _ stored _ => stored
  · rw [Call.andThen_ok, Call.wp_bind, query, Call.wp_read]
    intro d₂ rely₂ _
    rw [Call.andThen_ok]
    have untouched : ∀ id, ∀ w ∈ t₁.writes, .payment id ∉ w.keys := by
      intro id
      rw [writes]
      simp [Write.keys]
    cases (Tx.view (some t₁) d₂).paymentOfCapture captureId with
    | none => exact finish_commits names writes trivial
    | some p =>
      dsimp only
      split
      · rw [Call.wp_bind]
        refine wp_setPayment (untouched p.id) ?_ ?_
        · exact fun _ violated => by cases violated
        · intro d₃ t₂ row rely grows locked found named
          rw [Call.andThen_ok]
          refine notified_commits names (grows.after writes) locked found named fun d' later => ?_
          rw [← named]
          exact .refunded
      · split
        · rw [Call.wp_bind]
          refine wp_setPayment (untouched p.id) ?_ ?_
          · exact fun _ violated => by cases violated
          · intro d₃ t₂ row rely grows locked found named
            rw [Call.andThen_ok, Call.wp_bind]
            refine wp_finishEvent fun d₄ t₃ rely₄ grows₄ => ?_
            rw [Call.andThen_ok, Call.wp_pure]
            have still := (rely₄.rows (.payment p.id) locked).trans found
            refine delivered_moved [] _ names (grows₄.after (grows.after writes))
              (delivers_finish _ _ _) (grows₄.kept _ locked) still named fun d' later => ?_
            rw [← named]
            exact .enriched
        · exact finish_commits names writes trivial

/-- A delivery of a captured payment that is acknowledged has its event stored. -/
def WebhookBody.Stored (body : WebhookBody) (d : Db) : Prop :=
  ∀ orderId captureId, body.event = "payment.captured".toList →
    body.razorpayOrderId = some orderId → body.razorpayPaymentId = some captureId →
    (d.event (.payment captureId)).isSome

theorem deriveWebhookEventId_captured {captureId : Id} {orderId : Option Id} :
    deriveWebhookEventId "payment.captured".toList (some captureId) orderId =
      some (.payment captureId) := by
  simp [deriveWebhookEventId]

theorem deriveWebhookEventId_failed {paymentId : Option Id} {orderId : Id} :
    deriveWebhookEventId "payment.failed".toList paymentId (some orderId) =
      some (.failed orderId) := by
  simp [deriveWebhookEventId]

theorem deriveWebhookEventId_other {eventType : Text} {paymentId orderId : Option Id} {id : EventId}
    (other : eventType ≠ "payment.captured".toList)
    (derived : deriveWebhookEventId eventType paymentId orderId = some id) :
    ∀ captureId, id ≠ .payment captureId := by
  rintro captureId rfl
  simp only [deriveWebhookEventId] at derived
  rw [if_neg fun h => other h.1] at derived
  (repeat' split at derived) <;> simp at derived

theorem handleWebhook_yields (body : WebhookBody) :
    Yields me (handleWebhook body) fun _ d => body.Stored d := by
  intro d
  simp only [handleWebhook]
  by_cases captured : body.event = "payment.captured".toList
  · cases paid : body.razorpayPaymentId with
    | none =>
      split
      · exact .pure fun _ _ _ _ named => by rw [paid] at named; cases named
      next eventId _ =>
        rw [if_pos captured, processPaymentCaptured.eq_def]
        split
        next named => cases named
        next => exact .pure fun _ _ _ _ named => by rw [paid] at named; cases named
    | some captureId =>
      rw [captured, deriveWebhookEventId_captured]
      dsimp only
      rw [if_pos rfl]
      cases ordered : body.razorpayOrderId with
      | none => exact .pure fun _ _ _ named => by rw [ordered] at named; cases named
      | some orderId =>
        refine (acknowledge_yields _ (processPaymentCapturedTx_commits orderId captureId _ _ _) d).mono ?_
        intro _ d' stored _ captureId' _ _ named
        rw [paid] at named
        obtain rfl := Option.some.inj named
        exact stored
  · -- the promise is about captured payments only
    have idle : ∀ d', body.Stored d' := fun _ _ _ named => absurd named captured
    split
    · exact .pure (idle _)
    next eventId derived =>
      have other := deriveWebhookEventId_other captured derived
      rw [if_neg captured]
      split
      next failed =>
        cases ordered : body.razorpayOrderId with
        | none => exact .pure (idle _)
        | some orderId =>
          rw [failed, ordered, deriveWebhookEventId_failed] at derived
          obtain rfl := Option.some.inj derived
          exact (acknowledge_yields _ (processPaymentFailedTx_commits orderId _) d).mono
            fun _ d' _ => idle d'
      next =>
        split
        · cases body.razorpayPaymentId with
          | none => exact .pure (idle _)
          | some captureId =>
            exact (acknowledge_yields _
              (processRefundProcessedTx_commits eventId captureId _ _ _ other) d).mono
              fun _ d' _ => idle d'
        · exact .pure (idle _)

end Handlers

/-! ### Refunds -/

section Refunds

variable {me : Nat} {d d' : Db}

/-- The call's own attempt `n` on a payment, claimed or sent, and not recorded yet. -/
def Db.owes (d : Db) (me n : Nat) (paymentId : Id) (sent : Bool) : Prop :=
  ∃ a, d.attempt n = some a ∧ a.call = me ∧ a.paymentId = paymentId ∧ a.recorded = false ∧
    (a.state = .claimed ↔ sent = false)

theorem owes_of_rely {locked : List Key} {n : Nat} {paymentId : Id} {sent : Bool}
    (rely : protocol.Rely me locked d d') (owes : d.owes me n paymentId sent) :
    d'.owes me n paymentId sent := by
  obtain ⟨a, found, mine, named, unrecorded, state⟩ := owes
  obtain ⟨a', found', mine', named', recorded', state'⟩ := rely.evo.2 n a found mine
  exact ⟨a', found', mine', named'.trans named, recorded'.trans unrecorded, state'.trans state⟩

/-- What a claim leaves: the call's own attempt, with the payment stored. -/
def Granted (me : Nat) (paymentId : Id) : Claim → Db → Prop
  | .claimed n, d => d.owes me n paymentId false ∧ (d.payment paymentId).isSome
  | .answered _, _ => True

theorem payment_isSome_of_rely {locked : List Key} {id : Id} (rely : protocol.Rely me locked d d')
    (stored : (d.payment id).isSome) : (d'.payment id).isSome := by
  obtain ⟨p, found⟩ := Option.isSome_iff_exists.mp stored
  obtain ⟨p', found', -⟩ := rely.evo.1.payment found
  exact Option.isSome_iff_exists.mpr ⟨p', found'⟩

theorem claimWhere_ok {statuses : List PaymentStatus} {attempt : RefundAttempt} {reason : String}
    {ws : List Write} {claim : Option Nat}
    (result : claimWhere statuses attempt reason d = .ok (ws, claim)) :
    (claim = none ∧ ws = []) ∨ ∃ row, d.payment attempt.paymentId = some row ∧
      row.id = attempt.paymentId ∧ row.status ∈ statuses ∧ claim = some d.attempts.length ∧
      ws = [.updatePayment attempt.paymentId
        { status := some .REFUND_PENDING, refundReason := some (some reason) },
        .claimRefund attempt] := by
  simp only [claimWhere] at result
  split at result
  next row found =>
    split at result
    next among =>
      cases result
      exact Or.inr ⟨row, found, Table.find_key found, among, rfl, rfl⟩
    next =>
      cases result
      exact Or.inl ⟨rfl, rfl⟩
  next =>
    cases result
    exact Or.inl ⟨rfl, rfl⟩

/-- The claim statement commits as `Claiming` says and opens the attempt of this call. -/
theorem claim_yields {ℓ : Label} {statuses : List PaymentStatus} {attempt : RefundAttempt}
    {reason : String} (mine : attempt.call = me)
    (fresh : attempt.state = .claimed ∧ attempt.recorded = false)
    (claiming : ∀ row, row.id = attempt.paymentId → row.status ∈ statuses → Claiming ℓ row
      { status := some .REFUND_PENDING, refundReason := some (some reason) }) :
    YieldsFrom me d (Call.stmt ℓ (claimWhere statuses attempt reason)) fun claim d =>
      ∀ n, claim = some n → Granted me attempt.paymentId (.claimed n) d := by
  refine .stmt fun d₁ ws claim _ _ result => ?_
  rcases claimWhere_ok result with ⟨rfl, rfl⟩ | ⟨row, found, named, among, rfl, rfl⟩
  · exact ⟨Or.inl rfl, by rintro n ⟨⟩⟩
  · have later := Later.applyAll [.updatePayment attempt.paymentId
      { status := some .REFUND_PENDING, refundReason := some (some reason) },
      .claimRefund attempt] d₁
    refine ⟨?_, ?_⟩
    · have commits := claiming row named among
      rw [← named] at found ⊢
      exact does_of_commit (.claimed found commits mine named.symm fresh)
    · -- the attempt that was appended is the call's own
      rintro n ⟨⟩
      refine ⟨⟨attempt, List.getElem?_concat_length, mine, rfl, fresh.2, by simp [fresh.1]⟩, ?_⟩
      obtain ⟨row', found', -⟩ := later.payment found
      exact Option.isSome_iff_exists.mpr ⟨row', found'⟩

theorem fetchPayment_yields (cfg : Config) (razorpayPaymentId : Id) :
    Yields me (fetchPayment cfg razorpayPaymentId) fun _ _ => True := by
  intro d
  rw [fetchPayment]
  split
  · exact .throw _ _
  · refine .bind (fun _ _ => True) (.choose fun _ _ _ => trivial) fun reachable d₁ _ => ?_
    refine .bind (fun _ _ => True) (.read fun _ _ _ => trivial) fun payment d₂ _ => ?_
    split
    · exact .pure trivial
    · exact .throw _ _
    · exact .throw _ _

theorem reconciledClaim_yields (cfg : Config) {p : Payment} {attempt : RefundAttempt}
    (reason : Option String) (mine : attempt.call = me) (named : attempt.paymentId = p.id)
    (fresh : attempt.state = .claimed ∧ attempt.recorded = false) :
    Yields me (reconciledClaim cfg p attempt reason) (Granted me p.id) := by
  intro d
  have checked : YieldsFrom me d (preflight cfg p attempt reason) (Granted me p.id) := by
    refine .bind _ (fetchPayment_yields cfg _ d) fun providerPayment d₁ _ => ?_
    split
    · -- the provider has refunded already: the row is brought up to date, and nothing is claimed
      refine .bind (fun _ _ => True) (.stmt fun d₂ ws _ _ _ result => ⟨?_, trivial⟩)
        fun _ _ _ => .pure trivial
      obtain ⟨row, found, named, rfl⟩ := setPayment_ok result
      rw [← named] at found ⊢
      exact does_of_move found .refundReconciled
    · refine .bind _ (claim_yields mine fresh fun row here among => ?_) fun claimed d₂ granted => ?_
      · rw [← named, ← here]
        exact .retry among
      · cases claimed with
        | none => exact .throw _ _
        | some n => exact .pure (named ▸ granted n rfl)
  refine .bind _ checked.attempt fun result d₁ granted => ?_
  match result with
  | .ok claim => exact .pure (granted claim rfl)
  | .error (.payment ..) | .error (.provider ..) | .error (.authorization ..)
  | .error .uniqueViolation | .error .recordNotFound | .error .database => exact .throw _ _

theorem normalClaim_yields {p : Payment} {attempt : RefundAttempt} (reason : Option String)
    (mine : attempt.call = me) (named : attempt.paymentId = p.id)
    (fresh : attempt.state = .claimed ∧ attempt.recorded = false) :
    Yields me (normalClaim p attempt reason) (Granted me p.id) := by
  intro d
  refine .bind _ (claim_yields mine fresh fun row here among => ?_) fun claimed d₁ granted => ?_
  · rw [← named, ← here]
    exact .normal among
  · cases claimed with
    | some n => exact .pure (named ▸ granted n rfl)
    | none =>
      -- the row could not be claimed: what it has become decides the answer
      refine .bind (fun _ _ => True) (.read fun _ _ _ => trivial) fun current d₂ _ => ?_
      cases current with
      | none => exact .throw _ _
      | some row =>
        dsimp only
        split
        · exact .pure trivial
        · split
          · exact .throw _ _
          · exact .throw _ _

/-- The end of the provider phase: an error leaves the attempt to be recorded, and is a
definite failure only if nothing was sent. -/
def Unsettled {α : Type} (me n : Nat) (paymentId : Id) (post : Db → Prop) :
    Except Failure α → Option PaymentTx → Db → Prop
  | .ok _, tx, d => tx = none ∧ post d
  | .error e, tx, d => tx = none ∧ ∃ sent, d.owes me n paymentId sent ∧
      (failureStatus e = .REFUND_FAILED → sent = false)

theorem send_owes {n : Nat} {paymentId : Id} (owes : d.owes me n paymentId false) :
    protocol.Does me (.refundSent paymentId) d (applyAll [.sendRefund n] d) ∧
      (applyAll [.sendRefund n] d).owes me n paymentId true := by
  obtain ⟨a, found, mine, rfl, unrecorded, state⟩ := owes
  refine ⟨does_of_commit (.sent found mine ⟨state.mpr rfl, unrecorded⟩), a.send, ?_, mine, rfl,
    unrecorded, by simp [RefundAttempt.send]⟩
  have stored : d.attempts[n]? = some a := found
  simp only [Db.attempt, applyAll_cons, applyAll_nil, write_eq_apply, Write.apply,
    List.getElem?_modify, stored]
  simp

theorem refundResult_error {cfg : Config} {amount : Option Int} {state : Option AttemptState}
    {e : Failure} (result : refundResult cfg amount state = .error e) :
    failureStatus e = .REFUND_UNKNOWN := by
  simp only [refundResult] at result
  (repeat' split at result) <;> cases result <;> rfl

theorem razorpayCreateRefund_wp (cfg : Config) {paymentId : Id} {n : Nat}
    (amountPaise : Option RequestedAmount) (owes : d.owes me n paymentId false) :
    Call.wp protocol me (Unsettled me n paymentId fun d => d.owes me n paymentId true)
      (razorpayCreateRefund cfg paymentId n amountPaise) none d := by
  rw [razorpayCreateRefund]
  split
  · -- refused before anything was sent, so the failure is definite
    exact ⟨rfl, false, owes, fun _ => rfl⟩
  split
  · exact ⟨rfl, false, owes, fun _ => rfl⟩
  · rw [Call.wp_bind, Call.wp_send]
    intro d₁ rely₁ _
    obtain ⟨does, sent⟩ := send_owes (owes_of_rely rely₁ owes)
    refine ⟨does, ?_⟩
    rw [Call.andThen_ok, Call.wp_bind, Call.wp_choose]
    intro d₂ rely₂ delivered
    rw [Call.andThen_ok, Call.wp_bind, query, Call.wp_read]
    intro d₃ rely₃ _
    have still := owes_of_rely rely₃ (owes_of_rely rely₂ sent)
    rw [Call.andThen_ok]
    split
    · exact ⟨rfl, still⟩
    next e failed =>
      -- once it was sent, no error says that the refund was not made
      refine ⟨rfl, true, still, fun definite => ?_⟩
      rw [refundResult_error failed] at definite
      cases definite

theorem setRefunded_ok {paymentId : Id} {n : Nat} {refund : RazorpayRefundResult} {ws : List Write}
    {a : Unit} (result : setRefunded paymentId n refund d = .ok (ws, a)) :
    ∃ row, d.payment paymentId = some row ∧ row.id = paymentId ∧
      ws = [.updatePayment paymentId
        { status := some .REFUNDED, razorpayRefundId := some (some refund.razorpayRefundId)
          refundAmount := some (some refund.amount), refundStatus := some (some refund.status) },
        .recordRefund n] := by
  simp only [setRefunded] at result
  split at result
  · cases result
  next stored =>
    split at result
    · cases result
    · cases found : d.payment paymentId with
      | none => simp [found] at stored
      | some row => exact ⟨row, rfl, Table.find_key found, by cases result; rfl⟩

theorem setRefunded_error {paymentId : Id} {n : Nat} {refund : RazorpayRefundResult} {e : Failure}
    (result : setRefunded paymentId n refund d = .error e) :
    failureStatus e = .REFUND_UNKNOWN := by
  simp only [setRefunded] at result
  (repeat' split at result) <;> cases result <;> rfl

theorem settleRefund_wp {p : Payment} (customerId : Id) {n : Nat} (refund : RazorpayRefundResult)
    (owes : d.owes me n p.id true) :
    Call.wp protocol me (Unsettled me n p.id fun _ => True) (settleRefund p customerId n refund)
      none d := by
  -- an error after the refund was sent leaves its outcome unknown
  have unknown : ∀ {e : Failure} {d' : Db}, failureStatus e = .REFUND_UNKNOWN →
      d'.owes me n p.id true → Unsettled (α := Unit) me n p.id (fun _ => True) (.error e) none d' := by
    intro e d' status still
    refine ⟨rfl, true, still, fun definite => ?_⟩
    rw [status] at definite
    cases definite
  rw [settleRefund, Call.wp_bind, Call.wp_choose]
  intro d₁ rely₁ reachable
  have owes₁ := owes_of_rely rely₁ owes
  rw [Call.andThen_ok]
  cases reachable with
  | false => exact unknown rfl owes₁
  | true =>
    rw [if_pos rfl, Call.wp_transaction]
    intro d₂ rely₂
    have owes₂ := owes_of_rely rely₂ owes₁
    simp only [Call.wp_bind, step]
    refine Call.stmt_inTx ?_ ?_
    · intro d₃ t₃ ws a rely₃ _ result grows₃ locks
      obtain ⟨row, found, named, rfl⟩ := setRefunded_ok result
      have locked : .payment p.id ∈ t₃.locks :=
        locks _ List.mem_cons_self _ (by simp [Write.keys])
      rw [Call.andThen_ok]
      refine Call.stmt_inTx ?_ ?_
      · intro d₄ t₄ ws' a' rely₄ _ result' grows₄ _
        cases result'
        intro d₅ rely₅ _
        -- the first statement has locked the payment until the commit
        have rely := grows₄.rely rely₄ rely₅
        have still : d₅.payment p.id = some row := (rely.rows (.payment p.id) locked).trans found
        obtain ⟨b, stored, mine, ofPayment, unrecorded, -⟩ :=
          owes_of_rely rely (owes_of_rely rely₃ owes₂)
        refine ⟨?_, rfl, trivial⟩
        rw [Tx.view_some, grows₄.after (grows₃.after rfl)]
        rw [← named] at still ofPayment ⊢
        refine does_of_commit (.recorded still stored mine ofPayment unrecorded .settled ?_ ?_)
        · simp [Write.plain]
        · exact .of_none (by simp)
      · intro d₄ e _ _ result'
        cases result'
    · intro d₃ e rely₃ _ result d₄ rely₄
      exact unknown (setRefunded_error result) (owes_of_rely rely₄ (owes_of_rely rely₃ owes₂))

theorem executeRefund_wp (cfg : Config) {p : Payment} (customerId : Id) {n : Nat}
    (amountPaise : Option RequestedAmount) (owes : d.owes me n p.id false) :
    Call.wp protocol me (Unsettled me n p.id fun _ => True)
      (executeRefund cfg p customerId n amountPaise) none d := by
  rw [executeRefund, Call.wp_bind]
  refine Call.wp_mono ?_ (razorpayCreateRefund_wp cfg amountPaise owes)
  rintro (e | refund) tx d₁ ended
  · exact ended
  · obtain ⟨rfl, sent⟩ := ended
    rw [Call.andThen_ok, Call.wp_bind]
    refine Call.wp_mono ?_ (settleRefund_wp customerId refund sent)
    rintro (e | _) tx d₂ ended
    · exact ended
    · exact ended

theorem recordFailure_yields {paymentId : Id} {n : Nat} {err : Failure} {sent : Bool}
    (owes : d.owes me n paymentId sent)
    (definite : failureStatus err = .REFUND_FAILED → sent = false) :
    YieldsFrom me d (recordFailure paymentId n err) fun _ _ => True := by
  refine .stmt fun d₁ ws _ rely _ result => ⟨?_, trivial⟩
  split at result
  · cases result
  next stored =>
    cases result
    obtain ⟨a, found, mine, rfl, unrecorded, state⟩ := owes_of_rely rely owes
    cases paid : d₁.payment a.paymentId with
    | none => simp [paid] at stored
    | some row =>
      have named : row.id = a.paymentId := Table.find_key paid
      -- a failure is definite only for an attempt that was never sent
      have outcome : failureStatus err = .REFUND_UNKNOWN ∨
          failureStatus err = .REFUND_FAILED ∧ a.state = .claimed := by
        by_cases failed : failureStatus err = .REFUND_FAILED
        · exact Or.inr ⟨failed, state.mpr (definite failed)⟩
        · refine Or.inl ?_
          simp only [failureStatus] at failed ⊢
          split at failed
          · exact absurd rfl failed
          next other => rw [if_neg other]
      rw [← named] at paid ⊢
      refine does_of_commit (.recorded paid found mine named.symm unrecorded (.failed outcome) ?_ ?_)
      · simp
      · exact .of_none (by simp)

theorem refundClaimed_yields (cfg : Config) {p : Payment} (customerId : Id) {n : Nat}
    (amountPaise : Option RequestedAmount) (owes : d.owes me n p.id false) :
    YieldsFrom me d (refundClaimed cfg p customerId n amountPaise) fun _ _ => True := by
  rw [refundClaimed, YieldsFrom, Call.YieldsFrom, Call.wp_bind, Call.wp_attempt]
  refine Call.wp_mono ?_ (executeRefund_wp cfg customerId amountPaise owes)
  rintro (e | refund) tx d₁ ended
  · obtain ⟨rfl, sent, still, definite⟩ := ended
    rw [Call.andThen_ok]
    exact Call.YieldsFrom.bind _ (recordFailure_yields still definite) fun _ _ _ => .throw _ _
  · obtain ⟨rfl, -⟩ := ended
    rw [Call.andThen_ok]
    exact Call.YieldsFrom.pure trivial

theorem refundFor_yields (cfg : Config) (p : Payment) (customerId : Id)
    (amountPaise : Option RequestedAmount) (reason : Option String) :
    Yields me (refundFor cfg me p customerId amountPaise reason) fun _ _ => True := by
  intro d
  rw [refundFor]
  split
  · exact .pure trivial
  split
  · exact .throw _ _
  next captureId _ =>
    refine .bind (Granted me p.id) ?_ fun claim d₁ granted => ?_
    · rw [claimFor]
      split
      · refine reconciledClaim_yields cfg reason ?_ ?_ ⟨?_, ?_⟩ d <;> rfl
      · refine normalClaim_yields reason ?_ ?_ ⟨?_, ?_⟩ d <;> rfl
    · cases claim with
      | answered response => exact .pure trivial
      | claimed n => exact refundClaimed_yields cfg customerId amountPaise granted.1

theorem refundPayment_yields (cfg : Config) (bookingId : Id) (actor : Market.AuthenticatedUser)
    (amountPaise : Option RequestedAmount) (reason : Option String) :
    Yields me (refundPayment cfg me bookingId actor amountPaise reason) fun _ _ => True := by
  intro d
  rw [refundPayment]
  split
  · exact .throw _ _
  · refine .bind (fun _ _ => True) (.read fun _ _ _ => trivial) fun booking d₁ _ => ?_
    cases booking with
    | none => exact .throw _ _
    | some booking =>
      dsimp only
      split
      · exact .throw _ _
      · refine .bind (fun _ _ => True) (.read fun _ _ _ => trivial) fun payment d₂ _ => ?_
        cases payment with
        | none => exact .throw _ _
        | some p => exact refundFor_yields cfg p _ _ _ d₂

end Refunds

/-! ### Reconciliation -/

section Reconciliation

variable {me : Nat} {d : Db}

theorem reconciled_yields {id : Id} {status : PaymentStatus}
    (outcome : status = .COMPLETED ∨ status = .FAILED) :
    Yields me (Call.transaction (fun _ => .reconciled id status)
      (transitionPaymentStatus id .PENDING status {})) fun _ _ => True := by
  intro d
  rw [YieldsFrom, Call.YieldsFrom, Call.wp_transaction]
  intro d₁ _
  refine wp_transition ?_ (by simp) ?_ ?_
  · rcases outcome with rfl | rfl <;> decide
  · intro d₂ t₂ _ grows d₃ _ _
    refine ⟨Or.inl ?_, rfl, fun _ _ => trivial⟩
    rw [Tx.view_some, grows.same]
    rfl
  · intro d₂ t₂ row rely grows locked found named pending d₃ rely₃ _
    -- the row that the transition has matched is locked until the commit
    have still : d₃.payment id = some row := (rely₃.rows (.payment id) locked).trans found
    refine ⟨?_, rfl, fun _ _ => trivial⟩
    rw [Tx.view_some, grows.after rfl]
    rw [← named] at still ⊢
    exact does_of_move still (.reconciled pending outcome)

theorem fetchOrder_yields (cfg : Config) (orderId : Id) :
    Yields me (fetchOrder cfg orderId) fun _ _ => True := by
  intro d
  rw [fetchOrder]
  split
  · exact .throw _ _
  · refine .bind (fun _ _ => True) (.choose fun _ _ _ => trivial) fun reachable d₁ _ => ?_
    refine .bind (fun _ _ => True) (.read fun _ _ _ => trivial) fun order d₂ _ => ?_
    split
    · exact .pure trivial
    · exact .throw _ _
    · exact .throw _ _

theorem quarantined_yields (id : Id) (reason : String) :
    Yields me (Call.stmt (.quarantined id)
      (setPayment id { quarantineReason := some (some reason) })) fun _ _ => True := by
  intro d
  refine .stmt fun d₁ ws _ _ _ result => ⟨?_, trivial⟩
  obtain ⟨row, found, named, rfl⟩ := setPayment_ok result
  rw [← named] at found ⊢
  exact does_of_move found .quarantined

theorem reconcilePayment_yields (cfg : Config) (p : Payment) (result : ReconciliationResult) :
    Yields me (reconcilePayment cfg p result) fun _ _ => True := by
  intro d
  rw [reconcilePayment]
  split
  · exact .pure trivial
  · refine .bind _ (fetchOrder_yields cfg _ d) fun order d₁ _ => ?_
    split
    · simp only [reconcilePaid]
      split
      · exact .bind _ (quarantined_yields _ _ d₁) fun _ _ _ => .pure trivial
      · split
        · exact .bind _ (quarantined_yields _ _ d₁) fun _ _ _ => .pure trivial
        · exact .bind _ (reconciled_yields (Or.inl rfl) d₁) fun _ _ _ => .pure trivial
    · split
      · exact .bind _ (reconciled_yields (Or.inr rfl) d₁) fun _ _ _ => .pure trivial
      · exact .pure trivial

theorem reconcileStalePayments_yields (cfg : Config) (olderThanMinutes : Nat) :
    Yields me (reconcileStalePayments cfg olderThanMinutes) fun _ _ => True := by
  have each : ∀ payments result, Yields me (reconcileEach cfg payments result) fun _ _ => True := by
    intro payments
    induction payments with
    | nil => exact fun _ _ => .pure trivial
    | cons p rest ih =>
      intro result d
      refine .bind _ (reconcilePayment_yields cfg p result d).attempt fun outcome d₁ _ => ?_
      -- a payment that cannot be reconciled does not keep the next one from its turn
      cases outcome with
      | ok result => exact ih _ d₁
      | error e => exact ih _ d₁
  intro d
  exact .bind (fun _ _ => True) (.read fun _ _ _ => trivial) fun stale d₁ _ => each _ _ d₁

end Reconciliation

/-! ### The system -/

/-- What an acknowledged call promises. -/
def promised : Op → Outcome → Db → Prop
  | .handleWebhook body, .ok _, d => body.Stored d
  | _, _, _ => True

theorem verified (cfg : Config) : Pool.Verified protocol (fun _ => promised) (system cfg) := by
  intro me op d
  have replied : ∀ {α : Type} {reply : α → Reply} {body : Service α},
      Yields me body (fun _ _ => True) → YieldsFrom me d (replying reply body) fun _ _ => True :=
    fun yields => .bind _ (yields d) fun _ _ _ => .pure trivial
  cases op with
  | handleWebhook body =>
    have yields : YieldsFrom me d (replying .acknowledged (handleWebhook body)) fun _ d =>
        body.Stored d := .bind _ (handleWebhook_yields body d) fun _ _ stored => .pure stored
    refine Call.wp_mono ?_ yields
    rintro (e | reply) tx d' ⟨-, holds⟩
    · trivial
    · exact holds reply rfl
  | createOrder bookingId customerId newId answer =>
    exact Call.wp_mono (fun _ _ _ _ => trivial) (replied (createOrder_yields _ _ _ _ _))
  | refundPayment bookingId actor amount reason =>
    exact Call.wp_mono (fun _ _ _ _ => trivial) (replied (refundPayment_yields _ _ _ _ _))
  | reconcileStalePayments olderThanMinutes =>
    exact Call.wp_mono (fun _ _ _ _ => trivial) (replied (reconcileStalePayments_yields _ _))
  | acceptRefund n answer => exact fun d' _ _ => ⟨does_of_commit .accepted, trivial⟩
  | rejectRefund n description => exact fun d' _ _ => ⟨does_of_commit .rejected, trivial⟩
  | putBooking booking =>
    exact fun d' _ _ => ⟨does_of_commit (.plain (by simp [Write.plain]) (.of_none (by simp)) trivial), trivial⟩
  | moveOrder orderId status attempts =>
    exact fun d' _ _ => ⟨does_of_commit (.plain (by simp [Write.plain]) (.of_none (by simp)) trivial), trivial⟩
  | takePayment payment =>
    exact fun d' _ _ => ⟨does_of_commit (.plain (by simp [Write.plain]) (.of_none (by simp)) trivial), trivial⟩
  | tick =>
    exact fun d' _ _ => ⟨does_of_commit (.plain (by simp [Write.plain]) (.of_none (by simp)) trivial), trivial⟩

/-! ### Runs -/

section Runs

variable {cfg : Config} {cond : Label → Db → Prop} {p q : PaymentPool}

theorem sound_of_runs (run : Runs cfg cond p) : Pool.Sound protocol (fun _ => promised) p :=
  run.sound (verified cfg) (fun _ _ _ _ _ _ _ _ => trivial) (.empty Wf.empty)

theorem wf_of_runs (run : Runs cfg cond p) : Wf p.db := (sound_of_runs run).inv

/-- What one event does to the store: nothing, or what a call commits. -/
theorem commit_of_event {e : Event Op} (sound : Pool.Sound protocol (fun _ => promised) p)
    (stepped : p.step (system cfg) e = some q) :
    q.db = p.db ∨ ∃ i answer ℓ ws, e = .run i answer ∧ p.next i = some ℓ ∧
      q.db = applyAll ws p.db ∧ Commit i p.db ℓ ws := by
  rcases (sound.step (verified cfg) (fun _ _ _ _ _ => trivial) stepped).does with
    same | ⟨i, answer, ℓ, event, labelled, ws, after, commit⟩
  · exact Or.inl same
  · exact Or.inr ⟨i, answer, ℓ, ws, event, labelled, after, commit⟩

/-- A property of the store that every commit keeps, under a condition on the store just
before it, holds from there on in every run that meets the condition. -/
theorem invariant_from (I : Db → Prop)
    (keeps : ∀ i ℓ d ws, Wf d → I d → cond ℓ d → Commit i d ℓ ws → I (applyAll ws d))
    (run : Runs cfg cond p) (first : I p.db)
    (more : Pool.Reaches (system cfg) (Pool.Meets cond) p q) : I q.db := by
  refine Pool.Reaches.invariant (verified cfg) (fun _ _ => trivial) I (sound_of_runs run) first ?_ more
  rintro i ℓ d _ wf holds meets ⟨ws, rfl, commit⟩
  exact keeps i ℓ d ws wf holds meets commit

theorem invariant_of_runs (I : Db → Prop) (first : I {})
    (keeps : ∀ i ℓ d ws, Wf d → I d → cond ℓ d → Commit i d ℓ ws → I (applyAll ws d))
    (run : Runs cfg cond p) : I p.db :=
  invariant_from I keeps .refl first run

end Runs

end LabourBaba.Payments
