import LabourBaba.Market.Progress

/-!
# Acceptance

`acceptDispatch`, run alone: the condition under which it succeeds, and the store it leaves then.
The lock-free reads before the transaction refuse nothing that the transaction would accept, and a
refused call leaves the store as it was.
-/
namespace LabourBaba.Market

open Store

/-! ### When an offer can be accepted -/

/-- The worker's offer is pending and runs out later than now. -/
def Dispatch.Open (x : Dispatch) (now : Nat) : Prop :=
  x.status = .pending ∧ ∃ e, x.expiresAt = some e ∧ now < e

structure Db.Acceptable (d : Db) (requirementId workerId : Id) (req : Requirement) (job : Job) :
    Prop where
  found : d.requirement requirementId = some req
  live : req.status ≠ .CANCELLED ∧ req.status ≠ .FILLED
  room : req.workerCountFilled < req.workerCountNeeded
  stored : d.job req.jobId = some job
  active : job.status ≠ .CANCELLED ∧ job.status ≠ .COMPLETED
  unbooked : d.slotTaken requirementId workerId = false
  offer : ∃ x, d.dispatch requirementId workerId = some x ∧ x.Open d.now

/-- What the new booking is drawn is not in use yet. -/
structure NewBooking.Fresh (new : NewBooking) (d : Db) : Prop where
  booking : d.booking new.id = none
  event : ∀ customer, .bookingConfirmed new.id customer ∉ d.outbox

/-- Neither the booking nor its event would collide with a stored row. -/
def NewBooking.Unused (new : NewBooking) (d : Db) (customerId : Id) : Prop :=
  d.booking new.id = none ∧ .bookingConfirmed new.id customerId ∉ d.outbox

theorem NewBooking.Fresh.unused {new : NewBooking} {d : Db} (fresh : new.Fresh d) (customerId : Id) :
    new.Unused d customerId :=
  ⟨fresh.booking, fresh.event customerId⟩

section Decision

variable {d : Db} {requirementId workerId : Id} {req : Requirement} {job : Job}

theorem acceptable_ok_iff {status : JobStatus} : acceptable req (some status) = .ok () ↔
    (req.status ≠ .CANCELLED ∧ req.status ≠ .FILLED) ∧
      req.workerCountFilled < req.workerCountNeeded ∧
      status ≠ .CANCELLED ∧ status ≠ .COMPLETED := by
  rw [acceptable]
  split
  next closed =>
    refine iff_of_false (by simp) ?_
    rintro ⟨⟨open', -⟩, -, active⟩
    rcases closed with cancelled | cancelled | completed
    · exact open' cancelled
    · exact active.1 (Option.some.inj cancelled)
    · exact active.2 (Option.some.inj completed)
  next active =>
    simp only [not_or, Option.some.injEq] at active
    split
    next full =>
      refine iff_of_false (by simp) ?_
      rintro ⟨⟨-, open'⟩, room, -⟩
      rcases full with filled | full
      · exact open' filled
      · omega
    next room =>
      simp only [not_or, not_le] at room
      exact iff_of_true rfl ⟨⟨active.1, room.1⟩, room.2, active.2⟩

theorem acceptOffer_open {x : Dispatch} (found : d.dispatch requirementId workerId = some x)
    (offered : x.Open d.now) : acceptOffer requirementId workerId d.now d =
      .ok ([.dispatchStatus [(requirementId, workerId)] .accepted], 1) := by
  obtain ⟨pending, e, expires, later⟩ := offered
  simp [acceptOffer, found, pending, expires, later]

theorem acceptOffer_closed (closed : ¬ ∃ x, d.dispatch requirementId workerId = some x ∧ x.Open d.now) :
    acceptOffer requirementId workerId d.now d = .ok ([], 0) := by
  rw [acceptOffer]
  cases found : d.dispatch requirementId workerId with
  | none => rfl
  | some x =>
    dsimp only
    split
    next offered =>
      obtain ⟨e, expires, later⟩ := (Option.any_eq_true _ _).mp offered.2
      exact absurd ⟨x, found, offered.1, e, expires, of_decide_eq_true later⟩ closed
    next => rfl

/-- The reads before the transaction let an acceptable call pass. -/
theorem preflight_acceptable (acceptable' : d.Acceptable requirementId workerId req job) :
    preflightRequirement (d.requirementWithJob requirementId) = .ok () ∧
      preflightOffer (d.requirementWithJob requirementId) (d.dispatch requirementId workerId) d.now =
        .ok () := by
  obtain ⟨x, offer, pending, e, expires, later⟩ := acceptable'.offer
  constructor
  · simp only [Db.requirementWithJob, acceptable'.found, Option.map_some, preflightRequirement,
      acceptable'.stored]
    exact acceptable_ok_iff.mpr ⟨acceptable'.live, acceptable'.room, acceptable'.active⟩
  · simp [preflightOffer, offer, offerRejection, pending, expires, Nat.not_le.mpr later]

/-- The transaction of a call that is not acceptable throws, whatever it would have drawn. -/
theorem acceptTx_refuses (answer : Bool) (cfg : Config)
    (refused : ¬ ∃ req job, d.Acceptable requirementId workerId req job) :
    ∃ e, ∀ new, Call.result answer (fun res _ d' => res = .error e ∧ d' = d)
      (acceptTx cfg requirementId workerId new) (some {}) d := by
  simp only [acceptTx, lockRequirement, query, Call.result_bind, Call.result_lock, Call.resultThen_ok,
    Call.result_read, Tx.view_some, Tx.add_writes, applyAll_append, applyAll_nil]
  cases found : d.requirement requirementId with
  | none => exact ⟨_, fun _ => ⟨rfl, rfl⟩⟩
  | some req =>
    simp only [Option.map_some]
    cases located : d.job req.jobId with
    | none => exact ⟨_, fun _ => ⟨rfl, rfl⟩⟩
    | some job =>
      simp only [Call.result_bind]
      cases policy : acceptable req (some job.status) with
      | error e => exact ⟨_, fun _ => ⟨rfl, rfl⟩⟩
      | ok _ =>
        obtain ⟨live, room, active⟩ := acceptable_ok_iff.mp policy
        simp only [assertPolicy, Call.result_pure, Call.resultThen_ok, Call.result_bind, Call.result_read,
          Tx.view_some, Tx.add_writes, applyAll_append, applyAll_nil]
        cases booked : d.slotTaken requirementId workerId with
        | true => exact ⟨_, fun _ => ⟨rfl, rfl⟩⟩
        | false =>
          have closed : ¬ ∃ x, d.dispatch requirementId workerId = some x ∧ x.Open d.now :=
            fun offer => refused ⟨req, job, found, live, room, located, active, booked, offer⟩
          simp only [Bool.false_eq_true, if_false, Call.result_bind, Call.result_read, Call.resultThen_ok,
            Tx.view_some, Tx.add_writes, applyAll_append, applyAll_nil, step, Call.result_stmt,
            acceptOffer_closed closed, Call.afterStmt, if_true]
          exact ⟨_, fun _ => ⟨rfl, rfl⟩⟩

end Decision

/-! ### What an acceptance leaves -/

/-- All requirements of the job are filled. -/
def Db.jobFilled (d : Db) (jobId : Id) : Prop :=
  ∀ r ∈ d.requirements, r.jobId = jobId → r.status = .FILLED

instance (d : Db) (jobId : Id) : Decidable (d.jobFilled jobId) :=
  inferInstanceAs (Decidable (∀ r ∈ d.requirements, r.jobId = jobId → r.status = .FILLED))

/-- The job can still be booked; otherwise it was, earlier. -/
def Job.awaits (job : Job) : Prop := job.status = .OPEN ∨ job.status = .DISPATCHING

instance (job : Job) : Decidable job.awaits := inferInstanceAs (Decidable (_ ∨ _))

/-- The store once a job has been found fully booked. -/
def Db.fullyBooked (d : Db) (job : Job) : Db :=
  { d with
    jobs := Table.modify Job.id d.jobs [job.id] fun j =>
      { j with status := if job.awaits then .BOOKED else j.status, dispatchStatus := .FILLED }
    jobTransitions := if job.awaits then d.jobTransitions ++
        [{ jobId := job.id, fromStatus := some job.status, toStatus := .BOOKED, action := .MARK_BOOKED
           actorType := .SYSTEM, actorId := none }]
      else d.jobTransitions }

section Booked

variable {d : Db} {job : Job} {jobId : Id} {t : MarketTx}

theorem unfilled_eq_zero_iff (d : Db) (jobId : Id) :
    (d.requirements.countP fun r => decide (r.jobId = jobId ∧ r.status ≠ .FILLED)) = 0 ↔
      d.jobFilled jobId := by
  simp [Db.jobFilled, List.countP_eq_zero]

/-- Marking a job booked, or finding that it was. -/
theorem markBooked_ends (answer : Bool) (stored : (applyAll t.writes d).job jobId = some job)
    (active : job.status ≠ .CANCELLED ∧ job.status ≠ .COMPLETED) :
    ∃ t', t'.writes = t.writes ++ (if job.awaits then [.jobStatus jobId .BOOKED, .jobTransition
        { jobId, fromStatus := some job.status, toStatus := .BOOKED, action := .MARK_BOOKED
          actorType := .SYSTEM, actorId := none }] else []) ∧
      ∀ Q : Except Failure Bool → Option MarketTx → Db → Prop,
        Call.result answer Q (unlessInvalidFrom [.BOOKED, .IN_PROGRESS, .COMPLETED]
          (jobTransition jobId .MARK_BOOKED { role := .SYSTEM })) (some t) d =
            Q (.ok (decide job.awaits)) (some t') d := by
  by_cases awaits : job.awaits
  · have rule : jobCanTransition job.status .MARK_BOOKED { role := .SYSTEM } job.customerId =
        .ok ⟨.BOOKED, [.ADMIN, .SYSTEM, .DISPATCH_WORKER, .WORKER]⟩ := by
      rcases awaits with opened | dispatching
      · rw [opened]
        rfl
      · rw [dispatching]
        rfl
    refine ⟨((t.add Db { locks := [.job jobId] }).add Db { writes := [.jobStatus jobId .BOOKED] }).add Db
      { writes := [.jobTransition { jobId, fromStatus := some job.status, toStatus := .BOOKED
                                    action := .MARK_BOOKED, actorType := .SYSTEM, actorId := none }] },
      ?_, fun Q => ?_⟩
    · rw [if_pos awaits]
      simp
    · simp [unlessInvalidFrom, jobTransition, lockJob, stored, rule, casJobStatus, step, query, awaits]
  · have skipped : job.status = .BOOKED ∨ job.status = .IN_PROGRESS := by
      simp only [Job.awaits, not_or] at awaits
      cases status : job.status <;> simp_all
    have refused : ∃ message, jobCanTransition job.status .MARK_BOOKED { role := .SYSTEM }
        job.customerId = .error (.jobInvalidTransition job.status .MARK_BOOKED message) := by
      rcases skipped with booked | working
      · rw [booked]
        exact ⟨_, rfl⟩
      · rw [working]
        exact ⟨_, rfl⟩
    obtain ⟨message, refused⟩ := refused
    have ignored : job.status = .BOOKED ∨ job.status = .IN_PROGRESS ∨ job.status = .COMPLETED := by
      tauto
    refine ⟨t.add Db { locks := [.job jobId] }, ?_, fun Q => ?_⟩
    · rw [if_neg awaits]
      rfl
    · simp [unlessInvalidFrom, jobTransition, lockJob, stored, refused, ignored, awaits]

/-- The job-level step of an acceptance. -/
theorem checkJobComplete_ends (answer : Bool) (stored : (applyAll t.writes d).job jobId = some job)
    (active : job.status ≠ .CANCELLED ∧ job.status ≠ .COMPLETED) :
    ∃ t', applyAll t'.writes d = (if (applyAll t.writes d).jobFilled jobId
        then (applyAll t.writes d).fullyBooked job else applyAll t.writes d) ∧
      ∀ Q : Except Failure Bool → Option MarketTx → Db → Prop,
        Call.result answer Q (checkJobComplete jobId) (some t) d =
          Q (.ok (decide ((applyAll t.writes d).jobFilled jobId))) (some t') d := by
  have named : job.id = jobId := Table.find_key stored
  by_cases filled : (applyAll t.writes d).jobFilled jobId
  · obtain ⟨t₁, writes, marks⟩ := markBooked_ends answer stored active
    refine ⟨t₁.add Db { writes := [.jobDispatchStatus jobId .FILLED] }, ?_, fun Q => ?_⟩
    · rw [Tx.add_writes, writes, applyAll_append, applyAll_append, if_pos filled, Db.fullyBooked, named]
      by_cases awaits : job.awaits
      · simp only [if_pos awaits, applyAll_cons, applyAll_nil, write_eq_apply, Write.apply]
        rw [Table.modify_modify]
        exact fun _ => rfl
      · simp only [if_neg awaits, applyAll_cons, applyAll_nil, write_eq_apply, Write.apply]
    · have kept : (applyAll t₁.writes d).job jobId ≠ none := by
        have moved : Table.find Job.id (Table.modify Job.id (applyAll t.writes d).jobs [jobId] fun j =>
            { j with status := .BOOKED }) jobId ≠ none := by
          have lookup : Table.find Job.id (applyAll t.writes d).jobs jobId = some job := stored
          rw [Table.find_modify, lookup]
          · simp
          · exact fun _ => rfl
        rw [writes, applyAll_append]
        by_cases awaits : job.awaits
        · rw [if_pos awaits]
          exact moved
        · rw [if_neg awaits, applyAll_nil, stored]
          simp
      have none' := (unfilled_eq_zero_iff (applyAll t.writes d) jobId).mpr filled
      rw [checkJobComplete, query, Call.result_bind, Call.result_read, Call.resultThen_ok, Tx.view_some,
        if_pos none', Call.result_bind, marks]
      simp [step, kept, filled]
  · refine ⟨t, by rw [if_neg filled], fun Q => ?_⟩
    have some' := mt (unfilled_eq_zero_iff (applyAll t.writes d) jobId).mp filled
    rw [checkJobComplete, query, Call.result_bind, Call.result_read, Call.resultThen_ok, Tx.view_some,
      if_neg some', Call.result_pure, decide_eq_false filled]

end Booked

/-- The booking an acceptance inserts. -/
def newBooking (cfg : Config) (d : Db) (requirementId workerId : Id) (new : NewBooking)
    (req : Requirement) (job : Job) : Booking :=
  { id := new.id, jobId := req.jobId, requirementId, workerId, customerId := job.customerId
    status := .CONFIRMED, otpHash := new.otpHash
    otpExpiresAt := d.now + cfg.bookingOtpTtlSeconds * 1000, otpAttempts := 0 }

def Requirement.lastSlot (req : Requirement) : Prop := req.workerCountNeeded ≤ req.workerCountFilled + 1

instance (req : Requirement) : Decidable req.lastSlot := inferInstanceAs (Decidable (_ ≤ _))

/-- The store once the slot is reserved and the worker booked. -/
def Db.reserved (cfg : Config) (d : Db) (requirementId workerId : Id) (new : NewBooking)
    (req : Requirement) (job : Job) : Db :=
  { d with
    requirements := Table.modify Requirement.id d.requirements [requirementId] fun r =>
      { r with workerCountFilled := req.workerCountFilled + 1
               status := if req.lastSlot then .FILLED else .PARTIALLY_FILLED }
    bookings := d.bookings ++ [newBooking cfg d requirementId workerId new req job]
    outbox := .bookingConfirmed new.id job.customerId :: d.outbox
    dispatches := Table.modify Dispatch.key d.dispatches [(requirementId, workerId)] fun x =>
      { x with status := .accepted } }

/-- The store once the pending offers of a requirement have expired. -/
def Db.offersClosed (d : Db) (requirementId : Id) : Db :=
  { d with
    dispatches := d.dispatches.map fun x =>
      if x.requirementId = requirementId ∧ x.status = .pending then { x with status := .expired }
      else x }

/-- The store that an acceptance leaves. -/
def Db.accepted (cfg : Config) (d : Db) (requirementId workerId : Id) (new : NewBooking)
    (req : Requirement) (job : Job) : Db :=
  let reserved := d.reserved cfg requirementId workerId new req job
  if req.lastSlot then
    let closed := reserved.offersClosed requirementId
    if closed.jobFilled req.jobId then closed.fullyBooked job else closed
  else reserved

/-- The workers with a pending offer of a requirement. -/
def Db.offeredWorkers (d : Db) (requirementId : Id) : List Id :=
  (d.dispatches.filter fun x => x.requirementId = requirementId ∧ x.status = .pending).map (·.workerId)

/-- What an acceptance returns. -/
def Db.acceptance (cfg : Config) (d : Db) (requirementId workerId : Id) (new : NewBooking)
    (req : Requirement) (job : Job) : Acceptance :=
  let reserved := d.reserved cfg requirementId workerId new req job
  { booking := newBooking cfg d requirementId workerId new req job
    otp := new.otp
    nowFilled := decide req.lastSlot
    newFilled := req.workerCountFilled + 1
    needed := req.workerCountNeeded
    jobId := req.jobId
    customerId := job.customerId
    expiredWorkerIds := if req.lastSlot then reserved.offeredWorkers requirementId else []
    jobFullyBooked := decide req.lastSlot && decide
      ((reserved.offersClosed requirementId).jobFilled req.jobId) }

section Effects

variable {d : Db} {requirementId workerId : Id} {req : Requirement} {job : Job} {cfg : Config}
  {new : NewBooking} {t : MarketTx}

/-- Closing a requirement that has been filled. -/
theorem closeFilled_ends (answer : Bool) (requirementId : Id) {jobId : Id}
    (stored : (applyAll t.writes d).job jobId = some job)
    (active : job.status ≠ .CANCELLED ∧ job.status ≠ .COMPLETED)
    (unique : Table.Unique Dispatch.key (applyAll t.writes d).dispatches) :
    ∃ t', applyAll t'.writes d =
        (let closed := (applyAll t.writes d).offersClosed requirementId
          if closed.jobFilled jobId then closed.fullyBooked job else closed) ∧
      ∀ Q : Except Failure (List Id × Bool) → Option MarketTx → Db → Prop,
        Call.result answer Q (closeFilled true requirementId jobId) (some t) d =
          Q (.ok ((applyAll t.writes d).offeredWorkers requirementId,
            decide (((applyAll t.writes d).offersClosed requirementId).jobFilled jobId)))
            (some t') d := by
  have closed : applyAll (t.add Db { writes := [.dispatchStatus
      (((applyAll t.writes d).dispatches.filter fun x =>
        decide (x.requirementId = requirementId ∧ x.status = .pending)).map (·.key)) .expired] }).writes d =
      (applyAll t.writes d).offersClosed requirementId := by
    simp only [Tx.add_writes, applyAll_append, applyAll_cons, applyAll_nil, write_eq_apply, Write.apply,
      Db.offersClosed]
    rw [Table.modify_filter unique]
    simp only [decide_eq_true_eq]
  obtain ⟨t', left, ends⟩ := checkJobComplete_ends answer (by rw [closed]; exact stored) active
  rw [closed] at left ends
  refine ⟨t', left, fun Q => ?_⟩
  rw [closeFilled, if_pos rfl]
  simp only [query, setOffers, step, Call.result_bind, Call.result_read, Call.resultThen_ok,
    Call.result_stmt, Call.afterStmt]
  rw [ends]
  rfl

/-- The writes of an acceptance up to the reserved slot. -/
def takeWrites (requirementId workerId : Id) (req : Requirement) : List Write :=
  [.dispatchStatus [(requirementId, workerId)] .accepted,
    .requirementFilled requirementId (req.workerCountFilled + 1),
    .requirementStatus [requirementId] (if req.lastSlot then .FILLED else .PARTIALLY_FILLED)]

/-- The writes of an acceptance up to the booking and its event. -/
def reserveWrites (cfg : Config) (d : Db) (requirementId workerId : Id) (new : NewBooking)
    (req : Requirement) (job : Job) : List Write :=
  takeWrites requirementId workerId req ++
    [.insertBooking (newBooking cfg d requirementId workerId new req job),
      .outbox (.bookingConfirmed new.id job.customerId)]

theorem applyAll_reserveWrites (unused : new.Unused d job.customerId)
    (unbooked : d.slotTaken requirementId workerId = false) :
    applyAll (reserveWrites cfg d requirementId workerId new req job) d =
      d.reserved cfg requirementId workerId new req job := by
  have free : ∀ old ∈ d.bookings,
      Booking.clash (newBooking cfg d requirementId workerId new req job) old = false := by
    intro old stored
    have otherId : new.id ≠ old.id := fun same => Table.find_none_iff.mp unused.1 old stored same.symm
    have otherSlot : old.slot ≠ (requirementId, workerId) := by
      simp only [Db.slotTaken, List.any_eq_false, decide_eq_true_eq] at unbooked
      exact unbooked old stored
    exact decide_eq_false (not_or.mpr ⟨otherId, fun same => otherSlot same.symm⟩)
  simp only [reserveWrites, takeWrites, List.cons_append, List.nil_append, applyAll_cons, applyAll_nil,
    write_eq_apply, Write.apply, Db.reserved, Table.insert_of_free free, if_neg unused.2]
  rw [Table.modify_modify]
  exact fun _ => rfl

/-- What an acceptance does once the slot is reserved. -/
def bookSlot (cfg : Config) (requirementId workerId : Id) (new : NewBooking) (req : Requirement)
    (job : Job) : Service Acceptance := do
  let issuedAt ← query fun d => d.now
  let booking : Booking :=
    { id := new.id, jobId := req.jobId, requirementId, workerId
      customerId := job.customerId, status := .CONFIRMED, otpHash := new.otpHash
      otpExpiresAt := issuedAt + cfg.bookingOtpTtlSeconds * 1000, otpAttempts := 0 }
  step (insertBooking booking)
  step (insertOutbox (.bookingConfirmed booking.id job.customerId))
  let (expiredWorkerIds, jobFullyBooked) ← closeFilled (decide req.lastSlot) requirementId req.jobId
  pure { booking, otp := new.otp, nowFilled := decide req.lastSlot
         newFilled := req.workerCountFilled + 1, needed := req.workerCountNeeded
         jobId := req.jobId, customerId := job.customerId, expiredWorkerIds, jobFullyBooked }

/-- The transaction of an acceptable call, up to the reserved slot. -/
theorem acceptTx_takes (answer : Bool) (cfg : Config)
    (acceptable' : d.Acceptable requirementId workerId req job) :
    ∃ t, t.writes = takeWrites requirementId workerId req ∧
      ∀ new (Q : Except Failure Acceptance → Option MarketTx → Db → Prop),
        Call.result answer Q (acceptTx cfg requirementId workerId new) (some {}) d =
          Call.result answer Q (bookSlot cfg requirementId workerId new req job) (some t) d := by
  obtain ⟨x, offer, offered⟩ := acceptable'.offer
  have policy : acceptable req (some job.status) = .ok () :=
    acceptable_ok_iff.mpr ⟨acceptable'.live, acceptable'.room, acceptable'.active⟩
  -- the requirement is read again where the offer has been taken
  let offerWrites : List Write := [.dispatchStatus [(requirementId, workerId)] .accepted]
  let slotWrites : List Write := [.requirementFilled requirementId (req.workerCountFilled + 1),
    .requirementStatus [requirementId] (if req.lastSlot then .FILLED else .PARTIALLY_FILLED)]
  have slot : reserveSlot requirementId (req.workerCountFilled + 1)
      (decide (req.workerCountNeeded ≤ req.workerCountFilled + 1)) (applyAll offerWrites d) =
      .ok (slotWrites, ()) := by
    have stored : (applyAll offerWrites d).requirement requirementId = some req := acceptable'.found
    have room : ¬ req.workerCountNeeded < req.workerCountFilled + 1 := Nat.not_lt.mpr acceptable'.room
    by_cases last : req.workerCountNeeded ≤ req.workerCountFilled + 1 <;>
      simp [reserveSlot, stored, room, slotWrites, Requirement.lastSlot, last]
  refine ⟨((({} : MarketTx).add Db { locks := [.requirement requirementId] }).add Db
    { writes := offerWrites }).add Db { writes := slotWrites }, rfl, fun new Q => ?_⟩
  rw [acceptTx]
  simp only [lockRequirement, query, step, Call.result_bind, Call.result_lock, Call.result_read,
    Call.resultThen_ok, Tx.view_some, Tx.add_writes, applyAll_append, applyAll_nil, acceptable'.found,
    Option.map_some, acceptable'.stored, policy, assertPolicy, Call.result_pure, acceptable'.unbooked,
    Bool.false_eq_true, if_false, Call.result_stmt, acceptOffer_open offer offered, Call.afterStmt_ok,
    Nat.one_ne_zero]
  rw [slot]
  simp only [Call.afterStmt_ok, Call.resultThen_ok, bookSlot, query, step, Call.result_bind,
    Call.result_read]
  rfl

/-- The transaction of an acceptable call, up to the booking. -/
theorem acceptTx_reserves (answer : Bool) (cfg : Config)
    (acceptable' : d.Acceptable requirementId workerId req job)
    (unused : new.Unused d job.customerId) :
    ∃ t, t.writes = reserveWrites cfg d requirementId workerId new req job ∧
      ∀ Q : Except Failure Acceptance → Option MarketTx → Db → Prop,
        Call.result answer Q (acceptTx cfg requirementId workerId new) (some {}) d =
          Call.result answer Q (do
            let (expiredWorkerIds, jobFullyBooked) ←
              closeFilled (decide req.lastSlot) requirementId req.jobId
            pure { booking := newBooking cfg d requirementId workerId new req job
                   otp := new.otp, nowFilled := decide req.lastSlot
                   newFilled := req.workerCountFilled + 1, needed := req.workerCountNeeded
                   jobId := req.jobId, customerId := job.customerId, expiredWorkerIds
                   jobFullyBooked }) (some t) d := by
  obtain ⟨t, writes, takes⟩ := acceptTx_takes answer cfg acceptable'
  -- the offer and the slot are not among what the booking and its event could collide with
  let booking := newBooking cfg d requirementId workerId new req job
  have clock : (applyAll t.writes d).now = d.now := by
    rw [writes]
    rfl
  have booked : insertBooking booking (applyAll t.writes d) = .ok ([.insertBooking booking], ()) := by
    have absent : (applyAll t.writes d).booking booking.id = none := by
      rw [writes]
      exact unused.1
    have free : (applyAll t.writes d).slotTaken booking.requirementId booking.workerId = false := by
      rw [writes]
      exact acceptable'.unbooked
    simp [insertBooking, absent, free]
  have announced : insertOutbox (.bookingConfirmed new.id job.customerId)
      (applyAll [.insertBooking booking] (applyAll t.writes d)) =
      .ok ([.outbox (.bookingConfirmed new.id job.customerId)], ()) := by
    have absent : .bookingConfirmed new.id job.customerId ∉
        (applyAll [.insertBooking booking] (applyAll t.writes d)).outbox := by
      rw [writes]
      exact unused.2
    rw [insertOutbox, if_neg absent]
  refine ⟨(t.add Db { writes := [.insertBooking booking] }).add Db
    { writes := [.outbox (.bookingConfirmed new.id job.customerId)] }, ?_, fun Q => ?_⟩
  · simp only [Tx.add_writes, writes, reserveWrites, List.append_assoc, List.cons_append, List.nil_append,
      booking]
  · simp only [booking, newBooking] at booked announced
    rw [takes, bookSlot]
    simp only [query, step, Call.result_bind, Call.result_read, Call.resultThen_ok, Tx.view_some,
      Call.result_stmt]
    rw [clock, booked]
    simp only [Call.afterStmt_ok, Call.resultThen_ok, Call.result_bind, Call.result_stmt, Tx.add_writes,
      applyAll_append]
    rw [announced]
    simp only [Call.afterStmt_ok, Call.resultThen_ok, Call.result_bind]
    rfl

/-- The transaction of an acceptable call whose booking or event collides with a stored row. -/
theorem acceptTx_collides (answer : Bool) (cfg : Config) {id : Id}
    (acceptable' : d.Acceptable requirementId workerId req job)
    (collides : ¬ (d.booking id = none ∧ .bookingConfirmed id job.customerId ∉ d.outbox)) :
    ∃ e, ∀ otp otpHash, Call.result answer (fun res _ d' => res = .error e ∧ d' = d)
      (acceptTx cfg requirementId workerId { id, otp, otpHash }) (some {}) d := by
  obtain ⟨t, writes, takes⟩ := acceptTx_takes answer cfg acceptable'
  simp only [takes, bookSlot, query, step, Call.result_bind, Call.result_read, Call.resultThen_ok,
    Tx.view_some, Call.result_stmt]
  -- reserving the slot has touched no booking
  have kept : (applyAll t.writes d).booking id = d.booking id := by
    rw [writes]
    rfl
  cases stored : d.booking id with
  | some old =>
    simp only [insertBooking, kept, stored, Option.isSome_some, if_true]
    exact ⟨_, fun _ _ => ⟨rfl, rfl⟩⟩
  | none =>
    -- the booking is new, so it is the event that collides
    have sent : .bookingConfirmed id job.customerId ∈ d.outbox := by
      by_contra unsent
      exact collides ⟨stored, unsent⟩
    have free : (applyAll t.writes d).slotTaken requirementId workerId = false := by
      rw [writes]
      exact acceptable'.unbooked
    have outbox : ∀ booking, (applyAll [.insertBooking booking] (applyAll t.writes d)).outbox = d.outbox := by
      rw [writes]
      exact fun _ => rfl
    simp only [insertBooking, kept, stored, free, Option.isSome_none, Bool.false_eq_true, if_false,
      Call.afterStmt_ok, Call.resultThen_ok, Call.result_bind, Call.result_stmt, Tx.add_writes,
      applyAll_append, insertOutbox, outbox, if_pos sent]
    exact ⟨_, fun _ _ => ⟨rfl, rfl⟩⟩

/-- The transaction of an acceptable call. -/
theorem acceptTx_accepts (answer : Bool) (cfg : Config)
    (acceptable' : d.Acceptable requirementId workerId req job)
    (unused : new.Unused d job.customerId) (unique : Table.Unique Dispatch.key d.dispatches) :
    ∃ t', applyAll t'.writes d = d.accepted cfg requirementId workerId new req job ∧
      ∀ Q : Except Failure Acceptance → Option MarketTx → Db → Prop,
        Call.result answer Q (acceptTx cfg requirementId workerId new) (some {}) d =
          Q (.ok (d.acceptance cfg requirementId workerId new req job)) (some t') d := by
  obtain ⟨t, writes, reserves⟩ := acceptTx_reserves answer cfg acceptable' unused
  have view : applyAll t.writes d = d.reserved cfg requirementId workerId new req job := by
    rw [writes]
    exact applyAll_reserveWrites unused acceptable'.unbooked
  by_cases last : req.lastSlot
  · have kept : Table.Unique Dispatch.key (applyAll t.writes d).dispatches := by
      rw [view]
      exact Table.unique_modify _ _ (fun _ => rfl) unique
    obtain ⟨t', left, closes⟩ := closeFilled_ends answer requirementId
      (by rw [view]; exact acceptable'.stored) acceptable'.active kept
    rw [view] at left closes
    refine ⟨t', ?_, fun Q => ?_⟩
    · rw [left, Db.accepted, if_pos last]
    · rw [reserves, Call.result_bind, decide_eq_true last, closes, Call.resultThen_ok, Call.result_pure,
        Db.acceptance, decide_eq_true last, Bool.true_and, if_pos last]
  · refine ⟨t, ?_, fun Q => ?_⟩
    · rw [view, Db.accepted, if_neg last]
    · rw [reserves, Call.result_bind, decide_eq_false last, Db.acceptance, decide_eq_false last,
        Bool.false_and, if_neg last]
      rfl

theorem acceptDispatch_accepts (answer : Bool) (cfg : Config)
    (acceptable' : d.Acceptable requirementId workerId req job)
    (unused : new.Unused d job.customerId) (unique : Table.Unique Dispatch.key d.dispatches) :
    Call.result answer (fun res _ d' => res = .ok (d.acceptance cfg requirementId workerId new req job) ∧
        d' = d.accepted cfg requirementId workerId new req job)
      (acceptDispatch cfg requirementId workerId new) none d := by
  obtain ⟨requirementPasses, offerPasses⟩ := preflight_acceptable acceptable'
  obtain ⟨t', left, accepts⟩ := acceptTx_accepts answer cfg acceptable' unused unique
  rw [acceptDispatch]
  simp only [query, Call.result_bind, Call.result_read, Call.resultThen_ok, Tx.view_none,
    requirementPasses, offerPasses, assertPolicy, Call.result_pure, Call.result_attempt,
    Call.result_transaction, accepts, Call.resultEnd, Tx.view_some]
  exact ⟨trivial, left⟩

/-- A call that is not acceptable is refused by the reads before the transaction or by the
transaction, which is then rolled back. -/
theorem acceptDispatch_refuses (answer : Bool) (cfg : Config)
    (refused : ¬ ∃ req job, d.Acceptable requirementId workerId req job) :
    ∃ e, ∀ new, Call.result answer (fun res _ d' => res = .error e ∧ d' = d)
      (acceptDispatch cfg requirementId workerId new) none d := by
  simp only [acceptDispatch, query, Call.result_bind, Call.result_read, Call.resultThen_ok, Tx.view_none]
  cases preflightRequirement (d.requirementWithJob requirementId) with
  | error e => exact ⟨_, fun _ => ⟨rfl, rfl⟩⟩
  | ok _ =>
    simp only [assertPolicy, Call.result_pure, Call.resultThen_ok, Call.result_bind]
    cases preflightOffer (d.requirementWithJob requirementId) (d.dispatch requirementId workerId) d.now with
    | error e => exact ⟨_, fun _ => ⟨rfl, rfl⟩⟩
    | ok _ =>
      simp only [Call.result_pure, Call.resultThen_ok, Call.result_bind, Call.result_attempt,
        Call.result_transaction]
      obtain ⟨e, thrown⟩ := acceptTx_refuses answer cfg refused
      refine ⟨acceptanceError e, fun new => Call.result_mono ?_ (thrown new)⟩
      rintro res tx d' ⟨rfl, rfl⟩
      exact ⟨rfl, rfl⟩

end Effects

/-- `acceptDispatch` decides and acts exactly. -/
theorem accept_decides_and_acts (cfg : Config) (d : Db) (requirementId workerId : Id)
    (new : NewBooking) (fresh : new.Fresh d) (unique : Table.Unique Dispatch.key d.dispatches)
    (answer : Bool) :
    (Call.result answer (fun res _ _ => res.isOk = true)
        (acceptDispatch cfg requirementId workerId new) none d ↔
      ∃ req job, d.Acceptable requirementId workerId req job) ∧
    (Call.result answer (fun res _ _ => res.isOk = true)
        (Call.transaction (fun a => .accepted a.booking a.nowFilled a.jobFullyBooked)
          (acceptTx cfg requirementId workerId new)) none d →
      preflightRequirement (d.requirementWithJob requirementId) = .ok () ∧
        preflightOffer (d.requirementWithJob requirementId) (d.dispatch requirementId workerId) d.now =
          .ok ()) ∧
    (∀ req job, d.Acceptable requirementId workerId req job →
      Call.result answer (fun _ _ d' => d' = d.accepted cfg requirementId workerId new req job)
        (acceptDispatch cfg requirementId workerId new) none d) ∧
    ((¬ ∃ req job, d.Acceptable requirementId workerId req job) →
      Call.result answer (fun _ _ d' => d' = d) (acceptDispatch cfg requirementId workerId new) none d) := by
  refine ⟨⟨fun succeeds => ?_, ?_⟩, fun commits => ?_, fun req job acceptable' => ?_, fun refused => ?_⟩
  · by_contra refused
    obtain ⟨e, fails⟩ := acceptDispatch_refuses answer cfg refused
    have failed := congrArg Except.isOk (fails new).1
    exact absurd (succeeds.symm.trans failed) (by simp [Except.isOk, Except.toBool])
  · rintro ⟨req, job, acceptable'⟩
    refine Call.result_mono ?_ (acceptDispatch_accepts answer cfg acceptable' (fresh.unused _) unique)
    rintro res tx d' ⟨rfl, -⟩
    rfl
  · by_contra rejects
    have refused : ¬ ∃ req job, d.Acceptable requirementId workerId req job := by
      rintro ⟨req, job, acceptable'⟩
      exact rejects (preflight_acceptable acceptable')
    obtain ⟨e, thrown⟩ := acceptTx_refuses answer cfg refused
    rw [Call.result_transaction] at commits
    -- the transaction throws for any new booking, so it cannot have succeeded
    have both : Call.result answer (fun res tx d' => Call.resultEnd
        (fun res _ _ => res.isOk = true) res tx d' ∧ res = .error e)
        (acceptTx cfg requirementId workerId new) (some {}) d := ⟨commits, (thrown new).1⟩
    have never : Call.result answer (fun _ _ _ => False) (acceptTx cfg requirementId workerId new)
        (some {}) d := by
      refine Call.result_mono ?_ both
      rintro res tx d' ⟨succeeded, rfl⟩
      cases succeeded
    exact never
  · exact Call.result_mono (fun _ _ _ ends => ends.2) (acceptDispatch_accepts answer cfg acceptable' (fresh.unused _) unique)
  · obtain ⟨e, fails⟩ := acceptDispatch_refuses answer cfg refused
    exact Call.result_mono (fun _ _ _ ends => ends.2) (fails new)

def runningJob : Job :=
  { id := 1, customerId := 5, latitude := none, longitude := none, status := .IN_PROGRESS
    dispatchStatus := .IDLE }

def lastRequirement : Requirement :=
  { id := 2, jobId := 1, workerCountNeeded := 1, workerCountFilled := 0, status := .DISPATCHING }

/-- A job that is going on, whose last requirement waits for its last worker. -/
def lastWorkerWanted : Db :=
  { jobs := [runningJob], requirements := [lastRequirement]
    dispatches := [{ requirementId := 2, workerId := 7, waveNumber := 1, wavePosition := 1
                     status := .pending, expiresAt := some 30000 }] }

theorem lastWorkerWanted_acceptable :
    lastWorkerWanted.Acceptable 2 7 lastRequirement runningJob :=
  ⟨rfl, by decide, by decide, rfl, by decide, by decide, _, rfl, rfl, _, rfl, by decide⟩

theorem lastWorkerWanted_fresh : (NewBooking.mk 9 0 0).Fresh lastWorkerWanted :=
  ⟨rfl, fun _ => List.not_mem_nil⟩

theorem lastWorkerWanted_unique : Table.Unique Dispatch.key lastWorkerWanted.dispatches :=
  List.nodup_singleton _

theorem last_worker_accepted :
    Call.result true (fun res _ _ => res.isOk = true) (acceptDispatch plainConfig 2 7 ⟨9, 0, 0⟩) none
      lastWorkerWanted :=
  (accept_decides_and_acts plainConfig lastWorkerWanted 2 7 ⟨9, 0, 0⟩ lastWorkerWanted_fresh
    lastWorkerWanted_unique true).1.mpr ⟨_, _, lastWorkerWanted_acceptable⟩

/-- An acceptance changes a job that it does not move to BOOKED: the job's dispatch is marked
as filled. -/
theorem acceptance_changes_running_job : ¬ Call.result true
    (fun _ _ d' => ∀ j ∈ d'.jobs, j ∈ lastWorkerWanted.jobs ∨ j.status = .BOOKED)
    (acceptDispatch plainConfig 2 7 ⟨9, 0, 0⟩) none lastWorkerWanted := by
  intro unchanged
  have left := acceptDispatch_accepts true plainConfig lastWorkerWanted_acceptable
    (lastWorkerWanted_fresh.unused _) lastWorkerWanted_unique
  have jobs : ∀ j ∈ (Db.accepted plainConfig lastWorkerWanted 2 7 ⟨9, 0, 0⟩ lastRequirement runningJob).jobs,
      j ∈ lastWorkerWanted.jobs ∨ j.status = .BOOKED := by
    rw [← left.2]
    exact unchanged
  exact absurd jobs (by decide)

end LabourBaba.Market
