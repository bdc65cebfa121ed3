import LabourBaba.Store.Alone
import LabourBaba.Market.Capacity

/-!
# Bookings and their parent job

When `verifyOtp`, `confirmComplete` and `cancelBooking` succeed. Their own checks pass in
every reachable state; what is left is the job-level step they run in the same transaction,
which rolls the booking's step back when it throws.
-/
namespace LabourBaba.Market

open Store

variable {answer : Bool} {t : MarketTx} {d : Db}

/-- Whether the job-level step of a booking transaction goes through: the transition is
allowed, or refused from a status the caller ignores. -/
def jobStepAllowed (ignored : List JobStatus) (action : JobAction) (actor : TransitionActor)
    (job : Job) : Bool :=
  match jobCanTransition job.status action actor job.customerId with
  | .ok _ => true
  | .error (.jobInvalidTransition fromStatus _ _) => decide (fromStatus ∈ ignored)
  | .error _ => false

/-- The outcome of the job-level step, for a continuation that throws with it and does not
otherwise depend on it. -/
theorem result_jobStep {jobId : Id} {job : Job} {ignored : List JobStatus} {action : JobAction}
    {actor : TransitionActor} {Q : Except Failure Bool → Option MarketTx → Db → Prop} {R : Prop}
    (found : (applyAll t.writes d).job jobId = some job) (fails : ∀ e tx, ¬ Q (.error e) tx d)
    (goes : ∀ moved t' ws, Tx.Grows t t' ws → (∀ v : Db, (applyAll ws v).outbox = v.outbox) →
      (Q (.ok moved) (some t') d ↔ R)) :
    Call.result answer Q (unlessInvalidFrom ignored (jobTransition jobId action actor)) (some t) d ↔
      jobStepAllowed ignored action actor job = true ∧ R := by
  rw [unlessInvalidFrom, Call.result_bind, Call.result_attempt]
  have locked := Tx.Grows.add Db t { locks := [.job jobId] }
  cases allowed : jobCanTransition job.status action actor job.customerId with
  | error e =>
    simp only [jobTransition, lockJob, query, Call.result_bind, Call.result_lock, found,
      Call.resultThen_ok, Option.isSome_some, if_true, Call.result_pure, allowed, Call.result_throw]
    cases e with
    | jobInvalidTransition s a m =>
      simp only [jobStepAllowed, allowed]
      split
      next skipped => simpa [skipped] using goes false _ [] locked (fun _ => rfl)
      next thrown => simpa [thrown] using fails _ _
    | _ => simpa [jobStepAllowed, allowed] using fails _ _
  | ok rule =>
    have moved := (locked.trans (Tx.Grows.add Db _ { writes := [.jobStatus jobId rule.targetStatus] })).trans
      (Tx.Grows.add Db _ { writes := [.jobTransition
        { jobId, fromStatus := some job.status, toStatus := rule.targetStatus, action
          actorType := actor.role, actorId := actor.id }] })
    simpa [jobTransition, lockJob, query, step, casJobStatus, found, allowed, jobStepAllowed] using
      goes true _ _ moved (fun _ => rfl)

theorem result_lockOrReadBooking {id : Id} {b : Booking} {inScope : Booking → Bool}
    {Q : Except Failure (Option Booking) → Option MarketTx → Db → Prop}
    (found : (applyAll t.writes d).booking id = some b) (scope : inScope b = true) :
    Call.result answer Q (lockOrReadBooking id inScope) (some t) d =
      Q (.ok (some b)) (some (t.add Db { locks := [.booking id] })) d := by
  simp [lockOrReadBooking, lockBooking, found, scope, Option.filter_some]

/-- A booking transition that its rules allow. -/
theorem result_bookingTransition {id : Id} {b : Booking} {action : BookingAction}
    {actor : TransitionActor} {reason : Text} {target : BookingStatus}
    {Q : Except Failure BookingTransitionResult → Option MarketTx → Db → Prop} {R : Prop}
    (found : (applyAll t.writes d).booking id = some b)
    (allowed : bookingCanTransition b.status action actor b.customerId b.workerId = .ok target)
    (stated : action = .CANCEL → reason.isBlank = false)
    (goes : ∀ t' now record result, result.isIdempotent = false →
      Tx.Grows t t' (bookingMove id target now ++ [.bookingTransition record]) →
      (Q (.ok result) (some t') d ↔ R)) :
    Call.result answer Q (bookingTransition id action actor reason) (some t) d ↔ R := by
  obtain ⟨source, rfl, -⟩ := bookingCanTransition_ok allowed
  have once : ¬ (action = .CONFIRM_COMPLETION ∧ b.status = .COMPLETED) := by
    rintro ⟨rfl, same⟩
    simp [same, BookingAction.sources] at source
  have first : ¬ (action = .REQUEST_COMPLETION ∧ b.status = .AWAITING_CONFIRMATION) := by
    rintro ⟨rfl, same⟩
    simp [same, BookingAction.sources] at source
  have given : ¬ (action = .CANCEL ∧ reason.isBlank = true) := by
    rintro ⟨rfl, blank⟩
    simp [stated rfl] at blank
  have update : ∀ now, setBookingStatus id action.target now (applyAll t.writes d) =
      .ok (bookingMove id action.target now, ()) := by
    intro now
    simp only [setBookingStatus, bookingMove, found, Option.isNone_some, Bool.false_eq_true, if_false]
    split <;> rfl
  let record : BookingTransition :=
    { bookingId := id, fromStatus := b.status, toStatus := action.target, action
      actorType := actor.role, actorId := actor.id }
  have grows := ((Tx.Grows.add Db t { locks := [.booking id] }).trans (Tx.Grows.add Db _
    { writes := bookingMove id action.target (applyAll t.writes d).now })).trans
    (Tx.Grows.add Db _ { writes := [.bookingTransition record] })
  rw [bookingTransition, Call.result_bind, result_lockOrReadBooking found rfl, Call.resultThen_ok]
  simp only [once, first, given, allowed, if_false]
  simpa [query, step, update] using goes _ (applyAll t.writes d).now record _ rfl grows

/-- The writes of a booking transition leave the job alone. -/
theorem job_bookingMove {id jobId : Id} {target : BookingStatus} {now : Nat}
    {record : BookingTransition} (d : Db) :
    (applyAll (bookingMove id target now ++ [.bookingTransition record]) d).job jobId =
      d.job jobId := by
  refine job_applyAll (fun w member => ?_) d
  simp only [bookingMove, List.mem_append, List.mem_singleton] at member
  rcases member with member | rfl
  · split at member <;> simp at member <;> rcases member with rfl | rfl <;> simp [Write.keys]
  · simp [Write.keys]

section Moved

variable {id : Id} {target : BookingStatus} {now : Nat} {record : BookingTransition} {c : Booking}

theorem onAll_bookingMove_other (other : c.id ≠ id) :
    onAll Write.onBooking (bookingMove id target now ++ [.bookingTransition record]) c = c := by
  simp only [bookingMove]
  split <;> simp [Write.onBooking, other]

theorem onAll_bookingMove_mine (mine : c.id = id) :
    (onAll Write.onBooking (bookingMove id target now ++ [.bookingTransition record]) c).status =
      target := by
  simp only [bookingMove]
  split <;> simp [Write.onBooking, mine]

theorem insertBooking_bookingMove :
    .insertBooking c ∉ bookingMove id target now ++ [.bookingTransition record] := by
  simp only [bookingMove]
  split <;> simp

/-- Another booking of the same job has a status that is counted. -/
def Db.anotherBooking (d : Db) (b : Booking) (counted : BookingStatus → Bool) : Bool :=
  d.bookings.any fun c => decide (c.jobId = b.jobId ∧ c.id ≠ b.id) && counted c.status

/-- What a count of a job's bookings still finds after one of them has been moved to a
status that is not counted. -/
theorem countP_moved (b : Booking) (counted : BookingStatus → Bool) (out : counted target = false)
    (d : Db) :
    (applyAll (bookingMove b.id target now ++ [.bookingTransition record]) d).bookings.countP
        (fun c => decide (c.jobId = b.jobId) && counted c.status) = 0 ↔
      d.anotherBooking b counted = false := by
  rw [List.countP_eq_zero, Db.anotherBooking, List.any_eq_false]
  constructor
  · intro none c member counts
    simp only [Bool.and_eq_true, decide_eq_true_eq] at counts
    have kept := bookingEffects.mem_applyAll member
      (bookingMove b.id target now ++ [.bookingTransition record])
    rw [onAll_bookingMove_other counts.1.2] at kept
    simpa [counts.1.1, counts.2] using none c kept
  · intro others c' member
    rcases bookingEffects.of_mem_applyAll member with
      ⟨c, old, same⟩ | ⟨before, w, rest, c, split, rfl, -⟩
    · by_cases mine : c.id = b.id
      · have moved : c'.status = target := same ▸ onAll_bookingMove_mine mine
        simp [moved, out]
      · rw [onAll_bookingMove_other mine] at same
        subst same
        simpa [mine] using others c' old
    · exact absurd (by rw [split]; simp) (insertBooking_bookingMove (c := c))

end Moved

/-- A job-level step that is only taken when a count finds nothing. -/
theorem result_countedStep {jobId : Id} {job : Job} {ignored : List JobStatus} {action : JobAction}
    {actor : TransitionActor} {count : Db → Nat}
    {Q : Except Failure Bool → Option MarketTx → Db → Prop} {P R : Prop}
    (counts : count (applyAll t.writes d) = 0 ↔ P)
    (found : (applyAll t.writes d).job jobId = some job) (fails : ∀ e tx, ¬ Q (.error e) tx d)
    (goes : ∀ moved t' ws, Tx.Grows t t' ws → (∀ v : Db, (applyAll ws v).outbox = v.outbox) →
      (Q (.ok moved) (some t') d ↔ R)) :
    Call.result answer Q (do
        let n ← query count
        if n = 0 then unlessInvalidFrom ignored (jobTransition jobId action actor) else pure false)
      (some t) d ↔ (P → jobStepAllowed ignored action actor job = true) ∧ R := by
  simp only [query, Call.result_bind, Call.result_read, Call.resultThen_ok, Tx.view_some]
  by_cases none : count (applyAll t.writes d) = 0
  · simp only [none, if_true, counts.mp none, forall_const]
    exact result_jobStep found fails goes
  · have some' : ¬ P := fun holds => none (counts.mpr holds)
    simp only [none, if_false, Call.result_pure, some', false_implies, true_and]
    exact goes false t [] (.refl t) (fun _ => rfl)

/-- An outbox row whose key is not taken. -/
theorem result_createOutbox {key : OutboxKey} {Q : Except Failure Unit → Option MarketTx → Db → Prop}
    (fresh : key ∉ (applyAll t.writes d).outbox) :
    Call.result answer Q (createOutbox key) (some t) d =
      Q (.ok ()) (some (t.add Db { writes := [.outbox key] })) d := by
  simp [createOutbox, step, fresh]

theorem outbox_bookingMove {id : Id} {target : BookingStatus} {now : Nat}
    {record : BookingTransition} (d : Db) :
    (applyAll (bookingMove id target now ++ [.bookingTransition record]) d).outbox = d.outbox := by
  simp only [bookingMove]
  split <;> rfl

/-- A recount that stays within the demand. -/
theorem result_reconcileCapacity {id : Id} {req : Requirement}
    {Q : Except Failure RequirementCapacity → Option MarketTx → Db → Prop} {R : Prop}
    (found : (applyAll t.writes d).requirement id = some req) (positive : 0 < req.workerCountNeeded)
    (room : (applyAll t.writes d).activeBookings id ≤ req.workerCountNeeded)
    (goes : ∀ t' capacity filled status,
      Tx.Grows t t' [.requirementFilled id filled, .requirementStatus [id] status] →
      (Q (.ok capacity) (some t') d ↔ R)) :
    Call.result answer Q (reconcileCapacity id) (some t) d ↔ R := by
  have demand : req.workerCountNeeded ≠ 0 := by omega
  have enough : ¬ req.workerCountNeeded < (applyAll t.writes d).activeBookings id := by omega
  have update : ∀ status, setCapacity id ((applyAll t.writes d).activeBookings id) status
      (applyAll t.writes d) = .ok ([.requirementFilled id ((applyAll t.writes d).activeBookings id),
        .requirementStatus [id] status], ()) := by
    intro status
    simp [setCapacity, found, enough]
  have grows := fun status => (Tx.Grows.add Db t { locks := [.requirement id] }).trans (Tx.Grows.add Db _
    { writes := [.requirementFilled id ((applyAll t.writes d).activeBookings id),
        .requirementStatus [id] status] })
  simpa [reconcileCapacity, lockRequirement, query, step, found, demand, update] using
    goes _ _ _ _ (grows _)

theorem result_setOffers {select : Dispatch → Bool} {status : DispatchStatus}
    {Q : Except Failure Nat → Option MarketTx → Db → Prop} {R : Prop}
    (goes : ∀ t' offers n, Tx.Grows t t' [.dispatchStatus offers status] →
      (Q (.ok n) (some t') d ↔ R)) :
    Call.result answer Q (setOffers select status) (some t) d ↔ R := by
  rw [setOffers, step, Call.result_stmt]
  exact goes _ _ _ (Tx.Grows.add Db t _)

/-! ### The three calls -/

/-- A call started in the pool returns normally when it runs alone. -/
def Succeeds (cfg : Config) (answer : Bool) (p : MarketPool) (op : Op) : Prop :=
  ∃ reply, Pool.Replies (system cfg) answer p op (.ok reply)

/-- The call has returned normally. -/
def returnsOk {α : Type} (r : Except Failure α) (_ : Option MarketTx) (_ : Db) : Prop :=
  r.isOk = true

@[simp] theorem returnsOk_ok {α : Type} (a : α) (tx : Option MarketTx) :
    returnsOk (.ok a : Except Failure α) tx d = True := by simp [returnsOk, Except.isOk, Except.toBool]

@[simp] theorem returnsOk_error {α : Type} (e : Failure) (tx : Option MarketTx) :
    returnsOk (.error e : Except Failure α) tx d = False := by
  simp [returnsOk, Except.isOk, Except.toBool]

theorem succeeds_iff {cfg : Config} {p : MarketPool} (idle : p.Idle) (op : Op) :
    Succeeds cfg answer p op ↔ Call.result answer returnsOk (serviceOf cfg op) none p.db := by
  simp only [Succeeds, Pool.replies_iff idle, Call.result, system]
  cases ((serviceOf cfg op).run.alone answer none p.db).1 <;> simp

theorem result_replying {α : Type} {body : Service α} {reply : α → Reply} :
    Call.result answer returnsOk (replying reply body) none d ↔
      Call.result answer returnsOk body none d := by
  rw [replying, Call.result_bind]
  simp only [Call.result]
  cases (body.run.alone answer none d).1 with
  | error e => simp
  | ok a =>
    rw [Call.resultThen_ok, Call.result_pure]
    simp

section Calls

variable {cfg : Config} {b : Booking} {j : Job} (consistent : Consistent d) (member : b ∈ d.bookings)
  (job : d.job b.jobId = some j)

include consistent member job

theorem verifyOtp_result {otp : Nat} {actor : Option AuthenticatedUser}
    (assigned : actor = none ∨ actor = some ⟨b.workerId, .WORKER⟩) (confirmed : b.status = .CONFIRMED)
    (unlocked : b.otpLockedAt = none ∧ b.otpAttempts < cfg.bookingOtpMaxAttempts)
    (unexpired : d.now ≤ b.otpExpiresAt) (right : cfg.comparePassword otp b.otpHash = true)
    (open' : j.status ≠ .CANCELLED ∧ j.status ≠ .COMPLETED) :
    Call.result answer returnsOk (verifyOtp cfg b.id b.workerId otp actor) none d ↔
      j.status ≠ .OPEN := by
  have found : d.booking b.id = some b := Table.find_of_mem consistent.wf.bookingIds member
  obtain ⟨unused, unverified⟩ := consistent.wf.otpUnused b member confirmed
  have policy : otpPolicy actor b.workerId b = .ok () := by
    rcases assigned with rfl | rfl <;> simp [otpPolicy, canVerifyOtp]
  have effective : effectiveId actor .WORKER b.workerId = b.workerId := by
    rcases assigned with rfl | rfl <;> simp [effectiveId]
  have worker : roleOr actor .WORKER = .WORKER := by rcases assigned with rfl | rfl <;> rfl
  have allowed : bookingCanTransition b.status .START_WORK ⟨some b.workerId, .WORKER⟩ b.customerId
      b.workerId = .ok .IN_PROGRESS := by
    simp [bookingCanTransition, bookingTransitionTable, confirmed]
  have attempts : ¬ cfg.bookingOtpMaxAttempts ≤ b.otpAttempts := by omega
  have fresh : ¬ b.otpExpiresAt < d.now := by omega
  rw [verifyOtp, Call.result_bind, Call.result_transaction, verifyOtpTx, bookingForOtp]
  simp only [effective, worker, Call.result_bind]
  rw [result_lockOrReadBooking (by simpa using found) (by simp)]
  simp only [policy, assertPolicy, query, confirmed, unused, unverified, unlocked.1, attempts, fresh,
    Call.resultThen_ok, Call.result_pure, Call.result_bind, Call.result_read, Tx.view_some,
    Tx.add_writes, List.append_nil, applyAll_nil, Option.isSome_none, Bool.false_eq_true, or_self,
    ne_eq, not_true_eq_false, if_false]
  simp only [compareOtp, step, right, Call.result_stmt, Call.afterStmt, Call.resultThen_ok, if_true,
    Call.result_bind]
  refine result_bookingTransition found allowed (by simp) ?_
  intro t' now record result _ grows
  have found' : (applyAll t'.writes d).job b.jobId = some j := by
    rw [grows.writes, applyAll_append]
    exact (job_bookingMove _).trans job
  rw [Call.resultThen_ok, Call.result_bind]
  refine (result_jobStep (R := True) found' (by simp [Call.resultEnd]) (by simp [Call.resultEnd])).trans ?_
  cases status : j.status <;>
    simp_all [jobStepAllowed, jobCanTransition, jobTransitionTable]

theorem confirmComplete_result {actor : Option AuthenticatedUser}
    (owner : actor = none ∨ actor = some ⟨b.customerId, .CUSTOMER⟩)
    (awaiting : b.status = .AWAITING_CONFIRMATION)
    (open' : j.status ≠ .CANCELLED ∧ j.status ≠ .COMPLETED) :
    Call.result answer returnsOk (confirmComplete b.id b.customerId none actor) none d ↔
      d.anotherBooking b (fun s => !s.isTerminal) = true ∨ j.status = .BOOKED ∨
        j.status = .IN_PROGRESS := by
  have found : d.booking b.id = some b := Table.find_of_mem consistent.wf.bookingIds member
  have policy : confirmPolicy actor b.customerId b = .ok () := by
    rcases owner with rfl | rfl <;> simp [confirmPolicy, canConfirmCompletion]
  have effective : effectiveId actor .CUSTOMER b.customerId = b.customerId := by
    rcases owner with rfl | rfl <;> simp [effectiveId]
  have customer : roleOr actor .CUSTOMER = .CUSTOMER := by rcases owner with rfl | rfl <;> rfl
  have allowed : bookingCanTransition b.status .CONFIRM_COMPLETION ⟨some b.customerId, .CUSTOMER⟩
      b.customerId b.workerId = .ok .COMPLETED := by
    simp [bookingCanTransition, bookingTransitionTable, awaiting]
  have fresh : .bookingCompleted b.id b.workerId ∉ d.outbox := by
    intro noticed
    obtain ⟨c, stored, same, completed⟩ := consistent.wf.completedNotice _ _ noticed
    obtain rfl := Table.eq_of_find consistent.wf.bookingIds found stored same
    simp [awaiting] at completed
  rw [confirmComplete, Call.result_bind, Call.result_transaction, confirmCompleteTx]
  simp only [effective, customer]
  simp only [found, policy, assertPolicy, query, Option.filter_some, onlyIf, Call.result_bind,
    Call.result_read, Tx.view_some, applyAll_nil, decide_true, Bool.or_true, if_true,
    Call.resultThen_ok, Call.result_pure, Option.getD_none, ne_eq, not_true_eq_false, decide_false,
    Bool.false_eq_true, false_and, if_false]
  refine result_bookingTransition (by simpa using found) allowed (by simp) ?_
  intro t' now record result first grows
  have writes : t'.writes = bookingMove b.id .COMPLETED now ++ [.bookingTransition record] := grows.writes
  have found' : (applyAll t'.writes d).job b.jobId = some j := by
    rw [writes]
    exact (job_bookingMove d).trans job
  simp only [Call.resultThen_ok, Call.result_bind, Call.result_pure, first, Bool.not_false, if_true]
  rw [completeJobIfDone]
  refine (result_countedStep (P := d.anotherBooking b (fun s => !s.isTerminal) = false) (R := True)
    ?_ found' ?_ ?_).trans ?_
  · rw [writes]
    exact countP_moved b (fun s => !s.isTerminal) rfl d
  · simp [Call.resultEnd]
  · intro moved t₂ ws grows₂ outbox
    have fresh' : .bookingCompleted b.id b.workerId ∉ (applyAll t₂.writes d).outbox := by
      rwa [grows₂.writes, applyAll_append, outbox, writes, outbox_bookingMove]
    rw [Call.resultThen_ok, Call.result_bind, result_createOutbox fresh']
    simp [Call.resultEnd]
  · have owned : j.customerId = b.customerId := by
      obtain ⟨j', stored, named, same⟩ := consistent.wf.bookingJob b member
      obtain rfl := Table.eq_of_find consistent.wf.jobIds job stored named
      exact same
    have allowedFrom : jobStepAllowed [.COMPLETED] .COMPLETE ⟨some b.customerId, .CUSTOMER⟩ j = true ↔
        j.status = .BOOKED ∨ j.status = .IN_PROGRESS := by
      cases status : j.status <;>
        simp_all [jobStepAllowed, jobCanTransition, jobTransitionTable]
    rw [allowedFrom, and_true]
    cases d.anotherBooking b (fun s => !s.isTerminal) <;> simp

omit consistent member in
/-- The end of a cancellation: reopening the job, and the notice. -/
theorem reopened_result {now : Nat} {record : BookingTransition} {ws : List Write} {key : OutboxKey}
    {Q : Except Failure (Booking × Bool) → Option MarketTx → Db → Prop}
    (writes : t.writes = bookingMove b.id .CANCELLED now ++ [.bookingTransition record] ++ ws)
    (aside : ∀ v : Db, (applyAll ws v).bookings = v.bookings ∧ (applyAll ws v).jobs = v.jobs ∧
      (applyAll ws v).outbox = v.outbox)
    (fresh : key ∉ d.outbox) (fails : ∀ e tx, ¬ Q (.error e) tx d) (goes : ∀ r t', Q (.ok r) (some t') d) :
    Call.result answer Q (do
        let jobReopened ← reopenJobIfEmpty b.jobId
        createOutbox key
        pure (b, jobReopened)) (some t) d ↔
      d.anotherBooking b BookingStatus.isActive = true ∨ j.status ≠ .OPEN := by
  have found : (applyAll t.writes d).job b.jobId = some j := by
    rw [writes, applyAll_append, Db.job, (aside _).2.1]
    exact (job_bookingMove d).trans job
  rw [Call.result_bind, reopenJobIfEmpty]
  refine (result_countedStep (P := d.anotherBooking b BookingStatus.isActive = false) (R := True)
    ?_ found (fun e tx => fails e tx) ?_).trans ?_
  · rw [writes, applyAll_append, (aside _).1]
    exact countP_moved b BookingStatus.isActive rfl d
  · intro moved t' vs grows outbox
    have fresh' : key ∉ (applyAll t'.writes d).outbox := by
      rwa [grows.writes, applyAll_append, outbox, writes, applyAll_append, (aside _).2.2,
        outbox_bookingMove]
    rw [Call.resultThen_ok, Call.result_bind, result_createOutbox fresh']
    simpa using goes _ _
  · have allowedFrom : jobStepAllowed [.CANCELLED, .DISPATCHING, .COMPLETED] .REOPEN_DISPATCH
        { role := .SYSTEM } j = true ↔ j.status ≠ .OPEN := by
      cases status : j.status <;> simp [jobStepAllowed, jobCanTransition, jobTransitionTable, status]
    rw [allowedFrom, and_true]
    cases d.anotherBooking b BookingStatus.isActive <;> simp

theorem cancelBooking_result {actor : Option AuthenticatedUser} {reason : Text}
    (owner : actor = none ∨ actor = some ⟨b.customerId, .CUSTOMER⟩)
    (running : b.status.isTerminal = false) (stated : reason.isBlank = false) :
    Call.result answer returnsOk (cancelBooking b.id b.customerId reason actor) none d ↔
      d.anotherBooking b BookingStatus.isActive = true ∨ j.status ≠ .OPEN := by
  have found : d.booking b.id = some b := Table.find_of_mem consistent.wf.bookingIds member
  have policy : cancelPolicy actor b.customerId b = .ok () := by
    rcases owner with rfl | rfl <;> simp [cancelPolicy, canCancel]
  have customer : roleOr actor .CUSTOMER = .CUSTOMER := by rcases owner with rfl | rfl <;> rfl
  have allowed : bookingCanTransition b.status .CANCEL ⟨some b.customerId, .CUSTOMER⟩
      b.customerId b.workerId = .ok .CANCELLED := by
    cases status : b.status <;> simp_all [bookingCanTransition, bookingTransitionTable,
      BookingStatus.isTerminal]
  have fresh : .bookingCancelled b.id .WORKER b.workerId ∉ d.outbox := by
    intro noticed
    obtain ⟨c, stored, same, cancelled⟩ := consistent.wf.cancelledNotice _ _ _ noticed
    obtain rfl := Table.eq_of_find consistent.wf.bookingIds found stored same
    simp [cancelled, BookingStatus.isTerminal] at running
  have acting : actingId actor b.customerId = b.customerId := by rcases owner with rfl | rfl <;> rfl
  rw [cancelBooking, Call.result_bind, Call.result_transaction, cancelBookingTx]
  simp only [acting, customer, Call.result_bind]
  rw [result_lockOrReadBooking (by simpa using found) (by simp [cancelScope])]
  simp only [policy, assertPolicy, stated, Call.resultThen_ok, Call.result_pure, Call.result_bind,
    Bool.false_eq_true, if_false]
  refine result_bookingTransition (by simpa using found) allowed (fun _ => stated) ?_
  intro t' now record result first grows
  simp only [Call.resultThen_ok, Call.result_bind, first, Bool.false_eq_true, if_false, reduceCtorEq]
  have writes : t'.writes = [.bookingStatus b.id .CANCELLED, .bookingTransition record] := grows.writes
  obtain ⟨req, stored, named, -⟩ := consistent.wf.bookingRequirement b member
  have requirement : d.requirement b.requirementId = some req :=
    named ▸ Table.find_of_mem consistent.wf.requirementIds stored
  have bound := (consistent.ledger.filled requirement).2
  have left : req.workerCountFilled = (applyAll t'.writes d).activeBookings b.requirementId + 1 := by
    rw [writes]
    refine activeBookings_cancelled consistent found rfl ?_ requirement
    cases status : b.status <;> simp_all [BookingAction.sources, BookingStatus.isTerminal]
  have found' : (applyAll t'.writes d).requirement b.requirementId = some req := by
    rw [writes]
    exact requirement
  refine result_reconcileCapacity found' (consistent.wf.demand req stored) (by omega) ?_
  intro t₁ capacity filled status grows₁
  rw [Call.resultThen_ok, Call.result_bind]
  refine result_setOffers fun t₂ offers n grows₂ => ?_
  have total : t₂.writes = bookingMove b.id .CANCELLED now ++ [.bookingTransition record] ++
      [.requirementFilled b.requirementId filled, .requirementStatus [b.requirementId] status,
       .dispatchStatus offers .cancelled] := by
    rw [grows₂.writes, grows₁.writes, writes]
    rfl
  rw [Call.resultThen_ok]
  exact reopened_result job total (fun v => ⟨rfl, rfl, rfl⟩) fresh (by simp [Call.resultEnd])
    (by simp [Call.resultEnd])

end Calls

/-! ### Every reachable state -/

/-- The call is made by the user of the given role and id, or by a caller that passes on
the id alone. -/
def ActsAs (actor : Option AuthenticatedUser) (id : Id) (role : Role) : Prop :=
  actor = none ∨ actor = some ⟨id, role⟩

/-- In every reachable state without an open transaction, for every booking of a job that
has not ended: exactly when the parent job lets the three calls through. -/
theorem calls_pass_parent_job (cfg : Config) {p : MarketPool} (reached : Reachable cfg p)
    (idle : p.Idle) (answer : Bool) {b : Booking} {j : Job} (member : b ∈ p.db.bookings)
    (job : p.db.job b.jobId = some j) (running : j.status ≠ .CANCELLED ∧ j.status ≠ .COMPLETED) :
    (∀ otp actor, ActsAs actor b.workerId .WORKER → b.status = .CONFIRMED →
      b.otpLockedAt = none ∧ b.otpAttempts < cfg.bookingOtpMaxAttempts →
      p.db.now ≤ b.otpExpiresAt → cfg.comparePassword otp b.otpHash = true →
      (Succeeds cfg answer p (.verifyOtp b.id b.workerId otp actor) ↔ j.status ≠ .OPEN)) ∧
    (∀ actor, ActsAs actor b.customerId .CUSTOMER → b.status = .AWAITING_CONFIRMATION →
      (Succeeds cfg answer p (.confirmComplete b.id b.customerId none actor) ↔
        p.db.anotherBooking b (fun s => !s.isTerminal) = true ∨ j.status = .BOOKED ∨
          j.status = .IN_PROGRESS)) ∧
    ∀ actor reason, ActsAs actor b.customerId .CUSTOMER →
      b.status = .CONFIRMED ∨ b.status = .IN_PROGRESS ∨ b.status = .AWAITING_CONFIRMATION →
      reason.isBlank = false →
      (Succeeds cfg answer p (.cancelBooking b.id b.customerId reason actor) ↔
        p.db.anotherBooking b BookingStatus.isActive = true ∨ j.status ≠ .OPEN) := by
  have consistent := consistent_of_runs reached
  refine ⟨?_, ?_, ?_⟩
  · intro otp actor acts confirmed unlocked unexpired right
    rw [succeeds_iff idle, serviceOf, result_replying]
    exact verifyOtp_result consistent member job acts confirmed unlocked unexpired right running
  · intro actor acts awaiting
    rw [succeeds_iff idle, serviceOf, result_replying]
    exact confirmComplete_result consistent member job acts awaiting running
  · intro actor reason acts active stated
    have notEnded : b.status.isTerminal = false := by
      rcases active with status | status | status <;> simp [status, BookingStatus.isTerminal]
    rw [succeeds_iff idle, serviceOf, result_replying]
    exact cancelBooking_result consistent member job acts notEnded stated

/-- The job and the booking after the first of two workers has accepted. -/
def dispatchingJob : Job := ⟨1, 7, some 0, some 0, .DISPATCHING, .IDLE⟩

def firstBooking : Booking :=
  { id := 1, jobId := 1, requirementId := 1, workerId := 10, customerId := 7, status := .CONFIRMED
    otpHash := 5, otpExpiresAt := 86400000, otpAttempts := 0 }

theorem calls_pass_first_accepts :
    Succeeds plainConfig true (played (fun _ _ => True) firstAccepts)
      (.verifyOtp 1 10 5 (some ⟨10, .WORKER⟩)) := by
  have idle : (played (fun _ _ => True) firstAccepts).Idle := by
    unfold Pool.Idle
    decide +kernel
  have member : firstBooking ∈ (played (fun _ _ => True) firstAccepts).db.bookings := by
    decide +kernel
  have job : (played (fun _ _ => True) firstAccepts).db.job 1 = some dispatchingJob := by
    decide +kernel
  have unexpired : (played (fun _ _ => True) firstAccepts).db.now ≤ 86400000 := by decide +kernel
  have passes := (calls_pass_parent_job plainConfig (runs_played _ firstAccepts) idle true member job
    (by decide)).1 5 (some ⟨10, .WORKER⟩) (Or.inr rfl) rfl (by decide) unexpired rfl
  exact passes.mpr (by decide)

/-- The process crashes between the two transactions of `createJob`; the reconciliation
schedules the first wave of the job, which is still OPEN, and one of two workers accepts. -/
def crashedInCreation : List (Pool.Move Op) :=
  [.event (.spawn (.createJob 1 7 { latitude := some 0, longitude := some 0
                                    requirements := [{ id := 1, workerCountNeeded := 2 }] })),
   .event (.run 0 true), .event (.run 0 true), .event (.run 0 true), .event (.run 0 true),
   .event (.run 0 true), .event (.crash 0),
   .event (.spawn .reconcileDispatchState),
   .drive 1 true,
   .event (.spawn (.processDispatchJob { requirementId := 1, jobId := 1 } [10, 11])),
   .drive 2 true,
   .event (.spawn (.acceptDispatch 1 10 { id := 1, otp := 5, otpHash := 5 })),
   .drive 3 true]

/-- The job-level step throws for the worker's OTP and for the customer's cancellation. -/
theorem open_job_blocks_booking :
    ∃ p, Reachable plainConfig p ∧ p.Idle ∧ firstBooking ∈ p.db.bookings ∧
      p.db.job 1 = some { dispatchingJob with status := .OPEN } ∧
      ¬ Succeeds plainConfig true p (.verifyOtp 1 10 5 (some ⟨10, .WORKER⟩)) ∧
      ¬ Succeeds plainConfig true p (.cancelBooking 1 7 "rain".toList (some ⟨7, .CUSTOMER⟩)) := by
  have idle : (played (fun _ _ => True) crashedInCreation).Idle := by
    unfold Pool.Idle
    decide +kernel
  refine ⟨_, runs_played _ crashedInCreation, idle, by decide +kernel, by decide +kernel, ?_, ?_⟩
  · rw [succeeds_iff idle, Call.result, returnsOk]
    decide +kernel
  · rw [succeeds_iff idle, Call.result, returnsOk]
    decide +kernel

end LabourBaba.Market
