import LabourBaba.Market.Progress

/-!
# Confirming a booking twice

`confirmComplete` catches the unique violation of a second review so that a customer may
confirm again. The violation has aborted the transaction by then. A repeated confirmation is
idle exactly when it carries no rating.
-/
namespace LabourBaba.Market

open Store

variable {answer : Bool} {t : MarketTx} {d : Db}

/-- The call fails, or the store it leaves has the property. -/
def leaving {α : Type} (P : Db → Prop) (r : Except Failure α) (tx : Option MarketTx) (d : Db) :
    Prop :=
  r.isOk = true → P (Tx.view tx d)

section Leaving

variable {α : Type} {P : Db → Prop} {tx : Option MarketTx}

@[simp] theorem leaving_ok (a : α) :
    leaving P (.ok a : Except Failure α) tx d = P (Tx.view tx d) := by
  simp [leaving, Except.isOk, Except.toBool]

@[simp] theorem leaving_error (e : Failure) :
    leaving P (.error e : Except Failure α) tx d = True := by
  simp [leaving, Except.isOk, Except.toBool]

/-- Committing leaves what the transaction sees. -/
theorem resultEnd_leaving {β : Type} {Q : Except Failure β → Option MarketTx → Db → Prop}
    {f : α → Service β} (fails : ∀ e tx d, Q (.error e) tx d)
    (goes : ∀ a d, P d → Call.result answer Q (f a) none d) (r : Except Failure α)
    (leaves : leaving P r tx d) : Call.resultEnd (Call.resultThen answer Q f) r tx d := by
  cases r with
  | error e => exact fails e none d
  | ok a => exact goes a _ (by simpa using leaves)

theorem leaving_mono {P' : Db → Prop} {body : Service α} (weaker : ∀ v, P v → P' v)
    (leaves : Call.result answer (leaving P) body tx d) :
    Call.result answer (leaving P') body tx d :=
  fun succeeded => weaker _ (leaves succeeded)

end Leaving

/-- The job has a booking that has not ended. -/
def Db.unfinished (d : Db) (jobId : Id) : Nat :=
  d.bookings.countP fun b => decide (b.jobId = jobId) && !b.status.isTerminal

/-- The request is one that the booking's customer may make. -/
def MayConfirm (customerId : Id) (actor : Option AuthenticatedUser) (b : Booking) : Prop :=
  actor = none ∧ customerId = b.customerId ∨ actor = some ⟨b.customerId, .CUSTOMER⟩

theorem confirmPolicy_ok {customerId : Id} {actor : Option AuthenticatedUser} {b : Booking} :
    confirmPolicy actor customerId b = .ok () ↔ MayConfirm customerId actor b := by
  cases actor with
  | none =>
    by_cases owner : b.customerId = customerId
    · simp [confirmPolicy, MayConfirm, owner]
    · simp [confirmPolicy, MayConfirm, owner, Ne.symm owner]
  | some actor =>
    obtain ⟨id, role⟩ := actor
    simp only [confirmPolicy, canConfirmCompletion, MayConfirm]
    split
    next other => simp [other]
    next customer =>
      split
      next other => simp [Ne.symm other]
      next owner => simp_all

namespace MayConfirm

variable {customerId : Id} {actor : Option AuthenticatedUser} {b : Booking}
  (may : MayConfirm customerId actor b)

include may

theorem effective : effectiveId actor .CUSTOMER customerId = b.customerId := by
  rcases may with ⟨rfl, rfl⟩ | rfl <;> simp [effectiveId]

theorem role : roleOr actor .CUSTOMER = .CUSTOMER := by
  rcases may with ⟨rfl, rfl⟩ | rfl <;> rfl

end MayConfirm

/-! ### What a confirmation leaves -/

/-- Once the last booking of a job has ended, the job is completed, and it is the customer's. -/
def JobEnded (jobId customer : Id) (d : Db) : Prop :=
  d.unfinished jobId = 0 → ∃ j, d.job jobId = some j ∧ j.status = .COMPLETED ∧ j.customerId = customer

/-- The booking is completed and reviewed if the request was rated, and the job is completed
unless another of its bookings goes on. -/
structure Confirmed (bookingId customerId : Id) (rated : Bool) (actor : Option AuthenticatedUser)
    (b : Booking) (d : Db) : Prop where
  found : d.booking bookingId = some b
  completed : b.status = .COMPLETED
  owner : MayConfirm customerId actor b
  reviewed : rated = true → (d.reviews.any fun old => old.bookingId = bookingId) = true
  jobEnded : JobEnded b.jobId b.customerId d

section Leaves

variable {bookingId customerId : Id} {rated : Bool} {actor : Option AuthenticatedUser} {b : Booking}

theorem notice_leaves {α : Type} {P : Db → Prop} {key : OutboxKey} {needed : Bool} {a : α}
    (kept : ∀ d : Db, P d → P (write (.outbox key) d)) (holds : P (applyAll t.writes d)) :
    Call.result answer (leaving P) (do onlyIf needed (createOutbox key); pure a) (some t) d := by
  rw [Call.result_bind, onlyIf]
  split
  · rw [createOutbox, step, Call.result_stmt]
    split
    next taken => simp [Call.afterStmt]
    next fresh =>
      simpa [fresh, Call.afterStmt] using kept _ holds
  · simpa using holds

theorem createReview_ends {review : Review}
    {Q : Except Failure Unit → Option MarketTx → Db → Prop} (fails : ∀ e tx, Q (.error e) tx d)
    (done : Q (.ok ()) (some (t.add Db { writes := [.review review] })) d) :
    Call.result answer Q (createReview review) (some t) d := by
  rw [createReview, step, Call.result_stmt]
  split
  next taken => exact fails _ _
  next fresh => exact done

/-- What the job-level step of a confirmation adds to the transaction. -/
structure JobSettled (jobId customer : Id) (t t' : MarketTx) (d : Db) : Prop where
  bookings : (applyAll t'.writes d).bookings = (applyAll t.writes d).bookings
  reviews : (applyAll t'.writes d).reviews = (applyAll t.writes d).reviews
  ended : JobEnded jobId customer (applyAll t'.writes d)

theorem completeJob_settles {jobId customer : Id}
    {Q : Except Failure Bool → Option MarketTx → Db → Prop} (fails : ∀ e tx, Q (.error e) tx d)
    (settles : ∀ moved t', JobSettled jobId customer t t' d → Q (.ok moved) (some t') d) :
    Call.result answer Q (completeJobIfDone jobId ⟨some customer, .CUSTOMER⟩) (some t) d := by
  have counted : (applyAll t.writes d).bookings.countP
      (fun b => decide (b.jobId = jobId) && !b.status.isTerminal) =
      (applyAll t.writes d).unfinished jobId := rfl
  rw [completeJobIfDone, query, Call.result_bind, Call.result_read, Call.resultThen_ok,
    Tx.view_some, counted]
  split
  next none =>
    rw [unlessInvalidFrom, Call.result_bind, Call.result_attempt, jobTransition, lockJob]
    simp only [query, Call.result_bind, Call.result_lock, Call.resultThen_ok]
    cases found : (applyAll t.writes d).job jobId with
    | none => simpa [found] using fails _ _
    | some job =>
      simp only [Option.isSome_some, if_true, Call.result_pure, Call.resultThen_ok]
      by_cases foreign : job.customerId = customer
      case neg => simpa [jobCanTransition, Ne.symm foreign] using fails _ _
      subst foreign
      cases allowed : jobCanTransition job.status .COMPLETE ⟨some job.customerId, .CUSTOMER⟩
        job.customerId with
      | error e =>
        simp only [Call.result_throw]
        cases e with
        | jobInvalidTransition source action message =>
          obtain rfl := jobCanTransition_error allowed
          simp only
          split
          next skipped =>
            -- another call has completed the job already
            have completed := List.mem_singleton.mp skipped
            exact settles false _
              ⟨by simp, by simp, fun _ => ⟨job, by simpa using found, completed, rfl⟩⟩
          next => exact fails _ _
        | _ => exact fails _ _
      | ok rule =>
        have target := (jobCanTransition_ok allowed).2.1
        -- this call completes it
        have updated : (Write.apply (.jobStatus jobId .COMPLETED) (applyAll t.writes d)).job jobId =
            some { job with status := .COMPLETED } := by
          have stored : Table.find Job.id (applyAll t.writes d).jobs jobId = some job := found
          simp only [Db.job, Write.apply]
          rw [Table.find_modify, stored]
          · simp
          · exact fun _ => rfl
        let record : JobTransition :=
          { jobId, fromStatus := some job.status, toStatus := .COMPLETED, action := .COMPLETE
            actorType := .CUSTOMER, actorId := some job.customerId }
        have settled : JobSettled jobId job.customerId t (((t.add Db { locks := [.job jobId] }).add Db
            { writes := [.jobStatus jobId .COMPLETED] }).add Db
            { writes := [.jobTransition record] }) d := by
          refine ⟨by simp [Write.apply], by simp [Write.apply], ?_⟩
          refine fun _ => ⟨{ job with status := .COMPLETED }, ?_, rfl, rfl⟩
          simpa [Db.job, Write.apply] using updated
        simpa [casJobStatus, step, query, found, target, JobAction.target] using settles true _ settled
  next some' =>
    exact settles false t ⟨rfl, rfl, fun none => absurd none some'⟩

/-- From the review to the notice: what is left of a confirmation once the booking is
completed, inside the transaction. -/
theorem confirmed_leaves {α : Type} {jobId workerId : Id} {review : Review} {first : Bool}
    {result : Bool → α} (reviewed : review.bookingId = bookingId)
    (found : (applyAll t.writes d).booking bookingId = some b) (completed : b.status = .COMPLETED)
    (owner : MayConfirm customerId actor b) (same : b.jobId = jobId) :
    Call.result answer (leaving (Confirmed bookingId customerId rated actor b)) (do
        onlyIf rated (createReview review)
        let jobCompleted ← completeJobIfDone jobId ⟨some b.customerId, .CUSTOMER⟩
        onlyIf first (createOutbox (.bookingCompleted bookingId workerId))
        pure (result jobCompleted)) (some t) d := by
  subst same
  have rest : ∀ t' : MarketTx, (applyAll t'.writes d).booking bookingId = some b →
      (rated = true → ((applyAll t'.writes d).reviews.any fun old => old.bookingId = bookingId) = true) →
      Call.result answer (leaving (Confirmed bookingId customerId rated actor b)) (do
        let jobCompleted ← completeJobIfDone b.jobId ⟨some b.customerId, .CUSTOMER⟩
        onlyIf first (createOutbox (.bookingCompleted bookingId workerId))
        pure (result jobCompleted)) (some t') d := by
    intro t' found' reviewed'
    rw [Call.result_bind]
    refine completeJob_settles (by simp) fun moved t₁ settled => ?_
    rw [Call.resultThen_ok]
    refine notice_leaves (fun v confirmed => { confirmed with }) ⟨?_, completed, owner, ?_, settled.ended⟩
    · rw [Db.booking, settled.bookings]
      exact found'
    · rw [settled.reviews]
      exact reviewed'
  rw [Call.result_bind]
  cases rated with
  | false => exact rest t found (by simp)
  | true =>
    refine createReview_ends (by simp) ?_
    rw [Call.resultThen_ok]
    refine rest _ ?_ fun _ => ?_
    · rw [Tx.add_writes, applyAll_append]
      exact found
    · simp [Write.apply, reviewed]

/-- A booking is moved to a final status by one row. -/
theorem booking_moved {target : BookingStatus} {now : Nat} {record : BookingTransition}
    (found : d.booking bookingId = some b) (started : target ≠ .IN_PROGRESS) :
    (applyAll (bookingMove bookingId target now ++ [.bookingTransition record]) d).booking bookingId =
      some { b with status := target } := by
  have stored : Table.find Booking.id d.bookings bookingId = some b := found
  simp only [bookingMove, started, if_false, List.cons_append, List.nil_append, applyAll_cons,
    applyAll_nil, write_eq_apply, Write.apply, Db.booking]
  rw [Table.find_modify, stored]
  · simp
  · exact fun _ => rfl

theorem confirmTransition_ends
    {Q : Except Failure BookingTransitionResult → Option MarketTx → Db → Prop}
    (found : (applyAll t.writes d).booking bookingId = some b) (fails : ∀ e tx, Q (.error e) tx d)
    (done : ∀ t' result, (applyAll t'.writes d).booking bookingId =
      some { b with status := .COMPLETED } → Q (.ok result) (some t') d) :
    Call.result answer Q
      (bookingTransition bookingId .CONFIRM_COMPLETION ⟨some b.customerId, .CUSTOMER⟩ []) (some t) d := by
  by_cases completed : b.status = .COMPLETED
  · rw [bookingTransition, Call.result_bind, result_lockOrReadBooking found rfl, Call.resultThen_ok]
    simp only [completed, and_self, if_true, ne_eq, not_true_eq_false, and_false, if_false,
      Call.result_pure]
    refine done _ _ ?_
    rw [Tx.add_writes, List.append_nil, found, ← completed]
  by_cases awaiting : b.status = .AWAITING_CONFIRMATION
  · have allowed : bookingCanTransition b.status .CONFIRM_COMPLETION ⟨some b.customerId, .CUSTOMER⟩
        b.customerId b.workerId = .ok .COMPLETED := by
      simp [bookingCanTransition, bookingTransitionTable, awaiting]
    refine (result_bookingTransition (R := True) found allowed (by simp) ?_).mpr trivial
    intro t' now record result _ grows
    refine iff_true_intro (done t' result ?_)
    rw [grows.writes, applyAll_append]
    exact booking_moved found (by decide)
  · have refused : bookingTransitionTable b.status .CONFIRM_COMPLETION = none := by
      cases status : b.status <;> simp_all [bookingTransitionTable]
    rw [bookingTransition, Call.result_bind, result_lockOrReadBooking found rfl, Call.resultThen_ok]
    simpa [completed, bookingCanTransition, refused] using fails _ _

/-- Whatever the store, a confirmation that commits has left the booking confirmed. -/
theorem confirmCompleteTx_leaves (bookingId customerId : Id) (rating : Option Nat)
    (actor : Option AuthenticatedUser) :
    Call.result answer
      (leaving fun d' => ∃ b, Confirmed bookingId customerId (decide (rating.getD 0 ≠ 0)) actor b d')
      (confirmCompleteTx bookingId customerId rating actor) (some {}) d := by
  rw [confirmCompleteTx, query, Call.result_bind, Call.result_read, Call.resultThen_ok]
  split
  next => simp
  next b visible =>
    have found : d.booking bookingId = some b := (Option.filter_eq_some_iff.mp visible).1
    cases policy : confirmPolicy actor customerId b with
    | error e => simp [assertPolicy]
    | ok _ =>
      have may := confirmPolicy_ok.mp policy
      simp only [may.effective, may.role, assertPolicy, Call.result_bind, Call.result_pure,
        Call.resultThen_ok]
      split
      next early => simp
      next =>
        rw [Call.result_bind]
        refine confirmTransition_ends (by simpa using found) (by simp) fun t' result moved => ?_
        rw [Call.resultThen_ok]
        exact leaving_mono (fun _ kept => ⟨{ b with status := .COMPLETED }, kept⟩)
          (confirmed_leaves rfl moved rfl may rfl)

end Leaves

/-! ### The repeated call -/

section Repeats

variable {bookingId customerId : Id} {rated : Bool} {actor : Option AuthenticatedUser} {b : Booking}
  {rating : Option Nat}

/-- The transition of a booking that is completed already only takes its lock. -/
theorem result_confirmedTransition
    {Q : Except Failure BookingTransitionResult → Option MarketTx → Db → Prop}
    (found : (applyAll t.writes d).booking bookingId = some b) (completed : b.status = .COMPLETED) :
    Call.result answer Q
        (bookingTransition bookingId .CONFIRM_COMPLETION ⟨some b.customerId, .CUSTOMER⟩ []) (some t) d =
      Q (.ok { booking := b, previousStatus := .COMPLETED, currentStatus := .COMPLETED
               action := .CONFIRM_COMPLETION, isIdempotent := true })
        (some (t.add Db { locks := [.booking bookingId] })) d := by
  rw [bookingTransition, Call.result_bind, result_lockOrReadBooking found rfl, Call.resultThen_ok]
  simp [completed]

/-- The job-level step of a repeated confirmation writes nothing. -/
theorem result_settledJob {jobId customer : Id}
    {Q : Except Failure Bool → Option MarketTx → Db → Prop}
    (ended : JobEnded jobId customer (applyAll t.writes d))
    (goes : ∀ t', t'.writes = t.writes → Q (.ok false) (some t') d) :
    Call.result answer Q (completeJobIfDone jobId ⟨some customer, .CUSTOMER⟩) (some t) d := by
  have counted : (applyAll t.writes d).bookings.countP
      (fun b => decide (b.jobId = jobId) && !b.status.isTerminal) =
      (applyAll t.writes d).unfinished jobId := rfl
  rw [completeJobIfDone, query, Call.result_bind, Call.result_read, Call.resultThen_ok,
    Tx.view_some, counted]
  split
  next none =>
    obtain ⟨job, found, completed, rfl⟩ := ended none
    have refused : jobCanTransition job.status .COMPLETE ⟨some job.customerId, .CUSTOMER⟩
        job.customerId = .error (.jobInvalidTransition .COMPLETED .COMPLETE
          "Action 'COMPLETE' is not allowed when job is in status 'COMPLETED'") := by
      rw [completed]
      simp [jobCanTransition, jobTransitionTable]
      rfl
    simpa [unlessInvalidFrom, jobTransition, lockJob, query, found, refused] using goes _ (by simp)
  next => exact goes t rfl

/-- How a repeated confirmation ends: it is left alone unless it carries a rating, and a
rating fails on the review that is there. -/
theorem result_repeated {Q : Except Failure Unit → Option MarketTx → Db → Prop}
    (confirmed : Confirmed bookingId customerId (decide (rating.getD 0 ≠ 0)) actor b d)
    (outcome : Q (if rating.getD 0 = 0 then .ok () else .error .transactionAborted) none d) :
    Call.result answer Q (confirmComplete bookingId customerId rating actor) none d := by
  have policy := confirmPolicy_ok.mpr confirmed.owner
  rw [confirmComplete, Call.result_bind, Call.result_transaction, confirmCompleteTx]
  simp only [query, confirmed.owner.effective, confirmed.owner.role, policy, assertPolicy,
    confirmed.found, confirmed.completed, Option.filter_some, decide_true, Bool.or_true, if_true,
    Call.result_bind, Call.result_read, Call.resultThen_ok, Call.result_pure, Tx.view_some,
    applyAll_nil, ne_eq, not_true_eq_false, false_and, and_false, if_false]
  rw [result_confirmedTransition (by simpa using confirmed.found) confirmed.completed,
    Call.resultThen_ok, Call.result_bind]
  by_cases unrated : rating.getD 0 = 0
  · rw [if_pos unrated] at outcome
    simp only [onlyIf, unrated, not_true_eq_false, decide_false, Bool.false_eq_true, if_false,
      Call.result_pure, Call.resultThen_ok, Call.result_bind]
    refine result_settledJob (by simpa using confirmed.jobEnded) fun t' same => ?_
    have unwritten : t'.writes = [] := by simpa using same
    simpa [Call.resultEnd, unwritten] using outcome
  · rw [if_neg unrated] at outcome
    have present := confirmed.reviewed (by simpa using unrated)
    simp only [onlyIf, unrated, not_false_eq_true, decide_true, if_true, createReview, step,
      Call.result_stmt, Tx.add_writes, List.append_nil, applyAll_nil, present, Call.afterStmt]
    simpa [Call.resultEnd] using outcome

end Repeats

/-- Whoever asks for it next, alone: the same request succeeds again and leaves the store as it
is, and so does every further repetition. -/
def RepeatsIdly (cfg : Config) (op : Op) (d : Db) : Prop :=
  ∀ answer (p : MarketPool), p.Idle → p.db = d →
    ∃ reply, Pool.Leaves (system cfg) answer p op (.ok reply) d

theorem leaves_iff_result {cfg : Config} {p : MarketPool} (idle : p.Idle) {op : Op} {r : Outcome}
    {d : Db} : Pool.Leaves (system cfg) answer p op r d ↔
      Call.result answer (fun r' _ d' => r' = r ∧ d' = d) (serviceOf cfg op) none p.db := by
  rw [Pool.leaves_iff idle]
  exact and_congr eq_comm eq_comm

theorem confirmed_of_leaves {cfg : Config} {p : MarketPool} (idle : p.Idle) {bookingId customerId : Id}
    {rating : Option Nat} {actor : Option AuthenticatedUser} {reply : Reply} {d : Db}
    (first : Pool.Leaves (system cfg) answer p (.confirmComplete bookingId customerId rating actor)
      (.ok reply) d) :
    ∃ b, Confirmed bookingId customerId (decide (rating.getD 0 ≠ 0)) actor b d := by
  have ended := (leaves_iff_result idle).mp first
  have left : Call.result answer (fun r _ d' => r.isOk = true →
      ∃ b, Confirmed bookingId customerId (decide (rating.getD 0 ≠ 0)) actor b d')
      (serviceOf cfg (.confirmComplete bookingId customerId rating actor)) none p.db := by
    rw [serviceOf, replying, Call.result_bind, confirmComplete, Call.result_bind,
      Call.result_transaction]
    refine resultEnd_leaving ?_ ?_ _ (confirmCompleteTx_leaves bookingId customerId rating actor)
    · intro e tx v
      simp [Except.isOk, Except.toBool]
    · intro a v confirmed _
      exact confirmed
  obtain ⟨replied, left'⟩ := ended
  exact left' ▸ left (by rw [replied]; rfl)

/-- After a confirmation that succeeded: it can be repeated exactly when it has no rating. -/
theorem confirmation_repeats_iff (cfg : Config) {p : MarketPool} (idle : p.Idle) {answer : Bool}
    {bookingId customerId : Id} {rating : Option Nat} {actor : Option AuthenticatedUser}
    {reply : Reply} {d : Db}
    (first : Pool.Leaves (system cfg) answer p (.confirmComplete bookingId customerId rating actor)
      (.ok reply) d) :
    RepeatsIdly cfg (.confirmComplete bookingId customerId rating actor) d ↔ rating.getD 0 = 0 := by
  obtain ⟨b, confirmed⟩ := confirmed_of_leaves idle first
  constructor
  · intro repeats
    obtain ⟨reply', again⟩ := repeats true { db := d } (by simp [Pool.Idle]) rfl
    by_contra rated
    have succeeded := (leaves_iff_result (by simp [Pool.Idle])).mp again
    have failed : Call.result true (fun r _ _ => r = .error .transactionAborted)
        (serviceOf cfg (.confirmComplete bookingId customerId rating actor)) none d := by
      rw [serviceOf, replying, Call.result_bind]
      exact result_repeated confirmed (by simp [rated])
    have same := succeeded.1.symm.trans failed
    simp at same
  · rintro unrated answer' q quiet rfl
    refine ⟨.done, (leaves_iff_result quiet).mpr ?_⟩
    rw [serviceOf, replying, Call.result_bind]
    exact result_repeated confirmed (by simp [unrated])

/-- The worker who accepted first has done the work and asked for its confirmation. -/
def workDone : List (Pool.Move Op) :=
  firstAccepts ++
  [.event (.spawn (.verifyOtp 1 10 5 (some ⟨10, .WORKER⟩))),
   .drive 3 true,
   .event (.spawn (.completeBooking 1 10 (some ⟨10, .WORKER⟩))),
   .drive 4 true]

/-- The store that the customer's confirmation leaves. -/
def confirmedStore (rating : Option Nat) : Db :=
  (played (fun _ _ => True)
    (workDone ++ [.event (.spawn (.confirmComplete 1 7 rating (some ⟨7, .CUSTOMER⟩))),
      .drive 5 true])).db

theorem confirmation_repeats_unrated :
    Pool.Leaves (system plainConfig) true (played (fun _ _ => True) workDone)
        (.confirmComplete 1 7 none (some ⟨7, .CUSTOMER⟩)) (.ok .done) (confirmedStore none) ∧
      RepeatsIdly plainConfig (.confirmComplete 1 7 none (some ⟨7, .CUSTOMER⟩))
        (confirmedStore none) := by
  have idle : (played (fun _ _ => True) workDone).Idle := by
    unfold Pool.Idle
    decide +kernel
  have first : Pool.Leaves (system plainConfig) true (played (fun _ _ => True) workDone)
      (.confirmComplete 1 7 none (some ⟨7, .CUSTOMER⟩)) (.ok .done) (confirmedStore none) :=
    (Pool.leaves_iff idle _ _ _).mpr ⟨by decide +kernel, by decide +kernel⟩
  exact ⟨first, (confirmation_repeats_iff plainConfig idle first).mpr rfl⟩

/-- The customer rates the worker with five stars, and sends the request again. -/
theorem rated_confirmation_fails_again :
    ∃ p d, Reachable plainConfig p ∧ p.Idle ∧
      Pool.Leaves (system plainConfig) true p
        (.confirmComplete 1 7 (some 5) (some ⟨7, .CUSTOMER⟩)) (.ok .done) d ∧
      ¬ RepeatsIdly plainConfig (.confirmComplete 1 7 (some 5) (some ⟨7, .CUSTOMER⟩)) d := by
  have idle : (played (fun _ _ => True) workDone).Idle := by
    unfold Pool.Idle
    decide +kernel
  refine ⟨_, confirmedStore (some 5), runs_played _ workDone, idle, ?_, fun repeats => ?_⟩
  · exact (Pool.leaves_iff idle _ _ _).mpr ⟨by decide +kernel, by decide +kernel⟩
  · obtain ⟨reply, again⟩ := repeats true { db := confirmedStore (some 5) } (by simp [Pool.Idle]) rfl
    have failed := ((Pool.leaves_iff (by simp [Pool.Idle]) _ _ _).mp again).1
    have aborted : ((system plainConfig 0 (.confirmComplete 1 7 (some 5) (some ⟨7, .CUSTOMER⟩))).alone
        true none (confirmedStore (some 5))).1 = .error .transactionAborted := by decide +kernel
    cases failed.trans aborted

end LabourBaba.Market
