import LabourBaba.Market.Ledger

/-!
# What a transaction may commit

One constructor of `Commit` for each kind of commit that changes a job, a requirement,
a booking or an offer: its label, its writes, and what holds of the committed store at
the instant it commits. Facts the transaction read without a lock are not among them:
they may have changed since. `Commit.keepsConsistent` is the step lemma of the store's
invariant.
-/
namespace LabourBaba.Market

open Store

/-- The job is stored, with one of the given statuses. -/
def Db.jobIn (d : Db) (jobId : Id) (statuses : List JobStatus) : Prop :=
  ∃ job, d.job jobId = some job ∧ job.status ∈ statuses

/-- Writes to columns and tables that say nothing about who is booked for what. -/
def Write.quiet : Write → Bool
  | .dispatchStatus _ status => decide (status ≠ .pending)
  | .jobDispatchStatus _ _ | .bookingOtpAttempts _ _ _ | .exhaustWave _ _ | .declineCount _
  | .review _ | .addDispatchJob _ | .addTimeoutJob _ | .guessed _ | .tick => true
  | .outbox (.bookingConfirmed _ _) | .outbox (.incomingJob _ _ _) => true
  | _ => false

/-! ### Audit records -/

/-- The record is that of a creation, or names an entry of the transition table. -/
def JobTransition.Legal (record : JobTransition) : Prop :=
  match record.fromStatus with
  | none => record.action = .CREATE ∧ record.toStatus = .OPEN
  | some status =>
    (jobTransitionTable status record.action).map (·.targetStatus) = some record.toStatus

/-- The record of the transition that takes the stored job to a status. -/
structure JobTransition.Follows (record : JobTransition) (d : Db) (jobId : Id)
    (target : JobStatus) : Prop where
  about : record.jobId = jobId
  leaves : ∃ job, d.job jobId = some job ∧ record.fromStatus = some job.status
  lands : record.toStatus = target
  legal : record.Legal

def BookingTransition.Legal (record : BookingTransition) : Prop :=
  (bookingTransitionTable record.fromStatus record.action).map (·.targetStatus) =
    some record.toStatus

/-- The record of the transition that takes a booking from one status to another. -/
structure BookingTransition.Follows (record : BookingTransition) (bookingId : Id)
    (status target : BookingStatus) : Prop where
  about : record.bookingId = bookingId
  leaves : record.fromStatus = status
  lands : record.toStatus = target
  legal : record.Legal

/-! ### Commits -/

/-- The job-level step inside a booking transaction: the transition, or nothing. -/
inductive JobStep (d : Db) (jobId : Id) (sources : List JobStatus) (target : JobStatus) :
    Bool → List Write → Prop
  | moved (record : JobTransition) (source : d.jobIn jobId sources)
      (recorded : record.Follows d jobId target) :
    JobStep d jobId sources target true [.jobStatus jobId target, .jobTransition record]
  | kept : JobStep d jobId sources target false []

/-- How an acceptance ends: with slots left, or closing the requirement and, if no other
requirement was seen unfilled, marking the job. -/
inductive Closing (d : Db) (jobId : Id) : (nowFilled jobBooked : Bool) → List Write → Prop
  | slotsLeft : Closing d jobId false false []
  | waiting (offers : List (Id × Id)) :
    Closing d jobId true false [.dispatchStatus offers .expired]
  | booked (offers : List (Id × Id)) (record : JobTransition)
      (source : d.jobIn jobId [.OPEN, .DISPATCHING]) (recorded : record.Follows d jobId .BOOKED) :
    Closing d jobId true true [.dispatchStatus offers .expired, .jobStatus jobId .BOOKED,
      .jobTransition record, .jobDispatchStatus jobId .FILLED]
  | already (offers : List (Id × Id))
      (source : d.jobIn jobId [.BOOKED, .IN_PROGRESS, .COMPLETED]) :
    Closing d jobId true true [.dispatchStatus offers .expired, .jobDispatchStatus jobId .FILLED]

/-- The booking-level step of a confirmation: the transition, or its idempotent repetition. -/
inductive Confirming (bookingId : Id) : BookingStatus → List Write → Prop
  | confirmed (record : BookingTransition)
      (recorded : record.Follows bookingId .AWAITING_CONFIRMATION .COMPLETED) :
    Confirming bookingId .AWAITING_CONFIRMATION
      [.bookingStatus bookingId .COMPLETED, .bookingTransition record]
  | repeated : Confirming bookingId .COMPLETED []

inductive Commit : Label → Db → List Write → Prop
  | quiet {ℓ : Label} {d : Db} {ws : List Write} (still : ∀ w ∈ ws, w.quiet = true) :
    Commit ℓ d ws
  | jobCreated {d : Db} {job : Job} {reqs : List Requirement} {record : JobTransition}
      (fresh : d.job job.id = none) (opened : job.status = .OPEN)
      (rows : ∀ r ∈ reqs, r.jobId = job.id ∧ r.status = .OPEN ∧ r.workerCountFilled = 0 ∧
        0 < r.workerCountNeeded)
      (recorded : record.jobId = job.id ∧ record.fromStatus = none ∧ record.toStatus = .OPEN ∧
        record.Legal) :
    Commit (.jobCreated job reqs) d
      (.insertJob job :: .jobTransition record :: reqs.map .insertRequirement)
  | dispatchStarted {d : Db} {jobId : Id} {ids : List Id} {record : JobTransition}
      (source : d.jobIn jobId [.OPEN])
      (rows : ∀ id ∈ ids, ∃ r, d.requirement id = some r ∧ r.jobId = jobId ∧ r.status = .OPEN)
      (recorded : record.Follows d jobId .DISPATCHING) :
    Commit (.dispatchStarted jobId) d
      [.jobStatus jobId .DISPATCHING, .jobTransition record, .requirementStatus ids .DISPATCHING]
  | requirementCreated {d : Db} {r : Requirement} (opened : r.status = .OPEN)
      (unfilled : r.workerCountFilled = 0) (positive : 0 < r.workerCountNeeded)
      (fresh : d.requirement r.id = none) (job : ∃ j, d.job r.jobId = some j) :
    Commit (.requirementCreated r) d [.insertRequirement r]
  | demandUpdated {d : Db} {id : Id} {needed : Nat} {seen row : Requirement}
      (requirement : d.requirement id = some row) (enough : row.workerCountFilled ≤ needed)
      (positive : 0 < needed) (active : seen.status ≠ .CANCELLED)
      (enoughSeen : seen.workerCountFilled ≤ needed) (owned : seen.jobId = row.jobId) :
    Commit (.demandUpdated id needed seen) d
      [.requirementNeeded id needed,
       .requirementStatus [id] (demandStatus seen.status ⟨needed, seen.workerCountFilled⟩)]
  | jobCancelled {d : Db} {jobId : Id} {ids : List Id} {record : JobTransition} {ws : List Write}
      (source : d.jobIn jobId [.OPEN, .DISPATCHING, .BOOKED, .IN_PROGRESS])
      (rows : ∀ id ∈ ids, ∃ r, d.requirement id = some r ∧ r.jobId = jobId ∧
        r.status ≠ .FILLED ∧ r.status ≠ .CANCELLED)
      (still : ∀ w ∈ ws, w.quiet = true) (recorded : record.Follows d jobId .CANCELLED) :
    Commit (.jobCancelled jobId) d
      (.jobStatus jobId .CANCELLED :: .jobTransition record ::
        .requirementStatus ids .CANCELLED :: ws)
  | accepted {d : Db} {b : Booking} {nowFilled jobBooked : Bool} {row : Requirement}
      {x : Dispatch} {ws : List Write}
      (requirement : d.requirement b.requirementId = some row) (owned : row.jobId = b.jobId)
      (active : row.status ≠ .CANCELLED ∧ row.status ≠ .FILLED)
      (room : row.workerCountFilled < row.workerCountNeeded)
      (full : nowFilled = decide (row.workerCountNeeded ≤ row.workerCountFilled + 1))
      (confirmed : b.status = .CONFIRMED) (unused : b.otpConsumedAt = none ∧ b.otpVerified = false)
      (freshId : d.booking b.id = none)
      (freshSlot : d.slotTaken b.requirementId b.workerId = false)
      (offer : d.dispatch b.requirementId b.workerId = some x)
      (job : ∃ j, d.job b.jobId = some j ∧ j.customerId = b.customerId)
      (closing : Closing d b.jobId nowFilled jobBooked ws) :
    Commit (.accepted b nowFilled jobBooked) d
      (.dispatchStatus [(b.requirementId, b.workerId)] .accepted ::
        .requirementFilled b.requirementId (row.workerCountFilled + 1) ::
        .requirementStatus [b.requirementId] (if nowFilled then .FILLED else .PARTIALLY_FILLED) ::
        .insertBooking b :: .outbox (.bookingConfirmed b.id b.customerId) :: ws)
  | noWorkers {d : Db} {id : Id} {wave : Option Nat} :
    Commit (.noWorkers id wave) d [.requirementStatus [id] .NO_WORKERS_AVAILABLE]
  | waveCommitted {d : Db} {id : Id} {waveNumber : Nat} {wave : Wave} {offers : List Dispatch}
      {ws : List Write} (named : wave.key = (id, waveNumber))
      (rows : ∀ x ∈ offers, x.requirementId = id ∧ x.waveNumber = waveNumber)
      (fresh : d.wave id waveNumber = none) (still : ∀ w ∈ ws, w.quiet = true) :
    Commit (.waveCommitted id waveNumber) d
      (.insertWave wave :: offers.map .insertDispatch ++ ws)
  | workStarted {d : Db} {id jobId : Id} {started : Bool} {row : Booking} {now : Nat}
      {guess : OtpGuess} {record : BookingTransition} {ws : List Write}
      (booking : d.booking id = some row) (confirmed : row.status = .CONFIRMED)
      (owned : row.jobId = jobId) (recorded : record.Follows id row.status .IN_PROGRESS)
      (job : JobStep d jobId [.DISPATCHING, .BOOKED] .IN_PROGRESS started ws) :
    Commit (.workStarted id jobId started) d
      (.guessed guess :: .bookingStatus id .IN_PROGRESS :: .bookingOtpConsumed id now ::
        .bookingTransition record :: ws)
  | completionRequested {d : Db} {id : Id} {row : Booking} {record : BookingTransition}
      (booking : d.booking id = some row) (running : row.status = .IN_PROGRESS)
      (recorded : record.Follows id row.status .AWAITING_CONFIRMATION) :
    Commit (.completionRequested id) d
      [.bookingStatus id .AWAITING_CONFIRMATION, .bookingTransition record]
  | completionConfirmed {d : Db} {id jobId : Id} {completed : Bool} {row : Booking}
      {own reviews job notices : List Write}
      (booking : d.booking id = some row) (owned : row.jobId = jobId)
      (confirming : Confirming id row.status own) (still : ∀ w ∈ reviews, w.quiet = true)
      (step : JobStep d jobId [.BOOKED, .IN_PROGRESS] .COMPLETED completed job)
      (noticed : ∀ w ∈ notices, ∃ worker, w = .outbox (.bookingCompleted id worker)) :
    Commit (.completionConfirmed id jobId completed) d (own ++ reviews ++ job ++ notices)
  | bookingCancelled {d : Db} {b row : Booking} {reopened : Bool} {req : Requirement}
      {filled : Nat} {record : BookingTransition} {offers : List (Id × Id)} {job : List Write}
      {type : Role} {recipient : Id}
      (booking : d.booking b.id = some row) (same : row.core = b.core)
      (running : row.status.isTerminal = false)
      (requirement : d.requirement b.requirementId = some req)
      (left : req.workerCountFilled = filled + 1)
      (step : JobStep d b.jobId [.BOOKED, .IN_PROGRESS] .DISPATCHING reopened job)
      (recorded : record.Follows b.id row.status .CANCELLED) :
    Commit (.bookingCancelled b reopened) d
      (.bookingStatus b.id .CANCELLED :: .bookingTransition record ::
        .requirementFilled b.requirementId filled ::
        .requirementStatus [b.requirementId]
          (reconciledStatus req.status ⟨req.workerCountNeeded, filled⟩) ::
        .dispatchStatus offers .cancelled ::
        (job ++ [.outbox (.bookingCancelled b.id type recipient)]))
  | gaveUp {d : Db} {id : Id} {ws : List Write} (still : ∀ w ∈ ws, w.quiet = true) :
    Commit (.reconciled id (some .NO_WORKERS_AVAILABLE)) d
      (ws ++ [.requirementStatus [id] .NO_WORKERS_AVAILABLE])
  | rescheduled {d : Db} {id : Id} {row : Requirement} (requirement : d.requirement id = some row)
      (unbooked : row.workerCountFilled = 0) :
    Commit (.reconciled id (some .DISPATCHING)) d [.requirementStatus [id] .DISPATCHING]

/-! ### The invariant of the store -/

structure Consistent (d : Db) : Prop where
  wf : Wf d
  ledger : Ledger d

theorem Consistent.empty : Consistent {} := ⟨.empty, .empty⟩

theorem saneAll_append {ws vs : List Write} {d : Db} (first : SaneAll ws d)
    (second : SaneAll vs (applyAll ws d)) : SaneAll (ws ++ vs) d := by
  induction ws generalizing d with
  | nil => exact second
  | cons w ws ih => exact ⟨first.1, ih first.2 second⟩

/-- Writes that are sane in every store. -/
theorem saneAll_of_forall {ws : List Write} (sane : ∀ w ∈ ws, ∀ d, Sane d w) (d : Db) :
    SaneAll ws d := by
  induction ws generalizing d with
  | nil => trivial
  | cons w ws ih =>
    exact ⟨sane w List.mem_cons_self d, ih (fun v member => sane v (List.mem_cons_of_mem _ member)) _⟩

theorem sane_of_quiet {w : Write} (quiet : w.quiet = true) (d : Db) : Sane d w := by
  cases w with
  | outbox key => cases key <;> trivial
  | _ => trivial

theorem still_of_quiet {w : Write} (quiet : w.quiet = true) :
    w.movesAccounts = false ∧ w.movesBookings = false := by
  cases w <;> first | exact ⟨rfl, rfl⟩ | cases quiet

theorem JobStep.sane {before : Db} {jobId : Id} {sources : List JobStatus} {target : JobStatus}
    {moved : Bool} {ws : List Write} (step : JobStep before jobId sources target moved ws) (d : Db) :
    SaneAll ws d :=
  saneAll_of_forall (by cases step <;> simp [Sane]) d

namespace Consistent

variable {d : Db}

theorem write (consistent : Consistent d) {w : Write} (sane : Sane d w)
    (accounts : w.movesAccounts = false) (bookings : w.movesBookings = false) :
    Consistent (w.apply d) :=
  ⟨consistent.wf.write sane, consistent.ledger.write accounts bookings⟩

theorem applyAll (consistent : Consistent d) (ws : List Write) (sane : SaneAll ws d)
    (still : ∀ w ∈ ws, w.movesAccounts = false ∧ w.movesBookings = false) :
    Consistent (Store.applyAll ws d) :=
  ⟨consistent.wf.applyAll sane, consistent.ledger.applyAll still⟩

theorem quiet (consistent : Consistent d) {ws : List Write} (still : ∀ w ∈ ws, w.quiet = true) :
    Consistent (Store.applyAll ws d) :=
  consistent.applyAll ws (saneAll_of_forall (fun w member => sane_of_quiet (still w member)) d)
    fun w member => still_of_quiet (still w member)

/-- Notices about a booking that has ended. -/
theorem notices (consistent : Consistent d) (ws : List Write) {id : Id} {s : BookingStatus}
    (found : ∃ b ∈ d.bookings, b.id = id ∧ b.status = s)
    (noticed : ∀ w ∈ ws, (∃ worker, w = .outbox (.bookingCompleted id worker) ∧ s = .COMPLETED) ∨
      ∃ type recipient, w = .outbox (.bookingCancelled id type recipient) ∧ s = .CANCELLED) :
    Consistent (Store.applyAll ws d) := by
  induction ws generalizing d with
  | nil => exact consistent
  | cons w ws ih =>
    have rest := fun v member => noticed v (List.mem_cons_of_mem w member)
    rcases noticed w List.mem_cons_self with ⟨worker, rfl, rfl⟩ | ⟨type, recipient, rfl, rfl⟩
    · exact ih (consistent.write (w := .outbox (.bookingCompleted id worker)) found rfl rfl) found rest
    · exact ih (consistent.write (w := .outbox (.bookingCancelled id type recipient)) found rfl rfl)
        found rest

theorem insertRequirements (consistent : Consistent d) (reqs : List Requirement)
    (rows : ∀ r ∈ reqs, r.workerCountFilled = 0 ∧ 0 < r.workerCountNeeded ∧
      ∃ j ∈ d.jobs, j.id = r.jobId) :
    Consistent (Store.applyAll (reqs.map .insertRequirement) d) := by
  induction reqs generalizing d with
  | nil => exact consistent
  | cons r reqs ih =>
    obtain ⟨unfilled, positive, job⟩ := rows r List.mem_cons_self
    have first : Consistent ((Write.insertRequirement r).apply d) :=
      ⟨consistent.wf.write ⟨positive, job⟩,
        consistent.ledger.insertRequirement consistent.wf r unfilled⟩
    exact ih first fun r' member => rows r' (List.mem_cons_of_mem _ member)

theorem jobStep (consistent : Consistent d) {before : Db} {jobId : Id} {sources : List JobStatus}
    {target : JobStatus} {moved : Bool} {ws : List Write}
    (step : JobStep before jobId sources target moved ws) : Consistent (Store.applyAll ws d) :=
  consistent.applyAll ws (step.sane d) (by cases step <;> simp)

theorem closing (consistent : Consistent d) {before : Db} {jobId : Id} {nowFilled booked : Bool}
    {ws : List Write} (step : Closing before jobId nowFilled booked ws) :
    Consistent (Store.applyAll ws d) := by
  refine consistent.applyAll ws (saneAll_of_forall ?_ d) ?_ <;> cases step <;> simp [Sane]

end Consistent

/-! ### Every commit keeps it -/

section Commits

variable {d : Db} (consistent : Consistent d)

include consistent

private theorem jobCreated_consistent {job : Job} {reqs : List Requirement} {record : JobTransition}
    (fresh : d.job job.id = none)
    (rows : ∀ r ∈ reqs, r.jobId = job.id ∧ r.status = .OPEN ∧ r.workerCountFilled = 0 ∧
      0 < r.workerCountNeeded) :
    Consistent (applyAll (.insertJob job :: .jobTransition record ::
      reqs.map .insertRequirement) d) := by
  have inserted : Consistent ((Write.insertJob job).apply d) :=
    consistent.write trivial rfl rfl
  have recorded := inserted.write (w := .jobTransition record) trivial rfl rfl
  refine recorded.insertRequirements reqs fun r member => ?_
  obtain ⟨owned, -, unfilled, positive⟩ := rows r member
  have free : ∀ old ∈ d.jobs, Job.clash job old = false := by
    intro old present
    exact decide_eq_false fun same => Table.find_none_iff.mp fresh old present same.symm
  refine ⟨unfilled, positive, job, ?_, owned.symm⟩
  simp [Write.apply, Table.insert_of_free free]

private theorem demandUpdated_consistent {id : Id} {needed : Nat} {row : Requirement}
    {status : RequirementStatus} (requirement : d.requirement id = some row)
    (enough : row.workerCountFilled ≤ needed) (positive : 0 < needed) :
    Consistent (applyAll [.requirementNeeded id needed, .requirementStatus [id] status] d) := by
  have raised : Consistent ((Write.requirementNeeded id needed).apply d) :=
    ⟨consistent.wf.write positive, consistent.ledger.demand consistent.wf requirement enough⟩
  exact raised.write (w := .requirementStatus [id] status) trivial rfl rfl

private theorem reserved_consistent {b : Booking} {row : Requirement} (status : RequirementStatus)
    (requirement : d.requirement b.requirementId = some row) (owned : row.jobId = b.jobId)
    (room : row.workerCountFilled < row.workerCountNeeded)
    (confirmed : b.status = .CONFIRMED) (unused : b.otpConsumedAt = none ∧ b.otpVerified = false)
    (freshId : d.booking b.id = none)
    (freshSlot : d.slotTaken b.requirementId b.workerId = false)
    (offer : ∃ x ∈ d.dispatches, x.key = b.slot)
    (job : ∃ j ∈ d.jobs, j.id = b.jobId ∧ j.customerId = b.customerId) :
    Consistent (applyAll [.requirementFilled b.requirementId (row.workerCountFilled + 1),
      .requirementStatus [b.requirementId] status, .insertBooking b] d) := by
  have named : row.id = b.requirementId := Table.find_key requirement
  refine ⟨consistent.wf.applyAll ⟨trivial, trivial, ?_, trivial⟩, ?_⟩
  · -- the two updates keep the requirement's identifying columns
    obtain ⟨row', found, same⟩ := (Later.applyAll
      [.requirementFilled b.requirementId (row.workerCountFilled + 1),
        .requirementStatus [b.requirementId] status] d).requirements.mem
      (Table.mem_of_find requirement)
    exact ⟨⟨row', found, (congrArg Prod.fst same).trans named,
      (congrArg Prod.snd same).trans owned⟩, job, offer, unused⟩
  · have balance := consistent.ledger.filled requirement
    have active : b.status.isActive = true := by rw [confirmed]; rfl
    have counted : ∀ id, (applyAll [.requirementFilled b.requirementId (row.workerCountFilled + 1),
        .requirementStatus [b.requirementId] status, .insertBooking b] d).activeBookings id =
        d.activeBookings id + if b.requirementId = id then 1 else 0 :=
      fun id => activeBookings_insert id freshId freshSlot active
    refine consistent.ledger.move consistent.wf (row.workerCountFilled + 1) requirement room ?_ ?_ ?_
    · refine (accounts_write (w := .insertBooking b) rfl _).trans ?_
      refine (accounts_write (w := .requirementStatus [b.requirementId] status) rfl _).trans ?_
      exact accounts_filled _ _ _
    · rw [counted, if_pos rfl, balance.1]
    · intro other differ
      rw [counted, if_neg (fun same => differ same.symm)]
      rfl

private theorem released_consistent {b row : Booking} {req : Requirement} {filled : Nat}
    (record : BookingTransition) (booking : d.booking b.id = some row) (same : row.core = b.core)
    (running : row.status.isTerminal = false) (requirement : d.requirement b.requirementId = some req)
    (left : req.workerCountFilled = filled + 1) :
    Consistent (applyAll [.bookingStatus b.id .CANCELLED, .bookingTransition record,
      .requirementFilled b.requirementId filled] d) := by
  have named : row.id = b.id := congrArg Prod.fst same
  have mine : row.requirementId = b.requirementId := Booking.requirementId_of_core same
  refine ⟨consistent.wf.applyAll ⟨⟨by simp, ?_⟩, trivial, trivial, trivial⟩, ?_⟩
  · intro other present sameId
    exact Table.eq_of_find consistent.wf.bookingIds booking present sameId ▸ running
  · have balance := consistent.ledger.filled requirement
    have active := BookingStatus.isActive_of_running running
    have counted : ∀ id, (applyAll [.bookingStatus b.id .CANCELLED, .bookingTransition record,
        .requirementFilled b.requirementId filled] d).activeBookings id +
        (if b.requirementId = id then 1 else 0) = d.activeBookings id := by
      intro id
      have moved := activeBookings_status consistent.wf .CANCELLED id (named ▸ booking)
      have released : BookingStatus.CANCELLED.isActive = false := rfl
      simp only [active, mine, named, released, and_true, Bool.false_eq_true, and_false, if_false,
        Nat.add_zero] at moved
      exact moved
    refine consistent.ledger.move consistent.wf filled requirement (by omega) ?_ ?_ ?_
    · refine (accounts_filled _ _ _).trans (congrArg _ ?_)
      refine (accounts_write (w := .bookingTransition record) rfl _).trans ?_
      exact accounts_write (w := .bookingStatus b.id .CANCELLED) rfl _
    · have := counted b.requirementId
      rw [if_pos rfl] at this
      omega
    · intro other differ
      have := counted other
      rwa [if_neg (fun same => differ same.symm)] at this

/-- A booking that has not ended changes its status and keeps its slot. -/
private theorem bookingStatus_consistent {id : Id} {row : Booking} (status : BookingStatus)
    (booking : d.booking id = some row) (running : row.status.isTerminal = false)
    (held : status.isActive = true) (moved : status ≠ .CONFIRMED) :
    Consistent ((Write.bookingStatus id status).apply d) := by
  have named : row.id = id := Table.find_key booking
  have active := BookingStatus.isActive_of_running running
  refine ⟨consistent.wf.write ⟨moved, ?_⟩, consistent.ledger.of_same (accounts_write rfl d) ?_⟩
  · intro other present sameId
    exact Table.eq_of_find consistent.wf.bookingIds booking present sameId ▸ running
  · intro r
    subst named
    exact activeBookings_status_same consistent.wf status r booking (held.trans active.symm)

private theorem accepted_consistent {b : Booking} {row : Requirement} {x : Dispatch}
    {status : RequirementStatus} {nowFilled jobBooked : Bool} {ws : List Write} {before : Db}
    (requirement : d.requirement b.requirementId = some row) (owned : row.jobId = b.jobId)
    (room : row.workerCountFilled < row.workerCountNeeded)
    (confirmed : b.status = .CONFIRMED) (unused : b.otpConsumedAt = none ∧ b.otpVerified = false)
    (freshId : d.booking b.id = none)
    (freshSlot : d.slotTaken b.requirementId b.workerId = false)
    (offer : d.dispatch b.requirementId b.workerId = some x)
    (job : ∃ j, d.job b.jobId = some j ∧ j.customerId = b.customerId)
    (closing : Closing before b.jobId nowFilled jobBooked ws) :
    Consistent (applyAll (.dispatchStatus [(b.requirementId, b.workerId)] .accepted ::
      .requirementFilled b.requirementId (row.workerCountFilled + 1) ::
      .requirementStatus [b.requirementId] status :: .insertBooking b ::
      .outbox (.bookingConfirmed b.id b.customerId) :: ws) d) := by
  have taken : Consistent
      ((Write.dispatchStatus [(b.requirementId, b.workerId)] .accepted).apply d) :=
    consistent.write trivial rfl rfl
  obtain ⟨j, found, customer⟩ := job
  obtain ⟨x', present, sameOffer⟩ := (Later.write
    (.dispatchStatus [(b.requirementId, b.workerId)] .accepted) d).dispatches.mem
    (Table.mem_of_find offer)
  have slot : x.key = b.slot := Table.find_key offer
  have reserved := reserved_consistent taken status requirement owned room confirmed
    unused freshId freshSlot ⟨x', present, (congrArg Prod.fst sameOffer).trans slot⟩
    ⟨j, Table.mem_of_find found, Table.find_key found, customer⟩
  have noticed := reserved.write (w := .outbox (.bookingConfirmed b.id b.customerId)) trivial rfl rfl
  exact noticed.closing closing

private theorem waveCommitted_consistent {id : Id} {waveNumber : Nat} {wave : Wave}
    {offers : List Dispatch} {ws : List Write} (named : wave.key = (id, waveNumber))
    (rows : ∀ x ∈ offers, x.requirementId = id ∧ x.waveNumber = waveNumber)
    (fresh : d.wave id waveNumber = none) (still : ∀ w ∈ ws, w.quiet = true) :
    Consistent (applyAll (.insertWave wave :: offers.map .insertDispatch ++ ws) d) := by
  have free : ∀ old ∈ d.waves, Wave.clash wave old = false := by
    intro old present
    refine decide_eq_false fun same => Table.find_none_iff.mp fresh old present ?_
    exact same.symm.trans named
  have present : wave ∈ ((Write.insertWave wave).apply d).waves := by
    simp [Write.apply, Table.insert_of_free free]
  have offered : ∀ d' : Db, wave ∈ d'.waves → SaneAll (offers.map .insertDispatch) d' := by
    intro d' stored
    induction offers generalizing d' with
    | nil => trivial
    | cons x offers ih =>
      obtain ⟨ofRequirement, inWave⟩ := rows x List.mem_cons_self
      refine ⟨⟨wave, stored, ?_⟩, ih (fun y member => rows y (List.mem_cons_of_mem _ member)) _ stored⟩
      rw [named, ofRequirement, inWave]
  rw [applyAll_append]
  refine Consistent.quiet ?_ still
  refine consistent.applyAll _ ⟨trivial, offered _ present⟩ ?_
  intro w member
  rcases List.mem_cons.mp member with rfl | member
  · exact ⟨rfl, rfl⟩
  · obtain ⟨x, -, rfl⟩ := List.mem_map.mp member
    exact ⟨rfl, rfl⟩

private theorem workStarted_consistent {id : Id} {row : Booking} {now : Nat}
    {record : BookingTransition} (booking : d.booking id = some row)
    (confirmed : row.status = .CONFIRMED) :
    Consistent (applyAll [.bookingStatus id .IN_PROGRESS, .bookingOtpConsumed id now,
      .bookingTransition record] d) := by
  have started := bookingStatus_consistent consistent .IN_PROGRESS booking
    (by rw [confirmed]; rfl) rfl (by decide)
  refine started.applyAll [.bookingOtpConsumed id now, .bookingTransition record]
    ⟨?_, trivial, trivial⟩ (by simp)
  intro b present named
  obtain ⟨old, stored, rfl⟩ := Table.mem_modify.mp present
  split
  · simp
  next other => exact absurd (by rw [if_neg other] at named; simpa using named) other

private theorem completionConfirmed_consistent {id : Id} {row : Booking}
    {own reviews job notices : List Write} {jobId : Id} {completed : Bool} {before : Db}
    (booking : d.booking id = some row) (confirming : Confirming id row.status own)
    (still : ∀ w ∈ reviews, w.quiet = true)
    (step : JobStep before jobId [.BOOKED, .IN_PROGRESS] .COMPLETED completed job)
    (noticed : ∀ w ∈ notices, ∃ worker, w = .outbox (.bookingCompleted id worker)) :
    Consistent (applyAll (own ++ reviews ++ job ++ notices) d) := by
  have named : row.id = id := Table.find_key booking
  have confirmed : Consistent (applyAll own d) ∧
      ∃ b ∈ (applyAll own d).bookings, b.id = id ∧ b.status = .COMPLETED := by
    cases h : row.status <;> rw [h] at confirming <;> cases confirming
    case AWAITING_CONFIRMATION.confirmed record recorded =>
      have ended := bookingStatus_consistent consistent .COMPLETED booking
        (by rw [h]; rfl) rfl (by decide)
      refine ⟨ended.write (w := .bookingTransition record) trivial rfl rfl,
        { row with status := .COMPLETED }, ?_, named, rfl⟩
      exact Table.mem_modify.mpr ⟨row, Table.mem_of_find booking, by simp [named]⟩
    case COMPLETED.repeated => exact ⟨consistent, row, Table.mem_of_find booking, named, h⟩
  obtain ⟨afterOwn, ended⟩ := confirmed
  have quiet : SaneAll reviews (applyAll own d) :=
    saneAll_of_forall (fun w member => sane_of_quiet (still w member)) _
  have moved := (afterOwn.quiet still).jobStep step
  have kept := Wf.terminal_applyAll (step.sane _) rfl (Wf.terminal_applyAll quiet rfl ended)
  simp only [applyAll_append]
  refine moved.notices _ kept fun w member => Or.inl ?_
  obtain ⟨worker, rfl⟩ := noticed w member
  exact ⟨worker, rfl, rfl⟩

private theorem bookingCancelled_consistent {b row : Booking} {req : Requirement} {filled : Nat}
    {status : RequirementStatus} {record : BookingTransition} {offers : List (Id × Id)}
    {job : List Write} {type : Role} {recipient : Id} {reopened : Bool} {before : Db}
    (booking : d.booking b.id = some row) (same : row.core = b.core)
    (running : row.status.isTerminal = false)
    (requirement : d.requirement b.requirementId = some req)
    (left : req.workerCountFilled = filled + 1)
    (step : JobStep before b.jobId [.BOOKED, .IN_PROGRESS] .DISPATCHING reopened job) :
    Consistent (applyAll (.bookingStatus b.id .CANCELLED :: .bookingTransition record ::
      .requirementFilled b.requirementId filled :: .requirementStatus [b.requirementId] status ::
      .dispatchStatus offers .cancelled ::
      (job ++ [.outbox (.bookingCancelled b.id type recipient)])) d) := by
  have named : row.id = b.id := congrArg Prod.fst same
  have released := released_consistent consistent record booking same running
    requirement left
  have closed : ∃ b' ∈ (applyAll [.bookingStatus b.id .CANCELLED, .bookingTransition record,
      .requirementFilled b.requirementId filled] d).bookings,
      b'.id = b.id ∧ b'.status = .CANCELLED := by
    refine ⟨{ row with status := .CANCELLED }, ?_, named, rfl⟩
    exact Table.mem_modify.mpr ⟨row, Table.mem_of_find booking, by simp [named]⟩
  have reconciled := released.applyAll [.requirementStatus [b.requirementId] status,
    .dispatchStatus offers .cancelled] ⟨trivial, trivial, trivial⟩ (by simp)
  have moved := reconciled.jobStep step
  have kept := Wf.terminal_applyAll (step.sane (applyAll [.requirementStatus [b.requirementId] status,
    .dispatchStatus offers .cancelled] (applyAll [.bookingStatus b.id .CANCELLED,
      .bookingTransition record, .requirementFilled b.requirementId filled] d))) rfl closed
  simp only [applyAll_cons, applyAll_append]
  exact moved.notices [.outbox (.bookingCancelled b.id type recipient)] kept (by simp)

theorem Commit.keepsConsistent {ℓ : Label} {ws : List Write} (commit : Commit ℓ d ws) :
    Consistent (applyAll ws d) := by
  cases commit with
  | quiet still => exact consistent.quiet still
  | jobCreated fresh _ rows _ => exact jobCreated_consistent consistent fresh rows
  | dispatchStarted _ _ _ => exact consistent.applyAll _ ⟨trivial, trivial, trivial, trivial⟩ (by simp)
  | requirementCreated _ unfilled positive _ job =>
    obtain ⟨j, found⟩ := job
    refine consistent.insertRequirements [_] ?_
    simp only [List.mem_singleton, forall_eq]
    exact ⟨unfilled, positive, j, Table.mem_of_find found, Table.find_key found⟩
  | demandUpdated requirement enough positive _ _ _ =>
    exact demandUpdated_consistent consistent requirement enough positive
  | @jobCancelled _ jobId ids record _ _ _ still _ =>
    have closed := consistent.applyAll [.jobStatus jobId .CANCELLED, .jobTransition record,
      .requirementStatus ids .CANCELLED] ⟨trivial, trivial, trivial, trivial⟩ (by simp)
    exact closed.quiet still
  | accepted requirement owned _ room _ confirmed unused freshId freshSlot offer job closing =>
    exact accepted_consistent consistent requirement owned room confirmed unused freshId freshSlot
      offer job closing
  | noWorkers => exact consistent.applyAll _ ⟨trivial, trivial⟩ (by simp)
  | waveCommitted named rows fresh still =>
    exact waveCommitted_consistent consistent named rows fresh still
  | @workStarted _ _ _ _ _ _ guess _ _ booking confirmed _ _ job =>
    have compared := consistent.write (w := .guessed guess) trivial rfl rfl
    exact (workStarted_consistent compared booking confirmed).jobStep job
  | completionRequested booking running _ =>
    have requested := bookingStatus_consistent consistent .AWAITING_CONFIRMATION booking
      (by rw [running]; rfl) rfl (by decide)
    exact requested.write (w := .bookingTransition _) trivial rfl rfl
  | completionConfirmed booking _ confirming still step noticed =>
    exact completionConfirmed_consistent consistent booking confirming still step noticed
  | bookingCancelled booking same running requirement left step _ =>
    exact bookingCancelled_consistent consistent booking same running requirement left step
  | gaveUp still =>
    rw [applyAll_append]
    exact (consistent.quiet still).applyAll _ ⟨trivial, trivial⟩ (by simp)
  | rescheduled _ _ => exact consistent.applyAll _ ⟨trivial, trivial⟩ (by simp)

end Commits

end LabourBaba.Market
