import LabourBaba.Market.Capacity

/-!
# Cancelled requirements and ended jobs

A cancelled requirement stays cancelled, with no new booking or offer, as long as the
statements that write a requirement without its lock find it not cancelled. A completed
job has no unfinished booking as long as acceptance and completion do not overtake each
other. Cancelling a job leaves its bookings as they are.
-/
namespace LabourBaba.Market

open Store

/-! ### Cancelled requirements -/

/-- The statements that set a requirement's status, or offer it, on an earlier read of it
find it not cancelled. -/
def sparesCancelled (ℓ : Label) (d : Db) : Bool :=
  match ℓ with
  | .noWorkers id _ | .reconciled id (some _) | .demandUpdated id _ _ | .waveCommitted id _ =>
    (d.requirement id).all fun row => row.status ≠ .CANCELLED
  | _ => true

/-- Since `before`, the requirement has stayed cancelled, and nobody was booked for it or
offered it. -/
structure StaysCancelled (id : Id) (before d : Db) : Prop where
  status : ∃ r, d.requirement id = some r ∧ r.status = .CANCELLED
  bookings : ∀ b ∈ d.bookings, b.requirementId = id → ∃ old ∈ before.bookings, old.id = b.id
  offers : ∀ x ∈ d.dispatches, x.requirementId = id → x.status = .pending → x ∈ before.dispatches

theorem RequirementChange.staysCancelled {ℓ : Label} {d : Db} {r r' : Requirement}
    (change : RequirementChange ℓ r r') (found : d.requirement r.id = some r)
    (cancelled : r.status = .CANCELLED) (spared : sparesCancelled ℓ d = true) :
    r'.status = .CANCELLED := by
  cases change with
  | same => exact cancelled
  | started _ opened => simp [cancelled] at opened
  | demanded label _ _ _ =>
    subst label
    simp [sparesCancelled, found, cancelled] at spared
  | cancelled _ _ => rfl
  | reserved _ _ _ active _ _ _ => exact absurd cancelled active
  | exhausted label =>
    rcases label with ⟨wave, rfl⟩ | rfl <;> simp [sparesCancelled, found, cancelled] at spared
  | released _ _ _ _ => simp [reconciledStatus, cancelled]
  | rescheduled label _ =>
    subst label
    simp [sparesCancelled, found, cancelled] at spared

theorem StaysCancelled.commit {id : Id} {before d : Db} {ℓ : Label} {ws : List Write}
    (stays : StaysCancelled id before d) (consistent : Consistent d) (commit : Commit ℓ d ws)
    (spared : sparesCancelled ℓ d = true) : StaysCancelled id before (applyAll ws d) := by
  obtain ⟨r, found, cancelled⟩ := stays.status
  have named : r.id = id := Table.find_key found
  subst named
  have stored : r ∈ d.requirements := Table.mem_of_find found
  refine ⟨?_, ?_, ?_⟩
  · have present := requirementEffects.mem_applyAll stored ws
    have lookup := Table.find_of_mem (commit.keepsConsistent consistent).wf.requirementIds present
    rw [show (onAll Write.onRequirement ws r).id = r.id from
      congrArg Prod.fst (onAll_requirement_core ws r)] at lookup
    exact ⟨_, lookup, (commit.requirementChange consistent.wf stored).staysCancelled found cancelled
      spared⟩
  · intro b member mine
    rcases commit.bookings member with ⟨old, present, rfl⟩ | ⟨-, ⟨row, active, notCancelled⟩, -⟩
    · have core := onAll_booking_core ws old
      obtain ⟨first, was, same⟩ := stays.bookings old present
        ((Booking.requirementId_of_core core).symm.trans mine)
      exact ⟨first, was, same.trans (congrArg Prod.fst core).symm⟩
    · rw [mine, found] at active
      exact absurd (Option.some.inj active ▸ cancelled) notCancelled
  · intro x member mine pending
    rcases commit.pendingOffer member pending with old | ⟨waveNumber, rfl⟩
    · exact stays.offers x old mine pending
    · simp [sparesCancelled, mine, found, cancelled] at spared

/-- The customer cancels the job while worker 11 still has an offer. -/
def cancelledEarly : List (Pool.Move Op) :=
  firstAccepts ++
  [.event (.spawn (.cancelJob 1 { id := some 7, role := .CUSTOMER })),
   .drive 3 true]

/-- Worker 11 declines after the cancellation: a second wave is scheduled, and skipped. -/
def lateDecline : List (Pool.Move Op) :=
  [.event (.spawn (.declineDispatch 1 11)),
   .drive 4 true,
   .event (.spawn (.processDispatchJob { requirementId := 1, jobId := 1, waveNumber := 2 } [12])),
   .drive 5 true]

/-- One wave to one worker, who declines it. -/
def waveDeclined (waveNumber worker call : Nat) : List (Pool.Move Op) :=
  [.event (.spawn (.processDispatchJob { requirementId := 1, jobId := 1, waveNumber } [worker])),
   .drive call true,
   .event (.spawn (.declineDispatch 1 worker)),
   .drive (call + 1) true]

/-- Three waves are declined; worker 13 has the offer of the fourth and last one when the
customer cancels the job. -/
def cancelledInLastWave : List (Pool.Move Op) :=
  [.event (.spawn (.createJob 1 7 { latitude := some 0, longitude := some 0
                                    requirements := [{ id := 1, workerCountNeeded := 1 }] })),
   .drive 0 true] ++
  waveDeclined 1 10 1 ++ waveDeclined 2 11 3 ++ waveDeclined 3 12 5 ++
  [.event (.spawn (.processDispatchJob { requirementId := 1, jobId := 1, waveNumber := 4 } [13])),
   .drive 7 true,
   .event (.spawn (.cancelJob 1 { id := some 7, role := .CUSTOMER })),
   .drive 8 true]

/-- An acceptance finds its job not ended, and a confirmation completes a job whose other
bookings have all ended. -/
def sparesEnded (ℓ : Label) (d : Db) : Bool :=
  match ℓ with
  | .accepted b _ _ =>
    (d.job b.jobId).all fun j => decide (j.status ≠ .COMPLETED ∧ j.status ≠ .CANCELLED)
  | .completionConfirmed id jobId true =>
    d.bookings.all fun b => decide (b.jobId = jobId → b.id ≠ id → b.status.isTerminal = true)
  | _ => true

def CompletedEnds (d : Db) : Prop :=
  ∀ j ∈ d.jobs, j.status = .COMPLETED →
    ∀ b ∈ d.bookings, b.jobId = j.id → b.status.isTerminal = true

/-- Since `before`, the job has stayed cancelled and nobody was booked for it. -/
structure JobStaysCancelled (id : Id) (before d : Db) : Prop where
  status : ∃ j, d.job id = some j ∧ j.status = .CANCELLED
  bookings : ∀ b ∈ d.bookings, b.jobId = id → ∃ old ∈ before.bookings, old.id = b.id

theorem BookingChange.terminal {ℓ : Label} {b : Booking} {s : BookingStatus}
    (change : BookingChange ℓ b s) (ended : b.status.isTerminal = true) : s.isTerminal = true := by
  cases change with
  | same => exact ended
  | started _ source => simp [source, BookingStatus.isTerminal] at ended
  | requested _ source => simp [source, BookingStatus.isTerminal] at ended
  | confirmed _ _ | cancelled _ _ _ => rfl

/-- The booking whose confirmation completes the job has ended with it. -/
theorem Commit.confirmedBooking {d : Db} {ws : List Write} {id : Id} {j : Job} {b : Booking}
    (commit : Commit (.completionConfirmed id j.id true) d ws) (wf : Wf d)
    (moved : (onAll Write.onJob ws j).status ≠ j.status) (member : b ∈ d.bookings)
    (mine : b.id = id) : (onAll Write.onBooking ws b).status.isTerminal = true := by
  have change := commit.bookingChange wf member
  cases commit with
  | quiet still =>
    exact absurd (onAll_job_status (fun w member => isJobStatus_quiet (still w member)) j) moved
  | completionConfirmed booking _ confirming still step noticed =>
    obtain rfl := Table.eq_of_find wf.bookingIds booking member mine
    have tail := isBookingStatus_confirmed still step noticed
    cases awaiting : b.status <;> rw [awaiting] at confirming <;> cases confirming
    case AWAITING_CONFIRMATION.confirmed record =>
      simp only [List.cons_append, List.nil_append, onAll_cons]
      rw [onAll_booking_status tail]
      simp [Write.onBooking, mine, BookingStatus.isTerminal]
    case COMPLETED.repeated => exact change.terminal (by rw [awaiting]; rfl)

theorem CompletedEnds.commit {ℓ : Label} {d : Db} {ws : List Write} (ends : CompletedEnds d)
    (consistent : Consistent d) (commit : Commit ℓ d ws) (spared : sparesEnded ℓ d = true) :
    CompletedEnds (applyAll ws d) := by
  intro j' present completed b' booked mine
  rcases commit.jobs present with ⟨j, old, rfl⟩ | ⟨-, opened, -⟩
  · rw [onAll_job_id] at mine
    have found : d.job j.id = some j := Table.find_of_mem consistent.wf.jobIds old
    have change := commit.jobChange consistent.wf old
    rcases commit.bookings booked with ⟨b, was, rfl⟩ | ⟨⟨nowFilled, full, rfl⟩, -⟩
    · have owner : b.jobId = j.id :=
        (Booking.jobId_of_core (onAll_booking_core ws b)).symm.trans mine
      have stays := (commit.bookingChange consistent.wf was).terminal
      by_cases already : j.status = .COMPLETED
      · exact stays (ends j old already b was owner)
      · have progress : (onAll Write.onJob ws j).status ≠ j.status := by
          rw [completed]
          exact fun same => already same.symm
        rw [completed] at change
        generalize j.status = status at change already
        cases change with
        | same => exact absurd rfl already
        | @completed _ id label source =>
          subst label
          by_cases own : b.id = id
          · exact commit.confirmedBooking consistent.wf progress was own
          · simp only [sparesEnded, List.all_eq_true, decide_eq_true_eq] at spared
            exact stays (spared b was owner own)
    · -- a booking just made: its job had not ended, and an acceptance completes none
      simp only [sparesEnded, mine, found, Option.all_some, decide_eq_true_eq] at spared
      rw [completed] at change
      generalize j.status = status at change spared
      cases change with
      | same => exact absurd rfl spared.1
      | completed label _ => cases label
  · rw [opened] at completed
    cases completed

theorem JobStaysCancelled.commit {id : Id} {before d : Db} {ℓ : Label} {ws : List Write}
    (stays : JobStaysCancelled id before d) (consistent : Consistent d) (commit : Commit ℓ d ws)
    (spared : sparesEnded ℓ d = true) : JobStaysCancelled id before (applyAll ws d) := by
  obtain ⟨j, found, cancelled⟩ := stays.status
  obtain rfl : j.id = id := Table.find_key found
  have stored : j ∈ d.jobs := Table.mem_of_find found
  refine ⟨?_, ?_⟩
  · have lookup := Table.find_of_mem (commit.keepsConsistent consistent).wf.jobIds
      (jobEffects.mem_applyAll stored ws)
    rw [onAll_job_id] at lookup
    refine ⟨_, lookup, ?_⟩
    have change := commit.jobChange consistent.wf stored
    rw [cancelled] at change
    generalize (onAll Write.onJob ws j).status = status at change
    cases change with
    | same => rfl
    | cancelled _ source | booked _ _ source | started _ source | completed _ source
    | reopened _ _ source => simp at source
  · intro b member mine
    rcases commit.bookings member with ⟨old, present, rfl⟩ | ⟨⟨nowFilled, full, rfl⟩, -⟩
    · have core := onAll_booking_core ws old
      obtain ⟨first, was, same⟩ := stays.bookings old present
        ((Booking.jobId_of_core core).symm.trans mine)
      exact ⟨first, was, same.trans (congrArg Prod.fst core).symm⟩
    · simp [sparesEnded, mine, found, cancelled] at spared

/-- One job is done from the first offer to the confirmation; another one is cancelled. -/
def doneAndCancelled : List (Pool.Move Op) :=
  [.event (.spawn (.createJob 1 7 { latitude := some 0, longitude := some 0
                                    requirements := [{ id := 1, workerCountNeeded := 1 }] })),
   .drive 0 true,
   .event (.spawn (.processDispatchJob { requirementId := 1, jobId := 1 } [10])),
   .drive 1 true,
   .event (.spawn (.acceptDispatch 1 10 { id := 1, otp := 5, otpHash := 5 })),
   .drive 2 true,
   .event (.spawn (.verifyOtp 1 10 5 (some ⟨10, .WORKER⟩))),
   .drive 3 true,
   .event (.spawn (.completeBooking 1 10 (some ⟨10, .WORKER⟩))),
   .drive 4 true,
   .event (.spawn (.confirmComplete 1 7 none (some ⟨7, .CUSTOMER⟩))),
   .drive 5 true,
   .event (.spawn (.createJob 2 7 { latitude := some 0, longitude := some 0
                                    requirements := [{ id := 2, workerCountNeeded := 1 }] })),
   .drive 6 true,
   .event (.spawn (.cancelJob 2 { id := some 7, role := .CUSTOMER })),
   .drive 7 true]

end LabourBaba.Market
