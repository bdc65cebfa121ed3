import LabourBaba.Market.Capacity
import LabourBaba.Store.History

/-!
# The audit trail

Every transition of a booking or a job writes its record in the transaction that sets
the status, so the records about a row, in the order of their commits, replay it: they
start at the status the row was inserted with, each leaves the status that the one before
it entered, each is an entry of the transition table, and the last enters the status that
the row has.

A commit holds the lock on the row whose status it sets, so the record's from_status is
still the stored status when the record is committed: this is the `recorded` fact of each
commit. A transition that throws, or finds nothing left to do, has written nothing.
-/
namespace LabourBaba.Market

open Store

/-! ### The two logs -/

def Write.bookingEntry : Write → Option BookingTransition
  | .bookingTransition record => some record
  | _ => none

def Write.jobEntry : Write → Option JobTransition
  | .jobTransition record => some record
  | _ => none

theorem bookingLog : Appends Db.bookingTransitions Write.bookingEntry where
  write w d := by
    cases w with
    | bookingTransition record => rfl
    | _ => exact (List.append_nil _).symm

theorem jobLog : Appends Db.jobTransitions Write.jobEntry where
  write w d := by
    cases w with
    | jobTransition record => rfl
    | _ => exact (List.append_nil _).symm

def bookingAudit : Audited Write Booking BookingTransition Id BookingStatus where
  on := Write.onBooking
  entry := Write.bookingEntry
  key := Booking.id
  about := BookingTransition.bookingId
  state := Booking.status
  src := BookingTransition.fromStatus
  dst := BookingTransition.toStatus
  allowed := BookingTransition.Legal
  key_on w b := congrArg Prod.fst (onBooking_core w b)

/-- A job comes from no status at all: its first record is that of its creation. -/
def jobAudit : Audited Write Job JobTransition Id (Option JobStatus) where
  on := Write.onJob
  entry := Write.jobEntry
  key := Job.id
  about := JobTransition.jobId
  state j := some j.status
  src := JobTransition.fromStatus
  dst record := some record.toStatus
  allowed := JobTransition.Legal
  key_on := onJob_id

/-- No entry of the transition tables leaves a terminal status. -/
theorem BookingTransition.Legal.leaves_running {record : BookingTransition} (legal : record.Legal) :
    record.fromStatus ≠ .COMPLETED ∧ record.fromStatus ≠ .CANCELLED := by
  rw [BookingTransition.Legal] at legal
  constructor <;> intro ended <;> rw [ended] at legal <;> cases record.action <;> cases legal

theorem JobTransition.Legal.leaves_running {record : JobTransition} (legal : record.Legal) :
    record.fromStatus ≠ some .COMPLETED ∧ record.fromStatus ≠ some .CANCELLED := by
  rw [JobTransition.Legal] at legal
  constructor <;> intro ended <;> simp only [ended] at legal <;> cases record.action <;> cases legal

/-! ### What the commits tell -/

/-- A write that sets no booking's status and records no transition of one. -/
def Write.auditsBooking : Write → Bool
  | .bookingStatus _ _ | .bookingTransition _ => true
  | _ => false

def Write.auditsJob : Write → Bool
  | .jobStatus _ _ | .jobTransition _ => true
  | _ => false

theorem silent_booking {w : Write} (not : w.auditsBooking = false) : bookingAudit.Silent w := by
  constructor
  · cases w <;> first | rfl | cases not
  · exact onBooking_status (by cases w <;> first | rfl | cases not)

theorem silent_job {w : Write} (not : w.auditsJob = false) : jobAudit.Silent w := by
  constructor
  · cases w <;> first | rfl | cases not
  · exact fun j => congrArg some (onJob_status (by cases w <;> first | rfl | cases not) j)

theorem audits_quiet {w : Write} (quiet : w.quiet = true) :
    w.auditsBooking = false ∧ w.auditsJob = false := by
  cases w <;> first | exact ⟨rfl, rfl⟩ | cases quiet

section Told

variable {ℓ : Label} {d : Db} {ws : List Write} {b : Booking} {j : Job}

/-- Writes that move no booking, given one by one. -/
theorem told_booking_idle (idle : ∀ w ∈ ws, w.auditsBooking = false) : bookingAudit.Told ws b :=
  .silent fun w member => silent_booking (idle w member)

theorem told_job_idle (idle : ∀ w ∈ ws, w.auditsJob = false) : jobAudit.Told ws j :=
  .silent fun w member => silent_job (idle w member)

/-- The UPDATE of a booking transition and its record, with other columns set in between. -/
theorem told_booking_moved (mid : List Write) {id : Id} {row : Booking} {target : BookingStatus}
    {record : BookingTransition} (wf : Wf d) (member : b ∈ d.bookings)
    (booking : d.booking id = some row) (recorded : record.Follows id row.status target)
    (idle : ∀ w ∈ mid, w.auditsBooking = false) :
    bookingAudit.Told (.bookingStatus id target :: mid ++ [.bookingTransition record]) b := by
  have silent : ∀ w ∈ mid, bookingAudit.Silent w := fun w inside => silent_booking (idle w inside)
  have about : record.bookingId = id := recorded.about
  have entries : List.filterMap bookingAudit.entry
      (.bookingStatus id target :: mid ++ [.bookingTransition record]) = [record] := by
    rw [List.filterMap_append, List.filterMap_cons_none rfl, Audited.entries_silent silent]
    rfl
  refine .moved entries ?_ recorded.legal ?_
  · intro mine
    obtain rfl := Table.eq_of_find wf.bookingIds booking member (mine.trans about)
    exact recorded.leaves
  · rw [onAll_append, onAll_cons]
    refine (Audited.state_silent silent _).trans ?_
    simp only [bookingAudit, Write.onBooking, List.mem_singleton, about, recorded.lands]
    split <;> rfl

/-- The job-level step of a booking transaction, on a job that it has not touched before. -/
theorem JobStep.told (now : Job) {jobId : Id} {sources : List JobStatus} {target : JobStatus}
    {moved : Bool} (wf : Wf d) (member : j ∈ d.jobs) (sameId : now.id = j.id)
    (sameStatus : now.status = j.status) (step : JobStep d jobId sources target moved ws) :
    jobAudit.Told ws now := by
  cases step with
  | kept => exact told_job_idle (by simp)
  | moved record source recorded =>
    have entries : [Write.jobStatus jobId target, .jobTransition record].filterMap jobAudit.entry =
        [record] := rfl
    refine .moved entries ?_ recorded.legal ?_
    · intro mine
      obtain ⟨job, found, leaves⟩ := recorded.leaves
      obtain rfl := Table.eq_of_find wf.jobIds found member (sameId.symm.trans (mine.trans recorded.about))
      exact leaves.trans (congrArg some sameStatus.symm)
    · simp only [jobAudit, onAll_cons, onAll_nil, Write.onJob, List.mem_singleton, recorded.about,
        recorded.lands]
      split <;> rfl

theorem Commit.bookingTold (commit : Commit ℓ d ws) (wf : Wf d) (member : b ∈ d.bookings) :
    bookingAudit.Told ws b := by
  have quieted : ∀ {ws : List Write}, (∀ w ∈ ws, w.quiet = true) →
      ∀ w ∈ ws, w.auditsBooking = false :=
    fun still w member => (audits_quiet (still w member)).1
  have stepped : ∀ {jobId sources target moved} {ws : List Write},
      JobStep d jobId sources target moved ws → ∀ w ∈ ws, w.auditsBooking = false := by
    intro _ _ _ _ _ step
    cases step <;> simp [Write.auditsBooking]
  cases commit with
  | quiet still => exact told_booking_idle (quieted still)
  | jobCreated _ _ _ _ => exact told_booking_idle (by simp [Write.auditsBooking])
  | jobCancelled _ _ still _ =>
    exact told_booking_idle (by simpa [Write.auditsBooking] using quieted still)
  | accepted _ _ _ _ _ _ _ _ _ _ _ closing =>
    exact told_booking_idle (by cases closing <;> simp [Write.auditsBooking])
  | waveCommitted _ _ _ still =>
    refine told_booking_idle ?_
    simp only [List.cons_append, List.mem_cons, List.mem_append, List.mem_map]
    rintro w (rfl | ⟨x, -, rfl⟩ | quiet)
    · rfl
    · rfl
    · exact (audits_quiet (still w quiet)).1
  | @workStarted _ id _ _ _ now guess record _ booking _ _ recorded step =>
    have compared : bookingAudit.Told [.guessed guess] b :=
      told_booking_idle (by simp [Write.auditsBooking])
    have moved := told_booking_moved [.bookingOtpConsumed id now] wf member booking recorded
      (by simp [Write.auditsBooking])
    exact (compared.append moved).append (told_booking_idle (stepped step))
  | completionRequested booking _ recorded =>
    exact told_booking_moved [] wf member booking recorded (by simp)
  | @completionConfirmed _ _ _ _ row own reviews job notices booking _ confirming still step noticed =>
    have noticeIdle : ∀ w ∈ notices, w.auditsBooking = false := by
      intro w member
      obtain ⟨worker, rfl⟩ := noticed w member
      rfl
    -- the booking moves only if the confirmation was awaited; a repeated one writes nothing
    have first : bookingAudit.Told own b := by
      cases awaiting : row.status <;> rw [awaiting] at confirming <;> cases confirming
      case AWAITING_CONFIRMATION.confirmed record recorded =>
        rw [← awaiting] at recorded
        exact told_booking_moved [] wf member booking recorded (by simp)
      case COMPLETED.repeated => exact told_booking_idle (by simp)
    exact ((first.append (told_booking_idle (quieted still))).append
      (told_booking_idle (stepped step))).append (told_booking_idle noticeIdle)
  | bookingCancelled booking _ _ _ _ step recorded =>
    have moved := told_booking_moved [] wf member booking recorded (by simp)
    refine moved.append (told_booking_idle ?_)
    simpa [or_imp, forall_and, Write.auditsBooking] using stepped step
  | gaveUp still =>
    refine told_booking_idle ?_
    simpa [or_imp, forall_and, Write.auditsBooking] using quieted still
  | _ => exact told_booking_idle (by simp [Write.auditsBooking])

/-- A transition that a commit makes before anything else has touched the job. -/
theorem told_job_moved {jobId : Id} {target : JobStatus} {record : JobTransition} (wf : Wf d)
    (member : j ∈ d.jobs) (recorded : record.Follows d jobId target) :
    jobAudit.Told [.jobStatus jobId target, .jobTransition record] j := by
  obtain ⟨job, found, -⟩ := recorded.leaves
  exact (JobStep.moved record ⟨job, found, List.mem_singleton_self _⟩ recorded).told j wf member rfl rfl

theorem Commit.jobTold (commit : Commit ℓ d ws) (wf : Wf d) (member : j ∈ d.jobs) :
    jobAudit.Told ws j := by
  have quieted : ∀ {ws : List Write}, (∀ w ∈ ws, w.quiet = true) → ∀ w ∈ ws, w.auditsJob = false :=
    fun still w member => (audits_quiet (still w member)).2
  cases commit with
  | quiet still => exact told_job_idle (quieted still)
  | @jobCreated _ job reqs record fresh _ _ recorded =>
    -- the record of the creation is about a job that was not stored
    have other : j.id ≠ record.jobId := by
      rw [recorded.1]
      exact Table.find_none_iff.mp fresh j member
    have first : jobAudit.Told [.insertJob job, .jobTransition record] j := by
      have entries : [Write.insertJob job, .jobTransition record].filterMap jobAudit.entry =
          [record] := rfl
      exact .moved entries (fun mine => absurd mine other) recorded.2.2.2 (if_neg other).symm
    exact first.append (told_job_idle (by simp [Write.auditsJob]))
  | dispatchStarted _ _ recorded =>
    exact (told_job_moved wf member recorded).append (told_job_idle (by simp [Write.auditsJob]))
  | jobCancelled _ _ still recorded =>
    refine (told_job_moved wf member recorded).append (told_job_idle ?_)
    simpa [Write.auditsJob] using quieted still
  | @accepted _ b nowFilled _ row _ _ _ _ _ _ _ _ _ _ _ _ _ closing =>
    cases closing with
    | booked offers record _ recorded =>
      have reserved : jobAudit.Told [.dispatchStatus [(b.requirementId, b.workerId)] .accepted,
          .requirementFilled b.requirementId (row.workerCountFilled + 1),
          .requirementStatus [b.requirementId] .FILLED, .insertBooking b,
          .outbox (.bookingConfirmed b.id b.customerId), .dispatchStatus offers .expired] j :=
        told_job_idle (by simp [Write.auditsJob])
      have marked : jobAudit.Told [.jobDispatchStatus b.jobId .FILLED]
          (onAll Write.onJob [.jobStatus b.jobId .BOOKED, .jobTransition record] j) :=
        told_job_idle (by simp [Write.auditsJob])
      exact reserved.append ((told_job_moved wf member recorded).append marked)
    | _ => exact told_job_idle (by simp [Write.auditsJob])
  | waveCommitted _ _ _ still =>
    refine told_job_idle ?_
    simp only [List.cons_append, List.mem_cons, List.mem_append, List.mem_map]
    rintro w (rfl | ⟨x, -, rfl⟩ | quiet)
    · rfl
    · rfl
    · exact (audits_quiet (still w quiet)).2
  | @workStarted _ id _ _ _ now guess record _ _ _ _ _ step =>
    have started : jobAudit.Told [.guessed guess, .bookingStatus id .IN_PROGRESS,
        .bookingOtpConsumed id now, .bookingTransition record] j :=
      told_job_idle (by simp [Write.auditsJob])
    exact started.append (step.told j wf member rfl rfl)
  | @completionConfirmed _ _ _ _ row own reviews job notices _ _ confirming still step noticed =>
    have noticeIdle : ∀ w ∈ notices, w.auditsJob = false := by
      intro w member
      obtain ⟨worker, rfl⟩ := noticed w member
      rfl
    have ownIdle : ∀ w ∈ own ++ reviews, w.auditsJob = false := by
      intro w member
      rcases List.mem_append.mp member with own | quiet
      · generalize row.status = status at confirming
        cases confirming <;> simp at own
        rcases own with rfl | rfl <;> rfl
      · exact (audits_quiet (still w quiet)).2
    have first : jobAudit.Told (own ++ reviews) j := told_job_idle ownIdle
    have silent : ∀ w ∈ own ++ reviews, jobAudit.Silent w := fun w inside => silent_job (ownIdle w inside)
    have stepped := step.told (onAll Write.onJob (own ++ reviews) j) wf member
      (onAll_job_id _ _) (Option.some.inj (Audited.state_silent silent j))
    exact (first.append stepped).append (told_job_idle noticeIdle)
  | @bookingCancelled _ b _ _ req filled record offers job type recipient _ _ _ _ _ step _ =>
    have released : jobAudit.Told [.bookingStatus b.id .CANCELLED, .bookingTransition record,
        .requirementFilled b.requirementId filled, .requirementStatus [b.requirementId]
          (reconciledStatus req.status ⟨req.workerCountNeeded, filled⟩),
        .dispatchStatus offers .cancelled] j :=
      told_job_idle (by simp [Write.auditsJob])
    have noticed : jobAudit.Told [.outbox (.bookingCancelled b.id type recipient)]
        (onAll Write.onJob job j) := told_job_idle (by simp [Write.auditsJob])
    exact released.append ((step.told j wf member rfl rfl).append noticed)
  | gaveUp still =>
    refine told_job_idle ?_
    simpa [or_imp, forall_and, Write.auditsJob] using quieted still
  | _ => exact told_job_idle (by simp [Write.auditsJob])

/-- A booking's transition is only recorded about a stored booking. -/
theorem Commit.recordsBooking {record : BookingTransition} (commit : Commit ℓ d ws)
    (inside : .bookingTransition record ∈ ws) : ∃ row, d.booking record.bookingId = some row := by
  have quieted : ∀ {ws : List Write}, (∀ w ∈ ws, w.quiet = true) → .bookingTransition record ∉ ws :=
    fun still member => by cases still _ member
  have stepped : ∀ {jobId sources target moved} {ws : List Write},
      JobStep d jobId sources target moved ws → .bookingTransition record ∉ ws := by
    intro _ _ _ _ _ step
    cases step <;> simp
  cases commit with
  | quiet still => exact absurd inside (quieted still)
  | jobCreated _ _ _ _ => simp at inside
  | jobCancelled _ _ still _ => simp [quieted still] at inside
  | accepted _ _ _ _ _ _ _ _ _ _ _ closing => cases closing <;> simp at inside
  | waveCommitted _ _ _ still => simp [quieted still] at inside
  | workStarted booking _ _ recorded step =>
    simp only [List.mem_cons, reduceCtorEq, stepped step, false_or, or_false,
      Write.bookingTransition.injEq] at inside
    exact ⟨_, inside ▸ recorded.about ▸ booking⟩
  | completionRequested booking _ recorded =>
    simp only [List.mem_cons, reduceCtorEq, List.not_mem_nil, false_or, or_false,
      Write.bookingTransition.injEq] at inside
    exact ⟨_, inside ▸ recorded.about ▸ booking⟩
  | @completionConfirmed _ _ _ _ row own reviews job notices booking _ confirming still step noticed =>
    have notNotice : .bookingTransition record ∉ notices := by
      intro member
      obtain ⟨worker, same⟩ := noticed _ member
      cases same
    simp only [List.mem_append, quieted still, stepped step, notNotice, or_false] at inside
    generalize row.status = status at confirming
    cases confirming with
    | confirmed record' recorded =>
      simp only [List.mem_cons, reduceCtorEq, List.not_mem_nil, false_or, or_false,
        Write.bookingTransition.injEq] at inside
      exact ⟨row, inside ▸ recorded.about ▸ booking⟩
    | repeated => cases inside
  | bookingCancelled booking _ _ _ _ step recorded =>
    simp only [List.mem_cons, List.mem_append, reduceCtorEq, stepped step, List.not_mem_nil, false_or,
      or_false, Write.bookingTransition.injEq] at inside
    exact ⟨_, inside ▸ recorded.about ▸ booking⟩
  | gaveUp still => simp [quieted still] at inside
  | _ => simp at inside

/-- A job's transition is only recorded about a stored job, or with its creation. -/
theorem Commit.recordsJob {record : JobTransition} (commit : Commit ℓ d ws)
    (inside : .jobTransition record ∈ ws) :
    (∃ row, d.job record.jobId = some row) ∨
      ∃ job rest, ws = .insertJob job :: rest ∧ record.jobId = job.id ∧ d.job job.id = none := by
  have quieted : ∀ {ws : List Write}, (∀ w ∈ ws, w.quiet = true) → .jobTransition record ∉ ws :=
    fun still member => by cases still _ member
  have follows : ∀ {record' : JobTransition} {jobId target}, record'.Follows d jobId target →
      record = record' → ∃ row, d.job record.jobId = some row := by
    rintro record' jobId target recorded rfl
    obtain ⟨row, found, -⟩ := recorded.leaves
    exact ⟨row, recorded.about ▸ found⟩
  have stepped : ∀ {jobId sources target moved} {ws : List Write},
      JobStep d jobId sources target moved ws → .jobTransition record ∈ ws →
        ∃ row, d.job record.jobId = some row := by
    intro _ _ _ _ _ step member
    cases step with
    | kept => cases member
    | moved record' _ recorded => exact follows recorded (by simpa using member)
  cases commit with
  | quiet still => exact absurd inside (quieted still)
  | jobCreated fresh _ _ recorded =>
    simp only [List.mem_cons, reduceCtorEq, false_or, List.mem_map, and_false, exists_false,
      or_false, Write.jobTransition.injEq] at inside
    exact Or.inr ⟨_, _, rfl, inside ▸ recorded.1, fresh⟩
  | dispatchStarted _ _ recorded => exact Or.inl (follows recorded (by simpa using inside))
  | jobCancelled _ _ still recorded =>
    exact Or.inl (follows recorded (by simpa [quieted still] using inside))
  | accepted _ _ _ _ _ _ _ _ _ _ _ closing =>
    cases closing with
    | booked offers record' _ recorded => exact Or.inl (follows recorded (by simpa using inside))
    | _ => simp at inside
  | waveCommitted _ _ _ still => simp [quieted still] at inside
  | workStarted _ _ _ _ step => exact Or.inl (stepped step (by simpa using inside))
  | @completionConfirmed _ _ _ _ row own reviews job notices _ _ confirming still step noticed =>
    have notNotice : .jobTransition record ∉ notices := by
      intro member
      obtain ⟨worker, same⟩ := noticed _ member
      cases same
    have notOwn : .jobTransition record ∉ own := by
      generalize row.status = status at confirming
      cases confirming <;> simp
    simp only [List.mem_append, quieted still, notNotice, notOwn, or_false, false_or] at inside
    exact Or.inl (stepped step inside)
  | bookingCancelled _ _ _ _ _ step _ => exact Or.inl (stepped step (by simpa using inside))
  | gaveUp still => simp [quieted still] at inside
  | _ => simp at inside

end Told

/-! ### The invariant -/

structure AuditTrail (d : Db) : Prop where
  bookings : bookingAudit.Trail Db.bookings Db.bookingTransitions .CONFIRMED d
  jobs : jobAudit.Trail Db.jobs Db.jobTransitions none d

theorem mem_bookingEntries {ws : List Write} {record : BookingTransition} :
    record ∈ ws.filterMap Write.bookingEntry ↔ .bookingTransition record ∈ ws := by
  simp only [List.mem_filterMap]
  constructor
  · rintro ⟨w, member, entry⟩
    cases w <;> cases entry
    exact member
  · exact fun member => ⟨_, member, rfl⟩

theorem mem_jobEntries {ws : List Write} {record : JobTransition} :
    record ∈ ws.filterMap Write.jobEntry ↔ .jobTransition record ∈ ws := by
  simp only [List.mem_filterMap]
  constructor
  · rintro ⟨w, member, entry⟩
    cases w <;> cases entry
    exact member
  · exact fun member => ⟨_, member, rfl⟩

section Trails

variable {ℓ : Label} {d : Db} {ws : List Write}

theorem Commit.keepsBookingTrail (commit : Commit ℓ d ws) (wf : Wf d)
    (trail : bookingAudit.Trail Db.bookings Db.bookingTransitions .CONFIRMED d) :
    bookingAudit.Trail Db.bookings Db.bookingTransitions .CONFIRMED (applyAll ws d) := by
  refine trail.applyAll bookingEffects bookingLog (fun b member => commit.bookingTold wf member) ?_ ?_
  · intro b' member
    rcases commit.bookings member with old | ⟨-, -, fresh, confirmed⟩
    · exact Or.inl old
    · refine Or.inr ⟨Table.find_none_iff.mp fresh, ?_⟩
      -- a booking that is inserted was not stored, so the commit records nothing about it
      have none : bookingAudit.history b'.id (ws.filterMap Write.bookingEntry) = [] := by
        refine List.filter_eq_nil_iff.mpr fun record recorded => ?_
        obtain ⟨row, found⟩ := commit.recordsBooking (mem_bookingEntries.mp recorded)
        simp only [decide_eq_true_eq]
        rintro (same : record.bookingId = b'.id)
        rw [same, fresh] at found
        cases found
      exact (congrArg (fun history => bookingAudit.Replays _ history _) none).mpr confirmed.symm
  · intro record recorded
    obtain ⟨row, found⟩ := commit.recordsBooking (mem_bookingEntries.mp recorded)
    exact ⟨_, bookingEffects.mem_applyAll (Table.mem_of_find found) ws,
      (Audited.key_onAll (A := bookingAudit) ws row).trans (Table.find_key found)⟩

theorem Commit.keepsJobTrail (commit : Commit ℓ d ws) (wf : Wf d)
    (trail : jobAudit.Trail Db.jobs Db.jobTransitions none d) :
    jobAudit.Trail Db.jobs Db.jobTransitions none (applyAll ws d) := by
  refine trail.applyAll jobEffects jobLog (fun j member => commit.jobTold wf member) ?_ ?_
  · intro j' member
    rcases commit.jobs member with old | ⟨⟨reqs, rfl⟩, opened, fresh⟩
    · exact Or.inl old
    · refine Or.inr ⟨Table.find_none_iff.mp fresh, ?_⟩
      cases commit with
      | quiet still =>
        -- quiet writes insert no job
        rcases jobEffects.of_mem_applyAll member with
          ⟨j, old, rfl⟩ | ⟨before, w, rest, j, split, rfl, rfl⟩
        · exact absurd (onAll_job_id ws j).symm (Table.find_none_iff.mp fresh j old)
        · have inserted : Write.insertJob j ∈ ws := by simp [split]
          cases still _ inserted
      | @jobCreated _ _ _ record _ _ _ recorded =>
        have created : jobAudit.history j'.id (List.filterMap Write.jobEntry
            (.insertJob j' :: .jobTransition record :: reqs.map .insertRequirement)) = [record] := by
          have rows : (reqs.map Write.insertRequirement).filterMap Write.jobEntry = [] := by
            simp [List.filterMap_map, Function.comp_def, Write.jobEntry]
          have entry : Write.jobEntry (.jobTransition record) = some record := rfl
          rw [List.filterMap_cons_none rfl, List.filterMap_cons_some entry, rows]
          simp [Audited.history, jobAudit, recorded.1]
        refine (congrArg (fun history => jobAudit.Replays _ history _) created).mpr ?_
        refine Replays.single recorded.2.1 recorded.2.2.2 ?_
        simp [jobAudit, opened, recorded.2.2.1]
  · intro record recorded
    rcases commit.recordsJob (mem_jobEntries.mp recorded) with
      ⟨row, found⟩ | ⟨job, rest, rfl, about, fresh⟩
    · exact ⟨_, jobEffects.mem_applyAll (Table.mem_of_find found) ws,
        (onAll_job_id ws row).trans (Table.find_key found)⟩
    · have free : ∀ old ∈ d.jobs, Job.clash job old = false := fun old present =>
        decide_eq_false fun same => Table.find_none_iff.mp fresh old present same.symm
      have present : job ∈ ((Write.insertJob job).apply d).jobs := by
        simp [Write.apply, Table.insert_of_free free]
      exact ⟨_, jobEffects.mem_applyAll present rest, (onAll_job_id rest job).trans about.symm⟩

end Trails

theorem trail_of_runs {cfg : Config} {p : MarketPool} (reached : Reachable cfg p) :
    AuditTrail p.db := by
  refine invariant_of_runs AuditTrail ⟨⟨by simp, by simp⟩, ⟨by simp, by simp⟩⟩ ?_ reached
  intro ℓ d ws consistent trail _ commit
  exact ⟨commit.keepsBookingTrail consistent.wf trail.bookings,
    commit.keepsJobTrail consistent.wf trail.jobs⟩

/-! ### Transitions that do nothing -/

/-- Whatever others do meanwhile, the call commits nothing by itself, and where it ends as
described it has added nothing to the transaction it runs in. -/
def WritesNothing {α : Type} (ends : Except Failure α → Prop) (c : Service α) : Prop :=
  ∀ me t d, Call.wp (Protocol.still Label Db) me
    (fun r tx _ => ends r → ∃ t' : MarketTx, tx = some t' ∧ t'.writes = t.writes) c (some t) d

section Idle

variable {P : Protocol Label Db} {me : Nat} {t : MarketTx} {d : Db}

/-- The statements that lock or read a row write nothing, under any protocol. -/
private theorem locksBooking {id : Id} {inScope : Booking → Bool}
    {Q : Except Failure (Option Booking) → Option MarketTx → Db → Prop}
    (done : ∀ d' t' found, Tx.Grows t t' [] → Q (.ok found) (some t') d') :
    Call.wp P me Q (lockOrReadBooking id inScope) (some t) d := by
  rw [lockOrReadBooking, lockBooking, Call.wp_bind]
  refine Call.lock_inTx fun d₁ t₁ _ _ grows₁ _ => ?_
  rw [Call.andThen_ok]
  split
  · exact done d₁ t₁ _ grows₁
  · exact fun d₂ _ _ => done d₂ t₁ _ grows₁

private theorem locksJob {jobId : Id}
    {Q : Except Failure (Option Job) → Option MarketTx → Db → Prop}
    (done : ∀ d' t' found, Tx.Grows t t' [] → Q (.ok found) (some t') d') :
    Call.wp P me Q (lockJob jobId) (some t) d := by
  rw [lockJob, Call.wp_bind]
  refine Call.lock_inTx fun d₁ t₁ _ _ grows₁ _ => ?_
  rw [Call.andThen_ok]
  split
  · exact done d₁ t₁ _ grows₁
  · exact fun d₂ _ _ => done d₂ t₁ _ grows₁

end Idle

theorem bookingTransition_writesNothing (id : Id) (action : BookingAction) (actor : TransitionActor)
    (reason : Text) :
    WritesNothing (fun r => ∀ result, r = .ok result → result.isIdempotent = true)
      (bookingTransition id action actor reason) := by
  intro me t d
  rw [bookingTransition, Call.wp_bind]
  refine locksBooking fun d₁ t₁ found grows₁ => ?_
  have unchanged : ∃ t' : MarketTx, some t₁ = some t' ∧ t'.writes = t.writes := ⟨t₁, rfl, grows₁.same⟩
  rw [Call.andThen_ok]
  cases found with
  | none => exact fun _ => unchanged
  | some booking =>
    -- the two idempotent returns, each after its ownership check
    simp only
    split
    · split <;> exact fun _ => unchanged
    · split
      · split <;> exact fun _ => unchanged
      · cases bookingCanTransition booking.status action actor booking.customerId booking.workerId with
        | error e => exact fun _ => unchanged
        | ok target =>
          simp only
          split
          · exact fun _ => unchanged
          · simp only [query, step, Call.wp_bind, Call.wp_read, Tx.held_some]
            intro d₂ _ _
            rw [Call.andThen_ok, Call.wp_bind]
            refine Call.stmt_inTx (fun d₃ t₃ _ _ _ _ _ _ _ => ?_) fun _ _ _ _ _ _ => unchanged
            rw [Call.andThen_ok, Call.wp_bind]
            refine Call.stmt_inTx (fun d₄ t₄ _ _ _ _ _ _ _ => ?_) fun _ _ _ _ refused => by cases refused
            -- a transition that was made does not claim to have found nothing to do
            exact fun idle => by simpa using idle _ rfl

theorem jobTransition_writesNothing (jobId : Id) (action : JobAction) (actor : TransitionActor) :
    WritesNothing (fun r => ∃ e, r = .error e) (jobTransition jobId action actor) := by
  intro me t d
  rw [jobTransition, Call.wp_bind]
  refine locksJob fun d₁ t₁ found grows₁ => ?_
  have unchanged : ∃ t' : MarketTx, some t₁ = some t' ∧ t'.writes = t.writes := ⟨t₁, rfl, grows₁.same⟩
  rw [Call.andThen_ok]
  cases found with
  | none => exact fun _ => unchanged
  | some job =>
    simp only
    cases jobCanTransition job.status action actor job.customerId with
    | error e => exact fun _ => unchanged
    | ok rule =>
      simp only [casJobStatus, step, Call.wp_bind]
      refine Call.stmt_inTx (fun d₂ t₂ ws updated _ _ result grows₂ _ => ?_)
        fun _ _ _ _ _ _ => unchanged
      rw [Call.andThen_ok]
      cases updated with
      | false =>
        -- the compare-and-set matched no row, so it has set nothing
        have none : ws = [] := by
          split at result
          · split at result <;> cases result
            rfl
          · cases result
            rfl
        subst none
        exact fun _ => ⟨t₂, rfl, (grows₁.trans grows₂).same⟩
      | true =>
        simp only [if_true, query, Call.wp_bind, Call.wp_read]
        intro d₃ _ _
        rw [Call.andThen_ok, Call.wp_bind]
        refine Call.stmt_inTx (fun d₄ t₄ _ _ _ _ _ _ _ => ?_) fun _ _ _ _ refused => by cases refused
        rintro ⟨e, thrown⟩
        cases thrown

/-- The records about each booking and each job replay its status. -/
structure ReplayedByAudit (d : Db) : Prop where
  bookings : ∀ b ∈ d.bookings,
    bookingAudit.Replays .CONFIRMED (bookingAudit.history b.id d.bookingTransitions) b.status
  jobs : ∀ j ∈ d.jobs,
    jobAudit.Replays none (jobAudit.history j.id d.jobTransitions) (some j.status)
  jobsOpened : ∀ j ∈ d.jobs, ∃ first rest,
    jobAudit.history j.id d.jobTransitions = first :: rest ∧ first.toStatus = .OPEN
  bookingsEnd : ∀ record ∈ d.bookingTransitions,
    record.fromStatus ≠ .COMPLETED ∧ record.fromStatus ≠ .CANCELLED
  jobsEnd : ∀ record ∈ d.jobTransitions,
    record.fromStatus ≠ some .COMPLETED ∧ record.fromStatus ≠ some .CANCELLED

/-- The history of a job begins with its creation. -/
theorem opened_of_replays {history : List JobTransition} {status : JobStatus}
    (replays : jobAudit.Replays none history (some status)) :
    ∃ first rest, history = first :: rest ∧ first.toStatus = .OPEN := by
  cases history with
  | nil => cases (show (none : Option JobStatus) = some status from replays)
  | cons first rest =>
    obtain ⟨leaves, legal, -⟩ := replays
    have created : first.Legal := legal
    rw [JobTransition.Legal, show first.fromStatus = none from leaves] at created
    exact ⟨first, rest, rfl, created.2⟩

theorem audit_replays_state (cfg : Config) {p : MarketPool} (reached : Reachable cfg p) :
    ReplayedByAudit p.db ∧
    (∀ id action actor reason,
      WritesNothing (fun r => ∀ result, r = .ok result → result.isIdempotent = true)
        (bookingTransition id action actor reason)) ∧
    ∀ jobId action actor,
      WritesNothing (fun r => ∃ e, r = .error e) (jobTransition jobId action actor) := by
  have trail := trail_of_runs reached
  refine ⟨?_, bookingTransition_writesNothing, jobTransition_writesNothing⟩
  constructor
  · exact trail.bookings.replays
  · exact trail.jobs.replays
  · exact fun j member => opened_of_replays (trail.jobs.replays j member)
  · intro record recorded
    obtain ⟨b, member, about⟩ := trail.bookings.stored record recorded
    have legal := (trail.bookings.replays b member).forall_mem record
      (List.mem_filter.mpr ⟨recorded, decide_eq_true about.symm⟩)
    exact BookingTransition.Legal.leaves_running legal
  · intro record recorded
    obtain ⟨j, member, about⟩ := trail.jobs.stored record recorded
    have legal := (trail.jobs.replays j member).forall_mem record
      (List.mem_filter.mpr ⟨recorded, decide_eq_true about.symm⟩)
    exact JobTransition.Legal.leaves_running legal

/-- Worker 10 accepts, starts the work and asks for its completion. -/
def workRequested : List (Pool.Move Op) :=
  firstAccepts ++
  [.event (.spawn (.verifyOtp 1 10 5 (some ⟨10, .WORKER⟩))),
   .drive 3 true,
   .event (.spawn (.completeBooking 1 10 (some ⟨10, .WORKER⟩))),
   .drive 4 true]

theorem audit_replays_work_requested :
    ((played (fun _ _ => True) workRequested).db.bookingTransitions.map
        fun record => (record.fromStatus, record.toStatus)) =
      [(.CONFIRMED, .IN_PROGRESS), (.IN_PROGRESS, .AWAITING_CONFIRMATION)] ∧
    ReplayedByAudit (played (fun _ _ => True) workRequested).db :=
  ⟨by decide +kernel, (audit_replays_state plainConfig (runs_played _ workRequested)).1⟩

end LabourBaba.Market
