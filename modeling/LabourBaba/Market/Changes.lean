import LabourBaba.Market.Commits
import LabourBaba.Store.Effects

/-!
# What a commit does to one row

For a job, a requirement, a booking and an offer, every way a commit can change it, with
the label of the commit and what held just before. The properties of single rows and of
their neighbours are case analyses of these relations.
-/
namespace LabourBaba.Market

open Store

/-! ### Writes, row by row -/

def Write.onJob : Write → Job → Job
  | .jobStatus id s, j => if j.id ∈ [id] then { j with status := s } else j
  | .jobDispatchStatus id s, j => if j.id ∈ [id] then { j with dispatchStatus := s } else j
  | _, j => j

def Write.onRequirement : Write → Requirement → Requirement
  | .requirementStatus ids s, r => if r.id ∈ ids then { r with status := s } else r
  | .requirementFilled id n, r => if r.id ∈ [id] then { r with workerCountFilled := n } else r
  | .requirementNeeded id n, r => if r.id ∈ [id] then { r with workerCountNeeded := n } else r
  | _, r => r

def Write.onBooking : Write → Booking → Booking
  | .bookingStatus id s, b => if b.id ∈ [id] then { b with status := s } else b
  | .bookingOtpConsumed id t, b =>
    if b.id ∈ [id] then { b with otpVerified := true, otpConsumedAt := some t } else b
  | .bookingOtpAttempts id n locked, b =>
    if b.id ∈ [id] then { b with otpAttempts := n, otpLockedAt := locked } else b
  | _, b => b

def Write.onDispatch : Write → Dispatch → Dispatch
  | .dispatchStatus offers s, x => if x.key ∈ offers then { x with status := s } else x
  | _, x => x

theorem jobEffects : Effects Db.jobs Write.onJob (fun w j => w = .insertJob j) where
  keeps w d j member := by
    cases w with
    | insertJob _ => exact Table.mem_insert_of_mem member
    | jobStatus _ _ | jobDispatchStatus _ _ => exact Table.mem_modify.mpr ⟨j, member, rfl⟩
    | _ => exact member
  source w d j' member := by
    cases w with
    | insertJob j => exact (Table.mem_insert member).imp (fun old => ⟨j', old, rfl⟩) (congrArg _ ·.symm)
    | jobStatus _ _ | jobDispatchStatus _ _ => exact Or.inl (Table.mem_modify.mp member)
    | _ => exact Or.inl ⟨j', member, rfl⟩

theorem requirementEffects :
    Effects Db.requirements Write.onRequirement (fun w r => w = .insertRequirement r) where
  keeps w d r member := by
    cases w with
    | insertRequirement _ => exact Table.mem_insert_of_mem member
    | requirementStatus _ _ | requirementFilled _ _ | requirementNeeded _ _ =>
      exact Table.mem_modify.mpr ⟨r, member, rfl⟩
    | _ => exact member
  source w d r' member := by
    cases w with
    | insertRequirement r =>
      exact (Table.mem_insert member).imp (fun old => ⟨r', old, rfl⟩) (congrArg _ ·.symm)
    | requirementStatus _ _ | requirementFilled _ _ | requirementNeeded _ _ =>
      exact Or.inl (Table.mem_modify.mp member)
    | _ => exact Or.inl ⟨r', member, rfl⟩

theorem bookingEffects : Effects Db.bookings Write.onBooking (fun w b => w = .insertBooking b) where
  keeps w d b member := by
    cases w with
    | insertBooking _ => exact Table.mem_insert_of_mem member
    | bookingStatus _ _ | bookingOtpConsumed _ _ | bookingOtpAttempts _ _ _ =>
      exact Table.mem_modify.mpr ⟨b, member, rfl⟩
    | _ => exact member
  source w d b' member := by
    cases w with
    | insertBooking b =>
      exact (Table.mem_insert member).imp (fun old => ⟨b', old, rfl⟩) (congrArg _ ·.symm)
    | bookingStatus _ _ | bookingOtpConsumed _ _ | bookingOtpAttempts _ _ _ =>
      exact Or.inl (Table.mem_modify.mp member)
    | _ => exact Or.inl ⟨b', member, rfl⟩

theorem dispatchEffects :
    Effects Db.dispatches Write.onDispatch (fun w x => w = .insertDispatch x) where
  keeps w d x member := by
    cases w with
    | insertDispatch _ => exact Table.mem_insert_of_mem member
    | dispatchStatus _ _ => exact Table.mem_modify.mpr ⟨x, member, by simp [Write.onDispatch]⟩
    | _ => exact member
  source w d x' member := by
    cases w with
    | insertDispatch x =>
      exact (Table.mem_insert member).imp (fun old => ⟨x', old, rfl⟩) (congrArg _ ·.symm)
    | dispatchStatus _ _ =>
      obtain ⟨x, old, rfl⟩ := Table.mem_modify.mp member
      exact Or.inl ⟨x, old, by simp [Write.onDispatch]⟩
    | _ => exact Or.inl ⟨x', member, rfl⟩

/-! ### Requirements -/

/-- How a commit may change a requirement. -/
inductive RequirementChange (ℓ : Label) : Requirement → Requirement → Prop
  | same {r : Requirement} : RequirementChange ℓ r r
  | started {r : Requirement} (label : ℓ = .dispatchStarted r.jobId) (opened : r.status = .OPEN) :
    RequirementChange ℓ r { r with status := .DISPATCHING }
  | demanded {r seen : Requirement} {needed : Nat} (label : ℓ = .demandUpdated r.id needed seen)
      (enough : r.workerCountFilled ≤ needed) (enoughSeen : seen.workerCountFilled ≤ needed)
      (active : seen.status ≠ .CANCELLED) :
    RequirementChange ℓ r { r with
      workerCountNeeded := needed
      status := demandStatus seen.status ⟨needed, seen.workerCountFilled⟩ }
  | cancelled {r : Requirement} (label : ℓ = .jobCancelled r.jobId) (unfilled : r.status ≠ .FILLED) :
    RequirementChange ℓ r { r with status := .CANCELLED }
  | reserved {r : Requirement} {b : Booking} {nowFilled jobBooked : Bool}
      (label : ℓ = .accepted b nowFilled jobBooked) (slot : b.requirementId = r.id)
      (owned : b.jobId = r.jobId) (active : r.status ≠ .CANCELLED) (unfilled : r.status ≠ .FILLED)
      (room : r.workerCountFilled < r.workerCountNeeded)
      (full : nowFilled = decide (r.workerCountNeeded ≤ r.workerCountFilled + 1)) :
    RequirementChange ℓ r { r with
      workerCountFilled := r.workerCountFilled + 1
      status := if nowFilled then .FILLED else .PARTIALLY_FILLED }
  | exhausted {r : Requirement} (label : (∃ wave, ℓ = .noWorkers r.id wave) ∨
      ℓ = .reconciled r.id (some .NO_WORKERS_AVAILABLE)) :
    RequirementChange ℓ r { r with status := .NO_WORKERS_AVAILABLE }
  | released {r : Requirement} {b : Booking} {reopened : Bool} {filled : Nat}
      (label : ℓ = .bookingCancelled b reopened) (slot : b.requirementId = r.id)
      (owned : b.jobId = r.jobId) (left : r.workerCountFilled = filled + 1) :
    RequirementChange ℓ r { r with
      workerCountFilled := filled
      status := reconciledStatus r.status ⟨r.workerCountNeeded, filled⟩ }
  | rescheduled {r : Requirement} (label : ℓ = .reconciled r.id (some .DISPATCHING))
      (unbooked : r.workerCountFilled = 0) :
    RequirementChange ℓ r { r with status := .DISPATCHING }

theorem onRequirement_core (w : Write) (r : Requirement) : (w.onRequirement r).core = r.core := by
  cases w with
  | requirementStatus _ _ | requirementFilled _ _ | requirementNeeded _ _ =>
    simp only [Write.onRequirement]
    split <;> rfl
  | _ => rfl

theorem onAll_requirement_core (ws : List Write) (r : Requirement) :
    (onAll Write.onRequirement ws r).core = r.core :=
  onAll_same Requirement.core (fun w _ r => onRequirement_core w r) r

theorem onRequirement_quiet {w : Write} (quiet : w.quiet = true) (r : Requirement) :
    w.onRequirement r = r := by
  cases w <;> first | rfl | cases quiet

theorem JobStep.onRequirement {d : Db} {jobId : Id} {sources : List JobStatus} {target : JobStatus}
    {moved : Bool} {ws : List Write} (step : JobStep d jobId sources target moved ws)
    (r : Requirement) : onAll Write.onRequirement ws r = r := by
  cases step <;> rfl

theorem Closing.onRequirement {d : Db} {jobId : Id} {nowFilled booked : Bool} {ws : List Write}
    (closing : Closing d jobId nowFilled booked ws) (r : Requirement) :
    onAll Write.onRequirement ws r = r := by
  cases closing <;> rfl

theorem Confirming.onRequirement {id : Id} {status : BookingStatus} {ws : List Write}
    (confirming : Confirming id status ws) (r : Requirement) :
    onAll Write.onRequirement ws r = r := by
  cases confirming <;> rfl

/-- The row with a given key, for a row that is stored. -/
theorem find_requirement {d : Db} (wf : Wf d) {r row : Requirement} {id : Id}
    (member : r ∈ d.requirements) (found : d.requirement id = some row) (named : r.id = id) :
    r = row :=
  Table.eq_of_find wf.requirementIds found member named

/-- The requirement of a stored booking belongs to the booking's job. -/
theorem jobId_of_booking {d : Db} (wf : Wf d) {b row : Booking} {r : Requirement}
    (booking : d.booking b.id = some row) (same : row.core = b.core) (member : r ∈ d.requirements)
    (named : r.id = b.requirementId) : b.jobId = r.jobId := by
  obtain ⟨owner, stored, slot, owned⟩ := wf.bookingRequirement row (Table.mem_of_find booking)
  rw [Booking.requirementId_of_core same, ← named] at slot
  obtain rfl := find_requirement wf member (Table.find_of_mem wf.requirementIds stored) slot.symm
  exact (Booking.jobId_of_core same).symm.trans owned.symm

theorem Commit.requirementChange {ℓ : Label} {d : Db} {ws : List Write} {r : Requirement}
    (commit : Commit ℓ d ws) (wf : Wf d) (member : r ∈ d.requirements) :
    RequirementChange ℓ r (onAll Write.onRequirement ws r) := by
  cases commit with
  | quiet still =>
    rw [onAll_of_forall fun w member => onRequirement_quiet (still w member)]
    exact .same
  | jobCreated _ _ _ _ =>
    rw [onAll_of_forall (by simp [Write.onRequirement])]
    exact .same
  | @dispatchStarted _ jobId ids _ _ rows _ =>
    simp only [onAll_cons, onAll_nil, Write.onRequirement]
    split
    next hit =>
      obtain ⟨row, found, owned, opened⟩ := rows r.id hit
      obtain rfl := find_requirement wf member found rfl
      exact .started (by rw [owned]) opened
    next => exact .same
  | requirementCreated _ _ _ _ _ => exact .same
  | @demandUpdated _ id _ _ _ requirement enough _ active enoughSeen _ =>
    by_cases mine : r.id = id
    · obtain rfl := find_requirement wf member requirement mine
      simp only [onAll_cons, onAll_nil, Write.onRequirement, mine, List.mem_singleton, if_true]
      exact mine ▸ .demanded rfl enough enoughSeen active
    · simp only [onAll_cons, onAll_nil, Write.onRequirement, mine, List.mem_singleton, if_false]
      exact .same
  | jobCancelled _ rows still _ =>
    simp only [onAll_cons, Write.onRequirement]
    rw [onAll_of_forall fun w member => onRequirement_quiet (still w member)]
    split
    next hit =>
      obtain ⟨row, found, owned, unfilled, -⟩ := rows r.id hit
      obtain rfl := find_requirement wf member found rfl
      exact .cancelled (by rw [owned]) unfilled
    next => exact .same
  | @accepted _ b _ _ _ _ _ requirement owned active room full _ _ _ _ _ _ closing =>
    by_cases mine : r.id = b.requirementId
    · obtain rfl := find_requirement wf member requirement mine
      simp only [onAll_cons, Write.onRequirement, mine, List.mem_singleton, if_true,
        closing.onRequirement]
      exact mine ▸ .reserved rfl mine.symm owned.symm active.1 active.2 room full
    · simp only [onAll_cons, Write.onRequirement, mine, List.mem_singleton, if_false,
        closing.onRequirement]
      exact .same
  | @noWorkers _ id wave =>
    simp only [onAll_cons, onAll_nil, Write.onRequirement, List.mem_singleton]
    split
    next mine => exact .exhausted (Or.inl ⟨wave, by rw [mine]⟩)
    next => exact .same
  | waveCommitted _ _ _ still =>
    rw [List.cons_append, onAll_cons, onAll_append,
      onAll_of_forall (fun w member => onRequirement_quiet (still w member)),
      onAll_of_forall (by simp [Write.onRequirement])]
    exact .same
  | workStarted _ _ _ _ job =>
    simp only [onAll_cons, Write.onRequirement, job.onRequirement]
    exact .same
  | completionRequested _ _ _ => exact .same
  | completionConfirmed _ _ confirming still step noticed =>
    have notices : ∀ r, onAll Write.onRequirement _ r = r := onAll_of_forall fun w member r => by
      obtain ⟨worker, rfl⟩ := noticed w member
      rfl
    simp only [onAll_append, confirming.onRequirement, step.onRequirement, notices]
    rw [onAll_of_forall fun w member => onRequirement_quiet (still w member)]
    exact .same
  | @bookingCancelled _ b _ _ _ _ _ _ _ _ _ booking same _ requirement left step _ =>
    by_cases mine : r.id = b.requirementId
    · have owned := jobId_of_booking wf booking same member mine
      obtain rfl := find_requirement wf member requirement mine
      simp only [onAll_cons, onAll_append, onAll_nil, Write.onRequirement, mine, List.mem_singleton,
        if_true, step.onRequirement]
      exact mine ▸ .released rfl mine.symm owned left
    · simp only [onAll_cons, onAll_append, onAll_nil, Write.onRequirement, mine, List.mem_singleton,
        if_false, step.onRequirement]
      exact .same
  | gaveUp still =>
    rw [onAll_append, onAll_of_forall fun w member => onRequirement_quiet (still w member)]
    simp only [onAll_cons, onAll_nil, Write.onRequirement, List.mem_singleton]
    split
    next mine => exact .exhausted (Or.inr (by rw [mine]))
    next => exact .same
  | rescheduled requirement unbooked =>
    simp only [onAll_cons, onAll_nil, Write.onRequirement, List.mem_singleton]
    split
    next mine =>
      obtain rfl := find_requirement wf member requirement mine
      exact .rescheduled (by rw [mine]) unbooked
    next => exact .same

/-! Which commits insert a row. -/

section Insertions

variable {ℓ : Label} {d : Db} {ws : List Write}

def Write.inserts : Write → Bool
  | .insertJob _ | .insertRequirement _ | .insertBooking _ | .insertDispatch _ | .insertWave _ => true
  | _ => false

/-- The rows a labelled commit may add. -/
def Label.adds : Label → Write → Prop
  | .jobCreated job _, w => w = .insertJob job ∨ ∃ r, w = .insertRequirement r
  | .requirementCreated r, w => w = .insertRequirement r
  | .accepted b _ _, w => w = .insertBooking b
  | .waveCommitted id waveNumber, w =>
    (∃ wave, w = .insertWave wave ∧ wave.key = (id, waveNumber)) ∨
      ∃ x, w = .insertDispatch x ∧ x.requirementId = id
  | _, _ => False

theorem inserts_quiet {w : Write} (quiet : w.quiet = true) : w.inserts = false := by
  cases w <;> first | rfl | cases quiet

theorem inserts_jobStep {jobId : Id} {sources : List JobStatus} {target : JobStatus} {moved : Bool}
    (step : JobStep d jobId sources target moved ws) : ∀ w ∈ ws, w.inserts = false := by
  cases step <;> simp [Write.inserts]

/-- Jobs and requirements enter by creation, bookings by acceptance, waves and offers by a
dispatch. -/
theorem Commit.insertions (commit : Commit ℓ d ws) {w : Write} (member : w ∈ ws)
    (inserts : w.inserts = true) : ℓ.adds w := by
  have refute : w.inserts = false → ℓ.adds w := fun not => by rw [not] at inserts; cases inserts
  cases commit with
  | quiet still => exact refute (inserts_quiet (still w member))
  | jobCreated _ _ _ _ =>
    simp only [List.mem_cons, List.mem_map] at member
    rcases member with rfl | rfl | ⟨r, -, rfl⟩
    · exact Or.inl rfl
    · cases inserts
    · exact Or.inr ⟨r, rfl⟩
  | requirementCreated _ _ _ _ _ => exact List.mem_singleton.mp member
  | jobCancelled _ _ still _ =>
    simp only [List.mem_cons] at member
    rcases member with rfl | rfl | rfl | member
    iterate 3 cases inserts
    exact refute (inserts_quiet (still w member))
  | accepted _ _ _ _ _ _ _ _ _ _ _ closing =>
    simp only [List.mem_cons] at member
    rcases member with rfl | rfl | rfl | rfl | rfl | member
    iterate 3 cases inserts
    · rfl
    · cases inserts
    · refine refute ?_
      cases closing <;> simp only [List.mem_cons, List.not_mem_nil, or_false] at member
      · exact member ▸ rfl
      · rcases member with rfl | rfl | rfl | rfl <;> rfl
      · rcases member with rfl | rfl <;> rfl
  | waveCommitted named rows _ still =>
    simp only [List.cons_append, List.mem_cons, List.mem_append, List.mem_map] at member
    rcases member with rfl | ⟨x, offered, rfl⟩ | member
    · exact Or.inl ⟨_, rfl, named⟩
    · exact Or.inr ⟨x, rfl, (rows x offered).1⟩
    · exact refute (inserts_quiet (still w member))
  | workStarted _ _ _ _ step =>
    simp only [List.mem_cons] at member
    rcases member with rfl | rfl | rfl | rfl | member
    iterate 4 cases inserts
    exact refute (inserts_jobStep step w member)
  | completionConfirmed _ _ confirming still step noticed =>
    simp only [List.mem_append] at member
    refine refute ?_
    rcases member with ((member | member) | member) | member
    · generalize Booking.status _ = status at confirming
      cases confirming <;> simp only [List.mem_cons, List.not_mem_nil, or_false] at member
      rcases member with rfl | rfl <;> rfl
    · exact inserts_quiet (still w member)
    · exact inserts_jobStep step w member
    · obtain ⟨worker, rfl⟩ := noticed w member
      rfl
  | bookingCancelled _ _ _ _ _ step _ =>
    simp only [List.mem_cons, List.mem_append] at member
    rcases member with rfl | rfl | rfl | rfl | rfl | member | rfl | none
    iterate 5 cases inserts
    · exact refute (inserts_jobStep step w member)
    · cases inserts
    · cases none
  | gaveUp still =>
    rcases List.mem_append.mp member with member | member
    · exact refute (inserts_quiet (still w member))
    · exact refute (List.mem_singleton.mp member ▸ rfl)
  | _ =>
    simp only [List.mem_cons, List.not_mem_nil, or_false] at member
    refine refute ?_
    rcases member with rfl | rfl | rfl <;> rfl

end Insertions

/-- A requirement after a commit: an old one, changed as above, or a new and empty one. -/
theorem Commit.requirements {ℓ : Label} {d : Db} {ws : List Write} {r' : Requirement}
    (commit : Commit ℓ d ws) (wf : Wf d) (member : r' ∈ (applyAll ws d).requirements) :
    (∃ r ∈ d.requirements, r' = onAll Write.onRequirement ws r ∧ RequirementChange ℓ r r') ∨
      ((∃ job reqs, ℓ = .jobCreated job reqs ∧ job.id = r'.jobId ∧ d.job job.id = none) ∨
        ℓ = .requirementCreated r') ∧
      r'.status = .OPEN ∧ r'.workerCountFilled = 0 ∧ 0 < r'.workerCountNeeded := by
  rcases requirementEffects.of_mem_applyAll member with
    ⟨r, old, rfl⟩ | ⟨before, w, rest, r, split, rfl, rfl⟩
  · exact Or.inl ⟨r, old, rfl, commit.requirementChange wf old⟩
  · have inserted : Write.insertRequirement r ∈ ws := by simp [split]
    have idle : (∀ w ∈ ws, ∀ r, w.onRequirement r = r) → onAll Write.onRequirement rest r = r :=
      fun all => onAll_of_forall (fun w member => all w (by simp [split, member])) r
    refine Or.inr ?_
    have added := commit.insertions inserted rfl
    have label : (∃ job reqs, ℓ = .jobCreated job reqs) ∨ ℓ = .requirementCreated r := by
      cases ℓ <;> simp_all [Label.adds]
    rcases label with ⟨job, reqs, rfl⟩ | rfl
    · cases commit with
      | quiet still => cases still _ inserted
      | jobCreated fresh _ rows =>
        rw [idle (by simp [Write.onRequirement])]
        obtain ⟨owned, opened, unfilled, positive⟩ := rows r (by simpa using inserted)
        exact ⟨Or.inl ⟨job, reqs, rfl, owned.symm, fresh⟩, opened, unfilled, positive⟩
    · cases commit with
      | quiet still => cases still _ inserted
      | requirementCreated opened unfilled positive _ _ =>
        rw [idle (by simp [Write.onRequirement])]
        exact ⟨Or.inr rfl, opened, unfilled, positive⟩

/-! ### Jobs -/

/-- How a commit may change a job's status. -/
inductive JobChange (ℓ : Label) (jobId : Id) : JobStatus → JobStatus → Prop
  | same {s : JobStatus} : JobChange ℓ jobId s s
  | dispatched (label : ℓ = .dispatchStarted jobId) : JobChange ℓ jobId .OPEN .DISPATCHING
  | cancelled {s : JobStatus} (label : ℓ = .jobCancelled jobId)
      (source : s ∈ [.OPEN, .DISPATCHING, .BOOKED, .IN_PROGRESS]) : JobChange ℓ jobId s .CANCELLED
  | booked {s : JobStatus} {b : Booking} (label : ℓ = .accepted b true true) (owned : b.jobId = jobId)
      (source : s ∈ [.OPEN, .DISPATCHING]) : JobChange ℓ jobId s .BOOKED
  | started {s : JobStatus} {id : Id} (label : ℓ = .workStarted id jobId true)
      (source : s ∈ [.DISPATCHING, .BOOKED]) : JobChange ℓ jobId s .IN_PROGRESS
  | completed {s : JobStatus} {id : Id} (label : ℓ = .completionConfirmed id jobId true)
      (source : s ∈ [.BOOKED, .IN_PROGRESS]) : JobChange ℓ jobId s .COMPLETED
  | reopened {s : JobStatus} {b : Booking} (label : ℓ = .bookingCancelled b true)
      (owned : b.jobId = jobId) (source : s ∈ [.BOOKED, .IN_PROGRESS]) :
    JobChange ℓ jobId s .DISPATCHING

def Write.isJobStatus : Write → Bool
  | .jobStatus _ _ => true
  | _ => false

theorem onJob_status {w : Write} (idle : w.isJobStatus = false) (j : Job) :
    (w.onJob j).status = j.status := by
  cases w with
  | jobStatus _ _ => cases idle
  | jobDispatchStatus _ _ =>
    simp only [Write.onJob]
    split <;> rfl
  | _ => rfl

theorem onJob_id (w : Write) (j : Job) : (w.onJob j).id = j.id := by
  cases w with
  | jobStatus _ _ | jobDispatchStatus _ _ =>
    simp only [Write.onJob]
    split <;> rfl
  | _ => rfl

theorem onAll_job_id (ws : List Write) (j : Job) : (onAll Write.onJob ws j).id = j.id :=
  onAll_same Job.id (fun w _ j => onJob_id w j) j

theorem onAll_job_status {ws : List Write} (idle : ∀ w ∈ ws, w.isJobStatus = false) (j : Job) :
    (onAll Write.onJob ws j).status = j.status :=
  onAll_same Job.status (fun w member j => onJob_status (idle w member) j) j

theorem isJobStatus_quiet {w : Write} (quiet : w.quiet = true) : w.isJobStatus = false := by
  cases w <;> first | rfl | cases quiet

section JobChanges

variable {ℓ : Label} {d : Db} {j now : Job} (wf : Wf d) (member : j ∈ d.jobs)
  (sameId : now.id = j.id) (sameStatus : now.status = j.status)

include wf member sameId sameStatus

/-- Writes that set the status of one job, and of no other, on a job whose status the
transaction has not changed yet. -/
theorem jobChange_of_set {jobId : Id} {sources : List JobStatus} {target : JobStatus}
    {rest : List Write} (idle : ∀ w ∈ rest, w.isJobStatus = false) (source : d.jobIn jobId sources)
    (change : ∀ s ∈ sources, JobChange ℓ jobId s target) :
    JobChange ℓ j.id j.status (onAll Write.onJob (.jobStatus jobId target :: rest) now).status := by
  rw [onAll_cons, onAll_job_status idle]
  simp only [Write.onJob, sameId, List.mem_singleton]
  split
  next mine =>
    obtain ⟨job, found, holds⟩ := source
    obtain rfl := Table.eq_of_find wf.jobIds found member mine
    exact mine ▸ change j.status holds
  next =>
    rw [sameStatus]
    exact .same

theorem JobStep.change {jobId : Id} {sources : List JobStatus} {target : JobStatus} {moved : Bool}
    {ws : List Write} (step : JobStep d jobId sources target moved ws)
    (change : ∀ s ∈ sources, moved = true → JobChange ℓ jobId s target) :
    JobChange ℓ j.id j.status (onAll Write.onJob ws now).status := by
  cases step with
  | kept =>
    rw [onAll_nil, sameStatus]
    exact .same
  | moved record source _ =>
    exact jobChange_of_set wf member sameId sameStatus (by simp [Write.isJobStatus]) source
      fun s holds => change s holds rfl

end JobChanges

theorem Commit.jobChange {ℓ : Label} {d : Db} {ws : List Write} {j : Job} (commit : Commit ℓ d ws)
    (wf : Wf d) (member : j ∈ d.jobs) :
    JobChange ℓ j.id j.status (onAll Write.onJob ws j).status := by
  have idle : (∀ w ∈ ws, w.isJobStatus = false) →
      JobChange ℓ j.id j.status (onAll Write.onJob ws j).status := by
    intro all
    rw [onAll_job_status all]
    exact .same
  have quieted : ∀ {ws : List Write}, (∀ w ∈ ws, w.quiet = true) → ∀ w ∈ ws, w.isJobStatus = false :=
    fun still w member => isJobStatus_quiet (still w member)
  cases commit with
  | quiet still => exact idle (quieted still)
  | jobCreated _ _ _ _ => exact idle (by simp [Write.isJobStatus])
  | dispatchStarted source _ =>
    refine jobChange_of_set wf member rfl rfl (by simp [Write.isJobStatus]) source ?_
    simp only [List.mem_singleton, forall_eq]
    exact .dispatched rfl
  | jobCancelled source _ still =>
    refine jobChange_of_set wf member rfl rfl ?_ source fun s holds => .cancelled rfl holds
    simpa [Write.isJobStatus] using quieted still
  | accepted _ _ _ _ _ _ _ _ _ _ _ closing =>
    cases closing with
    | booked offers record source _ =>
      iterate 6 rw [onAll_cons]
      exact jobChange_of_set wf member rfl rfl (by simp [Write.isJobStatus]) source
        fun s holds => .booked rfl rfl holds
    | _ => exact idle (by simp [Write.isJobStatus])
  | waveCommitted _ _ _ still =>
    refine idle ?_
    simp only [List.cons_append, List.mem_cons, List.mem_append, List.mem_map]
    rintro w (rfl | ⟨x, -, rfl⟩ | quiet)
    · rfl
    · rfl
    · exact isJobStatus_quiet (still w quiet)
  | workStarted _ _ _ _ step =>
    iterate 4 rw [onAll_cons]
    exact step.change wf member rfl rfl fun s holds moved => .started (by rw [moved]) holds
  | @completionConfirmed _ _ _ _ row own reviews job notices _ _ confirming still step noticed =>
    have noticeIdle : ∀ w ∈ notices, w.isJobStatus = false := by
      intro w member
      obtain ⟨worker, rfl⟩ := noticed w member
      rfl
    have ownIdle : ∀ w ∈ own ++ reviews, w.isJobStatus = false := by
      intro w member
      rcases List.mem_append.mp member with own | quiet
      · generalize row.status = status at confirming
        cases confirming <;> simp at own
        rcases own with rfl | rfl <;> rfl
      · exact isJobStatus_quiet (still w quiet)
    rw [onAll_append, onAll_job_status noticeIdle, onAll_append]
    exact step.change wf member (onAll_job_id _ _) (onAll_job_status ownIdle j)
      fun s holds moved => .completed (by rw [moved]) holds
  | bookingCancelled _ _ _ _ _ step _ =>
    iterate 5 rw [onAll_cons]
    rw [onAll_append, onAll_job_status (by simp [Write.isJobStatus])]
    exact step.change wf member rfl rfl fun s holds moved => .reopened (by rw [moved]) rfl holds
  | gaveUp still =>
    refine idle ?_
    simpa [or_imp, forall_and, Write.isJobStatus] using quieted still
  | _ => exact idle (by simp [Write.isJobStatus])

theorem Commit.jobs {ℓ : Label} {d : Db} {ws : List Write} {j' : Job} (commit : Commit ℓ d ws)
    (member : j' ∈ (applyAll ws d).jobs) :
    (∃ j ∈ d.jobs, j' = onAll Write.onJob ws j) ∨
      (∃ reqs, ℓ = .jobCreated j' reqs) ∧ j'.status = .OPEN ∧ d.job j'.id = none := by
  rcases jobEffects.of_mem_applyAll member with old | ⟨before, w, rest, j, split, rfl, rfl⟩
  · exact Or.inl old
  · have inserted : Write.insertJob j ∈ ws := by simp [split]
    have idle : (∀ w ∈ ws, ∀ j, w.onJob j = j) → onAll Write.onJob rest j = j :=
      fun all => onAll_of_forall (fun w member => all w (by simp [split, member])) j
    have added := commit.insertions inserted rfl
    obtain ⟨reqs, rfl⟩ : ∃ reqs, ℓ = .jobCreated j reqs := by cases ℓ <;> simp_all [Label.adds]
    cases commit with
    | quiet still => cases still _ inserted
    | jobCreated fresh opened _ =>
      rw [idle (by simp [Write.onJob])]
      exact Or.inr ⟨⟨reqs, rfl⟩, opened, fresh⟩

/-! ### Bookings -/

/-- How a commit may change a booking's status. -/
inductive BookingChange (ℓ : Label) (b : Booking) : BookingStatus → Prop
  | same : BookingChange ℓ b b.status
  | started {jobStarted : Bool} (label : ℓ = .workStarted b.id b.jobId jobStarted)
      (source : b.status = .CONFIRMED) : BookingChange ℓ b .IN_PROGRESS
  | requested (label : ℓ = .completionRequested b.id) (source : b.status = .IN_PROGRESS) :
    BookingChange ℓ b .AWAITING_CONFIRMATION
  | confirmed {jobCompleted : Bool} (label : ℓ = .completionConfirmed b.id b.jobId jobCompleted)
      (source : b.status = .AWAITING_CONFIRMATION) : BookingChange ℓ b .COMPLETED
  | cancelled {seen : Booking} {reopened : Bool} (label : ℓ = .bookingCancelled seen reopened)
      (same : b.core = seen.core) (running : b.status.isTerminal = false) :
    BookingChange ℓ b .CANCELLED

def Write.isBookingStatus : Write → Bool
  | .bookingStatus _ _ => true
  | _ => false

theorem onBooking_status {w : Write} (idle : w.isBookingStatus = false) (b : Booking) :
    (w.onBooking b).status = b.status := by
  cases w with
  | bookingStatus _ _ => cases idle
  | bookingOtpConsumed _ _ | bookingOtpAttempts _ _ _ =>
    simp only [Write.onBooking]
    split <;> rfl
  | _ => rfl

theorem onBooking_core (w : Write) (b : Booking) : (w.onBooking b).core = b.core := by
  cases w with
  | bookingStatus _ _ | bookingOtpConsumed _ _ | bookingOtpAttempts _ _ _ =>
    simp only [Write.onBooking]
    split <;> rfl
  | _ => rfl

theorem onAll_booking_core (ws : List Write) (b : Booking) :
    (onAll Write.onBooking ws b).core = b.core :=
  onAll_same Booking.core (fun w _ b => onBooking_core w b) b

theorem onAll_booking_status {ws : List Write} (idle : ∀ w ∈ ws, w.isBookingStatus = false)
    (b : Booking) : (onAll Write.onBooking ws b).status = b.status :=
  onAll_same Booking.status (fun w member b => onBooking_status (idle w member) b) b

theorem isBookingStatus_quiet {w : Write} (quiet : w.quiet = true) : w.isBookingStatus = false := by
  cases w <;> first | rfl | cases quiet

theorem isBookingStatus_jobStep {d : Db} {jobId : Id} {sources : List JobStatus}
    {target : JobStatus} {moved : Bool} {ws : List Write}
    (step : JobStep d jobId sources target moved ws) : ∀ w ∈ ws, w.isBookingStatus = false := by
  cases step <;> simp [Write.isBookingStatus]

/-- What a confirmation writes after the booking's own step. -/
theorem isBookingStatus_confirmed {d : Db} {id jobId : Id} {completed : Bool}
    {sources : List JobStatus} {target : JobStatus} {reviews job notices : List Write}
    (still : ∀ w ∈ reviews, w.quiet = true) (step : JobStep d jobId sources target completed job)
    (noticed : ∀ w ∈ notices, ∃ worker, w = .outbox (.bookingCompleted id worker)) :
    ∀ w ∈ reviews ++ job ++ notices, w.isBookingStatus = false := by
  intro w member
  rcases List.mem_append.mp member with member | member
  · rcases List.mem_append.mp member with member | member
    · exact isBookingStatus_quiet (still w member)
    · exact isBookingStatus_jobStep step w member
  · obtain ⟨worker, rfl⟩ := noticed w member
    rfl

/-- Writes whose first sets the status of one booking, and no other write any. -/
theorem bookingChange_of_set {ℓ : Label} {d : Db} {id : Id} {row b : Booking}
    {target : BookingStatus} {rest : List Write} (wf : Wf d) (member : b ∈ d.bookings)
    (idle : ∀ w ∈ rest, w.isBookingStatus = false) (booking : d.booking id = some row)
    (change : row.id = id → BookingChange ℓ row target) :
    BookingChange ℓ b (onAll Write.onBooking (.bookingStatus id target :: rest) b).status := by
  rw [onAll_cons, onAll_booking_status idle]
  simp only [Write.onBooking, List.mem_singleton]
  split
  next mine =>
    obtain rfl := Table.eq_of_find wf.bookingIds booking member mine
    exact change mine
  next => exact .same

theorem Commit.bookingChange {ℓ : Label} {d : Db} {ws : List Write} {b : Booking}
    (commit : Commit ℓ d ws) (wf : Wf d) (member : b ∈ d.bookings) :
    BookingChange ℓ b (onAll Write.onBooking ws b).status := by
  have idle : (∀ w ∈ ws, w.isBookingStatus = false) →
      BookingChange ℓ b (onAll Write.onBooking ws b).status := by
    intro all
    rw [onAll_booking_status all]
    exact .same
  have quieted : ∀ {ws : List Write}, (∀ w ∈ ws, w.quiet = true) →
      ∀ w ∈ ws, w.isBookingStatus = false :=
    fun still w member => isBookingStatus_quiet (still w member)
  cases commit with
  | quiet still => exact idle (quieted still)
  | jobCreated _ _ _ _ => exact idle (by simp [Write.isBookingStatus])
  | jobCancelled _ _ still _ =>
    exact idle (by simpa [Write.isBookingStatus] using quieted still)
  | accepted _ _ _ _ _ _ _ _ _ _ _ closing =>
    refine idle ?_
    cases closing <;> simp [Write.isBookingStatus]
  | waveCommitted _ _ _ still =>
    refine idle ?_
    simp only [List.cons_append, List.mem_cons, List.mem_append, List.mem_map]
    rintro w (rfl | ⟨x, -, rfl⟩ | quiet)
    · rfl
    · rfl
    · exact isBookingStatus_quiet (still w quiet)
  | workStarted booking confirmed owned _ step =>
    rw [onAll_cons]
    refine bookingChange_of_set wf member ?_ booking fun named => .started (by rw [named, owned]) confirmed
    simpa [Write.isBookingStatus] using isBookingStatus_jobStep step
  | completionRequested booking running _ =>
    exact bookingChange_of_set wf member (by simp [Write.isBookingStatus]) booking
      fun named => .requested (by rw [named]) running
  | @completionConfirmed _ _ _ _ row own reviews job notices booking owned confirming still step
      noticed =>
    have tail := isBookingStatus_confirmed still step noticed
    rw [List.append_assoc, List.append_assoc, ← List.append_assoc reviews]
    cases awaiting : row.status <;> rw [awaiting] at confirming <;> cases confirming
    case AWAITING_CONFIRMATION.confirmed record recorded =>
      refine bookingChange_of_set wf member ?_ booking
        fun named => .confirmed (by rw [named, owned]) awaiting
      simpa [Write.isBookingStatus] using tail
    case COMPLETED.repeated =>
      rw [List.nil_append, onAll_booking_status tail]
      exact .same
  | bookingCancelled booking same running _ _ step _ =>
    refine bookingChange_of_set wf member ?_ booking fun _ => .cancelled rfl same running
    simpa [or_imp, forall_and, Write.isBookingStatus] using isBookingStatus_jobStep step
  | gaveUp still =>
    refine idle ?_
    simpa [or_imp, forall_and, Write.isBookingStatus] using quieted still
  | _ => exact idle (by simp [Write.isBookingStatus])

theorem Commit.bookings {ℓ : Label} {d : Db} {ws : List Write} {b' : Booking}
    (commit : Commit ℓ d ws) (member : b' ∈ (applyAll ws d).bookings) :
    (∃ b ∈ d.bookings, b' = onAll Write.onBooking ws b) ∨
      (∃ nowFilled booked, ℓ = .accepted b' nowFilled booked) ∧
        (∃ row, d.requirement b'.requirementId = some row ∧ row.status ≠ .CANCELLED) ∧
        d.booking b'.id = none ∧ b'.status = .CONFIRMED := by
  rcases bookingEffects.of_mem_applyAll member with old | ⟨before, w, rest, b, split, rfl, rfl⟩
  · exact Or.inl old
  · have inserted : Write.insertBooking b ∈ ws := by simp [split]
    have idle : (∀ w ∈ ws, ∀ b, w.onBooking b = b) → onAll Write.onBooking rest b = b :=
      fun all => onAll_of_forall (fun w member => all w (by simp [split, member])) b
    have added := commit.insertions inserted rfl
    obtain ⟨nowFilled, booked, rfl⟩ : ∃ nowFilled booked, ℓ = .accepted b nowFilled booked := by
      cases ℓ <;> simp_all [Label.adds]
    cases commit with
    | quiet still => cases still _ inserted
    | accepted requirement _ active _ _ confirmed _ freshId _ _ _ closing =>
      rw [idle (by cases closing <;> simp [Write.onBooking])]
      exact Or.inr ⟨⟨nowFilled, booked, rfl⟩, ⟨_, requirement, active.1⟩, freshId, confirmed⟩

/-! ### Offers -/

theorem onDispatch_pending {w : Write} {x : Dispatch} (quiet : ∀ offers, w ≠ .dispatchStatus offers .pending)
    (pending : (w.onDispatch x).status = .pending) : w.onDispatch x = x := by
  cases w with
  | dispatchStatus offers s =>
    simp only [Write.onDispatch] at pending ⊢
    split at pending
    · simp only at pending
      exact absurd (congrArg _ pending) (quiet offers)
    next miss => rw [if_neg miss]
  | _ => rfl

theorem onAll_dispatch_pending {ws : List Write} {x : Dispatch}
    (quiet : ∀ offers, .dispatchStatus offers .pending ∉ ws)
    (pending : (onAll Write.onDispatch ws x).status = .pending) : onAll Write.onDispatch ws x = x := by
  induction ws generalizing x with
  | nil => rfl
  | cons w ws ih =>
    simp only [List.mem_cons, not_or] at quiet
    rw [onAll_cons] at pending ⊢
    have rest := ih (fun offers => (quiet offers).2) pending
    rw [rest] at pending ⊢
    exact onDispatch_pending (fun offers same => (quiet offers).1 same.symm) pending

/-- No statement makes an offer pending again. -/
theorem Commit.offers {ℓ : Label} {d : Db} {ws : List Write} (commit : Commit ℓ d ws)
    (offers : List (Id × Id)) : .dispatchStatus offers .pending ∉ ws := by
  have quieted : ∀ {ws : List Write}, (∀ w ∈ ws, w.quiet = true) →
      .dispatchStatus offers .pending ∉ ws := fun still member => by simpa [Write.quiet] using still _ member
  cases commit with
  | quiet still => exact quieted still
  | jobCreated _ _ _ _ => simp
  | jobCancelled _ _ still _ => simpa using quieted still
  | accepted _ _ _ _ _ _ _ _ _ _ _ closing => cases closing <;> simp
  | waveCommitted _ _ _ still => simpa using quieted still
  | workStarted _ _ _ _ step => cases step <;> simp
  | @completionConfirmed _ _ _ _ row _ _ _ notices _ _ confirming still step noticed =>
    have silent : Write.dispatchStatus offers .pending ∉ notices := fun member => by
      obtain ⟨_, same⟩ := noticed _ member
      cases same
    generalize row.status = status at confirming
    cases confirming <;> cases step <;> simp [quieted still, silent]
  | bookingCancelled _ _ _ _ _ step _ => cases step <;> simp
  | gaveUp still => simpa using quieted still
  | _ => simp

/-- A pending offer after a commit was pending before, or is one of a new wave. -/
theorem Commit.pendingOffer {ℓ : Label} {d : Db} {ws : List Write} {x : Dispatch}
    (commit : Commit ℓ d ws) (member : x ∈ (applyAll ws d).dispatches)
    (pending : x.status = .pending) :
    x ∈ d.dispatches ∨ ∃ waveNumber, ℓ = .waveCommitted x.requirementId waveNumber := by
  rcases dispatchEffects.of_mem_applyAll member with
    ⟨old, present, rfl⟩ | ⟨before, w, rest, new, split, rfl, rfl⟩
  · rw [onAll_dispatch_pending commit.offers pending]
    exact Or.inl present
  · have inserted : Write.insertDispatch new ∈ ws := by simp [split]
    have quiet : ∀ offers, .dispatchStatus offers .pending ∉ rest := fun offers later =>
      commit.offers offers (by simp [split, later])
    rw [onAll_dispatch_pending quiet pending]
    have added := commit.insertions inserted rfl
    exact Or.inr (by cases ℓ <;> simp_all [Label.adds])

end LabourBaba.Market
