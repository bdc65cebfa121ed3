import LabourBaba.Store.Table
import LabourBaba.Store.Prog
import Mathlib

/-!
# The marketplace schema

Jobs, their requirements, the dispatch waves that offer a requirement to workers,
the offers, and the bookings that accepted offers become. Statuses are the canonical
values the lifecycle CHECK constraints admit, under the names the source writes.
Identifiers are numbers and instants are milliseconds. The two BullMQ queues stand
beside the tables: no transaction covers them.

A write sets the columns that one UPDATE sets, or inserts one row; inserts are
refused by the unique constraints (requirement, worker) on bookings and offers and
(requirement, wave number) on waves.
-/
namespace LabourBaba.Market

open Store

abbrev Id := Nat

/-- A free text as its characters. -/
abbrev Text := List Char

inductive JobStatus where
  | OPEN | DISPATCHING | BOOKED | IN_PROGRESS | COMPLETED | CANCELLED
deriving DecidableEq, Repr

inductive JobAction where
  | CREATE | START_DISPATCH | MARK_BOOKED | REOPEN_DISPATCH | START_WORK | COMPLETE | CANCEL
deriving DecidableEq, Repr

/-- The values of `job.dispatch_status` that are written. -/
inductive JobDispatchStatus where
  | IDLE | FILLED
deriving DecidableEq, Repr

inductive RequirementStatus where
  | OPEN | DISPATCHING | PARTIALLY_FILLED | FILLED | NO_WORKERS_AVAILABLE | CANCELLED
deriving DecidableEq, Repr

inductive BookingStatus where
  | CONFIRMED | IN_PROGRESS | AWAITING_CONFIRMATION | COMPLETED | CANCELLED
deriving DecidableEq, Repr

inductive BookingAction where
  | CREATE | START_WORK | REQUEST_COMPLETION | CONFIRM_COMPLETION | CANCEL
deriving DecidableEq, Repr

inductive DispatchStatus where
  | pending | accepted | declined | timeout | cancelled | expired
deriving DecidableEq, Repr

inductive WaveStatus where
  | active | exhausted
deriving DecidableEq, Repr

/-- `UserRole`, and the roles under which the services act themselves. -/
inductive Role where
  | CUSTOMER | WORKER | ADMIN | SYSTEM | DISPATCH_WORKER
deriving DecidableEq, Repr

structure AuthenticatedUser where
  id : Id
  role : Role
deriving DecidableEq, Repr

structure TransitionActor where
  id : Option Id := none
  role : Role
deriving DecidableEq, Repr

/-! ### Rows -/

structure Job where
  id : Id
  customerId : Id
  latitude : Option Rat
  longitude : Option Rat
  status : JobStatus
  dispatchStatus : JobDispatchStatus
deriving DecidableEq, Repr

structure Requirement where
  id : Id
  jobId : Id
  workerCountNeeded : Nat
  workerCountFilled : Nat
  status : RequirementStatus
deriving DecidableEq, Repr

structure Booking where
  id : Id
  jobId : Id
  requirementId : Id
  workerId : Id
  customerId : Id
  status : BookingStatus
  otpHash : Nat
  otpExpiresAt : Nat
  otpAttempts : Nat
  otpLockedAt : Option Nat := none
  otpConsumedAt : Option Nat := none
  otpVerified : Bool := false
deriving DecidableEq, Repr

/-- An offer of a requirement to a worker: a `job_dispatch` row. -/
structure Dispatch where
  requirementId : Id
  workerId : Id
  waveNumber : Nat
  wavePosition : Nat
  status : DispatchStatus
  expiresAt : Option Nat
deriving DecidableEq, Repr

def Dispatch.key (x : Dispatch) : Id × Id := (x.requirementId, x.workerId)

structure Wave where
  requirementId : Id
  waveNumber : Nat
  workersNotified : Nat
  status : WaveStatus
  notifiedAt : Nat
deriving DecidableEq, Repr

def Wave.key (w : Wave) : Id × Nat := (w.requirementId, w.waveNumber)

def Booking.slot (b : Booking) : Id × Id := (b.requirementId, b.workerId)

/-- The idempotency keys of the notification outbox. -/
inductive OutboxKey where
  | bookingConfirmed (booking customer : Id)
  | bookingCompleted (booking worker : Id)
  | bookingCancelled (booking : Id) (recipientType : Role) (recipient : Id)
  | incomingJob (requirement : Id) (waveNumber : Nat) (worker : Id)
deriving DecidableEq, Repr

structure JobTransition where
  jobId : Id
  /-- `none` for the initial record, whose from_status is the text INITIAL. -/
  fromStatus : Option JobStatus
  toStatus : JobStatus
  action : JobAction
  actorType : Role
  actorId : Option Id
deriving DecidableEq, Repr

structure BookingTransition where
  bookingId : Id
  fromStatus : BookingStatus
  toStatus : BookingStatus
  action : BookingAction
  actorType : Role
  actorId : Option Id
deriving DecidableEq, Repr

/-- A guess at a booking's OTP that was compared with the hash. -/
structure OtpGuess where
  bookingId : Id
  otp : Nat
  at_ : Nat
  matched : Bool
deriving DecidableEq, Repr

structure Review where
  bookingId : Id
  workerId : Id
  customerId : Id
  rating : Nat
deriving DecidableEq, Repr

/-! ### Queues -/

/-- A `dispatch-wave` job; its BullMQ id is made of the requirement and the wave. -/
structure DispatchJobData where
  requirementId : Id
  jobId : Id
  waveNumber : Nat := 1
  offset : Nat := 0
deriving DecidableEq, Repr

def DispatchJobData.key (q : DispatchJobData) : Id × Nat := (q.requirementId, q.waveNumber)

/-- A `wave-timeout` job. Restored timeouts leave the last two fields undefined. -/
structure TimeoutJobData where
  requirementId : Id
  jobId : Id
  waveNumber : Nat
  totalWorkersFound : Nat := 0
  offset : Nat := 0
  waveSize : Nat := 0
  hasMoreCandidates : Option Bool := none
  candidatesExhausted : Option Bool := none
deriving DecidableEq, Repr

def TimeoutJobData.key (q : TimeoutJobData) : Id × Nat := (q.requirementId, q.waveNumber)

structure Db where
  now : Nat := 0
  jobs : List Job := []
  requirements : List Requirement := []
  bookings : List Booking := []
  dispatches : List Dispatch := []
  waves : List Wave := []
  declineCounts : List Id := []
  outbox : List OutboxKey := []
  reviews : List Review := []
  jobTransitions : List JobTransition := []
  bookingTransitions : List BookingTransition := []
  dispatchQueue : List DispatchJobData := []
  timeoutQueue : List TimeoutJobData := []
  /-- The guesses that committed transactions have compared, a history nothing reads. -/
  guesses : List OtpGuess := []
deriving DecidableEq, Repr

namespace Db

def job (d : Db) (id : Id) : Option Job := Table.find Job.id d.jobs id

def requirement (d : Db) (id : Id) : Option Requirement :=
  Table.find Requirement.id d.requirements id

def booking (d : Db) (id : Id) : Option Booking := Table.find Booking.id d.bookings id

def dispatch (d : Db) (requirementId workerId : Id) : Option Dispatch :=
  Table.find Dispatch.key d.dispatches (requirementId, workerId)

def wave (d : Db) (requirementId : Id) (waveNumber : Nat) : Option Wave :=
  Table.find Wave.key d.waves (requirementId, waveNumber)

def slotTaken (d : Db) (requirementId workerId : Id) : Bool :=
  d.bookings.any fun b => decide (b.slot = (requirementId, workerId))

end Db

/-! ### Writes -/

inductive Write where
  | insertJob (job : Job)
  | jobStatus (id : Id) (status : JobStatus)
  | jobDispatchStatus (id : Id) (status : JobDispatchStatus)
  | insertRequirement (requirement : Requirement)
  | requirementStatus (ids : List Id) (status : RequirementStatus)
  | requirementFilled (id : Id) (filled : Nat)
  | requirementNeeded (id : Id) (needed : Nat)
  | insertBooking (booking : Booking)
  | bookingStatus (id : Id) (status : BookingStatus)
  | bookingOtpConsumed (id : Id) (at_ : Nat)
  | bookingOtpAttempts (id : Id) (attempts : Nat) (lockedAt : Option Nat)
  | insertDispatch (dispatch : Dispatch)
  | dispatchStatus (offers : List (Id × Id)) (status : DispatchStatus)
  | insertWave (wave : Wave)
  | exhaustWave (requirementId : Id) (waveNumber : Nat)
  | declineCount (worker : Id)
  | outbox (key : OutboxKey)
  | review (review : Review)
  | jobTransition (record : JobTransition)
  | bookingTransition (record : BookingTransition)
  | addDispatchJob (data : DispatchJobData)
  | addTimeoutJob (data : TimeoutJobData)
  | guessed (guess : OtpGuess)
  | tick
deriving DecidableEq, Repr

/-! What the primary keys and unique indexes refuse. -/

def Job.clash (new old : Job) : Bool := decide (new.id = old.id)

def Requirement.clash (new old : Requirement) : Bool := decide (new.id = old.id)

def Booking.clash (new old : Booking) : Bool :=
  decide (new.id = old.id ∨ new.slot = old.slot)

def Dispatch.clash (new old : Dispatch) : Bool := decide (new.key = old.key)

def Wave.clash (new old : Wave) : Bool := decide (new.key = old.key)

def DispatchJobData.clash (new old : DispatchJobData) : Bool := decide (new.key = old.key)

def TimeoutJobData.clash (new old : TimeoutJobData) : Bool := decide (new.key = old.key)

def Write.apply (w : Write) (d : Db) : Db :=
  match w with
  | .insertJob j => { d with jobs := Table.insert Job.clash d.jobs j }
  | .jobStatus id s =>
    { d with jobs := Table.modify Job.id d.jobs [id] fun j => { j with status := s } }
  | .jobDispatchStatus id s =>
    { d with jobs := Table.modify Job.id d.jobs [id] fun j => { j with dispatchStatus := s } }
  | .insertRequirement r =>
    { d with requirements := Table.insert Requirement.clash d.requirements r }
  | .requirementStatus ids s =>
    { d with requirements :=
        Table.modify Requirement.id d.requirements ids fun r => { r with status := s } }
  | .requirementFilled id n =>
    { d with requirements :=
        Table.modify Requirement.id d.requirements [id] fun r => { r with workerCountFilled := n } }
  | .requirementNeeded id n =>
    { d with requirements :=
        Table.modify Requirement.id d.requirements [id] fun r => { r with workerCountNeeded := n } }
  | .insertBooking b => { d with bookings := Table.insert Booking.clash d.bookings b }
  | .bookingStatus id s =>
    { d with bookings := Table.modify Booking.id d.bookings [id] fun b => { b with status := s } }
  | .bookingOtpConsumed id t =>
    { d with bookings := Table.modify Booking.id d.bookings [id] fun b =>
        { b with otpVerified := true, otpConsumedAt := some t } }
  | .bookingOtpAttempts id n locked =>
    { d with bookings := Table.modify Booking.id d.bookings [id] fun b =>
        { b with otpAttempts := n, otpLockedAt := locked } }
  | .insertDispatch x =>
    { d with dispatches := Table.insert Dispatch.clash d.dispatches x }
  | .dispatchStatus offers s =>
    { d with dispatches :=
        Table.modify Dispatch.key d.dispatches offers fun x => { x with status := s } }
  | .insertWave w =>
    { d with waves := Table.insert Wave.clash d.waves w }
  | .exhaustWave r n =>
    { d with waves := Table.modify Wave.key d.waves [(r, n)] fun w =>
        { w with status := .exhausted } }
  | .declineCount w => { d with declineCounts := w :: d.declineCounts }
  | .outbox k => { d with outbox := if k ∈ d.outbox then d.outbox else k :: d.outbox }
  | .review r => { d with reviews := d.reviews ++ [r] }
  | .jobTransition t => { d with jobTransitions := d.jobTransitions ++ [t] }
  | .bookingTransition t => { d with bookingTransitions := d.bookingTransitions ++ [t] }
  | .addDispatchJob q =>
    { d with dispatchQueue := Table.insert DispatchJobData.clash d.dispatchQueue q }
  | .addTimeoutJob q =>
    { d with timeoutQueue := Table.insert TimeoutJobData.clash d.timeoutQueue q }
  | .guessed g => { d with guesses := d.guesses ++ [g] }
  | .tick => { d with now := d.now + 1 }

/-! ### Row locks -/

/-- The rows and unique index entries that statements lock. -/
inductive Key where
  | job (id : Id)
  | requirement (id : Id)
  | booking (id : Id)
  | slot (requirementId workerId : Id)
  | dispatch (requirementId workerId : Id)
  | wave (requirementId : Id) (waveNumber : Nat)
deriving DecidableEq, Repr

def Write.keys : Write → List Key
  | .insertJob j => [.job j.id]
  | .jobStatus id _ | .jobDispatchStatus id _ => [.job id]
  | .insertRequirement r => [.requirement r.id]
  | .requirementStatus ids _ => ids.map .requirement
  | .requirementFilled id _ | .requirementNeeded id _ => [.requirement id]
  | .insertBooking b => [.booking b.id, .slot b.requirementId b.workerId]
  | .bookingStatus id _ | .bookingOtpConsumed id _ | .bookingOtpAttempts id _ _ => [.booking id]
  | .insertDispatch x => [.dispatch x.requirementId x.workerId]
  | .dispatchStatus offers _ => offers.map fun offer => .dispatch offer.1 offer.2
  | .insertWave w => [.wave w.requirementId w.waveNumber]
  | .exhaustWave r n => [.wave r n]
  | .declineCount _ | .outbox _ | .review _ | .jobTransition _ | .bookingTransition _
  | .addDispatchJob _ | .addTimeoutJob _ | .guessed _ | .tick => []

abbrev Key.Row : Key → Type
  | .job _ => Option Job
  | .requirement _ => Option Requirement
  | .booking _ => Option Booking
  | .slot _ _ => Bool
  | .dispatch _ _ => Option Dispatch
  | .wave _ _ => Option Wave

def Db.row (d : Db) : (k : Key) → k.Row
  | .job id => d.job id
  | .requirement id => d.requirement id
  | .booking id => d.booking id
  | .slot r w => d.slotTaken r w
  | .dispatch r w => d.dispatch r w
  | .wave r n => d.wave r n

private theorem any_slot_modify (bookings : List Booking) (ids : List Id) (f : Booking → Booking)
    (keeps : ∀ b, (f b).slot = b.slot) (slot : Id × Id) :
    (Table.modify Booking.id bookings ids f).any (fun b => decide (b.slot = slot)) =
      bookings.any (fun b => decide (b.slot = slot)) := by
  simp only [Table.modify, List.any_map]
  congr 1
  funext b
  simp only [Function.comp]
  split
  · rw [keeps]
  · rfl

private theorem any_slot_insert (bookings : List Booking) (b : Booking) (slot : Id × Id)
    (other : b.slot ≠ slot) :
    (Table.insert Booking.clash bookings b).any (fun b => decide (b.slot = slot)) =
      bookings.any (fun b => decide (b.slot = slot)) := by
  simp only [Table.insert]
  split
  · rfl
  · simp [other]

theorem Write.row_apply (w : Write) (d : Db) (k : Key) (untouched : k ∉ w.keys) :
    (w.apply d).row k = d.row k := by
  cases k with
  | job id =>
    cases w with
    | insertJob j =>
      have other : j.id ≠ id := fun h => untouched (by simp [Write.keys, h])
      simp only [Db.row, Db.job, Write.apply, Table.find_insert_of_ne other]
    | jobStatus i s =>
      exact Table.find_modify_of_notMem _ _ _ _ (fun _ => rfl) (by simpa [Write.keys] using untouched)
    | jobDispatchStatus i s =>
      exact Table.find_modify_of_notMem _ _ _ _ (fun _ => rfl) (by simpa [Write.keys] using untouched)
    | _ => rfl
  | requirement id =>
    cases w with
    | insertRequirement r =>
      have other : r.id ≠ id := fun h => untouched (by simp [Write.keys, h])
      simp only [Db.row, Db.requirement, Write.apply, Table.find_insert_of_ne other]
    | requirementStatus ids s =>
      exact Table.find_modify_of_notMem _ _ _ _ (fun _ => rfl) (by simpa [Write.keys] using untouched)
    | requirementFilled i n =>
      exact Table.find_modify_of_notMem _ _ _ _ (fun _ => rfl) (by simpa [Write.keys] using untouched)
    | requirementNeeded i n =>
      exact Table.find_modify_of_notMem _ _ _ _ (fun _ => rfl) (by simpa [Write.keys] using untouched)
    | _ => rfl
  | booking id =>
    cases w with
    | insertBooking b =>
      have other : b.id ≠ id := fun h => untouched (by simp [Write.keys, h])
      simp only [Db.row, Db.booking, Write.apply, Table.find_insert_of_ne other]
    | bookingStatus i s =>
      exact Table.find_modify_of_notMem _ _ _ _ (fun _ => rfl) (by simpa [Write.keys] using untouched)
    | bookingOtpConsumed i t =>
      exact Table.find_modify_of_notMem _ _ _ _ (fun _ => rfl) (by simpa [Write.keys] using untouched)
    | bookingOtpAttempts i n l =>
      exact Table.find_modify_of_notMem _ _ _ _ (fun _ => rfl) (by simpa [Write.keys] using untouched)
    | _ => rfl
  | slot r w' =>
    cases w with
    | insertBooking b =>
      have other : b.slot ≠ (r, w') := by
        rintro same
        obtain ⟨rfl, rfl⟩ := Prod.mk.inj same
        exact untouched (by simp [Write.keys])
      simp only [Db.row, Db.slotTaken, Write.apply, any_slot_insert _ _ _ other]
    | bookingStatus i s =>
      simp only [Db.row, Db.slotTaken, Write.apply]
      exact any_slot_modify _ _ _ (by intro b; rfl) _
    | bookingOtpConsumed i t =>
      simp only [Db.row, Db.slotTaken, Write.apply]
      exact any_slot_modify _ _ _ (by intro b; rfl) _
    | bookingOtpAttempts i n l =>
      simp only [Db.row, Db.slotTaken, Write.apply]
      exact any_slot_modify _ _ _ (by intro b; rfl) _
    | _ => rfl
  | dispatch r w' =>
    cases w with
    | insertDispatch x =>
      have other : x.key ≠ (r, w') := by
        rintro same
        obtain ⟨rfl, rfl⟩ := Prod.mk.inj same
        exact untouched (by simp [Write.keys])
      simp only [Db.row, Db.dispatch, Write.apply, Table.find_insert_of_ne other]
    | dispatchStatus offers s =>
      refine Table.find_modify_of_notMem _ _ _ _ (fun _ => rfl) fun member => untouched ?_
      exact List.mem_map.mpr ⟨(r, w'), member, rfl⟩
    | _ => rfl
  | wave r n =>
    cases w with
    | insertWave x =>
      have other : x.key ≠ (r, n) := by
        rintro same
        obtain ⟨rfl, rfl⟩ := Prod.mk.inj same
        exact untouched (by simp [Write.keys])
      simp only [Db.row, Db.wave, Write.apply, Table.find_insert_of_ne other]
    | exhaustWave r' n' =>
      refine Table.find_modify_of_notMem _ _ _ _ (fun _ => rfl) fun member => untouched ?_
      obtain ⟨rfl, rfl⟩ := Prod.mk.inj (List.mem_singleton.mp member)
      simp [Write.keys]
    | _ => rfl

instance : RowStore Db Write Key where
  Row := Key.Row
  row := Db.row
  write := Write.apply
  keys := Write.keys
  row_write := Write.row_apply

@[simp] theorem write_eq_apply (w : Write) (d : Db) : write w d = w.apply d := rfl

@[simp] theorem keys_eq (w : Write) : keys Db w = w.keys := rfl

end LabourBaba.Market
