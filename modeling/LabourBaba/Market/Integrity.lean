import LabourBaba.Market.System

/-!
# Integrity of the store

What every committed state satisfies, whatever the calls interleave: the rows refer to
rows that exist, demands are positive, an unstarted booking's OTP is unused, and the
capacity ledger balances. `Later` is what no write can undo: rows stay, with their
identifying columns; it is what a call may rely on without holding a lock.
-/
namespace LabourBaba.Market

open Store

/-! ### What no write undoes -/

def Job.core (j : Job) : Id × Id × Option Rat × Option Rat :=
  (j.id, j.customerId, j.latitude, j.longitude)

def Requirement.core (r : Requirement) : Id × Id := (r.id, r.jobId)

def Booking.core (b : Booking) : Id × Id × Id × Id × Id × Nat × Nat :=
  (b.id, b.jobId, b.requirementId, b.workerId, b.customerId, b.otpHash, b.otpExpiresAt)

theorem Booking.jobId_of_core {b c : Booking} (same : b.core = c.core) : b.jobId = c.jobId :=
  congrArg (fun columns => columns.2.1) same

theorem Booking.workerId_of_core {b c : Booking} (same : b.core = c.core) :
    b.workerId = c.workerId :=
  congrArg (·.2.2.2.1) same

theorem Booking.requirementId_of_core {b c : Booking} (same : b.core = c.core) :
    b.requirementId = c.requirementId :=
  congrArg (fun columns => columns.2.2.1) same

def Dispatch.core (x : Dispatch) : (Id × Id) × Nat × Nat × Option Nat :=
  (x.key, x.waveNumber, x.wavePosition, x.expiresAt)

def Wave.core (w : Wave) : (Id × Nat) × Nat × Nat := (w.key, w.workersNotified, w.notifiedAt)

structure Later (d d' : Db) : Prop where
  jobs : Table.Evolves Job.core d.jobs d'.jobs
  requirements : Table.Evolves Requirement.core d.requirements d'.requirements
  bookings : Table.Evolves Booking.core d.bookings d'.bookings
  dispatches : Table.Evolves Dispatch.core d.dispatches d'.dispatches
  waves : Table.Evolves Wave.core d.waves d'.waves
  /-- A wave is closed once and for all. -/
  exhausted : ∀ r n w, d.wave r n = some w → w.status = .exhausted →
    ∃ w', d'.wave r n = some w' ∧ w'.status = .exhausted
  timeouts : ∀ q ∈ d.timeoutQueue, q ∈ d'.timeoutQueue

namespace Later

theorem refl (d : Db) : Later d d where
  jobs := .refl _
  requirements := .refl _
  bookings := .refl _
  dispatches := .refl _
  waves := .refl _
  exhausted _ _ w found closed := ⟨w, found, closed⟩
  timeouts _ member := member

theorem trans {d d' d'' : Db} (first : Later d d') (second : Later d' d'') : Later d d'' where
  jobs := first.jobs.trans second.jobs
  requirements := first.requirements.trans second.requirements
  bookings := first.bookings.trans second.bookings
  dispatches := first.dispatches.trans second.dispatches
  waves := first.waves.trans second.waves
  exhausted r n w found closed := by
    obtain ⟨w', found', closed'⟩ := first.exhausted r n w found closed
    exact second.exhausted r n w' found' closed'
  timeouts q member := second.timeouts q (first.timeouts q member)

theorem write (w : Write) (d : Db) : Later d (w.apply d) := by
  have same := refl d
  cases w with
  | insertJob j => exact { same with jobs := .of_insert _ _ }
  | jobStatus id s => exact { same with jobs := .of_modify _ _ fun _ => rfl }
  | jobDispatchStatus id s => exact { same with jobs := .of_modify _ _ fun _ => rfl }
  | insertRequirement r => exact { same with requirements := .of_insert _ _ }
  | requirementStatus ids s => exact { same with requirements := .of_modify _ _ fun _ => rfl }
  | requirementFilled id n => exact { same with requirements := .of_modify _ _ fun _ => rfl }
  | requirementNeeded id n => exact { same with requirements := .of_modify _ _ fun _ => rfl }
  | insertBooking b => exact { same with bookings := .of_insert _ _ }
  | bookingStatus id s => exact { same with bookings := .of_modify _ _ fun _ => rfl }
  | bookingOtpConsumed id t => exact { same with bookings := .of_modify _ _ fun _ => rfl }
  | bookingOtpAttempts id n l => exact { same with bookings := .of_modify _ _ fun _ => rfl }
  | insertDispatch x => exact { same with dispatches := .of_insert _ _ }
  | dispatchStatus offers s => exact { same with dispatches := .of_modify _ _ fun _ => rfl }
  | insertWave x =>
    exact { same with
      waves := .of_insert _ _
      exhausted := fun r n w found closed => ⟨w, Table.find_insert_of_some found, closed⟩ }
  | exhaustWave r' n' =>
    refine { same with waves := .of_modify _ _ fun _ => rfl, exhausted := ?_ }
    intro r n w found closed
    have lookup : Table.find Wave.key d.waves (r, n) = some w := found
    simp only [Db.wave, Write.apply]
    rw [Table.find_modify, lookup]
    · refine ⟨_, rfl, ?_⟩
      dsimp only
      split
      · rfl
      · exact closed
    · exact fun _ => rfl
  | addTimeoutJob q => exact { same with timeouts := fun _ member => Table.mem_insert_of_mem member }
  | _ => exact { same with }

theorem applyAll (ws : List Write) (d : Db) : Later d (Store.applyAll ws d) := by
  induction ws generalizing d with
  | nil => exact refl d
  | cons w ws ih => exact (write w d).trans (ih _)

variable {d d' : Db}

theorem job (later : Later d d') {id : Id} {j : Job} (found : d.job id = some j) :
    ∃ j', d'.job id = some j' ∧ j'.customerId = j.customerId := by
  obtain ⟨j', found', same⟩ := later.jobs.find Job.id Prod.fst (fun _ => rfl) found
  exact ⟨j', found', congrArg (fun c => c.2.1) same⟩

theorem requirement (later : Later d d') {id : Id} {r : Requirement}
    (found : d.requirement id = some r) :
    ∃ r', d'.requirement id = some r' ∧ r'.jobId = r.jobId := by
  obtain ⟨r', found', same⟩ :=
    later.requirements.find Requirement.id Prod.fst (fun _ => rfl) found
  exact ⟨r', found', congrArg Prod.snd same⟩

theorem booking (later : Later d d') {id : Id} {b : Booking} (found : d.booking id = some b) :
    ∃ b', d'.booking id = some b' ∧ b'.core = b.core :=
  later.bookings.find Booking.id Prod.fst (fun _ => rfl) found

end Later

/-! ### Referential integrity -/

structure Wf (d : Db) : Prop where
  jobIds : Table.Unique Job.id d.jobs
  requirementIds : Table.Unique Requirement.id d.requirements
  bookingIds : Table.Unique Booking.id d.bookings
  requirementJob : ∀ r ∈ d.requirements, ∃ j ∈ d.jobs, j.id = r.jobId
  bookingRequirement : ∀ b ∈ d.bookings, ∃ r ∈ d.requirements,
    r.id = b.requirementId ∧ r.jobId = b.jobId
  bookingJob : ∀ b ∈ d.bookings, ∃ j ∈ d.jobs, j.id = b.jobId ∧ j.customerId = b.customerId
  bookingOffer : ∀ b ∈ d.bookings, ∃ x ∈ d.dispatches, x.key = b.slot
  offerWave : ∀ x ∈ d.dispatches, ∃ w ∈ d.waves, w.key = (x.requirementId, x.waveNumber)
  demand : ∀ r ∈ d.requirements, 0 < r.workerCountNeeded
  otpUnused : ∀ b ∈ d.bookings, b.status = .CONFIRMED →
    b.otpConsumedAt = none ∧ b.otpVerified = false
  completedNotice : ∀ id w, .bookingCompleted id w ∈ d.outbox →
    ∃ b ∈ d.bookings, b.id = id ∧ b.status = .COMPLETED
  cancelledNotice : ∀ id t w, .bookingCancelled id t w ∈ d.outbox →
    ∃ b ∈ d.bookings, b.id = id ∧ b.status = .CANCELLED

/-- What a write has to respect so that the store stays well formed. -/
def Sane (d : Db) : Write → Prop
  | .insertRequirement r => 0 < r.workerCountNeeded ∧ ∃ j ∈ d.jobs, j.id = r.jobId
  | .requirementNeeded _ n => 0 < n
  | .insertBooking b =>
    (∃ r ∈ d.requirements, r.id = b.requirementId ∧ r.jobId = b.jobId) ∧
    (∃ j ∈ d.jobs, j.id = b.jobId ∧ j.customerId = b.customerId) ∧
    (∃ x ∈ d.dispatches, x.key = b.slot) ∧ b.otpConsumedAt = none ∧ b.otpVerified = false
  | .bookingStatus id s =>
    s ≠ .CONFIRMED ∧ ∀ b ∈ d.bookings, b.id = id → b.status.isTerminal = false
  | .bookingOtpConsumed id _ => ∀ b ∈ d.bookings, b.id = id → b.status ≠ .CONFIRMED
  | .insertDispatch x => ∃ w ∈ d.waves, w.key = (x.requirementId, x.waveNumber)
  | .outbox (.bookingCompleted id _) => ∃ b ∈ d.bookings, b.id = id ∧ b.status = .COMPLETED
  | .outbox (.bookingCancelled id _ _) => ∃ b ∈ d.bookings, b.id = id ∧ b.status = .CANCELLED
  | _ => True

def SaneAll : List Write → Db → Prop
  | [], _ => True
  | w :: ws, d => Sane d w ∧ SaneAll ws (w.apply d)

/-! Where the rows after a write come from. -/

theorem mem_requirements_write {w : Write} {d : Db} {r : Requirement}
    (member : r ∈ (w.apply d).requirements) :
    (∃ old ∈ d.requirements, old.core = r.core) ∨ w = .insertRequirement r := by
  cases w with
  | insertRequirement r' =>
    rcases Table.mem_insert member with member | rfl
    · exact Or.inl ⟨r, member, rfl⟩
    · exact Or.inr rfl
  | requirementStatus _ _ | requirementFilled _ _ | requirementNeeded _ _ =>
    obtain ⟨old, present, rfl⟩ := Table.mem_modify.mp member
    refine Or.inl ⟨old, present, ?_⟩
    split <;> rfl
  | _ => exact Or.inl ⟨r, member, rfl⟩

theorem mem_bookings_write {w : Write} {d : Db} {b : Booking}
    (member : b ∈ (w.apply d).bookings) :
    (∃ old ∈ d.bookings, old.core = b.core) ∨ w = .insertBooking b := by
  cases w with
  | insertBooking b' =>
    rcases Table.mem_insert member with member | rfl
    · exact Or.inl ⟨b, member, rfl⟩
    · exact Or.inr rfl
  | bookingStatus _ _ | bookingOtpConsumed _ _ | bookingOtpAttempts _ _ _ =>
    obtain ⟨old, present, rfl⟩ := Table.mem_modify.mp member
    refine Or.inl ⟨old, present, ?_⟩
    split <;> rfl
  | _ => exact Or.inl ⟨b, member, rfl⟩

theorem mem_dispatches_write {w : Write} {d : Db} {x : Dispatch}
    (member : x ∈ (w.apply d).dispatches) :
    (∃ old ∈ d.dispatches, old.core = x.core) ∨ w = .insertDispatch x := by
  cases w with
  | insertDispatch x' =>
    rcases Table.mem_insert member with member | rfl
    · exact Or.inl ⟨x, member, rfl⟩
    · exact Or.inr rfl
  | dispatchStatus _ _ =>
    obtain ⟨old, present, rfl⟩ := Table.mem_modify.mp member
    refine Or.inl ⟨old, present, ?_⟩
    split <;> rfl
  | _ => exact Or.inl ⟨x, member, rfl⟩

theorem bookingIds_unique_write {d : Db} (w : Write) (unique : Table.Unique Booking.id d.bookings) :
    Table.Unique Booking.id (w.apply d).bookings := by
  cases w with
  | insertBooking b =>
    exact Table.unique_insert _ (fun _ same => decide_eq_true (Or.inl same)) unique
  | bookingStatus _ _ | bookingOtpConsumed _ _ | bookingOtpAttempts _ _ _ =>
    exact Table.unique_modify _ _ (fun _ => rfl) unique
  | _ => exact unique

theorem bookingIds_unique_applyAll {d : Db} (ws : List Write)
    (unique : Table.Unique Booking.id d.bookings) :
    Table.Unique Booking.id (Store.applyAll ws d).bookings := by
  induction ws generalizing d with
  | nil => exact unique
  | cons w ws ih => exact ih (bookingIds_unique_write w unique)

namespace Wf

variable {d : Db} (wf : Wf d) (w : Write)

include wf

theorem jobIds_write : Table.Unique Job.id (w.apply d).jobs := by
  cases w with
  | insertJob j => exact Table.unique_insert _ (fun _ same => decide_eq_true same) wf.jobIds
  | jobStatus _ _ | jobDispatchStatus _ _ =>
    exact Table.unique_modify _ _ (fun _ => rfl) wf.jobIds
  | _ => exact wf.jobIds

theorem requirementIds_write : Table.Unique Requirement.id (w.apply d).requirements := by
  cases w with
  | insertRequirement r =>
    exact Table.unique_insert _ (fun _ same => decide_eq_true same) wf.requirementIds
  | requirementStatus _ _ | requirementFilled _ _ | requirementNeeded _ _ =>
    exact Table.unique_modify _ _ (fun _ => rfl) wf.requirementIds
  | _ => exact wf.requirementIds

variable {w}

theorem requirementJob_write (sane : Sane d w) :
    ∀ r ∈ (w.apply d).requirements, ∃ j ∈ (w.apply d).jobs, j.id = r.jobId := by
  intro r member
  have before : ∃ j ∈ d.jobs, j.id = r.jobId := by
    rcases mem_requirements_write member with ⟨old, present, same⟩ | rfl
    · obtain ⟨j, found, named⟩ := wf.requirementJob old present
      exact ⟨j, found, named.trans (congrArg Prod.snd same)⟩
    · exact sane.2
  obtain ⟨j, found, named⟩ := before
  obtain ⟨j', found', same⟩ := (Later.write w d).jobs.mem found
  exact ⟨j', found', (congrArg Prod.fst same).trans named⟩

theorem bookingRequirement_write (sane : Sane d w) :
    ∀ b ∈ (w.apply d).bookings, ∃ r ∈ (w.apply d).requirements,
      r.id = b.requirementId ∧ r.jobId = b.jobId := by
  intro b member
  have before : ∃ r ∈ d.requirements, r.id = b.requirementId ∧ r.jobId = b.jobId := by
    rcases mem_bookings_write member with ⟨old, present, same⟩ | rfl
    · obtain ⟨r, found, named, owned⟩ := wf.bookingRequirement old present
      exact ⟨r, found, named.trans (Booking.requirementId_of_core same),
        owned.trans (Booking.jobId_of_core same)⟩
    · exact sane.1
  obtain ⟨r, found, named, owned⟩ := before
  obtain ⟨r', found', same⟩ := (Later.write w d).requirements.mem found
  exact ⟨r', found', (congrArg Prod.fst same).trans named, (congrArg Prod.snd same).trans owned⟩

theorem bookingJob_write (sane : Sane d w) :
    ∀ b ∈ (w.apply d).bookings, ∃ j ∈ (w.apply d).jobs,
      j.id = b.jobId ∧ j.customerId = b.customerId := by
  intro b member
  have before : ∃ j ∈ d.jobs, j.id = b.jobId ∧ j.customerId = b.customerId := by
    rcases mem_bookings_write member with ⟨old, present, same⟩ | rfl
    · obtain ⟨j, found, named, owned⟩ := wf.bookingJob old present
      exact ⟨j, found, named.trans (Booking.jobId_of_core same),
        owned.trans (congrArg (fun c => c.2.2.2.2.1) same)⟩
    · exact sane.2.1
  obtain ⟨j, found, named, owned⟩ := before
  obtain ⟨j', found', same⟩ := (Later.write w d).jobs.mem found
  exact ⟨j', found', (congrArg Prod.fst same).trans named,
    (congrArg (fun c => c.2.1) same).trans owned⟩

theorem bookingOffer_write (sane : Sane d w) :
    ∀ b ∈ (w.apply d).bookings, ∃ x ∈ (w.apply d).dispatches, x.key = b.slot := by
  intro b member
  have before : ∃ x ∈ d.dispatches, x.key = b.slot := by
    rcases mem_bookings_write member with ⟨old, present, same⟩ | rfl
    · obtain ⟨x, found, named⟩ := wf.bookingOffer old present
      exact ⟨x, found, named.trans (congrArg (fun c => (c.2.2.1, c.2.2.2.1)) same)⟩
    · exact sane.2.2.1
  obtain ⟨x, found, named⟩ := before
  obtain ⟨x', found', same⟩ := (Later.write w d).dispatches.mem found
  exact ⟨x', found', (congrArg Prod.fst same).trans named⟩

theorem offerWave_write (sane : Sane d w) :
    ∀ x ∈ (w.apply d).dispatches, ∃ v ∈ (w.apply d).waves,
      v.key = (x.requirementId, x.waveNumber) := by
  intro x member
  have before : ∃ v ∈ d.waves, v.key = (x.requirementId, x.waveNumber) := by
    rcases mem_dispatches_write member with ⟨old, present, same⟩ | rfl
    · obtain ⟨v, found, named⟩ := wf.offerWave old present
      exact ⟨v, found, named.trans (congrArg (fun c => (c.1.1, c.2.1)) same)⟩
    · exact sane
  obtain ⟨v, found, named⟩ := before
  obtain ⟨v', found', same⟩ := (Later.write w d).waves.mem found
  exact ⟨v', found', (congrArg Prod.fst same).trans named⟩

theorem demand_write (sane : Sane d w) :
    ∀ r ∈ (w.apply d).requirements, 0 < r.workerCountNeeded := by
  intro r member
  cases w with
  | insertRequirement r' =>
    rcases Table.mem_insert member with present | rfl
    · exact wf.demand r present
    · exact sane.1
  | requirementNeeded id n =>
    obtain ⟨old, present, rfl⟩ := Table.mem_modify.mp member
    split
    · exact sane
    · exact wf.demand old present
  | requirementStatus _ _ | requirementFilled _ _ =>
    obtain ⟨old, present, rfl⟩ := Table.mem_modify.mp member
    have positive := wf.demand old present
    split <;> exact positive
  | _ => exact wf.demand r member

theorem otpUnused_write (sane : Sane d w) :
    ∀ b ∈ (w.apply d).bookings, b.status = .CONFIRMED →
      b.otpConsumedAt = none ∧ b.otpVerified = false := by
  intro b member confirmed
  cases w with
  | insertBooking b' =>
    rcases Table.mem_insert member with present | rfl
    · exact wf.otpUnused b present confirmed
    · exact sane.2.2.2
  | bookingStatus id s =>
    obtain ⟨old, present, rfl⟩ := Table.mem_modify.mp member
    split at confirmed
    · exact absurd confirmed sane.1
    next other =>
      rw [if_neg other]
      exact wf.otpUnused old present confirmed
  | bookingOtpConsumed id t =>
    obtain ⟨old, present, rfl⟩ := Table.mem_modify.mp member
    split at confirmed
    next hit => exact absurd confirmed (sane old present (by simpa using hit))
    next other =>
      rw [if_neg other]
      exact wf.otpUnused old present confirmed
  | bookingOtpAttempts id n l =>
    obtain ⟨old, present, rfl⟩ := Table.mem_modify.mp member
    have before : old.status = .CONFIRMED := by
      split at confirmed <;> exact confirmed
    split <;> exact wf.otpUnused old present before
  | _ => exact wf.otpUnused b member confirmed

omit wf in
/-- A booking that has ended keeps its status. -/
theorem terminal_write (sane : Sane d w) {id : Id} {s : BookingStatus} (ended : s.isTerminal = true)
    (found : ∃ b ∈ d.bookings, b.id = id ∧ b.status = s) :
    ∃ b ∈ (w.apply d).bookings, b.id = id ∧ b.status = s := by
  obtain ⟨b, present, named, status⟩ := found
  cases w with
  | insertBooking b' => exact ⟨b, Table.mem_insert_of_mem present, named, status⟩
  | bookingStatus id' s' =>
    have other : b.id ∉ [id'] := by
      intro hit
      have running := sane.2 b present (by simpa using hit)
      rw [status, ended] at running
      cases running
    exact ⟨b, Table.mem_modify.mpr ⟨b, present, by rw [if_neg other]⟩, named, status⟩
  | bookingOtpConsumed _ _ | bookingOtpAttempts _ _ _ =>
    refine ⟨_, Table.mem_modify.mpr ⟨b, present, rfl⟩, ?_⟩
    split <;> exact ⟨named, status⟩
  | _ => exact ⟨b, present, named, status⟩

theorem completedNotice_write (sane : Sane d w) :
    ∀ id worker, .bookingCompleted id worker ∈ (w.apply d).outbox →
      ∃ b ∈ (w.apply d).bookings, b.id = id ∧ b.status = .COMPLETED := by
  intro id worker member
  refine terminal_write sane rfl ?_
  cases w with
  | outbox key =>
    simp only [Write.apply] at member
    split at member
    · exact wf.completedNotice id worker member
    · rcases List.mem_cons.mp member with rfl | present
      · exact sane
      · exact wf.completedNotice id worker present
  | _ => exact wf.completedNotice id worker member

theorem cancelledNotice_write (sane : Sane d w) :
    ∀ id type recipient, .bookingCancelled id type recipient ∈ (w.apply d).outbox →
      ∃ b ∈ (w.apply d).bookings, b.id = id ∧ b.status = .CANCELLED := by
  intro id type recipient member
  refine terminal_write sane rfl ?_
  cases w with
  | outbox key =>
    simp only [Write.apply] at member
    split at member
    · exact wf.cancelledNotice id type recipient member
    · rcases List.mem_cons.mp member with rfl | present
      · exact sane
      · exact wf.cancelledNotice id type recipient present
  | _ => exact wf.cancelledNotice id type recipient member

theorem write (sane : Sane d w) : Wf (w.apply d) where
  jobIds := wf.jobIds_write w
  requirementIds := wf.requirementIds_write w
  bookingIds := bookingIds_unique_write w wf.bookingIds
  requirementJob := wf.requirementJob_write sane
  bookingRequirement := wf.bookingRequirement_write sane
  bookingJob := wf.bookingJob_write sane
  bookingOffer := wf.bookingOffer_write sane
  offerWave := wf.offerWave_write sane
  demand := wf.demand_write sane
  otpUnused := wf.otpUnused_write sane
  completedNotice := wf.completedNotice_write sane
  cancelledNotice := wf.cancelledNotice_write sane

end Wf

theorem Wf.applyAll {ws : List Write} {d : Db} (wf : Wf d) (sane : SaneAll ws d) :
    Wf (Store.applyAll ws d) := by
  induction ws generalizing d with
  | nil => exact wf
  | cons w ws ih => exact ih (wf.write sane.1) sane.2

theorem Wf.terminal_applyAll {ws : List Write} {d : Db} (sane : SaneAll ws d) {id : Id}
    {s : BookingStatus} (ended : s.isTerminal = true)
    (found : ∃ b ∈ d.bookings, b.id = id ∧ b.status = s) :
    ∃ b ∈ (Store.applyAll ws d).bookings, b.id = id ∧ b.status = s := by
  induction ws generalizing d with
  | nil => exact found
  | cons w ws ih => exact ih sane.2 (Wf.terminal_write sane.1 ended found)

theorem Wf.empty : Wf {} := by
  constructor <;> simp [Table.Unique]

end LabourBaba.Market
