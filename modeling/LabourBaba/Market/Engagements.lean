import LabourBaba.Market.Capacity

/-!
# Engagements of workers

A worker is engaged by a booking that is CONFIRMED or IN_PROGRESS. The candidate query
leaves engaged workers out of a new wave, but a worker may be offered several requirements
at once, and an acceptance does not look at the worker's other bookings. No worker holds
two engagements as long as every acceptance commits for a worker who holds none.

A booking enters a status that engages its worker only when it is inserted, by an
acceptance; from then on it can only leave. So of two engagements after a commit at most
one is new, and the other was already there when the commit was made.
-/
namespace LabourBaba.Market

open Store

/-- The statuses that the candidate query excludes. -/
def Booking.engages (b : Booking) : Bool :=
  decide (b.status = .CONFIRMED ∨ b.status = .IN_PROGRESS)

def Db.engaged (d : Db) (workerId : Id) : Bool :=
  d.bookings.any fun b => decide (b.workerId = workerId) && b.engages

/-- No worker holds two bookings that both engage them. -/
def SingleEngagement (d : Db) : Prop :=
  ∀ b ∈ d.bookings, ∀ c ∈ d.bookings, b.workerId = c.workerId →
    b.engages = true → c.engages = true → b.id = c.id

/-- An acceptance commits for a worker whom no booking engages. -/
def acceptsFree (ℓ : Label) (d : Db) : Bool :=
  match ℓ with
  | .accepted b _ _ => !d.engaged b.workerId
  | _ => true

/-- A stored booking that engages its worker after a commit did so before. -/
theorem Commit.engagedBefore {ℓ : Label} {d : Db} {ws : List Write} {b : Booking}
    (commit : Commit ℓ d ws) (wf : Wf d) (member : b ∈ d.bookings)
    (engages : (onAll Write.onBooking ws b).engages = true) : b.engages = true := by
  have change := commit.bookingChange wf member
  simp only [Booking.engages, decide_eq_true_eq] at engages ⊢
  generalize (onAll Write.onBooking ws b).status = after at change engages
  cases change with
  | same => exact engages
  | started _ source => exact Or.inl source
  -- the other transitions lead to a status that engages nobody
  | requested _ _ => simp at engages
  | confirmed _ _ => simp at engages
  | cancelled _ _ _ => simp at engages

theorem Commit.keepsSingle {ℓ : Label} {d : Db} {ws : List Write} (commit : Commit ℓ d ws)
    (consistent : Consistent d) (single : SingleEngagement d) (free : acceptsFree ℓ d = true) :
    SingleEngagement (applyAll ws d) := by
  -- an old booking and one that the commit inserts engage different workers
  have apart : ∀ b ∈ d.bookings, ∀ c nowFilled booked, ℓ = .accepted c nowFilled booked →
      (onAll Write.onBooking ws b).workerId = c.workerId →
      (onAll Write.onBooking ws b).engages = true → False := by
    intro b old c nowFilled booked label sameWorker engages
    have before := commit.engagedBefore consistent.wf old engages
    have worker := (Booking.workerId_of_core (onAll_booking_core ws b)).symm.trans sameWorker
    have engaged : d.engaged c.workerId = true :=
      List.any_eq_true.mpr ⟨b, old, by simp [worker, before]⟩
    rw [label] at free
    simp [acceptsFree, engaged] at free
  intro b' hereB c' hereC sameWorker engagesB engagesC
  rcases commit.bookings hereB with ⟨b, oldB, rfl⟩ | ⟨⟨nowFilled, booked, labelB⟩, -⟩
  · rcases commit.bookings hereC with ⟨c, oldC, rfl⟩ | ⟨⟨nowFilled, booked, labelC⟩, -⟩
    · have coreB := onAll_booking_core ws b
      have coreC := onAll_booking_core ws c
      have worker : b.workerId = c.workerId :=
        (Booking.workerId_of_core coreB).symm.trans
          (sameWorker.trans (Booking.workerId_of_core coreC))
      have sameId := single b oldB c oldC worker
        (commit.engagedBefore consistent.wf oldB engagesB)
        (commit.engagedBefore consistent.wf oldC engagesC)
      exact (congrArg Prod.fst coreB).trans (sameId.trans (congrArg Prod.fst coreC).symm)
    · exact (apart b oldB c' nowFilled booked labelC sameWorker engagesB).elim
  · rcases commit.bookings hereC with ⟨c, oldC, rfl⟩ | ⟨⟨nowFilled', booked', labelC⟩, -⟩
    · exact (apart c oldC b' nowFilled booked labelB sameWorker.symm engagesC).elim
    · -- one commit inserts one booking
      have same : b' = c' := by
        rw [labelB] at labelC
        injection labelC
      rw [same]

/-- Worker 10 is offered two jobs of different customers and accepts both. -/
def acceptsBoth : List (Pool.Move Op) :=
  [.event (.spawn (.createJob 1 7 { latitude := some 0, longitude := some 0
                                    requirements := [{ id := 1, workerCountNeeded := 1 }] })),
   .drive 0 true,
   .event (.spawn (.createJob 2 8 { latitude := some 0, longitude := some 0
                                    requirements := [{ id := 2, workerCountNeeded := 1 }] })),
   .drive 1 true,
   .event (.spawn (.processDispatchJob { requirementId := 1, jobId := 1 } [10])),
   .drive 2 true,
   .event (.spawn (.processDispatchJob { requirementId := 2, jobId := 2 } [10])),
   .drive 3 true,
   .event (.spawn (.acceptDispatch 1 10 { id := 1, otp := 5, otpHash := 5 })),
   .drive 4 true,
   .event (.spawn (.acceptDispatch 2 10 { id := 2, otp := 6, otpHash := 6 })),
   .drive 5 true]

end LabourBaba.Market
