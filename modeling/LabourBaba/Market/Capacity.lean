import LabourBaba.Market.DispatchConformance
import LabourBaba.Market.Changes

/-!
# Capacity

The ledger of every requirement balances in every reachable state. Its status agrees
with the ledger as long as dispatch gives up only on requirements nobody is booked for
and a change of demand is decided on the row it updates.
-/
namespace LabourBaba.Market

open Store

/-! ### The ledger -/

/-- The bookings of a requirement that are not cancelled. -/
def Db.uncancelled (d : Db) (requirementId : Id) : Nat :=
  d.bookings.countP fun b => decide (b.requirementId = requirementId ∧ b.status ≠ .CANCELLED)

theorem activeBookings_eq (d : Db) (id : Id) : d.activeBookings id = d.uncancelled id := by
  refine congrArg (List.countP · d.bookings) (funext fun b => ?_)
  cases b.status <;> simp [BookingStatus.isActive]

theorem capacity_ledger (cfg : Config) {p : MarketPool} (reached : Reachable cfg p)
    {r : Requirement} (member : r ∈ p.db.requirements) :
    r.workerCountFilled = p.db.uncancelled r.id ∧
      0 ≤ r.workerCountFilled ∧ r.workerCountFilled ≤ r.workerCountNeeded := by
  have balance := (consistent_of_runs reached).ledger r.account (List.mem_map_of_mem member)
  rw [← activeBookings_eq]
  exact ⟨balance.1, Nat.zero_le _, balance.2⟩

/-- A job for two workers, offered to workers 10 and 11, the first of whom accepts. -/
def firstAccepts : List (Pool.Move Op) :=
  [.event (.spawn (.createJob 1 7 { latitude := some 0, longitude := some 0
                                    requirements := [{ id := 1, workerCountNeeded := 2 }] })),
   .drive 0 true,
   .event (.spawn (.processDispatchJob { requirementId := 1, jobId := 1 } [10, 11])),
   .drive 1 true,
   .event (.spawn (.acceptDispatch 1 10 { id := 1, otp := 5, otpHash := 5 })),
   .drive 2 true]

theorem capacity_ledger_first_accepts :
    ⟨1, 1, 2, 1, .PARTIALLY_FILLED⟩ ∈ (played (fun _ _ => True) firstAccepts).db.requirements ∧
      1 = (played (fun _ _ => True) firstAccepts).db.uncancelled 1 ∧ 0 ≤ 1 ∧ 1 ≤ 2 := by
  have member : ⟨1, 1, 2, 1, .PARTIALLY_FILLED⟩ ∈
      (played (fun _ _ => True) firstAccepts).db.requirements := by decide +kernel
  exact ⟨member, capacity_ledger plainConfig (runs_played _ firstAccepts) member⟩

/-! ### The status -/

/-- The status of a requirement says how its capacity is used. -/
def StatusAgrees (r : Requirement) : Prop :=
  r.status ≠ .CANCELLED →
    (r.status = .FILLED ↔ r.workerCountFilled = r.workerCountNeeded) ∧
    (r.status = .PARTIALLY_FILLED →
      0 < r.workerCountFilled ∧ r.workerCountFilled < r.workerCountNeeded) ∧
    (r.status = .OPEN ∨ r.status = .NO_WORKERS_AVAILABLE → r.workerCountFilled = 0)

instance (r : Requirement) : Decidable (StatusAgrees r) :=
  inferInstanceAs (Decidable (_ → _ ∧ _ ∧ _))

/-- Dispatch gives up on a requirement that nobody is booked for, and a new demand is
committed on the status and counter it was decided on. -/
def decidedOnRow (ℓ : Label) (d : Db) : Bool :=
  match ℓ with
  | .noWorkers id _ | .reconciled id (some .NO_WORKERS_AVAILABLE) =>
    (d.requirement id).all fun row => row.workerCountFilled = 0
  | .demandUpdated id _ seen =>
    (d.requirement id).all fun row =>
      row.status = seen.status ∧ row.workerCountFilled = seen.workerCountFilled
  | _ => true

/-- A demand decided on the row it updates. -/
theorem StatusAgrees.demand {r : Requirement} {needed : Nat} (agrees : StatusAgrees r)
    (positive : 0 < r.workerCountNeeded) (active : r.status ≠ .CANCELLED)
    (enough : r.workerCountFilled ≤ needed) :
    StatusAgrees { r with
      workerCountNeeded := needed
      status := demandStatus r.status ⟨needed, r.workerCountFilled⟩ } := by
  obtain ⟨filled, partially, empty⟩ := agrees active
  intro _
  by_cases full : needed ≤ r.workerCountFilled
  · have status : demandStatus r.status ⟨needed, r.workerCountFilled⟩ = .FILLED := by
      simp [demandStatus, RequirementCapacity.isFilled, full]
    simp only [status]
    exact ⟨⟨fun _ => by omega, fun _ => trivial⟩, by simp, by simp⟩
  · by_cases wasFilled : r.status = .FILLED
    · have booked := filled.mp wasFilled
      have status : demandStatus r.status ⟨needed, r.workerCountFilled⟩ = .PARTIALLY_FILLED := by
        simp [demandStatus, RequirementCapacity.isFilled, RequirementCapacity.isPartiallyFilled,
          full, wasFilled]
        omega
      simp only [status]
      exact ⟨⟨by simp, fun same => by omega⟩, fun _ => by omega, by simp⟩
    · have status : demandStatus r.status ⟨needed, r.workerCountFilled⟩ = r.status := by
        simp [demandStatus, RequirementCapacity.isFilled, full, wasFilled]
      simp only [status]
      exact ⟨⟨fun is => absurd is wasFilled, fun same => by omega⟩,
        fun is => ⟨(partially is).1, by omega⟩, empty⟩

/-- The status after a recount that releases a slot. -/
theorem StatusAgrees.release {r : Requirement} {filled : Nat} (room : filled < r.workerCountNeeded) :
    StatusAgrees { r with
      workerCountFilled := filled
      status := reconciledStatus r.status ⟨r.workerCountNeeded, filled⟩ } := by
  intro active
  have notFull : ¬ r.workerCountNeeded ≤ filled := by omega
  simp only [reconciledStatus, RequirementCapacity.isFilled, RequirementCapacity.isPartiallyFilled,
    notFull, decide_false, Bool.false_eq_true, if_false, decide_eq_true_eq] at active ⊢
  split at active
  · exact absurd rfl active
  next alive =>
    simp only [alive, if_false]
    by_cases some : 0 < filled
    · simp only [some, room, and_self, if_true]
      exact ⟨⟨by simp, fun same => by omega⟩, by simp, by simp⟩
    · have none : filled = 0 := by omega
      simp only [some, false_and, if_false]
      split <;> exact ⟨⟨by simp, fun same => by omega⟩, by simp, fun _ => none⟩

theorem RequirementChange.statusAgrees {ℓ : Label} {d : Db} {r r' : Requirement}
    (change : RequirementChange ℓ r r') (consistent : Consistent d) (member : r ∈ d.requirements)
    (agrees : StatusAgrees r) (decided : decidedOnRow ℓ d = true) : StatusAgrees r' := by
  have found : d.requirement r.id = some r := Table.find_of_mem consistent.wf.requirementIds member
  have positive := consistent.wf.demand r member
  have bound := (consistent.ledger.filled found).2
  cases change with
  | same => exact agrees
  | started _ opened =>
    have unbooked := (agrees (by simp [opened])).2.2 (Or.inl opened)
    exact fun _ => ⟨⟨by simp, fun full => by simp only at full; omega⟩, by simp, by simp⟩
  | demanded label enough enoughSeen active =>
    subst label
    simp only [decidedOnRow, found, Option.all_some, decide_eq_true_eq] at decided
    obtain ⟨sameStatus, sameFilled⟩ := decided
    rw [← sameStatus, ← sameFilled]
    exact agrees.demand positive (sameStatus ▸ active) enough
  | cancelled _ _ => exact fun active => absurd rfl active
  | reserved _ _ _ _ _ room full =>
    intro _
    subst full
    by_cases last : r.workerCountNeeded ≤ r.workerCountFilled + 1
    · simp only [last, decide_true, if_true]
      exact ⟨⟨fun _ => by omega, fun _ => trivial⟩, by simp, by simp⟩
    · simp only [last, decide_false, Bool.false_eq_true, if_false]
      exact ⟨⟨by simp, fun same => by omega⟩, fun _ => by omega, by simp⟩
  | exhausted label =>
    have unbooked : r.workerCountFilled = 0 := by
      rcases label with ⟨wave, rfl⟩ | rfl <;> simpa [decidedOnRow, found] using decided
    exact fun _ => ⟨⟨by simp, fun full => by simp only at full; omega⟩, by simp, fun _ => unbooked⟩
  | released _ _ _ left => exact .release (by omega)
  | rescheduled _ unbooked =>
    exact fun _ => ⟨⟨by simp, fun full => by simp only at full; omega⟩, by simp, by simp⟩

theorem status_agrees_with_capacity (cfg : Config) {p : MarketPool}
    (run : Runs cfg (fun ℓ d => decidedOnRow ℓ d = true) p) :
    ∀ r ∈ p.db.requirements, StatusAgrees r := by
  refine invariant_of_runs (fun d => ∀ r ∈ d.requirements, StatusAgrees r) (by simp) ?_ run
  intro ℓ d ws consistent agree decided commit r' member
  rcases commit.requirements consistent.wf member with
    ⟨r, old, -, change⟩ | ⟨-, opened, unfilled, positive⟩
  · exact change.statusAgrees consistent old (agree r old) decided
  · intro _
    exact ⟨⟨by simp [opened], fun full => by omega⟩, by simp [opened], fun _ => unfilled⟩

theorem status_agrees_first_accepts :
    (played (fun ℓ d => decidedOnRow ℓ d = true) firstAccepts).db.requirements =
        [⟨1, 1, 2, 1, .PARTIALLY_FILLED⟩] ∧
      ∀ r ∈ (played (fun ℓ d => decidedOnRow ℓ d = true) firstAccepts).db.requirements,
        StatusAgrees r :=
  ⟨by decide +kernel, status_agrees_with_capacity plainConfig (runs_played _ firstAccepts)⟩

/-- Worker 11 declines, and the second wave finds nobody: the requirement is written off
although worker 10 is booked for it. -/
def secondWaveEmpty : List (Pool.Move Op) :=
  firstAccepts ++
  [.event (.spawn (.declineDispatch 1 11)),
   .drive 3 true,
   .event (.spawn (.processDispatchJob { requirementId := 1, jobId := 1, waveNumber := 2 } [])),
   .drive 4 true]

theorem written_off_while_booked :
    ∃ p, Reachable plainConfig p ∧ ¬ ∀ r ∈ p.db.requirements, StatusAgrees r := by
  refine ⟨played (fun _ _ => True) secondWaveEmpty, runs_played _ secondWaveEmpty, fun agree => ?_⟩
  have written : ⟨1, 1, 2, 1, .NO_WORKERS_AVAILABLE⟩ ∈
      (played (fun _ _ => True) secondWaveEmpty).db.requirements := by decide +kernel
  exact absurd (agree _ written) (by decide)

end LabourBaba.Market
