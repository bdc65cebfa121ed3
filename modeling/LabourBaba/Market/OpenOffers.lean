import LabourBaba.Market.Capacity
import LabourBaba.Market.WaveBook
import LabourBaba.Store.Lawful

/-!
# Open offers of closed requirements

A requirement that is FILLED or CANCELLED should have no pending offer. Acceptance and the
cancellation of a job close the offers they see when they close a requirement; a change of
demand closes none. `processDispatchJob` takes no lock on the requirement, so a wave may also be
committed after the requirement has been closed, or between the statement that closes the
offers and the commit that closes the requirement.
-/
namespace LabourBaba.Market

open Store

def RequirementStatus.closed (status : RequirementStatus) : Bool :=
  decide (status = .FILLED ∨ status = .CANCELLED)

def ClosedOffers (d : Db) : Prop :=
  ∀ r ∈ d.requirements, r.status.closed = true →
    ∀ x ∈ d.dispatches, x.requirementId = r.id → x.status ≠ .pending

instance (d : Db) : Decidable (ClosedOffers d) :=
  inferInstanceAs (Decidable (∀ r ∈ d.requirements, _ → ∀ x ∈ d.dispatches, _ → _))

/-- The pending offers of the requirement are all among those that the writes close. -/
def Db.closesOffers (d : Db) (requirementId : Id) (ws : List Write) : Bool :=
  d.dispatches.all fun x => decide (x.requirementId = requirementId → x.status = .pending →
    (onAll Write.onDispatch ws x).status ≠ .pending)

/-- No wave is committed for a requirement that is closed. A demand that fills the requirement
finds no pending offer. When an acceptance that fills the requirement or the cancellation of its
job commits, no offer has become pending since the transaction closed the others. -/
def sparesOpenOffers (ℓ : Label) (ws : List Write) (d : Db) : Bool :=
  match ℓ with
  | .waveCommitted id _ => (d.requirement id).all fun row => !row.status.closed
  | .demandUpdated id needed seen =>
    decide (demandStatus seen.status ⟨needed, seen.workerCountFilled⟩ = .FILLED →
      d.closesOffers id [] = true)
  | .accepted b nowFilled _ => decide (nowFilled = true → d.closesOffers b.requirementId ws = true)
  | .jobCancelled jobId =>
    d.requirements.all fun r => decide (r.jobId = jobId →
      (onAll Write.onRequirement ws r).status = .CANCELLED → d.closesOffers r.id ws = true)
  | _ => true

section Commits

variable {ℓ : Label} {d : Db} {ws vs : List Write}

theorem offerKeys_applyAll (unique : Table.Unique Dispatch.key d.dispatches) (ws : List Write) :
    Table.Unique Dispatch.key (applyAll ws d).dispatches := by
  induction ws generalizing d with
  | nil => exact unique
  | cons w ws ih => exact ih (WaveBook.offerKeys_write w unique)

theorem onAll_dispatch_key (ws : List Write) (x : Dispatch) :
    (onAll Write.onDispatch ws x).key = x.key := by
  refine onAll_same Dispatch.key (fun w _ x => ?_) x
  cases w with
  | dispatchStatus offers s =>
    simp only [Write.onDispatch]
    split <;> rfl
  | _ => rfl

/-- An offer that is still pending afterwards was not closed. -/
theorem open_after {x : Dispatch} (unique : Table.Unique Dispatch.key d.dispatches)
    (present : x ∈ d.dispatches) (after : x ∈ (applyAll ws d).dispatches)
    (pending : x.status = .pending) : (onAll Write.onDispatch ws x).status = .pending := by
  have moved := dispatchEffects.mem_applyAll present ws
  have unique' := offerKeys_applyAll unique ws
  have same := Table.eq_of_find unique' (Table.find_of_mem unique' after) moved
    (onAll_dispatch_key ws x)
  rw [same]
  exact pending

theorem not_closesOffers {x : Dispatch} (unique : Table.Unique Dispatch.key d.dispatches)
    (present : x ∈ d.dispatches) (after : x ∈ (applyAll ws d).dispatches)
    (pending : x.status = .pending) : d.closesOffers x.requirementId ws = false := by
  refine Bool.eq_false_iff.mpr fun all => ?_
  have closes := of_decide_eq_true (List.all_eq_true.mp all x present)
  exact closes rfl pending (open_after unique present after pending)

/-- A new demand closes a requirement only by filling it. -/
theorem demandStatus_closed {status : RequirementStatus} {capacity : RequirementCapacity}
    (active : status ≠ .CANCELLED) (ends : (demandStatus status capacity).closed = true) :
    demandStatus status capacity = .FILLED := by
  rcases of_decide_eq_true ends with filled | cancelled
  · exact filled
  · simp only [demandStatus] at cancelled
    split at cancelled
    · cases cancelled
    · split at cancelled
      · cases cancelled
      · exact absurd cancelled active

/-- A recount that releases a slot closes no requirement. -/
theorem reconciledStatus_closed {status : RequirementStatus} {needed filled : Nat}
    (room : filled < needed) (ends : (reconciledStatus status ⟨needed, filled⟩).closed = true) :
    status = .CANCELLED := by
  by_cases cancelled : status = .CANCELLED
  · exact cancelled
  · have notFull : ¬ needed ≤ filled := by omega
    simp only [reconciledStatus, cancelled, RequirementCapacity.isFilled, notFull, decide_false,
      Bool.false_eq_true, if_false] at ends
    split at ends
    · cases ends
    · split at ends <;> cases ends

/-- What a commit changes of a requirement leaves no open offer behind, if the condition
lets it through. -/
theorem RequirementChange.closedOffers {r r' : Requirement} {x : Dispatch}
    (change : RequirementChange ℓ r r') (consistent : Consistent d)
    (unique : Table.Unique Dispatch.key d.dispatches) (closed : ClosedOffers d)
    (spared : sparesOpenOffers ℓ ws d = true) (member : r ∈ d.requirements)
    (fate : r'.status = .CANCELLED → (onAll Write.onRequirement ws r).status = .CANCELLED)
    (present : x ∈ d.dispatches) (after : x ∈ (applyAll ws d).dispatches)
    (own : x.requirementId = r.id) (ends : r'.status.closed = true) : x.status ≠ .pending := by
  intro pending
  have bound := (consistent.ledger.filled
    (Table.find_of_mem consistent.wf.requirementIds member)).2
  -- were the requirement closed before, the offer would have been answered
  have before : r.status.closed = true → False := fun already =>
    closed r member already x present own pending
  -- the commit has not closed the offer, so it does not close those of the requirement
  have left := not_closesOffers unique present after pending
  rw [own] at left
  cases change with
  | same => exact before ends
  | started _ _ => cases ends
  | demanded label _ _ active =>
    subst label
    have fills := of_decide_eq_true spared
    have none : d.closesOffers x.requirementId [] = false :=
      not_closesOffers unique present present pending
    rw [own, fills (demandStatus_closed active ends)] at none
    cases none
  | cancelled label _ =>
    subst label
    have closes := of_decide_eq_true (List.all_eq_true.mp spared r member)
    rw [closes rfl (fate rfl)] at left
    cases left
  | @reserved b nowFilled jobBooked label slot _ _ _ _ _ =>
    subst label
    have closes := of_decide_eq_true spared
    cases nowFilled with
    | false => cases ends
    | true =>
      rw [← slot, closes rfl] at left
      cases left
  | exhausted _ => cases ends
  | released _ _ _ counted =>
    exact before (decide_eq_true (Or.inr (reconciledStatus_closed (by omega) ends)))
  | rescheduled _ _ => cases ends

/-- Whatever the label says of the commit, `ws` are the writes with which it is made. -/
theorem ClosedOffers.commit (closed : ClosedOffers d) (consistent : Consistent d)
    (unique : Table.Unique Dispatch.key d.dispatches) (commit : Commit ℓ d vs)
    (same : applyAll ws d = applyAll vs d) (spared : sparesOpenOffers ℓ ws d = true) :
    ClosedOffers (applyAll vs d) := by
  intro r' member' ends x after own pending
  rcases commit.requirements consistent.wf member' with
    ⟨r, member, rfl, change⟩ | ⟨-, opened, -, -⟩
  · have named : (onAll Write.onRequirement vs r).id = r.id :=
      congrArg Prod.fst (onAll_requirement_core vs r)
    rw [named] at own
    rcases commit.pendingOffer after pending with present | ⟨waveNumber, rfl⟩
    · refine change.closedOffers consistent unique closed spared member (fun cancelled => ?_)
        present (same ▸ after) own ends pending
      -- the row that the writes leave is the one the commit leaves
      have kept : onAll Write.onRequirement ws r ∈ (applyAll vs d).requirements :=
        same ▸ requirementEffects.mem_applyAll member ws
      have ids := (commit.keepsConsistent consistent).wf.requirementIds
      have one := Table.eq_of_find ids (Table.find_of_mem ids member') kept
        ((congrArg Prod.fst (onAll_requirement_core ws r)).trans named.symm)
      rw [one]
      exact cancelled
    · -- a wave changes no requirement
      have found : d.requirement x.requirementId = some r :=
        own ▸ Table.find_of_mem consistent.wf.requirementIds member
      have open_ : r.status.closed = false := by
        simpa [sparesOpenOffers, found] using spared
      have still : (onAll Write.onRequirement vs r).status = r.status := by
        generalize onAll Write.onRequirement vs r = r' at change
        cases change with
        | same => rfl
        | started label _ | demanded label _ _ _ | cancelled label _ | released label _ _ _
        | reserved label _ _ _ _ _ _ | rescheduled label _ => cases label
        | exhausted label => rcases label with ⟨wave, label⟩ | label <;> cases label
      rw [still, open_] at ends
      cases ends
  · simp [opened, RequirementStatus.closed] at ends

end Commits

/-! ### Runs -/

/-- The runs whose commits all spare the open offers of closed requirements. -/
abbrev SparingRuns (cfg : Config) : MarketPool → Prop :=
  Pool.Reaches (system cfg) (Pool.MeetsWrites fun ℓ ws d => sparesOpenOffers ℓ ws d = true) start

/-- Worker 11 accepts as well: the requirement is filled, and worker 12's offer expires. -/
def lastSlotAccepted : List (Pool.Move Op) :=
  [.event (.spawn (.createJob 1 7 { latitude := some 0, longitude := some 0
                                    requirements := [{ id := 1, workerCountNeeded := 2 }] })),
   .drive 0 true,
   .event (.spawn (.processDispatchJob { requirementId := 1, jobId := 1 } [10, 11, 12])),
   .drive 1 true,
   .event (.spawn (.acceptDispatch 1 10 { id := 1, otp := 5, otpHash := 5 })),
   .drive 2 true,
   .event (.spawn (.acceptDispatch 1 11 { id := 2, otp := 6, otpHash := 6 })),
   .drive 3 true]

/-- The customer lowers the demand to the one worker who has accepted; worker 11 still has an
offer. -/
def loweredDemand : List (Pool.Move Op) :=
  firstAccepts ++
  [.event (.spawn (.updateRequirementDemand 1 1 1 (some { id := 7, role := .CUSTOMER }))),
   .drive 3 true]

end LabourBaba.Market
