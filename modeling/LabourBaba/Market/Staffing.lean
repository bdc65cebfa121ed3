import LabourBaba.Market.Capacity

/-!
# Staffing of jobs

A BOOKED job has all its requirements filled, and a job whose requirements are all filled
is not left OPEN or DISPATCHING. Only an acceptance that fills a requirement and the
cancellation of a job's last active booking look at the job, so the relation is kept as
long as what these two counted still holds when they commit, and no other statement fills
the last requirement of a waiting job or reopens a requirement of a BOOKED one.
-/
namespace LabourBaba.Market

open Store

structure Staffed (d : Db) : Prop where
  booked : ∀ j ∈ d.jobs, j.status = .BOOKED →
    ∀ r ∈ d.requirements, r.jobId = j.id → r.status ≠ .CANCELLED → r.status = .FILLED
  waiting : ∀ j ∈ d.jobs, (∃ r ∈ d.requirements, r.jobId = j.id) →
    (∀ r ∈ d.requirements, r.jobId = j.id → r.status = .FILLED) →
    j.status ≠ .OPEN ∧ j.status ≠ .DISPATCHING

/-! ### The condition on a run -/

/-- The job, if it is stored, has none of the given statuses. -/
def Db.jobNot (d : Db) (jobId : Id) (statuses : List JobStatus) : Bool :=
  (d.job jobId).all fun j => decide (j.status ∉ statuses)

/-- A requirement of the job other than the given one is not filled. -/
def Db.otherUnfilled (d : Db) (jobId requirementId : Id) : Bool :=
  d.requirements.any fun r =>
    decide (r.jobId = jobId ∧ r.id ≠ requirementId ∧ r.status ≠ .FILLED)

/-- The requirements of the job other than the given one are filled or cancelled. -/
def Db.othersStaffed (d : Db) (jobId requirementId : Id) : Bool :=
  d.requirements.all fun r =>
    decide (r.jobId = jobId → r.id ≠ requirementId → r.status = .FILLED ∨ r.status = .CANCELLED)

def keepsStaffing (ℓ : Label) (d : Db) : Bool :=
  match ℓ with
  | .requirementCreated r => d.jobNot r.jobId [.BOOKED]
  | .demandUpdated id needed seen =>
    (d.requirement id).all fun r =>
      if demandStatus seen.status ⟨needed, seen.workerCountFilled⟩ = .FILLED then
        d.jobNot r.jobId [.OPEN, .DISPATCHING] || d.otherUnfilled r.jobId id
      else d.jobNot r.jobId [.BOOKED]
  | .accepted b true jobBooked =>
    d.jobNot b.jobId [.OPEN, .DISPATCHING] ||
      if jobBooked then d.othersStaffed b.jobId b.requirementId
      else d.otherUnfilled b.jobId b.requirementId
  | .noWorkers id _ | .reconciled id (some _) =>
    (d.requirement id).all fun r => d.jobNot r.jobId [.BOOKED]
  | .bookingCancelled b false =>
    d.jobNot b.jobId [.BOOKED] ||
      (d.requirement b.requirementId).all fun r => decide (r.status = .CANCELLED)
  | _ => true

theorem jobNot_false {d : Db} {j : Job} {statuses : List JobStatus} (found : d.job j.id = some j)
    (holds : j.status ∈ statuses) : d.jobNot j.id statuses = false := by
  simp [Db.jobNot, found, holds]

/-! ### What the two counting commits do -/

/-- An acceptance that counted no unfilled requirement fills its own and marks the job. -/
theorem Commit.marksBooked {d : Db} {ws : List Write} {b : Booking}
    (commit : Commit (.accepted b true true) d ws) (wf : Wf d) :
    (∀ w ∈ ws, w.quiet = true) ∨
      (∀ j ∈ d.jobs, j.id = b.jobId →
        (onAll Write.onJob ws j).status ≠ .OPEN ∧ (onAll Write.onJob ws j).status ≠ .DISPATCHING) ∧
      ∀ r ∈ d.requirements, r.id = b.requirementId →
        (onAll Write.onRequirement ws r).status = .FILLED := by
  cases commit with
  | quiet still => exact Or.inl still
  | accepted _ _ _ _ _ _ _ _ _ _ _ closing =>
    refine Or.inr ⟨?_, ?_⟩
    · intro j member mine
      cases closing with
      | booked offers record source _ => simp [Write.onJob, mine]
      | already offers source =>
        obtain ⟨job, found, holds⟩ := source
        obtain rfl := Table.eq_of_find wf.jobIds found member mine
        rw [onAll_job_status (by simp [Write.isJobStatus])]
        simp only [List.mem_cons, List.not_mem_nil, or_false] at holds
        rcases holds with status | status | status <;> simp [status]
    · intro r member mine
      iterate 5 rw [onAll_cons]
      rw [closing.onRequirement]
      simp [Write.onRequirement, mine]

theorem reconciledStatus_of_room {s : RequirementStatus} {needed filled : Nat}
    (room : filled < needed) : reconciledStatus s ⟨needed, filled⟩ ≠ .FILLED := by
  have notFull : ¬ needed ≤ filled := by omega
  simp only [reconciledStatus, RequirementCapacity.isFilled, notFull, decide_false,
    Bool.false_eq_true, if_false]
  split <;> [simp; (split <;> [simp; (split <;> simp)])]

/-- A cancellation that counted no active booking reopens the job, and its requirement is
not filled any more. -/
theorem Commit.reopens {d : Db} {ws : List Write} {b : Booking}
    (commit : Commit (.bookingCancelled b true) d ws) (consistent : Consistent d) :
    (∀ w ∈ ws, w.quiet = true) ∨
      (∀ j ∈ d.jobs, j.id = b.jobId → (onAll Write.onJob ws j).status = .DISPATCHING) ∧
      ∃ r ∈ d.requirements, r.jobId = b.jobId ∧ (onAll Write.onRequirement ws r).status ≠ .FILLED := by
  cases commit with
  | quiet still => exact Or.inl still
  | bookingCancelled booking same _ requirement left step _ =>
    refine Or.inr ⟨?_, ?_⟩
    · intro j member mine
      cases step
      simp [Write.onJob, mine]
    · have bound := (consistent.ledger.filled requirement).2
      have member := Table.mem_of_find requirement
      have named := Table.find_key requirement
      refine ⟨_, member, (jobId_of_booking consistent.wf booking same member named).symm, ?_⟩
      iterate 5 rw [onAll_cons]
      rw [onAll_append, step.onRequirement]
      simpa [Write.onRequirement, named] using reconciledStatus_of_room (by omega)

/-! ### Every commit keeps the relation -/

section Steps

variable {ℓ : Label} {d : Db} {ws : List Write} {r r' : Requirement} {j : Job}

/-- A filled or cancelled requirement of a BOOKED job stays so, unless the job is reopened. -/
theorem RequirementChange.staysStaffed (change : RequirementChange ℓ r r')
    (found : d.requirement r.id = some r) (job : d.job j.id = some j) (mine : r.jobId = j.id)
    (booked : j.status = .BOOKED) (staffed : r.status = .CANCELLED ∨ r.status = .FILLED)
    (kept : keepsStaffing ℓ d = true) :
    (r'.status = .CANCELLED ∨ r'.status = .FILLED) ∨
      ∃ b, ℓ = .bookingCancelled b true ∧ b.jobId = j.id := by
  -- the condition excuses what happens to jobs that are not BOOKED, and this one is
  have busy : d.jobNot r.jobId [.BOOKED] = false := mine ▸ jobNot_false job (by simp [booked])
  cases change with
  | same => exact Or.inl staffed
  | started _ opened => simp [opened] at staffed
  | @demanded seen needed label _ _ _ =>
    subst label
    simp only [keepsStaffing, found, Option.all_some] at kept
    split at kept
    next filled => exact Or.inl (Or.inr filled)
    next => rw [busy] at kept; cases kept
  | cancelled _ _ => exact Or.inl (Or.inl rfl)
  | reserved _ _ _ active unfilled _ _ => exact absurd staffed (by simp [active, unfilled])
  | exhausted label =>
    rcases label with ⟨wave, rfl⟩ | rfl <;> simp [keepsStaffing, found, busy] at kept
  | @released b reopened _ label slot owned _ =>
    subst label
    cases reopened with
    | true => exact Or.inr ⟨b, rfl, owned.trans mine⟩
    | false =>
      -- the condition lets a slot be given back only where the requirement is cancelled
      simp only [keepsStaffing, owned, slot, busy, found, Bool.false_or, Option.all_some,
        decide_eq_true_eq] at kept
      exact Or.inl (Or.inl (by simp [reconciledStatus, kept]))
  | rescheduled label _ =>
    subst label
    simp [keepsStaffing, found, busy] at kept

/-- How an unfilled requirement becomes filled. -/
theorem RequirementChange.fills (change : RequirementChange ℓ r r') (unfilled : r.status ≠ .FILLED)
    (bound : r.workerCountFilled ≤ r.workerCountNeeded) (filled : r'.status = .FILLED) :
    (∃ needed seen, ℓ = .demandUpdated r.id needed seen ∧
      demandStatus seen.status ⟨needed, seen.workerCountFilled⟩ = .FILLED) ∨
    ∃ b jobBooked, ℓ = .accepted b true jobBooked ∧ b.requirementId = r.id ∧ b.jobId = r.jobId := by
  cases change with
  | same => exact absurd filled unfilled
  | started _ _ | cancelled _ _ | exhausted _ | rescheduled _ _ => cases filled
  | @demanded seen needed label _ _ _ => exact Or.inl ⟨needed, seen, label, filled⟩
  | @reserved b nowFilled jobBooked label slot owned _ _ _ _ =>
    cases nowFilled with
    | true => exact Or.inr ⟨b, jobBooked, label, slot, owned⟩
    | false => simp at filled
  | released _ _ _ left => exact absurd filled (reconciledStatus_of_room (by omega))

/-- The one requirement that a change of demand and an acceptance are about. -/
def Label.about : Label → Option Id
  | .demandUpdated id _ _ => some id
  | .accepted b _ _ => some b.requirementId
  | _ => none

theorem RequirementChange.bystander {id : Id} (change : RequirementChange ℓ r r')
    (about : ℓ.about = some id) (other : r.id ≠ id) : r' = r := by
  cases change with
  | same => rfl
  | demanded label _ _ _ =>
    subst label
    exact absurd (Option.some.inj about) other
  | reserved label slot _ _ _ _ _ =>
    subst label
    exact absurd (slot.symm.trans (Option.some.inj about)) other
  | exhausted label => rcases label with ⟨wave, rfl⟩ | rfl <;> cases about
  | started label _ | cancelled label _ | rescheduled label _ | released label _ _ _ =>
    subst label
    cases about

/-- What is left unfilled when one requirement of a waiting job is filled. -/
theorem Commit.stillWaiting (commit : Commit ℓ d ws) (consistent : Consistent d)
    (member : j ∈ d.jobs) (waits : j.status ∈ [.OPEN, .DISPATCHING])
    (remains : (onAll Write.onJob ws j).status ∈ [.OPEN, .DISPATCHING])
    (kept : keepsStaffing ℓ d = true) (stored : r ∈ d.requirements) (mine : r.jobId = j.id)
    (unfilled : r.status ≠ .FILLED) :
    ∃ r' ∈ (applyAll ws d).requirements, r'.jobId = j.id ∧ r'.status ≠ .FILLED := by
  have survives : ∀ r ∈ d.requirements, r.jobId = j.id →
      (onAll Write.onRequirement ws r).status ≠ .FILLED →
      ∃ r' ∈ (applyAll ws d).requirements, r'.jobId = j.id ∧ r'.status ≠ .FILLED := by
    intro r stored mine open'
    refine ⟨_, requirementEffects.mem_applyAll stored ws, ?_, open'⟩
    exact (congrArg Prod.snd (onAll_requirement_core ws r)).trans mine
  -- another requirement that the store holds unfilled, and the commit does not touch
  have other : ∀ {id : Id}, ℓ.about = some id → d.otherUnfilled j.id id = true →
      ∃ r' ∈ (applyAll ws d).requirements, r'.jobId = j.id ∧ r'.status ≠ .FILLED := by
    intro id about waiting
    simp only [Db.otherUnfilled, List.any_eq_true, decide_eq_true_eq] at waiting
    obtain ⟨r₂, stored₂, mine₂, differs, open₂⟩ := waiting
    refine survives r₂ stored₂ mine₂ ?_
    rw [(commit.requirementChange consistent.wf stored₂).bystander about differs]
    exact open₂
  have found : d.job j.id = some j := Table.find_of_mem consistent.wf.jobIds member
  have lookup := Table.find_of_mem consistent.wf.requirementIds stored
  have notEnded : d.jobNot j.id [.OPEN, .DISPATCHING] = false := jobNot_false found waits
  by_cases filled : (onAll Write.onRequirement ws r).status = .FILLED
  · have bound := (consistent.ledger.filled lookup).2
    rcases (commit.requirementChange consistent.wf stored).fills unfilled bound filled with
      ⟨needed, seen, rfl, full⟩ | ⟨b, jobBooked, rfl, slot, owned⟩
    · simp only [keepsStaffing, show d.requirement r.id = some r from lookup, Option.all_some, full,
        if_true, mine, notEnded, Bool.false_or] at kept
      exact other rfl kept
    · cases jobBooked with
      | false =>
        simp only [keepsStaffing, owned, mine, notEnded, Bool.false_or, Bool.false_eq_true,
          if_false] at kept
        exact other rfl kept
      | true =>
        rcases commit.marksBooked consistent.wf with still | ⟨marked, -⟩
        · rw [onAll_of_forall fun w member => onRequirement_quiet (still w member)] at filled
          exact absurd filled unfilled
        · obtain ⟨notOpen, notDispatching⟩ := marked j member (owned.trans mine).symm
          simp [notOpen, notDispatching] at remains
  · exact survives r stored mine filled

theorem Staffed.keepsBooked (staffed : Staffed d) (consistent : Consistent d)
    (commit : Commit ℓ d ws) (kept : keepsStaffing ℓ d = true) {j' : Job}
    (present : j' ∈ (applyAll ws d).jobs) (booked : j'.status = .BOOKED)
    (member : r' ∈ (applyAll ws d).requirements) (mine : r'.jobId = j'.id)
    (active : r'.status ≠ .CANCELLED) : r'.status = .FILLED := by
  rcases commit.jobs present with ⟨j, old, rfl⟩ | ⟨-, opened, -⟩
  · rw [onAll_job_id] at mine
    have found : d.job j.id = some j := Table.find_of_mem consistent.wf.jobIds old
    have change := commit.jobChange consistent.wf old
    rcases commit.requirements consistent.wf member with
      ⟨r, stored, rfl, rowChange⟩ | ⟨created, -, -, -⟩
    · have lookup := Table.find_of_mem consistent.wf.requirementIds stored
      have owner : r.jobId = j.id :=
        (congrArg Prod.snd (onAll_requirement_core ws r)).symm.trans mine
      by_cases already : j.status = .BOOKED
      · have before : r.status = .CANCELLED ∨ r.status = .FILLED :=
          or_iff_not_imp_left.mpr (staffed.booked j old already r stored owner)
        rcases rowChange.staysStaffed lookup found owner already before kept with
          (gone | filled) | ⟨b, rfl, same⟩
        · exact absurd gone active
        · exact filled
        · -- a reopened job is not BOOKED any more
          rcases commit.reopens consistent with still | ⟨reopened, -⟩
          · rw [onAll_of_forall fun w member => onRequirement_quiet (still w member)] at active ⊢
            exact before.resolve_left active
          · rw [reopened j old same.symm] at booked
            cases booked
      · rw [booked] at change
        generalize status : j.status = before at change already
        cases change with
        | same => exact absurd rfl already
        | @booked _ b label owned source =>
          subst label
          rcases commit.marksBooked consistent.wf with still | ⟨-, fills⟩
          · rw [onAll_job_status (fun w member => isJobStatus_quiet (still w member)), status] at booked
            exact absurd booked already
          · by_cases slot : r.id = b.requirementId
            · exact fills r stored slot
            · have waits : d.jobNot b.jobId [.OPEN, .DISPATCHING] = false :=
                owned ▸ jobNot_false found (status ▸ source)
              simp only [keepsStaffing, waits, Bool.false_or, if_true, Db.othersStaffed,
                List.all_eq_true, decide_eq_true_eq] at kept
              rw [rowChange.bystander rfl slot] at active ⊢
              exact (kept r stored (owner.trans owned.symm) slot).resolve_right active
    · rcases created with ⟨job, reqs, rfl, owned, fresh⟩ | rfl
      · rw [owned, mine, found] at fresh
        cases fresh
      · -- a requirement was added: the job was not BOOKED, and the addition does not book it
        simp only [keepsStaffing, Db.jobNot, mine, found, Option.all_some, List.mem_singleton,
          decide_eq_true_eq] at kept
        rw [booked] at change
        generalize j.status = before at change kept
        cases change with
        | same => exact absurd rfl kept
        | booked label _ _ => cases label
  · rw [opened] at booked
    cases booked

theorem Staffed.keepsWaiting (staffed : Staffed d) (consistent : Consistent d)
    (commit : Commit ℓ d ws) (kept : keepsStaffing ℓ d = true) {j' : Job}
    (present : j' ∈ (applyAll ws d).jobs) (waits : j'.status ∈ [.OPEN, .DISPATCHING])
    (member : r' ∈ (applyAll ws d).requirements) (mine : r'.jobId = j'.id) :
    ∃ r ∈ (applyAll ws d).requirements, r.jobId = j'.id ∧ r.status ≠ .FILLED := by
  rcases commit.requirements consistent.wf member with ⟨r, stored, rfl, -⟩ | ⟨-, opened, -, -⟩
  · rcases commit.jobs present with ⟨j, old, rfl⟩ | ⟨-, -, fresh⟩
    · rw [onAll_job_id] at mine ⊢
      have owner : r.jobId = j.id :=
        (congrArg Prod.snd (onAll_requirement_core ws r)).symm.trans mine
      by_cases before : j.status ∈ [.OPEN, .DISPATCHING]
      · have unfilled : ∃ r ∈ d.requirements, r.jobId = j.id ∧ r.status ≠ .FILLED := by
          by_contra all
          push Not at all
          have excluded := staffed.waiting j old ⟨r, stored, owner⟩ all
          simp [excluded.1, excluded.2] at before
        obtain ⟨r₂, stored₂, mine₂, open₂⟩ := unfilled
        exact commit.stillWaiting consistent old before waits kept stored₂ mine₂ open₂
      · have change := commit.jobChange consistent.wf old
        generalize status : (onAll Write.onJob ws j).status = after at change waits
        generalize was : j.status = first at change before
        cases change with
        | same => exact absurd waits before
        | dispatched _ => simp at before
        | cancelled _ _ | booked _ _ _ | started _ _ | completed _ _ => simp at waits
        | @reopened _ b label owned source =>
          subst label
          rcases commit.reopens consistent with still | ⟨-, r₂, stored₂, owned₂, open₂⟩
          · rw [onAll_job_status (fun w member => isJobStatus_quiet (still w member))] at status
            simp [← was, status] at before
          · exact ⟨_, requirementEffects.mem_applyAll stored₂ ws,
              (congrArg Prod.snd (onAll_requirement_core ws r₂)).trans (owned₂.trans owned), open₂⟩
    · -- a new job has no old requirement
      obtain ⟨j, stored', named⟩ := consistent.wf.requirementJob r stored
      have owner := (congrArg Prod.snd (onAll_requirement_core ws r)).symm.trans mine
      exact absurd (named.trans owner) (Table.find_none_iff.mp fresh j stored')
  · exact ⟨r', member, mine, by simp [opened]⟩

theorem Staffed.commit (staffed : Staffed d) (consistent : Consistent d) (commit : Commit ℓ d ws)
    (kept : keepsStaffing ℓ d = true) : Staffed (applyAll ws d) := by
  refine ⟨?_, ?_⟩
  · intro j present booked r member mine active
    exact staffed.keepsBooked consistent commit kept present booked member mine active
  · rintro j present ⟨r, member, mine⟩ filled
    have busy : j.status ∉ [.OPEN, .DISPATCHING] := by
      intro waits
      obtain ⟨r₂, member₂, mine₂, open₂⟩ :=
        staffed.keepsWaiting consistent commit kept present waits member mine
      exact open₂ (filled r₂ member₂ mine₂)
    simpa using busy

end Steps

/-- A job with two requirements, each filled by one worker. -/
def bothAccept : List (Pool.Move Op) :=
  [.event (.spawn (.createJob 1 7 { latitude := some 0, longitude := some 0
                                    requirements := [{ id := 1, workerCountNeeded := 1 },
                                                     { id := 2, workerCountNeeded := 1 }] })),
   .drive 0 true,
   .event (.spawn (.processDispatchJob { requirementId := 1, jobId := 1 } [10])),
   .drive 1 true,
   .event (.spawn (.processDispatchJob { requirementId := 2, jobId := 1 } [20])),
   .drive 2 true,
   .event (.spawn (.acceptDispatch 1 10 { id := 1, otp := 5, otpHash := 5 })),
   .drive 3 true,
   .event (.spawn (.acceptDispatch 2 20 { id := 2, otp := 6, otpHash := 6 })),
   .drive 4 true]

/-- The customer cancels one of the two bookings. -/
def oneCancelled : List (Pool.Move Op) :=
  bothAccept ++
  [.event (.spawn (.cancelBooking 1 7 "rain".toList (some ⟨7, .CUSTOMER⟩))),
   .drive 5 true]

/-- The customer lowers the demand to the one worker who is booked. -/
def demandLowered : List (Pool.Move Op) :=
  firstAccepts ++
  [.event (.spawn (.updateRequirementDemand 1 1 1 (some ⟨7, .CUSTOMER⟩))),
   .drive 3 true]

end LabourBaba.Market
