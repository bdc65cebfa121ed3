import LabourBaba.Market.WaveConformance
import LabourBaba.Store.Alone
import LabourBaba.Store.Lawful

/-!
# The reconciliation scan

What a run of `reconcileDispatchState` leaves of a requirement that still needs workers, in
stores that any run has reached while the queues were losing jobs. The scan takes up the
requirements in OPEN or DISPATCHING of jobs that are not booked, and adds one job for each under
an id that is made of the requirement and the wave: if the queue still holds a job of that id,
also an active, completed or failed one, nothing is added.
-/
namespace LabourBaba.Market

open Store

/-! ### Queues that lose jobs -/

/-- Where in its queue a job is. -/
inductive JobState where
  | waiting | delayed | active | completed | failed
deriving DecidableEq, Repr

/-- The job will be delivered. -/
def JobState.due : JobState → Bool
  | .waiting | .delayed => true
  | .active | .completed | .failed => false

/-- The states of the jobs that the queues hold, by requirement and wave. -/
structure QueueStates where
  dispatch : Id × Nat → JobState
  timeout : Id × Nat → JobState

/-- The runs of the marketplace in which the queues may lose jobs at any time. -/
inductive Lossy (cfg : Config) : MarketPool → Prop
  | start : Lossy cfg start
  | step {p q : MarketPool} (e : Event Op) (before : Lossy cfg p)
      (stepped : p.step (system cfg) e = some q) : Lossy cfg q
  | lost {p : MarketPool} (dispatchQueue : List DispatchJobData) (timeoutQueue : List TimeoutJobData)
      (before : Lossy cfg p) (fewer : dispatchQueue.Sublist p.db.dispatchQueue)
      (fewerTimeouts : timeoutQueue.Sublist p.db.timeoutQueue) :
      Lossy cfg { p with db := { p.db with dispatchQueue, timeoutQueue } }

namespace Db

def dispatchKeys (d : Db) : List (Id × Nat) := d.dispatchQueue.map DispatchJobData.key

def timeoutKeys (d : Db) : List (Id × Nat) := d.timeoutQueue.map TimeoutJobData.key

def nextWave (d : Db) (id : Id) : Nat :=
  match d.latestWave id with
  | some w => w.waveNumber + 1
  | none => 1

end Db

/-! ### The writes of one repair -/

section Repairs

variable {cfg : Config} {now : Nat} {req : Requirement} {latest : Wave} {e : Db} {t : MarketTx}

def nextJob (req : Requirement) (latest : Wave) : DispatchJobData :=
  { requirementId := req.id, jobId := req.jobId, waveNumber := latest.waveNumber + 1
    offset := latest.waveNumber * latest.workersNotified }

/-- The job of the next wave, or the end of the search. -/
def nextWrites (cfg : Config) (req : Requirement) (latest : Wave) : List Write :=
  if (planDispatchWave cfg req.workerCountNeeded req.workerCountFilled
      (latest.waveNumber + 1)).canDispatch then [.addDispatchJob (nextJob req latest)]
  else [.requirementStatus [req.id] .NO_WORKERS_AVAILABLE]

def closingWrites (req : Requirement) (latest : Wave) (offers : List (Id × Id)) : List Write :=
  [.dispatchStatus offers .timeout, .exhaustWave req.id latest.waveNumber]

def startWrites (req : Requirement) : List Write :=
  (if req.status ≠ .DISPATCHING then [.requirementStatus [req.id] .DISPATCHING] else []) ++
    [.addDispatchJob { requirementId := req.id, jobId := req.jobId }]

/-- What the repair of a requirement writes, given its latest wave and that wave's pending offers. -/
def repairWrites (cfg : Config) (now : Nat) (req : Requirement) (offers : List (Id × Id)) :
    Option Wave → List Write
  | none => startWrites req
  | some latest =>
    match latest.status with
    | .active =>
      if latest.notifiedAt + cfg.timeoutMs ≤ now then
        closingWrites req latest offers ++ nextWrites cfg req latest
      else
        [.addTimeoutJob { requirementId := req.id, jobId := req.jobId
                          waveNumber := latest.waveNumber
                          totalWorkersFound := latest.workersNotified
                          offset := (latest.waveNumber - 1) * latest.workersNotified
                          waveSize := latest.workersNotified }]
    | .exhausted => nextWrites cfg req latest

/-- The transaction body has succeeded, and its commit makes the given writes. -/
def Makes (ws : List Write) (e : Db) (r : Except Failure Repair) (tx : Option MarketTx) (e' : Db) :
    Prop :=
  ∃ a, r = .ok a ∧ a.report.errors = [] ∧ Tx.view tx e' = applyAll ws e

theorem result_addDispatchJob_inTx {Q : Except Failure Unit → Option MarketTx → Db → Prop}
    (data : DispatchJobData) : Call.result true Q (addDispatchJob data) (some t) e =
      Q (.ok ()) (some t) (applyAll [Write.addDispatchJob data] e) := by
  simp only [addDispatchJob, Call.result_bind, Call.result_choose, Call.resultThen_ok, if_true,
    Call.result_send_inTx, List.map_cons, List.map_nil]

theorem result_addTimeoutJob_inTx {Q : Except Failure Unit → Option MarketTx → Db → Prop}
    (data : TimeoutJobData) : Call.result true Q (addTimeoutJob data) (some t) e =
      Q (.ok ()) (some t) (applyAll [Write.addTimeoutJob data] e) := by
  simp only [addTimeoutJob, Call.result_bind, Call.result_choose, Call.resultThen_ok, if_true,
    Call.result_send_inTx, List.map_cons, List.map_nil]

/-- The queue is written at once and the rest with the commit, which makes no difference. -/
theorem scheduleNext_makes {closed : Nat}
    (known : ((applyAll t.writes e).requirement req.id).isSome)
    (apart : ∀ data, applyAll t.writes (applyAll [Write.addDispatchJob data] e) =
      applyAll [Write.addDispatchJob data] (applyAll t.writes e)) :
    Call.result true (Makes (t.writes ++ nextWrites cfg req latest) e)
      (scheduleNext cfg req latest closed) (some t) e := by
  simp only [scheduleNext, nextWrites]
  split
  · rw [Call.result_bind, result_addDispatchJob_inTx, Call.resultThen_ok, Call.result_pure]
    exact ⟨_, rfl, rfl, by rw [applyAll_append]; exact apart _⟩
  · have stored : ((applyAll t.writes e).requirement req.id).isNone = false := by
      rw [← Option.not_isSome, known]
      rfl
    rw [Call.result_bind, step, Call.result_stmt, noWorkers, stored]
    exact ⟨_, rfl, rfl, rfl⟩

theorem repairTx_makes (cfg : Config) (now : Nat) (scanned : Option Wave)
    (known : (e.requirement req.id).isSome) :
    ∃ offers, Call.result true
      (Makes (repairWrites cfg now req offers ((e.latestWave req.id).or scanned)) e)
      (repairTx cfg now req scanned) (some {}) e := by
  refine ⟨(e.dispatches.filter fun x => x.requirementId = req.id ∧
    x.waveNumber = (((e.latestWave req.id).or scanned).map Wave.waveNumber).getD 0 ∧
      x.status = .pending).map Dispatch.key, ?_⟩
  -- taking the lock writes nothing
  have locked : ∀ key : Key, (Tx.add Db ({} : MarketTx) { locks := [key] }).writes = [] := fun _ => rfl
  simp only [repairTx, Call.result_bind, Call.result_skipLocked, Call.resultThen_ok, not_true_eq_false,
    if_false, query, Call.result_read, Tx.view_some, locked, applyAll_nil]
  cases (e.latestWave req.id).or scanned with
  | none =>
    simp only [repairWrites, startWrites, scheduleFirst, Call.result_bind, onlyIf]
    by_cases opened : req.status = .DISPATCHING
    · simp only [opened, ne_eq, not_true_eq_false, decide_false, Bool.false_eq_true, if_false,
        Call.result_pure, Call.resultThen_ok]
      exact ⟨_, rfl, rfl, rfl⟩
    · have stored : (e.requirement req.id).isNone = false := by
        rw [← Option.not_isSome, known]
        rfl
      simp only [opened, ne_eq, not_false_eq_true, decide_true, if_true, step, Call.result_bind,
        Call.result_stmt, locked, applyAll_nil, stored, Bool.false_eq_true, if_false,
        Call.afterStmt_ok, Call.resultThen_ok, Call.result_pure, result_addDispatchJob_inTx]
      exact ⟨_, rfl, rfl, rfl⟩
  | some latest =>
    simp only [repairWrites, Option.map_some, Option.getD_some]
    cases latest.status with
    | active =>
      dsimp only
      split
      next expired =>
        simp only [closeExpired, setOffers, Call.result_bind, step, Call.result_stmt, locked,
          applyAll_nil, Call.afterStmt_ok, Call.resultThen_ok]
        refine scheduleNext_makes known fun _ => rfl
      next flight =>
        simp only [restoreTimeout, Call.result_bind, result_addTimeoutJob_inTx, Call.resultThen_ok,
          Call.result_pure]
        exact ⟨_, rfl, rfl, rfl⟩
    | exhausted => 
      exact scheduleNext_makes known fun _ => rfl

theorem repair_makes (cfg : Config) (now : Nat) (scanned : Option Wave)
    (known : (e.requirement req.id).isSome) :
    ∃ offers, Call.result true (fun r tx e' => tx = none ∧ (∃ report, r = .ok report ∧
        report.errors = []) ∧
      e' = applyAll (repairWrites cfg now req offers ((e.latestWave req.id).or scanned)) e)
      (repair cfg now req scanned) none e := by
  obtain ⟨offers, makes⟩ := repairTx_makes cfg now scanned known
  refine ⟨offers, ?_⟩
  rw [repair, Call.result_bind, Call.result_attempt, Call.result_transaction]
  refine Call.result_mono ?_ makes
  rintro r tx e' ⟨a, rfl, clean, same⟩
  exact ⟨rfl, ⟨a.report, rfl, clean⟩, same⟩

end Repairs

/-! ### What a repair leaves of the other requirements -/

/-- The scan finds the same of a requirement in both stores. -/
structure SameFor (id : Id) (d d' : Db) : Prop where
  requirement : d'.requirement id = d.requirement id
  waves : d'.waves.filter (fun w => w.requirementId = id) =
    d.waves.filter fun w => w.requirementId = id
  dispatchJobs : d'.dispatchQueue.filter (fun q => q.requirementId = id) =
    d.dispatchQueue.filter fun q => q.requirementId = id
  timeoutJobs : d'.timeoutQueue.filter (fun q => q.requirementId = id) =
    d.timeoutQueue.filter fun q => q.requirementId = id

namespace SameFor

variable {id other : Id} {d d' d'' : Db}

theorem refl (id : Id) (d : Db) : SameFor id d d := ⟨rfl, rfl, rfl, rfl⟩

theorem trans (first : SameFor id d d') (second : SameFor id d' d'') : SameFor id d d'' :=
  ⟨second.requirement.trans first.requirement, second.waves.trans first.waves,
    second.dispatchJobs.trans first.dispatchJobs, second.timeoutJobs.trans first.timeoutJobs⟩

theorem latestWave (same : SameFor id d d') : d'.latestWave id = d.latestWave id := by
  rw [Db.latestWave, Db.latestWave, same.waves]

end SameFor

/-- The requirement that a write of the scan is about. -/
def Write.repairs (id : Id) : Write → Bool
  | .requirementStatus ids _ => decide (ids = [id])
  | .exhaustWave requirementId _ => decide (requirementId = id)
  | .addDispatchJob q => decide (q.requirementId = id)
  | .addTimeoutJob q => decide (q.requirementId = id)
  | .dispatchStatus _ _ => true
  | _ => false

theorem repairs_of_mem {cfg : Config} {now : Nat} {req : Requirement} {offers : List (Id × Id)}
    {latest : Option Wave} {w : Write} (member : w ∈ repairWrites cfg now req offers latest) :
    w.repairs req.id = true := by
  have next : ∀ latest, ∀ w ∈ nextWrites cfg req latest, w.repairs req.id = true := by
    intro latest w member
    simp only [nextWrites] at member
    split at member <;> rw [List.mem_singleton.mp member] <;> simp [Write.repairs, nextJob]
  cases latest with
  | none =>
    rcases List.mem_append.mp member with status | added
    · split at status
      · rw [List.mem_singleton.mp status]
        simp [Write.repairs]
      · cases status
    · rw [List.mem_singleton.mp added]
      simp [Write.repairs]
  | some latest =>
    simp only [repairWrites] at member
    cases status : latest.status with
    | exhausted =>
      rw [status] at member
      exact next latest w member
    | active =>
      rw [status] at member
      dsimp only at member
      split at member
      · rcases List.mem_append.mp member with closing | scheduled
        · rcases List.mem_pair.mp closing with rfl | rfl <;> simp [Write.repairs]
        · exact next latest w scheduled
      · rw [List.mem_singleton.mp member]
        simp [Write.repairs]

theorem Write.sameFor {id other : Id} {w : Write} (repairs : w.repairs other = true)
    (differ : other ≠ id) (d : Db) : SameFor id d (w.apply d) := by
  cases w with
  | requirementStatus ids s =>
    obtain rfl := of_decide_eq_true repairs
    refine ⟨?_, rfl, rfl, rfl⟩
    exact Table.find_modify_of_notMem _ _ _ _ (fun _ => rfl) (by simpa using differ.symm)
  | exhaustWave requirementId waveNumber =>
    obtain rfl := of_decide_eq_true repairs
    refine ⟨rfl, ?_, rfl, rfl⟩
    have fixed : ∀ w ∈ d.waves, decide ((if w.key ∈ [(requirementId, waveNumber)] then
          { w with status := .exhausted } else w).requirementId = id) = true →
        (if w.key ∈ [(requirementId, waveNumber)] then { w with status := .exhausted } else w) = w := by
      intro w _ own
      have own := of_decide_eq_true own
      split at own
      next hit =>
        have mine : w.requirementId = requirementId := congrArg Prod.fst (List.mem_singleton.mp hit)
        exact absurd (mine.symm.trans own) differ
      next miss => rw [if_neg miss]
    simp only [Write.apply, Table.modify]
    rw [Table.filter_map_of_fixed fixed]
    refine List.filter_congr fun w _ => ?_
    split <;> rfl
  | addDispatchJob q =>
    obtain rfl := of_decide_eq_true repairs
    refine ⟨rfl, rfl, ?_, rfl⟩
    simp only [Write.apply, Table.insert]
    split
    · rfl
    · simp [differ]
  | addTimeoutJob q =>
    obtain rfl := of_decide_eq_true repairs
    refine ⟨rfl, rfl, rfl, ?_⟩
    simp only [Write.apply, Table.insert]
    split
    · rfl
    · simp [differ]
  | dispatchStatus offers s => exact ⟨rfl, rfl, rfl, rfl⟩
  | _ => cases repairs

theorem sameFor_applyAll {id other : Id} {ws : List Write}
    (repairs : ∀ w ∈ ws, w.repairs other = true) (differ : other ≠ id) (d : Db) :
    SameFor id d (applyAll ws d) := by
  induction ws generalizing d with
  | nil => exact .refl id d
  | cons w ws ih =>
    have first := Write.sameFor (repairs w List.mem_cons_self) differ d
    exact first.trans (ih (fun v member => repairs v (List.mem_cons_of_mem w member)) (w.apply d))

/-- What a write makes of a requirement depends on what the scan finds of it. -/
theorem SameFor.write {id : Id} {w : Write} {d e : Db} (same : SameFor id d e)
    (repairs : w.repairs id = true) : SameFor id (w.apply d) (w.apply e) := by
  cases w with
  | requirementStatus ids s =>
    refine ⟨?_, same.waves, same.dispatchJobs, same.timeoutJobs⟩
    have after (d : Db) : ((Write.requirementStatus ids s).apply d).requirement id =
        (d.requirement id).map fun r => if id ∈ ids then { r with status := s } else r :=
      Table.find_modify _ _ _ _ fun _ => rfl
    rw [after, after, same.requirement]
  | exhaustWave requirementId waveNumber =>
    refine ⟨same.requirement, ?_, same.dispatchJobs, same.timeoutJobs⟩
    have own (waves : List Wave) : (Table.modify Wave.key waves [(requirementId, waveNumber)]
          fun w => { w with status := .exhausted }).filter (fun w => w.requirementId = id) =
        Table.modify Wave.key (waves.filter fun w => w.requirementId = id)
          [(requirementId, waveNumber)] fun w => { w with status := .exhausted } := by
      simp only [Table.modify, List.filter_map]
      congr 1
      refine List.filter_congr fun w _ => ?_
      simp only [Function.comp]
      split <;> rfl
    simp only [Write.apply, own, same.waves]
  | addDispatchJob q =>
    refine ⟨same.requirement, same.waves, ?_, same.timeoutJobs⟩
    obtain rfl := of_decide_eq_true repairs
    -- only jobs of the same requirement have the same id
    have clash (jobs : List DispatchJobData) : jobs.any q.clash =
        (jobs.filter fun p => p.requirementId = q.requirementId).any q.clash := by
      rw [List.any_filter]
      congr 1
      funext p
      rw [Bool.eq_iff_iff, Bool.and_eq_true]
      simp only [DispatchJobData.clash, DispatchJobData.key, Prod.mk.injEq, decide_eq_true_eq]
      exact ⟨fun named => ⟨named.1.symm, named⟩, And.right⟩
    simp only [Write.apply, Table.insert, clash e.dispatchQueue, clash d.dispatchQueue,
      same.dispatchJobs]
    split
    · exact same.dispatchJobs
    · rw [List.filter_append, List.filter_append, same.dispatchJobs]
  | addTimeoutJob q =>
    refine ⟨same.requirement, same.waves, same.dispatchJobs, ?_⟩
    obtain rfl := of_decide_eq_true repairs
    have clash (jobs : List TimeoutJobData) : jobs.any q.clash =
        (jobs.filter fun p => p.requirementId = q.requirementId).any q.clash := by
      rw [List.any_filter]
      congr 1
      funext p
      rw [Bool.eq_iff_iff, Bool.and_eq_true]
      simp only [TimeoutJobData.clash, TimeoutJobData.key, Prod.mk.injEq, decide_eq_true_eq]
      exact ⟨fun named => ⟨named.1.symm, named⟩, And.right⟩
    simp only [Write.apply, Table.insert, clash e.timeoutQueue, clash d.timeoutQueue,
      same.timeoutJobs]
    split
    · exact same.timeoutJobs
    · rw [List.filter_append, List.filter_append, same.timeoutJobs]
  | dispatchStatus offers s =>
    exact ⟨same.requirement, same.waves, same.dispatchJobs, same.timeoutJobs⟩
  | _ => cases repairs

theorem SameFor.writes {id : Id} {ws : List Write} {d e : Db} (same : SameFor id d e)
    (repairs : ∀ w ∈ ws, w.repairs id = true) : SameFor id (applyAll ws d) (applyAll ws e) := by
  induction ws generalizing d e with
  | nil => exact same
  | cons w ws ih =>
    have first := same.write (repairs w List.mem_cons_self)
    exact ih first fun v member => repairs v (List.mem_cons_of_mem w member)

theorem repairWrites_sameFor {cfg : Config} {now : Nat} {req : Requirement} {offers : List (Id × Id)}
    {latest : Option Wave} {id : Id} (differ : req.id ≠ id) (d : Db) :
    SameFor id d (applyAll (repairWrites cfg now req offers latest) d) :=
  sameFor_applyAll (fun _ member => repairs_of_mem member) differ d

/-! ### The scan -/

/-- What the scan leaves of one requirement: it has passed it over, or it has made the writes of
its repair. -/
def Visited (cfg : Config) (now : Nat) (candidates : List (Requirement × Option Wave)) (d d' : Db)
    (id : Id) : Prop :=
  (∀ c ∈ candidates, c.1.id = id → c.1.isFull = true) ∧ SameFor id d d' ∨
  ∃ c ∈ candidates, c.1.id = id ∧ c.1.isFull = false ∧ ∃ offers,
    SameFor id (applyAll (repairWrites cfg now c.1 offers ((d.latestWave id).or c.2)) d) d'

theorem repairAll_visited {cfg : Config} {now : Nat} {candidates : List (Requirement × Option Wave)}
    (distinct : (candidates.map fun c => c.1.id).Nodup) {d : Db}
    (known : ∀ c ∈ candidates, (d.requirement c.1.id).isSome) (report : ReconciliationReport) :
    Call.result true (fun r tx d' => tx = none ∧
        (∃ last, r = .ok last ∧ last.errors = report.errors) ∧
        ∀ id, Visited cfg now candidates d d' id)
      (repairAll cfg now report candidates) none d := by
  induction candidates generalizing d report with
  | nil =>
    rw [repairAll, Call.result_pure]
    exact ⟨rfl, ⟨report, rfl, rfl⟩, fun id => Or.inl ⟨by simp, .refl id d⟩⟩
  | cons c rest ih =>
    obtain ⟨req, scanned⟩ := c
    obtain ⟨fresh, distinct⟩ := List.nodup_cons.mp distinct
    have knownRest : ∀ c ∈ rest, (d.requirement c.1.id).isSome := fun c member =>
      known c (List.mem_cons_of_mem _ member)
    rw [repairAll]
    split
    next full =>
      refine Call.result_mono ?_ (ih distinct knownRest report)
      rintro r tx d' ⟨rfl, ended, others⟩
      refine ⟨rfl, ended, fun id => ?_⟩
      rcases others id with ⟨passed, same⟩ | ⟨c, member, own, open_, repaired⟩
      · refine Or.inl ⟨fun c member own => ?_, same⟩
        rcases List.mem_cons.mp member with rfl | member
        · exact full
        · exact passed c member own
      · exact Or.inr ⟨c, List.mem_cons_of_mem _ member, own, open_, repaired⟩
    next notFull =>
      obtain ⟨offers, makes⟩ := repair_makes cfg now scanned (known _ List.mem_cons_self)
      rw [Call.result_bind]
      refine Call.result_mono ?_ makes
      rintro r tx d₁ ⟨rfl, ⟨repaired, rfl, clean⟩, made⟩
      have later : ∀ id, req.id ≠ id → SameFor id d d₁ := fun id differ =>
        made ▸ repairWrites_sameFor differ d
      have apart : ∀ c ∈ rest, req.id ≠ c.1.id := fun c member same =>
        fresh (List.mem_map.mpr ⟨c, member, same.symm⟩)
      have knownLater : ∀ c ∈ rest, (d₁.requirement c.1.id).isSome := by
        intro c member
        rw [(later c.1.id (apart c member)).requirement]
        exact knownRest c member
      rw [Call.resultThen_ok]
      refine Call.result_mono ?_ (ih distinct knownLater (report.add repaired))
      rintro r tx d' ⟨rfl, ⟨last, rfl, errors⟩, others⟩
      refine ⟨rfl, ⟨last, rfl, ?_⟩, fun id => ?_⟩
      · rw [errors, ReconciliationReport.add, clean, List.append_nil]
      · by_cases own : req.id = id
        · -- its repair is the only one that the scan makes for it
          subst own
          rcases others req.id with ⟨-, same⟩ | ⟨c, member, mine, -⟩
          · exact Or.inr ⟨_, List.mem_cons_self, rfl, Bool.eq_false_iff.mpr notFull, offers,
              made ▸ same⟩
          · exact absurd mine.symm (apart c member)
        · rcases others id with ⟨passed, same⟩ | ⟨c, member, rfl, open_, offers, after⟩
          · refine Or.inl ⟨fun c member mine => ?_, (later id own).trans same⟩
            rcases List.mem_cons.mp member with rfl | member
            · exact absurd mine own
            · exact passed c member mine
          · refine Or.inr ⟨c, List.mem_cons_of_mem _ member, rfl, open_, offers, ?_⟩
            rw [(later c.1.id own).latestWave] at after
            exact ((later c.1.id own).writes fun _ member => repairs_of_mem member).trans after

/-- What the requirements that are scanned have come to. -/
theorem reconcile_visited (cfg : Config) {d : Db}
    (unique : Table.Unique Requirement.id d.requirements) :
    Call.result true (fun r tx d' => tx = none ∧
        (∃ report, r = .ok report ∧ report.errors = []) ∧
        ∀ id, Visited cfg d.now (d.reconcilable.map fun r => (r, d.latestWave r.id)) d d' id)
      (reconcileDispatchState cfg) none d := by
  simp only [reconcileDispatchState, Call.result_bind, query, Call.result_read, Call.resultThen_ok,
    Tx.view_none]
  have distinct : ((d.reconcilable.map fun r => (r, d.latestWave r.id)).map fun c => c.1.id).Nodup := by
    rw [List.map_map]
    exact unique.sublist (List.filter_sublist.map Requirement.id)
  have known : ∀ c ∈ d.reconcilable.map fun r => (r, d.latestWave r.id),
      (d.requirement c.1.id).isSome := by
    intro c member
    obtain ⟨r, scanned, rfl⟩ := List.mem_map.mp member
    have found : d.requirement r.id = some r :=
      Table.find_of_mem unique (List.mem_of_mem_filter scanned)
    rw [found]
    rfl
  exact repairAll_visited distinct known _

/-! ### Requirements that are looked after -/

/-- The requirement still needs workers. -/
structure WantsWorkers (d : Db) (r : Requirement) : Prop where
  unfilled : r.workerCountFilled < r.workerCountNeeded
  notCancelled : r.status ≠ .CANCELLED
  jobGoesOn : ∀ job, d.job r.jobId = some job → job.status ≠ .COMPLETED ∧ job.status ≠ .CANCELLED

/-- The queue of `d'` holds a dispatch job of this id that will be delivered. The states are those
of the jobs that the queue of `d` holds; a job that has been added since waits. -/
def DispatchWaits (states : QueueStates) (d d' : Db) (key : Id × Nat) : Prop :=
  key ∈ d'.dispatchKeys ∧ (key ∈ d.dispatchKeys → (states.dispatch key).due = true)

/-- The same of a timeout job. -/
def TimeoutWaits (states : QueueStates) (d d' : Db) (key : Id × Nat) : Prop :=
  key ∈ d'.timeoutKeys ∧ (key ∈ d.timeoutKeys → (states.timeout key).due = true)

/-- The search has been given up, or a job will go on with it. -/
def Served (states : QueueStates) (d d' : Db) (id : Id) : Prop :=
  (d'.requirement id).map Requirement.status = some .NO_WORKERS_AVAILABLE ∨
  DispatchWaits states d d' (id, d'.nextWave id) ∨
  ∃ w ∈ d'.waves, w.requirementId = id ∧ w.status = .active ∧ TimeoutWaits states d d' w.key

namespace Db

/-- The scan takes up the wave's requirement and closes the wave. -/
def closes (cfg : Config) (d : Db) (w : Wave) : Prop :=
  (∃ r ∈ d.reconcilable, r.id = w.requirementId) ∧ d.latestWave w.requirementId = some w ∧
    w.notifiedAt + cfg.timeoutMs ≤ d.now

/-- The queue holds no job under the id of the one that the scan adds for the requirement. -/
def clear (cfg : Config) (d : Db) (r : Requirement) : Prop :=
  match d.latestWave r.id with
  | none => (r.id, 1) ∉ d.dispatchKeys
  | some latest =>
    if latest.status = .active ∧ d.now < latest.notifiedAt + cfg.timeoutMs then
      latest.key ∉ d.timeoutKeys
    else (planDispatchWave cfg r.workerCountNeeded r.workerCountFilled
        (latest.waveNumber + 1)).canDispatch = true →
      (r.id, latest.waveNumber + 1) ∉ d.dispatchKeys

end Db

/-- Before the scan: the search has been given up, a job will go on with it whose wave the scan
does not close, or the scan takes the requirement up and nothing is in the way of its job. -/
def Rescued (cfg : Config) (states : QueueStates) (d : Db) (id : Id) : Prop :=
  (d.requirement id).map Requirement.status = some .NO_WORKERS_AVAILABLE ∨
  DispatchWaits states d d (id, d.nextWave id) ∨
  (∃ w ∈ d.waves, w.requirementId = id ∧ w.status = .active ∧ TimeoutWaits states d d w.key ∧
    ¬ d.closes cfg w) ∨
  ∃ r ∈ d.reconcilable, r.id = id ∧ d.clear cfg r

section Served

variable {cfg : Config} {states : QueueStates} {d d' e : Db} {id : Id} {r : Requirement}

theorem SameFor.mem_dispatchKeys (same : SameFor id d d') (n : Nat) :
    (id, n) ∈ d'.dispatchKeys ↔ (id, n) ∈ d.dispatchKeys := by
  have own (jobs : List DispatchJobData) : (id, n) ∈ jobs.map DispatchJobData.key ↔
      (id, n) ∈ (jobs.filter fun q => q.requirementId = id).map DispatchJobData.key := by
    simp only [List.mem_map, List.mem_filter, decide_eq_true_eq]
    constructor
    · rintro ⟨q, member, named⟩
      exact ⟨q, ⟨member, congrArg Prod.fst named⟩, named⟩
    · rintro ⟨q, ⟨member, -⟩, named⟩
      exact ⟨q, member, named⟩
  rw [Db.dispatchKeys, Db.dispatchKeys, own, same.dispatchJobs, ← own]

theorem SameFor.mem_timeoutKeys (same : SameFor id d d') (n : Nat) :
    (id, n) ∈ d'.timeoutKeys ↔ (id, n) ∈ d.timeoutKeys := by
  have own (jobs : List TimeoutJobData) : (id, n) ∈ jobs.map TimeoutJobData.key ↔
      (id, n) ∈ (jobs.filter fun q => q.requirementId = id).map TimeoutJobData.key := by
    simp only [List.mem_map, List.mem_filter, decide_eq_true_eq]
    constructor
    · rintro ⟨q, member, named⟩
      exact ⟨q, ⟨member, congrArg Prod.fst named⟩, named⟩
    · rintro ⟨q, ⟨member, -⟩, named⟩
      exact ⟨q, member, named⟩
  rw [Db.timeoutKeys, Db.timeoutKeys, own, same.timeoutJobs, ← own]

theorem SameFor.mem_waves (same : SameFor id d d') {w : Wave} (mine : w.requirementId = id) :
    w ∈ d'.waves ↔ w ∈ d.waves := by
  have own (waves : List Wave) : w ∈ waves ↔ w ∈ waves.filter fun w => w.requirementId = id := by
    simp [List.mem_filter, mine]
  rw [own d'.waves, same.waves, ← own]

/-- Who looks after a requirement is seen from what the scan finds of it. -/
theorem SameFor.served (same : SameFor id d' e) : Served states d e id ↔ Served states d d' id := by
  have next : e.nextWave id = d'.nextWave id := by rw [Db.nextWave, Db.nextWave, same.latestWave]
  have waves : (∃ w ∈ e.waves, w.requirementId = id ∧ w.status = .active ∧
        TimeoutWaits states d e w.key) ↔
      ∃ w ∈ d'.waves, w.requirementId = id ∧ w.status = .active ∧ TimeoutWaits states d d' w.key := by
    refine exists_congr fun w => ?_
    constructor
    · rintro ⟨member, rfl, active, queued, due⟩
      exact ⟨(same.mem_waves rfl).mp member, rfl, active, (same.mem_timeoutKeys _).mp queued, due⟩
    · rintro ⟨member, rfl, active, queued, due⟩
      exact ⟨(same.mem_waves rfl).mpr member, rfl, active, (same.mem_timeoutKeys _).mpr queued, due⟩
  rw [Served, Served, waves, same.requirement, next, DispatchWaits, DispatchWaits,
    same.mem_dispatchKeys]

theorem mem_dispatchKeys_add {q : DispatchJobData} {key : Id × Nat} :
    key ∈ ((Write.addDispatchJob q).apply d).dispatchKeys ↔ key ∈ d.dispatchKeys ∨ key = q.key := by
  simp only [Db.dispatchKeys, Write.apply, Table.insert]
  split
  next clash =>
    obtain ⟨old, member, named⟩ := List.any_eq_true.mp clash
    have held : q.key ∈ d.dispatchQueue.map DispatchJobData.key :=
      List.mem_map.mpr ⟨old, member, (of_decide_eq_true named).symm⟩
    exact ⟨Or.inl, fun either => either.elim (fun held => held) fun same => same ▸ held⟩
  next => rw [List.map_append, List.mem_append, List.map_singleton, List.mem_singleton]

theorem mem_timeoutKeys_add {q : TimeoutJobData} {key : Id × Nat} :
    key ∈ ((Write.addTimeoutJob q).apply d).timeoutKeys ↔ key ∈ d.timeoutKeys ∨ key = q.key := by
  simp only [Db.timeoutKeys, Write.apply, Table.insert]
  split
  next clash =>
    obtain ⟨old, member, named⟩ := List.any_eq_true.mp clash
    have held : q.key ∈ d.timeoutQueue.map TimeoutJobData.key :=
      List.mem_map.mpr ⟨old, member, (of_decide_eq_true named).symm⟩
    exact ⟨Or.inl, fun either => either.elim (fun held => held) fun same => same ▸ held⟩
  next => rw [List.map_append, List.mem_append, List.map_singleton, List.mem_singleton]

/-- The scan finds the latest wave by its number, which no change of a status moves. -/
theorem latestWave_modify (id : Id) {f : Wave → Wave}
    (number : ∀ w, (f w).waveNumber = w.waveNumber) (own : ∀ w, (f w).requirementId = w.requirementId)
    (after : e.waves = d.waves.map f) : e.latestWave id = (d.latestWave id).map f := by
  have mine : (d.waves.map f).filter (fun w => w.requirementId = id) =
      (d.waves.filter fun w => w.requirementId = id).map f := by
    rw [List.filter_map]
    congr 1
    exact List.filter_congr fun w _ => by simp [own]
  rw [Db.latestWave, Db.latestWave, after, mine, List.foldl_map]
  -- the best wave so far is the same one, changed
  have step : ∀ (rest : List Wave) (best : Option Wave), rest.foldl (fun best w =>
        match best with
        | none => some (f w)
        | some b => if b.waveNumber < (f w).waveNumber then some (f w) else some b) (best.map f) =
      (rest.foldl (fun best w =>
        match best with
        | none => some w
        | some b => if b.waveNumber < w.waveNumber then some w else some b) best).map f := by
    intro rest
    induction rest with
    | nil => exact fun _ => rfl
    | cons w rest ih =>
      intro best
      rw [List.foldl_cons, List.foldl_cons, ← ih]
      congr 1
      cases best with
      | none => rfl
      | some b =>
        simp only [Option.map_some, number]
        split <;> rfl
  exact step _ none

/-- Closing a wave changes no wave number. -/
theorem nextWave_exhaust (requirementId : Id) (n : Nat) :
    ((Write.exhaustWave requirementId n).apply d).nextWave id = d.nextWave id := by
  have after : ((Write.exhaustWave requirementId n).apply d).waves =
      Table.modify Wave.key d.waves [(requirementId, n)] fun w => { w with status := .exhausted } := rfl
  rw [Table.modify] at after
  have latest := latestWave_modify id (fun w => by split <;> rfl) (fun w => by split <;> rfl) after
  rw [Db.nextWave, Db.nextWave, latest]
  cases d.latestWave id with
  | none => rfl
  | some w =>
    simp only [Option.map_some]
    split <;> rfl

/-- A requirement that the scan passes over. -/
theorem served_passed (passed : ∀ r ∈ d.reconcilable, r.id ≠ id) :
    Served states d d id ↔ Rescued cfg states d id := by
  have open_ : ∀ w ∈ d.waves, w.requirementId = id → ¬ d.closes cfg w := by
    rintro w - rfl ⟨⟨r, scanned, named⟩, -⟩
    exact passed r scanned named
  have unscanned : ¬ ∃ r ∈ d.reconcilable, r.id = id ∧ d.clear cfg r := by
    rintro ⟨r, scanned, named, -⟩
    exact passed r scanned named
  rw [Served, Rescued]
  constructor
  · rintro (given | waits | ⟨w, member, mine, active, waits⟩)
    · exact Or.inl given
    · exact Or.inr (Or.inl waits)
    · exact Or.inr (Or.inr (Or.inl ⟨w, member, mine, active, waits, open_ w member mine⟩))
  · rintro (given | waits | ⟨w, member, mine, active, waits, -⟩ | taken)
    · exact Or.inl given
    · exact Or.inr (Or.inl waits)
    · exact Or.inr (Or.inr ⟨w, member, mine, active, waits⟩)
    · exact absurd taken unscanned

/-- A requirement that the scan takes up is open, and its own row decides. -/
theorem rescued_scanned (ids : Table.Unique Requirement.id d.requirements)
    (scanned : r ∈ d.reconcilable) : Rescued cfg states d r.id ↔
      DispatchWaits states d d (r.id, d.nextWave r.id) ∨
      (∃ w ∈ d.waves, w.requirementId = r.id ∧ w.status = .active ∧ TimeoutWaits states d d w.key ∧
        ¬ d.closes cfg w) ∨ d.clear cfg r := by
  obtain ⟨stored, selected⟩ := List.mem_filter.mp scanned
  have found : d.requirement r.id = some r := Table.find_of_mem ids stored
  have open_ := of_decide_eq_true (Bool.and_eq_true_iff.mp selected).1
  have searching : (d.requirement r.id).map Requirement.status ≠ some .NO_WORKERS_AVAILABLE := by
    rw [found, Option.map_some]
    rcases open_ with status | status <;> simp [status]
  have one : (∃ r' ∈ d.reconcilable, r'.id = r.id ∧ d.clear cfg r') ↔ d.clear cfg r := by
    constructor
    · rintro ⟨r', scanned', named, free⟩
      rwa [Table.eq_of_find ids found (List.mem_of_mem_filter scanned') named] at free
    · exact fun free => ⟨r, scanned, rfl, free⟩
  rw [Rescued, one, or_iff_right searching]

/-- The job of the next wave is added to a store in which the scan may have closed a wave. -/
theorem served_added {q : DispatchJobData} (searching : (e.requirement id).map Requirement.status ≠
      some .NO_WORKERS_AVAILABLE) (next : e.nextWave id = d.nextWave id)
    (queue : e.dispatchQueue = d.dispatchQueue) (timeouts : e.timeoutQueue = d.timeoutQueue)
    (waves : ∀ w, w.requirementId = id → w.status = .active →
      (w ∈ e.waves ↔ w ∈ d.waves ∧ ¬ d.closes cfg w)) (named : q.key = (id, d.nextWave id)) :
    Served states d ((Write.addDispatchJob q).apply e) id ↔
      DispatchWaits states d d (id, d.nextWave id) ∨
      (∃ w ∈ d.waves, w.requirementId = id ∧ w.status = .active ∧ TimeoutWaits states d d w.key ∧
        ¬ d.closes cfg w) ∨ (id, d.nextWave id) ∉ d.dispatchKeys := by
  have same : ((Write.addDispatchJob q).apply e).nextWave id = d.nextWave id := next
  have held : e.dispatchKeys = d.dispatchKeys := by rw [Db.dispatchKeys, queue, ← Db.dispatchKeys]
  have heldTimeouts : ((Write.addDispatchJob q).apply e).timeoutKeys = d.timeoutKeys := by
    rw [Db.timeoutKeys, Db.timeoutKeys, ← timeouts]
    rfl
  -- the job is added unless the queue holds one under its key
  have added : DispatchWaits states d ((Write.addDispatchJob q).apply e) (id, d.nextWave id) ↔
      DispatchWaits states d d (id, d.nextWave id) ∨ (id, d.nextWave id) ∉ d.dispatchKeys := by
    rw [DispatchWaits, DispatchWaits, mem_dispatchKeys_add, held, named]
    by_cases present : (id, d.nextWave id) ∈ d.dispatchKeys <;> simp [present]
  have active : (∃ w ∈ ((Write.addDispatchJob q).apply e).waves, w.requirementId = id ∧
        w.status = .active ∧ TimeoutWaits states d ((Write.addDispatchJob q).apply e) w.key) ↔
      ∃ w ∈ d.waves, w.requirementId = id ∧ w.status = .active ∧ TimeoutWaits states d d w.key ∧
        ¬ d.closes cfg w := by
    refine exists_congr fun w => ?_
    rw [TimeoutWaits, TimeoutWaits, heldTimeouts]
    constructor
    · rintro ⟨member, mine, active, waits⟩
      obtain ⟨before, open_⟩ := (waves w mine active).mp member
      exact ⟨before, mine, active, waits, open_⟩
    · rintro ⟨before, mine, active, waits, open_⟩
      exact ⟨(waves w mine active).mpr ⟨before, open_⟩, mine, active, waits⟩
  have given : ¬ (((Write.addDispatchJob q).apply e).requirement id).map Requirement.status =
      some .NO_WORKERS_AVAILABLE := searching
  rw [Served, or_iff_right given, same, added, active, or_assoc]
  exact or_congr_right or_comm

/-- The timeout of an active wave is enqueued again. -/
theorem served_restored {latest : Wave} {q : TimeoutJobData}
    (searching : (d.requirement id).map Requirement.status ≠ some .NO_WORKERS_AVAILABLE)
    (found : d.latestWave id = some latest) (active : latest.status = .active)
    (flight : d.now < latest.notifiedAt + cfg.timeoutMs) (named : q.key = latest.key) :
    Served states d ((Write.addTimeoutJob q).apply d) id ↔
      DispatchWaits states d d (id, d.nextWave id) ∨
      (∃ w ∈ d.waves, w.requirementId = id ∧ w.status = .active ∧ TimeoutWaits states d d w.key ∧
        ¬ d.closes cfg w) ∨ latest.key ∉ d.timeoutKeys := by
  obtain ⟨stored, own⟩ := latestWave_mem found
  have open_ : ∀ w : Wave, w.requirementId = id → ¬ d.closes cfg w := by
    rintro w rfl ⟨-, last, expired⟩
    rw [Option.some.inj (last.symm.trans found)] at expired
    omega
  have active_ : (∃ w ∈ d.waves, w.requirementId = id ∧ w.status = .active ∧
        TimeoutWaits states d ((Write.addTimeoutJob q).apply d) w.key) ↔
      (∃ w ∈ d.waves, w.requirementId = id ∧ w.status = .active ∧ TimeoutWaits states d d w.key ∧
        ¬ d.closes cfg w) ∨ latest.key ∉ d.timeoutKeys := by
    constructor
    · rintro ⟨w, member, mine, running, queued, due⟩
      by_cases present : w.key ∈ d.timeoutKeys
      · exact Or.inl ⟨w, member, mine, running, ⟨present, due⟩, open_ w mine⟩
      · -- the job is new, so it is the one of the latest wave
        have new := (mem_timeoutKeys_add.mp queued).resolve_left present
        exact Or.inr (named ▸ new ▸ present)
    · rintro (⟨w, member, mine, running, ⟨queued, due⟩, -⟩ | absent)
      · exact ⟨w, member, mine, running, mem_timeoutKeys_add.mpr (Or.inl queued), due⟩
      · exact ⟨latest, stored, own, active, mem_timeoutKeys_add.mpr (Or.inr named.symm),
          fun held => absurd held absent⟩
  have given : ¬ (((Write.addTimeoutJob q).apply d).requirement id).map Requirement.status =
      some .NO_WORKERS_AVAILABLE := searching
  have waiting : DispatchWaits states d ((Write.addTimeoutJob q).apply d)
      (id, ((Write.addTimeoutJob q).apply d).nextWave id) ↔
      DispatchWaits states d d (id, d.nextWave id) := Iff.rfl
  rw [Served, or_iff_right given, waiting]
  exact or_congr_right active_

/-- The active waves that the scan leaves when it closes the latest one. -/
theorem mem_waves_closed {latest w : Wave} (waveKeys : Table.Unique Wave.key d.waves)
    (scanned : r ∈ d.reconcilable) (last : d.latestWave r.id = some latest)
    (expired : latest.notifiedAt + cfg.timeoutMs ≤ d.now) (mine : w.requirementId = r.id)
    (active : w.status = .active) :
    w ∈ ((Write.exhaustWave r.id latest.waveNumber).apply d).waves ↔
      w ∈ d.waves ∧ ¬ d.closes cfg w := by
  obtain ⟨inside, own⟩ := latestWave_mem last
  have key : latest.key = (r.id, latest.waveNumber) := by rw [Wave.key, own]
  simp only [Write.apply, Table.mem_modify, List.mem_singleton, ← key]
  constructor
  · rintro ⟨old, member, rfl⟩
    split at active
    · cases active
    next other =>
      rw [if_neg other] at mine ⊢
      refine ⟨member, fun closes => other ?_⟩
      obtain ⟨-, newest, -⟩ := closes
      rw [mine] at newest
      rw [Option.some.inj (newest.symm.trans last)]
  · rintro ⟨member, open_⟩
    refine ⟨w, member, (if_neg fun same => open_ ?_).symm⟩
    obtain rfl := Table.eq_of_find waveKeys (Table.find_of_mem waveKeys inside) member same
    exact ⟨⟨r, scanned, own.symm⟩, by rw [own, last], expired⟩

/-- Giving up serves the requirement. -/
theorem served_given (ws : List Write) (known : ((applyAll ws d).requirement id).isSome) :
    Served states d (applyAll (ws ++ [.requirementStatus [id] .NO_WORKERS_AVAILABLE]) d) id := by
  obtain ⟨row, found⟩ := Option.isSome_iff_exists.mp known
  have after : ((Write.requirementStatus [id] .NO_WORKERS_AVAILABLE).apply
      (applyAll ws d)).requirement id = ((applyAll ws d).requirement id).map fun row =>
        if id ∈ [id] then { row with status := .NO_WORKERS_AVAILABLE } else row :=
    Table.find_modify _ _ _ _ fun _ => rfl
  refine Or.inl ?_
  rw [applyAll_append, applyAll_cons, applyAll_nil, write_eq_apply, after, found]
  simp

theorem served_repaired (ids : Table.Unique Requirement.id d.requirements)
    (waveKeys : Table.Unique Wave.key d.waves) (scanned : r ∈ d.reconcilable)
    (offers : List (Id × Id)) :
    Served states d (applyAll (repairWrites cfg d.now r offers (d.latestWave r.id)) d) r.id ↔
      Rescued cfg states d r.id := by
  obtain ⟨stored, selected⟩ := List.mem_filter.mp scanned
  have found : d.requirement r.id = some r := Table.find_of_mem ids stored
  have open_ := of_decide_eq_true (Bool.and_eq_true_iff.mp selected).1
  have searching : (d.requirement r.id).map Requirement.status ≠ some .NO_WORKERS_AVAILABLE := by
    rw [found, Option.map_some]
    rcases open_ with status | status <;> simp [status]
  rw [rescued_scanned ids scanned]
  cases last : d.latestWave r.id with
  | none =>
    have next : d.nextWave r.id = 1 := by rw [Db.nextWave, last]
    have clear : d.clear cfg r ↔ (r.id, d.nextWave r.id) ∉ d.dispatchKeys := by
      rw [Db.clear, last, next]
    have waves : ∀ w : Wave, w.requirementId = r.id → w.status = .active →
        (w ∈ d.waves ↔ w ∈ d.waves ∧ ¬ d.closes cfg w) := by
      rintro w mine -
      refine ⟨fun member => ⟨member, ?_⟩, And.left⟩
      exact absurd mine (latestWave_none last w member)
    rw [clear]
    by_cases opened : r.status = .DISPATCHING
    · have writes : repairWrites cfg d.now r offers none =
          [.addDispatchJob { requirementId := r.id, jobId := r.jobId }] := by
        simp [repairWrites, startWrites, opened]
      rw [writes]
      exact served_added searching rfl rfl rfl waves (by rw [next]; rfl)
    · have writes : repairWrites cfg d.now r offers none =
          [.requirementStatus [r.id] .DISPATCHING,
            .addDispatchJob { requirementId := r.id, jobId := r.jobId }] := by
        simp [repairWrites, startWrites, opened]
      rw [writes]
      refine served_added (e := (Write.requirementStatus [r.id] .DISPATCHING).apply d) ?_ rfl rfl rfl
        waves (by rw [next]; rfl)
      have after : ((Write.requirementStatus [r.id] .DISPATCHING).apply d).requirement r.id =
          (d.requirement r.id).map fun row => if r.id ∈ [r.id] then
            { row with status := .DISPATCHING } else row :=
        Table.find_modify _ _ _ _ fun _ => rfl
      rw [after, found]
      simp
  | some latest =>
    obtain ⟨inside, own⟩ := latestWave_mem last
    have next : d.nextWave r.id = latest.waveNumber + 1 := by rw [Db.nextWave, last]
    by_cases flight : latest.status = .active ∧ d.now < latest.notifiedAt + cfg.timeoutMs
    · have clear : d.clear cfg r ↔ latest.key ∉ d.timeoutKeys := by
        simp only [Db.clear, last, if_pos flight]
      have writes : repairWrites cfg d.now r offers (some latest) =
          [.addTimeoutJob { requirementId := r.id, jobId := r.jobId
                            waveNumber := latest.waveNumber
                            totalWorkersFound := latest.workersNotified
                            offset := (latest.waveNumber - 1) * latest.workersNotified
                            waveSize := latest.workersNotified }] := by
        simp only [repairWrites, flight.1, if_neg (Nat.not_le.mpr flight.2)]
      rw [clear, writes]
      exact served_restored searching last flight.1 flight.2 (by rw [Wave.key, own]; rfl)
    · have clear : d.clear cfg r ↔ ((planDispatchWave cfg r.workerCountNeeded r.workerCountFilled
          (latest.waveNumber + 1)).canDispatch = true →
            (r.id, latest.waveNumber + 1) ∉ d.dispatchKeys) := by
        simp only [Db.clear, last, if_neg flight]
      rw [clear]
      -- an active wave has expired, and is closed first
      cases status : latest.status with
      | active =>
        have expired : latest.notifiedAt + cfg.timeoutMs ≤ d.now :=
          Nat.not_lt.mp fun before => flight ⟨status, before⟩
        have writes : repairWrites cfg d.now r offers (some latest) =
            closingWrites r latest offers ++ nextWrites cfg r latest := by
          simp only [repairWrites, status, if_pos expired]
        rw [writes, nextWrites]
        split
        next can =>
          rw [applyAll_append]
          refine (served_added (d := d) (e := applyAll (closingWrites r latest offers) d)
            (q := nextJob r latest) searching (nextWave_exhaust _ _) rfl rfl
            (fun w mine active => mem_waves_closed waveKeys scanned last expired mine active)
            (by rw [next]; rfl)).trans ?_
          rw [next]
          simp [can]
        next cannot =>
          refine iff_of_true (served_given _ ?_) (Or.inr (Or.inr fun can => absurd can cannot))
          exact Option.isSome_iff_exists.mpr ⟨r, found⟩
      | exhausted =>
        have open_ : ∀ w : Wave, w.requirementId = r.id → w.status = .active →
            (w ∈ d.waves ↔ w ∈ d.waves ∧ ¬ d.closes cfg w) := by
          refine fun w mine active => ⟨fun member => ⟨member, fun ⟨_, newest, _⟩ => ?_⟩, And.left⟩
          rw [mine, last] at newest
          rw [← Option.some.inj newest, status] at active
          cases active
        have writes : repairWrites cfg d.now r offers (some latest) = nextWrites cfg r latest := by
          simp only [repairWrites, status]
        rw [writes, nextWrites]
        split
        next can =>
          refine (served_added (d := d) (e := d) (q := nextJob r latest) searching rfl rfl rfl open_
            (by rw [next]; rfl)).trans ?_
          rw [next]
          simp [can]
        next cannot =>
          refine iff_of_true ?_ (Or.inr (Or.inr fun can => absurd can cannot))
          exact served_given [] (Option.isSome_iff_exists.mpr ⟨r, found⟩)

end Served

/-! ### Completeness -/

theorem requirementIds_unique_applyAll {d : Db} (ws : List Write)
    (unique : Table.Unique Requirement.id d.requirements) :
    Table.Unique Requirement.id (applyAll ws d).requirements := by
  induction ws generalizing d with
  | nil => exact unique
  | cons w ws ih =>
    refine ih ?_
    cases w with
    | insertRequirement r =>
      exact Table.unique_insert _ (fun _ same => decide_eq_true same) unique
    | requirementStatus _ _ | requirementFilled _ _ | requirementNeeded _ _ =>
      exact Table.unique_modify _ _ (fun _ => rfl) unique
    | _ => exact unique

theorem waveKeys_unique_applyAll {d : Db} (ws : List Write)
    (unique : Table.Unique Wave.key d.waves) : Table.Unique Wave.key (applyAll ws d).waves := by
  induction ws generalizing d with
  | nil => exact unique
  | cons w ws ih => exact ih (WaveBook.waveKeys_write w unique)

namespace Lossy

variable {cfg : Config} {p q : MarketPool}

/-- The tables keep their keys, whatever the calls write and the queues lose. -/
theorem unique (reached : Lossy cfg p) :
    Table.Unique Requirement.id p.db.requirements ∧ Table.Unique Wave.key p.db.waves := by
  induction reached with
  | start => exact ⟨List.nodup_nil, List.nodup_nil⟩
  | lost _ _ _ _ _ ih => exact ih
  | step e _ stepped ih =>
    obtain ⟨ws, after⟩ := Pool.writes_of_step stepped
    rw [after]
    exact ⟨requirementIds_unique_applyAll ws ih.1, waveKeys_unique_applyAll ws ih.2⟩

theorem reaches {ok : MarketPool → Event Op → Prop} (reached : Lossy cfg p)
    (more : Pool.Reaches (system cfg) ok p q) : Lossy cfg q := by
  induction more with
  | refl => exact reached
  | step e _ _ stepped ih => exact .step e ih stepped

end Lossy

section Completeness

variable {cfg : Config} {p q : MarketPool}

/-- The outcome of the scan when it is the only call to run, and the queues answer. -/
theorem alone_reconcile (cfg : Config) (me : Nat) {d : Db}
    (unique : Table.Unique Requirement.id d.requirements) :
    (∃ report, ((system cfg me .reconcileDispatchState).alone true none d).1 =
      .ok (.reconciled report) ∧ report.errors = []) ∧
    ∀ id, Visited cfg d.now (d.reconcilable.map fun r => (r, d.latestWave r.id)) d
      ((system cfg me .reconcileDispatchState).alone true none d).2.2 id := by
  have scanned := reconcile_visited cfg unique
  have sequenced : system cfg me .reconcileDispatchState =
      (reconcileDispatchState cfg).run.bind (ExceptT.bindCont fun a => pure (.reconciled a)) := rfl
  rw [sequenced, Prog.alone_bind]
  obtain ⟨-, ⟨report, returned, clean⟩, visited⟩ := scanned
  rw [returned]
  exact ⟨⟨report, rfl, clean⟩, visited⟩

/-- From every state that the marketplace reaches while its queues lose jobs, and in which no
transaction is open: a run of the scan by itself, with queues that answer, reports no error, and a
requirement that still needs workers afterwards is looked after exactly if it was given up or
looked after before, or the scan has taken it up and its queue held no job of the id in question. -/
theorem reconciliation_serves_iff (cfg : Config) (reached : Lossy cfg p) (idle : p.Idle)
    (states : QueueStates) :
    (∃ report, report.errors = [] ∧ Pool.Replies (system cfg) true p .reconcileDispatchState
      (.ok (.reconciled report))) ∧
    ∀ q, Pool.Ran (system cfg) true .reconcileDispatchState p q →
      ∀ r ∈ q.db.requirements, WantsWorkers q.db r →
        (Served states p.db q.db r.id ↔ Rescued cfg states p.db r.id) := by
  obtain ⟨ids, waveKeys⟩ := reached.unique
  obtain ⟨⟨report, replied, clean⟩, visited⟩ := alone_reconcile cfg p.threads.length ids
  refine ⟨⟨report, clean, (Pool.replies_iff idle _ _).mpr replied.symm⟩, fun q ran r member wants => ?_⟩
  have reachedAfter : Lossy cfg q := (Lossy.step (.spawn .reconcileDispatchState) reached rfl).reaches ran.1
  have found : q.db.requirement r.id = some r := Table.find_of_mem reachedAfter.unique.1 member
  rw [← ran.db idle] at visited
  rcases visited r.id with ⟨passed, same⟩ | ⟨c, candidate, own, -, offers, same⟩
  · rw [same.served]
    refine served_passed fun r' scanned named => ?_
    -- it was the same row before, and not full
    have before : p.db.requirement r.id = some r := same.requirement.symm.trans found
    obtain rfl := Table.eq_of_find ids before (List.mem_of_mem_filter scanned) named
    have full := passed _ (List.mem_map.mpr ⟨r', scanned, rfl⟩) rfl
    have open_ := of_decide_eq_true (Bool.and_eq_true_iff.mp (List.mem_filter.mp scanned).2).1
    rcases of_decide_eq_true full with filled | status
    · exact Nat.not_lt.mpr filled wants.unfilled
    · rw [status] at open_
      rcases open_ with h | h <;> cases h
  · obtain ⟨r', scanned, rfl⟩ := List.mem_map.mp candidate
    dsimp only at own same
    rw [same.served, ← own, Option.or_self]
    exact served_repaired ids waveKeys scanned offers

end Completeness

/-- All jobs of the queues are lost. -/
def emptied (p : MarketPool) : MarketPool :=
  { p with db := { p.db with dispatchQueue := [], timeoutQueue := [] } }

theorem lossy_emptied (moves : List (Pool.Move Op)) :
    Lossy plainConfig (emptied (played (fun _ _ => True) moves)) :=
  .lost [] [] (Lossy.start.reaches (runs_played _ moves)) (List.nil_sublist _) (List.nil_sublist _)

/-- A job for two workers has been created. -/
def jobCreated : List (Pool.Move Op) := firstAccepts.take 2

/-- Its first wave is lost and scheduled again. -/
theorem lost_wave_rescheduled : ∃ q,
    Pool.Ran (system plainConfig) true .reconcileDispatchState
      (emptied (played (fun _ _ => True) jobCreated)) q ∧
    q.db.requirements = [⟨1, 1, 2, 0, .DISPATCHING⟩] ∧
    Served ⟨fun _ => .failed, fun _ => .failed⟩
      (emptied (played (fun _ _ => True) jobCreated)).db q.db 1 := by
  have idle : (emptied (played (fun _ _ => True) jobCreated)).Idle := by
    have closed : ∀ th ∈ (emptied (played (fun _ _ => True) jobCreated)).threads,
        th.tx.isNone = true := by decide +kernel
    exact fun th member => Option.isNone_iff_eq_none.mp (closed th member)
  obtain ⟨q, ran⟩ := Pool.exists_ran (system plainConfig) true idle .reconcileDispatchState
  have after : q.db.requirements = [⟨1, 1, 2, 0, .DISPATCHING⟩] := by
    rw [ran.db idle]
    decide +kernel
  have jobs : q.db.jobs.map Job.status = [.DISPATCHING] := by
    rw [ran.db idle]
    decide +kernel
  have wants : WantsWorkers q.db ⟨1, 1, 2, 0, .DISPATCHING⟩ := by
    refine ⟨by decide, by decide, fun job found => ?_⟩
    have status : job.status ∈ q.db.jobs.map Job.status :=
      List.mem_map_of_mem (Table.mem_of_find found)
    rw [jobs, List.mem_singleton] at status
    rw [status]
    decide
  have rescued : Rescued plainConfig ⟨fun _ => .failed, fun _ => .failed⟩
      (emptied (played (fun _ _ => True) jobCreated)).db 1 := by
    refine Or.inr (Or.inr (Or.inr ⟨⟨1, 1, 2, 0, .DISPATCHING⟩, by decide +kernel, rfl, ?_⟩))
    have unsent : (emptied (played (fun _ _ => True) jobCreated)).db.latestWave 1 = none := by
      decide +kernel
    rw [Db.clear, unsent]
    exact List.not_mem_nil
  exact ⟨q, ran, after, ((reconciliation_serves_iff plainConfig (lossy_emptied jobCreated) idle
    ⟨fun _ => .failed, fun _ => .failed⟩).2 q ran _ (by rw [after]; exact List.mem_singleton_self _)
      wants).mpr rescued⟩

/-- After every run of the scan, all requirements that still need workers are looked after. -/
def ScanComplete (cfg : Config) : Prop :=
  ∀ p, Lossy cfg p → p.Idle → ∀ states q,
    Pool.Ran (system cfg) true .reconcileDispatchState p q →
      ∀ r ∈ q.db.requirements, WantsWorkers q.db r → Served states p.db q.db r.id

/-- One of two workers has accepted when the queues lose the timeout of the wave: the requirement
is PARTIALLY_FILLED, and the scan does not look at it. -/
theorem partially_filled_abandoned : ¬ ScanComplete plainConfig := by
  intro complete
  have idle : (emptied (played (fun _ _ => True) firstAccepts)).Idle := by
    have closed : ∀ th ∈ (emptied (played (fun _ _ => True) firstAccepts)).threads,
        th.tx.isNone = true := by decide +kernel
    exact fun th member => Option.isNone_iff_eq_none.mp (closed th member)
  obtain ⟨q, ran⟩ := Pool.exists_ran (system plainConfig) true idle .reconcileDispatchState
  have after : q.db.requirements = [⟨1, 1, 2, 1, .PARTIALLY_FILLED⟩] ∧
      q.db.jobs.map Job.status = [.DISPATCHING] ∧ q.db.dispatchQueue = [] ∧
      q.db.timeoutQueue = [] := by
    rw [ran.db idle]
    decide +kernel
  obtain ⟨requirements, jobs, dispatchQueue, timeoutQueue⟩ := after
  have wants : WantsWorkers q.db ⟨1, 1, 2, 1, .PARTIALLY_FILLED⟩ := by
    refine ⟨by decide, by decide, fun job found => ?_⟩
    have status : job.status ∈ q.db.jobs.map Job.status :=
      List.mem_map_of_mem (Table.mem_of_find found)
    rw [jobs, List.mem_singleton] at status
    rw [status]
    decide
  have served := complete _ (lossy_emptied firstAccepts) idle
    ⟨fun _ => .waiting, fun _ => .delayed⟩ q ran _
    (by rw [requirements]; exact List.mem_singleton_self _) wants
  rcases served with given | ⟨queued, -⟩ | ⟨w, -, -, -, queued, -⟩
  · rw [Db.requirement, requirements] at given
    revert given
    decide
  · rw [Db.dispatchKeys, dispatchQueue] at queued
    cases queued
  · rw [Db.timeoutKeys, timeoutQueue] at queued
    cases queued

end LabourBaba.Market
