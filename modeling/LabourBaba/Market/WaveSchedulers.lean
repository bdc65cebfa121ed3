import LabourBaba.Market.Progress

/-!
# Who schedules the next wave

Four places resolve a wave and ask the planner for the next one: the timeout of the wave, the
decline of its last offer, and the reconciliation of an expired or an exhausted wave. They read
different fields of the plan, and a timeout that the reconciliation has restored carries other
evidence about the candidates than the one enqueued with the wave.
-/
namespace LabourBaba.Market

open Store

/-- What `getDispatchWaveConfiguration` accepts. -/
structure Config.Valid (cfg : Config) : Prop where
  multiplier : 0 < cfg.workerMultiplier
  waves : 0 < cfg.maxWaves
  radii : cfg.radiusMetersByWave.length = cfg.maxWaves
  positive : ∀ radius ∈ cfg.radiusMetersByWave, 0 < radius

/-! ### The planner -/

section Planner

variable {cfg : Config} (valid : cfg.Valid)

include valid

theorem canDispatch_plan (needed filled wave : Nat) (exhausted : Bool) :
    (planDispatchWave cfg needed filled wave none exhausted).canDispatch =
      decide (wave ≤ cfg.maxWaves ∧ filled < needed) := by
  have multiplier := valid.multiplier
  have target : 0 < (needed - filled) * cfg.workerMultiplier ↔ filled < needed := by
    rw [Nat.mul_pos_iff_of_pos_right multiplier, Nat.sub_pos_iff_lt]
  simp only [planDispatchWave, decide_eq_decide, target]
  omega

theorem shouldTry_plan (needed filled wave : Nat) (exhausted : Bool) :
    (planDispatchWave cfg needed filled wave none exhausted).shouldTryNextWave =
      (decide (wave < cfg.maxWaves ∧ filled < needed) && !exhausted) := by
  have can := canDispatch_plan valid needed filled wave exhausted
  have field : (planDispatchWave cfg needed filled wave none exhausted).shouldTryNextWave =
      ((planDispatchWave cfg needed filled wave none exhausted).canDispatch &&
        !decide (cfg.maxWaves ≤ wave) && !exhausted) := rfl
  rw [field, can]
  cases exhausted
  · simp only [Bool.not_false, Bool.and_true]
    rw [← decide_not, ← Bool.decide_and, decide_eq_decide]
    omega
  · simp

end Planner

/-! ### Decisions -/

inductive Decision where
  | schedule
  | giveUp
deriving DecidableEq, Repr

/-- What a decision about the wave after `w` leaves: its dispatch job is added, or the
requirement is written off. -/
def Decision.Taken (r : Id) (w : Nat) (d d' : Db) : Decision → Prop
  | .schedule => d'.requirements = d.requirements ∧ ∃ q : DispatchJobData, q.key = (r, w + 1) ∧
      d'.dispatchQueue = Table.insert DispatchJobData.clash d.dispatchQueue q
  | .giveUp => d'.dispatchQueue = d.dispatchQueue ∧
      d'.requirements = Table.modify Requirement.id d.requirements [r] fun row =>
        { row with status := .NO_WORKERS_AVAILABLE }

/-- The call, alone and with the queue reachable, takes the decision. -/
def Decides {α : Type} (decision : Decision) (r : Id) (w : Nat) (c : Service α) (d : Db) : Prop :=
  Call.result true (fun res _ d' => res.isOk = true ∧ decision.Taken r w d d') c none d

/-- The store once the offers of a wave have timed out and the wave is closed. -/
def Db.timedOut (d : Db) (r : Id) (w : Nat) : Db :=
  applyAll [.dispatchStatus ((d.dispatches.filter fun x =>
      x.requirementId = r ∧ x.waveNumber = w ∧ x.status = .pending).map (·.key)) .timeout,
    .exhaustWave r w] d

section Calls

variable {cfg : Config} {d : Db} {r : Id} {w : Nat} {row : Requirement}

theorem result_noWorkers {Q : Except Failure Unit → Option MarketTx → Db → Prop} {ℓ : Label}
    {answer : Bool} (found : d.requirement r = some row) :
    Call.result answer Q (Call.stmt ℓ (noWorkers r)) none d =
      Q (.ok ()) none (write (.requirementStatus [r] .NO_WORKERS_AVAILABLE) d) := by
  simp [noWorkers, found]

theorem result_addDispatchJob {Q : Except Failure Unit → Option MarketTx → Db → Prop}
    {answer : Bool} {data : DispatchJobData} :
    Call.result answer Q (addDispatchJob data) none d =
      if answer then Q (.ok ()) none (write (.addDispatchJob data) d)
      else Q (.error .queueUnavailable) none d := by
  cases answer <;> simp [addDispatchJob]

/-- What a timeout does to a requirement that is still open. -/
theorem result_processTimeoutJob {Q : Except Failure Unit → Option MarketTx → Db → Prop}
    {answer : Bool} {q : TimeoutJobData} (found : d.requirement q.requirementId = some row)
    (live : row.status ≠ .FILLED ∧ row.status ≠ .CANCELLED) :
    Call.result answer Q (processTimeoutJob cfg q) none d =
      if (planDispatchWave cfg row.workerCountNeeded row.workerCountFilled
          (q.waveNumber + 1) none q.isCandidatesExhausted).shouldTryNextWave
      then Call.result answer Q (addDispatchJob
        { requirementId := q.requirementId, jobId := q.jobId
          waveNumber := q.waveNumber + 1, offset := q.offset + q.waveSize }) none
            (d.timedOut q.requirementId q.waveNumber)
      else Q (.ok ()) none (write (.requirementStatus [q.requirementId] .NO_WORKERS_AVAILABLE)
        (d.timedOut q.requirementId q.waveNumber)) := by
  have open' : ¬ (row.status = .FILLED ∨ row.status = .CANCELLED) := by tauto
  rw [processTimeoutJob, query, Call.result_bind, Call.result_read, Call.resultThen_ok, Tx.view_none,
    found]
  simp only [if_neg open', exhaustWave, Call.result_bind, Call.result_stmt_alone,
    Call.resultCommit_ok, Call.resultThen_ok]
  have closed : ∀ offers, applyAll [.exhaustWave q.requirementId q.waveNumber]
      (applyAll [.dispatchStatus offers .timeout] d) =
      applyAll [.dispatchStatus offers .timeout, .exhaustWave q.requirementId q.waveNumber] d :=
    fun _ => rfl
  rw [closed, ← Db.timedOut]
  cases next : (planDispatchWave cfg row.workerCountNeeded row.workerCountFilled
      (q.waveNumber + 1) none q.isCandidatesExhausted).shouldTryNextWave with
  | false =>
    rw [if_pos (Or.inr (by simp)), if_neg (by simp)]
    exact result_noWorkers (d := d.timedOut _ _) found
  | true =>
    -- a plan that asks for the next wave also lets it be dispatched
    have can : (planDispatchWave cfg row.workerCountNeeded row.workerCountFilled
        (q.waveNumber + 1) none q.isCandidatesExhausted).canDispatch = true := by
      simp only [planDispatchWave, Bool.and_eq_true] at next
      exact next.1.1
    simp [can]

/-- The decision the configuration calls for once wave `w` is resolved. -/
def Config.due (cfg : Config) (w : Nat) : Decision :=
  if w + 1 ≤ cfg.maxWaves then .schedule else .giveUp

/-- The store once a worker has declined. -/
def Db.declined (d : Db) (r worker : Id) : Db :=
  applyAll [.dispatchStatus ((d.dispatches.filter fun x =>
      x.requirementId = r ∧ x.workerId = worker ∧ x.status = .pending).map (·.key)) .declined,
    .declineCount worker] d

theorem declined_waveNumber {worker : Id} {x : Dispatch} (offer : d.dispatch r worker = some x) :
    ∃ x', (d.declined r worker).dispatch r worker = some x' ∧ x'.waveNumber = x.waveNumber := by
  have stored : Table.find Dispatch.key d.dispatches (r, worker) = some x := offer
  simp only [Db.declined, applyAll_cons, applyAll_nil, write_eq_apply, Write.apply, Db.dispatch]
  rw [Table.find_modify, stored]
  · refine ⟨_, rfl, ?_⟩
    dsimp only
    split <;> rfl
  · exact fun _ => rfl

/-- After the decline of its last offer, a wave has no pending one. -/
theorem declined_pending {worker : Id}
    (last : ∀ y ∈ d.dispatches, y.requirementId = r → y.waveNumber = w → y.status = .pending →
      y.workerId = worker) :
    ((d.declined r worker).dispatches.countP fun y =>
      decide (y.requirementId = r ∧ y.waveNumber = w ∧ y.status = .pending)) = 0 := by
  rw [List.countP_eq_zero]
  intro y member
  simp only [Db.declined, applyAll_cons, applyAll_nil, write_eq_apply, Write.apply] at member
  obtain ⟨old, stored, rfl⟩ := Table.mem_modify.mp member
  split
  next => simp
  next other =>
    simp only [decide_eq_true_eq]
    rintro ⟨rfl, rfl, pending⟩
    refine other (List.mem_map.mpr ⟨old, List.mem_filter.mpr ⟨stored, ?_⟩, rfl⟩)
    simp [last old stored rfl rfl pending, pending]

theorem declineDispatch_decides (valid : cfg.Valid) {worker : Id} {x : Dispatch}
    (found : d.requirement r = some row) (room : row.workerCountFilled < row.workerCountNeeded)
    (offer : d.dispatch r worker = some x) (wave : x.waveNumber = w)
    (last : ∀ y ∈ d.dispatches, y.requirementId = r → y.waveNumber = w → y.status = .pending →
      y.workerId = worker) :
    Decides (cfg.due w) r w (declineDispatch cfg r worker) d := by
  obtain ⟨x', offer', same⟩ := declined_waveNumber offer
  rw [wave] at same
  have can := canDispatch_plan valid row.workerCountNeeded row.workerCountFilled (w + 1) false
  simp only [room, and_true] at can
  have folded : ∀ offers, applyAll ([] ++ [Write.dispatchStatus offers .declined] ++
      [.declineCount worker]) d = applyAll [.dispatchStatus offers .declined, .declineCount worker] d :=
    fun _ => rfl
  rw [Decides, declineDispatch, Call.result_bind, Call.result_transaction]
  simp only [setOffers, step, Call.result_bind, Call.result_stmt, Call.afterStmt, Call.resultThen_ok,
    Tx.add_writes, applyAll_nil, Call.resultEnd, Tx.view_some]
  rw [folded, ← Db.declined]
  simp only [query, Call.result_bind, Call.result_read, Call.resultThen_ok, Tx.view_none, offer', same,
    declined_pending last, if_true]
  have kept : (d.declined r worker).requirement r = some row := found
  simp only [kept, exhaustWave, Call.result_bind, Call.result_stmt_alone, Call.resultCommit_ok,
    Call.resultThen_ok, can]
  by_cases left : w + 1 ≤ cfg.maxWaves
  · simp only [Config.due, left, decide_true, if_true, addDispatchJob, Call.result_bind,
      Call.result_attempt, Call.result_choose, Call.result_send, Call.resultThen_ok, Call.result_pure]
    exact ⟨rfl, rfl, _, rfl, rfl⟩
  · simp only [Config.due, left, decide_false, Bool.false_eq_true, if_false]
    have closed : (applyAll [Write.exhaustWave r w] (d.declined r worker)).requirement r = some row :=
      found
    rw [result_noWorkers closed]
    exact ⟨rfl, rfl, rfl⟩

/-- Inside the reconciliation's transaction, which has written nothing to requirements or
queues yet: the tail of cases A and D. -/
theorem scheduleNext_decides (valid : cfg.Valid) {t : MarketTx} {latest : Wave} {closed : Nat}
    (found : d.requirement row.id = some row) (room : row.workerCountFilled < row.workerCountNeeded)
    (wave : latest.waveNumber = w)
    (untouched : ∀ v : Db, (applyAll t.writes v).requirements = v.requirements ∧
      (applyAll t.writes v).dispatchQueue = v.dispatchQueue) :
    Call.result true (fun res tx d' => res.isOk = true ∧ (cfg.due w).Taken row.id w d (Tx.view tx d'))
      (scheduleNext cfg row latest closed) (some t) d := by
  have can := canDispatch_plan valid row.workerCountNeeded row.workerCountFilled (w + 1) false
  simp only [room, and_true] at can
  rw [scheduleNext, wave]
  simp only [can]
  by_cases left : w + 1 ≤ cfg.maxWaves
  · simp only [Config.due, left, decide_true, if_true, addDispatchJob, Call.result_bind,
      Call.result_choose, Call.result_send_inTx, Call.resultThen_ok, Call.result_pure]
    exact ⟨rfl, (untouched _).1, _, rfl, (untouched _).2⟩
  · have kept : ((applyAll t.writes d).requirement row.id) = some row := by
      rw [Db.requirement, (untouched d).1]
      exact found
    simp only [Config.due, left, decide_false, Bool.false_eq_true, if_false, Call.result_bind, step,
      Call.result_stmt, noWorkers, kept, Option.isNone_some, Call.afterStmt, Call.resultThen_ok,
      Call.result_pure, Tx.view_some, Tx.add_writes, applyAll_append]
    exact ⟨rfl, (untouched d).2, congrArg _ (untouched d).1⟩

/-- Cases A and D of the reconciliation. -/
theorem repair_decides (valid : cfg.Valid) {latest : Wave} {now : Nat} {scanned : Option Wave}
    (found : d.requirement row.id = some row) (room : row.workerCountFilled < row.workerCountNeeded)
    (current : d.latestWave row.id = some latest) (wave : latest.waveNumber = w)
    (resolved : latest.status = .exhausted ∨ latest.notifiedAt + cfg.timeoutMs ≤ now) :
    Decides (cfg.due w) row.id w (repair cfg now row scanned) d := by
  have tail : Call.result true
      (fun res tx d' => res.isOk = true ∧ (cfg.due w).Taken row.id w d (Tx.view tx d'))
      (repairTx cfg now row scanned) (some {}) d := by
    -- what the transaction reads first selects the case, before anything is written
    have committed : ∀ {Q : Except Failure Repair → Option MarketTx → Db → Prop},
        Call.result true Q (repairTx cfg now row scanned) (some {}) d =
        Call.result true Q (if latest.status = .exhausted then scheduleNext cfg row latest 0
          else if latest.notifiedAt + cfg.timeoutMs ≤ now then closeExpired cfg row latest
          else restoreTimeout row latest) (some { locks := [.requirement row.id] }) d := by
      intro Q
      cases status : latest.status <;> simp [repairTx, query, current, status] <;> rfl
    rw [committed]
    cases status : latest.status with
    | exhausted =>
      rw [if_pos rfl]
      exact scheduleNext_decides valid found room wave fun v => ⟨rfl, rfl⟩
    | active =>
      rw [if_neg (by simp)]
      have expired : latest.notifiedAt + cfg.timeoutMs ≤ now := by simpa [status] using resolved
      simp only [if_pos expired, closeExpired, setOffers, step, Call.result_bind, Call.result_stmt,
        Call.afterStmt, Call.resultThen_ok]
      exact scheduleNext_decides valid found room wave fun v => ⟨rfl, rfl⟩
  rw [Decides, repair, Call.result_bind, Call.result_attempt, Call.result_transaction]
  refine Call.result_mono ?_ tail
  rintro (e | r) tx d' ⟨ok, taken⟩
  · cases ok
  · exact ⟨rfl, taken⟩

end Calls

/-! ### The payload of a timeout -/

/-- The timeout job that `persistWave` adds for the wave it has committed. -/
def timeoutOf (data : DispatchJobData) (plan : DispatchWavePlan) (workers : List Id)
    (isFinalAllowedWave : Bool) : TimeoutJobData :=
  { requirementId := data.requirementId, jobId := data.jobId, waveNumber := data.waveNumber
    totalWorkersFound := workers.length, offset := data.offset
    waveSize := plan.targetCandidateCount
    hasMoreCandidates := some (decide (plan.targetCandidateCount ≤ workers.length))
    candidatesExhausted := some (workers.isEmpty && isFinalAllowedWave) }

theorem persistWave_eq (data : DispatchJobData) (plan : DispatchWavePlan) (workers : List Id)
    (isFinalAllowedWave : Bool) :
    persistWave data plan workers isFinalAllowedWave = (do
      let waveWorkers := workers.take plan.targetCandidateCount
      let now ← query fun d => d.now
      let persisted ← Call.attempt (Call.transaction
        (fun _ => .waveCommitted data.requirementId data.waveNumber)
        (executeWrites data.requirementId data.waveNumber plan.targetCandidateCount waveWorkers
          (now + plan.timeoutMs)))
      match persisted with
      | .error (.uniqueViolation _) => do
        let existing ← Call.read (.waveLookup data.requirementId data.waveNumber) fun d =>
          d.wave data.requirementId data.waveNumber
        alreadyProcessed data.requirementId data.waveNumber existing
      | .error e => throw e
      | .ok _ => do
        addTimeoutJob (timeoutOf data plan workers isFinalAllowedWave)
        pure { status := .created, workerIds := waveWorkers
               workersDispatchedCount := waveWorkers.length }) := rfl

/-- A timeout job that `processDispatchJob` adds for wave `w` of requirement `r`: the planner
has let the wave go ahead with the workers that were found. -/
def EnqueuedFor (cfg : Config) (r : Id) (w : Nat) (q : TimeoutJobData) : Prop :=
  ∃ (data : DispatchJobData) (needed filled : Nat) (workers : List Id),
    data.requirementId = r ∧ data.waveNumber = w ∧
    (planDispatchWave cfg needed filled w (some workers.length)).canDispatch = true ∧
    q = timeoutOf data (planDispatchWave cfg needed filled w (some workers.length)) workers
      (planDispatchWave cfg needed filled w).isFinalAllowedWave

theorem EnqueuedFor.unexhausted {cfg : Config} {r : Id} {w : Nat} {q : TimeoutJobData}
    (enqueued : EnqueuedFor cfg r w q) : q.isCandidatesExhausted = false := by
  obtain ⟨data, needed, filled, workers, -, -, can, rfl⟩ := enqueued
  have found : workers ≠ [] := by
    rintro rfl
    simp [planDispatchWave] at can
  simp [timeoutOf, TimeoutJobData.isCandidatesExhausted, found]

/-! ### The schedulers agree -/

/-- The four schedulers, each in a state in which it resolves wave `w` of a requirement: all of
them take the decision the configuration calls for. -/
structure SchedulersAgree (cfg : Config) (w : Nat) (row : Requirement) : Prop where
  timeout : ∀ d q, d.requirement row.id = some row → EnqueuedFor cfg row.id w q →
    Decides (cfg.due w) row.id w (processTimeoutJob cfg q) d
  decline : ∀ d worker x, d.requirement row.id = some row → d.dispatch row.id worker = some x →
    x.waveNumber = w →
    (∀ y ∈ d.dispatches, y.requirementId = row.id → y.waveNumber = w → y.status = .pending →
      y.workerId = worker) → Decides (cfg.due w) row.id w (declineDispatch cfg row.id worker) d
  reconcile : ∀ d latest now scanned, d.requirement row.id = some row →
    d.latestWave row.id = some latest → latest.waveNumber = w →
    latest.status = .exhausted ∨ latest.notifiedAt + cfg.timeoutMs ≤ now →
    Decides (cfg.due w) row.id w (repair cfg now row scanned) d

section Agreement

variable {cfg : Config} {w : Nat} {row : Requirement}

theorem timeout_decides (valid : cfg.Valid) (inner : w + 1 ≠ cfg.maxWaves)
    (live : row.status ≠ .FILLED ∧ row.status ≠ .CANCELLED)
    (room : row.workerCountFilled < row.workerCountNeeded) {d : Db} {q : TimeoutJobData}
    (found : d.requirement row.id = some row) (enqueued : EnqueuedFor cfg row.id w q) :
    Decides (cfg.due w) row.id w (processTimeoutJob cfg q) d := by
  have unexhausted := enqueued.unexhausted
  obtain ⟨data, needed, filled, workers, named, numbered, -, rfl⟩ := enqueued
  have next := shouldTry_plan valid row.workerCountNeeded row.workerCountFilled (w + 1) false
  rw [Decides, result_processTimeoutJob (by simpa [timeoutOf, named] using found) live, unexhausted]
  simp only [timeoutOf, numbered, next, room, and_true, Bool.not_false, Bool.and_true]
  by_cases left : w + 1 ≤ cfg.maxWaves
  · have before : w + 1 < cfg.maxWaves := by omega
    simp only [before, decide_true, if_true, Config.due, left]
    exact ⟨rfl, rfl, _, by rw [DispatchJobData.key, named], rfl⟩
  · have after : ¬ w + 1 < cfg.maxWaves := by omega
    simp only [after, decide_false, Bool.false_eq_true, if_false, Config.due, left, named]
    exact ⟨rfl, rfl, rfl⟩

/-- The timeout job of a wave for which one worker was found. -/
def sampleTimeout (cfg : Config) (r : Id) (w : Nat) : TimeoutJobData :=
  timeoutOf { requirementId := r, jobId := 0, waveNumber := w } (planDispatchWave cfg 1 0 w (some 1)) [0]
    (planDispatchWave cfg 1 0 w).isFinalAllowedWave

theorem enqueuedFor_sample (valid : cfg.Valid) (r : Id) (within : w ≤ cfg.maxWaves) :
    EnqueuedFor cfg r w (sampleTimeout cfg r w) := by
  refine ⟨_, 1, 0, [0], rfl, rfl, ?_, rfl⟩
  have multiplier := valid.multiplier
  simp [planDispatchWave, within]
  omega

/-- No decision leaves the store of one requirement, closed or not, as it is. -/
theorem Decision.not_taken_same {decision : Decision} {r : Id} {d : Db} (named : row.id = r)
    (status : row.status ≠ .NO_WORKERS_AVAILABLE) (only : d.requirements = [row])
    (idle : d.dispatchQueue = []) : ¬ decision.Taken r w d d := by
  cases decision with
  | schedule =>
    rintro ⟨-, q, -, queued⟩
    rw [idle] at queued
    simp [Table.insert] at queued
  | giveUp =>
    rintro ⟨-, written⟩
    rw [only] at written
    simp only [Table.modify, List.map_cons, List.map_nil, List.mem_singleton, named, if_true,
      List.cons.injEq, and_true] at written
    exact status (congrArg Requirement.status written)

/-- The timeout of the last wave but one gives up, and that of a closed requirement does
nothing. -/
theorem timeout_disagrees (valid : cfg.Valid) (within : w ≤ cfg.maxWaves)
    (odd : w + 1 = cfg.maxWaves ∨ row.status = .FILLED ∨ row.status = .CANCELLED) :
    ¬ Decides (cfg.due w) row.id w (processTimeoutJob cfg (sampleTimeout cfg row.id w))
      { requirements := [row] } := by
  have found : ({ requirements := [row] } : Db).requirement row.id = some row := by
    simp [Db.requirement, Table.find]
  rw [Decides]
  by_cases closed : row.status = .FILLED ∨ row.status = .CANCELLED
  · rw [processTimeoutJob, query, Call.result_bind, Call.result_read, Call.resultThen_ok, Tx.view_none]
    simp only [sampleTimeout, timeoutOf, found, if_pos closed, Call.result_pure]
    rintro ⟨-, taken⟩
    refine Decision.not_taken_same rfl ?_ rfl rfl taken
    rcases closed with closed | closed <;> simp [closed]
  · have last : w + 1 = cfg.maxWaves := by tauto
    have next := shouldTry_plan valid row.workerCountNeeded row.workerCountFilled (w + 1) false
    have exhausted := (enqueuedFor_sample valid row.id within).unexhausted
    rw [result_processTimeoutJob (by simpa [sampleTimeout, timeoutOf] using found) (by tauto), exhausted]
    have after : ¬ w + 1 < cfg.maxWaves := by omega
    have left : w + 1 ≤ cfg.maxWaves := by omega
    simp only [sampleTimeout, timeoutOf, next, after, false_and, decide_false, Bool.false_and,
      Bool.false_eq_true, if_false, Config.due, left, if_true]
    -- the dispatch queue is still empty
    rintro ⟨-, -, q, -, queued⟩
    simp [Table.insert, Db.timedOut, Write.apply, write_eq_apply] at queued

end Agreement

/-- For a requirement with room left: the schedulers agree exactly when the resolved wave is not
the last but one, and the requirement is not closed. -/
theorem schedulers_agree_iff (cfg : Config) (valid : cfg.Valid) (w : Nat) (row : Requirement)
    (room : row.workerCountFilled < row.workerCountNeeded) :
    SchedulersAgree cfg w row ↔ w + 1 ≠ cfg.maxWaves ∧
      (row.status ≠ .FILLED ∧ row.status ≠ .CANCELLED ∨ cfg.maxWaves < w) := by
  constructor
  · intro agree
    by_contra odd
    have within : w ≤ cfg.maxWaves := by
      by_contra above
      exact odd ⟨by omega, Or.inr (by omega)⟩
    refine timeout_disagrees valid within ?_ (agree.timeout _ _ ?_ (enqueuedFor_sample valid _ within))
    · by_contra even
      simp only [not_or] at even
      exact odd ⟨even.1, Or.inl even.2⟩
    · simp [Db.requirement, Table.find]
  · rintro ⟨inner, live⟩
    refine ⟨fun d q found enqueued => ?_, fun d worker x found offer wave last => ?_,
      fun d latest now scanned found current wave resolved => ?_⟩
    · rcases live with live | above
      · exact timeout_decides valid inner live room found enqueued
      · obtain ⟨_, _, _, _, -, -, can, -⟩ := enqueued
        simp only [planDispatchWave, decide_eq_true_eq] at can
        omega
    · exact declineDispatch_decides valid found room offer wave last
    · exact repair_decides valid found room current wave resolved

theorem plainConfig_valid : plainConfig.Valid :=
  ⟨by decide, by decide, by decide, by decide⟩

/-- A requirement for two workers of whom none has been found. -/
def unstaffed : Requirement :=
  { id := 1, jobId := 0, workerCountNeeded := 2, workerCountFilled := 0, status := .DISPATCHING }

theorem schedulers_agree_first_wave : SchedulersAgree plainConfig 1 unstaffed :=
  (schedulers_agree_iff plainConfig plainConfig_valid 1 unstaffed (by decide)).mpr (by decide)

/-- The timeout of the third of four waves never lets the fourth be dispatched. -/
theorem schedulers_differ_third_wave : ¬ SchedulersAgree plainConfig 3 unstaffed := fun agree =>
  timeout_disagrees plainConfig_valid (by decide) (Or.inl rfl)
    (agree.timeout _ _ (by decide) (enqueuedFor_sample plainConfig_valid _ (by decide)))

/-! ### Restored timeouts -/

/-- The payload that case B of the reconciliation rebuilds from the row of an active wave, whose
`workers_notified` may be null. -/
def restoredPayload (req : Requirement) (waveNumber : Nat) (workersNotified : Option Nat) :
    TimeoutJobData :=
  { requirementId := req.id, jobId := req.jobId, waveNumber
    totalWorkersFound := workersNotified.getD 30
    offset := (waveNumber - 1) * workersNotified.getD 0
    waveSize := workersNotified.getD 0 }

theorem restoreTimeout_eq (req : Requirement) (latest : Wave) :
    restoreTimeout req latest = (do
      addTimeoutJob (restoredPayload req latest.waveNumber (some latest.workersNotified))
      pure { report := { activeTimeoutsRestored := 1 } }) := rfl

/-- The database, without the queues. -/
def Db.tables (d : Db) : Db := { d with dispatchQueue := [], timeoutQueue := [] }

/-- Two calls on one store end alike, leave the same tables, and queue the same waves. -/
def SameOutcome (answer : Bool) (d : Db) (c c' : Service Unit) : Prop :=
  Call.result answer (fun res _ e => Call.result answer (fun res' _ e' => res = res' ∧
    e.tables = e'.tables ∧ e.dispatchQueue.map (·.key) = e'.dispatchQueue.map (·.key)) c' none d)
    c none d

/-- On every store, with the queue reachable or not, the timeout of wave `w` with the restored
payload does what it does with a payload enqueued for that wave. -/
def RestoredAlike (cfg : Config) (row : Requirement) (w : Nat) (workersNotified : Option Nat) :
    Prop :=
  ∀ answer d q, d.requirement row.id = some row → EnqueuedFor cfg row.id w q →
    SameOutcome answer d (processTimeoutJob cfg q)
      (processTimeoutJob cfg (restoredPayload row w workersNotified))

/-- A restored payload always says that the candidates are exhausted, unless the number of
notified workers is unknown. -/
theorem restored_exhausted {row : Requirement} {w : Nat} (started : 1 ≤ w)
    (workersNotified : Option Nat) :
    (restoredPayload row w workersNotified).isCandidatesExhausted = workersNotified.isSome := by
  obtain ⟨w, rfl⟩ : ∃ n, w = n + 1 := ⟨w - 1, by omega⟩
  cases workersNotified with
  | none => simp [restoredPayload, TimeoutJobData.isCandidatesExhausted]
  | some n => simp [restoredPayload, TimeoutJobData.isCandidatesExhausted]

section Restoring

variable {cfg : Config} {row : Requirement} {w : Nat}

theorem insert_dispatchJob_keys {q q' : DispatchJobData} (same : q.key = q'.key)
    (queue : List DispatchJobData) :
    (Table.insert DispatchJobData.clash queue q).map (·.key) =
      (Table.insert DispatchJobData.clash queue q').map (·.key) := by
  have clash : DispatchJobData.clash q = DispatchJobData.clash q' := by
    funext old
    simp [DispatchJobData.clash, same]
  rw [Table.insert, Table.insert, clash]
  split <;> simp [same]

/-- Payloads of one wave that lead to one decision have one outcome. -/
theorem sameOutcome_of_decision {answer : Bool} {d : Db} {q q' : TimeoutJobData}
    (found : d.requirement row.id = some row) (live : row.status ≠ .FILLED ∧ row.status ≠ .CANCELLED)
    (named : q.requirementId = row.id) (named' : q'.requirementId = row.id)
    (numbered : q.waveNumber = w) (numbered' : q'.waveNumber = w)
    (same : (planDispatchWave cfg row.workerCountNeeded row.workerCountFilled (w + 1) none
        q.isCandidatesExhausted).shouldTryNextWave =
      (planDispatchWave cfg row.workerCountNeeded row.workerCountFilled (w + 1) none
        q'.isCandidatesExhausted).shouldTryNextWave) :
    SameOutcome answer d (processTimeoutJob cfg q) (processTimeoutJob cfg q') := by
  rw [SameOutcome, result_processTimeoutJob (by rwa [named]) live]
  simp only [result_processTimeoutJob (q := q') (by rwa [named']) live]
  simp only [named, named', numbered, numbered', same]
  split
  next schedule =>
    simp only [result_addDispatchJob]
    cases answer with
    | false => exact ⟨trivial, trivial, trivial⟩
    | true =>
      refine ⟨trivial, rfl, ?_⟩
      simp only [write_eq_apply, Write.apply]
      exact insert_dispatchJob_keys (by rfl) _
  next giveUp => exact ⟨trivial, trivial, trivial⟩

theorem sameOutcome_closed {answer : Bool} {d : Db} {q q' : TimeoutJobData}
    (found : d.requirement row.id = some row) (closed : row.status = .FILLED ∨ row.status = .CANCELLED)
    (named : q.requirementId = row.id) (named' : q'.requirementId = row.id) :
    SameOutcome answer d (processTimeoutJob cfg q) (processTimeoutJob cfg q') := by
  have idle : ∀ {Q : Except Failure Unit → Option MarketTx → Db → Prop} {q : TimeoutJobData},
      q.requirementId = row.id → Call.result answer Q (processTimeoutJob cfg q) none d =
        Q (.ok ()) none d := by
    intro Q q named
    rw [processTimeoutJob, query, Call.result_bind, Call.result_read, Call.resultThen_ok, Tx.view_none,
      named, found]
    simp only [if_pos closed, Call.result_pure]
  rw [SameOutcome, idle named, idle named']
  exact ⟨rfl, rfl, rfl⟩

/-- A wave whose timeout would go on gives up once its timeout has been restored. -/
theorem restored_gives_up (valid : cfg.Valid) (started : 1 ≤ w) (n : Nat)
    (live : row.status ≠ .FILLED ∧ row.status ≠ .CANCELLED) (further : w + 1 < cfg.maxWaves)
    (room : row.workerCountFilled < row.workerCountNeeded) :
    ¬ RestoredAlike cfg row w (some n) := by
  intro alike
  have found : ({ requirements := [row] } : Db).requirement row.id = some row := by
    simp [Db.requirement, Table.find]
  have enqueued := enqueuedFor_sample valid row.id (w := w) (by omega)
  have same := alike true { requirements := [row] } _ found enqueued
  rw [SameOutcome, result_processTimeoutJob (by simpa [sampleTimeout, timeoutOf] using found) live,
    enqueued.unexhausted] at same
  simp only [result_processTimeoutJob (q := restoredPayload row w (some n)) found live,
    restored_exhausted started, shouldTry_plan valid] at same
  simp only [sampleTimeout, timeoutOf, further, room, and_self, decide_true,
    Bool.not_false, Bool.and_true, if_true, result_addDispatchJob, Option.isSome_some, Bool.not_true,
    Bool.and_false, Bool.false_eq_true, if_false] at same
  -- one job on one side, none on the other
  have queued := congrArg List.length same.2.2
  simp [Db.timedOut, Table.insert, Write.apply, write_eq_apply] at queued

end Restoring

/-- A restored timeout behaves like the original exactly where the original would not go on to
another wave either, or the number of notified workers has been lost. -/
theorem restored_timeout_alike_iff (cfg : Config) (valid : cfg.Valid) (row : Requirement) (w : Nat)
    (started : 1 ≤ w) (workersNotified : Option Nat) :
    RestoredAlike cfg row w workersNotified ↔
      cfg.maxWaves ≤ w + 1 ∨ row.workerCountNeeded ≤ row.workerCountFilled ∨
      row.status = .FILLED ∨ row.status = .CANCELLED ∨ workersNotified = none := by
  constructor
  · intro alike
    by_contra differs
    simp only [not_or, not_le] at differs
    obtain ⟨further, room, filled, cancelled, known⟩ := differs
    obtain ⟨n, rfl⟩ := Option.ne_none_iff_exists'.mp known
    exact restored_gives_up valid started n ⟨filled, cancelled⟩ further room alike
  · intro condition answer d q found enqueued
    have unexhausted := enqueued.unexhausted
    obtain ⟨data, needed, filled, workers, named, numbered, -, rfl⟩ := enqueued
    by_cases closed : row.status = .FILLED ∨ row.status = .CANCELLED
    · exact sameOutcome_closed found closed named rfl
    · refine sameOutcome_of_decision found (by tauto) named rfl numbered rfl ?_
      simp only [shouldTry_plan valid, unexhausted, restored_exhausted started]
      rcases condition with last | full | status
      · simp [Nat.not_lt.mpr last]
      · simp [Nat.not_lt.mpr full]
      · have lost : workersNotified = none := by tauto
        rw [lost, Option.isSome_none]

theorem restored_last_wave_alike : RestoredAlike plainConfig unstaffed 3 (some 4) :=
  (restored_timeout_alike_iff plainConfig plainConfig_valid unstaffed 3 (by decide) (some 4)).mpr
    (by decide)

theorem restored_first_wave_differs : ¬ RestoredAlike plainConfig unstaffed 1 (some 4) :=
  restored_gives_up plainConfig_valid (by decide) 4 (by decide) (by decide) (by decide)

end LabourBaba.Market
