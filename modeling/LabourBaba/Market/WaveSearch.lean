import LabourBaba.Market.Candidates
import LabourBaba.Market.WaveOrder

/-!
# The search of a wave

What one delivery of a dispatch job does when it runs alone: nothing, giving up, or the wave
with its offers. From it: the size of a wave, what a failed candidate query leaves behind, and
how wide the search has been when the engine gives up.
-/
namespace LabourBaba.Market

open Store

/-! ### One delivery -/

/-- The delivery gets as far as its candidate query. -/
structure Db.Searches (cfg : Config) (d : Db) (data : DispatchJobData) (row : Requirement) : Prop where
  found : d.requirement data.requirementId = some row
  live : row.status ≠ .FILLED ∧ row.status ≠ .CANCELLED
  absent : d.wave data.requirementId data.waveNumber = none
  located : validateDispatchCoordinates ((d.job row.jobId).bind (·.latitude))
    ((d.job row.jobId).bind (·.longitude)) = true
  started : 1 ≤ data.waveNumber
  within : data.waveNumber ≤ cfg.maxWaves
  room : row.workerCountFilled < row.workerCountNeeded

/-- The offers of a wave. -/
def waveOffers (data : DispatchJobData) (workers : List Id) (expiresAt : Nat) : List Dispatch :=
  workers.zipIdx.map fun (w, i) =>
    { requirementId := data.requirementId, workerId := w, waveNumber := data.waveNumber
      wavePosition := i + 1, status := .pending, expiresAt := some expiresAt }

/-- What `executeWrites` commits for the workers of a wave. -/
def waveWrites (d : Db) (data : DispatchJobData) (workers : List Id) (expiresAt : Nat) :
    List Write :=
  [.insertWave { requirementId := data.requirementId, waveNumber := data.waveNumber
                 workersNotified := workers.length, status := .active, notifiedAt := d.now }] ++
    (waveOffers data workers expiresAt).map .insertDispatch ++
    workers.map fun w => .outbox (.incomingJob data.requirementId data.waveNumber w)

/-- The capacity that a wave aims at. -/
def Config.target (cfg : Config) (row : Requirement) : Nat :=
  (row.workerCountNeeded - row.workerCountFilled) * cfg.workerMultiplier

section Deliveries

variable {cfg : Config} {d : Db} {data : DispatchJobData} {row : Requirement} {matching : List Id}
  {answer : Bool}

theorem length_candidates_le (r : Id) (matching : List Id) {limit : Nat} (positive : 0 < limit) :
    (d.candidates r matching limit).length ≤ limit := by
  refine (List.length_take_le _ _).trans ?_
  omega

theorem target_pos (valid : cfg.Valid) (room : row.workerCountFilled < row.workerCountNeeded) :
    0 < cfg.target row :=
  Nat.mul_pos (Nat.sub_pos_of_lt room) valid.multiplier

/-- The second plan, which knows how many workers were found. -/
theorem canDispatch_found (within : data.waveNumber ≤ cfg.maxWaves)
    (room : row.workerCountFilled < row.workerCountNeeded) (valid : cfg.Valid) (found : Nat) :
    (planDispatchWave cfg row.workerCountNeeded row.workerCountFilled data.waveNumber
      (some found)).canDispatch = decide (0 < found) := by
  have target := target_pos valid room
  simp only [Config.target] at target
  simp only [planDispatchWave, decide_eq_decide]
  omega

theorem result_executeWrites {Q : Except Failure Unit → Option MarketTx → Db → Prop}
    {workers : List Id} {expiresAt : Nat} (found : d.requirement data.requirementId = some row)
    (absent : d.wave data.requirementId data.waveNumber = none) :
    Call.result answer Q (Call.transaction
      (fun _ => .waveCommitted data.requirementId data.waveNumber)
      (executeWrites data.requirementId data.waveNumber workers.length workers expiresAt)) none d =
      Q (.ok ()) none (applyAll (waveWrites d data workers expiresAt) d) := by
  have offers : workers.zipIdx.map (fun (w, i) => Write.insertDispatch
      { requirementId := data.requirementId, workerId := w, waveNumber := data.waveNumber
        wavePosition := i + 1, status := .pending, expiresAt := some expiresAt }) =
      (waveOffers data workers expiresAt).map .insertDispatch := by
    rw [waveOffers, List.map_map]
    rfl
  rw [Call.result_transaction, executeWrites]
  simp only [query, step, Call.result_bind, Call.result_read, Call.resultThen_ok, Tx.view_some,
    applyAll_nil, Call.result_stmt, insertWave, absent, Option.isSome_none, Bool.false_eq_true, if_false,
    found, Option.isNone_some, Call.afterStmt, Tx.add_writes, List.nil_append, offers, Call.resultEnd]
  rfl

theorem result_giveUp {Q : Except Failure DispatchOperationResult → Option MarketTx → Db → Prop}
    {r : Id} (wave : Nat) (found : d.requirement r = some row) :
    Call.result answer Q (giveUp r wave) none d =
      Q (.ok { status := .no_workers }) none (write (.requirementStatus [r] .NO_WORKERS_AVAILABLE) d) := by
  rw [giveUp, Call.result_bind, result_noWorkers found]
  rfl

theorem result_addTimeoutJob {Q : Except Failure Unit → Option MarketTx → Db → Prop}
    {q : TimeoutJobData} :
    Call.result answer Q (addTimeoutJob q) none d =
      if answer then Q (.ok ()) none (write (.addTimeoutJob q) d)
      else Q (.error .queueUnavailable) none d := by
  cases answer <;> simp [addTimeoutJob]

/-- A plan that aims at exactly the workers that were found. -/
theorem result_persistWave {Q : Except Failure DispatchOperationResult → Option MarketTx → Db → Prop}
    {plan : DispatchWavePlan} {workers : List Id} {final : Bool}
    (found : d.requirement data.requirementId = some row)
    (absent : d.wave data.requirementId data.waveNumber = none)
    (sized : plan.targetCandidateCount = workers.length) :
    Call.result answer Q (persistWave data plan workers final) none d =
      if answer then
        Q (.ok { status := .created, workerIds := workers, workersDispatchedCount := workers.length })
          none (write (.addTimeoutJob (timeoutOf data plan workers final))
            (applyAll (waveWrites d data workers (d.now + plan.timeoutMs)) d))
      else Q (.error .queueUnavailable) none
        (applyAll (waveWrites d data workers (d.now + plan.timeoutMs)) d) := by
  rw [persistWave_eq]
  simp only [query, Call.result_bind, Call.result_read, Call.resultThen_ok, Tx.view_none, sized,
    List.take_length, Call.result_attempt, result_executeWrites found absent, result_addTimeoutJob]
  cases answer <;> rfl

/-- What the delivery does once it has reached the candidate query. -/
theorem result_search {Q : Except Failure DispatchOperationResult → Option MarketTx → Db → Prop}
    (valid : cfg.Valid) (searches : d.Searches cfg data row) :
    Call.result answer Q (processDispatchJob cfg data matching) none d =
      let workers := d.candidates data.requirementId matching (cfg.target row)
      if workers = [] then
        Q (.ok { status := .no_workers }) none
          (write (.requirementStatus [data.requirementId] .NO_WORKERS_AVAILABLE) d)
      else
        let e := applyAll (waveWrites d data workers (d.now + cfg.timeoutMs)) d
        if answer then
          Q (.ok { status := .created, workerIds := workers, workersDispatchedCount := workers.length })
            none (write (.addTimeoutJob (timeoutOf data
              (planDispatchWave cfg row.workerCountNeeded row.workerCountFilled data.waveNumber
                (some workers.length)) workers (decide (cfg.maxWaves ≤ data.waveNumber)))) e)
        else Q (.error .queueUnavailable) none e := by
  have closed : ¬ (row.status = .FILLED ∨ row.status = .CANCELLED) := by
    have live := searches.live
    tauto
  have can := canDispatch_plan valid row.workerCountNeeded row.workerCountFilled data.waveNumber false
  simp only [searches.within, searches.room, and_self, decide_true] at can
  have target : (planDispatchWave cfg row.workerCountNeeded row.workerCountFilled
      data.waveNumber).targetCandidateCount = cfg.target row := rfl
  have started : data.waveNumber ≠ 0 := Nat.one_le_iff_ne_zero.mp searches.started
  rw [processDispatchJob]
  simp only [Call.result_bind, Call.result_read, Call.resultThen_ok, Tx.view_none, searches.found,
    Option.map_some, if_neg closed, searches.absent, searches.located, not_true, if_false, if_neg started,
    can, query, target]
  generalize found : d.candidates data.requirementId matching (cfg.target row) = workers
  by_cases none' : workers = []
  · subst none'
    have stuck := canDispatch_found searches.within searches.room valid 0
    simp only [lt_irrefl, decide_false] at stuck
    simp only [List.length_nil, stuck, Bool.false_eq_true, not_false_eq_true, if_true]
    exact result_giveUp _ searches.found
  · have some' : 0 < workers.length := List.length_pos_of_ne_nil none'
    have goes := canDispatch_found searches.within searches.room valid workers.length
    simp only [some', decide_true] at goes
    simp only [goes, not_true, if_false, if_neg none']
    -- the second plan's target is the number of workers found
    refine result_persistWave searches.found searches.absent (min_eq_right ?_)
    rw [← found]
    exact length_candidates_le _ _ (target_pos valid searches.room)

/-- A delivery that does not reach the candidate query does nothing, unless the coordinates of
the job are invalid. -/
theorem result_unsearched (answer : Bool) (matching : List Id) (valid : cfg.Valid)
    (unsearched : ∀ row, ¬ d.Searches cfg data row) :
    ∃ res d', (res.isOk = true ∨ data.waveNumber = 0) ∧ (d' = d ∨ (∃ row, d.requirement data.requirementId = some row ∧
        validateDispatchCoordinates ((d.job row.jobId).bind (·.latitude))
          ((d.job row.jobId).bind (·.longitude)) = false) ∧
        d' = write (.requirementStatus [data.requirementId] .NO_WORKERS_AVAILABLE) d) ∧
      ∀ Q : Except Failure DispatchOperationResult → Option MarketTx → Db → Prop,
        Call.result answer Q (processDispatchJob cfg data matching) none d = Q res none d' := by
  rw [processDispatchJob]
  simp only [Call.result_bind, Call.result_read, Call.resultThen_ok, Tx.view_none]
  cases found : d.requirement data.requirementId with
  | none => exact ⟨.ok _, d, Or.inl rfl, Or.inl rfl, fun Q => rfl⟩
  | some row =>
    simp only [Option.map_some]
    by_cases closed : row.status = .FILLED ∨ row.status = .CANCELLED
    · simp only [if_pos closed]
      exact ⟨.ok _, d, Or.inl rfl, Or.inl rfl, fun Q => rfl⟩
    · simp only [if_neg closed, Call.result_bind, Call.result_read, Call.resultThen_ok, Tx.view_none]
      cases absent : d.wave data.requirementId data.waveNumber with
      | some wave => exact ⟨.ok _, d, Or.inl rfl, Or.inl rfl, fun Q => rfl⟩
      | none =>
        dsimp only
        by_cases located : validateDispatchCoordinates ((d.job row.jobId).bind (·.latitude))
          ((d.job row.jobId).bind (·.longitude)) = true
        · simp only [located, not_true, if_false]
          by_cases started : data.waveNumber = 0
          · simp only [if_pos started]
            exact ⟨.error _, d, Or.inr started, Or.inl rfl, fun Q => rfl⟩
          · -- every other condition of a search holds, so the plan must refuse the wave
            have can : (planDispatchWave cfg row.workerCountNeeded row.workerCountFilled
                data.waveNumber).canDispatch = false := by
              rw [canDispatch_plan valid, decide_eq_false_iff_not]
              rintro ⟨within, room⟩
              exact unsearched row ⟨found, by tauto, absent, located,
                Nat.one_le_iff_ne_zero.mpr started, within, room⟩
            simp only [if_neg started, can, Bool.false_eq_true, not_false_eq_true, if_true]
            exact ⟨.ok _, d, Or.inl rfl, Or.inl rfl, fun Q => rfl⟩
        · simp only [if_pos located]
          exact ⟨.ok _, _, Or.inl rfl, Or.inr ⟨⟨row, rfl, by simpa using located⟩, rfl⟩,
            fun Q => result_giveUp _ found⟩

end Deliveries

/-! ### The size of a wave -/

/-- The workers a wave can be offered to, as the query ranks them: in its radius, and free. -/
def Db.eligible (d : Db) (cfg : Config) (skill : Option Text) (workers : List Worker)
    (data : DispatchJobData) : List Id :=
  ((matchingWorkers cfg skill workers data.waveNumber).map (·.id)).filter
    (d.free data.requirementId true)

/-- The wave that a delivery has created, if any, is offered to as many eligible workers as it
aims at, as far as there are so many: the first ones, with positions from one on. -/
def WaveSized (cfg : Config) (data : DispatchJobData) (eligible : List Id) (d d' : Db) : Prop :=
  d'.waves = d.waves ∨ ∃ row wave offers, d.requirement data.requirementId = some row ∧
    d'.waves = d.waves ++ [wave] ∧ wave.key = (data.requirementId, data.waveNumber) ∧
    d'.dispatches = d.dispatches ++ offers ∧
    (∀ x ∈ offers, x.requirementId = data.requirementId ∧ x.waveNumber = data.waveNumber ∧
      x.status = .pending) ∧
    offers.length = min (cfg.workerMultiplier * (row.workerCountNeeded - row.workerCountFilled))
      eligible.length ∧
    offers.map (fun x => (x.workerId, x.wavePosition)) = (eligible.take offers.length).zipIdx 1 ∧
    wave.workersNotified = offers.length

section Sizes

variable {cfg : Config} {d : Db} {data : DispatchJobData} {row : Requirement}
  {workers eligible : List Id} {expiresAt : Nat}

theorem applyAll_insertDispatch (xs : List Dispatch) (d : Db) :
    applyAll (xs.map .insertDispatch) d =
      { d with dispatches := xs.foldl (Table.insert Dispatch.clash) d.dispatches } := by
  induction xs generalizing d with
  | nil => rfl
  | cons x xs ih => exact ih _

theorem applyAll_outbox (ks : List OutboxKey) (d : Db) :
    ∃ outbox, applyAll (ks.map .outbox) d = { d with outbox } := by
  induction ks generalizing d with
  | nil => exact ⟨d.outbox, rfl⟩
  | cons k ks ih =>
    obtain ⟨outbox, same⟩ := ih (write (.outbox k) d)
    exact ⟨outbox, same⟩

@[simp] theorem length_waveOffers : (waveOffers data workers expiresAt).length = workers.length := by
  simp [waveOffers]

theorem waveOffers_places : (waveOffers data workers expiresAt).map
    (fun x => (x.workerId, x.wavePosition)) = workers.zipIdx 1 := by
  rw [waveOffers, List.map_map, List.zipIdx_succ]
  rfl

theorem mem_waveOffers {x : Dispatch} (member : x ∈ waveOffers data workers expiresAt) :
    x.requirementId = data.requirementId ∧ x.waveNumber = data.waveNumber ∧ x.status = .pending ∧
      x.workerId ∈ workers := by
  obtain ⟨⟨w, i⟩, place, rfl⟩ := List.mem_map.mp member
  exact ⟨rfl, rfl, rfl, List.fst_mem_of_mem_zipIdx place⟩

/-- No two offers of a wave go to one worker. -/
theorem waveOffers_apart (distinct : workers.Nodup) :
    (waveOffers data workers expiresAt).Pairwise fun a b => Dispatch.clash b a = false := by
  have ids : (waveOffers data workers expiresAt).map (·.workerId) = workers := by
    rw [waveOffers, List.map_map]
    exact List.zipIdx_map_fst 0 workers
  rw [← ids, List.Nodup, List.pairwise_map] at distinct
  refine distinct.imp fun other => decide_eq_false fun same => other ?_
  exact (congrArg Prod.snd same).symm

/-- A wave writes waves, offers and events. -/
theorem applyAll_waveWrites (d : Db) (data : DispatchJobData) (workers : List Id) (expiresAt : Nat) :
    ∃ outbox, applyAll (waveWrites d data workers expiresAt) d = { d with
      waves := Table.insert Wave.clash d.waves
        { requirementId := data.requirementId, waveNumber := data.waveNumber
          workersNotified := workers.length, status := .active, notifiedAt := d.now }
      dispatches := (waveOffers data workers expiresAt).foldl (Table.insert Dispatch.clash) d.dispatches
      outbox } := by
  have outbox : workers.map (fun w => Write.outbox (.incomingJob data.requirementId data.waveNumber w)) =
      (workers.map (OutboxKey.incomingJob data.requirementId data.waveNumber)).map .outbox := by
    rw [List.map_map]
    rfl
  rw [waveWrites, applyAll_append, applyAll_append, applyAll_insertDispatch, outbox]
  obtain ⟨keys, same⟩ := applyAll_outbox _ _
  exact ⟨keys, same⟩

/-- The rows that a wave adds. -/
theorem waveWrites_rows (expiresAt : Nat)
    (absent : d.wave data.requirementId data.waveNumber = none)
    (distinct : workers.Nodup) (fresh : ∀ w ∈ workers, d.dispatch data.requirementId w = none) :
    (applyAll (waveWrites d data workers expiresAt) d).waves = d.waves ++
        [{ requirementId := data.requirementId, waveNumber := data.waveNumber
           workersNotified := workers.length, status := .active, notifiedAt := d.now }] ∧
      (applyAll (waveWrites d data workers expiresAt) d).dispatches =
        d.dispatches ++ waveOffers data workers expiresAt := by
  obtain ⟨outbox, same⟩ := applyAll_waveWrites d data workers expiresAt
  rw [same]
  refine ⟨Table.insert_of_free fun old stored => decide_eq_false fun same => ?_,
    Table.foldl_insert_of_free (fun x member old stored => decide_eq_false fun same => ?_)
      (waveOffers_apart distinct)⟩
  · exact Table.find_none_iff.mp absent old stored same.symm
  · obtain ⟨named, -, -, worker⟩ := mem_waveOffers member
    refine Table.find_none_iff.mp (fresh _ worker) old stored ?_
    rw [← same, Dispatch.key, named]

/-- The candidates are the first eligible workers, a hundred at most. -/
theorem candidates_eq (r : Id) (matching : List Id) (limit : Nat) :
    d.candidates r matching limit = (matching.filter (d.free r true)).take (max 1 (min limit 100)) := by
  have free : d.free r true = fun w => (d.dispatch r w).isNone &&
      !(d.bookings.any fun b => decide (b.workerId = w ∧
        (b.status = .CONFIRMED ∨ b.status = .IN_PROGRESS))) := by
    funext w
    simp [Db.free]
  rw [free]
  rfl

theorem eligible_nodup (skill : Option Text) {fleet : List Worker}
    (unique : (fleet.map (·.id)).Nodup) : (d.eligible cfg skill fleet data).Nodup := by
  refine List.Nodup.filter _ ?_
  rw [matchingWorkers]
  split
  · exact List.nodup_nil
  · refine List.Nodup.sublist (List.Sublist.map _ List.filter_sublist) ?_
    exact ((List.mergeSort_perm fleet Worker.ranks).map _).nodup_iff.mpr unique

theorem eligible_fresh (skill : Option Text) {fleet : List Worker} {w : Id}
    (member : w ∈ d.eligible cfg skill fleet data) : d.dispatch data.requirementId w = none := by
  have free := (List.mem_filter.mp member).2
  simp only [Db.free, Bool.not_true, Bool.false_or, Bool.and_eq_true, Option.isNone_iff_eq_none] at free
  exact free.1

/-- The wave that has been offered to these workers has the size it should have if they are as
many as the wave aims at, or all the eligible ones. -/
theorem waveSized_iff_length {e : Db} (positive : 0 < cfg.target row)
    (found : d.requirement data.requirementId = some row)
    (rows : e.waves = d.waves ++
        [{ requirementId := data.requirementId, waveNumber := data.waveNumber
           workersNotified := workers.length, status := .active, notifiedAt := d.now }] ∧
      e.dispatches = d.dispatches ++ waveOffers data workers expiresAt)
    (chosen : workers = eligible.take (max 1 (min (cfg.target row) 100))) :
    WaveSized cfg data eligible d e ↔ min (cfg.target row) eligible.length ≤ 100 := by
  have length : workers.length = min (max 1 (min (cfg.target row) 100)) eligible.length := by
    rw [chosen, List.length_take]
  have aimed : cfg.workerMultiplier * (row.workerCountNeeded - row.workerCountFilled) =
      cfg.target row := Nat.mul_comm _ _
  constructor
  · rintro (same | ⟨row', wave, offers, found', waves, -, dispatches, -, sized, -, -⟩)
    · rw [rows.1] at same
      exact absurd (congrArg List.length same) (by simp)
    · obtain rfl : row = row' := Option.some.inj (found.symm.trans found')
      have new : offers = waveOffers data workers expiresAt :=
        List.append_cancel_left (dispatches.symm.trans rows.2)
      rw [new, length_waveOffers, aimed] at sized
      omega
  · intro small
    have sized : workers.length = min (cfg.target row) eligible.length := by omega
    refine Or.inr ⟨row, _, waveOffers data workers expiresAt, found, rows.1, rfl, rows.2, ?_, ?_, ?_, ?_⟩
    · intro x member
      obtain ⟨named, numbered, pending, -⟩ := mem_waveOffers member
      exact ⟨named, numbered, pending⟩
    · rw [length_waveOffers, aimed, sized]
    · have first : eligible.take workers.length = workers := by
        rw [chosen, List.length_take, List.take_eq_take_iff]
        omega
      rw [waveOffers_places, length_waveOffers, first]
    · rw [length_waveOffers]

theorem length_eligible (skill : Option Text) (fleet : List Worker)
    (radius : cfg.radius data.waveNumber ≠ 0) :
    (d.eligible cfg skill fleet data).length =
      fleet.countP fun w => w.fits skill (cfg.radius data.waveNumber) &&
        d.free data.requirementId true w.id := by
  rw [Db.eligible, matchingWorkers, if_neg radius, List.filter_map, List.length_map, List.filter_filter,
    ← List.countP_eq_length_filter, (List.mergeSort_perm fleet Worker.ranks).countP_eq]
  simp only [Function.comp_def, Bool.and_comm]

/-- The delivery that reaches the query. -/
theorem searched_wave_sized_iff (valid : cfg.Valid) {answer : Bool} (skillId skillType : Option Text)
    (skills : SkillLookups) {fleet : List Worker} (unique : (fleet.map (·.id)).Nodup)
    (searches : d.Searches cfg data row) :
    Call.result answer (fun _ _ d' =>
        WaveSized cfg data (d.eligible cfg (querySkillParam skills skillId skillType) fleet data) d d')
      (processDispatchJobIn cfg (.answering skillId skillType skills fleet) data) none d ↔
    min (cfg.target row)
      (d.eligible cfg (querySkillParam skills skillId skillType) fleet data).length ≤ 100 := by
  rw [processDispatchJobIn_answering, result_search valid searches]
  generalize querySkillParam skills skillId skillType = skill
  have positive := target_pos valid searches.room
  have chosen := candidates_eq (d := d) data.requirementId
    ((matchingWorkers cfg skill fleet data.waveNumber).map (·.id)) (cfg.target row)
  rw [← Db.eligible] at chosen
  dsimp only
  split
  next nobody =>
    -- no worker was found, so none was eligible, and no wave is created
    rw [chosen, List.take_eq_nil_iff] at nobody
    have none' : d.eligible cfg skill fleet data = [] := nobody.resolve_left (by omega)
    simp [none', WaveSized, Write.apply]
  next somebody =>
    have sublist := chosen ▸ List.take_sublist (max 1 (min (cfg.target row) 100))
      (d.eligible cfg skill fleet data)
    have rows := waveWrites_rows (d.now + cfg.timeoutMs) searches.absent
      ((eligible_nodup skill unique).sublist sublist)
      fun w member => eligible_fresh skill (sublist.subset member)
    cases answer with
    | false => exact waveSized_iff_length positive searches.found rows chosen
    | true => exact waveSized_iff_length positive searches.found rows chosen

end Sizes

/-- A wave has the size it should have exactly when this is at most a hundred, the limit of one
page of candidates. -/
theorem wave_sized_iff (cfg : Config) (valid : cfg.Valid) (skillId skillType : Option Text)
    (skills : SkillLookups) (fleet : List Worker) (unique : (fleet.map (·.id)).Nodup)
    (answer : Bool) (data : DispatchJobData) (d : Db) :
    Call.result answer (fun _ _ d' =>
        WaveSized cfg data (d.eligible cfg (querySkillParam skills skillId skillType) fleet data) d d')
      (processDispatchJobIn cfg (.answering skillId skillType skills fleet) data) none d ↔
    ∀ row, d.Searches cfg data row → min (cfg.workerMultiplier *
        (row.workerCountNeeded - row.workerCountFilled))
      (d.eligible cfg (querySkillParam skills skillId skillType) fleet data).length ≤ 100 := by
  by_cases search : ∃ row, d.Searches cfg data row
  · obtain ⟨row, searches⟩ := search
    rw [searched_wave_sized_iff valid skillId skillType skills unique searches]
    constructor
    · intro small row' searches'
      obtain rfl : row = row' := Option.some.inj (searches.found.symm.trans searches'.found)
      rwa [Nat.mul_comm]
    · intro all
      rw [Config.target, Nat.mul_comm]
      exact all row searches
  · obtain ⟨res, d', -, left, same⟩ := result_unsearched answer
      ((matchingWorkers cfg (querySkillParam skills skillId skillType) fleet
        data.waveNumber).map (·.id)) valid (not_exists.mp search)
    rw [processDispatchJobIn_answering, same]
    refine iff_of_true (Or.inl ?_) fun row searches => absurd ⟨row, searches⟩ search
    rcases left with rfl | ⟨-, rfl⟩ <;> rfl

/-- Skill lookups that find nothing. -/
def noSkills : SkillLookups := { findUnique := fun _ => .ok none, findFirst := fun _ => .ok none }

/-- A worker at some distance from the job. -/
def workerAt (id : Id) (metres : Nat) : Worker :=
  { id, score := none, distance := Decimal.ofInt metres, skills := [], available := true }

/-- A job for which this many workers are wanted. -/
def wanting (workerCountNeeded : Nat) : Db :=
  { jobs := [{ id := 1, customerId := 5, status := .DISPATCHING, dispatchStatus := .IDLE
               latitude := some 12, longitude := some 77 }]
    requirements := [{ id := 2, jobId := 1, workerCountNeeded, workerCountFilled := 0
                       status := .DISPATCHING }] }

theorem wave_of_one_sized : Call.result true (fun _ _ d' => WaveSized plainConfig
      { requirementId := 2, jobId := 1 } ((wanting 1).eligible plainConfig none [workerAt 7 100]
        { requirementId := 2, jobId := 1 }) (wanting 1) d')
    (processDispatchJobIn plainConfig (.answering none none noSkills [workerAt 7 100])
      { requirementId := 2, jobId := 1 }) none (wanting 1) := by
  refine (wave_sized_iff plainConfig plainConfig_valid none none noSkills [workerAt 7 100] (by simp)
    true { requirementId := 2, jobId := 1 } (wanting 1)).mpr fun row searches => ?_
  obtain rfl := Option.some.inj searches.found
  exact (Nat.min_le_left _ _).trans (by decide)

theorem wanting_searches {needed : Nat} (positive : 0 < needed) :
    (wanting needed).Searches plainConfig { requirementId := 2, jobId := 1 }
      { id := 2, jobId := 1, workerCountNeeded := needed, workerCountFilled := 0
        status := .DISPATCHING } where
  found := by simp [wanting, Db.requirement, Table.find]
  live := by simp
  absent := rfl
  located := by
    have valid : validateDispatchCoordinates (some 12) (some 77) = true := by decide +kernel
    exact valid
  started := le_refl 1
  within := by decide
  room := positive

/-- As many workers as are asked for, all at the job. -/
def crowd (size : Nat) : List Worker := (List.range size).map fun id => workerAt id 0

theorem crowd_eligible (size needed : Nat) :
    ((wanting needed).eligible plainConfig none (crowd size) { requirementId := 2, jobId := 1 }).length =
      size := by
  rw [length_eligible none (crowd size) (by decide), List.countP_eq_length.mpr, crowd, List.length_map,
    List.length_range]
  intro w member
  obtain ⟨id, -, rfl⟩ := List.mem_map.mp member
  have near : Decimal.ofInt 0 ≤ Decimal.ofInt 3000 := Decimal.ofInt_le_ofInt.mpr (by decide)
  simp [Worker.fits, workerAt, Db.free, wanting, Db.dispatch, Table.find, near, plainConfig, Config.radius]

/-- Of a hundred and two workers a wave should be offered to, two are left out. -/
theorem large_wave_cut : ¬ Call.result true (fun _ _ d' => WaveSized plainConfig
      { requirementId := 2, jobId := 1 } ((wanting 51).eligible plainConfig none (crowd 102)
        { requirementId := 2, jobId := 1 }) (wanting 51) d')
    (processDispatchJobIn plainConfig (.answering none none noSkills (crowd 102))
      { requirementId := 2, jobId := 1 }) none (wanting 51) := by
  intro sized
  have unique : ((crowd 102).map (·.id)).Nodup := by
    rw [crowd, List.map_map]
    exact List.nodup_range.map fun _ _ same => same
  have small := (searched_wave_sized_iff plainConfig_valid none none noSkills unique
    (wanting_searches (by decide))).mp sized
  have eligible : querySkillParam noSkills none none = none := rfl
  rw [eligible, crowd_eligible] at small
  exact absurd small (by decide)

/-! ### A failed query -/

/-- Nothing but the status of the requirement may have changed. -/
def SameButStatus (requirementId : Id) (d d' : Db) : Prop :=
  d' = d ∨ ∃ status, d' = write (.requirementStatus [requirementId] status) d

/-- Lookups that fail. -/
def SkillLookups.Fails (skills : SkillLookups) : Prop :=
  (∀ id, ∃ e, skills.findUnique id = .error e) ∧ ∀ name, ∃ e, skills.findFirst name = .error e

section Failures

variable {cfg : Config} {d : Db} {data : DispatchJobData}

/-- An empty answer gives up or does nothing. -/
theorem result_nobody (valid : cfg.Valid) (started : 1 ≤ data.waveNumber) (answer : Bool) :
    Call.result answer (fun res _ d' => res.isOk = true ∧ SameButStatus data.requirementId d d')
      (processDispatchJob cfg data []) none d := by
  by_cases search : ∃ row, d.Searches cfg data row
  · obtain ⟨row, searches⟩ := search
    have nobody : d.candidates data.requirementId [] (cfg.target row) = [] := by simp [Db.candidates]
    rw [result_search valid searches, nobody]
    exact ⟨rfl, Or.inr ⟨_, rfl⟩⟩
  · obtain ⟨res, d', ends, left, same⟩ := result_unsearched answer [] valid
      (not_exists.mp search)
    rw [same]
    refine ⟨ends.resolve_right (by omega), left.imp_right ?_⟩
    rintro ⟨-, rfl⟩
    exact ⟨_, rfl⟩

/-- A skill that could not be looked up is searched by the id that was given, or not found. -/
theorem querySkillParam_fails {skills : SkillLookups} (fails : skills.Fails)
    (skillId skillType : Option Text) :
    querySkillParam skills skillId skillType = (rawSkillInput skillId skillType).map fun raw =>
      if raw.isBlank then raw else if isUuid raw.trim then raw.trim else nilUuid := by
  have resolved : ∀ raw, (resolveSkillId skills raw).getD nilUuid =
      if isUuid raw.trim then raw.trim else nilUuid := by
    intro raw
    obtain ⟨e, byId⟩ := fails.1 raw.trim
    obtain ⟨e', byName⟩ := fails.2 raw.trim
    rw [resolveSkillId]
    by_cases empty : raw.trim = []
    · simp [empty, isUuid, uuidPattern]
    · by_cases uuid : isUuid raw.trim = true
      · simp [empty, uuid, byId]
      · simp [empty, uuid, byName]
  simp only [querySkillParam, resolved]

end Failures

/-- A database connection that has been lost. -/
def lostConnection : Surroundings :=
  { skillId := none, skillType := none, skills := noSkills
    run := fun _ _ => .error (.plain "PostGIS connection lost") }

def Config.widestRadius (cfg : Config) : Nat := cfg.radiusMetersByWave.foldr max 0

/-- Some eligible worker within the widest radius has not been offered the requirement. -/
def Db.somebodyLeft (d : Db) (cfg : Config) (skill : Option Text) (fleet : List Worker)
    (requirementId : Id) : Prop :=
  ∃ w ∈ fleet, w.fits skill cfg.widestRadius = true ∧ d.free requirementId true w.id = true

/-- When the requirement has been set to NO_WORKERS_AVAILABLE, nobody is left. -/
def SearchedWidest (cfg : Config) (skill : Option Text) (fleet : List Worker) (requirementId : Id)
    (d d' : Db) : Prop :=
  TurnedNoWorkers d d' requirementId → ¬ d'.somebodyLeft cfg skill fleet requirementId

section GivingUp

variable {cfg : Config} {d d' : Db} {data : DispatchJobData} {row : Requirement} {r : Id}
  {skill : Option Text} {fleet : List Worker} {answer : Bool}

theorem turned_noWorkers_iff (found : d.requirement r = some row)
    (same : d'.requirement r = d.requirement r) :
    TurnedNoWorkers d (write (.requirementStatus [r] .NO_WORKERS_AVAILABLE) d') r ↔
      row.status ≠ .NO_WORKERS_AVAILABLE := by
  have written : (write (.requirementStatus [r] .NO_WORKERS_AVAILABLE) d').requirement r =
      some { row with status := .NO_WORKERS_AVAILABLE } := by
    have stored : Table.find Requirement.id d'.requirements r = some row := same.trans found
    simp only [write_eq_apply, Write.apply, Db.requirement]
    rw [Table.find_modify, stored]
    · simp
    · exact fun _ => rfl
  constructor
  · rintro ⟨old, -, found', -, before, -⟩
    obtain rfl := Option.some.inj (found.symm.trans found')
    exact before
  · exact fun before => ⟨row, _, found, written, before, rfl⟩

theorem not_turned (same : d'.requirement r = d.requirement r) : ¬ TurnedNoWorkers d d' r := by
  rintro ⟨row, row', found, found', before, after⟩
  obtain rfl : row = row' := Option.some.inj (found.symm.trans (same.symm.trans found'))
  exact before after

/-- Closing offers and giving up frees nobody and takes nobody. -/
theorem free_closed {offers : List (Id × Id)} {s : DispatchStatus} {w : Id} :
    (write (.dispatchStatus offers s) d).free r true w = d.free r true w := by
  have offered : ((write (.dispatchStatus offers s) d).dispatch r w).isNone =
      (d.dispatch r w).isNone := by
    simp only [write_eq_apply, Write.apply, Db.dispatch]
    rw [Table.find_modify]
    · cases Table.find Dispatch.key d.dispatches (r, w) <;> rfl
    · exact fun _ => rfl
  rw [Db.free, Db.free, offered]
  rfl

/-- The delivery of a dispatch job that reaches the query. -/
theorem searched_widest_iff (valid : cfg.Valid) (skillId skillType : Option Text)
    (skills : SkillLookups) (searches : d.Searches cfg data row) :
    Call.result answer (fun _ _ d' => SearchedWidest cfg (querySkillParam skills skillId skillType)
        fleet data.requirementId d d')
      (processDispatchJobIn cfg (.answering skillId skillType skills fleet) data) none d ↔
    row.status = .NO_WORKERS_AVAILABLE ∨
      d.eligible cfg (querySkillParam skills skillId skillType) fleet data ≠ [] ∨
      ¬ d.somebodyLeft cfg (querySkillParam skills skillId skillType) fleet data.requirementId := by
  rw [processDispatchJobIn_answering, result_search valid searches]
  generalize querySkillParam skills skillId skillType = skill
  have chosen := candidates_eq (d := d) data.requirementId
    ((matchingWorkers cfg skill fleet data.waveNumber).map (·.id)) (cfg.target row)
  rw [← Db.eligible] at chosen
  dsimp only
  split
  next nobody =>
    rw [chosen, List.take_eq_nil_iff] at nobody
    have none' : d.eligible cfg skill fleet data = [] := nobody.resolve_left (by omega)
    rw [SearchedWidest, turned_noWorkers_iff searches.found rfl, none']
    -- giving up changes no candidate
    have left : (write (.requirementStatus [data.requirementId] .NO_WORKERS_AVAILABLE) d).somebodyLeft
        cfg skill fleet data.requirementId ↔ d.somebodyLeft cfg skill fleet data.requirementId := Iff.rfl
    rw [left]
    tauto
  next somebody =>
    have some' : d.eligible cfg skill fleet data ≠ [] := by
      rintro none'
      rw [none'] at chosen
      exact somebody (chosen.trans List.take_nil)
    -- somebody is offered the job, so the requirement is not given up
    refine iff_of_true ?_ (Or.inr (Or.inl some'))
    obtain ⟨outbox, same⟩ := applyAll_waveWrites d data (d.candidates data.requirementId
      ((matchingWorkers cfg skill fleet data.waveNumber).map (·.id)) (cfg.target row))
      (d.now + cfg.timeoutMs)
    rw [same]
    cases answer with
    | false => exact fun turned => absurd turned (not_turned rfl)
    | true => exact fun turned => absurd turned (not_turned rfl)

/-- The timeout of a wave of a requirement that is still open. -/
theorem timeout_widest_iff {q : TimeoutJobData} (valid : cfg.Valid)
    (found : d.requirement q.requirementId = some row)
    (live : row.status ≠ .FILLED ∧ row.status ≠ .CANCELLED) :
    Call.result answer (fun _ _ d' => SearchedWidest cfg skill fleet q.requirementId d d')
      (processTimeoutJob cfg q) none d ↔
    row.status = .NO_WORKERS_AVAILABLE ∨ (q.waveNumber + 1 < cfg.maxWaves ∧
        row.workerCountFilled < row.workerCountNeeded ∧ q.isCandidatesExhausted = false) ∨
      ¬ d.somebodyLeft cfg skill fleet q.requirementId := by
  rw [result_processTimeoutJob found live, shouldTry_plan valid]
  by_cases further : q.waveNumber + 1 < cfg.maxWaves ∧ row.workerCountFilled < row.workerCountNeeded ∧
      q.isCandidatesExhausted = false
  · obtain ⟨before, room, unexhausted⟩ := further
    simp only [before, room, unexhausted, and_self, decide_true, Bool.not_false, Bool.and_true, if_true,
      true_or, or_true, iff_true, result_addDispatchJob]
    cases answer with
    | false => exact fun turned => absurd turned (not_turned rfl)
    | true => exact fun turned => absurd turned (not_turned rfl)
  · have stops : (decide (q.waveNumber + 1 < cfg.maxWaves ∧ row.workerCountFilled <
        row.workerCountNeeded) && !q.isCandidatesExhausted) = false := by
      rw [Bool.eq_false_iff]
      intro goes
      rw [Bool.and_eq_true, decide_eq_true_eq, Bool.not_eq_true'] at goes
      exact further ⟨goes.1.1, goes.1.2, goes.2⟩
    have left : (write (.requirementStatus [q.requirementId] .NO_WORKERS_AVAILABLE)
        (d.timedOut q.requirementId q.waveNumber)).somebodyLeft cfg skill fleet q.requirementId ↔
        d.somebodyLeft cfg skill fleet q.requirementId := by
      have free : ∀ id, (write (.requirementStatus [q.requirementId] .NO_WORKERS_AVAILABLE)
          (d.timedOut q.requirementId q.waveNumber)).free q.requirementId true id =
          d.free q.requirementId true id := fun _ => free_closed
      simp only [Db.somebodyLeft, free]
    have same : (d.timedOut q.requirementId q.waveNumber).requirement q.requirementId =
        d.requirement q.requirementId := rfl
    rw [stops, if_neg Bool.false_ne_true, SearchedWidest, turned_noWorkers_iff found same, left]
    tauto

end GivingUp

/-- The engine gives up after the widest search only: a delivery exactly when its own radius has
an eligible worker or nobody is left in the widest one, a timeout exactly when it goes on to the
next wave or nobody is left. Requirements that are closed, or have been given up already, aside. -/
theorem gives_up_last_iff (cfg : Config) (valid : cfg.Valid) (skillId skillType : Option Text)
    (skills : SkillLookups) (fleet : List Worker) (answer : Bool) (d : Db) :
    (∀ data : DispatchJobData, (∀ row, d.requirement data.requirementId = some row →
        validateDispatchCoordinates ((d.job row.jobId).bind (·.latitude))
          ((d.job row.jobId).bind (·.longitude)) = true) →
      (Call.result answer (fun _ _ d' => SearchedWidest cfg (querySkillParam skills skillId skillType)
          fleet data.requirementId d d')
        (processDispatchJobIn cfg (.answering skillId skillType skills fleet) data) none d ↔
      ∀ row, d.Searches cfg data row → row.status = .NO_WORKERS_AVAILABLE ∨
        d.eligible cfg (querySkillParam skills skillId skillType) fleet data ≠ [] ∨
        ¬ d.somebodyLeft cfg (querySkillParam skills skillId skillType) fleet data.requirementId)) ∧
    ∀ q : TimeoutJobData,
      (Call.result answer (fun _ _ d' => SearchedWidest cfg (querySkillParam skills skillId skillType)
          fleet q.requirementId d d') (processTimeoutJob cfg q) none d ↔
      ∀ row, d.requirement q.requirementId = some row →
        row.status = .FILLED ∨ row.status = .CANCELLED ∨ row.status = .NO_WORKERS_AVAILABLE ∨
        (q.waveNumber + 1 < cfg.maxWaves ∧ row.workerCountFilled < row.workerCountNeeded ∧
          q.isCandidatesExhausted = false) ∨
        ¬ d.somebodyLeft cfg (querySkillParam skills skillId skillType) fleet q.requirementId) := by
  constructor
  · intro data located
    by_cases search : ∃ row, d.Searches cfg data row
    · obtain ⟨row, searches⟩ := search
      rw [searched_widest_iff valid skillId skillType skills searches]
      constructor
      · intro widest row' searches'
        obtain rfl : row = row' := Option.some.inj (searches.found.symm.trans searches'.found)
        exact widest
      · exact fun all => all row searches
    · -- a delivery that does not search gives up only on invalid coordinates
      obtain ⟨res, d', -, left, same⟩ := result_unsearched answer
        ((matchingWorkers cfg (querySkillParam skills skillId skillType) fleet
          data.waveNumber).map (·.id)) valid (not_exists.mp search)
      rw [processDispatchJobIn_answering, same]
      refine iff_of_true (fun turned => ?_) fun row searches => absurd ⟨row, searches⟩ search
      rcases left with rfl | ⟨⟨row, found, invalid⟩, -⟩
      · exact absurd turned (not_turned rfl)
      · rw [located row found] at invalid
        cases invalid
  · intro q
    cases found : d.requirement q.requirementId with
    | none =>
      rw [processTimeoutJob, query, Call.result_bind, Call.result_read, Call.resultThen_ok, Tx.view_none,
        found]
      refine iff_of_true (fun turned => absurd turned (not_turned rfl)) ?_
      rintro row ⟨⟩
    | some row =>
      by_cases closed : row.status = .FILLED ∨ row.status = .CANCELLED
      · -- the timeout of a closed requirement does nothing
        rw [processTimeoutJob, query, Call.result_bind, Call.result_read, Call.resultThen_ok,
          Tx.view_none, found]
        simp only [if_pos closed, Call.result_pure]
        refine iff_of_true (fun turned => absurd turned (not_turned rfl)) ?_
        rintro row' ⟨⟩
        tauto
      · rw [timeout_widest_iff valid found (by tauto)]
        constructor
        · rintro widest row' ⟨⟩
          tauto
        · intro all
          have widest := all row rfl
          tauto

theorem eligible_single (metres : Nat) :
    (wanting 1).eligible plainConfig none [workerAt 7 metres] { requirementId := 2, jobId := 1 } ≠ [] ↔
      metres ≤ 3000 := by
  rw [← List.length_pos_iff, length_eligible none _ (by decide), List.countP_pos_iff]
  have near : Decimal.ofInt metres ≤ Decimal.ofInt 3000 ↔ metres ≤ 3000 := by
    rw [Decimal.ofInt_le_ofInt]
    omega
  simp [Worker.fits, workerAt, Db.free, wanting, Db.dispatch, Table.find, plainConfig, Config.radius, near]

theorem near_worker_found : Call.result true (fun _ _ d' => SearchedWidest plainConfig
      (querySkillParam noSkills none none) [workerAt 7 100] 2 (wanting 1) d')
    (processDispatchJobIn plainConfig (.answering none none noSkills [workerAt 7 100])
      { requirementId := 2, jobId := 1 }) none (wanting 1) := by
  have first := (gives_up_last_iff plainConfig plainConfig_valid none none noSkills [workerAt 7 100] true
    (wanting 1)).1 { requirementId := 2, jobId := 1 } ?_
  · refine first.mpr fun row searches => Or.inr (Or.inl ?_)
    exact (eligible_single 100).mpr (by decide)
  · intro row found
    obtain rfl := Option.some.inj found
    exact (wanting_searches (by decide)).located

/-- With nobody within three kilometres the engine gives up, though a worker is four away. -/
theorem far_worker_missed : ¬ Call.result true (fun _ _ d' => SearchedWidest plainConfig
      (querySkillParam noSkills none none) [workerAt 7 4000] 2 (wanting 1) d')
    (processDispatchJobIn plainConfig (.answering none none noSkills [workerAt 7 4000])
      { requirementId := 2, jobId := 1 }) none (wanting 1) := by
  intro widest
  rcases (searched_widest_iff plainConfig_valid none none noSkills
    (wanting_searches (by decide))).mp widest with already | found | nobody
  · cases already
  · exact absurd ((eligible_single 4000).mp found) (by decide)
  · refine nobody ⟨workerAt 7 4000, List.mem_singleton.mpr rfl, ?_, rfl⟩
    have near : Decimal.ofInt 4000 ≤ Decimal.ofInt 15000 := Decimal.ofInt_le_ofInt.mpr (by decide)
    simp [Worker.fits, workerAt, Config.widestRadius, plainConfig, near, querySkillParam, rawSkillInput]

end LabourBaba.Market
