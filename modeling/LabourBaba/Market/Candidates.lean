import LabourBaba.Market.WaveSchedulers
import LabourBaba.Text.Decimal

/-!
# Candidates

Which workers the dispatch of a wave is offered to: the skill that is looked for, the query over
the worker table with its ranking, its page limit and its keyset cursor, and the processor of a
wave with the query in its place. The worker table and the answers of the skill lookups are
arguments; offers and bookings are read from the store.
-/
namespace LabourBaba.Market

open Store

/-! ### Skills -/

def Text.trim (text : Text) : Text :=
  ((text.dropWhile isTrimmed).reverse.dropWhile isTrimmed).reverse

/-- `UUID_REGEX`, one character class a character. -/
def uuidPattern : List Text :=
  let hex := "0123456789abcdefABCDEF".toList
  List.replicate 8 hex ++ [['-']] ++ List.replicate 4 hex ++ [['-'], "12345".toList] ++
    List.replicate 3 hex ++ [['-'], "89abAB".toList] ++ List.replicate 3 hex ++ [['-']] ++
    List.replicate 12 hex

def isUuid (text : Text) : Bool :=
  decide (text.length = uuidPattern.length) &&
    (uuidPattern.zip text).all fun (allowed, c) => decide (c ∈ allowed)

/-- The answers of the two lookups in `skill_category`, by id and by name. -/
structure SkillLookups where
  findUnique : Text → Except Failure (Option Text)
  findFirst : Text → Except Failure (Option Text)

def resolveSkillId (skills : SkillLookups) (input : Text) : Option Text :=
  let trimmed := input.trim
  if trimmed = [] then none
  else if isUuid trimmed then
    match skills.findUnique trimmed with
    | .ok (some id) => some id
    | _ => some trimmed
  else
    match skills.findFirst trimmed with
    | .ok byName => byName
    | .error _ => none

/-- The skill id that no worker has. -/
def nilUuid : Text := "00000000-0000-0000-0000-000000000000".toList

/-- `skillId || skillType`, unless both are empty. -/
def rawSkillInput (skillId skillType : Option Text) : Option Text :=
  ((skillId.filter (· ≠ [])).or skillType).filter (· ≠ [])

def querySkillParam (skills : SkillLookups) (skillId skillType : Option Text) : Option Text :=
  (rawSkillInput skillId skillType).map fun raw =>
    if raw.isBlank then raw else (resolveSkillId skills raw).getD nilUuid

/-! ### The query -/

/-- What the candidate query reads of a worker, with `ST_Distance` to the job. -/
structure Worker where
  id : Id
  score : Option Decimal
  distance : Decimal
  /-- `skill_category_id` and the skills of `worker_skill`. -/
  skills : List Text
  /-- Online, not deleted, verified, and located within the freshness window. -/
  available : Bool

/-- `worker_score DESC NULLS LAST`. -/
def scoreAhead : Option Decimal → Option Decimal → Prop
  | some a, some b => b < a
  | some _, none => True
  | none, _ => False

instance : DecidableRel scoreAhead := fun a b =>
  match a, b with
  | some a, some b => inferInstanceAs (Decidable (b < a))
  | some _, none => inferInstanceAs (Decidable True)
  | none, _ => inferInstanceAs (Decidable False)

/-- `ORDER BY dist_m ASC, w.worker_score DESC NULLS LAST, w.id ASC`. -/
def Worker.ranks (a b : Worker) : Bool :=
  decide (a.distance < b.distance ∨ a.distance = b.distance ∧
    (scoreAhead a.score b.score ∨ a.score = b.score ∧ a.id ≤ b.id))

structure CandidateCursorPayload where
  distance : Decimal
  score : Option Decimal
  id : Id

/-- `COALESCE(score, -1.0)`. -/
def coalesced (score : Option Decimal) : Decimal := score.getD (Decimal.ofInt (-1))

/-- The keyset predicate of the query. -/
def CandidateCursorPayload.before (c : CandidateCursorPayload) (w : Worker) : Bool :=
  decide (c.distance < w.distance ∨ w.distance = c.distance ∧
    (coalesced w.score < coalesced c.score ∨
      coalesced w.score = coalesced c.score ∧ c.id < w.id))

structure CandidateQuery where
  requirementId : Id
  skill : Option Text
  radiusMeters : Nat
  excludeDispatched : Bool
  cursor : Option CandidateCursorPayload
  limit : Nat
  offset : Nat

/-- The conditions on a worker's own row. -/
def Worker.fits (skill : Option Text) (radiusMeters : Nat) (w : Worker) : Bool :=
  w.available && decide (w.distance ≤ Decimal.ofInt radiusMeters) &&
    skill.all fun id => decide (id ∈ w.skills)

/-- No confirmed or running booking, and no offer of the requirement yet. -/
def Db.free (d : Db) (requirementId : Id) (excludeDispatched : Bool) (worker : Id) : Bool :=
  (!excludeDispatched || (d.dispatch requirementId worker).isNone) &&
    !(d.bookings.any fun b => decide (b.workerId = worker ∧
      (b.status = .CONFIRMED ∨ b.status = .IN_PROGRESS)))

/-- What the query answers. Ids are unique, so filtering the ranked rows ranks the filtered ones. -/
def candidateRows (workers : List Worker) (d : Db) (q : CandidateQuery) : List Worker :=
  (((workers.mergeSort Worker.ranks).filter fun w => w.fits q.skill q.radiusMeters &&
    d.free q.requirementId q.excludeDispatched w.id && q.cursor.all (·.before w)).drop
      q.offset).take q.limit

/-! ### Pages -/

structure CandidatePageResult (C : Type) where
  candidates : List Worker
  hasMore : Bool
  pageSize : Nat
  nextCursor : Option C

structure CandidateEligibilityParams where
  requirementId : Id
  latitude : Option Rat
  longitude : Option Rat
  radiusMeters : Nat
  skillId : Option Text := none
  skillType : Option Text := none
  limit : Nat := 20
  offset : Nat := 0
  /-- The decoded cursor. -/
  cursor : Option CandidateCursorPayload := none
  excludeDispatched : Bool := true

/-- The page for a query that `run` answers; the error path returns an empty page. -/
def getEligibleCandidatePage {C : Type} (encodeCandidateCursor : Worker → C) (skills : SkillLookups)
    (run : CandidateQuery → Except Failure (List Worker)) (params : CandidateEligibilityParams) :
    CandidatePageResult C :=
  let skill := querySkillParam skills params.skillId params.skillType
  let safeLimit := max 1 (min params.limit 100)
  let none' : CandidatePageResult C :=
    { candidates := [], hasMore := false, pageSize := safeLimit, nextCursor := none }
  if ¬ validateDispatchCoordinates params.latitude params.longitude ∨ params.radiusMeters = 0 then none'
  else
    match run { requirementId := params.requirementId, skill, radiusMeters := params.radiusMeters
                excludeDispatched := params.excludeDispatched, cursor := params.cursor
                limit := safeLimit + 1
                offset := if params.cursor.isSome then 0 else params.offset } with
    | .error _ => none'
    | .ok rows =>
      let hasMore := decide (safeLimit < rows.length)
      let candidates := if hasMore then rows.take safeLimit else rows
      { candidates, hasMore, pageSize := safeLimit
        nextCursor := if hasMore then candidates.getLast?.map encodeCandidateCursor else none }

def getEligibleDispatchCandidates (skills : SkillLookups)
    (run : CandidateQuery → Except Failure (List Worker)) (params : CandidateEligibilityParams) :
    List Worker :=
  (getEligibleCandidatePage (fun _ => ()) skills run params).candidates

/-! ### The processor of a wave -/

/-- What a delivery of a dispatch job meets outside the store: the columns of its requirement
that name the skill, the skill lookups, and the candidate query on the worker table. -/
structure Surroundings where
  skillId : Option Text
  skillType : Option Text
  skills : SkillLookups
  run : Db → CandidateQuery → Except Failure (List Worker)

/-- A database that answers the candidate query. -/
def Surroundings.answering (skillId skillType : Option Text) (skills : SkillLookups)
    (workers : List Worker) : Surroundings :=
  { skillId, skillType, skills, run := fun d q => .ok (candidateRows workers d q) }

/-- The `workers` of `processDispatchJob`. -/
def Surroundings.candidates (s : Surroundings) (requirementId : Id) (job : Option Job)
    (plan : DispatchWavePlan) (d : Db) : List Worker :=
  getEligibleDispatchCandidates s.skills (s.run d)
    { requirementId, latitude := job.bind (·.latitude), longitude := job.bind (·.longitude)
      radiusMeters := plan.radiusMeters, skillId := s.skillId, skillType := s.skillType
      limit := plan.targetCandidateCount }

/-- `processDispatchJob` with its candidate query. -/
def processDispatchJobIn (cfg : Config) (s : Surroundings) (data : DispatchJobData) :
    Service DispatchOperationResult := do
  let found ← Call.read (.waveRequirement data.requirementId data.waveNumber) fun d =>
    (d.requirement data.requirementId).map fun r => (r, d.job r.jobId)
  match found with
  | none => pure { status := .skipped_not_found }
  | some (req, job) =>
    if req.status = .FILLED ∨ req.status = .CANCELLED then pure { status := .skipped_terminal }
    else do
      let existingWave ← Call.read (.waveLookup data.requirementId data.waveNumber) fun d =>
        d.wave data.requirementId data.waveNumber
      match existingWave with
      | some wave => alreadyProcessed data.requirementId data.waveNumber (some wave)
      | none =>
        if ¬ validateDispatchCoordinates (job.bind (·.latitude)) (job.bind (·.longitude)) then
          giveUp data.requirementId data.waveNumber
        else if data.waveNumber = 0 then throw (.plain "waveNumber must start at 1")
        else
          let initialPlan := planDispatchWave cfg req.workerCountNeeded req.workerCountFilled
            data.waveNumber
          if ¬ initialPlan.canDispatch then pure { status := .skipped_terminal }
          else do
            let workers ← query fun d =>
              (s.candidates data.requirementId job initialPlan d).map (·.id)
            let plan := planDispatchWave cfg req.workerCountNeeded req.workerCountFilled
              data.waveNumber (some workers.length)
            if ¬ plan.canDispatch then giveUp data.requirementId data.waveNumber
            else persistWave data plan workers initialPlan.isFinalAllowedWave

/-! ### What the processor is offered -/

section Offered

variable {cfg : Config} {s : Surroundings} {data : DispatchJobData}

/-- Only the ids of the candidates matter. -/
theorem processDispatchJobIn_eq {matching : List Id}
    (offered : ∀ job d needed filled,
      validateDispatchCoordinates (job.bind (·.latitude)) (job.bind (·.longitude)) = true →
      (s.candidates data.requirementId job (planDispatchWave cfg needed filled data.waveNumber)
        d).map (·.id) = d.candidates data.requirementId matching
          (planDispatchWave cfg needed filled data.waveNumber).targetCandidateCount) :
    processDispatchJobIn cfg s data = processDispatchJob cfg data matching := by
  rw [processDispatchJobIn, processDispatchJob]
  refine congrArg _ (funext fun found => ?_)
  rcases found with - | ⟨req, job⟩
  · rfl
  · dsimp only
    by_cases closed : req.status = .FILLED ∨ req.status = .CANCELLED
    · rw [if_pos closed, if_pos closed]
    · rw [if_neg closed, if_neg closed]
      refine congrArg _ (funext fun existingWave => ?_)
      rcases existingWave with - | wave
      · dsimp only
        by_cases located : validateDispatchCoordinates (job.bind (·.latitude))
          (job.bind (·.longitude)) = true
        · simp only [offered job _ _ _ located]
        · rw [if_pos located, if_pos located]
      · rfl

/-- The rows of one page. -/
theorem getEligibleDispatchCandidates_ok {skills : SkillLookups}
    {run : CandidateQuery → Except Failure (List Worker)} {params : CandidateEligibilityParams}
    {rows : List Worker}
    (located : validateDispatchCoordinates params.latitude params.longitude = true)
    (radius : params.radiusMeters ≠ 0)
    (answered : run { requirementId := params.requirementId
                      skill := querySkillParam skills params.skillId params.skillType
                      radiusMeters := params.radiusMeters
                      excludeDispatched := params.excludeDispatched, cursor := params.cursor
                      limit := max 1 (min params.limit 100) + 1
                      offset := if params.cursor.isSome then 0 else params.offset } = .ok rows) :
    getEligibleDispatchCandidates skills run params = rows.take (max 1 (min params.limit 100)) := by
  have searched : ¬ (¬ validateDispatchCoordinates params.latitude params.longitude = true ∨
      params.radiusMeters = 0) := by simp [located, radius]
  rw [getEligibleDispatchCandidates, getEligibleCandidatePage, if_neg searched, answered]
  dsimp only
  split
  · rfl
  next short =>
    have whole : rows.length ≤ max 1 (min params.limit 100) := by
      rw [decide_eq_true_eq] at short
      exact Nat.le_of_not_lt short
    exact (List.take_of_length_le whole).symm

theorem getEligibleDispatchCandidates_error {skills : SkillLookups}
    {run : CandidateQuery → Except Failure (List Worker)} {params : CandidateEligibilityParams}
    (failed : ∀ q, ∃ e, run q = .error e) : getEligibleDispatchCandidates skills run params = [] := by
  rw [getEligibleDispatchCandidates, getEligibleCandidatePage]
  split
  · rfl
  · obtain ⟨e, error⟩ := failed { requirementId := params.requirementId
                                  skill := querySkillParam skills params.skillId params.skillType
                                  radiusMeters := params.radiusMeters
                                  excludeDispatched := params.excludeDispatched
                                  cursor := params.cursor
                                  limit := max 1 (min params.limit 100) + 1
                                  offset := if params.cursor.isSome then 0 else params.offset }
    rw [error]

/-- The radius of a wave. -/
def Config.radius (cfg : Config) (waveNumber : Nat) : Nat :=
  (cfg.radiusMetersByWave[min waveNumber cfg.maxWaves - 1]?).getD 0

@[simp] theorem radius_plan (needed filled waveNumber : Nat) (available : Option Nat)
    (exhausted : Bool) :
    (planDispatchWave cfg needed filled waveNumber available exhausted).radiusMeters =
      cfg.radius waveNumber := rfl

/-- The workers in the radius of a wave that have the skill, as the query ranks them. -/
def matchingWorkers (cfg : Config) (skill : Option Text) (workers : List Worker)
    (waveNumber : Nat) : List Worker :=
  if cfg.radius waveNumber = 0 then []
  else (workers.mergeSort Worker.ranks).filter (·.fits skill (cfg.radius waveNumber))

/-- With a database that answers, the processor is the one that is given the matching workers. -/
theorem processDispatchJobIn_answering (skillId skillType : Option Text) (skills : SkillLookups)
    (workers : List Worker) :
    processDispatchJobIn cfg (.answering skillId skillType skills workers) data =
      processDispatchJob cfg data ((matchingWorkers cfg (querySkillParam skills skillId skillType)
        workers data.waveNumber).map (·.id)) := by
  refine processDispatchJobIn_eq fun job d needed filled located => ?_
  by_cases radius : cfg.radius data.waveNumber = 0
  · simp [Surroundings.candidates, getEligibleDispatchCandidates, getEligibleCandidatePage, radius,
      matchingWorkers, Db.candidates]
  · rw [Surroundings.candidates, getEligibleDispatchCandidates_ok (by exact located) (by exact radius)
      rfl]
    simp only [candidateRows, Db.candidates, matchingWorkers, if_neg radius, Option.isSome_none,
      Bool.false_eq_true, if_false, List.drop_zero, Option.all_none, Bool.and_true, Db.free,
      Bool.not_true, Bool.false_or, radius_plan, Surroundings.answering]
    rw [List.take_take, min_eq_left (Nat.le_succ _), List.map_take, List.filter_map,
      List.filter_filter]
    simp only [Function.comp_def, Bool.and_comm]

/-- A failed query is answered with an empty page. -/
theorem processDispatchJobIn_failing (failed : ∀ d q, ∃ e, s.run d q = .error e) :
    processDispatchJobIn cfg s data = processDispatchJob cfg data [] := by
  refine processDispatchJobIn_eq fun job d needed filled located => ?_
  rw [Surroundings.candidates, getEligibleDispatchCandidates_error (failed d)]
  simp [Db.candidates]

end Offered

end LabourBaba.Market
