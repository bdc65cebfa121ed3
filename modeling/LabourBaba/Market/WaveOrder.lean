import LabourBaba.Market.WaveConformance

/-!
# The order of waves

In every run in which the queues deliver what was added to them, the waves of a requirement
are numbered 1 to k without gap or repetition, each offer belongs to one of them, and a
worker gets one offer of a requirement, once and for all. Giving a requirement up as
NO_WORKERS_AVAILABLE is another matter: the scan looks at the requirement's latest wave
first, but a dispatch job, a decline and a timeout look at their own wave only. As long as
they find the latest wave over, no open offer is left behind.
-/
namespace LabourBaba.Market

open Store

variable {cfg : Config} {cond : Label → Db → Prop} {p q : MarketPool}

/-! ### Runs -/

theorem book_of_runs (delivers : ∀ ℓ d, cond ℓ d → delivered ℓ d = true) (run : Runs cfg cond p) :
    Pool.Sound (bookProtocol cfg) (fun _ _ _ _ => True) p :=
  run.sound (keepsBook cfg)
    (fun p _ meets i answer ℓ event labelled => delivers ℓ p.db (meets i answer ℓ event labelled))
    (.empty WaveBook.empty)

theorem waveCommit_of_step {i : Nat} {answer : Bool} {ℓ : Label}
    (delivers : ∀ ℓ d, cond ℓ d → delivered ℓ d = true) (run : Runs cfg cond p)
    (labelled : p.next i = some ℓ) (meets : cond ℓ p.db)
    (stepped : p.step (system cfg) (.run i answer) = some q) :
    q.db = p.db ∨ ∃ ws, q.db = applyAll ws p.db ∧ WaveCommit cfg ℓ p.db ws := by
  have allowed : Pool.Meets (bookProtocol cfg).pre p (.run i answer) := by
    rintro _ _ ℓ' ⟨⟩ found
    obtain rfl := Option.some.inj (labelled.symm.trans found)
    exact delivers ℓ p.db meets
  rcases ((book_of_runs delivers run).step (keepsBook cfg) allowed stepped).does with
    same | ⟨i', answer', ℓ', event, labelled', changed⟩
  · exact Or.inl same
  · cases event
    obtain rfl := Option.some.inj (labelled.symm.trans labelled')
    exact Or.inr changed

theorem later_of_runs (run : Runs cfg cond p)
    (more : Pool.Reaches (system cfg) (Pool.Meets cond) p q) : Later p.db q.db :=
  invariant_from (Later p.db) (fun _ _ ws _ before _ _ => before.trans (Later.applyAll ws _)) run
    (Later.refl p.db) more

/-! ### The numbers of the waves -/

/-- The wave numbers stored for a requirement. -/
def Db.waveNumbers (d : Db) (requirementId : Id) : List Nat :=
  (d.waves.filter fun w => w.requirementId = requirementId).map (·.waveNumber)

section Numbers

variable {d : Db} {r : Id} {n : Nat}

theorem mem_waveNumbers : n ∈ d.waveNumbers r ↔ ∃ w ∈ d.waves, w.key = (r, n) := by
  simp only [Db.waveNumbers, List.mem_map, List.mem_filter, decide_eq_true_eq, Wave.key,
    Prod.mk.injEq]
  constructor
  · rintro ⟨w, ⟨member, sameReq⟩, sameWave⟩
    exact ⟨w, member, sameReq, sameWave⟩
  · rintro ⟨w, member, sameReq, sameWave⟩
    exact ⟨w, ⟨member, sameReq⟩, sameWave⟩

theorem mem_waveNumbers_of_found {w : Wave} (found : d.wave r n = some w) : n ∈ d.waveNumbers r :=
  mem_waveNumbers.mpr ⟨w, Table.mem_of_find found, Table.find_key found⟩

theorem waveNumbers_nodup (book : WaveBook cfg d) (r : Id) : (d.waveNumbers r).Nodup := by
  have keys : ((d.waves.filter fun w => w.requirementId = r).map Wave.key).Nodup :=
    book.waveKeys.sublist (List.filter_sublist.map _)
  -- within one requirement the number alone identifies the wave
  refine List.Nodup.of_map (fun n => (r, n)) ?_
  have same : (d.waveNumbers r).map (fun n => (r, n)) =
      (d.waves.filter fun w => w.requirementId = r).map Wave.key := by
    rw [Db.waveNumbers, List.map_map]
    refine List.map_congr_left fun w member => ?_
    have mine : w.requirementId = r := by simpa using (List.mem_filter.mp member).2
    simp [Wave.key, mine]
  rwa [same]

theorem exists_waveNumbers_perm (book : WaveBook cfg d) (r : Id) :
    ∃ k, k ≤ cfg.maxWaves ∧ (d.waveNumbers r).Perm (List.range' 1 k) := by
  have stored : ∀ n ∈ d.waveNumbers r, d.waveDue cfg r n ∧ n ≤ cfg.maxWaves := by
    intro n member
    obtain ⟨w, present, named⟩ := mem_waveNumbers.mp member
    obtain ⟨rfl, rfl⟩ := Prod.mk.inj named
    exact ⟨(book.waves w present).1, (book.waves w present).2.1⟩
  obtain ⟨k, numbered⟩ := Table.exists_perm_range' (waveNumbers_nodup book r)
    (fun n member => (stored n member).1.1) fun n member follows => by
      obtain ⟨w, found, -⟩ := (stored n member).1.2 follows
      exact mem_waveNumbers_of_found found
  refine ⟨k, ?_, numbered⟩
  rcases Nat.eq_zero_or_pos k with rfl | positive
  · exact Nat.zero_le _
  · have last : k ∈ d.waveNumbers r := by
      refine numbered.mem_iff.mpr (List.mem_range'_1.mpr ?_)
      omega
    exact (stored k last).2

end Numbers

/-- Waves are numbered without gap or repetition up to a number within the limit, every offer
belongs to one of them, and a worker has one offer of the requirement, now and from now on. -/
theorem waves_numbered (run : Runs cfg (fun ℓ d => delivered ℓ d = true) p) (r : Id) :
    ∃ k, k ≤ cfg.maxWaves ∧ (p.db.waveNumbers r).Perm (List.range' 1 k) ∧
      (∀ x ∈ p.db.dispatches, x.requirementId = r → x.waveNumber ∈ p.db.waveNumbers r) ∧
      (∀ worker, (p.db.dispatches.filter fun x => x.key = (r, worker)).length ≤ 1) ∧
      ∀ q, Pool.Reaches (system cfg) (Pool.Meets fun ℓ d => delivered ℓ d = true) p q →
        ∀ x ∈ p.db.dispatches, ∀ y ∈ q.db.dispatches, y.key = x.key → y.core = x.core := by
  have bookOf : ∀ {p : MarketPool}, Runs cfg (fun ℓ d => delivered ℓ d = true) p →
      WaveBook cfg p.db := fun run => (book_of_runs (fun _ _ meets => meets) run).inv
  obtain ⟨k, bound, numbered⟩ := exists_waveNumbers_perm (bookOf run) r
  refine ⟨k, bound, numbered, ?_, ?_, ?_⟩
  · rintro x member rfl
    obtain ⟨w, found, -⟩ := (bookOf run).offers x member
    exact mem_waveNumbers_of_found found
  · intro worker
    have once : (p.db.dispatches.map Dispatch.key).count (r, worker) ≤ 1 :=
      List.nodup_iff_count_le_one.mp (bookOf run).offerKeys _
    rw [List.count, List.countP_map, List.countP_eq_length_filter] at once
    simpa [Function.comp_def, beq_eq_decide] using once
  · -- the offer is still stored later on, and is then the only one of its key
    intro q more x member y present same
    obtain ⟨x', kept, core⟩ := (later_of_runs run more).dispatches.mem member
    have sameKey : x'.key = x.key := congrArg Prod.fst core
    have found := Table.find_of_mem (bookOf (run.trans more)).offerKeys kept
    rw [Table.eq_of_find (bookOf (run.trans more)).offerKeys found present (same.trans sameKey.symm)]
    exact core

/-- A job, its first wave, the wave's timeout and the second wave, each delivered twice. -/
def deliveredTwice : List (Pool.Move Op) :=
  [.event (.spawn (.createJob 1 7
     { latitude := some 12, longitude := some 77
       requirements := [{ id := 1, workerCountNeeded := 1 }] })),
   .drive 0 true,
   .event (.spawn (.processDispatchJob { requirementId := 1, jobId := 1 } [10])),
   .event (.spawn (.processDispatchJob { requirementId := 1, jobId := 1 } [10])),
   .event (.run 2 true),
   .event (.run 2 true),
   .drive 1 true,
   .drive 2 true,
   .event (.spawn (.processTimeoutJob { requirementId := 1, jobId := 1, waveNumber := 1
                                        candidatesExhausted := some false })),
   .drive 3 true,
   .event (.spawn (.processDispatchJob { requirementId := 1, jobId := 1, waveNumber := 2 } [11])),
   .drive 4 true]

theorem waves_numbered_delivered_twice :
    (played (fun ℓ d => delivered ℓ d = true) deliveredTwice).db.waveNumbers 1 = [1, 2] ∧
      ∃ k, k ≤ 4 ∧ ((played (fun ℓ d => delivered ℓ d = true) deliveredTwice).db.waveNumbers 1).Perm
        (List.range' 1 k) := by
  refine ⟨by decide +kernel, ?_⟩
  obtain ⟨k, bound, numbered, -⟩ := waves_numbered (runs_played _ deliveredTwice) 1
  exact ⟨k, bound, numbered⟩

/-! ### Giving up -/

section GivingUp

variable {d : Db} {r : Id}

/-- No offer of the requirement is pending and unexpired. -/
def Db.noOpenOffer (d : Db) (requirementId : Id) : Prop :=
  ∀ x ∈ d.dispatches, x.requirementId = requirementId → x.status = .pending →
    ∀ e ∈ x.expiresAt, e ≤ d.now

/-- The labels under which dispatch gives a requirement up. -/
def Label.givesUp (requirementId : Id) : Label → Bool
  | .noWorkers id _ => decide (id = requirementId)
  | .reconciled id (some .NO_WORKERS_AVAILABLE) => decide (id = requirementId)
  | _ => false

/-- Outside the scan, a requirement is given up only when its latest wave is over. -/
def givesUpLate (cfg : Config) (ℓ : Label) (d : Db) : Bool :=
  delivered ℓ d && match ℓ with
    | .noWorkers r _ => (d.latestWave r).all fun w => decide (w.ended cfg d.now)
    | _ => true

/-- `findFirst` returns the wave with the greatest number. -/
theorem le_latestWave {w v : Wave} (found : d.latestWave r = some w) (member : v ∈ d.waves)
    (mine : v.requirementId = r) : v.waveNumber ≤ w.waveNumber := by
  -- the fold's best wave so far is passed by no later one
  have passes : ∀ (waves : List Wave) (best : Option Wave),
      waves.foldl newer best = some w →
      (∀ b, best = some b → b.waveNumber ≤ w.waveNumber) ∧
        ∀ v ∈ waves, v.waveNumber ≤ w.waveNumber := by
    intro waves
    induction waves with
    | nil =>
      rintro best rfl
      exact ⟨fun b same => by rw [Option.some.inj same], by simp⟩
    | cons v waves ih =>
      intro best same
      obtain ⟨first, rest⟩ := ih _ same
      cases best with
      | none => exact ⟨by simp, List.forall_mem_cons.mpr ⟨first v rfl, rest⟩⟩
      | some b =>
        simp only [newer] at first
        split at first
        next less =>
          have top := first v rfl
          refine ⟨?_, List.forall_mem_cons.mpr ⟨top, rest⟩⟩
          rintro _ ⟨⟩
          omega
        next notLess =>
          have top := first b rfl
          refine ⟨?_, List.forall_mem_cons.mpr ⟨by omega, rest⟩⟩
          rintro _ ⟨⟩
          exact top
  refine (passes _ _ found).2 v ?_
  simpa [List.mem_filter] using ⟨member, mine⟩

/-- When the latest wave is over, all are. -/
theorem wavesOver_of_latest (book : WaveBook cfg d)
    (ended : ∀ w, d.latestWave r = some w → w.ended cfg d.now) : d.wavesOver cfg r := by
  rintro v member rfl
  cases latest : d.latestWave v.requirementId with
  | none => exact absurd rfl (latestWave_none latest v member)
  | some w =>
    obtain ⟨stored, named⟩ := latestWave_mem latest
    have found : d.wave v.requirementId w.waveNumber = some w := by
      rw [← named]
      exact Table.find_of_mem book.waveKeys stored
    rcases Nat.lt_or_eq_of_le (le_latestWave latest member rfl) with lower | same
    · exact waveOver_below book (Option.isSome_iff_exists.mpr ⟨w, found⟩)
        (book.waves v member).1.1 lower
    · exact ⟨w, same ▸ found, ended w latest⟩

/-- An offer is pending only in an active wave and up to its timeout. -/
theorem noOpenOffer_of_wavesOver (book : WaveBook cfg d) (ended : d.wavesOver cfg r) :
    d.noOpenOffer r := by
  rintro x member rfl pending
  obtain ⟨w, found, ends⟩ := book.offers x member
  obtain ⟨active, early⟩ := ends pending
  have named : w.key = (x.requirementId, x.waveNumber) := Table.find_key found
  obtain ⟨sameReq, sameWave⟩ := Prod.mk.inj named
  obtain ⟨w', found', closed⟩ := ended w (Table.mem_of_find found) sameReq
  rw [sameWave, found] at found'
  obtain rfl := Option.some.inj found'
  rcases closed with exhausted | elapsed
  · rw [active] at exhausted
    cases exhausted
  · exact fun e expires => (early e expires).trans elapsed

/-- A commit that inserts no offer opens none. -/
theorem noOpenOffer_applyAll {ℓ : Label} {ws : List Write} (commit : WaveCommit cfg ℓ d ws)
    (label : ℓ.givesUp r = true) (closed : d.noOpenOffer r) : (applyAll ws d).noOpenOffer r := by
  intro x member mine pending e expires
  rcases pending_applyAll commit.fits member pending with before | inserted
  · exact (closed x before mine pending e expires).trans (now_le_applyAll ws d)
  · rw [(commit.fresh x inserted).2] at label
    cases label

/-- The requirement's status has become NO_WORKERS_AVAILABLE. -/
def TurnedNoWorkers (d d' : Db) (requirementId : Id) : Prop :=
  ∃ row row', d.requirement requirementId = some row ∧ d'.requirement requirementId = some row' ∧
    row.status ≠ .NO_WORKERS_AVAILABLE ∧ row'.status = .NO_WORKERS_AVAILABLE

/-- Besides giving up, only an update of the demand can write the status, which it has read
before. -/
theorem givesUp_of_turned {ℓ : Label} {ws : List Write} (commit : Commit ℓ d ws)
    (consistent : Consistent d) (turned : TurnedNoWorkers d (applyAll ws d) r) :
    ℓ.givesUp r = true ∨ ∃ needed seen, ℓ = .demandUpdated r needed seen := by
  obtain ⟨row, row', found, found', before, after⟩ := turned
  have named : row.id = r := Table.find_key found
  have change := commit.requirementChange consistent.wf (Table.mem_of_find found)
  have stored := requirementEffects.mem_applyAll (Table.mem_of_find found) ws
  have sameId : (onAll Write.onRequirement ws row).id = r :=
    (congrArg Prod.fst (onAll_requirement_core ws row)).trans named
  -- the row afterwards is the old one with the writes of the commit
  rw [← Table.eq_of_find (commit.keepsConsistent consistent).wf.requirementIds found' stored sameId]
    at after
  generalize onAll Write.onRequirement ws row = moved at change after
  cases change with
  | same => exact absurd after before
  | started _ _ => cases after
  | demanded label _ _ _ => exact Or.inr ⟨_, _, named ▸ label⟩
  | cancelled _ _ => cases after
  | reserved _ _ _ _ _ _ _ =>
    dsimp only at after
    split at after <;> cases after
  | exhausted label =>
    rcases label with ⟨wave, rfl⟩ | rfl
    · exact Or.inl (decide_eq_true named)
    · exact Or.inl (decide_eq_true named)
  | released _ _ _ _ =>
    simp only [reconciledStatus] at after
    repeat (split at after; · cases after)
    cases after
  | rescheduled _ _ => cases after

/-- The step sets the requirement's status to NO_WORKERS_AVAILABLE, be it that it writes the
status again: a statement that does nothing else, a commit of the scan that changes anything,
or any step but an update of the demand by which the status becomes this one. -/
def Declares (ℓ : Label) (d d' : Db) (requirementId : Id) : Prop :=
  (∃ wave, ℓ = .noWorkers requirementId wave) ∨
    (ℓ = .reconciled requirementId (some .NO_WORKERS_AVAILABLE) ∧ d' ≠ d) ∨
    TurnedNoWorkers d d' requirementId ∧ ∀ needed seen, ℓ ≠ .demandUpdated requirementId needed seen

theorem Declares.givesUp {ℓ : Label} {ws : List Write} (declares : Declares ℓ d (applyAll ws d) r)
    (commit : Commit ℓ d ws) (consistent : Consistent d) : ℓ.givesUp r = true := by
  rcases declares with ⟨wave, rfl⟩ | ⟨rfl, -⟩ | ⟨turned, notDemand⟩
  · exact decide_eq_true rfl
  · exact decide_eq_true rfl
  · refine (givesUp_of_turned commit consistent turned).resolve_right ?_
    rintro ⟨needed, seen, same⟩
    exact notDemand needed seen same

end GivingUp

/-- A step that declares NO_WORKERS_AVAILABLE leaves no open offer of the requirement, in
every run in which the statements outside the scan find the latest wave over. -/
theorem no_workers_no_open_offer {i : Nat} {answer : Bool} {ℓ : Label}
    (run : Runs cfg (fun ℓ d => givesUpLate cfg ℓ d = true) p) (labelled : p.next i = some ℓ)
    (meets : givesUpLate cfg ℓ p.db = true)
    (stepped : p.step (system cfg) (.run i answer) = some q) (r : Id)
    (declares : Declares ℓ p.db q.db r) : q.db.noOpenOffer r := by
  have delivers : ∀ ℓ d, givesUpLate cfg ℓ d = true → delivered ℓ d = true :=
    fun _ _ late => (Bool.and_eq_true_iff.mp late).1
  have book : WaveBook cfg p.db := (book_of_runs delivers run).inv
  have gives : ℓ.givesUp r = true := by
    obtain ⟨ws, after, commit⟩ := commit_of_step run labelled stepped
    rw [after] at declares
    exact declares.givesUp commit (consistent_of_runs run)
  have late : ∀ wave, ℓ = .noWorkers r wave → p.db.noOpenOffer r := by
    rintro wave rfl
    refine noOpenOffer_of_wavesOver book (wavesOver_of_latest book fun w found => ?_)
    simpa [found] using (Bool.and_eq_true_iff.mp meets).2
  rcases waveCommit_of_step delivers run labelled meets stepped with same | ⟨ws, after, commit⟩
  · -- nothing has changed, so the statement is one that only writes the status again
    rcases declares with ⟨wave, label⟩ | ⟨-, changed⟩ | ⟨⟨row, row', found, found', before, turned⟩, -⟩
    · rw [same]
      exact late wave label
    · exact absurd same changed
    · rw [same, found] at found'
      rw [Option.some.inj found'] at before
      exact absurd turned before
  · rw [after]
    refine noOpenOffer_applyAll commit gives ?_
    cases ℓ with
    | noWorkers id wave =>
      obtain rfl : id = r := of_decide_eq_true gives
      exact late wave rfl
    | reconciled id status =>
      cases status with
      | none => cases gives
      | some status =>
        cases status with
        | NO_WORKERS_AVAILABLE =>
          obtain rfl : id = r := of_decide_eq_true gives
          exact noOpenOffer_of_wavesOver book (commit.givesUp id rfl)
        | _ => cases gives
    | _ => cases gives

/-! ### Timeouts of closed waves -/

/-- `DISPATCH_MAX_WAVES=2` and `DISPATCH_WAVE_TIMEOUT_MS=2`. -/
def hastyConfig : Config :=
  { plainConfig with radiusMetersByWave := [3000, 5000], maxWaves := 2, timeoutMs := 2 }

/-- The marketplace under this configuration after a schedule whose jobs were all enqueued. -/
def playedHastily (cond : Label → Db → Prop) [∀ ℓ d, Decidable (cond ℓ d)]
    (moves : List (Pool.Move Op)) : MarketPool :=
  start.after (system hastyConfig) (Pool.Meets cond) 60 moves

def offeredFirstWave : List (Pool.Move Op) :=
  [.event (.spawn (.createJob 1 7
     { latitude := some 12, longitude := some 77
       requirements := [{ id := 1, workerCountNeeded := 1 }] })),
   .drive 0 true,
   .event (.spawn (.processDispatchJob { requirementId := 1, jobId := 1 } [10])),
   .drive 1 true,
   .event (.spawn .tick),
   .drive 2 true]

/-- The timeout job of the first wave. -/
def firstTimeout : TimeoutJobData :=
  { requirementId := 1, jobId := 1, waveNumber := 1, totalWorkersFound := 1, waveSize := 1
    hasMoreCandidates := some true, candidatesExhausted := some false }

/-- Nobody answers: the timeout fires two milliseconds after the wave, up to its last statement. -/
def unansweredFirstWave : List (Pool.Move Op) :=
  offeredFirstWave ++
    [.event (.spawn .tick),
     .drive 3 true,
     .event (.spawn (.processTimeoutJob firstTimeout)),
     .event (.run 4 true),
     .event (.run 4 true),
     .event (.run 4 true)]

theorem no_workers_unanswered :
    ∃ q, (playedHastily (fun ℓ d => givesUpLate hastyConfig ℓ d = true) unansweredFirstWave).step
        (system hastyConfig) (.run 4 true) = some q ∧ q.db.noOpenOffer 1 := by
  have moves : ((playedHastily (fun ℓ d => givesUpLate hastyConfig ℓ d = true)
      unansweredFirstWave).step (system hastyConfig) (.run 4 true)).isSome = true := by
    decide +kernel
  obtain ⟨q, stepped⟩ := Option.isSome_iff_exists.mp moves
  refine ⟨q, stepped, ?_⟩
  have labelled : (playedHastily (fun ℓ d => givesUpLate hastyConfig ℓ d = true)
      unansweredFirstWave).next 4 = some (.noWorkers 1 none) := by
    decide +kernel
  have meets : givesUpLate hastyConfig (.noWorkers 1 none)
      (playedHastily (fun ℓ d => givesUpLate hastyConfig ℓ d = true) unansweredFirstWave).db = true := by
    decide +kernel
  exact no_workers_no_open_offer (Pool.Reaches.refl.after 60 unansweredFirstWave) labelled meets
    stepped 1 (Or.inl ⟨none, rfl⟩)

/-- The worker declines after one millisecond, and the second wave is offered to another one
before the timeout of the first wave fires when it is due. -/
def declinedFirstWave : List (Pool.Move Op) :=
  offeredFirstWave ++
    [.event (.spawn (.declineDispatch 1 10)),
     .drive 3 true,
     .event (.spawn (.processDispatchJob { requirementId := 1, jobId := 1, waveNumber := 2 } [11])),
     .drive 4 true,
     .event (.spawn .tick),
     .drive 5 true,
     .event (.spawn (.processTimeoutJob firstTimeout)),
     .event (.run 6 true),
     .event (.run 6 true),
     .event (.run 6 true)]

theorem late_timeout_gives_up :
    ∃ p q, Runs hastyConfig (fun ℓ d => delivered ℓ d = true) p ∧
      p.next 6 = some (.noWorkers 1 none) ∧
      p.step (system hastyConfig) (.run 6 true) = some q ∧ TurnedNoWorkers p.db q.db 1 ∧
      ¬ q.db.noOpenOffer 1 := by
  have moves : ((playedHastily (fun ℓ d => delivered ℓ d = true) declinedFirstWave).step
      (system hastyConfig) (.run 6 true)).isSome = true := by
    decide +kernel
  obtain ⟨q, stepped⟩ := Option.isSome_iff_exists.mp moves
  refine ⟨_, q, Pool.Reaches.refl.after 60 declinedFirstWave, by decide +kernel, stepped, ?_, ?_⟩
  · have before : ((playedHastily (fun ℓ d => delivered ℓ d = true) declinedFirstWave).db.requirement
        1).map (·.status) = some .DISPATCHING := by
      decide +kernel
    have after : ((playedHastily (fun ℓ d => delivered ℓ d = true) declinedFirstWave).step
        (system hastyConfig) (.run 6 true)).map
        (fun q => (q.db.requirement 1).map (·.status)) = some (some .NO_WORKERS_AVAILABLE) := by
      decide +kernel
    rw [stepped] at after
    obtain ⟨row, found, status⟩ := Option.map_eq_some_iff.mp before
    obtain ⟨row', found', status'⟩ := Option.map_eq_some_iff.mp (Option.some.inj after)
    exact ⟨row, row', found, found', by simp [status], status'⟩
  · have open_ : ((playedHastily (fun ℓ d => delivered ℓ d = true) declinedFirstWave).step
        (system hastyConfig) (.run 6 true)).all (fun q => q.db.dispatches.any fun x =>
          decide (x.requirementId = 1 ∧ x.status = .pending ∧ x.expiresAt.any (q.db.now < ·))) = true := by
      decide +kernel
    rw [stepped] at open_
    obtain ⟨x, member, offered⟩ := List.any_eq_true.mp open_
    obtain ⟨mine, pending, later⟩ := of_decide_eq_true offered
    intro closed
    obtain ⟨e, expires, unexpired⟩ := (Option.any_eq_true _ _).mp later
    have expired := closed x member mine pending e expires
    have ahead := of_decide_eq_true unexpired
    omega

end LabourBaba.Market
