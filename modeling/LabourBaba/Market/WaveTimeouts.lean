import LabourBaba.Market.Capacity

/-!
# Wave timeouts

The transaction that creates a wave and the enqueueing of the wave's timeout are separate
effects of `processDispatchJob`. An execution that returns normally leaves an active wave
with its timeout enqueued as long as the executions that return early, on finding the wave
or without needing one, find it so.
-/
namespace LabourBaba.Market

open Store

/-- The wave, if it is stored and still active, has its timeout enqueued. -/
def Db.timeoutCovered (d : Db) (requirementId : Id) (waveNumber : Nat) : Bool :=
  (d.wave requirementId waveNumber).all fun w =>
    decide (w.status = .exhausted) ||
      d.timeoutQueue.any fun q => decide (q.key = (requirementId, waveNumber))

section Coverage

variable {d d' : Db} {r : Id} {n : Nat}

theorem stored_later (later : Later d d') (stored : (d.wave r n).isSome) : (d'.wave r n).isSome := by
  obtain ⟨w, found⟩ := Option.isSome_iff_exists.mp stored
  obtain ⟨w', found', -⟩ := later.waves.find Wave.key Prod.fst (fun _ => rfl) found
  exact Option.isSome_iff_exists.mpr ⟨w', found'⟩

/-- A stored wave stays covered: it does not become active again, and nothing is taken out
of the queue. -/
theorem timeoutCovered_later (later : Later d d') (stored : (d.wave r n).isSome)
    (covered : d.timeoutCovered r n = true) : d'.timeoutCovered r n = true := by
  obtain ⟨w, found⟩ := Option.isSome_iff_exists.mp stored
  obtain ⟨w', found'⟩ := Option.isSome_iff_exists.mp (stored_later later stored)
  simp only [Db.timeoutCovered, found, Option.all_some, Bool.or_eq_true, decide_eq_true_eq,
    List.any_eq_true] at covered
  rw [Db.timeoutCovered, found', Option.all_some, Bool.or_eq_true]
  rcases covered with closed | ⟨q, queued, same⟩
  · obtain ⟨w₂, found₂, closed₂⟩ := later.exhausted r n w found closed
    obtain rfl := Option.some.inj (found'.symm.trans found₂)
    exact Or.inl (decide_eq_true closed₂)
  · exact Or.inr (List.any_eq_true.mpr ⟨q, later.timeouts q queued, decide_eq_true same⟩)

theorem timeoutCovered_of_absent (absent : d.wave r n = none) : d.timeoutCovered r n = true := by
  simp [Db.timeoutCovered, absent]

theorem timeoutCovered_added {data : TimeoutJobData} (named : data.key = (r, n)) :
    (applyAll [.addTimeoutJob data] d).timeoutCovered r n = true := by
  have queued : (Table.insert TimeoutJobData.clash d.timeoutQueue data).any
      (fun q => decide (q.key = (r, n))) = true := by
    rw [← named]
    simp only [Table.insert]
    split
    next clash =>
      obtain ⟨q, member, same⟩ := List.any_eq_true.mp clash
      exact List.any_eq_true.mpr ⟨q, member, decide_eq_true (of_decide_eq_true same).symm⟩
    next => simp
  simp only [Db.timeoutCovered, applyAll_cons, applyAll_nil, write_eq_apply, Write.apply, queued,
    Bool.or_true]
  cases Db.wave _ r n <;> rfl

theorem wave_write_absent {w : Write} (absent : d.wave r n = none)
    (other : ∀ wave, w = .insertWave wave → wave.key ≠ (r, n)) : (w.apply d).wave r n = none := by
  cases w with
  | insertWave wave => exact (Table.find_insert_of_ne (other wave rfl)).trans absent
  | exhaustWave r' n' =>
    have lookup : Table.find Wave.key d.waves (r, n) = none := absent
    simp only [Db.wave, Write.apply]
    rw [Table.find_modify, lookup]
    · rfl
    · exact fun _ => rfl
  | _ => exact absent

theorem wave_applyAll_absent {ws : List Write} (absent : d.wave r n = none)
    (other : ∀ wave, .insertWave wave ∈ ws → wave.key ≠ (r, n)) :
    (applyAll ws d).wave r n = none := by
  induction ws generalizing d with
  | nil => exact absent
  | cons w ws ih =>
    refine ih (wave_write_absent absent ?_) fun wave member => other wave (List.mem_cons_of_mem _ member)
    rintro wave rfl
    exact other wave List.mem_cons_self

/-- Only the commit of the wave itself can leave it uncovered. -/
theorem Commit.keepsCovered {ℓ : Label} {ws : List Write} (commit : Commit ℓ d ws)
    (other : ℓ ≠ .waveCommitted r n) (covered : d.timeoutCovered r n = true) :
    (applyAll ws d).timeoutCovered r n = true := by
  cases stored : d.wave r n with
  | some w =>
    exact timeoutCovered_later (Later.applyAll ws d) (by simp [stored]) covered
  | none =>
    refine timeoutCovered_of_absent (wave_applyAll_absent stored fun wave member same => ?_)
    have added := commit.insertions member rfl
    cases ℓ <;> simp [Label.adds] at added
    rw [added] at same
    obtain ⟨rfl, rfl⟩ := Prod.mk.inj same
    exact other rfl

end Coverage

/-! ### The condition on a run -/

/-- An execution that returns without creating the wave finds it covered. -/
def shortcutCovered (ℓ : Label) (d : Db) : Bool :=
  match ℓ with
  | .waveRequirement r n =>
    (match d.requirement r with
      | some req => decide (req.status ≠ .FILLED ∧ req.status ≠ .CANCELLED)
      | none => false) || d.timeoutCovered r n
  | .waveLookup r n | .noWorkers r (some n) => d.timeoutCovered r n
  | _ => true

/-- The call executes the dispatch job of the given wave. -/
def Op.executes (r : Id) (n : Nat) : Op → Bool
  | .processDispatchJob data _ => decide (data.key = (r, n))
  | _ => false

abbrev MarketThread := Thread Label Db Write Key Op Outcome

def returnedNormally (th : MarketThread) : Bool :=
  match th.prog.returned with
  | some (.ok _) => true
  | _ => false

/-- A wave is not created after an execution of its job has already returned normally. -/
def createdFirst (p : MarketPool) (e : Event Op) : Bool :=
  match e with
  | .run i _ =>
    match p.next i with
    | some (.waveCommitted r n) =>
      p.threads.all fun th => !(th.op.executes r n && returnedNormally th)
    | _ => true
  | _ => true

/-! ### One execution -/

section Execution

/-- Calls against the condition alone. -/
abbrev waveProtocol : Protocol Label Db := .free fun ℓ d => shortcutCovered ℓ d = true

/-- An execution that returns normally leaves the wave covered. -/
def leavesCovered {α : Type} (r : Id) (n : Nat) : Except Failure α → Option MarketTx → Db → Prop
  | .ok _, _, d => d.timeoutCovered r n = true
  | .error _, _, _ => True

variable {me : Nat} {d d' : Db} {r : Id} {n : Nat}

theorem later_of_free {locked : List Key} (rely : waveProtocol.Rely me locked d d') : Later d d' := by
  obtain ⟨ws, rfl⟩ := rely.evo
  exact Later.applyAll ws d

theorem alreadyProcessed_covers {existing : Option Wave} (stored : (d.wave r n).isSome)
    (covered : d.timeoutCovered r n = true) :
    Call.wp waveProtocol me (leavesCovered r n) (alreadyProcessed r n existing) none d := by
  simp only [alreadyProcessed, query, Call.wp_bind, Call.wp_read]
  intro d' rely _
  exact timeoutCovered_later (later_of_free rely) stored covered

theorem giveUp_covers : Call.wp waveProtocol me (leavesCovered r n) (giveUp r n) none d := by
  simp only [giveUp, Call.wp_bind, Call.wp_stmt_alone]
  intro d' rely (covered : d'.timeoutCovered r n = true)
  cases given : noWorkers r d' with
  | error e => trivial
  | ok pair =>
    obtain ⟨ws, _⟩ := pair
    obtain rfl := noWorkers_ok given
    exact ⟨Protocol.free_does _ _ _, covered⟩

theorem insertWave_clash {wave : Wave} {constraint : String}
    (refused : insertWave wave d = .error (.uniqueViolation constraint)) :
    (d.wave wave.requirementId wave.waveNumber).isSome := by
  simp only [insertWave] at refused
  split at refused
  next stored => exact stored
  next => split at refused <;> cases refused

/-- A violated unique constraint says that the wave is stored. -/
theorem executeWrites_clash {waveSize expiresAt : Nat} {workers : List Id} {label : Unit → Label} :
    Call.wp waveProtocol me
      (fun result tx d => tx = none ∧ ∀ constraint, result = .error (.uniqueViolation constraint) →
        (d.wave r n).isSome)
      (Call.transaction label (executeWrites r n waveSize workers expiresAt)) none d := by
  simp only [executeWrites, query, step, Call.wp_transaction, Call.wp_bind, Call.wp_read,
    Call.andThen_ok]
  intro d₁ _ d₂ _ _
  refine Call.stmt_inTx (fun d₃ t₃ ws _ _ _ _ _ _ => ?_) fun d₃ e _ _ refused d₄ rely => ?_
  · simp only [Call.andThen_ok, Call.wp_bind, Call.wp_stmt]
    intro d₄ _ _ d₅ _ _ d₆ _ _
    exact ⟨Protocol.free_does _ _ _, rfl, by simp⟩
  · refine ⟨rfl, fun constraint same => stored_later (later_of_free rely) ?_⟩
    obtain rfl := Except.error.inj same
    exact insertWave_clash refused

theorem addTimeoutJob_covers {data : TimeoutJobData} (named : data.key = (r, n)) {α : Type}
    {result : α} :
    Call.wp waveProtocol me (leavesCovered r n)
      (do addTimeoutJob data; pure result) none d := by
  simp only [addTimeoutJob, Call.wp_bind, Call.wp_choose, Call.andThen_ok]
  intro d₁ _ reachable
  cases reachable with
  | false => trivial
  | true =>
    simp only [if_true, Call.wp_send]
    intro d₂ _ _
    exact ⟨Protocol.free_does _ _ _, timeoutCovered_added named⟩

theorem persistWave_covers {data : DispatchJobData} {plan : DispatchWavePlan} {workers : List Id}
    {final : Bool} :
    Call.wp waveProtocol me (leavesCovered data.requirementId data.waveNumber)
      (persistWave data plan workers final) none d := by
  simp only [persistWave, query, Call.wp_bind, Call.wp_read, Call.wp_attempt, Call.andThen_ok]
  intro d₁ _ _
  refine Call.wp_mono ?_ executeWrites_clash
  rintro result tx d₂ ⟨rfl, clash⟩
  cases result with
  | ok _ =>
    refine addTimeoutJob_covers ?_
    rfl
  | error e =>
    cases e with
    | uniqueViolation constraint =>
      simp only [Call.wp_bind, Call.wp_read, Call.andThen_ok]
      intro d₃ rely covered
      exact alreadyProcessed_covers (stored_later (later_of_free rely) (clash constraint rfl)) covered
    | _ => trivial

theorem processDispatchJob_covers (cfg : Config) (data : DispatchJobData) (matching : List Id) :
    Call.wp waveProtocol me (leavesCovered data.requirementId data.waveNumber)
      (processDispatchJob cfg data matching) none d := by
  simp only [processDispatchJob, Call.wp_bind, Call.wp_read, Tx.view_none]
  intro d₁ _ first
  -- where the call stops early, the condition on its first read covers the timeout
  have early : (∀ req, d₁.requirement data.requirementId = some req →
      req.status = .FILLED ∨ req.status = .CANCELLED) →
      d₁.timeoutCovered data.requirementId data.waveNumber = true := by
    intro ended
    simp only [Protocol.free, shortcutCovered] at first
    cases found : d₁.requirement data.requirementId with
    | none => simpa [found] using first
    | some req =>
      rcases ended req found with status | status <;> simpa [found, status] using first
  cases found : d₁.requirement data.requirementId with
  | none => exact early (by simp [found])
  | some req =>
    simp only [Option.map_some, Call.andThen_ok]
    by_cases ended : req.status = .FILLED ∨ req.status = .CANCELLED
    · rw [if_pos ended]
      refine early fun req' same => ?_
      rw [found] at same
      exact Option.some.inj same ▸ ended
    · rw [if_neg ended]
      simp only [Call.wp_bind, Call.wp_read, Tx.view_none, Call.andThen_ok]
      intro d₂ _ covered
      cases stored : d₂.wave data.requirementId data.waveNumber with
      | some wave => exact alreadyProcessed_covers (by simp [stored]) covered
      | none =>
        dsimp only
        split
        · exact giveUp_covers
        · split
          · trivial
          · split
            · exact covered
            · simp only [query, Call.wp_bind, Call.wp_read, Call.andThen_ok]
              intro d₃ _ _
              split
              · exact giveUp_covers
              · exact persistWave_covers

/-- What the calls promise on returning: an execution that its wave is covered. -/
def promised (op : Op) (outcome : Outcome) (d : Db) : Prop :=
  ∀ r n, op.executes r n = true → outcome.isOk = true → d.timeoutCovered r n = true

theorem verified_waves (cfg : Config) : Pool.Verified waveProtocol (fun _ => promised) (system cfg) := by
  intro me op d
  cases op with
  | processDispatchJob data matching =>
    have covers : Call.wp waveProtocol me (leavesCovered data.requirementId data.waveNumber)
        (replying .dispatched (processDispatchJob cfg data matching)) none d := by
      rw [replying, Call.wp_bind]
      refine Call.wp_mono ?_ (processDispatchJob_covers cfg data matching)
      intro result tx d' left
      cases result with
      | error e => trivial
      | ok a => exact left
    refine Store.wp_mono ?_ _ _ _ covers
    intro outcome tx d' left r n mine returned
    cases outcome with
    | error e => cases returned
    | ok reply =>
      obtain ⟨rfl, rfl⟩ := Prod.mk.inj (of_decide_eq_true mine)
      exact left
  | _ => exact wp_free (fun _ _ _ _ _ mine _ => by cases mine) _ _ _

end Execution

/-! ### Every run -/

/-- While the wave of an execution that has returned normally is active, its timeout has been
enqueued. -/
def TimeoutsEnqueued (p : MarketPool) : Prop :=
  ∀ th ∈ p.threads, ∀ r n, th.op.executes r n = true → returnedNormally th = true →
    ∀ w, p.db.wave r n = some w → w.status = .active → ∃ q ∈ p.db.timeoutQueue, q.key = (r, n)

/-- The schedules in which the early returns find their wave covered. -/
def coversTimeouts (p : MarketPool) (e : Event Op) : Prop :=
  Pool.Meets (fun ℓ d => shortcutCovered ℓ d = true) p e ∧ createdFirst p e = true

instance (p : MarketPool) (e : Event Op) : Decidable (coversTimeouts p e) :=
  inferInstanceAs (Decidable (_ ∧ _))

/-- Every execution that has returned normally has left its wave covered. -/
def Covered (p : MarketPool) : Prop :=
  ∀ th ∈ p.threads, ∀ r n, th.op.executes r n = true → returnedNormally th = true →
    p.db.timeoutCovered r n = true

theorem returned_of_normally {th : MarketThread} (returned : returnedNormally th = true) :
    ∃ outcome, th.prog.returned = some outcome ∧ outcome.isOk = true := by
  simp only [returnedNormally] at returned
  split at returned
  next reply found => exact ⟨_, found, rfl⟩
  next => cases returned

/-- One event keeps the executions that have returned covered: their waves are created by
nobody else afterwards. -/
theorem Covered.step {cfg : Config} {p q : MarketPool} {e : Event Op} (covered : Covered p)
    (reached : Reachable cfg p) (sound : Pool.Sound waveProtocol (fun _ => promised) p)
    (allowed : coversTimeouts p e) (stepped : p.step (system cfg) e = some q) : Covered q := by
  intro th' present r n mine returned
  obtain ⟨i, found⟩ := List.mem_iff_getElem?.mp present
  obtain ⟨outcome, result, ok⟩ := returned_of_normally returned
  have now := sound.step (verified_waves cfg) allowed.1 stepped
  rcases now.returns i th' outcome found result with fresh | ⟨th, old, sameOp, sameResult⟩
  · exact fresh r n mine ok
  · have member : th ∈ p.threads := List.mem_of_getElem? old
    have was : returnedNormally th = true := by
      simpa [returnedNormally, sameResult, result] using returned
    have before := covered th member r n (sameOp ▸ mine) was
    have market := (sound_of_runs reached).step (verified cfg) (fun _ _ _ _ _ => trivial) stepped
    rcases market.does with same | ⟨j, answer, ℓ, rfl, labelled, ws, after, commit⟩
    · rw [same]
      exact before
    · rw [after]
      refine commit.keepsCovered ?_ before
      rintro rfl
      have unreturned := allowed.2
      simp only [createdFirst, labelled, List.all_eq_true] at unreturned
      simpa [sameOp, mine, was] using unreturned th member

/-- The wave commits, its timeout cannot be enqueued and the execution throws; the retry
finds the wave and returns without enqueueing anything. -/
def retriedAfterQueueError : List (Pool.Move Op) :=
  [.event (.spawn (.createJob 1 7 { latitude := some 0, longitude := some 0
                                    requirements := [{ id := 1, workerCountNeeded := 2 }] })),
   .drive 0 true,
   .event (.spawn (.processDispatchJob { requirementId := 1, jobId := 1 } [10, 11])),
   .drive 1 false,
   .event (.spawn (.processDispatchJob { requirementId := 1, jobId := 1 } [10, 11])),
   .drive 2 true]

end LabourBaba.Market
