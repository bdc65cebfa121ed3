import LabourBaba.Outbox.Conformance

/-!
# The lifecycle of an event

The columns of an event agree with its status in every run, and SENT and FAILED are final:
every UPDATE of the status looks at the row it sets. The number of attempts does not: it is
computed from an earlier read. Two failures of one event whose reads both come before the
first write leave one attempt; as long as this does not happen, every recorded failure counts.
-/
namespace LabourBaba.Outbox

open Store

/-! ### Statuses -/

/-- In every run the attempts stay within their bound, below it until the event has failed,
a finished event has its time, and no event leaves SENT or FAILED. -/
theorem outbox_lifecycle {p : OutboxPool} (reached : Reachable p) :
    (∀ r ∈ p.db.events, r.attempts ≤ r.maxAttempts ∧
      (r.status = .PENDING ∨ r.status = .PROCESSING → r.attempts < r.maxAttempts) ∧
      (r.status = .FAILED → r.failedAt.isSome) ∧ (r.status = .SENT → r.processedAt.isSome)) ∧
    ∀ q, Pool.Reaches system (fun _ _ => True) p q → ∀ id r, p.db.event id = some r →
      r.status = .SENT ∨ r.status = .FAILED → ∃ r', q.db.event id = some r' ∧
        r'.status = r.status := by
  constructor
  · intro r member
    have wf := wf_of_runs reached
    have coherent := wf.coherent r.id r (Table.find_of_mem wf.ids member)
    refine ⟨coherent.bounded, fun unfinished => coherent.room ?_, coherent.failed, coherent.sent⟩
    rcases unfinished with status | status <;> rw [status] <;> nofun
  · intro q more id r found final
    have later := later_of_reaches reached (more.mono fun _ _ _ _ _ _ _ _ => trivial)
    obtain ⟨r', found', -, stays⟩ := later.events id r found
    refine ⟨r', found', stays ?_⟩
    rcases final with status | status <;> rw [status] <;> rfl

/-- An event for a worker, and the calls that create and claim it. -/
def claimedOnce : List (Pool.Move Op) :=
  [.event (.spawn (.createOutboxEvent
     { id := 1, recipientType := .worker, recipientId := 2, idempotencyKey := ['k'] })),
   .drive 0 true, .event (.spawn (.claimPendingEvents 20 5 [])), .drive 1 true]

/-- A delivered event stays SENT. -/
theorem outbox_lifecycle_delivered :
    ((played (fun _ _ => True) (claimedOnce ++
        [.event (.spawn (.processRecord 0 {})), .drive 2 true])).db.event 1).map
          (·.status) = some .SENT ∧
      ∀ q, Pool.Reaches system (fun _ _ => True) (played (fun _ _ => True) (claimedOnce ++
        [.event (.spawn (.processRecord 0 {})), .drive 2 true])) q →
        ∃ r', q.db.event 1 = some r' ∧ r'.status = .SENT := by
  have sent : ((played (fun _ _ => True) (claimedOnce ++
      [.event (.spawn (.processRecord 0 {})), .drive 2 true])).db.event 1).map
        (·.status) = some .SENT := by decide +kernel
  refine ⟨sent, fun q more => ?_⟩
  obtain ⟨r, found, status⟩ := Option.map_eq_some_iff.mp sent
  obtain ⟨r', found', same⟩ :=
    (outbox_lifecycle (runs_played _ _)).2 q more 1 r found (Or.inl status)
  exact ⟨r', found', same.trans status⟩

/-! ### Attempts -/

/-- A failure is written only while no other failure of the event has been recorded since its
call has read the event, unless the event is finished by then. -/
def failsInTurn (ℓ : Label) (d : Db) : Bool :=
  match ℓ with
  | .failed id _ seen =>
    (d.event id).all (fun r => !r.status.unfinished) || decide (d.failures id = seen)
  | _ => true

/-- What a commit adds to the recorded failures of an event. -/
inductive FailureStep (ℓ : Label) (d d' : Db) (id : Id) : Prop
  | none (same : d'.recorded id = d.recorded id)
  | one (claim : Option Nat) (seen n : Nat) (r : OutboxRecord) (label : ℓ = .failed id claim seen)
      (found : d.event id = some r) (unfinished : r.status.unfinished = true)
      (read : d.attemptsAfter id seen = some n) (grown : d'.recorded id = d.recorded id ++ [n + 1])

theorem Commit.failureStep {d : Db} {ℓ : Label} {ws : List Write} (wf : Wf d)
    (commit : Commit d ℓ ws) (id : Id) : FailureStep ℓ d (applyAll ws d) id := by
  cases commit with
  | idle | created | ticked => exact .none rfl
  | started | emitted =>
    refine .none ?_
    simp [Db.recorded, Write.apply, Entry.attemptsOf]
  | @changed _ ids u change =>
    have recorded := recorded_update ids u wf.ids id
    have quiet : u.attempts = none → FailureStep ℓ d (applyAll [.update ids u] d) id := by
      intro unset
      refine .none (recorded.trans ?_)
      simp [unset]
    cases change with
    | @failed id' claim seen t r record isPermanent message found unfinished _ _ read =>
      by_cases same : id = id'
      · subst same
        refine .one claim seen record.attempts r rfl found unfinished read (recorded.trans ?_)
        simp [found, failureUpdate_attempts]
      · refine .none (recorded.trans ?_)
        simp [same]
    | _ => exact quiet rfl

/-- The attempts are those that the recorded failures give. -/
theorem attempts_of_recorded {d : Db} {id : Id} {r : OutboxRecord} (wf : Wf d)
    (found : d.event id = some r) : (0 :: d.recorded id)[(d.recorded id).length]? = some r.attempts :=
  wf.counted id r found

theorem attempts_same {d d' : Db} {id : Id} {r r' : OutboxRecord} (wf : Wf d) (wf' : Wf d')
    (found : d.event id = some r) (found' : d'.event id = some r')
    (same : d'.recorded id = d.recorded id) : r'.attempts = r.attempts := by
  have before := attempts_of_recorded wf found
  have after := attempts_of_recorded wf' found'
  rw [same] at after
  exact Option.some.inj (after.symm.trans before)

theorem attempts_grown {d d' : Db} {id : Id} {n : Nat} {r' : OutboxRecord} (wf' : Wf d')
    (found' : d'.event id = some r') (grown : d'.recorded id = d.recorded id ++ [n]) :
    r'.attempts = n := by
  have after := attempts_of_recorded wf' found'
  rw [grown] at after
  have last : (0 :: (d.recorded id ++ [n]))[(d.recorded id ++ [n]).length]? = some n := by simp
  exact Option.some.inj (after.symm.trans last)

/-- The recorded failures of every event have left 1, 2, 3 and so on. -/
def Counted (d : Db) : Prop := ∀ id k n, d.attemptsAfter id k = some n → n = k

theorem attempts_of_counted {d : Db} {id : Id} {r : OutboxRecord} (wf : Wf d) (counted : Counted d)
    (found : d.event id = some r) : r.attempts = d.failures id :=
  counted id _ _ (wf.counted id r found)

theorem seen_of_inTurn {d : Db} {id : Id} {claim : Option Nat} {seen : Nat} {r : OutboxRecord}
    (found : d.event id = some r) (unfinished : r.status.unfinished = true)
    (inTurn : failsInTurn (.failed id claim seen) d = true) : d.failures id = seen := by
  simpa [failsInTurn, found, unfinished] using inTurn

theorem Commit.keepsCounted {d : Db} {ℓ : Label} {ws : List Write} (wf : Wf d)
    (counted : Counted d) (inTurn : failsInTurn ℓ d = true) (commit : Commit d ℓ ws) :
    Counted (applyAll ws d) := by
  intro id k n after
  cases commit.failureStep wf id with
  | none same =>
    rw [Db.attemptsAfter, same] at after
    exact counted id k n after
  | one claim seen m r label found unfinished read grown =>
    subst label
    have turn : d.failures id = seen := seen_of_inTurn found unfinished inTurn
    have counts : m = d.failures id := (counted id seen m read).trans turn.symm
    rw [Db.attemptsAfter, grown, ← List.cons_append] at after
    -- an earlier failure, or the one just recorded
    rcases Nat.lt_or_ge k (0 :: d.recorded id).length with old | new
    · rw [List.getElem?_append_left old] at after
      exact counted id k n after
    · rw [List.getElem?_append_right new, List.getElem?_singleton] at after
      split at after
      next last =>
        have value := Option.some.inj after
        simp only [Db.failures, List.length_cons] at *
        omega
      next => cases after

theorem counted_of_runs {p : OutboxPool} (run : Runs (fun ℓ d => failsInTurn ℓ d = true) p) :
    Counted p.db := by
  refine invariant_of_runs Counted ?_ (fun _ _ _ wf counted inTurn commit =>
    commit.keepsCounted wf counted inTurn) run
  rintro id (_ | k) n after
  · exact (Option.some.inj after).symm
  · cases after

/-- The attempts of an event and its recorded failures move together, by one at most. -/
def Raises (d d' : Db) : Prop :=
  ∀ id r r', d.event id = some r → d'.event id = some r' →
    d'.failures id = d.failures id ∧ r'.attempts = r.attempts ∨
      d'.failures id = d.failures id + 1 ∧ r'.attempts = r.attempts + 1

/-- A failure of event 1 that nothing disturbs, as call `i`. -/
def failsAlone (i : Nat) : List (Pool.Move Op) :=
  [.event (.spawn (.markEventFailure 1 "offline" false none)), .drive i true]

/-- Five failures in turn, which are as many as a new event has attempts. -/
def failsFiveTimes : List (Pool.Move Op) :=
  claimedOnce ++ failsAlone 2 ++ failsAlone 3 ++ failsAlone 4 ++ failsAlone 5 ++ failsAlone 6

/-- Every recorded failure, in every run, raises the attempts by one. -/
def FailuresRaise : Prop :=
  ∀ p e q, Reachable p → p.step system e = some q → Raises p.db q.db

/-- The lease of the first claim runs out and the event is claimed again. Both deliveries
cannot reach FCM, and both have read the event before either of them records the failure. -/
def failsTwiceAtOnce : List (Pool.Move Op) :=
  claimedOnce ++
    [.event (.spawn (.tick 300000)), .drive 2 true,
     .event (.spawn (.claimPendingEvents 20 5 [])), .drive 3 true,
     .event (.spawn (.processRecord 0 { fcm := .transient "unreachable" })),
     .event (.spawn (.processRecord 1 { fcm := .transient "unreachable" }))] ++
    List.replicate 12 (.event (.run 4 true)) ++ List.replicate 12 (.event (.run 5 true)) ++
    [.event (.run 4 true)]

end LabourBaba.Outbox
