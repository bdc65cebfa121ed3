import LabourBaba.Market.BookingConformance

/-!
# Dispatch services keep to the protocol

Acceptance holds the requirement's lock from before it reads the counter until it
commits; the wave processors and the reconciliation scan hold none over most of what
they decide on, so their commits carry little more than their writes. `conforms` puts
all services together.
-/
namespace LabourBaba.Market

open Store

/-! ### Acceptance -/

section Acceptance

variable {me : Nat} {t : MarketTx} {d : Db}

theorem wp_checkJobComplete {jobId : Id} {Q : Except Failure Bool → Option MarketTx → Db → Prop}
    (drops : Call.Drops Q) (stored : (d.job jobId).isSome)
    (untouched : ∀ w ∈ t.writes, .job jobId ∉ w.keys)
    (waiting : ∀ d', protocol.Rely me t.locks d d' → Q (.ok false) (some t) d')
    (booked : ∀ d' t' record, protocol.Rely me t.locks d d' →
      Tx.Grows t t' [.jobStatus jobId .BOOKED, .jobTransition record,
        .jobDispatchStatus jobId .FILLED] →
      .job jobId ∈ t'.locks → d'.jobIn jobId [.OPEN, .DISPATCHING] →
      record.Follows d' jobId .BOOKED → Q (.ok true) (some t') d')
    (already : ∀ d' t', protocol.Rely me t.locks d d' →
      Tx.Grows t t' [.jobDispatchStatus jobId .FILLED] → .job jobId ∈ t'.locks →
      d'.jobIn jobId [.BOOKED, .IN_PROGRESS, .COMPLETED] → Q (.ok true) (some t') d') :
    Call.wp protocol me Q (checkJobComplete jobId) (some t) d := by
  simp only [checkJobComplete, query, Call.wp_bind, Call.wp_read, Tx.view_some, Tx.held_some]
  intro d₁ rely₁ _
  rw [Call.andThen_ok]
  split
  · -- both ways out of the transition set the job's dispatch status
    have marked : ∀ d₂ t₂ ws, protocol.Rely me t.locks d d₂ → Tx.Grows t t₂ ws →
        (∀ d₃ t₃, protocol.Rely me t₂.locks d₂ d₃ →
          Tx.Grows t t₃ (ws ++ [.jobDispatchStatus jobId .FILLED]) →
          (∀ k ∈ t₂.locks, k ∈ t₃.locks) → Q (.ok true) (some t₃) d₃) →
        Call.wp protocol me Q (do
          step fun d => if (d.job jobId).isNone then .error .recordNotFound
            else .ok ([.jobDispatchStatus jobId .FILLED], ())
          pure true) (some t₂) d₂ := by
      intro d₂ t₂ ws rely₂ grows₂ done
      rw [Call.wp_bind, step]
      refine Call.stmt_inTx (fun d₃ t₃ vs _ rely₃ _ result grows₃ _ => ?_)
        fun _ _ _ _ _ => drops _ _ _
      split at result <;> cases result
      exact done d₃ t₃ rely₃ (grows₂.trans grows₃) grows₃.kept
    rw [Call.wp_bind]
    refine wp_unlessInvalidFrom untouched (Call.drops_andThen drops _)
      (fun d₂ t₂ rely₂ grows₂ ahead => ?_) fun d₂ t₂ record rely₂ grows₂ held jobIn follows => ?_
    · obtain ⟨held, jobIn⟩ := ahead (job_isSome_of_rely rely₁ stored)
      have rely := rely₁.trans rely₂
      refine marked d₂ t₂ [] rely grows₂ fun d₃ t₃ rely₃ grows₃ kept => ?_
      exact already d₃ t₃ (grows₂.rely rely rely₃) grows₃ (kept _ held) (jobIn_of_rely rely₃ held jobIn)
    · have rely := rely₁.trans rely₂
      refine marked d₂ t₂ _ rely grows₂ fun d₃ t₃ rely₃ grows₃ kept => ?_
      exact booked d₃ t₃ record (grows₂.rely rely rely₃) grows₃ (kept _ held)
        (jobIn_of_rely rely₃ held jobIn) (follows_of_rely rely₃ held follows)
  · exact waiting d₁ rely₁

theorem wp_closeFilled {jobId requirementId : Id} {nowFilled : Bool}
    {Q : Except Failure (List Id × Bool) → Option MarketTx → Db → Prop}
    (drops : Call.Drops Q) (consistent : Consistent d) (stored : (d.job jobId).isSome)
    (untouched : ∀ w ∈ t.writes, .job jobId ∉ w.keys)
    (done : ∀ d' t' expired booked ws, protocol.Rely me t.locks d d' → Tx.Grows t t' ws →
      (∀ d'', protocol.Rely me t'.locks d' d'' → Closing d'' jobId nowFilled booked ws) →
      Q (.ok (expired, booked)) (some t') d') :
    Call.wp protocol me Q (closeFilled nowFilled requirementId jobId) (some t) d := by
  cases nowFilled with
  | false => exact done d t [] false [] (.refl consistent) (.refl t) fun _ _ => .slotsLeft
  | true =>
    simp only [closeFilled, if_true, query, Call.wp_bind, Call.wp_read, Tx.held_some]
    intro d₁ rely₁ _
    rw [Call.andThen_ok, Call.wp_bind]
    refine wp_setOffers fun d₂ t₂ offers _ rely₂ grows₂ => ?_
    rw [Call.andThen_ok]
    have rely := rely₁.trans rely₂
    have untouched₂ : ∀ w ∈ t₂.writes, .job jobId ∉ w.keys := by
      rw [grows₂.writes]
      simpa [or_imp, forall_and, Write.keys] using untouched
    rw [Call.wp_bind]
    refine wp_checkJobComplete (Call.drops_andThen drops _) (job_isSome_of_rely rely stored) untouched₂
      (fun d₃ rely₃ => ?_) (fun d₃ t₃ record rely₃ grows₃ held jobIn follows => ?_)
      fun d₃ t₃ rely₃ grows₃ held jobIn => ?_
    · exact done d₃ t₂ _ false _ (grows₂.rely rely rely₃) grows₂ fun _ _ => .waiting offers
    · exact done d₃ t₃ _ true _ (grows₂.rely rely rely₃) (grows₂.trans grows₃) fun d₄ rely₄ =>
        .booked offers record (jobIn_of_rely rely₄ held jobIn) (follows_of_rely rely₄ held follows)
    · exact done d₃ t₃ _ true _ (grows₂.rely rely rely₃) (grows₂.trans grows₃) fun d₄ rely₄ =>
        .already offers (jobIn_of_rely rely₄ held jobIn)

theorem acceptable_ok {req : Requirement} {jobStatus : Option JobStatus}
    (ok : acceptable req jobStatus = .ok ()) :
    req.status ≠ .CANCELLED ∧ req.status ≠ .FILLED ∧
      req.workerCountFilled < req.workerCountNeeded := by
  simp only [acceptable] at ok
  split at ok
  · cases ok
  next active =>
    split at ok
    · cases ok
    next room =>
      simp only [not_or, not_le] at active room
      exact ⟨active.1, room⟩

theorem reserveSlot_ok {id : Id} {newFilled : Nat} {nowFilled : Bool} {d : Db} {ws : List Write}
    (reserved : reserveSlot id newFilled nowFilled d = .ok (ws, ())) :
    ws = [.requirementFilled id newFilled,
      .requirementStatus [id] (if nowFilled then .FILLED else .PARTIALLY_FILLED)] := by
  simp only [reserveSlot] at reserved
  split at reserved
  · cases reserved
  · split at reserved
    · cases reserved
    · simpa using reserved.symm

theorem insertBooking_ok {b : Booking} {d : Db} {ws : List Write}
    (inserted : insertBooking b d = .ok (ws, ())) :
    d.booking b.id = none ∧ d.slotTaken b.requirementId b.workerId = false ∧
      ws = [.insertBooking b] := by
  simp only [insertBooking] at inserted
  split at inserted
  · cases inserted
  next freshId =>
    split at inserted
    · cases inserted
    next freshSlot => exact ⟨by simpa using freshId, by simpa using freshSlot, by simpa using inserted.symm⟩

theorem insertOutbox_ok {key : OutboxKey} {d : Db} {ws : List Write}
    (inserted : insertOutbox key d = .ok (ws, ())) : ws = [.outbox key] := by
  simp only [insertOutbox] at inserted
  split at inserted
  · cases inserted
  · simpa using inserted.symm

/-- The statements of an acceptance once the worker's offer is taken. -/
theorem reserve_commits (cfg : Config) {requirementId workerId : Id} {new : NewBooking}
    {req : Requirement} {job : Job} {x : Dispatch}
    (held : .requirement requirementId ∈ t.locks)
    (heldOffer : .dispatch requirementId workerId ∈ t.locks)
    (found : d.requirement requirementId = some req) (foundJob : d.job req.jobId = some job)
    (offer : d.dispatch requirementId workerId = some x)
    (active : req.status ≠ .CANCELLED ∧ req.status ≠ .FILLED)
    (room : req.workerCountFilled < req.workerCountNeeded)
    (writes : t.writes = [.dispatchStatus [(requirementId, workerId)] .accepted]) :
    Call.wp protocol me (Call.inTx
        (Ends me fun a : Acceptance => .accepted a.booking a.nowFilled a.jobFullyBooked)) (do
      let newFilled := req.workerCountFilled + 1
      let nowFilled := decide (req.workerCountNeeded ≤ newFilled)
      step (reserveSlot requirementId newFilled nowFilled)
      let issuedAt ← query fun d => d.now
      let booking : Booking :=
        { id := new.id, jobId := req.jobId, requirementId, workerId
          customerId := job.customerId, status := .CONFIRMED, otpHash := new.otpHash
          otpExpiresAt := issuedAt + cfg.bookingOtpTtlSeconds * 1000, otpAttempts := 0 }
      step (insertBooking booking)
      step (insertOutbox (.bookingConfirmed booking.id job.customerId))
      let (expiredWorkerIds, jobFullyBooked) ← closeFilled nowFilled requirementId req.jobId
      pure { booking, otp := new.otp, nowFilled, newFilled, needed := req.workerCountNeeded
             jobId := req.jobId, customerId := job.customerId, expiredWorkerIds
             jobFullyBooked }) (some t) d := by
  simp only [step, query, Call.wp_bind]
  refine Call.stmt_inTx (fun d₁ t₁ ws _ rely₁ _ result grows₁ _ => ?_) fun _ _ _ _ _ => trivial
  obtain rfl := reserveSlot_ok result
  simp only [Call.andThen_ok, Call.wp_bind, Call.wp_read, Tx.held_some]
  intro d₂ rely₂ _
  refine Call.stmt_inTx (fun d₃ t₃ ws _ rely₃ _ result grows₃ locks₃ => ?_) fun _ _ _ _ _ => trivial
  obtain ⟨freshId, freshSlot, rfl⟩ := insertBooking_ok result
  rw [grows₁.writes, writes, booking_applyAll (by simp [Write.keys])] at freshId
  have slotView := row_applyAll (t₁.writes) d₃ (Key.slot requirementId workerId)
    (by simp [grows₁.writes, writes, Write.keys])
  have freshSlot₃ : d₃.slotTaken requirementId workerId = false := slotView.symm.trans freshSlot
  have heldId := locks₃ _ List.mem_cons_self (.booking new.id) (by simp [Write.keys])
  have heldSlot := locks₃ _ List.mem_cons_self (.slot requirementId workerId) (by simp [Write.keys])
  rw [Call.andThen_ok, Call.wp_bind]
  refine Call.stmt_inTx (fun d₄ t₄ ws _ rely₄ _ result grows₄ _ => ?_) fun _ _ _ _ _ => trivial
  obtain rfl := insertOutbox_ok result
  rw [Call.andThen_ok, Call.wp_bind]
  have since : protocol.Rely me t.locks d d₄ :=
    grows₁.rely rely₁ (rely₂.trans (grows₃.rely rely₃ rely₄))
  have untouched : ∀ w ∈ t₄.writes, .job req.jobId ∉ w.keys := by
    simp [grows₄.writes, grows₃.writes, grows₁.writes, writes, Write.keys]
  refine wp_closeFilled (by simp) (consistent_of_rely rely₄)
    (job_isSome_of_rely since (by simp [foundJob])) untouched
    fun d₅ t₅ expired booked ws rely₅ grows₅ closing => ?_
  intro d₆ rely₆
  have after : protocol.Rely me t₄.locks d₄ d₆ := grows₅.rely rely₅ rely₆
  have later : protocol.Rely me t.locks d d₆ :=
    (grows₁.trans (grows₃.trans grows₄)).rely since after
  have slot₆ := (grows₄.rely rely₄ after).rows (.slot requirementId workerId) heldSlot
  obtain ⟨job₆, foundJob₆, customer⟩ := (later_of_rely later).job foundJob
  rw [grows₅.writes, grows₄.writes, grows₃.writes, grows₁.writes, writes]
  simp only [List.cons_append, List.nil_append]
  have offer₆ : d₆.dispatch requirementId workerId = some x :=
    (later.rows (.dispatch requirementId workerId) heldOffer).trans offer
  exact does_of_commit (.accepted ((requirement_of_rely later held).trans found) rfl active room rfl
    rfl ⟨rfl, rfl⟩ ((booking_of_rely (grows₄.rely rely₄ after) heldId).trans freshId)
    (slot₆.trans freshSlot₃) offer₆ ⟨job₆, foundJob₆, customer⟩ (closing d₆ rely₆))

theorem acceptOffer_ok {requirementId workerId : Id} {now count : Nat} {d : Db} {ws : List Write}
    (taken : acceptOffer requirementId workerId now d = .ok (ws, count)) :
    count = 0 ∨ (∃ x, d.dispatch requirementId workerId = some x) ∧ count = 1 ∧
      ws = [.dispatchStatus [(requirementId, workerId)] .accepted] := by
  simp only [acceptOffer] at taken
  split at taken
  next x found =>
    split at taken <;> cases taken
    · exact Or.inr ⟨⟨x, found⟩, rfl, rfl⟩
    · exact Or.inl rfl
  · cases taken
    exact Or.inl rfl

theorem acceptTx_conforms (cfg : Config) (requirementId workerId : Id) (new : NewBooking) :
    Conforms me (Call.transaction
      (fun a => .accepted a.booking a.nowFilled a.jobFullyBooked)
      (acceptTx cfg requirementId workerId new)) := by
  refine Conforms.transaction fun d => ?_
  rw [acceptTx, lockRequirement, Call.wp_bind]
  refine Call.lock_inTx fun d₁ t₁ rely₁ _ grows₁ locks₁ => ?_
  have held : .requirement requirementId ∈ t₁.locks := locks₁ _ List.mem_cons_self
  simp only [query, Call.andThen_ok, Call.wp_bind, Call.wp_read, Tx.view_some, Tx.held_some,
    grows₁.same, applyAll_nil]
  intro d₂ rely₂ _
  cases found : d₂.requirement requirementId with
  | none => trivial
  | some req =>
    simp only [Option.map_some]
    cases foundJob : d₂.job req.jobId with
    | none => trivial
    | some job =>
      simp only [Call.wp_bind]
      refine wp_assertPolicy (by simp) fun ok => ?_
      obtain ⟨active, unfilled, room⟩ := acceptable_ok ok
      simp only [Call.andThen_ok, Call.wp_bind, Call.wp_read, Tx.view_some, Tx.held_some]
      intro d₃ rely₃ _
      split
      · trivial
      · simp only [Call.wp_bind, Call.wp_read, Tx.view_some, Tx.held_some]
        intro d₄ rely₄ _
        rw [Call.andThen_ok, Call.wp_bind, step]
        refine Call.stmt_inTx (fun d₅ t₅ ws count rely₅ _ result grows₅ locks₅ => ?_)
          fun _ _ _ _ _ => trivial
        rw [Call.andThen_ok]
        rcases acceptOffer_ok result with rfl | ⟨⟨x, offer⟩, rfl, rfl⟩
        · simp only [if_true, Call.wp_bind, Call.wp_read]
          exact fun _ _ _ => trivial
        · have since := rely₃.trans (rely₄.trans rely₅)
          obtain ⟨job₅, foundJob₅, customer⟩ := (later_of_rely since).job foundJob
          rw [grows₁.same] at offer
          rw [← customer]
          exact reserve_commits cfg (grows₅.kept _ held)
            (locks₅ _ List.mem_cons_self _ (by simp [Write.keys]))
            ((requirement_of_rely since held).trans found) foundJob₅ offer ⟨active, unfilled⟩ room
            (by rw [grows₅.writes, grows₁.same]; rfl)

theorem acceptDispatch_conforms (cfg : Config) (requirementId workerId : Id) (new : NewBooking) :
    Conforms me (acceptDispatch cfg requirementId workerId new) := by
  refine Call.Safe.bind (.read _ _) fun preReq => ?_
  refine Call.Safe.bind (.read _ _) fun preDispatch => ?_
  refine Call.Safe.bind (.read _ _) fun nowPre => ?_
  refine (Conforms.assertPolicy _).bind fun _ => ?_
  refine (Conforms.assertPolicy _).bind fun _ => ?_
  refine (acceptTx_conforms cfg requirementId workerId new).attempt.bind fun result => ?_
  cases result with
  | ok a => exact .pure _
  | error e => exact .throw _

end Acceptance

/-! ### Waves and timeouts -/

section Waves

variable {me : Nat} {t : MarketTx} {d : Db}

theorem noWorkers_ok {id : Id} {d : Db} {ws : List Write} (given : noWorkers id d = .ok (ws, ())) :
    ws = [.requirementStatus [id] .NO_WORKERS_AVAILABLE] := by
  simp only [noWorkers] at given
  split at given
  · cases given
  · simpa using given.symm

theorem noWorkers_conforms (id : Id) (wave : Option Nat) :
    Conforms me (Call.stmt (.noWorkers id wave) (noWorkers id)) := by
  refine .stmt fun d ws _ _ _ given => ?_
  obtain rfl := noWorkers_ok given
  exact does_of_commit .noWorkers

theorem exhaustWave_conforms (id : Id) (waveNumber : Nat) :
    Conforms me (exhaustWave id waveNumber) := by
  refine .stmt fun d ws _ _ _ result => ?_
  cases result
  exact does_of_commit (.quiet (by simp [Write.quiet]))

theorem Conforms.addTimeoutJob (data : TimeoutJobData) : Conforms me (addTimeoutJob data) := by
  intro d
  rw [Market.addTimeoutJob, Call.wp_bind, Call.wp_choose]
  intro d' _ reachable
  cases reachable with
  | false => rfl
  | true => exact fun d'' _ _ => ⟨does_of_commit (.quiet (by simp [Write.quiet])), rfl⟩

theorem declineDispatch_conforms (cfg : Config) (requirementId workerId : Id) :
    Conforms me (declineDispatch cfg requirementId workerId) := by
  refine Call.Safe.bind (Conforms.transaction fun d => ?_) fun _ => ?_
  · rw [Call.wp_bind]
    refine wp_setOffers fun d₁ t₁ offers _ rely₁ grows₁ => ?_
    rw [Call.andThen_ok, step]
    refine Call.stmt_inTx (fun d₂ t₂ ws _ rely₂ _ result grows₂ _ => ?_) fun _ _ _ _ _ => trivial
    cases result
    intro d₃ rely₃
    rw [grows₂.writes, grows₁.writes]
    exact does_of_commit (.quiet (by simp [Write.quiet]))
  · refine Call.Safe.bind (.read _ _) fun offer => ?_
    cases offer with
    | none => exact .pure _
    | some x =>
      refine Call.Safe.bind (.read _ _) fun pendingCount => ?_
      split
      · refine Call.Safe.bind (.read _ _) fun found => ?_
        cases found with
        | none => exact .pure _
        | some req =>
          refine (exhaustWave_conforms _ _).bind fun _ => ?_
          simp only
          split
          · exact (Conforms.addDispatchJob _).attempt.bind fun _ => .pure _
          · exact noWorkers_conforms _ _
      · exact .pure _

theorem insertWave_ok {wave : Wave} {d : Db} {ws : List Write}
    (inserted : insertWave wave d = .ok (ws, ())) :
    d.wave wave.requirementId wave.waveNumber = none ∧ ws = [.insertWave wave] := by
  simp only [insertWave] at inserted
  split at inserted
  · cases inserted
  next fresh =>
    split at inserted
    · cases inserted
    · exact ⟨by simpa using fresh, by simpa using inserted.symm⟩

theorem executeWrites_conforms (requirementId : Id) (waveNumber waveSize : Nat)
    (waveWorkers : List Id) (expiresAt : Nat) :
    Conforms me (Call.transaction (fun _ => .waveCommitted requirementId waveNumber)
      (executeWrites requirementId waveNumber waveSize waveWorkers expiresAt)) := by
  refine Conforms.transaction fun d => ?_
  simp only [executeWrites, query, step, Call.wp_bind, Call.wp_read, Tx.held_some]
  intro d₁ rely₁ _
  rw [Call.andThen_ok, Call.wp_bind]
  refine Call.stmt_inTx (fun d₂ t₂ ws _ rely₂ _ result grows₂ locks₂ => ?_) fun _ _ _ _ _ => trivial
  obtain ⟨fresh, rfl⟩ := insertWave_ok result
  have held := locks₂ _ List.mem_cons_self (.wave requirementId waveNumber) (by simp [Write.keys])
  rw [Call.andThen_ok, Call.wp_bind]
  refine Call.stmt_inTx (fun d₃ t₃ ws _ rely₃ _ result grows₃ _ => ?_) fun _ _ _ _ _ => trivial
  cases result
  refine Call.stmt_inTx (fun d₄ t₄ ws _ rely₄ _ result grows₄ _ => ?_) fun _ _ _ _ _ => trivial
  cases result
  intro d₅ rely₅
  have since := grows₃.rely rely₃ (grows₄.rely rely₄ rely₅)
  have absent : d₅.wave requirementId waveNumber = none :=
    (since.rows (.wave requirementId waveNumber) held).trans fresh
  let offer : Id × Nat → Dispatch := fun p =>
    { requirementId, workerId := p.1, waveNumber, wavePosition := p.2 + 1, status := .pending
      expiresAt := some expiresAt }
  have offers : ∀ insert : Id × Nat → Write, (∀ p, insert p = .insertDispatch (offer p)) →
      waveWorkers.zipIdx.map insert = (waveWorkers.zipIdx.map offer).map .insertDispatch := by
    intro insert inserts
    simp [inserts]
  rw [grows₄.writes, grows₃.writes, grows₂.writes, offers _ fun _ => rfl]
  refine does_of_commit (.waveCommitted rfl ?_ absent ?_)
  · intro x member
    obtain ⟨⟨w, i⟩, -, rfl⟩ := List.mem_map.mp member
    exact ⟨rfl, rfl⟩
  · simp [Write.quiet]

theorem alreadyProcessed_conforms (requirementId : Id) (waveNumber : Nat) (existing : Option Wave) :
    Conforms me (alreadyProcessed requirementId waveNumber existing) :=
  Call.Safe.bind (.read _ _) fun _ => .pure _

theorem persistWave_conforms (data : DispatchJobData) (plan : DispatchWavePlan) (workers : List Id)
    (isFinal : Bool) : Conforms me (persistWave data plan workers isFinal) := by
  refine Call.Safe.bind (.read _ _) fun now => ?_
  refine (executeWrites_conforms _ _ _ _ _).attempt.bind fun persisted => ?_
  cases persisted with
  | ok _ => exact (Conforms.addTimeoutJob _).bind fun _ => .pure _
  | error e =>
    cases e with
    | uniqueViolation constraint =>
      exact Call.Safe.bind (.read _ _) fun existing => alreadyProcessed_conforms _ _ existing
    | _ => exact .throw _

theorem giveUp_conforms (requirementId : Id) (waveNumber : Nat) :
    Conforms me (giveUp requirementId waveNumber) :=
  (noWorkers_conforms _ _).bind fun _ => .pure _

theorem processDispatchJob_conforms (cfg : Config) (data : DispatchJobData) (matching : List Id) :
    Conforms me (processDispatchJob cfg data matching) := by
  refine Call.Safe.bind (.read _ _) fun found => ?_
  match found with
  | none => exact .pure _
  | some (req, job) =>
    simp only
    split
    · exact .pure _
    · refine Call.Safe.bind (.read _ _) fun existing => ?_
      cases existing with
      | some wave => exact alreadyProcessed_conforms _ _ _
      | none =>
        simp only
        split
        · exact giveUp_conforms _ _
        · split
          · exact .throw _
          · split
            · exact .pure _
            · refine Call.Safe.bind (.read _ _) fun workers => ?_
              split
              · exact giveUp_conforms _ _
              · exact persistWave_conforms _ _ _ _

theorem processTimeoutJob_conforms (cfg : Config) (data : TimeoutJobData) :
    Conforms me (processTimeoutJob cfg data) := by
  refine Call.Safe.bind (.read _ _) fun found => ?_
  cases found with
  | none => exact .pure _
  | some req =>
    simp only
    split
    · exact .pure _
    · have timedOut : Conforms me (Call.stmt (.offersTimedOut data.requirementId data.waveNumber)
          fun d =>
            let offers := (d.dispatches.filter fun x => x.requirementId = data.requirementId ∧
              x.waveNumber = data.waveNumber ∧ x.status = .pending).map (·.key)
            .ok ([.dispatchStatus offers .timeout], offers.length)) := by
        refine .stmt fun d ws _ _ _ result => ?_
        cases result
        exact does_of_commit (.quiet (by simp [Write.quiet]))
      refine timedOut.bind fun _ => (exhaustWave_conforms _ _).bind fun _ => ?_
      split
      · exact noWorkers_conforms _ _
      · exact Conforms.addDispatchJob _

end Waves

/-! ### Reconciliation -/

section Reconciliation

variable {me : Nat} {t : MarketTx} {d : Db}

/-- A statement outside the transaction's reach, such as adding to a queue, is for the
transaction like the step of another call. -/
theorem wp_enqueue {w : Unlocked Db} {Q : Except Failure Unit → Option MarketTx → Db → Prop}
    (drops : Call.Drops Q) (quiet : w.val.quiet = true)
    (done : ∀ d', protocol.Rely me t.locks d d' → Q (.ok ()) (some t) d') :
    Call.wp protocol me Q (do
      let reachable ← Call.choose
      if reachable then Call.send .enqueued fun _ => ([w], ())
      else throw .queueUnavailable) (some t) d := by
  rw [Call.wp_bind, Call.wp_choose]
  intro d₁ rely₁ reachable
  cases reachable with
  | false => exact drops _ _ _
  | true =>
    intro d₂ rely₂ _
    have commit : Commit .enqueued d₂ [w.val] := .quiet (by simpa using quiet)
    refine ⟨does_of_commit commit, done _ ?_⟩
    refine rely₁.trans (rely₂.trans ⟨Later.applyAll _ _, commit.keepsConsistent rely₂.inv, ?_,
      fun _ _ => Protocol.Lax.keeps _ _ _⟩)
    intro k _
    refine row_applyAll _ _ _ fun v member => ?_
    rw [List.mem_singleton.mp member, w.property]
    simp

theorem wp_addDispatchJob {data : DispatchJobData}
    {Q : Except Failure Unit → Option MarketTx → Db → Prop} (drops : Call.Drops Q)
    (done : ∀ d', protocol.Rely me t.locks d d' → Q (.ok ()) (some t) d') :
    Call.wp protocol me Q (addDispatchJob data) (some t) d :=
  wp_enqueue drops rfl done

/-- The label of a repaired requirement's transaction. -/
def Repair.label (requirementId : Id) (r : Repair) : Label := .reconciled requirementId r.status

theorem scheduleNext_commits {cfg : Config} {req : Requirement} {latest : Wave} {closed : Nat}
    (still : ∀ w ∈ t.writes, w.quiet = true) :
    Call.wp protocol me (Call.inTx (Ends me (Repair.label req.id)))
      (scheduleNext cfg req latest closed) (some t) d := by
  simp only [scheduleNext]
  split
  · rw [Call.wp_bind]
    exact wp_addDispatchJob (by simp) fun d₁ rely₁ d₂ rely₂ => does_of_commit (.quiet still)
  · rw [Call.wp_bind, step]
    refine Call.stmt_inTx (fun d₁ t₁ ws _ rely₁ _ result grows₁ _ => ?_) fun _ _ _ _ _ => trivial
    obtain rfl := noWorkers_ok result
    intro d₂ rely₂
    rw [grows₁.writes]
    exact does_of_commit (.gaveUp still)

theorem closeExpired_commits {cfg : Config} {req : Requirement} {latest : Wave}
    (fresh : t.writes = []) :
    Call.wp protocol me (Call.inTx (Ends me (Repair.label req.id)))
      (closeExpired cfg req latest) (some t) d := by
  rw [closeExpired, Call.wp_bind]
  refine wp_setOffers fun d₁ t₁ offers _ rely₁ grows₁ => ?_
  rw [Call.andThen_ok, Call.wp_bind, step]
  refine Call.stmt_inTx (fun d₂ t₂ ws _ rely₂ _ result grows₂ _ => ?_) fun _ _ _ _ _ => trivial
  cases result
  refine scheduleNext_commits ?_
  rw [grows₂.writes, grows₁.writes, fresh]
  simp [Write.quiet]

theorem restoreTimeout_commits {req : Requirement} {latest : Wave} (fresh : t.writes = []) :
    Call.wp protocol me (Call.inTx (Ends me (Repair.label req.id)))
      (restoreTimeout req latest) (some t) d := by
  rw [restoreTimeout, Call.wp_bind]
  refine wp_enqueue (by simp) rfl fun d₁ rely₁ d₂ rely₂ => does_of_commit (.quiet ?_)
  simp [fresh]

/-- The step of `latestWave`: the wave with the greater number. -/
def newer (best : Option Wave) (w : Wave) : Option Wave :=
  match best with
  | none => some w
  | some b => if b.waveNumber < w.waveNumber then some w else some b

/-- The fold keeps the best wave it has seen. -/
theorem latestWave_none {d : Db} {id : Id} (none : d.latestWave id = none) :
    ∀ w ∈ d.waves, w.requirementId ≠ id := by
  have keeps : ∀ (waves : List Wave) (best : Wave),
      (waves.foldl newer (some best)).isSome := by
    intro waves
    induction waves with
    | nil => exact fun _ => rfl
    | cons w waves ih =>
      intro best
      simp only [List.foldl_cons, newer]
      split
      · exact ih w
      · exact ih best
  intro w member same
  have selected : w ∈ d.waves.filter fun w => w.requirementId = id := by
    simpa [List.mem_filter] using ⟨member, same⟩
  simp only [Db.latestWave] at none
  cases waves : d.waves.filter fun w => w.requirementId = id with
  | nil =>
    rw [waves] at selected
    cases selected
  | cons first rest =>
    rw [waves, List.foldl_cons] at none
    have found := keeps rest first
    exact absurd none (Option.isSome_iff_ne_none.mp found)

/-- A requirement without a wave has no offer, so no booking. -/
theorem unbooked_of_no_wave {id : Id} {row : Requirement} (consistent : Consistent d)
    (none : d.latestWave id = none) (found : d.requirement id = some row) :
    row.workerCountFilled = 0 := by
  rw [(consistent.ledger.filled found).1]
  refine List.countP_eq_zero.mpr fun b booked held => ?_
  obtain ⟨x, offered, slot⟩ := consistent.wf.bookingOffer b booked
  obtain ⟨w, stored, named⟩ := consistent.wf.offerWave x offered
  have mine : b.requirementId = id := by
    have both := (Bool.and_eq_true _ _).mp held
    simpa using both.1
  refine latestWave_none none w stored ?_
  calc w.requirementId = x.requirementId := congrArg Prod.fst named
    _ = b.requirementId := congrArg Prod.fst slot
    _ = id := mine

theorem scheduleFirst_commits {req : Requirement} (consistent : Consistent d) (fresh : t.writes = [])
    (held : .requirement req.id ∈ t.locks) (none : d.latestWave req.id = none) :
    Call.wp protocol me (Call.inTx (Ends me (Repair.label req.id))) (scheduleFirst req)
      (some t) d := by
  rw [scheduleFirst, Call.wp_bind]
  refine wp_onlyIf (fun change => ?_) fun same => ?_
  · have changes : req.status ≠ .DISPATCHING := by simpa using change
    rw [step]
    refine Call.stmt_inTx (fun d₁ t₁ ws _ rely₁ _ result grows₁ _ => ?_) fun _ _ _ _ _ => trivial
    rw [fresh, applyAll_nil] at result
    cases found₁ : d₁.requirement req.id with
    | none =>
      rw [found₁] at result
      cases result
    | some row =>
      rw [found₁] at result
      cases result
      have found := (requirement_of_rely rely₁ held).symm.trans found₁
      rw [Call.andThen_ok, Call.wp_bind]
      refine wp_addDispatchJob (by simp) fun d₂ rely₂ d₃ rely₃ => ?_
      have found₃ :=
        (requirement_of_rely (rely₂.trans rely₃) (grows₁.kept _ held)).trans found₁
      rw [grows₁.writes, fresh, Repair.label, if_pos changes]
      exact does_of_commit (.rescheduled found₃ (unbooked_of_no_wave consistent none found))
  · have unchanged : ¬ req.status ≠ .DISPATCHING := by simpa using same
    rw [Call.andThen_ok, Call.wp_bind]
    refine wp_addDispatchJob (by simp) fun d₁ rely₁ d₂ rely₂ => does_of_commit (.quiet ?_)
    simp [fresh]

theorem repairTx_conforms (cfg : Config) (now : Nat) (req : Requirement) (scannedWave : Option Wave) :
    Conforms me (Call.transaction (fun r => .reconciled req.id r.status)
      (repairTx cfg now req scannedWave)) := by
  refine Conforms.transaction fun d => ?_
  rw [repairTx, Call.wp_bind, Call.wp_skipLocked]
  intro d₁ rely₁ _
  refine ⟨fun d₂ _ => Or.inl rfl, ?_⟩
  simp only [Call.andThen_ok, not_true, if_false, query, Call.wp_bind, Call.wp_read, Tx.view_some,
    Tx.held_some]
  intro d₂ rely₂ _
  have fresh : (Tx.add Db ({} : MarketTx) { locks := [.requirement req.id] }).writes = [] := rfl
  have held : .requirement req.id ∈
      (Tx.add Db ({} : MarketTx) { locks := [.requirement req.id] }).locks := by simp [Stmt.keys]
  split
  next none =>
    have unscanned := (Option.or_eq_none_iff.mp none).1
    exact scheduleFirst_commits (consistent_of_rely rely₂) fresh held unscanned
  next latest _ =>
    split
    · split
      · exact closeExpired_commits fresh
      · exact restoreTimeout_commits fresh
    · exact scheduleNext_commits (by simp)

theorem reconcileDispatchState_conforms (cfg : Config) :
    Conforms me (reconcileDispatchState cfg) := by
  have repaired : ∀ now req scanned, Conforms me (repair cfg now req scanned) := by
    intro now req scanned
    refine (repairTx_conforms cfg now req scanned).attempt.bind fun result => ?_
    cases result with
    | ok r => exact .pure _
    | error e => exact .pure _
  have all : ∀ now candidates report, Conforms me (repairAll cfg now report candidates) := by
    intro now candidates
    induction candidates with
    | nil => exact fun report => .pure _
    | cons candidate rest ih =>
      intro report
      rw [repairAll]
      split
      · exact ih report
      · exact (repaired now _ _).bind fun _ => ih _
  exact Call.Safe.bind (.read _ _) fun candidates => Call.Safe.bind (.read _ _) fun now => all _ _ _

end Reconciliation

/-! ### The system -/

theorem conforms (cfg : Config) (me : Nat) (op : Op) : Conforms me (serviceOf cfg op) := by
  have replied : ∀ {α : Type} {reply : α → Reply} {body : Service α}, Conforms me body →
      Conforms me (replying reply body) := fun body => body.bind fun _ => .pure _
  cases op with
  | createJob jobId customerId payload => exact replied (createJob_conforms _ _ _)
  | createJobReq jobId payload actor => exact replied (createJobReq_conforms _ _ _)
  | updateRequirementDemand jobId requirementId needed actor =>
    exact replied (updateRequirementDemand_conforms _ _ _ _)
  | cancelJob jobId actor => exact replied (cancelJob_conforms _ _)
  | acceptDispatch requirementId workerId new => exact replied (acceptDispatch_conforms _ _ _ _)
  | declineDispatch requirementId workerId => exact replied (declineDispatch_conforms _ _ _)
  | verifyOtp bookingId workerId otp actor => exact replied (verifyOtp_conforms _ _ _ _ _)
  | completeBooking bookingId workerId actor => exact replied (completeBooking_conforms _ _ _)
  | confirmComplete bookingId customerId rating actor =>
    exact replied (confirmComplete_conforms _ _ _ _)
  | cancelBooking bookingId userId reason actor => exact replied (cancelBooking_conforms _ _ _ _)
  | processDispatchJob data matching => exact replied (processDispatchJob_conforms _ _ _)
  | processTimeoutJob data => exact replied (processTimeoutJob_conforms _ _)
  | reconcileDispatchState => exact replied (reconcileDispatchState_conforms _)
  | tick =>
    intro d d' rely _
    exact ⟨does_of_commit (.quiet (by simp [Write.quiet])), rfl⟩

theorem verified (cfg : Config) : Pool.Verified protocol (fun _ _ _ _ => True) (system cfg) := by
  intro me op d
  exact Store.wp_mono (fun _ _ _ _ => trivial) _ _ _ (conforms cfg me op d)

/-! ### Runs -/

section Runs

variable {cfg : Config} {cond : Label → Db → Prop} {p q : MarketPool}

theorem sound_of_runs (run : Runs cfg cond p) : Pool.Sound protocol (fun _ _ _ _ => True) p :=
  run.sound (verified cfg) (fun _ _ _ _ _ _ _ _ => trivial) (.empty Consistent.empty)

/-- The store of every run is consistent. -/
theorem consistent_of_runs (run : Runs cfg cond p) : Consistent p.db := (sound_of_runs run).inv

/-- What the labelled statement of a call commits. -/
theorem commit_of_step {i : Nat} {answer : Bool} {ℓ : Label} (run : Runs cfg cond p)
    (labelled : p.next i = some ℓ) (stepped : p.step (system cfg) (.run i answer) = some q) :
    ∃ ws, q.db = applyAll ws p.db ∧ Commit ℓ p.db ws := by
  have result := (sound_of_runs run).step (verified cfg) (fun _ _ _ _ _ => trivial) stepped
  rcases result.does with same | ⟨i', answer', ℓ', event, labelled', ws, after, commit⟩
  · exact ⟨[], same, .quiet (by simp)⟩
  · cases event
    obtain rfl := Option.some.inj (labelled.symm.trans labelled')
    exact ⟨ws, after, commit⟩

/-- A property of the store that every commit keeps, under a condition on the store just
before it, holds from there on in every run that meets the condition. -/
theorem invariant_from (I : Db → Prop)
    (keeps : ∀ ℓ d ws, Consistent d → I d → cond ℓ d → Commit ℓ d ws → I (applyAll ws d))
    (run : Runs cfg cond p) (first : I p.db)
    (more : Pool.Reaches (system cfg) (Pool.Meets cond) p q) : I q.db := by
  refine Pool.Reaches.invariant (verified cfg) (fun _ _ => trivial) I (sound_of_runs run) first ?_ more
  rintro _ ℓ d _ consistent holds meets ⟨ws, rfl, commit⟩
  exact keeps ℓ d ws consistent holds meets commit

theorem invariant_of_runs (I : Db → Prop) (first : I {})
    (keeps : ∀ ℓ d ws, Consistent d → I d → cond ℓ d → Commit ℓ d ws → I (applyAll ws d))
    (run : Runs cfg cond p) : I p.db :=
  invariant_from I keeps .refl first run

end Runs

end LabourBaba.Market
