import LabourBaba.Market.Commits

/-!
# Job services keep to the protocol

`protocol` lets a call commit what `Commit` describes and count on `Later` in between.
The rules for the job state machine are stated once, for any transaction it runs in;
each service then only has to show that the writes it has gathered, with the rows it
has locked, are one of the commits.
-/
namespace LabourBaba.Market

open Store

def protocol : Protocol Label Db where
  inv := Consistent
  pre _ _ := True
  guar _ ℓ d d' := ∃ ws, d' = applyAll ws d ∧ Commit ℓ d ws
  evo _ := Later
  evo_refl _ := Later.refl
  evo_trans _ _ _ _ := Later.trans
  guar_inv := by
    rintro _ ℓ d _ consistent ⟨ws, rfl, commit⟩
    exact commit.keepsConsistent consistent
  guar_evo := by
    rintro _ _ ℓ d _ _ _ ⟨ws, rfl, _⟩
    exact Later.applyAll ws d

instance : Protocol.Lax protocol := ⟨fun _ _ _ => trivial⟩

/-- A call that commits only what the protocol allows, from any store. -/
abbrev Conforms {α : Type} (me : Nat) (c : Service α) : Prop := Call.Safe protocol me c

theorem does_of_commit {me : Nat} {ℓ : Label} {d : Db} {ws : List Write} (commit : Commit ℓ d ws) :
    protocol.Does me ℓ d (applyAll ws d) :=
  Or.inr ⟨ws, rfl, commit⟩

abbrev MarketTx := Tx Key Write

/-- Where the body of a transaction is to arrive: whatever others commit until then, its
writes are a commit under the label of its result. -/
def Ends {α : Type} (me : Nat) (label : α → Label) (a : α) (t : MarketTx) (d : Db) : Prop :=
  ∀ d', protocol.Rely me t.locks d d' → protocol.Does me (label a) d' (applyAll t.writes d')

theorem Conforms.transaction {α : Type} {me : Nat} {label : α → Label} {body : Service α}
    (commits : ∀ d, Call.wp protocol me (Call.inTx (Ends me label)) body (some {}) d) :
    Conforms me (Call.transaction label body) := by
  refine Call.Safe.transaction fun d => Call.wp_mono ?_ (commits d)
  intro r tx d ended
  cases r with
  | error e => trivial
  | ok a =>
    cases tx with
    | none => exact ended
    | some t => exact fun d' rely _ => ended d' rely

/-! ### What a call may count on -/

/-- A protocol under which rows stay and keep the columns that identify them. -/
class Ages (P : Protocol Label Db) : Prop where
  later : ∀ me d d', P.evo me d d' → Later d d'

instance : Ages protocol := ⟨fun _ _ _ later => later⟩

theorem consistent_of_rely {me : Nat} {locked : List Key} {d d' : Db}
    (rely : protocol.Rely me locked d d') : Consistent d' := rely.inv

section Relies

variable {P : Protocol Label Db} [Ages P] {me : Nat} {locked : List Key} {d d' : Db}
  (rely : P.Rely me locked d d')

include rely

theorem later_of_rely : Later d d' := Ages.later me d d' rely.evo

omit [Ages P] in
theorem job_of_rely {id : Id} (held : .job id ∈ locked) : d'.job id = d.job id :=
  rely.rows (.job id) held

omit [Ages P] in
theorem requirement_of_rely {id : Id} (held : .requirement id ∈ locked) :
    d'.requirement id = d.requirement id :=
  rely.rows (.requirement id) held

omit [Ages P] in
theorem booking_of_rely {id : Id} (held : .booking id ∈ locked) : d'.booking id = d.booking id :=
  rely.rows (.booking id) held

theorem job_isSome_of_rely {id : Id} (stored : (d.job id).isSome) : (d'.job id).isSome := by
  obtain ⟨job, found⟩ := Option.isSome_iff_exists.mp stored
  obtain ⟨job', found', -⟩ := (later_of_rely rely).job found
  exact Option.isSome_iff_exists.mpr ⟨job', found'⟩

omit [Ages P] in
theorem jobIn_of_rely {id : Id} {statuses : List JobStatus} (held : .job id ∈ locked)
    (before : d.jobIn id statuses) : d'.jobIn id statuses := by
  obtain ⟨job, found, status⟩ := before
  exact ⟨job, (job_of_rely rely held).trans found, status⟩

omit [Ages P] in
theorem follows_of_rely {record : JobTransition} {id : Id} {target : JobStatus}
    (held : .job id ∈ locked) (before : record.Follows d id target) :
    record.Follows d' id target := by
  obtain ⟨job, found, leaves⟩ := before.leaves
  exact { before with leaves := ⟨job, (job_of_rely rely held).trans found, leaves⟩ }

end Relies

/-! A transaction sees the committed row where it has not written it. -/

theorem job_applyAll {ws : List Write} {id : Id} (untouched : ∀ w ∈ ws, .job id ∉ w.keys) (d : Db) :
    (applyAll ws d).job id = d.job id :=
  row_applyAll ws d (.job id) untouched

theorem requirement_applyAll {ws : List Write} {id : Id}
    (untouched : ∀ w ∈ ws, .requirement id ∉ w.keys) (d : Db) :
    (applyAll ws d).requirement id = d.requirement id :=
  row_applyAll ws d (.requirement id) untouched

theorem booking_applyAll {ws : List Write} {id : Id} (untouched : ∀ w ∈ ws, .booking id ∉ w.keys)
    (d : Db) : (applyAll ws d).booking id = d.booking id :=
  row_applyAll ws d (.booking id) untouched

/-! ### The job state machine -/

/-- The statuses an action leaves, and the one it leads to. -/
def JobAction.sources : JobAction → List JobStatus
  | .CREATE => []
  | .START_DISPATCH => [.OPEN]
  | .MARK_BOOKED => [.OPEN, .DISPATCHING]
  | .REOPEN_DISPATCH => [.BOOKED, .IN_PROGRESS]
  | .START_WORK => [.DISPATCHING, .BOOKED]
  | .COMPLETE => [.BOOKED, .IN_PROGRESS]
  | .CANCEL => [.OPEN, .DISPATCHING, .BOOKED, .IN_PROGRESS]

def JobAction.target : JobAction → JobStatus
  | .CREATE => .OPEN
  | .START_DISPATCH | .REOPEN_DISPATCH => .DISPATCHING
  | .MARK_BOOKED => .BOOKED
  | .START_WORK => .IN_PROGRESS
  | .COMPLETE => .COMPLETED
  | .CANCEL => .CANCELLED

theorem jobCanTransition_ok {status : JobStatus} {action : JobAction} {actor : TransitionActor}
    {customerId : Id} {rule : JobTransitionRule}
    (allowed : jobCanTransition status action actor customerId = .ok rule) :
    status ∈ action.sources ∧ rule.targetStatus = action.target ∧
      jobTransitionTable status action = some rule := by
  simp only [jobCanTransition] at allowed
  split at allowed
  · cases allowed
  · split at allowed
    · cases allowed
    next found =>
      split at allowed
      · obtain rfl := Except.ok.inj allowed
        cases status <;> cases action <;>
          simp only [jobTransitionTable, reduceCtorEq, Option.some.injEq] at found <;>
          subst found <;> exact ⟨by decide, rfl, rfl⟩
      · cases allowed

theorem jobCanTransition_error {status source : JobStatus} {action act : JobAction}
    {actor : TransitionActor} {customerId : Id} {message : String}
    (refused : jobCanTransition status action actor customerId =
      .error (.jobInvalidTransition source act message)) : source = status := by
  simp only [jobCanTransition] at refused
  split at refused
  · cases refused
  · split at refused
    · cases refused; rfl
    · split at refused
      · cases refused
      · cases refused; rfl

section JobTransitions

variable {P : Protocol Label Db} [Ages P] {me : Nat} {t : MarketTx} {d : Db} {jobId : Id}
  (untouched : ∀ w ∈ t.writes, .job jobId ∉ w.keys)

include untouched

theorem wp_lockJob {Q : Except Failure (Option Job) → Option MarketTx → Db → Prop}
    (done : ∀ d' t', P.Rely me t.locks d d' → Tx.Grows t t' [] →
      ((d.job jobId).isSome → .job jobId ∈ t'.locks) → Q (.ok (d'.job jobId)) (some t') d') :
    Call.wp P me Q (lockJob jobId) (some t) d := by
  rw [lockJob, Call.wp_bind]
  refine Call.lock_inTx fun d₁ t₁ rely₁ _ grows₁ locks₁ => ?_
  rw [job_applyAll untouched] at locks₁ ⊢
  rw [Call.andThen_ok]
  cases found : d₁.job jobId with
  | some job =>
    rw [Call.wp_pure, ← found]
    exact done d₁ t₁ rely₁ grows₁ fun _ => locks₁ _ (by simp [found])
  | none =>
    simp only [query, Call.wp_read, Tx.view_some, Tx.held_some]
    intro d₂ rely₂ _
    rw [grows₁.same, job_applyAll untouched]
    refine done d₂ t₁ (grows₁.rely rely₁ rely₂) grows₁ fun stored => ?_
    -- a job that is stored is still there when it is locked
    have stored₁ := job_isSome_of_rely rely₁ stored
    simp [found] at stored₁

theorem wp_casJobStatus {current target : JobStatus}
    {Q : Except Failure Bool → Option MarketTx → Db → Prop}
    (missed : ∀ d' t', P.Rely me t.locks d d' → Tx.Grows t t' [] → Q (.ok false) (some t') d')
    (set : ∀ d' t', P.Rely me t.locks d d' → Tx.Grows t t' [.jobStatus jobId target] →
      .job jobId ∈ t'.locks → d'.jobIn jobId [current] → Q (.ok true) (some t') d') :
    Call.wp P me Q (casJobStatus jobId current target) (some t) d := by
  refine Call.stmt_inTx (fun d' t' ws a rely _ result grows locks => ?_)
    (fun d' e rely _ result => ?_) <;>
    rw [job_applyAll untouched] at result <;>
    cases found : d'.job jobId <;> simp only [found] at result <;> try cases result
  · exact missed d' t' rely grows
  · split at result <;> cases result
    next job same =>
      refine set d' t' rely grows (locks _ List.mem_cons_self _ (by simp [Write.keys])) ?_
      exact ⟨job, found, by simp [same]⟩
    next => exact missed d' t' rely grows
  · split at result <;> cases result

theorem wp_jobTransition {action : JobAction} {actor : TransitionActor}
    {Q : Except Failure JobTransitionResult → Option MarketTx → Db → Prop}
    (fails : ∀ e d' t', P.Rely me t.locks d d' → Tx.Grows t t' [] →
      (∀ s a m, e = .jobInvalidTransition s a m → (d.job jobId).isSome →
        .job jobId ∈ t'.locks ∧ d'.jobIn jobId [s]) → Q (.error e) (some t') d')
    (moves : ∀ d' t' record result, P.Rely me t.locks d d' →
      Tx.Grows t t' [.jobStatus jobId action.target, .jobTransition record] →
      .job jobId ∈ t'.locks → d'.jobIn jobId action.sources →
      record.Follows d' jobId action.target → Q (.ok result) (some t') d') :
    Call.wp P me Q (jobTransition jobId action actor) (some t) d := by
  rw [jobTransition, Call.wp_bind]
  refine wp_lockJob untouched fun d₁ t₁ rely₁ grows₁ locked => ?_
  rw [Call.andThen_ok]
  cases found : d₁.job jobId with
  | none => exact fails _ d₁ t₁ rely₁ grows₁ (by simp)
  | some job =>
    simp only
    cases allowed : jobCanTransition job.status action actor job.customerId with
    | error e =>
      refine fails e d₁ t₁ rely₁ grows₁ ?_
      rintro s a m rfl stored
      exact ⟨locked stored, job, found, by simp [jobCanTransition_error allowed]⟩
    | ok rule =>
      obtain ⟨source, target, listed⟩ := jobCanTransition_ok allowed
      simp only [Call.wp_bind]
      have untouched₁ : ∀ w ∈ t₁.writes, .job jobId ∉ w.keys := by rwa [grows₁.same]
      refine wp_casJobStatus untouched₁ (fun d₂ t₂ rely₂ grows₂ => ?_)
        fun d₂ t₂ rely₂ grows₂ held jobIn => ?_
      · exact fails _ d₂ t₂ (grows₁.rely rely₁ rely₂) (grows₁.trans grows₂) (by simp)
      · simp only [Call.andThen_ok, if_true, query, step, Call.wp_bind, Call.wp_read, Tx.held_some]
        intro d₃ rely₃ _
        refine Call.stmt_inTx (fun d₄ t₄ ws a rely₄ _ result grows₄ _ => ?_)
          (fun d₄ e rely₄ _ result => ?_) <;> cases result
        have rely := grows₁.rely rely₁ (grows₂.rely rely₂ (rely₃.trans rely₄))
        have grows := (grows₁.trans grows₂).trans grows₄
        rw [target] at grows
        obtain ⟨job', stored, same⟩ := jobIn_of_rely (rely₃.trans rely₄) held jobIn
        have unmoved := List.mem_singleton.mp same
        refine moves d₄ t₄ _ _ rely grows (grows₄.kept _ held) ⟨job', stored, unmoved ▸ source⟩ ?_
        refine ⟨rfl, ⟨job', stored, by rw [unmoved]⟩, rfl, ?_⟩
        simp [JobTransition.Legal, listed, target]

/-- A job transition inside a transaction that carries on when the job is ahead already. -/
theorem wp_unlessInvalidFrom {ignored : List JobStatus} {action : JobAction}
    {actor : TransitionActor} {Q : Except Failure Bool → Option MarketTx → Db → Prop}
    (drops : Call.Drops Q)
    (kept : ∀ d' t', P.Rely me t.locks d d' → Tx.Grows t t' [] →
      ((d.job jobId).isSome → .job jobId ∈ t'.locks ∧ d'.jobIn jobId ignored) →
      Q (.ok false) (some t') d')
    (moves : ∀ d' t' record, P.Rely me t.locks d d' →
      Tx.Grows t t' [.jobStatus jobId action.target, .jobTransition record] →
      .job jobId ∈ t'.locks → d'.jobIn jobId action.sources →
      record.Follows d' jobId action.target → Q (.ok true) (some t') d') :
    Call.wp P me Q (unlessInvalidFrom ignored (jobTransition jobId action actor))
      (some t) d := by
  rw [unlessInvalidFrom, Call.wp_bind, Call.wp_attempt]
  refine wp_jobTransition untouched (fun e d' t' rely grows invalid => ?_)
    fun d' t' record result rely grows held jobIn follows => ?_
  · rw [Call.andThen_ok]
    cases e with
    | jobInvalidTransition s a m =>
      simp only
      split
      next skipped =>
        refine kept d' t' rely grows fun stored => ?_
        obtain ⟨held, job, found, same⟩ := invalid s a m rfl stored
        exact ⟨held, job, found, List.mem_singleton.mp same ▸ skipped⟩
      next => exact drops _ _ _
    | _ => exact drops _ _ _
  · exact moves d' t' record rely grows held jobIn follows

end JobTransitions

theorem Conforms.unlessInvalidFrom {α : Type} {me : Nat} {ignored : List JobStatus} {body : Service α}
    (conforms : Conforms me body) : Conforms me (unlessInvalidFrom ignored body) := by
  refine Call.Safe.bind conforms.attempt fun result => ?_
  cases result with
  | ok a => exact .pure _
  | error e =>
    cases e with
    | jobInvalidTransition s a m =>
      simp only
      split
      · exact .pure _
      · exact .throw _
    | _ => exact .throw _

theorem Conforms.assertPolicy {me : Nat} (decision : Except Failure Unit) :
    Conforms me (assertPolicy decision) := by
  cases decision with
  | ok _ => exact .pure _
  | error e => exact .throw _

theorem wp_assertPolicy {P : Protocol Label Db} {me : Nat} {decision : Except Failure Unit}
    {tx : Option MarketTx} {d : Db} {Q : Except Failure Unit → Option MarketTx → Db → Prop}
    (drops : Call.Drops Q) (done : decision = .ok () → Q (.ok ()) tx d) :
    Call.wp P me Q (assertPolicy decision) tx d := by
  cases decision with
  | ok _ => exact done rfl
  | error e => exact drops e tx d

theorem Conforms.addDispatchJob {me : Nat} (data : DispatchJobData) :
    Conforms me (addDispatchJob data) := by
  intro d
  rw [Market.addDispatchJob, Call.wp_bind, Call.wp_choose]
  intro d' _ reachable
  cases reachable with
  | false => rfl
  | true => exact fun d'' _ _ => ⟨does_of_commit (.quiet (by simp [Write.quiet])), rfl⟩

/-! ### Creation -/

section Creation

variable {me : Nat} {t : MarketTx} {d : Db}

theorem insertRequirement_ok {jobId : Id} {r : NewRequirement} {d : Db} {ws : List Write}
    (inserted : insertRequirement jobId r d = .ok (ws, ())) :
    d.requirement r.id = none ∧ 0 < r.workerCountNeeded ∧ (∃ j, d.job jobId = some j) ∧
      ws = [.insertRequirement (r.row jobId)] := by
  simp only [insertRequirement] at inserted
  split at inserted
  · cases inserted
  next fresh =>
    split at inserted
    · cases inserted
    next positive =>
      split at inserted
      · cases inserted
      next stored =>
        simp only [Except.ok.injEq, Prod.mk.injEq, and_true] at inserted
        refine ⟨by simpa using fresh, by omega, ?_, inserted.symm⟩
        exact Option.ne_none_iff_exists'.mp (by simpa using stored)

theorem wp_insertRequirements {Q : Except Failure Unit → Option MarketTx → Db → Prop}
    (drops : Call.Drops Q) (jobId : Id) (reqs : List NewRequirement)
    (done : ∀ d' t', protocol.Rely me t.locks d d' →
      Tx.Grows t t' ((reqs.map (·.row jobId)).map .insertRequirement) →
      (∀ r ∈ reqs, 0 < r.workerCountNeeded) → Q (.ok ()) (some t') d')
    (consistent : Consistent d) :
    Call.wp protocol me Q (Call.each reqs fun r => step (insertRequirement jobId r)) (some t) d := by
  induction reqs generalizing t d with
  | nil => exact done d t (.refl consistent) (.refl t) (by simp)
  | cons r reqs ih =>
    rw [Call.each, Call.wp_bind]
    refine Call.stmt_inTx (fun d₁ t₁ ws _ rely₁ _ result grows₁ _ => ?_) fun _ _ _ _ _ => drops _ _ _
    obtain ⟨-, positive, -, rfl⟩ := insertRequirement_ok result
    refine ih (fun d₂ t₂ rely₂ grows₂ rest => ?_) (consistent_of_rely rely₁)
    refine done d₂ t₂ (grows₁.rely rely₁ rely₂) (grows₁.trans grows₂) ?_
    exact List.forall_mem_cons.mpr ⟨positive, rest⟩

theorem row_created (jobId : Id) (r : NewRequirement) (positive : 0 < r.workerCountNeeded) :
    (r.row jobId).jobId = jobId ∧ (r.row jobId).status = .OPEN ∧
      (r.row jobId).workerCountFilled = 0 ∧ 0 < (r.row jobId).workerCountNeeded := by
  refine ⟨rfl, rfl, rfl, ?_⟩
  simp only [NewRequirement.row]
  omega

theorem insertJob_conforms (job : Job) (reqs : List NewRequirement) (opened : job.status = .OPEN) :
    Conforms me (Call.transaction (fun _ => .jobCreated job (reqs.map (·.row job.id)))
      (insertJob job reqs)) := by
  refine Conforms.transaction fun d => ?_
  rw [insertJob, Call.wp_bind]
  refine Call.stmt_inTx (fun d₁ t₁ ws _ rely₁ _ result grows₁ locks₁ => ?_) fun _ _ _ _ _ => trivial
  by_cases taken : (d₁.job job.id).isSome = true
  · simp [taken] at result
  · simp only [applyAll_nil, taken] at result
    cases result
    have held : .job job.id ∈ t₁.locks := locks₁ _ List.mem_cons_self _ (by simp [Write.keys])
    rw [Call.andThen_ok, Call.wp_bind]
    refine Call.stmt_inTx (fun d₂ t₂ ws _ rely₂ _ result grows₂ _ => ?_) fun _ _ _ _ _ => trivial
    cases result
    refine wp_insertRequirements (by simp) job.id reqs (fun d₃ t₃ rely₃ grows₃ positive => ?_)
      (consistent_of_rely rely₂)
    intro d₄ rely₄
    have absent : d₄.job job.id = none := by
      have rely := grows₂.rely rely₂ (grows₃.rely rely₃ rely₄)
      rw [job_of_rely rely held]
      simpa using taken
    rw [grows₃.writes, grows₂.writes, grows₁.writes]
    refine does_of_commit (.jobCreated absent opened ?_ ⟨rfl, rfl, rfl, rfl, rfl⟩)
    simp only [List.mem_map, forall_exists_index, and_imp, forall_apply_eq_imp_iff₂]
    exact fun r member => row_created job.id r (positive r member)

/-- The rows an UPDATE selects, as the transaction that locks them finds them. -/
theorem mem_selected {d : Db} (consistent : Consistent d) {select : Requirement → Bool} {id : Id}
    (member : id ∈ (d.requirements.filter select).map (·.id)) :
    ∃ r, d.requirement id = some r ∧ select r = true := by
  obtain ⟨r, selected, rfl⟩ := List.mem_map.mp member
  obtain ⟨present, holds⟩ := List.mem_filter.mp selected
  exact ⟨r, Table.find_of_mem consistent.wf.requirementIds present, holds⟩

theorem startDispatch_conforms (jobId : Id) :
    Conforms me (Call.transaction (fun _ => .dispatchStarted jobId) (startDispatch jobId)) := by
  refine Conforms.transaction fun d => ?_
  rw [startDispatch, Call.wp_bind]
  refine wp_jobTransition (by simp) (fun _ _ _ _ _ _ => trivial)
    fun d₁ t₁ record _ rely₁ grows₁ held jobIn follows => ?_
  rw [Call.andThen_ok]
  refine Call.stmt_inTx (fun d₂ t₂ ws _ rely₂ _ result grows₂ locks₂ => ?_) fun _ _ _ _ _ => trivial
  rw [grows₁.writes] at result
  cases result
  intro d₃ rely₃
  rw [grows₂.writes, grows₁.writes]
  have since := grows₂.rely rely₂ rely₃
  refine does_of_commit (.dispatchStarted (jobIn_of_rely since held jobIn) ?_
    (follows_of_rely since held follows))
  intro id member
  obtain ⟨r, found, selected⟩ := mem_selected (consistent_of_rely rely₂) member
  have locked := locks₂ _ List.mem_cons_self (.requirement id) (List.mem_map_of_mem member)
  exact ⟨r, (requirement_of_rely rely₃ locked).trans found, by simpa using selected⟩

theorem createJob_conforms (jobId customerId : Id) (payload : CreateJobReq) :
    Conforms me (createJob jobId customerId payload) := by
  rw [createJob]
  split
  · exact .throw _
  next latitude longitude _ =>
    refine (insertJob_conforms _ payload.requirements rfl).bind fun _ => ?_
    refine Call.Safe.bind (.read _ _) fun reqs => ?_
    refine (startDispatch_conforms jobId).unlessInvalidFrom.bind fun _ => ?_
    refine .each fun r => ?_
    exact (Conforms.addDispatchJob _).attempt.bind fun _ => .pure _

theorem createJobReq_conforms (jobId : Id) (payload : NewRequirement)
    (actor : Option AuthenticatedUser) : Conforms me (createJobReq jobId payload actor) := by
  cases actor with
  | none => exact .throw _
  | some actor =>
    refine Call.Safe.bind (.read _ _) fun found => ?_
    cases found with
    | none => exact .throw _
    | some job =>
      refine (Conforms.assertPolicy _).bind fun _ => ?_
      split
      · exact .throw _
      · refine .stmt fun d ws _ _ _ result => ?_
        obtain ⟨fresh, positive, stored, rfl⟩ := insertRequirement_ok result
        obtain ⟨-, opened, unfilled, needed⟩ := row_created jobId payload positive
        exact does_of_commit (.requirementCreated opened unfilled needed fresh stored)

end Creation

/-! ### Demand -/

section Demand

variable {me : Nat} {t : MarketTx} {d : Db}

theorem setDemand_ok {id : Id} {needed : Nat} {status : RequirementStatus} {d : Db}
    {ws : List Write} (set : setDemand id needed status d = .ok (ws, ())) :
    ∃ row, d.requirement id = some row ∧ row.workerCountFilled ≤ needed ∧
      ws = [.requirementNeeded id needed, .requirementStatus [id] status] := by
  simp only [setDemand] at set
  split at set
  · cases set
  next row found =>
    split at set
    · cases set
    next enough =>
      simp only [Except.ok.injEq, Prod.mk.injEq, and_true] at set
      exact ⟨row, found, by omega, set.symm⟩

theorem wp_updateDemand {id : Id} {needed : Int} {actor : AuthenticatedUser}
    {Q : Except Failure Requirement → Option MarketTx → Db → Prop} (drops : Call.Drops Q)
    (fresh : t.writes = [])
    (done : ∀ d' t' seen row, protocol.Rely me t.locks d d' →
      t'.writes = [.requirementNeeded id needed.toNat,
        .requirementStatus [id] (demandStatus seen.status ⟨needed.toNat, seen.workerCountFilled⟩)] →
      .requirement id ∈ t'.locks → d'.requirement id = some row →
      row.workerCountFilled ≤ needed.toNat → 0 < needed.toNat → seen.status ≠ .CANCELLED →
      seen.workerCountFilled ≤ needed.toNat → seen.jobId = row.jobId → Q (.ok seen) (some t') d') :
    Call.wp protocol me Q (updateDemand id needed actor) (some t) d := by
  rw [updateDemand]
  split
  · exact drops _ _ _
  next positive =>
    simp only [query, step, Call.wp_bind, Call.wp_read, Tx.view_some, Tx.held_some, fresh,
      applyAll_nil]
    intro d₁ rely₁ _
    cases found : d₁.requirement id with
    | none => exact drops _ _ _
    | some seen =>
      simp only [Option.map_some, Call.andThen_ok]
      split
      · exact drops _ _ _
      · split
        · exact drops _ _ _
        next active =>
          split
          · exact drops _ _ _
          next enoughSeen =>
            rw [Call.wp_bind]
            refine Call.stmt_inTx (fun d₂ t₂ ws _ rely₂ _ result grows₂ locks₂ => ?_)
              fun _ _ _ _ _ => drops _ _ _
            rw [fresh] at result
            obtain ⟨row, stored, enough, rfl⟩ := setDemand_ok result
            obtain ⟨row', found', owned⟩ := (later_of_rely rely₂).requirement found
            obtain rfl := Option.some.inj (found'.symm.trans stored)
            refine done d₂ t₂ seen row' (rely₁.trans rely₂) (by rw [grows₂.writes, fresh]; rfl)
              (locks₂ _ List.mem_cons_self _ (by simp [Write.keys])) stored enough (by omega) active
              (by omega) owned.symm

theorem updateRequirementDemand_conforms (jobId requirementId : Id) (needed : Int)
    (actor : Option AuthenticatedUser) :
    Conforms me (updateRequirementDemand jobId requirementId needed actor) := by
  cases actor with
  | none => exact .throw _
  | some actor =>
    refine Conforms.transaction fun d => ?_
    simp only [query, Call.wp_bind, Call.wp_read, Tx.view_some, Tx.held_some, applyAll_nil]
    intro d₁ rely₁ _
    rw [Call.andThen_ok]
    split
    · trivial
    next customerId _ =>
      rw [Call.wp_bind]
      refine wp_assertPolicy (by simp) fun _ => ?_
      refine wp_updateDemand (by simp) rfl
        fun d₂ t₂ seen row rely₂ writes held stored enough positive active enoughSeen owned => ?_
      intro d₃ rely₃
      rw [writes]
      exact does_of_commit (.demandUpdated ((requirement_of_rely rely₃ held).trans stored) enough
        positive active enoughSeen owned)

end Demand

/-! ### Cancellation -/

section Cancellation

variable {me : Nat} {t : MarketTx} {d : Db}

theorem wp_setOffers {select : Dispatch → Bool} {status : DispatchStatus}
    {Q : Except Failure Nat → Option MarketTx → Db → Prop}
    (done : ∀ d' t' offers n, protocol.Rely me t.locks d d' →
      Tx.Grows t t' [.dispatchStatus offers status] → Q (.ok n) (some t') d') :
    Call.wp protocol me Q (setOffers select status) (some t) d := by
  rw [setOffers, step]
  refine Call.stmt_inTx (fun d' t' ws n rely _ result grows _ => ?_) (fun _ _ _ _ result => ?_) <;>
    cases result
  exact done d' t' _ _ rely grows

/-- A loop of statements none of which writes anything but quiet columns. -/
theorem wp_cancelOffers {reqs : List Requirement} {select : Requirement → Dispatch → Bool}
    {Q : Except Failure Unit → Option MarketTx → Db → Prop} (consistent : Consistent d)
    (done : ∀ d' t' ws, protocol.Rely me t.locks d d' → Tx.Grows t t' ws →
      (∀ w ∈ ws, w.quiet = true) → Q (.ok ()) (some t') d') :
    Call.wp protocol me Q (Call.each reqs fun r => (do
      let _ ← setOffers (select r) .cancelled
      pure () : Service Unit)) (some t) d := by
  induction reqs generalizing t d with
  | nil => exact done d t [] (.refl consistent) (.refl t) (by simp)
  | cons r reqs ih =>
    simp only [Call.each, Call.wp_bind]
    refine wp_setOffers fun d₁ t₁ offers n rely₁ grows₁ => ?_
    refine ih (consistent_of_rely rely₁) fun d₂ t₂ ws rely₂ grows₂ still => ?_
    refine done d₂ t₂ _ (grows₁.rely rely₁ rely₂) (grows₁.trans grows₂) ?_
    exact List.forall_mem_cons.mpr ⟨rfl, still⟩

theorem cancelJob_conforms (jobId : Id) (actor : TransitionActor) :
    Conforms me (cancelJob jobId actor) := by
  refine Conforms.transaction fun d => ?_
  rw [Call.wp_bind]
  refine wp_jobTransition (by simp) (fun _ _ _ _ _ _ => trivial)
    fun d₁ t₁ record _ rely₁ grows₁ held jobIn follows => ?_
  rw [Call.andThen_ok, Call.wp_bind]
  refine Call.stmt_inTx (fun d₂ t₂ ws _ rely₂ _ result grows₂ locks₂ => ?_) fun _ _ _ _ _ => trivial
  rw [grows₁.writes] at result
  cases result
  simp only [query, Call.andThen_ok, Call.wp_bind, Call.wp_read, Tx.view_some, Tx.held_some]
  intro d₃ rely₃ _
  refine wp_cancelOffers (consistent_of_rely rely₃) fun d₄ t₄ ws rely₄ grows₄ still => ?_
  intro d₅ rely₅
  have rely := rely₃.trans (grows₄.rely rely₄ rely₅)
  rw [grows₄.writes, grows₂.writes, grows₁.writes]
  have since := grows₂.rely rely₂ rely
  refine does_of_commit (.jobCancelled (jobIn_of_rely since held jobIn) ?_ still
    (follows_of_rely since held follows))
  intro id member
  obtain ⟨r, found, selected⟩ := mem_selected (consistent_of_rely rely₂) member
  have locked := locks₂ _ List.mem_cons_self (.requirement id) (List.mem_map_of_mem member)
  exact ⟨r, (requirement_of_rely rely locked).trans found, by simpa using selected⟩

end Cancellation

end LabourBaba.Market
