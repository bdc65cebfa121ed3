import LabourBaba.Market.WaveBook

/-!
# Dispatch calls keep the wave book

The calls that create, close or announce waves, verified against `bookProtocol` one by one;
all others spare waves, offers and queues. Declines and timeouts close a wave before they
announce the next one, and count on it getting no further offer; the scan announces the next
wave from inside its transaction, on the strength of the wave's own timeout.
-/
namespace LabourBaba.Market

open Store

variable {cfg : Config} {me : Nat} {d d' : Db}

/-! ### Commits that spare the book -/

theorem fits_of_spares {w : Write} (spares : w.sparesDispatch = true) : Fits cfg d w := by
  cases w with
  | insertWave _ | exhaustWave _ _ | insertDispatch _ | addDispatchJob _ | addTimeoutJob _ =>
    cases spares
  | dispatchStatus offers s =>
    have closes : s ≠ .pending := of_decide_eq_true spares
    exact closes
  | _ => trivial

theorem fitsAll_of_spares {ws : List Write} (spares : ∀ w ∈ ws, w.sparesDispatch = true) :
    FitsAll cfg ws d := by
  induction ws generalizing d with
  | nil => trivial
  | cons w ws ih =>
    have rest : ∀ v ∈ ws, v.sparesDispatch = true := fun v member =>
      spares v (List.mem_cons_of_mem _ member)
    exact ⟨fits_of_spares (spares w List.mem_cons_self), ih rest⟩

/-- The label is not the scan's giving up. -/
def Label.keepsOn (ℓ : Label) : Prop := ∀ r, ℓ ≠ .reconciled r (some .NO_WORKERS_AVAILABLE)

theorem does_of_fits {ℓ : Label} {ws : List Write} (keepsOn : ℓ.keepsOn) (fits : FitsAll cfg ws d)
    (noOffer : ∀ x, .insertDispatch x ∉ ws) : (bookProtocol cfg).Does me ℓ d (applyAll ws d) :=
  does_of_waveCommit ⟨fits, fun x member => absurd member (noOffer x),
    fun r same => absurd same (keepsOn r)⟩

theorem does_of_spares {ℓ : Label} {ws : List Write} (keepsOn : ℓ.keepsOn)
    (spares : ∀ w ∈ ws, w.sparesDispatch = true) :
    (bookProtocol cfg).Does me ℓ d (applyAll ws d) := by
  refine does_of_fits keepsOn (fitsAll_of_spares spares) fun x member => ?_
  cases spares _ member

/-- Calls outside dispatch. -/
theorem safe_of_spares {α : Type} {c : Service α}
    (emits : Call.Emits (fun w => w.sparesDispatch = true) Label.keepsOn false c) :
    Call.Safe (bookProtocol cfg) me c :=
  emits.safe fun _ _ _ keepsOn _ _ spares => does_of_spares keepsOn spares

/-! ### Statements of the dispatch calls -/

section Statements

variable {tx : Option MarketTx}

/-- Adding to a queue, inside a transaction or outside. -/
theorem wp_enqueueFitting {w : Unlocked Db} {Q : Except Failure Unit → Option MarketTx → Db → Prop}
    (fits : ∀ d', Ahead d d' → Fits cfg d' w.val)
    (fails : ∀ d', (bookProtocol cfg).Rely me (Tx.held tx) d d' → Q (.error .queueUnavailable) tx d')
    (done : ∀ d', (bookProtocol cfg).Rely me (Tx.held tx) d d' → Q (.ok ()) tx d') :
    Call.wp (bookProtocol cfg) me Q (do
      let reachable ← Call.choose
      if reachable then Call.send .enqueued fun _ => ([w], ())
      else throw .queueUnavailable) tx d := by
  rw [Call.wp_bind, Call.wp_choose]
  intro d₁ rely₁ reachable
  cases reachable with
  | false => exact fails d₁ rely₁
  | true =>
    intro d₂ rely₂ _
    have rely := rely₁.trans rely₂
    have commit : WaveCommit cfg .enqueued d₂ [w.val] := by
      refine ⟨⟨fits d₂ rely.evo, trivial⟩, fun x member => ?_, fun r same => by cases same⟩
      -- an offer has a row, so it is no entry of a queue
      have unlocked := w.property
      rw [← List.mem_singleton.mp member] at unlocked
      cases unlocked
    refine ⟨does_of_waveCommit commit, done _ (rely.trans ⟨?_, ?_, ?_, ?_⟩)⟩
    · exact Ahead.of_commit commit
    · exact WaveBook.applyAll rely.inv commit.fits
    · intro k _
      refine row_applyAll _ _ _ fun v member => ?_
      rw [List.mem_singleton.mp member, w.property]
      simp
    · exact fun _ _ => Protocol.Lax.keeps _ _ _

theorem wp_announce {data : DispatchJobData} {Q : Except Failure Unit → Option MarketTx → Db → Prop}
    (due : d.waveDue cfg data.requirementId data.waveNumber)
    (fails : ∀ d', (bookProtocol cfg).Rely me (Tx.held tx) d d' → Q (.error .queueUnavailable) tx d')
    (done : ∀ d', (bookProtocol cfg).Rely me (Tx.held tx) d d' → Q (.ok ()) tx d') :
    Call.wp (bookProtocol cfg) me Q (addDispatchJob data) tx d :=
  wp_enqueueFitting (fun _ ahead => waveDue_later ahead.later ahead.now due) fails done

theorem wp_addTimeoutJob {data : TimeoutJobData}
    {Q : Except Failure Unit → Option MarketTx → Db → Prop}
    (stored : (d.wave data.requirementId data.waveNumber).isSome)
    (fails : ∀ d', (bookProtocol cfg).Rely me (Tx.held tx) d d' → Q (.error .queueUnavailable) tx d')
    (done : ∀ d', (bookProtocol cfg).Rely me (Tx.held tx) d d' → Q (.ok ()) tx d') :
    Call.wp (bookProtocol cfg) me Q (addTimeoutJob data) tx d :=
  wp_enqueueFitting (fun _ ahead => stored_later ahead.later stored) fails done

theorem noWorkers_safe (ℓ : Label) (keepsOn : ℓ.keepsOn) (requirementId : Id) :
    Call.Safe (bookProtocol cfg) me (Call.stmt ℓ (noWorkers requirementId) : Service Unit) := by
  refine .stmt fun d ws _ _ _ given => ?_
  obtain rfl := noWorkers_ok given
  exact does_of_spares keepsOn (by simp [Write.sparesDispatch])

/-- No offer of the wave is pending. -/
def Db.waveSettled (d : Db) (requirementId : Id) (waveNumber : Nat) : Prop :=
  ∀ x ∈ d.dispatches, x.requirementId = requirementId → x.waveNumber = waveNumber →
    x.status ≠ .pending

theorem waveSettled_ahead {r : Id} {n : Nat} (ahead : Ahead d d') (stored : (d.wave r n).isSome)
    (settled : d.waveSettled r n) : d'.waveSettled r n := by
  intro x member sameReq sameWave pending
  have wave : (d.wave x.requirementId x.waveNumber).isSome := by rwa [sameReq, sameWave]
  exact settled x (ahead.pending x member pending wave) sameReq sameWave pending

/-- Closing a settled wave and going on. -/
theorem wp_exhaustWave {r : Id} {n : Nat} {Q : Except Failure Unit → Option MarketTx → Db → Prop}
    (stored : (d.wave r n).isSome) (settled : d.waveSettled r n)
    (done : ∀ d', d'.waveOver cfg r n → Q (.ok ()) none d') :
    Call.wp (bookProtocol cfg) me Q (exhaustWave r n) none d := by
  rw [exhaustWave, Call.wp_stmt_alone]
  intro d₁ rely₁ _
  have ahead : Ahead d d₁ := rely₁.evo
  have stored₁ := stored_later ahead.later stored
  refine ⟨does_of_fits (by simp [Label.keepsOn]) ⟨?_, trivial⟩ (by simp), ?_⟩
  · exact waveSettled_ahead ahead stored settled
  · exact done _ (waveOver_exhausted stored₁)

end Statements

/-! ### Creation of a job -/

theorem createJob_keepsBook (jobId customerId : Id) (payload : CreateJobReq) :
    Call.Safe (bookProtocol cfg) me (createJob jobId customerId payload) := by
  have routine : ∀ w : Write, w.routine = true → w.sparesOffers = true → w.sparesDispatch = true :=
    fun w both _ => (Bool.and_eq_true_iff.mp both).2
  rw [createJob]
  split
  · exact .throw _
  · refine Call.Safe.bind (safe_of_spares (.transaction ?_ (insertJob_plain routine _ _).emits))
      fun _ => Call.Safe.bind (.read _ _) fun created => ?_
    · simp [Label.keepsOn]
    · have started : Call.Safe (bookProtocol cfg) me (unlessInvalidFrom [.DISPATCHING]
          (Call.transaction (fun _ => .dispatchStarted jobId) (startDispatch jobId))) := by
        refine safe_of_spares (unlessInvalidFrom_emits _ (.transaction ?_
          (startDispatch_plain routine jobId).emits))
        simp [Label.keepsOn]
      refine Call.Safe.bind started fun _ => .each fun r => ?_
      have announced : Call.Safe (bookProtocol cfg) me
          (addDispatchJob { requirementId := r.id, jobId }) :=
        fun d => wp_announce ⟨Nat.le_refl 1, by simp⟩ (fun _ _ => rfl) fun _ _ => rfl
      exact announced.attempt.bind fun _ => .pure _

/-! ### Declines and timeouts -/

theorem declineDispatch_keepsBook (requirementId workerId : Id) :
    Call.Safe (bookProtocol cfg) me (declineDispatch cfg requirementId workerId) := by
  have offers : ∀ keys status, status ≠ .pending →
      (Write.dispatchStatus keys status).sparesDispatch = true :=
    fun _ _ closes => decide_eq_true closes
  refine Call.Safe.bind (safe_of_spares (.transaction ?_ (.bind (setOffers_plain offers _ ?_).emits
    fun _ => .stmt (.inl rfl) ?_))) fun _ => ?_
  · simp [Label.keepsOn]
  · simp
  · rintro d ws a ⟨⟩
    simp [Write.sparesDispatch]
  · intro d
    simp only [query, Call.wp_bind, Call.wp_read, Tx.view_none]
    intro d₁ rely₁ _
    rw [Call.andThen_ok]
    cases offer : d₁.dispatch requirementId workerId with
    | none => rfl
    | some x =>
      -- the worker's own offer names a wave that is stored
      obtain ⟨w, found, -⟩ := WaveBook.offers rely₁.inv x (Table.mem_of_find offer)
      have named : x.key = (requirementId, workerId) := Table.find_key offer
      have mine : x.requirementId = requirementId := congrArg Prod.fst named
      rw [mine] at found
      simp only [Call.wp_bind, Call.wp_read, Tx.view_none]
      intro d₂ rely₂ _
      have stored₂ := stored_later (later_of_rely rely₂) (Option.isSome_iff_exists.mpr ⟨w, found⟩)
      rw [Call.andThen_ok]
      split
      next none =>
        have settled : d₂.waveSettled requirementId x.waveNumber := by
          intro y member sameReq sameWave pending
          have counted := List.countP_eq_zero.mp none y member
          simp [sameReq, sameWave, pending] at counted
        simp only [Call.wp_bind, Call.wp_read, Tx.view_none]
        intro d₃ rely₃ _
        have ahead : Ahead d₂ d₃ := rely₃.evo
        rw [Call.andThen_ok]
        cases d₃.requirement requirementId with
        | none => rfl
        | some req =>
          simp only [Call.wp_bind]
          refine wp_exhaustWave (stored_later ahead.later stored₂)
            (waveSettled_ahead ahead stored₂ settled) fun d₄ ended => ?_
          rw [Call.andThen_ok]
          split
          · rw [Call.wp_bind, Call.wp_attempt]
            exact wp_announce ⟨by simp, fun _ => ended⟩ (fun _ _ => rfl) fun _ _ => rfl
          · exact noWorkers_safe _ (by simp [Label.keepsOn]) _ d₄
      next => rfl

/-- Giving the offers that were pending when the statement ran another status settles their
wave, also when the statement commits later. -/
theorem waveSettled_of_timeout {r : Id} {n : Nat} {s : DispatchStatus} (closes : s ≠ .pending)
    (ahead : Ahead d d') (stored : (d.wave r n).isSome) {select : Dispatch → Bool}
    (selects : ∀ x, x.requirementId = r → x.waveNumber = n → x.status = .pending → select x = true) :
    (applyAll [.dispatchStatus ((d.dispatches.filter select).map (·.key)) s] d').waveSettled r n := by
  intro x member sameReq sameWave pending
  obtain ⟨old, present, rfl⟩ := Table.mem_modify.mp member
  split at pending
  next => exact closes pending
  next spared =>
    rw [if_neg spared] at sameReq sameWave
    have wave : (d.wave old.requirementId old.waveNumber).isSome := by rwa [sameReq, sameWave]
    have seen := ahead.pending old present pending wave
    refine spared (List.mem_map.mpr ⟨old, List.mem_filter.mpr ⟨seen, ?_⟩, rfl⟩)
    exact selects old sameReq sameWave pending

theorem processTimeoutJob_keepsBook (data : TimeoutJobData) :
    Call.Safe (bookProtocol cfg) me (processTimeoutJob cfg data) := by
  refine Call.Safe.bind (.read _ _) fun found => ?_
  cases found with
  | none => exact .pure _
  | some req =>
    simp only
    split
    · exact .pure _
    · intro d
      rw [Call.wp_bind, Call.wp_stmt_alone]
      intro d₁ rely₁ pre
      have queued : ∃ q ∈ d₁.timeoutQueue, q.key = data.key := by
        simpa [bookProtocol, delivered, TimeoutJobData.key] using pre
      obtain ⟨q, member, same⟩ := queued
      obtain ⟨sameReq, sameWave⟩ := Prod.mk.inj same
      have stored₁ := WaveBook.timeouts rely₁.inv q member
      rw [sameReq, sameWave] at stored₁
      refine ⟨does_of_spares (by simp [Label.keepsOn]) (by simp [Write.sparesDispatch]), ?_⟩
      rw [Call.andThen_ok, Call.wp_bind]
      refine wp_exhaustWave (stored_later (Later.applyAll _ _) stored₁) (waveSettled_of_timeout
        (by simp) (Ahead.refl d₁) stored₁ fun x sameReq sameWave pending => ?_) fun d₂ ended => ?_
      · simp [sameReq, sameWave, pending]
      rw [Call.andThen_ok]
      split
      · exact noWorkers_safe _ (by simp [Label.keepsOn]) _ d₂
      · exact wp_announce ⟨by simp, fun _ => ended⟩ (fun _ _ => rfl) fun _ _ => rfl

/-! ### Waves -/

section Waves

variable {r : Id} {n : Nat}

theorem fitsAll_append {ws vs : List Write} (first : FitsAll cfg ws d)
    (second : FitsAll cfg vs (applyAll ws d)) : FitsAll cfg (ws ++ vs) d := by
  induction ws generalizing d with
  | nil => exact second
  | cons w ws ih => exact ⟨first.1, ih first.2 second⟩

theorem wave_inserted {w : Wave} (absent : d.wave w.requirementId w.waveNumber = none) :
    ((Write.insertWave w).apply d).wave w.requirementId w.waveNumber = some w := by
  have free : ∀ old ∈ d.waves, Wave.clash w old = false := by
    intro old member
    have other : old.key ≠ w.key := Table.find_none_iff.mp absent old member
    simpa [Wave.clash] using fun same => other same.symm
  have lookup : Table.find Wave.key d.waves w.key = none := absent
  show Table.find Wave.key (Table.insert Wave.clash d.waves w) w.key = some w
  rw [Table.insert_of_free free, Table.find_append, lookup, Table.find_cons]
  simp

/-- The offers of a wave that is stored and active. -/
theorem fitsAll_offers {w : Wave} {offers : List Dispatch} (found : d.wave r n = some w)
    (active : w.status = .active)
    (rows : ∀ x ∈ offers, (x.requirementId = r ∧ x.waveNumber = n) ∧
      ∀ e ∈ x.expiresAt, e ≤ w.notifiedAt + cfg.timeoutMs) :
    FitsAll cfg (offers.map .insertDispatch) d := by
  induction offers generalizing d with
  | nil => trivial
  | cons x offers ih =>
    obtain ⟨⟨sameReq, sameWave⟩, early⟩ := rows x List.mem_cons_self
    refine ⟨⟨w, ?_, fun _ => ⟨active, early⟩⟩, ih (wave_write found (by simp)) fun y member => ?_⟩
    · rwa [sameReq, sameWave]
    · exact rows y (List.mem_cons_of_mem _ member)

theorem executeWrites_keepsBook {waveSize expiresAt : Nat} {workers : List Id}
    (due : d.waveDue cfg r n) (bound : n ≤ cfg.maxWaves) (positive : 0 < cfg.workerMultiplier)
    (early : expiresAt ≤ d.now + cfg.timeoutMs) :
    Call.wp (bookProtocol cfg) me
      (fun result tx d => tx = none ∧ (result = .ok () → (d.wave r n).isSome))
      (Call.transaction (fun _ => .waveCommitted r n)
        (executeWrites r n waveSize workers expiresAt)) none d := by
  simp only [executeWrites, query, step, Call.wp_transaction, Call.wp_bind, Call.wp_read,
    Call.andThen_ok, Tx.view_some, applyAll_nil]
  intro d₁ rely₁ d₂ rely₂ _
  have fails : ∀ (e : Failure) (t : MarketTx) (d₃ : Db), Call.atEnd (bookProtocol cfg) me
      (fun _ => .waveCommitted r n) (fun (result : Except Failure Unit) tx (d : Db) => tx = none ∧
        (result = .ok () → (d.wave r n).isSome)) (.error e) (some t) d₃ :=
    fun _ _ _ _ _ => ⟨rfl, by simp⟩
  refine Call.stmt_inTx (fun d₃ t₃ ws _ rely₃ _ result grows₃ locks₃ => ?_)
    fun _ _ _ _ _ => fails _ _ _
  obtain ⟨fresh, rfl⟩ := insertWave_ok result
  have held := locks₃ _ List.mem_cons_self (.wave r n) (by simp [Write.keys])
  rw [Call.andThen_ok, Call.wp_bind]
  refine Call.stmt_inTx (fun d₄ t₄ ws _ rely₄ _ result grows₄ _ => ?_) fun _ _ _ _ _ => fails _ _ _
  cases result
  refine Call.stmt_inTx (fun d₅ t₅ ws _ rely₅ _ result grows₅ _ => ?_) fun _ _ _ _ _ => fails _ _ _
  cases result
  intro d₆ rely₆ _
  have since := grows₄.rely rely₄ (grows₅.rely rely₅ rely₆)
  have absent : d₆.wave r n = none := (since.rows (.wave r n) held).trans fresh
  have sinceRead : Ahead d d₂ := rely₁.evo.trans rely₂.evo
  have ahead : Ahead d d₆ := sinceRead.trans (rely₃.evo.trans since.evo)
  let wave : Wave := { requirementId := r, waveNumber := n, workersNotified := waveSize
                       status := .active, notifiedAt := d₂.now }
  have stored : ((Write.insertWave wave).apply d₆).wave r n = some wave := wave_inserted absent
  let offer : Id × Nat → Dispatch := fun p =>
    { requirementId := r, workerId := p.1, waveNumber := n, wavePosition := p.2 + 1
      status := .pending, expiresAt := some expiresAt }
  let offers := workers.zipIdx.map offer
  have rows : ∀ x ∈ offers, (x.requirementId = r ∧ x.waveNumber = n) ∧
      ∀ e ∈ x.expiresAt, e ≤ wave.notifiedAt + cfg.timeoutMs := by
    intro x member
    obtain ⟨⟨w, i⟩, -, rfl⟩ := List.mem_map.mp member
    have passed : d.now ≤ d₂.now := sinceRead.now
    refine ⟨⟨rfl, rfl⟩, ?_⟩
    rintro e ⟨⟩
    exact early.trans (Nat.add_le_add_right passed _)
  have inserts : ∀ insert : Id × Nat → Write, (∀ p, insert p = .insertDispatch (offer p)) →
      workers.zipIdx.map insert = offers.map .insertDispatch := by
    intro insert inserted
    simp [inserted, offers]
  have writes : t₅.writes = .insertWave wave :: offers.map .insertDispatch ++
      workers.map (fun w => .outbox (.incomingJob r n w)) := by
    rw [grows₅.writes, grows₄.writes, grows₃.writes, inserts _ fun _ => rfl]
    simp [wave]
  rw [Tx.view_some, writes]
  refine ⟨does_of_waveCommit ⟨?_, ?_, by simp⟩, rfl, fun _ => ?_⟩
  · -- the wave is due, its offers are those of an active wave, and notices spare the book
    refine fitsAll_append ⟨⟨waveDue_later ahead.later ahead.now due, bound, positive⟩, ?_⟩ ?_
    · exact fitsAll_offers stored rfl rows
    · exact fitsAll_of_spares (by simp [Write.sparesDispatch])
  · intro x member
    have offered : x ∈ offers := by simpa using member
    obtain ⟨⟨sameReq, sameWave⟩, -⟩ := rows x offered
    rw [sameReq, sameWave]
    exact ⟨absent, rfl⟩
  · have now : (((Write.insertWave wave).apply d₆).wave r n).isSome := by rw [stored]; rfl
    rw [List.cons_append, applyAll_cons]
    exact stored_later (Later.applyAll _ _) now

theorem persistWave_keepsBook {data : DispatchJobData} {plan : DispatchWavePlan} {workers : List Id}
    {final : Bool} (due : d.waveDue cfg data.requirementId data.waveNumber)
    (bound : data.waveNumber ≤ cfg.maxWaves) (positive : 0 < cfg.workerMultiplier)
    (timeout : plan.timeoutMs = cfg.timeoutMs) :
    Call.wp (bookProtocol cfg) me (fun _ tx _ => tx = none) (persistWave data plan workers final)
      none d := by
  simp only [persistWave, query, Call.wp_bind, Call.wp_read, Call.wp_attempt, Call.andThen_ok,
    Tx.view_none]
  intro d₁ rely₁ _
  have ahead : Ahead d d₁ := rely₁.evo
  refine Call.wp_mono ?_ (executeWrites_keepsBook (waveDue_later ahead.later ahead.now due) bound
    positive (by rw [timeout]))
  rintro result tx d₂ ⟨rfl, stored⟩
  cases result with
  | ok _ =>
    simp only [Call.wp_bind]
    exact wp_addTimeoutJob (stored rfl) (fun _ _ => rfl) fun _ _ => rfl
  | error e =>
    cases e with
    | uniqueViolation constraint =>
      simp only [Call.andThen_ok, Call.wp_bind, Call.wp_read, alreadyProcessed, query]
      exact fun _ _ _ _ _ _ => rfl
    | _ => rfl

theorem canDispatch_iff {needed filled wave : Nat} :
    (planDispatchWave cfg needed filled wave).canDispatch = true ↔
      wave ≤ cfg.maxWaves ∧ filled < needed ∧ 0 < cfg.workerMultiplier := by
  simp only [planDispatchWave, decide_eq_true_eq]
  constructor
  · rintro ⟨bound, room, target⟩
    exact ⟨bound, by omega, Nat.pos_of_mul_pos_left target⟩
  · rintro ⟨bound, room, positive⟩
    exact ⟨bound, by omega, Nat.mul_pos (by omega) positive⟩

theorem giveUp_keepsBook : Call.Safe (bookProtocol cfg) me (giveUp r n) :=
  (noWorkers_safe _ (by simp [Label.keepsOn]) r).bind fun _ => .pure _

theorem processDispatchJob_keepsBook (data : DispatchJobData) (matching : List Id) :
    Call.Safe (bookProtocol cfg) me (processDispatchJob cfg data matching) := by
  intro d
  simp only [processDispatchJob, Call.wp_bind, Call.wp_read, Tx.view_none]
  intro d₁ rely₁ pre
  -- the job was added to the queue when its wave was due
  have queued : ∃ q ∈ d₁.dispatchQueue, q.key = data.key := by
    simpa [bookProtocol, delivered, DispatchJobData.key] using pre
  obtain ⟨q, member, same⟩ := queued
  obtain ⟨sameReq, sameWave⟩ := Prod.mk.inj same
  have due := WaveBook.queued rely₁.inv q member
  rw [sameReq, sameWave] at due
  rw [Call.andThen_ok]
  cases d₁.requirement data.requirementId with
  | none => rfl
  | some req =>
    simp only [Option.map_some]
    split
    · rfl
    · simp only [Call.wp_bind, Call.wp_read, Tx.view_none]
      intro d₂ rely₂ _
      rw [Call.andThen_ok]
      cases d₂.wave data.requirementId data.waveNumber with
      | some wave =>
        simp only [alreadyProcessed, query, Call.wp_bind, Call.wp_read]
        exact fun _ _ _ => rfl
      | none =>
        dsimp only
        split
        · exact giveUp_keepsBook d₂
        · split
          · rfl
          · split
            · rfl
            next dispatches =>
              obtain ⟨bound, -, positive⟩ := canDispatch_iff.mp (not_not.mp dispatches)
              simp only [query, Call.wp_bind, Call.wp_read, Tx.view_none]
              intro d₃ rely₃ _
              rw [Call.andThen_ok]
              split
              · exact giveUp_keepsBook d₃
              · have ahead : Ahead d₁ d₃ := rely₂.evo.trans rely₃.evo
                exact persistWave_keepsBook (waveDue_later ahead.later ahead.now due) bound positive rfl

end Waves

/-! ### Reconciliation -/

section Reconciliation

variable {r : Id} {m n : Nat}

/-- Every wave below a stored one is over. -/
theorem waveOver_below (book : WaveBook cfg d) (stored : (d.wave r m).isSome) (positive : 1 ≤ n)
    (below : n < m) : d.waveOver cfg r n := by
  induction m with
  | zero => omega
  | succ m ih =>
    obtain ⟨w, found⟩ := Option.isSome_iff_exists.mp stored
    have named : w.key = (r, m + 1) := Table.find_key found
    obtain ⟨sameReq, sameWave⟩ := Prod.mk.inj named
    obtain ⟨⟨-, preceded⟩, -⟩ := book.waves w (Table.mem_of_find found)
    rw [sameReq, sameWave] at preceded
    have last : d.waveOver cfg r m := preceded (by omega)
    rcases Nat.lt_succ_iff_lt_or_eq.mp below with lower | rfl
    · obtain ⟨v, foundLast, -⟩ := last
      exact ih (Option.isSome_iff_exists.mpr ⟨v, foundLast⟩) lower
    · exact last

/-- When the last allowed wave is over, all are. -/
theorem wavesOver_of_last (book : WaveBook cfg d) (ended : d.waveOver cfg r m)
    (last : cfg.maxWaves ≤ m) : d.wavesOver cfg r := by
  rintro w member rfl
  obtain ⟨⟨positive, -⟩, bound, -⟩ := book.waves w member
  rcases Nat.lt_or_eq_of_le (bound.trans last) with lower | same
  · obtain ⟨v, found, -⟩ := ended
    exact waveOver_below book (Option.isSome_iff_exists.mpr ⟨v, found⟩) positive lower
  · rwa [same]

/-- `findFirst` returns a wave of the requirement. -/
theorem latestWave_mem {w : Wave} (found : d.latestWave r = some w) :
    w ∈ d.waves ∧ w.requirementId = r := by
  have picks : ∀ (waves : List Wave) (best : Option Wave), waves.foldl newer best = some w →
      w ∈ waves ∨ best = some w := by
    intro waves
    induction waves with
    | nil => exact fun best same => Or.inr same
    | cons v waves ih =>
      intro best same
      rcases ih _ same with later | now
      · exact Or.inl (List.mem_cons_of_mem _ later)
      · -- the step takes the new wave or keeps the best one so far
        cases best with
        | none => exact Or.inl (Option.some.inj now ▸ List.mem_cons_self)
        | some b =>
          simp only [newer] at now
          split at now
          · exact Or.inl (Option.some.inj now ▸ List.mem_cons_self)
          · exact Or.inr now
  rcases picks _ _ found with member | absent
  · simpa [List.mem_filter] using member
  · cases absent

variable {req : Requirement} {latest : Wave} {t : MarketTx}

/-- The writes of the repair so far keep the book whenever they commit. -/
def Repairs (cfg : Config) (me : Nat) (t : MarketTx) (d : Db) : Prop :=
  (∀ d', (bookProtocol cfg).Rely me t.locks d d' → FitsAll cfg t.writes d') ∧
    ∀ x, .insertDispatch x ∉ t.writes

/-- Where the repair of a requirement is to arrive. -/
def Repaired (cfg : Config) (me : Nat) (id : Id) (a : Repair) (t : MarketTx) (d : Db) : Prop :=
  ∀ d', (bookProtocol cfg).Rely me t.locks d d' → delivered (.reconciled id a.status) d' = true →
    (bookProtocol cfg).Does me (.reconciled id a.status) d' (applyAll t.writes d')

theorem scheduleNext_keepsBook {closed : Nat} (room : req.workerCountFilled < req.workerCountNeeded)
    (positive : 0 < cfg.workerMultiplier) (ended : d.waveOver cfg req.id latest.waveNumber)
    (repairs : Repairs cfg me t d) :
    Call.wp (bookProtocol cfg) me (Call.inTx (Repaired cfg me req.id))
      (scheduleNext cfg req latest closed) (some t) d := by
  simp only [scheduleNext]
  split
  · rw [Call.wp_bind]
    refine wp_announce ⟨by simp, fun _ => ended⟩ (fun _ _ => trivial) fun d₁ rely₁ d₂ rely₂ _ => ?_
    have rely : (bookProtocol cfg).Rely me t.locks d d₂ := rely₁.trans rely₂
    exact does_of_fits (by simp [Label.keepsOn]) (repairs.1 d₂ rely) repairs.2
  next stuck =>
    have last : cfg.maxWaves ≤ latest.waveNumber := by
      have refused := mt canDispatch_iff.mpr stuck
      omega
    rw [Call.wp_bind, step]
    refine Call.stmt_inTx (fun d₁ t₁ ws _ rely₁ _ result grows₁ _ => ?_) fun _ _ _ _ _ => trivial
    obtain rfl := noWorkers_ok result
    intro d₂ rely₂ _
    have rely : (bookProtocol cfg).Rely me t.locks d d₂ := grows₁.rely rely₁ rely₂
    have ahead : Ahead d d₂ := rely.evo
    rw [grows₁.writes]
    refine does_of_waveCommit ⟨?_, fun x member => ?_, ?_⟩
    · exact fitsAll_append (repairs.1 d₂ rely) (fitsAll_of_spares (by simp [Write.sparesDispatch]))
    · exact absurd (by simpa using member) (repairs.2 x)
    · -- no wave can follow the last allowed one, so nothing has been offered since
      rintro _ ⟨⟩
      exact wavesOver_of_last rely.inv (waveOver_later ahead.later ahead.now ended) last

theorem closeExpired_keepsBook (room : req.workerCountFilled < req.workerCountNeeded)
    (positive : 0 < cfg.workerMultiplier) (found : d.wave req.id latest.waveNumber = some latest)
    (expired : latest.notifiedAt + cfg.timeoutMs ≤ d.now) (fresh : t.writes = []) :
    Call.wp (bookProtocol cfg) me (Call.inTx (Repaired cfg me req.id))
      (closeExpired cfg req latest) (some t) d := by
  have ended : d.waveOver cfg req.id latest.waveNumber := ⟨latest, found, Or.inr expired⟩
  rw [closeExpired, setOffers, step, Call.wp_bind]
  refine Call.stmt_inTx (fun d₁ t₁ ws _ rely₁ _ result grows₁ _ => ?_) fun _ _ _ _ _ => trivial
  have ahead₁ : Ahead d d₁ := rely₁.evo
  cases result
  rw [Call.andThen_ok, Call.wp_bind]
  refine Call.stmt_inTx (fun d₂ t₂ ws _ rely₂ _ result grows₂ _ => ?_) fun _ _ _ _ _ => trivial
  have ahead₂ : Ahead d₁ d₂ := rely₂.evo
  cases result
  have stored₁ := stored_later ahead₁.later (Option.isSome_iff_exists.mpr ⟨latest, found⟩)
  have ahead := ahead₁.trans ahead₂
  refine scheduleNext_keepsBook room positive (waveOver_later ahead.later ahead.now ended) ⟨?_, ?_⟩
  · intro d₃ rely₃
    rw [grows₂.writes, grows₁.writes, fresh, applyAll_nil]
    refine ⟨by simp [Fits], waveSettled_of_timeout (by simp) (ahead₂.trans rely₃.evo) stored₁
      fun x sameReq sameWave pending => ?_, trivial⟩
    simp [sameReq, sameWave, pending]
  · simp [grows₂.writes, grows₁.writes, fresh]

theorem restoreTimeout_keepsBook (stored : (d.wave req.id latest.waveNumber).isSome)
    (fresh : t.writes = []) :
    Call.wp (bookProtocol cfg) me (Call.inTx (Repaired cfg me req.id))
      (restoreTimeout req latest) (some t) d := by
  rw [restoreTimeout, Call.wp_bind]
  refine wp_addTimeoutJob stored (fun _ _ => trivial) fun d₁ rely₁ d₂ rely₂ _ => ?_
  rw [fresh]
  exact Or.inl rfl

theorem scheduleFirst_keepsBook (fresh : t.writes = []) :
    Call.wp (bookProtocol cfg) me (Call.inTx (Repaired cfg me req.id))
      (scheduleFirst req) (some t) d := by
  -- both ways to the queue leave at most a status to commit
  have announced : ∀ d₁ t₁, (∀ w ∈ t₁.writes, w.sparesDispatch = true) →
      Call.wp (bookProtocol cfg) me (Call.inTx (Repaired cfg me req.id)) (do
        addDispatchJob { requirementId := req.id, jobId := req.jobId }
        pure { report := { missingWavesScheduled := 1 }
               status := if req.status ≠ .DISPATCHING then some .DISPATCHING else none })
        (some t₁) d₁ := by
    intro d₁ t₁ spares
    rw [Call.wp_bind]
    refine wp_announce ⟨Nat.le_refl 1, by simp⟩ (fun _ _ => trivial) fun d₂ rely₂ d₃ rely₃ _ => ?_
    refine does_of_spares ?_ spares
    split <;> simp [Label.keepsOn]
  rw [scheduleFirst, Call.wp_bind]
  refine wp_onlyIf (fun _ => ?_) fun _ => ?_
  · rw [step]
    refine Call.stmt_inTx (fun d₁ t₁ ws _ rely₁ _ result grows₁ _ => ?_) fun _ _ _ _ _ => trivial
    split at result <;> cases result
    refine announced d₁ t₁ ?_
    simp [grows₁.writes, fresh, Write.sparesDispatch]
  · exact announced d t (by simp [fresh])

/-- What the scan has read stays true: time passes, and a wave it saw is still there. -/
def Scanned (now : Nat) (candidates : List (Requirement × Option Wave)) (d : Db) : Prop :=
  now ≤ d.now ∧ ∀ req w, (req, some w) ∈ candidates → ∃ v ∈ d.waves, v.requirementId = req.id

theorem scanned_later {now : Nat} {candidates : List (Requirement × Option Wave)}
    (later : Later d d') (passed : d.now ≤ d'.now) (scanned : Scanned now candidates d) :
    Scanned now candidates d' := by
  refine ⟨scanned.1.trans passed, fun req w member => ?_⟩
  obtain ⟨v, stored, named⟩ := scanned.2 req w member
  obtain ⟨v', stored', same⟩ := later.waves.mem stored
  exact ⟨v', stored', (congrArg (fun c => c.1.1) same).trans named⟩

theorem repairTx_keepsBook {now : Nat} {scannedWave : Option Wave}
    (scanned : Scanned now [(req, scannedWave)] d)
    (room : req.workerCountFilled < req.workerCountNeeded) :
    Call.wp (bookProtocol cfg) me (Call.inTx (Repaired cfg me req.id))
      (repairTx cfg now req scannedWave) (some {}) d := by
  rw [repairTx, Call.wp_bind, Call.wp_skipLocked]
  intro d₁ rely₁ _
  constructor
  · exact fun d₂ _ _ => Or.inl rfl
  · simp only [Call.andThen_ok, not_true, if_false, query, Call.wp_bind, Call.wp_read, Tx.view_some,
      Tx.held_some]
    intro d₂ rely₂ _
    have fresh : (Tx.add Db ({} : MarketTx) { locks := [.requirement req.id] }).writes = [] := rfl
    have ahead : Ahead d d₂ := rely₁.evo.trans rely₂.evo
    obtain ⟨passed, seen⟩ := scanned_later ahead.later ahead.now scanned
    rw [fresh, applyAll_nil]
    split
    · exact scheduleFirst_keepsBook fresh
    next latest picked =>
      -- a wave the scan saw is still stored, so the latest one has been read again
      have read : d₂.latestWave req.id = some latest := by
        cases found : d₂.latestWave req.id with
        | some w => rwa [found, Option.some_or] at picked
        | none =>
          rw [found, Option.none_or] at picked
          obtain ⟨v, stored, named⟩ := seen req latest (by simp [picked])
          exact absurd named (latestWave_none found v stored)
      obtain ⟨member, named⟩ := latestWave_mem read
      have found : d₂.wave req.id latest.waveNumber = some latest := by
        rw [← named]
        exact Table.find_of_mem (WaveBook.waveKeys rely₂.inv) member
      obtain ⟨-, -, positive⟩ := WaveBook.waves rely₂.inv latest member
      cases status : latest.status with
      | active =>
        dsimp only
        split
        next expired => exact closeExpired_keepsBook room positive found (expired.trans passed) fresh
        next => exact restoreTimeout_keepsBook (Option.isSome_iff_exists.mpr ⟨latest, found⟩) fresh
      | exhausted =>
        refine scheduleNext_keepsBook room positive ⟨latest, found, Or.inl status⟩ ⟨?_, ?_⟩
        · intro d₃ _
          rw [fresh]
          trivial
        · simp

theorem repair_keepsBook {now : Nat} {scannedWave : Option Wave}
    (scanned : Scanned now [(req, scannedWave)] d)
    (room : req.workerCountFilled < req.workerCountNeeded) :
    Call.wp (bookProtocol cfg) me (fun _ tx _ => tx = none) (repair cfg now req scannedWave)
      none d := by
  rw [repair, Call.wp_bind, Call.wp_attempt]
  refine Call.transaction_commits (fun d₁ rely₁ => ?_) (fun _ _ => rfl) fun _ _ => rfl
  have ahead : Ahead d d₁ := rely₁.evo
  exact repairTx_keepsBook (scanned_later ahead.later ahead.now scanned) room

theorem repairAll_keepsBook {now : Nat} (candidates : List (Requirement × Option Wave))
    (report : ReconciliationReport) (scanned : Scanned now candidates d) :
    Call.wp (bookProtocol cfg) me (fun _ tx _ => tx = none) (repairAll cfg now report candidates)
      none d := by
  induction candidates generalizing d report with
  | nil => rfl
  | cons candidate rest ih =>
    obtain ⟨req, scannedWave⟩ := candidate
    have others : Scanned now rest d :=
      ⟨scanned.1, fun req w member => scanned.2 req w (List.mem_cons_of_mem _ member)⟩
    rw [repairAll]
    split
    · exact ih report others
    next notFull =>
      have room : req.workerCountFilled < req.workerCountNeeded := by
        simp only [Requirement.isFull, decide_eq_true_eq, not_or, not_le] at notFull
        exact notFull.1
      have mine : Scanned now [(req, scannedWave)] d := by
        refine ⟨scanned.1, fun req' w member => ?_⟩
        obtain ⟨rfl, rfl⟩ := Prod.mk.inj (List.mem_singleton.mp member)
        exact scanned.2 req' w List.mem_cons_self
      rw [Call.wp_bind]
      -- the repair leaves what was scanned of the other candidates
      have stable : ∀ (locked : List Key) d₁ d₂, (bookProtocol cfg).Rely me locked d₁ d₂ →
          Scanned now rest d₁ → Scanned now rest d₂ := by
        intro locked d₁ d₂ rely held
        have ahead : Ahead d₁ d₂ := rely.evo
        exact scanned_later ahead.later ahead.now held
      have kept : ∀ ℓ d₁ d₂, (bookProtocol cfg).inv d₁ → (bookProtocol cfg).guar me ℓ d₁ d₂ →
          Scanned now rest d₁ → Scanned now rest d₂ := by
        rintro ℓ d₁ _ - ⟨ws, rfl, -⟩ held
        exact scanned_later (Later.applyAll ws d₁) (now_le_applyAll ws d₁) held
      have repaired := Store.wp_frame stable kept _ _ _ others (repair_keepsBook mine room)
      refine Call.wp_mono ?_ repaired
      rintro result tx d₁ ⟨rfl, later⟩
      cases result with
      | ok repaired => exact ih _ later
      | error e => rfl

theorem reconcileDispatchState_keepsBook :
    Call.Safe (bookProtocol cfg) me (reconcileDispatchState cfg) := by
  intro d
  simp only [reconcileDispatchState, query, Call.wp_bind, Call.wp_read, Tx.view_none]
  intro d₁ rely₁ _ d₂ rely₂ _
  have ahead : Ahead d₁ d₂ := rely₂.evo
  have seen : Scanned d₁.now (d₁.reconcilable.map fun r => (r, d₁.latestWave r.id)) d₁ := by
    refine ⟨Nat.le_refl _, fun req w member => ?_⟩
    obtain ⟨r, -, same⟩ := List.mem_map.mp member
    obtain ⟨rfl, latest⟩ := Prod.mk.inj same
    exact ⟨w, latestWave_mem latest⟩
  exact repairAll_keepsBook _ _ ⟨Nat.le_refl _, (scanned_later ahead.later ahead.now seen).2⟩

end Reconciliation

/-! ### The system -/

theorem keepsBook (cfg : Config) : Pool.Verified (bookProtocol cfg) (fun _ _ _ _ => True) (system cfg) := by
  have routine : ∀ w : Write, w.routine = true → w.sparesOffers = true → w.sparesDispatch = true :=
    fun w both _ => (Bool.and_eq_true_iff.mp both).2
  have offers : ∀ keys status, status ≠ .pending →
      (Write.dispatchStatus keys status).sparesDispatch = true :=
    fun _ _ closes => decide_eq_true closes
  have spares : ∀ w : Write, w.sparesDispatch = true → w.sparesOffers = true →
      w.sparesDispatch = true := fun _ same _ => same
  have known : ∀ ℓ : Label, ℓ.ofDispatch = false → ℓ.keepsOn := by
    rintro _ outside r rfl
    cases outside
  have replied : ∀ {α : Type} {reply : α → Reply} {body : Service α} {me : Nat},
      Call.Safe (bookProtocol cfg) me body →
      Call.Safe (bookProtocol cfg) me (replying reply body) := fun safe => safe.bind fun _ => .pure _
  intro me op d
  suffices safe : Call.Safe (bookProtocol cfg) me (serviceOf cfg op) from
    Store.wp_mono (fun _ _ _ _ => trivial) _ _ _ (safe d)
  cases op with
  | createJob jobId customerId payload => exact replied (createJob_keepsBook _ _ _)
  | createJobReq jobId payload actor =>
    exact replied (safe_of_spares (createJobReq_emits routine known _ _ _))
  | updateRequirementDemand jobId requirementId needed actor =>
    exact replied (safe_of_spares (updateRequirementDemand_emits routine known _ _ _ _))
  | cancelJob jobId actor => exact replied (safe_of_spares (cancelJob_emits routine offers known _ _))
  | acceptDispatch requirementId workerId new =>
    exact replied (safe_of_spares (acceptDispatch_emits routine offers known _ _ _ _))
  | declineDispatch requirementId workerId => exact replied (declineDispatch_keepsBook _ _)
  | verifyOtp bookingId workerId otp actor =>
    exact replied (safe_of_spares (verifyOtp_emits spares known _ _ _ _ _))
  | completeBooking bookingId workerId actor =>
    exact replied (safe_of_spares (completeBooking_emits routine known _ _ _))
  | confirmComplete bookingId customerId rating actor =>
    exact replied (safe_of_spares (confirmComplete_emits routine known _ _ _ _))
  | cancelBooking bookingId userId reason actor =>
    exact replied (safe_of_spares (cancelBooking_emits routine offers known _ _ _ _))
  | processDispatchJob data matching => exact replied (processDispatchJob_keepsBook _ _)
  | processTimeoutJob data => exact replied (processTimeoutJob_keepsBook _)
  | reconcileDispatchState => exact replied reconcileDispatchState_keepsBook
  | tick => exact safe_of_spares (.send (by simp [Label.keepsOn]) (by simp [Write.sparesDispatch]))

end LabourBaba.Market
