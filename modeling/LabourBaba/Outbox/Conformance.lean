import LabourBaba.Outbox.Commits

/-!
# The outbox services keep to their commits

Each service is verified against `protocol`, whatever the other calls commit between two of
its statements. Most statements look at the rows they set; `markEventFailure` writes what it
computed from an earlier read, of which only the bound on the attempts and the place in the
journal still hold at its write. A delivery knows the record that its claim returned.
-/
namespace LabourBaba.Outbox

open Store

section Statements

variable {α : Type} {me : Nat}

abbrev Conforms (me : Nat) (c : Service α) : Prop := Call.Safe protocol me c

theorem does_of_commit {ℓ : Label} {d : Db} {ws : List Write} (commit : Commit d ℓ ws) :
    protocol.Does me ℓ d (applyAll ws d) :=
  Or.inr ⟨ws, rfl, commit⟩

theorem reaching_conforms {statement : Service α} (conforms : Conforms me statement) :
    Conforms me (reaching statement) := by
  refine Call.Safe.choose.bind fun reachable => ?_
  cases reachable with
  | false => exact Call.Safe.throw _
  | true => exact conforms

theorem now_conforms : Conforms me now := Call.Safe.read _ _

/-- The rows that an `updateMany` sets match its condition. -/
theorem event_of_matching {d : Db} {ids : List Id} {condition : OutboxRecord → Bool} {id : Id}
    (member : id ∈ d.matching ids condition) :
    ∃ r, d.event id = some r ∧ condition r = true := by
  obtain ⟨-, holds⟩ := List.mem_filter.mp member
  exact Option.any_eq_true _ _ |>.mp holds

theorem updateMany_conforms {ℓ : Label} {condition : OutboxRecord → Bool} {u : Update}
    (change : ∀ d ids, (∀ id ∈ ids, ∃ r, d.event id = some r ∧ condition r = true) →
      Change d ℓ ids u) : Conforms me (updateMany ℓ condition u) := by
  refine (Call.Safe.read _ _).bind fun selected => Call.Safe.stmt fun d ws n _ _ updated => ?_
  obtain ⟨rfl, rfl⟩ := Prod.mk.inj (Except.ok.inj updated)
  exact does_of_commit (.changed (change d _ fun id member => event_of_matching member))

/-- An update of one row, which is found to match. -/
theorem updateWhere_does {ℓ : Label} {id : Id} {condition : OutboxRecord → Bool} {u : Update}
    {d : Db} (change : ∀ r, d.event id = some r → condition r = true → Change d ℓ [id] u) :
    Call.afterCommit protocol me ℓ (fun _ tx _ => tx = none) d
      (match d.event id with
        | none => .ok ([], false)
        | some row =>
          if condition row then (.ok ([.update [id] u], true) : Except Failure _)
          else .ok ([], false)) := by
  cases found : d.event id with
  | none => exact ⟨does_of_commit .idle, rfl⟩
  | some r =>
    by_cases matches_ : condition r = true
    · simp only [matches_, if_true]
      exact ⟨does_of_commit (.changed (change r found matches_)), rfl⟩
    · simp only [matches_]
      exact ⟨does_of_commit .idle, rfl⟩

theorem unfinished_of_under {lease : Option Nat} {r : OutboxRecord}
    (matches_ : unfinishedUnder lease r = true) : r.status.unfinished = true := by
  simp only [unfinishedUnder, Bool.and_eq_true] at matches_
  exact matches_.1

end Statements

/-! ### The outbox service -/

section Services

variable {me : Nat}

theorem createOutboxEvent_conforms (new : NewEvent) : Conforms me (createOutboxEvent new) := by
  refine (Call.Safe.read _ _).bind fun existing => ?_
  cases existing with
  | true => exact Call.Safe.pure ()
  | false =>
    refine (Call.Safe.attempt (Call.Safe.stmt fun d ws _ _ _ created => ?_)).bind fun result => ?_
    · split at created
      · cases created
      next free =>
        obtain ⟨rfl, -⟩ := Prod.mk.inj (Except.ok.inj created)
        refine does_of_commit (.created fun old member => ?_)
        exact Bool.eq_false_iff.mpr fun clash => free (List.any_eq_true.mpr ⟨old, member, clash⟩)
    · rcases result with (_ | _ | _ | _) | _
      all_goals first | exact Call.Safe.pure () | exact Call.Safe.throw _

theorem unfinished_of_claimable {t stale : Nat} {r : OutboxRecord}
    (due : claimable t stale r = true) : r.status.unfinished = true := by
  rcases of_decide_eq_true due with ⟨pending, -⟩ | ⟨processing, -⟩
  · rw [pending]; rfl
  · rw [processing]; rfl

theorem claimPendingEvents_conforms (batchSize stale : Nat) (skipped : List Id) :
    Conforms me (claimPendingEvents batchSize stale skipped) := by
  refine now_conforms.bind fun t => (Call.Safe.read _ _).bind fun selected => ?_
  refine Call.Safe.stmt fun d ws n _ _ claimed => ?_
  obtain ⟨rfl, rfl⟩ := Prod.mk.inj (Except.ok.inj claimed)
  refine does_of_commit (.changed (.claimed fun id member => ?_))
  have among := (List.mem_filter.mp (List.mem_of_mem_take member)).1
  obtain ⟨r, found, due⟩ := event_of_matching among
  exact ⟨r, found, unfinished_of_claimable due⟩

theorem recordChannel_conforms (id : Id) (ch : Channel) (status : ChannelStatus) (u : Nat → Update)
    (change : ∀ d t, Change d (.channel id ch status) [id] (u t)) :
    Conforms me (recordChannel id ch status u) := by
  refine (Call.Safe.attempt (reaching_conforms (Call.Safe.stmt fun d ws _ _ _ written => ?_))).bind
    fun _ => Call.Safe.pure ()
  split at written
  · cases written
  · obtain ⟨rfl, -⟩ := Prod.mk.inj (Except.ok.inj written)
    exact does_of_commit (.changed (change d d.now))

theorem recordChannelSuccess_conforms (id : Id) (ch : Channel) :
    Conforms me (recordChannelSuccess id ch) :=
  now_conforms.bind fun _ => recordChannel_conforms id ch .SENT _ fun _ _ => .sent

theorem recordChannelFailure_conforms (id : Id) (ch : Channel) (error : String) :
    Conforms me (recordChannelFailure id ch error) :=
  recordChannel_conforms id ch .FAILED _ fun _ _ => .unsent

theorem markEventSuccess_conforms (claim : Option Nat) (id : Id) (lease : Option Nat) :
    Conforms me (markEventSuccess claim id lease) := by
  refine now_conforms.bind fun t => reaching_conforms fun d => ?_
  rw [updateWhere, Call.wp_stmt_alone]
  intro d' _ _
  refine updateWhere_does fun r found matches_ => ?_
  exact .marked found (unfinished_of_under matches_)

theorem markEventFailure_conforms (claim : Option Nat) (id : Id) (message : String)
    (isPermanent : Bool) (lease : Option Nat) :
    Conforms me (markEventFailure claim id message isPermanent lease) := by
  intro d
  rw [markEventFailure, Call.wp_bind, reaching, Call.wp_bind, Call.wp_choose]
  rintro d₁ - (_ | _)
  · rfl
  rw [Call.andThen_ok, if_pos rfl, query, Call.wp_read]
  intro d₂ read _
  rw [Call.andThen_ok]
  simp only [Tx.view_none]
  cases matched : (d₂.event id).filter (unfinishedUnder lease) with
  | none => rfl
  | some record =>
    -- what is still known at the write: the bound, and the attempts at the read
    obtain ⟨found, unfinished⟩ := Option.filter_eq_some_iff.mp matched
    have below := (read.inv.coherent id record found).room
      (OutboxStatus.ne_failed (unfinished_of_under unfinished))
    have counted := read.inv.counted id record found
    rw [Call.wp_bind, now, query, Call.wp_read]
    intro d₃ rely₃ _
    rw [Call.andThen_ok, reaching, Call.wp_bind, Call.wp_choose]
    rintro d₄ rely₄ (_ | _)
    · rfl
    rw [Call.andThen_ok, if_pos rfl, updateWhere, Call.wp_stmt_alone]
    intro d₅ rely₅ _
    have later : Later d₂ d₅ := (rely₃.evo.trans rely₄.evo).trans rely₅.evo
    refine updateWhere_does fun r found' matches_ => ?_
    obtain ⟨r', present, max, -⟩ := later.events id record found
    obtain rfl := Option.some.inj (found'.symm.trans present)
    exact .failed found' (unfinished_of_under matches_) max.symm below (later.attemptsAfter counted)

theorem reconcileStaleEvents_conforms (stale : Nat) : Conforms me (reconcileStaleEvents stale) := by
  refine now_conforms.bind fun threshold => now_conforms.bind fun t => ?_
  refine updateMany_conforms fun d ids found => .recovered fun id member => ?_
  obtain ⟨r, present, matches_⟩ := found id member
  exact ⟨r, present, (of_decide_eq_true matches_).1⟩

theorem acknowledgeNotification_conforms (customerId id : Id) :
    Conforms me (acknowledgeNotification customerId id) := by
  refine (Call.Safe.read _ _).bind fun existing => ?_
  cases existing with
  | none => exact Call.Safe.throw _
  | some row =>
    dsimp only
    split
    · exact Call.Safe.pure ()
    · refine now_conforms.bind fun t => Call.Safe.stmt fun d ws _ _ _ written => ?_
      split at written
      · cases written
      · obtain ⟨rfl, -⟩ := Prod.mk.inj (Except.ok.inj written)
        exact does_of_commit (.changed .acknowledged)

theorem acknowledgeAll_conforms (customerId : Id) : Conforms me (acknowledgeAll customerId) :=
  now_conforms.bind fun _ => updateMany_conforms fun _ _ _ => .acknowledged

end Services

/-! ### Deliveries -/

section Deliveries

variable {α : Type} {me claim : Nat} {record : OutboxRecord}

/-- The claim has returned the record. -/
def Held (claim : Nat) (record : OutboxRecord) (d : Db) : Prop :=
  d.journal[claim]? = some (.claimed record)

theorem Held.write (w : Write) {d : Db} (held : Held claim record d) :
    Held claim record (w.apply d) := by
  have grown : ∀ added, Held claim record { d with journal := d.journal ++ added } := fun added =>
    (List.getElem?_append_left (List.getElem?_eq_some_iff.mp held).1).trans held
  cases w with
  | update ids u => exact grown _
  | start | emit => exact grown _
  | create | tick => exact held

theorem Held.applyAll (ws : List Write) (d : Db) (held : Held claim record d) :
    Held claim record (applyAll ws d) := by
  induction ws generalizing d with
  | nil => exact held
  | cons w ws ih => exact ih _ (held.write w)

/-- A call of the delivery of a record, which it knows from its claim. -/
abbrev Delivers (me claim : Nat) (record : OutboxRecord) (c : Service α) : Prop :=
  Call.SafeUnder protocol me (Held claim record) c

theorem Delivers.of_conforms {c : Service α} (conforms : Conforms me c) :
    Delivers me claim record c := by
  refine .of_safe (fun _ _ _ rely held => rely.evo.entry held) ?_ conforms
  rintro ℓ d _ - ⟨ws, rfl, -⟩ held
  exact held.applyAll ws d

theorem emit_delivers (ch : Channel) (unsent : (record.channel ch).status ≠ .SENT) :
    Delivers me claim record (emit claim ch) := by
  intro d held d' rely _
  have held' : Held claim record d' := rely.evo.entry held
  exact ⟨does_of_commit (.emitted held' unsent), rfl, Held.applyAll _ _ held'⟩

theorem deliverSocket_delivers (answer : SocketAnswer) :
    Delivers me claim record (deliverSocket claim record answer) := by
  simp only [deliverSocket]
  split
  · exact .pure _
  next unsent =>
    cases answer with
    | unavailable =>
      exact (Delivers.of_conforms (recordChannelSuccess_conforms _ _)).bind fun _ => .pure _
    | emitted =>
      refine (emit_delivers .socket unsent).bind fun _ => ?_
      exact (Delivers.of_conforms (recordChannelSuccess_conforms _ _)).bind fun _ => .pure _
    | thrown message =>
      refine (emit_delivers .socket unsent).bind fun _ => ?_
      exact (Delivers.of_conforms (recordChannelFailure_conforms _ _ _)).bind fun _ => .pure _

theorem recordFcm_conforms (answer : FcmAnswer) : Conforms me (recordFcm record answer) := by
  cases answer with
  | noDevices | delivered =>
    exact (recordChannelSuccess_conforms _ _).bind fun _ => Call.Safe.pure _
  | transient message | allInvalid =>
    exact (recordChannelFailure_conforms _ _ _).bind fun _ => Call.Safe.pure _
  | thrown message invalidToken => exact Call.Safe.throw _

theorem deliverFcm_delivers (answer : FcmAnswer) :
    Delivers me claim record (deliverFcm claim record answer) := by
  simp only [deliverFcm]
  split
  · exact .pure _
  next unsent =>
    split
    · refine (emit_delivers .fcm unsent).bind fun _ => ?_
      exact Delivers.of_conforms (recordFcm_conforms answer)
    · exact (Delivers.of_conforms (recordChannelSuccess_conforms _ _)).bind fun _ => .pure _

theorem concludeRecord_conforms (id : Id) (socket fcm : Attempt) :
    Conforms me (concludeRecord claim id socket fcm) := by
  have concluded : ∀ {outcome : Service Bool}, Conforms me outcome →
      Conforms me (do let _ ← outcome; pure ()) :=
    fun conforms => conforms.bind fun _ => Call.Safe.pure ()
  rcases socket with _ | ⟨socketError, _⟩
  · rcases fcm with _ | ⟨error, _ | _⟩
    · exact concluded (markEventSuccess_conforms _ _ _)
    · exact concluded (markEventFailure_conforms _ _ _ _ _)
    · exact concluded (markEventFailure_conforms _ _ _ _ _)
  · rcases fcm with _ | ⟨error, _ | _⟩
    all_goals exact concluded (markEventFailure_conforms _ _ _ _ _)

theorem executeRecordDelivery_delivers (answers : Answers) :
    Delivers me claim record (executeRecordDelivery claim record answers) := by
  refine Call.SafeUnder.bind (.attempt ?_) fun result => ?_
  · refine (deliverSocket_delivers _).bind fun socket => (deliverFcm_delivers _).bind fun fcm => ?_
    exact Delivers.of_conforms (concludeRecord_conforms _ _ _)
  · cases result with
    | ok _ => exact .pure _
    | error err =>
      exact (Delivers.of_conforms (markEventFailure_conforms _ _ _ _ _)).bind fun _ => .pure _

theorem held_of_handover {d : Db} (handed : d.handover claim = some record) :
    Held claim record d := by
  simp only [Db.handover] at handed
  split at handed
  next r journaled =>
    split at handed
    · cases handed
    · obtain rfl := Option.some.inj handed
      exact journaled
  next => cases handed

theorem processRecord_conforms (answers : Answers) : Conforms me (processRecord claim answers) := by
  intro d
  rw [processRecord, Call.wp_bind, Call.wp_send]
  intro d' rely _
  simp only [Tx.view_none]
  cases handed : d'.handover claim with
  | none => exact ⟨does_of_commit .idle, rfl⟩
  | some record =>
    refine ⟨does_of_commit .started, ?_⟩
    exact (executeRecordDelivery_delivers answers).safe
      (Held.applyAll _ _ (held_of_handover handed))

end Deliveries

/-! ### The system -/

theorem conforms (me : Nat) (op : Op) : Conforms me (serviceOf op) := by
  have replied : ∀ {α : Type} {reply : α → Reply} {service : Service α}, Conforms me service →
      Conforms me (replying reply service) :=
    fun conforms => conforms.bind fun _ => Call.Safe.pure _
  cases op with
  | createOutboxEvent new => exact replied (createOutboxEvent_conforms new)
  | claimPendingEvents batchSize stale skipped =>
    exact replied (claimPendingEvents_conforms batchSize stale skipped)
  | processRecord claim answers => exact replied (processRecord_conforms answers)
  | markEventSuccess id lease => exact replied (markEventSuccess_conforms none id lease)
  | markEventFailure id message isPermanent lease =>
    exact replied (markEventFailure_conforms none id message isPermanent lease)
  | reconcileStaleEvents stale => exact replied (reconcileStaleEvents_conforms stale)
  | acknowledgeNotification customerId id =>
    exact replied (acknowledgeNotification_conforms customerId id)
  | acknowledgeAll customerId => exact replied (acknowledgeAll_conforms customerId)
  | tick ms => exact Call.Safe.send fun d _ _ => does_of_commit .ticked

theorem verified : Pool.Verified protocol (fun _ _ _ _ => True) system :=
  fun me op d => wp_mono (fun _ _ _ _ => trivial) _ _ _ (conforms me op d)

section Runs

variable {cond : Label → Db → Prop} {p q : OutboxPool}

theorem sound_of_runs (run : Runs cond p) : Pool.Sound protocol (fun _ _ _ _ => True) p :=
  run.sound verified (fun _ _ _ _ _ _ _ _ => trivial) (.empty Wf.empty)

theorem wf_of_runs (run : Runs cond p) : Wf p.db := (sound_of_runs run).inv

/-- What one event does to the store: nothing, or what a call commits. -/
theorem commit_of_event {e : Event Op} (run : Runs cond p) (stepped : p.step system e = some q) :
    q.db = p.db ∨ ∃ i answer ℓ ws, e = .run i answer ∧ p.next i = some ℓ ∧
      q.db = applyAll ws p.db ∧ Commit p.db ℓ ws := by
  rcases ((sound_of_runs run).step verified (fun _ _ _ _ _ => trivial) stepped).does with
    same | ⟨i, answer, ℓ, event, labelled, ws, after, commit⟩
  · exact Or.inl same
  · exact Or.inr ⟨i, answer, ℓ, ws, event, labelled, after, commit⟩

/-- A property of the store that every commit keeps, under a condition on the store just
before it, holds from there on in every run that meets the condition. -/
theorem invariant_from (I : Db → Prop)
    (keeps : ∀ ℓ d ws, Wf d → I d → cond ℓ d → Commit d ℓ ws → I (applyAll ws d))
    (run : Runs cond p) (first : I p.db)
    (more : Pool.Reaches system (Pool.Meets cond) p q) : I q.db := by
  refine Pool.Reaches.invariant verified (fun _ _ => trivial) I (sound_of_runs run) first ?_ more
  rintro i ℓ d _ wf holds meets ⟨ws, rfl, commit⟩
  exact keeps ℓ d ws wf holds meets commit

theorem invariant_of_runs (I : Db → Prop) (first : I {})
    (keeps : ∀ ℓ d ws, Wf d → I d → cond ℓ d → Commit d ℓ ws → I (applyAll ws d))
    (run : Runs cond p) : I p.db :=
  invariant_from I keeps .refl first run

theorem later_of_reaches (run : Runs cond p) (more : Pool.Reaches system (Pool.Meets cond) p q) :
    Later p.db q.db := by
  refine invariant_from (Later p.db) (fun ℓ d ws _ sofar _ commit => ?_) run (.refl _) more
  exact sofar.trans commit.later

end Runs

end LabourBaba.Outbox
