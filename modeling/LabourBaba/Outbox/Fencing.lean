import LabourBaba.Outbox.Lifecycle

/-!
# Several holders of one event

A claim is a lease: when it has expired, another worker may claim the event again, or a
reconciliation returns it to PENDING, while the first holder still delivers. The delivery
passes no lease to `markEventSuccess` and `markEventFailure`, so its last write goes through
unless the event is finished; and it records a failed channel whatever the row says.
-/
namespace LabourBaba.Outbox

open Store

/-! ### Late writes -/

/-- The event was claimed again, or recovered. -/
def Entry.releases (id : Id) : Entry → Bool
  | .claimed record => decide (record.id = id)
  | .recovered id' => decide (id' = id)
  | _ => false

/-- The lease of the claim is lost: its event was released since. -/
def Db.stale (d : Db) (claim : Nat) : Bool :=
  match d.journal[claim]? with
  | some (.claimed record) => (d.journal.drop (claim + 1)).any (Entry.releases record.id)
  | _ => false

/-- The event and the claim of a delivery's last write. -/
def Label.concludes : Label → Option (Id × Nat)
  | .marked id (some claim) | .failed id (some claim) _ => some (id, claim)
  | _ => none

def Db.finished (d : Db) (id : Id) : Bool := (d.event id).all fun r => !r.status.unfinished

/-- The last write of a holder that has lost its lease finds the event finished. -/
def lateWritesFindFinished (ℓ : Label) (d : Db) : Bool :=
  match ℓ.concludes with
  | some (id, claim) => !d.stale claim || d.finished id
  | none => true

/-- What a holder decides about its event. -/
def OutboxRecord.outcome (r : OutboxRecord) : OutboxStatus × Nat × Nat :=
  (r.status, r.attempts, r.availableAt)

/-- A last write leaves the event of a lost lease alone. -/
def Fenced (ℓ : Option Label) (d d' : Db) : Prop :=
  ∀ id claim, ℓ.bind Label.concludes = some (id, claim) → d.stale claim = true →
    (d'.event id).map OutboxRecord.outcome = (d.event id).map OutboxRecord.outcome

/-- The label of the statement an event runs. -/
def labelOf (p : OutboxPool) : Event Op → Option Label
  | .run i _ => p.next i
  | _ => none

/-- A last write changes nothing of a finished event. -/
theorem Commit.concludes {d : Db} {ℓ : Label} {ws : List Write} {id : Id} {claim : Nat}
    (commit : Commit d ℓ ws) (named : ℓ.concludes = some (id, claim))
    (finished : d.finished id = true) : applyAll ws d = d := by
  have unfinished : ∀ r, d.event id = some r → r.status.unfinished = true → False := by
    intro r found unfinished
    simp [Db.finished, found, unfinished] at finished
  cases commit with
  | idle => rfl
  | changed change =>
    cases change with
    | @marked id' claim' _ r found open_ =>
      cases claim' <;> cases named
      exact (unfinished r found open_).elim
    | @failed id' claim' _ _ r _ _ _ found open_ =>
      cases claim' <;> cases named
      exact (unfinished r found open_).elim
    | _ => cases named
  | _ => cases named

/-- In every run whose late writes find the event finished, they leave its status, its attempts
and the time of its next attempt alone. -/
theorem stale_writes_fenced {p q : OutboxPool} {e : Event Op}
    (run : Runs (fun ℓ d => lateWritesFindFinished ℓ d = true) p)
    (meets : Pool.Meets (fun ℓ d => lateWritesFindFinished ℓ d = true) p e)
    (stepped : p.step system e = some q) : Fenced (labelOf p e) p.db q.db := by
  intro id claim named stale
  rcases commit_of_event run stepped with same | ⟨i, answer, ℓ, ws, rfl, labelled, after, commit⟩
  · rw [same]
  · rw [labelOf, labelled, Option.bind_some] at named
    have found := meets i answer ℓ rfl labelled
    have finished : p.db.finished id = true := by
      simpa [lateWritesFindFinished, named, stale] using found
    rw [after, commit.concludes named finished]

/-- The first holder of event 1 could not reach FCM and is about to record the failure when its
lease runs out; the event is claimed again. -/
def reclaimed : List (Pool.Move Op) :=
  claimedOnce ++ [.event (.spawn (.processRecord 0 { fcm := .transient "unreachable" }))] ++
    List.replicate 12 (.event (.run 2 true)) ++
    [.event (.spawn (.tick 600000)), .drive 3 true,
     .event (.spawn (.claimPendingEvents 20 5 [])), .drive 4 true]

/-- The second holder finishes the event before the first one writes. -/
def reclaimedAndFinished : List (Pool.Move Op) :=
  reclaimed ++ [.event (.spawn (.processRecord 4 {})), .drive 5 true]

/-- The late failure of the first holder then leaves the event SENT. -/
theorem stale_writes_fenced_finished :
    ∃ q, (played (fun ℓ d => lateWritesFindFinished ℓ d = true) reclaimedAndFinished).step system
        (.run 2 true) = some q ∧
      (q.db.event 1).map OutboxRecord.outcome = some (.SENT, 0, 0) := by
  have facts : (∃ q, (played (fun ℓ d => lateWritesFindFinished ℓ d = true)
        reclaimedAndFinished).step system (.run 2 true) = some q) ∧
      Pool.Meets (fun ℓ d => lateWritesFindFinished ℓ d = true)
        (played (fun ℓ d => lateWritesFindFinished ℓ d = true) reclaimedAndFinished)
        (.run 2 true) ∧
      (labelOf (played (fun ℓ d => lateWritesFindFinished ℓ d = true) reclaimedAndFinished)
        (.run 2 true)).bind Label.concludes = some (1, 0) ∧
      (played (fun ℓ d => lateWritesFindFinished ℓ d = true) reclaimedAndFinished).db.stale 0 =
        true ∧
      ((played (fun ℓ d => lateWritesFindFinished ℓ d = true) reclaimedAndFinished).db.event 1).map
        OutboxRecord.outcome = some (.SENT, 0, 0) :=
    ⟨⟨_, rfl⟩, by decide +kernel, by decide +kernel, by decide +kernel, by decide +kernel⟩
  obtain ⟨⟨q, stepped⟩, meets, named, stale, sent⟩ := facts
  have fenced := stale_writes_fenced (runs_played _ reclaimedAndFinished) meets stepped 1 0 named
    stale
  exact ⟨q, stepped, fenced.trans sent⟩

/-- Every late write, in every run, is fenced off. -/
def LateWritesFenced : Prop :=
  ∀ p e q, Reachable p → p.step system e = some q → Fenced (labelOf p e) p.db q.db

/-- The failure of the first holder takes the event away from the second one. -/
theorem late_write_lands : ¬ LateWritesFenced := by
  intro fenced
  have lands : ∃ q, (played (fun _ _ => True) reclaimed).step system (.run 2 true) = some q ∧
      (labelOf (played (fun _ _ => True) reclaimed) (.run 2 true)).bind Label.concludes =
        some (1, 0) ∧
      (played (fun _ _ => True) reclaimed).db.stale 0 = true ∧
      ((played (fun _ _ => True) reclaimed).db.event 1).map OutboxRecord.outcome =
        some (.PROCESSING, 0, 0) ∧
      (q.db.event 1).map OutboxRecord.outcome = some (.PENDING, 1, 15000) := by
    refine ⟨_, rfl, ?_⟩
    decide +kernel
  obtain ⟨q, stepped, named, stale, before, after⟩ := lands
  have kept := fenced _ _ q (runs_played _ reclaimed) stepped 1 0 named stale
  rw [before, after] at kept
  exact absurd kept (by decide)

/-! ### Delivered channels -/

/-- The channel of the event is SENT. -/
def Db.delivered (d : Db) (id : Id) (ch : Channel) : Bool :=
  (d.event id).any fun r => decide ((r.channel ch).status = .SENT)

/-- A failed channel is recorded only while the row does not have it as SENT. -/
def failuresFindUnsent (ℓ : Label) (d : Db) : Bool :=
  match ℓ with
  | .channel id ch .FAILED => !d.delivered id ch
  | _ => true

theorem channel_setChannel (r : OutboxRecord) (delivery : Delivery) (ch ch' : Channel) :
    (r.setChannel delivery ch).channel ch' = if ch = ch' then delivery else r.channel ch' := by
  cases ch <;> cases ch' <;> rfl

/-- Only the record of its own failure takes a channel out of SENT. -/
theorem Update.keepsSent {u : Update} {r : OutboxRecord} {ch : Channel}
    (other : ∀ error t, u ≠ .unsent ch error t) (sent : (r.channel ch).status = .SENT) :
    ((u.on r).channel ch).status = .SENT := by
  cases u with
  | sent ch' deliveredAt t =>
    have set : ((Update.sent ch' deliveredAt t).on r).channel ch =
        (r.setChannel { status := .SENT, sentAt := some deliveredAt } ch').channel ch := by
      cases ch <;> rfl
    rw [set, channel_setChannel]
    split
    · rfl
    · exact sent
  | unsent ch' error t =>
    have differ : ch' ≠ ch := fun same => other error t (by rw [same])
    have set : ((Update.unsent ch' error t).on r).channel ch =
        (r.setChannel { r.channel ch' with status := .FAILED, error := some error } ch').channel
          ch := by
      cases ch <;> rfl
    rw [set, channel_setChannel, if_neg differ]
    exact sent
  | _ => cases ch <;> exact sent

theorem Change.unsent_label {d : Db} {ℓ : Label} {ids : List Id} {id : Id} {ch : Channel}
    {error : String} {t : Nat} (change : Change d ℓ ids (.unsent ch error t)) (hit : id ∈ ids) :
    ids = [id] ∧ ℓ = .channel id ch .FAILED := by
  generalize same : Update.unsent ch error t = u at change
  cases change with
  | unsent =>
    cases same
    obtain rfl := List.mem_singleton.mp hit
    exact ⟨rfl, rfl⟩
  | failed =>
    simp only [failureUpdate] at same
    split at same <;> cases same
  | _ => cases same

theorem Commit.keepsDelivered {d : Db} {ℓ : Label} {ws : List Write} {id : Id} {ch : Channel}
    (commit : Commit d ℓ ws) (unsent : failuresFindUnsent ℓ d = true)
    (delivered : d.delivered id ch = true) : (applyAll ws d).delivered id ch = true := by
  obtain ⟨r, found, sent⟩ := (Option.any_eq_true _ _).mp delivered
  cases commit with
  | @created new t free =>
    have kept : (applyAll [Write.create (new.record t)] d).event id = some r :=
      Table.find_insert_of_some found
    rw [Db.delivered, kept]
    exact sent
  | @changed _ ids u change =>
    have after : (applyAll [Write.update ids u] d).event id =
        some (if id ∈ ids then u.on r else r) := by
      rw [applyAll_cons, applyAll_nil, write_eq_apply, event_update, found, Option.map_some]
    rw [Db.delivered, after, Option.any_some, decide_eq_true_eq]
    split
    next hit =>
      refine Update.keepsSent (fun error t same => ?_) (of_decide_eq_true sent)
      -- a recorded failure of this channel would have found it SENT
      subst same
      obtain ⟨rfl, rfl⟩ := change.unsent_label hit
      simp [failuresFindUnsent, delivered] at unsent
    next => exact of_decide_eq_true sent
  | idle | started | emitted | ticked => exact delivered

/-- Since the journal had `k` entries, every claim of the event has returned the channel as
SENT. -/
def ClaimedAsSent (id : Id) (ch : Channel) (k : Nat) (d : Db) : Prop :=
  ∀ n r, k ≤ n → d.journal[n]? = some (.claimed r) → r.id = id → (r.channel ch).status = .SENT

/-- A claim that a commit adds returns the row as it is. -/
theorem Commit.claims {d : Db} {ℓ : Label} {ws : List Write} {n : Nat} {r : OutboxRecord}
    (wf : Wf d) (commit : Commit d ℓ ws) (new : d.journal.length ≤ n)
    (held : (applyAll ws d).journal[n]? = some (.claimed r)) :
    ∃ old, d.event r.id = some old ∧ ∀ ch, r.channel ch = old.channel ch := by
  have absent : ∀ e, (d.journal ++ [e])[n]? = some (Entry.claimed r) → e = .claimed r := by
    intro e held
    rw [List.getElem?_append_right new, List.getElem?_singleton] at held
    split at held
    · exact Option.some.inj held
    · cases held
  have beyond : d.journal[n]? ≠ some (.claimed r) := by
    rw [List.getElem?_eq_none new]
    nofun
  cases commit with
  | idle | created | ticked => exact absurd held beyond
  | started => cases absent _ held
  | emitted => cases absent _ held
  | @changed _ ids u change =>
    have added : (d.journal ++ d.entries ids u)[n]? = some (.claimed r) := held
    rw [List.getElem?_append_right new] at added
    obtain ⟨old, among, told⟩ := List.mem_filterMap.mp (List.mem_of_getElem? added)
    have stored := Table.find_of_mem wf.ids (List.mem_filter.mp among).1
    cases u with
    | claim t =>
      cases told
      exact ⟨old, stored, fun ch => by cases ch <;> rfl⟩
    | _ => cases told

theorem Commit.keepsClaimedAsSent {d : Db} {ℓ : Label} {ws : List Write} {id : Id} {ch : Channel}
    {k : Nat} (wf : Wf d) (commit : Commit d ℓ ws) (delivered : d.delivered id ch = true)
    (claimed : ClaimedAsSent id ch k d) : ClaimedAsSent id ch k (applyAll ws d) := by
  intro n r beyond held named
  rcases Nat.lt_or_ge n d.journal.length with old | new
  · have kept := commit.later.entry (List.getElem?_eq_getElem old)
    rw [held] at kept
    exact claimed n r beyond ((List.getElem?_eq_getElem old).trans kept.symm) named
  · obtain ⟨row, found, same⟩ := commit.claims wf new held
    obtain ⟨row', found', sent⟩ := (Option.any_eq_true _ _).mp delivered
    rw [named] at found
    obtain rfl := Option.some.inj (found.symm.trans found')
    rw [same]
    exact of_decide_eq_true sent

/-- Whoever emitted on a channel had claimed the event with the channel not yet SENT. -/
def EmittedUnsent (d : Db) : Prop :=
  ∀ n ch, .emitted n ch ∈ d.journal →
    ∃ r, d.journal[n]? = some (.claimed r) ∧ (r.channel ch).status ≠ .SENT

theorem Commit.keepsEmittedUnsent {d : Db} {ℓ : Label} {ws : List Write} (commit : Commit d ℓ ws)
    (emitted : EmittedUnsent d) : EmittedUnsent (applyAll ws d) := by
  have old : ∀ n ch, .emitted n ch ∈ d.journal → ∃ r,
      (applyAll ws d).journal[n]? = some (.claimed r) ∧ (r.channel ch).status ≠ .SENT := by
    intro n ch member
    obtain ⟨r, held, unsent⟩ := emitted n ch member
    exact ⟨r, commit.later.entry held, unsent⟩
  intro n ch member
  cases commit with
  | idle | created | ticked => exact old n ch member
  | started =>
    rcases List.mem_append.mp member with member | member
    · exact old n ch member
    · cases List.mem_singleton.mp member
  | @emitted claim ch' record held unsent =>
    rcases List.mem_append.mp member with member | member
    · exact old n ch member
    · cases List.mem_singleton.mp member
      exact ⟨record, (Commit.emitted held unsent).later.entry held, unsent⟩
  | @changed _ ids u change =>
    rcases List.mem_append.mp member with member | member
    · exact old n ch member
    · obtain ⟨r, -, told⟩ := List.mem_filterMap.mp member
      cases u <;> cases told

/-- In every run in which failures are recorded only of unsent channels, a channel that is SENT
stays SENT, and no delivery of a later claim emits on it. -/
theorem delivered_channel_kept {p q : OutboxPool}
    (run : Runs (fun ℓ d => failuresFindUnsent ℓ d = true) p)
    (more : Pool.Reaches system (Pool.Meets fun ℓ d => failuresFindUnsent ℓ d = true) p q)
    {id : Id} {ch : Channel} (delivered : p.db.delivered id ch = true) :
    q.db.delivered id ch = true ∧
      ∀ n r, p.db.journal.length ≤ n → q.db.journal[n]? = some (.claimed r) → r.id = id →
        .emitted n ch ∉ q.db.journal := by
  have kept := invariant_from
    (fun d => d.delivered id ch = true ∧ ClaimedAsSent id ch p.db.journal.length d)
    (fun ℓ d ws wf known unsent commit => ⟨commit.keepsDelivered unsent known.1,
      commit.keepsClaimedAsSent wf known.1 known.2⟩) run
    ⟨delivered, fun n r beyond held => by rw [List.getElem?_eq_none beyond] at held; cases held⟩ more
  refine ⟨kept.1, fun n r beyond held named member => ?_⟩
  have all : EmittedUnsent q.db := invariant_of_runs EmittedUnsent (by intro n ch member; cases member)
    (fun _ _ _ _ emitted _ commit => commit.keepsEmittedUnsent emitted) (run.trans more)
  obtain ⟨r', held', unsent⟩ := all n ch member
  cases held.symm.trans held'
  exact unsent (kept.2 n r beyond held named)

/-- Socket.IO has the event and FCM does not: the event waits for its next attempt. -/
def sentBySocket : List (Pool.Move Op) :=
  claimedOnce ++ [.event (.spawn (.processRecord 0 { fcm := .transient "unreachable" })),
    .drive 2 true]

/-- The retry of the other channel. -/
def retried : List (Pool.Move Op) :=
  [.event (.spawn (.tick 600000)), .drive 3 true, .event (.spawn (.claimPendingEvents 20 5 [])),
   .drive 4 true, .event (.spawn (.processRecord 5 {})), .drive 5 true]

/-- The retry emits by FCM and not by Socket.IO. -/
theorem delivered_channel_kept_retried :
    (played (fun ℓ d => failuresFindUnsent ℓ d = true) sentBySocket).db.delivered 1 .socket =
        true ∧
      .emitted 5 .fcm ∈ ((played (fun ℓ d => failuresFindUnsent ℓ d = true) sentBySocket).after
        system (Pool.Meets fun ℓ d => failuresFindUnsent ℓ d = true) 40 retried).db.journal ∧
      .emitted 5 .socket ∉ ((played (fun ℓ d => failuresFindUnsent ℓ d = true) sentBySocket).after
        system (Pool.Meets fun ℓ d => failuresFindUnsent ℓ d = true) 40 retried).db.journal := by
  have sent : (played (fun ℓ d => failuresFindUnsent ℓ d = true) sentBySocket).db.delivered 1
      .socket = true := by decide +kernel
  have claimed : ∃ r, ((played (fun ℓ d => failuresFindUnsent ℓ d = true) sentBySocket).after
      system (Pool.Meets fun ℓ d => failuresFindUnsent ℓ d = true) 40 retried).db.journal[5]? =
        some (.claimed r) ∧ r.id = 1 := ⟨_, rfl, rfl⟩
  obtain ⟨r, held, named⟩ := claimed
  have kept := delivered_channel_kept (runs_played _ sentBySocket)
    (Pool.Reaches.refl.after 40 retried) sent
  exact ⟨sent, by decide +kernel, kept.2 5 r (by decide +kernel) held named⟩

/-- In every run a channel that is SENT stays so, and no later claim emits on it. -/
def DeliveredStays : Prop :=
  ∀ p q id ch, Reachable p → Pool.Reaches system (fun _ _ => True) p q →
    p.db.delivered id ch = true → q.db.delivered id ch = true ∧
      ∀ n r, p.db.journal.length ≤ n → q.db.journal[n]? = some (.claimed r) → r.id = id →
        .emitted n ch ∉ q.db.journal

/-- Two holders of the event: the first one is about to record that Socket.IO has failed. -/
def failsOnSocket : List (Pool.Move Op) :=
  claimedOnce ++ [.event (.spawn (.processRecord 0 { socket := .thrown "closed" }))] ++
    List.replicate 3 (.event (.run 2 true)) ++
    [.event (.spawn (.tick 600000)), .drive 3 true,
     .event (.spawn (.claimPendingEvents 20 5 [])), .drive 4 true,
     .event (.spawn (.processRecord 3 {})), .drive 5 true]

/-- The failure of the first holder overwrites the delivery by the second one. -/
theorem delivered_channel_overwritten : ¬ DeliveredStays := by
  intro stays
  have sent : (played (fun _ _ => True) failsOnSocket).db.delivered 1 .socket = true := by
    decide +kernel
  have lost : ((played (fun _ _ => True) failsOnSocket).after system (fun _ _ => True) 40
      [.event (.run 2 true)]).db.delivered 1 .socket = false := by decide +kernel
  have kept := (stays _ _ 1 .socket (runs_played _ failsOnSocket)
    (Pool.Reaches.refl.after 40 [.event (.run 2 true)]) sent).1
  rw [lost] at kept
  cases kept

end LabourBaba.Outbox
