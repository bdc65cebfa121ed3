import LabourBaba.Outbox.Services
import Mathlib

/-!
# Retention

`outboxService.cleanupAgedEvents`, which deletes aged events in one statement, against the first
three invariants of its contract. The rules on SENT events keep all of them. The rule on FAILED
events looks at `failed_at` alone, while customers acknowledge failed notifications like any
others (`acknowledgeNotification` does not read the status), so that it may prune an event that
another invariant still protects: `cleanup_keepsPromises_iff` says when.

Retention periods are numbers of days, whole or not, and the clock is read once.
-/
namespace LabourBaba.Outbox

/-! ### The sweep -/

structure CleanupOptions where
  acknowledgedRetentionDays : Option ℚ := none
  unacknowledgedRetentionDays : Option ℚ := none
  failedRetentionDays : Option ℚ := none

namespace CleanupOptions

variable (options : CleanupOptions)

def ackDays : ℚ := options.acknowledgedRetentionDays.getD 30

def unackDays : ℚ := options.unacknowledgedRetentionDays.getD 90

def failedDays : ℚ := options.failedRetentionDays.getD 30

end CleanupOptions

/-- `new Date(value)`, which drops the fraction of a millisecond. -/
def newDate (value : ℚ) : ℤ := if 0 ≤ value then ⌊value⌋ else ⌈value⌉

/-- The date that lies some days before a moment. -/
def daysBefore (now : ℕ) (days : ℚ) : ℤ := newDate (now - days * 24 * 60 * 60 * 1000)

/-- `{ not: null, lte: cutoff }`. -/
def setBy (cutoff : ℤ) (column : Option ℕ) : Bool :=
  column.any fun t : ℕ => decide ((t : ℤ) ≤ cutoff)

/-- The where clause of the statement: the three rules. -/
def aged (ackCutoff unackCutoff failedCutoff : ℤ) (r : OutboxRecord) : Bool :=
  decide (r.status = .SENT) && setBy ackCutoff r.acknowledgedAt ||
  decide (r.status = .SENT) && r.acknowledgedAt.isNone && setBy unackCutoff (some r.createdAt) ||
  decide (r.status = .FAILED) && setBy failedCutoff r.failedAt

structure CleanupResult where
  deletedCount : ℕ
deriving DecidableEq, Repr

def cleanupAgedEvents (options : CleanupOptions) (d : Db) : Db × CleanupResult :=
  let ackCutoff := daysBefore d.now options.ackDays
  let unackCutoff := daysBefore d.now options.unackDays
  let failedCutoff := daysBefore d.now options.failedDays
  ({ d with events := d.events.filter fun r => !aged ackCutoff unackCutoff failedCutoff r },
    ⟨(d.events.filter (aged ackCutoff unackCutoff failedCutoff)).length⟩)

/-- What the rules select is deleted and counted; everything else stays. -/
theorem length_cleanupAgedEvents (options : CleanupOptions) (d : Db) :
    (cleanupAgedEvents options d).1.events.length +
      (cleanupAgedEvents options d).2.deletedCount = d.events.length := by
  simp only [cleanupAgedEvents, ← List.countP_eq_length_filter]
  rw [Nat.add_comm, List.length_eq_countP_add_countP (aged (daysBefore d.now options.ackDays)
    (daysBefore d.now options.unackDays) (daysBefore d.now options.failedDays))]
  simp only [Bool.not_eq_true, Bool.decide_eq_false]

/-! ### Dates -/

/-- After the epoch, a moment has passed the date exactly if it is not less than the days ago. -/
theorem le_daysBefore {t now : ℕ} (positive : 0 < t) (days : ℚ) :
    (t : ℤ) ≤ daysBefore now days ↔ days * 24 * 60 * 60 * 1000 ≤ (now : ℚ) - t := by
  rw [daysBefore, newDate]
  split
  next after => rw [Int.le_floor, Int.cast_natCast, le_sub_comm]
  next before =>
    have early : ⌈(now : ℚ) - days * 24 * 60 * 60 * 1000⌉ ≤ 0 :=
      Int.ceil_le.mpr (by simpa using (not_le.mp before).le)
    have moment : (0 : ℚ) < t := by exact_mod_cast positive
    constructor
    · intro passed
      omega
    · intro passed
      exact absurd (by linarith : (0 : ℚ) ≤ now - days * 24 * 60 * 60 * 1000) before

/-! ### What the contract protects -/

/-- Acknowledged less than the retention period ago. -/
def AcknowledgedLately (options : CleanupOptions) (now : ℕ) (r : OutboxRecord) : Prop :=
  ∃ t, r.acknowledgedAt = some t ∧ daysBefore now options.ackDays < t

/-- A customer's notification that was not acknowledged, inside the recovery window. -/
def Recoverable (options : CleanupOptions) (now : ℕ) (r : OutboxRecord) : Prop :=
  r.recipientType = .customer ∧ r.acknowledgedAt = none ∧
    daysBefore now options.unackDays < r.createdAt

/-- Failed, and kept for audit long enough. -/
def Audited (options : CleanupOptions) (now : ℕ) (r : OutboxRecord) : Prop :=
  r.status = .FAILED ∧ setBy (daysBefore now options.failedDays) r.failedAt = true

/-- What invariants 1, 2 and 3 of the contract forbid to delete. -/
inductive Promised (options : CleanupOptions) (now : ℕ) (r : OutboxRecord) : Prop
  | unfinished (status : r.status = .PENDING ∨ r.status = .PROCESSING)
  | acknowledged (lately : AcknowledgedLately options now r)
  | recoverable (young : Recoverable options now r)

/-- No promised event is deleted. -/
def KeepsPromises (options : CleanupOptions) (d : Db) : Prop :=
  ∀ r ∈ d.events, Promised options d.now r → r ∈ (cleanupAgedEvents options d).1.events

variable {options : CleanupOptions} {d : Db} {r : OutboxRecord}

theorem mem_cleanupAgedEvents (member : r ∈ d.events) :
    r ∈ (cleanupAgedEvents options d).1.events ↔
      aged (daysBefore d.now options.ackDays) (daysBefore d.now options.unackDays)
        (daysBefore d.now options.failedDays) r = false := by
  simp [cleanupAgedEvents, member]

/-- The rules on SENT events, and the one on FAILED events. -/
theorem aged_iff (now : ℕ) :
    aged (daysBefore now options.ackDays) (daysBefore now options.unackDays)
        (daysBefore now options.failedDays) r = true ↔
      (r.status = .SENT ∧ (setBy (daysBefore now options.ackDays) r.acknowledgedAt = true ∨
        r.acknowledgedAt = none ∧ (r.createdAt : ℤ) ≤ daysBefore now options.unackDays)) ∨
      Audited options now r := by
  simp only [aged, Bool.or_eq_true, Bool.and_eq_true, decide_eq_true_eq, Option.isNone_iff_eq_none,
    setBy, Option.any_some, Audited]
  tauto

/-- The rules on SENT events delete nothing that is promised. -/
theorem Promised.not_aged (promised : Promised options d.now r)
    (kept : ¬ Audited options d.now r) :
    aged (daysBefore d.now options.ackDays) (daysBefore d.now options.unackDays)
      (daysBefore d.now options.failedDays) r = false := by
  rw [Bool.eq_false_iff, ne_eq, aged_iff]
  rintro (⟨sent, rules⟩ | audited)
  · cases promised with
    | unfinished status =>
      rw [sent] at status
      rcases status with status | status <;> cases status
    | acknowledged lately =>
      obtain ⟨t, acked, recent⟩ := lately
      rw [acked] at rules
      rcases rules with passed | ⟨null, -⟩
      · have old : (t : ℤ) ≤ daysBefore d.now options.ackDays := by simpa [setBy] using passed
        omega
      · cases null
    | recoverable young =>
      obtain ⟨-, null, recent⟩ := young
      rw [null] at rules
      rcases rules with passed | ⟨-, old⟩
      · cases passed
      · omega
  · exact kept audited

/-- The contract is kept exactly if no FAILED event that is due for deletion was acknowledged
lately or can still be recovered by its customer. -/
theorem cleanup_keepsPromises_iff (options : CleanupOptions) (d : Db) :
    KeepsPromises options d ↔
      ∀ r ∈ d.events, Audited options d.now r →
        ¬ AcknowledgedLately options d.now r ∧ ¬ Recoverable options d.now r := by
  constructor
  · intro keeps r member audited
    have gone : ¬ Promised options d.now r := by
      intro promised
      have stays := (mem_cleanupAgedEvents member).mp (keeps r member promised)
      rw [(aged_iff d.now).mpr (.inr audited)] at stays
      cases stays
    exact ⟨fun lately => gone (.acknowledged lately), fun young => gone (.recoverable young)⟩
  · intro none r member promised
    rw [mem_cleanupAgedEvents member]
    by_cases audited : Audited options d.now r
    · -- a FAILED event is promised only through the other two invariants
      obtain ⟨notLately, notYoung⟩ := none r member audited
      cases promised with
      | unfinished status =>
        rw [audited.1] at status
        rcases status with status | status <;> cases status
      | acknowledged lately => exact absurd lately notLately
      | recoverable young => exact absurd young notYoung
    · exact promised.not_aged audited

theorem defaultAttempts_pos : 0 < 5 := by decide

/-- A notification of a customer fails for good, and 31 days pass before the next sweep. -/
def failedOffline : List (Store.Pool.Move Op) :=
  [.event (.spawn (.createOutboxEvent ⟨1, .customer, 7, [], 5, defaultAttempts_pos⟩)), .drive 0 true,
    .event (.spawn (.markEventFailure 1 "unregistered" true none)), .drive 1 true,
    .event (.spawn (.tick (31 * 24 * 60 * 60 * 1000))), .drive 2 true]

/-- The sweep deletes it with the default periods, 59 days before the recovery window ends. -/
theorem recoverable_deleted : ∃ p, Reachable p ∧ ¬ KeepsPromises {} p.db := by
  refine ⟨played (fun _ _ => True) failedOffline, runs_played _ _, fun keeps => ?_⟩
  have stored : (played (fun _ _ => True) failedOffline).db.events.map (fun r =>
      (r.recipientType, r.acknowledgedAt, r.createdAt, r.status, r.failedAt)) =
      [(.customer, none, 0, .FAILED, some 0)] := by decide +kernel
  have clock : (played (fun _ _ => True) failedOffline).db.now = 31 * 24 * 60 * 60 * 1000 := by
    decide +kernel
  obtain ⟨r, only, columns⟩ := List.map_eq_singleton_iff.mp stored
  simp only [Prod.mk.injEq] at columns
  obtain ⟨customer, null, created, status, failed⟩ := columns
  have member : r ∈ (played (fun _ _ => True) failedOffline).db.events := only ▸ .head _
  have promised : Recoverable {} (31 * 24 * 60 * 60 * 1000) r :=
    ⟨customer, null, by rw [created]; decide +kernel⟩
  have audited : Audited {} (31 * 24 * 60 * 60 * 1000) r :=
    ⟨status, by rw [failed]; decide +kernel⟩
  rw [← clock] at promised audited
  have stays := (mem_cleanupAgedEvents member).mp (keeps r member (.recoverable promised))
  rw [(aged_iff _).mpr (.inr audited)] at stays
  cases stays

end LabourBaba.Outbox
