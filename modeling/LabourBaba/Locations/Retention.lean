import LabourBaba.Locations.Tracking
import LabourBaba.Store.Machine
import LabourBaba.Text.Utf16
import Mathlib

/-!
# Retention of the location history

`cleanupExpiredLocationHistory` deletes the expired rows of `worker_location` in batches. A
batch is two events, since the rows that its subquery selects may be deleted by another cleanup
before it deletes them; which expired rows it selects is open. Any number of cleanups run
between each other, while workers store locations.
-/
namespace LabourBaba.Locations

open Utf16

/-! ### Options -/

/-- `getRetentionDays`, with LOCATION_HISTORY_RETENTION_DAYS. -/
def getRetentionDays (raw : Option Text) : ℤ :=
  match (raw.filter (· ≠ [])).bind parseInt with
  | none => 30
  | some parsed => if parsed < 1 then 30 else if parsed > 365 then 365 else parsed

theorem getRetentionDays_bounded (raw : Option Text) :
    1 ≤ getRetentionDays raw ∧ getRetentionDays raw ≤ 365 := by
  simp only [getRetentionDays]
  split
  · decide
  · split
    · decide
    · split <;> omega

structure CleanupOptions where
  batchSize : Option ℤ := none
  retentionDays : Option ℤ := none
deriving DecidableEq

/-- `Math.max(1, Math.min(options?.batchSize || 1000, 5000))` -/
def CleanupOptions.size (options : CleanupOptions) : ℕ :=
  (max 1 (min ((options.batchSize.filter (· ≠ 0)).getD 1000) 5000)).toNat

theorem CleanupOptions.size_pos (options : CleanupOptions) : 0 < options.size := by
  simp only [CleanupOptions.size]
  omega

def dayMs : ℤ := 86400000

/-- `getExpirationCutoffDate` -/
def getExpirationCutoffDate (raw : Option Text) (retentionDays : Option ℤ) (now : ℕ) : ℤ :=
  now - retentionDays.getD (getRetentionDays raw) * dayMs

/-! ### Cleanups -/

inductive Phase where
  | selecting
  /-- The rows that the subquery has selected. -/
  | deleting (ids : List Id)
  | returned
  | failed
deriving DecidableEq

structure Cleanup where
  options : CleanupOptions
  startedAt : ℕ
  cutoffDate : ℤ
  phase : Phase := .selecting
  totalDeleted : ℕ := 0
  /-- The loop counts a batch before it runs it. -/
  batchesProcessed : ℕ := 1
deriving DecidableEq

namespace Cleanup

def size (c : Cleanup) : ℕ := c.options.size

def expired (c : Cleanup) (row : WorkerLocation) : Bool :=
  decide ((row.updatedAt : ℤ) < c.cutoffDate)

def selected (c : Cleanup) (ids : List Id) : Cleanup :=
  { c with phase := .deleting ids }

/-- After a batch: a short one is the last. -/
def deleted (c : Cleanup) (result : ℕ) : Cleanup :=
  { c with
    totalDeleted := c.totalDeleted + result
    batchesProcessed := if result < c.size then c.batchesProcessed else c.batchesProcessed + 1
    phase := if result < c.size then .returned else .selecting }

end Cleanup

structure History where
  now : ℕ := 0
  rows : List WorkerLocation := []
  /-- The rows that are gone, each with the number of the cleanup that deleted it. -/
  gone : List (ℕ × WorkerLocation) := []
  cleanups : List Cleanup := []
deriving DecidableEq

namespace History

/-- Every row that was ever stored. -/
def stored (s : History) : List WorkerLocation := s.rows ++ s.gone.map Prod.snd

/-- What a subquery with its LIMIT may select. -/
def Selects (s : History) (c : Cleanup) (ids : List Id) : Prop :=
  ids.Nodup ∧ ids ⊆ (s.rows.filter c.expired).map WorkerLocation.id ∧
    ids.length = min c.size (s.rows.filter c.expired).length

instance (s : History) (c : Cleanup) (ids : List Id) : Decidable (s.Selects c ids) :=
  inferInstanceAs (Decidable (_ ∧ _ ∧ _))

def put (s : History) (i : ℕ) (c : Cleanup) : History := { s with cleanups := s.cleanups.set i c }

end History

inductive Event where
  | tick (ms : ℕ)
  | store (row : WorkerLocation)
  | start (options : CleanupOptions)
  | select (i : ℕ) (ids : List Id)
  | delete (i : ℕ)
  /-- A statement of the cleanup fails. -/
  | fail (i : ℕ)
deriving DecidableEq

/-- What can happen next; the identifiers of rows are never drawn twice. -/
def step (raw : Option Text) (s : History) : Event → Option History
  | .tick ms => some { s with now := s.now + ms }
  | .store row =>
    if row.id ∈ s.stored.map WorkerLocation.id then none
    else some { s with rows := s.rows ++ [row] }
  | .start options =>
    some { s with cleanups := s.cleanups ++ [
      { options, startedAt := s.now
        cutoffDate := getExpirationCutoffDate raw options.retentionDays s.now }] }
  | .select i ids => do
    let c ← s.cleanups[i]?
    if c.phase = .selecting ∧ s.Selects c ids then some (s.put i (c.selected ids)) else none
  | .delete i => do
    let c ← s.cleanups[i]?
    match c.phase with
    | .deleting ids =>
      let batch := s.rows.filter fun row => decide (row.id ∈ ids)
      some { s.put i (c.deleted batch.length) with
        rows := s.rows.filter fun row => decide (row.id ∉ ids)
        gone := s.gone ++ batch.map fun row => (i, row) }
    | _ => none
  | .fail i => do
    let c ← s.cleanups[i]?
    if c.phase = .returned then none else some (s.put i { c with phase := .failed })

/-! ### What one event does -/

section Steps

variable {raw : Option Text} {s t : History}

/-- The rows that a list of events stores. -/
def storedBy (es : List Event) : List WorkerLocation :=
  es.filterMap fun e => match e with
    | .store row => some row
    | _ => none

theorem select_of_step {i : ℕ} {ids : List Id} (stepped : step raw s (.select i ids) = some t) :
    ∃ c, s.cleanups[i]? = some c ∧ c.phase = .selecting ∧ s.Selects c ids ∧
      t = s.put i (c.selected ids) := by
  obtain ⟨c, found, stepped⟩ := Option.bind_eq_some_iff.mp stepped
  split at stepped
  next allowed => exact ⟨c, found, allowed.1, allowed.2, (Option.some.inj stepped).symm⟩
  next => cases stepped

theorem delete_of_step {i : ℕ} (stepped : step raw s (.delete i) = some t) :
    ∃ c ids, s.cleanups[i]? = some c ∧ c.phase = .deleting ids ∧
      t.now = s.now ∧ t.rows = s.rows.filter (fun row => decide (row.id ∉ ids)) ∧
      t.gone = s.gone ++ (s.rows.filter fun row => decide (row.id ∈ ids)).map (fun row => (i, row)) ∧
      t.cleanups = s.cleanups.set i
        (c.deleted (s.rows.filter fun row => decide (row.id ∈ ids)).length) := by
  obtain ⟨c, found, stepped⟩ := Option.bind_eq_some_iff.mp stepped
  split at stepped
  next ids deleting =>
    obtain rfl := Option.some.inj stepped
    exact ⟨c, ids, found, deleting, rfl, rfl, rfl, rfl⟩
  next => cases stepped

theorem fail_of_step {i : ℕ} (stepped : step raw s (.fail i) = some t) :
    ∃ c, s.cleanups[i]? = some c ∧ c.phase ≠ .returned ∧ t = s.put i { c with phase := .failed } := by
  obtain ⟨c, found, stepped⟩ := Option.bind_eq_some_iff.mp stepped
  split at stepped
  · cases stepped
  next running => exact ⟨c, found, running, (Option.some.inj stepped).symm⟩

theorem store_of_step {row : WorkerLocation} (stepped : step raw s (.store row) = some t) :
    row.id ∉ s.stored.map WorkerLocation.id ∧ t = { s with rows := s.rows ++ [row] } := by
  simp only [step] at stepped
  split at stepped
  · cases stepped
  next fresh => exact ⟨fresh, (Option.some.inj stepped).symm⟩

/-- No row is lost or comes twice: a batch only moves rows. -/
theorem stored_of_step {e : Event} (stepped : step raw s e = some t) :
    t.stored.Perm (s.stored ++ storedBy [e]) := by
  cases e with
  | tick ms | start options =>
    obtain rfl := Option.some.inj stepped
    simp [storedBy, History.stored]
  | select i ids =>
    obtain ⟨c, -, -, -, rfl⟩ := select_of_step stepped
    simp [storedBy, History.stored, History.put]
  | fail i =>
    obtain ⟨c, -, -, rfl⟩ := fail_of_step stepped
    simp [storedBy, History.stored, History.put]
  | store row =>
    obtain ⟨-, rfl⟩ := store_of_step stepped
    simp only [storedBy, History.stored, List.filterMap_cons, List.filterMap_nil, List.append_assoc]
    exact (List.perm_append_comm).append_left _
  | delete i =>
    obtain ⟨c, ids, -, -, -, rows, gone, -⟩ := delete_of_step stepped
    simp only [storedBy, History.stored, rows, gone, List.map_append, List.map_map,
      List.filterMap_cons, List.filterMap_nil, List.append_nil]
    have parts : (s.rows.filter (fun row => decide (row.id ∉ ids)) ++
        s.rows.filter (fun row => decide (row.id ∈ ids))).Perm s.rows := by
      have split := List.filter_append_perm (fun row => decide (row.id ∈ ids)) s.rows
      refine List.perm_append_comm.trans (.trans (.append_left _ (.of_eq ?_)) split)
      exact List.filter_congr fun row _ => by simp
    have batch : List.map (Prod.snd ∘ fun row : WorkerLocation => (i, row))
        (s.rows.filter fun row => decide (row.id ∈ ids)) =
        s.rows.filter fun row => decide (row.id ∈ ids) := List.map_id _
    rw [batch]
    calc _ = (s.rows.filter (fun row => decide (row.id ∉ ids)) ++ (s.gone.map Prod.snd ++
          s.rows.filter (fun row => decide (row.id ∈ ids)))) := rfl
      _ |>.Perm (s.rows.filter (fun row => decide (row.id ∉ ids)) ++
          (s.rows.filter (fun row => decide (row.id ∈ ids)) ++ s.gone.map Prod.snd)) :=
        List.perm_append_comm.append_left _
      _ |>.Perm (s.rows ++ s.gone.map Prod.snd) := by
        rw [← List.append_assoc]
        exact parts.append_right _

/-- A row that is stored was there before, or has an identifier of its own. -/
theorem grown_of_step {e : Event} (stepped : step raw s e = some t) :
    s.stored ⊆ t.stored ∧
      ∀ row ∈ t.stored, row ∈ s.stored ∨ row.id ∉ s.stored.map WorkerLocation.id := by
  have moved := stored_of_step stepped
  refine ⟨fun row member => moved.symm.subset (List.mem_append_left _ member), fun row member => ?_⟩
  rcases List.mem_append.mp (moved.subset member) with old | new
  · exact Or.inl old
  · cases e with
    | store row' =>
      obtain ⟨fresh, -⟩ := store_of_step stepped
      obtain rfl : row = row' := by simpa [storedBy] using new
      exact Or.inr fresh
    | _ => simp [storedBy] at new

theorem unique_of_step {e : Event} (unique : (s.stored.map WorkerLocation.id).Nodup)
    (stepped : step raw s e = some t) : (t.stored.map WorkerLocation.id).Nodup := by
  refine ((stored_of_step stepped).map _).nodup_iff.mpr ?_
  rw [List.map_append]
  cases e with
  | store row =>
    obtain ⟨fresh, -⟩ := store_of_step stepped
    simpa [storedBy] using List.Nodup.concat fresh unique
  | _ => simpa [storedBy] using unique

end Steps

/-! ### The invariant -/

/-- How far a cleanup is, with the rows that its last subquery has selected. -/
def Cleanup.Fits (c : Cleanup) (s : History) : Phase → Prop
  | .selecting => c.totalDeleted + c.size = c.batchesProcessed * c.size
  | .deleting ids => c.totalDeleted + c.size = c.batchesProcessed * c.size ∧ ids.length ≤ c.size ∧
      ids ⊆ s.stored.map WorkerLocation.id ∧ ∀ row ∈ s.stored, row.id ∈ ids → c.expired row = true
  | .returned => ∃ last < c.size, c.totalDeleted + c.size = c.batchesProcessed * c.size + last
  | .failed => c.batchesProcessed * c.size ≤ c.totalDeleted + c.size

/-- What holds of a cleanup with its number. -/
structure Cleanup.Proper (raw : Option Text) (s : History) (i : ℕ) (c : Cleanup) : Prop where
  cutoff : c.cutoffDate = getExpirationCutoffDate raw c.options.retentionDays c.startedAt
  counted : c.totalDeleted = s.gone.countP fun x => decide (x.1 = i)
  fits : c.Fits s c.phase

structure History.Proper (raw : Option Text) (s : History) : Prop where
  unique : (s.stored.map WorkerLocation.id).Nodup
  cleanups : ∀ (i : ℕ) (c : Cleanup), s.cleanups[i]? = some c → c.Proper raw s i
  gone : ∀ (i : ℕ) (row : WorkerLocation), (i, row) ∈ s.gone →
    ∃ c, s.cleanups[i]? = some c ∧ c.expired row = true

section Invariant

variable {raw : Option Text} {s t : History}

theorem Cleanup.Fits.later {c : Cleanup} {phase : Phase} {e : Event} (fits : c.Fits s phase)
    (stepped : step raw s e = some t) : c.Fits t phase := by
  cases phase with
  | deleting ids =>
    obtain ⟨counts, short, known, expired⟩ := fits
    obtain ⟨grown, apart⟩ := grown_of_step stepped
    refine ⟨counts, short, fun id member => ?_, fun row member selected => ?_⟩
    · obtain ⟨row, stored, rfl⟩ := List.mem_map.mp (known member)
      exact List.mem_map_of_mem (grown stored)
    · -- a row stored since the subquery has an identifier that was not selected
      rcases apart row member with old | fresh
      · exact expired row old selected
      · exact absurd (known selected) fresh
  | _ => exact fits

/-- No batch but the last is short, however far the cleanup is. -/
theorem Cleanup.Fits.full {c : Cleanup} {phase : Phase} (fits : c.Fits s phase) :
    c.batchesProcessed * c.size ≤ c.totalDeleted + c.size := by
  cases phase with
  | selecting => exact Nat.le_of_eq fits.symm
  | deleting ids => exact Nat.le_of_eq fits.1.symm
  | returned =>
    obtain ⟨last, -, counts⟩ := fits
    omega
  | failed => exact fits

/-- A cleanup that an event does not move. -/
theorem Cleanup.Proper.later {i : ℕ} {c : Cleanup} {e : Event} (proper : c.Proper raw s i)
    (stepped : step raw s e = some t)
    (others : t.gone.countP (fun x => decide (x.1 = i)) =
      s.gone.countP fun x => decide (x.1 = i)) : c.Proper raw t i :=
  ⟨proper.cutoff, others ▸ proper.counted, proper.fits.later stepped⟩

/-- At most as many rows are deleted as were selected. -/
theorem batch_length_le (unique : (s.stored.map WorkerLocation.id).Nodup) (ids : List Id) :
    (s.rows.filter fun row => decide (row.id ∈ ids)).length ≤ ids.length := by
  have inside : (s.rows.filter fun row => decide (row.id ∈ ids)).Sublist s.stored :=
    List.filter_sublist.trans (List.sublist_append_left _ _)
  have nodup := (inside.map WorkerLocation.id).nodup unique
  have chosen : (s.rows.filter fun row => decide (row.id ∈ ids)).map WorkerLocation.id ⊆ ids := by
    intro id member
    obtain ⟨row, selected, rfl⟩ := List.mem_map.mp member
    exact of_decide_eq_true (List.mem_filter.mp selected).2
  simpa using (nodup.subperm chosen).length_le

/-- A cleanup after its batch. -/
theorem deleted_fits {c : Cleanup} {n : ℕ}
    (counts : c.totalDeleted + c.size = c.batchesProcessed * c.size) (short : n ≤ c.size) :
    (c.deleted n).Fits t (c.deleted n).phase := by
  by_cases last : n < c.size
  · have phase : (c.deleted n).phase = .returned := if_pos last
    have batches : (c.deleted n).batchesProcessed = c.batchesProcessed := if_pos last
    rw [phase]
    refine ⟨n, last, ?_⟩
    calc c.totalDeleted + n + c.size = c.batchesProcessed * c.size + n := by omega
      _ = (c.deleted n).batchesProcessed * c.size + n := by rw [batches]
  · have phase : (c.deleted n).phase = .selecting := if_neg last
    have batches : (c.deleted n).batchesProcessed = c.batchesProcessed + 1 := if_neg last
    have full : n = c.size := by omega
    rw [phase]
    calc c.totalDeleted + n + c.size = c.batchesProcessed * c.size + c.size := by omega
      _ = (c.deleted n).batchesProcessed * c.size := by rw [batches, Nat.add_one_mul]

/-- An event that moves no cleanup. -/
theorem History.Proper.still {e : Event} (proper : s.Proper raw) (stepped : step raw s e = some t)
    (cleanups : t.cleanups = s.cleanups) (gone : t.gone = s.gone) : t.Proper raw := by
  refine ⟨unique_of_step proper.unique stepped, fun i c found => ?_, fun i row member => ?_⟩
  · exact (proper.cleanups i c (cleanups ▸ found)).later stepped (by rw [gone])
  · rw [cleanups]
    exact proper.gone i row (gone ▸ member)

/-- An event that moves one cleanup, and may delete rows for it. -/
theorem History.Proper.moved {e : Event} {i : ℕ} {c c' : Cleanup} (proper : s.Proper raw)
    (stepped : step raw s e = some t) (found : s.cleanups[i]? = some c)
    (cleanups : t.cleanups = s.cleanups.set i c') (cutoff : c'.cutoffDate = c.cutoffDate)
    (now : c'.Proper raw t i)
    (gone : ∃ batch : List WorkerLocation, t.gone = s.gone ++ batch.map (fun row => (i, row)) ∧
      ∀ row ∈ batch, c.expired row = true) : t.Proper raw := by
  obtain ⟨batch, gone, expired⟩ := gone
  have below := (List.getElem?_eq_some_iff.mp found).1
  refine ⟨unique_of_step proper.unique stepped, fun j x at_ => ?_, fun j row member => ?_⟩
  · rw [cleanups] at at_
    by_cases same : i = j
    · subst same
      rw [List.getElem?_set_self below] at at_
      exact Option.some.inj at_ ▸ now
    · rw [List.getElem?_set_ne same] at at_
      refine (proper.cleanups j x at_).later stepped ?_
      rw [gone, List.countP_append, List.countP_map]
      -- the batch is not counted for a cleanup with another number
      have none : batch.countP ((fun x => decide (x.1 = j)) ∘ fun row => (i, row)) = 0 := by
        simp [Function.comp, same]
      rw [none, Nat.add_zero]
  · rw [cleanups]
    rw [gone] at member
    by_cases same : i = j
    · subst same
      refine ⟨c', List.getElem?_set_self below, ?_⟩
      simp only [Cleanup.expired, cutoff]
      rcases List.mem_append.mp member with old | new
      · obtain ⟨x, at_, past⟩ := proper.gone i row old
        obtain rfl := Option.some.inj (found.symm.trans at_)
        exact past
      · obtain ⟨row', inside, pair⟩ := List.mem_map.mp new
        obtain rfl := (Prod.mk.inj pair).2
        exact expired row' inside
    · rcases List.mem_append.mp member with old | new
      · obtain ⟨x, at_, past⟩ := proper.gone j row old
        exact ⟨x, by rw [List.getElem?_set_ne same, at_], past⟩
      · obtain ⟨row', -, pair⟩ := List.mem_map.mp new
        exact absurd (Prod.mk.inj pair).1 same

theorem History.Proper.started {options : CleanupOptions} (proper : s.Proper raw)
    (stepped : step raw s (.start options) = some t) : t.Proper raw := by
  have unique := unique_of_step proper.unique stepped
  have later : ∀ {i : ℕ} {c : Cleanup}, c.Proper raw s i → t.gone = s.gone → c.Proper raw t i :=
    fun old gone => old.later stepped (by rw [gone])
  obtain rfl := Option.some.inj stepped
  refine ⟨unique, fun i c found => ?_, fun i row member => ?_⟩
  · rcases Nat.lt_or_ge i s.cleanups.length with below | above
    · rw [List.getElem?_append_left below] at found
      exact later (proper.cleanups i c found) rfl
    · -- nothing has been deleted under the number of a new cleanup
      have new := (List.getElem?_append_right above).symm.trans found
      have unused : s.gone.countP (fun x => decide (x.1 = i)) = 0 := by
        refine List.countP_eq_zero.mpr fun x member mine => ?_
        obtain ⟨c', at_, -⟩ := proper.gone x.1 x.2 member
        have below := (List.getElem?_eq_some_iff.mp at_).1
        have same := of_decide_eq_true mine
        omega
      have first : i - s.cleanups.length = 0 := by
        have inside := (List.getElem?_eq_some_iff.mp new).1
        simpa using inside
      rw [first] at new
      obtain rfl := Option.some.inj new
      refine ⟨rfl, unused.symm, ?_⟩
      simp only [Cleanup.Fits, Nat.zero_add, Nat.one_mul]
  · obtain ⟨c, at_, expired⟩ := proper.gone i row member
    have below := (List.getElem?_eq_some_iff.mp at_).1
    exact ⟨c, (List.getElem?_append_left below).trans at_, expired⟩

theorem History.Proper.step {e : Event} (proper : s.Proper raw)
    (stepped : step raw s e = some t) : t.Proper raw := by
  cases e with
  | tick ms =>
    have same := Option.some.inj stepped
    exact proper.still stepped (same ▸ rfl) (same ▸ rfl)
  | store row =>
    obtain ⟨-, same⟩ := store_of_step stepped
    exact proper.still stepped (same ▸ rfl) (same ▸ rfl)
  | start options => exact proper.started stepped
  | select i ids =>
    obtain ⟨c, found, selecting, ⟨nodup, inside, size⟩, same⟩ := select_of_step stepped
    have old := proper.cleanups i c found
    refine proper.moved stepped found
      (show t.cleanups = s.cleanups.set i (c.selected ids) by rw [same]; rfl) rfl ⟨old.cutoff, ?_, ?_⟩
      ⟨[], by simp [same, History.put], by simp⟩
    · rw [same]
      exact old.counted
    · have counts : c.totalDeleted + c.size = c.batchesProcessed * c.size := by
        have fits := old.fits
        rwa [selecting] at fits
      refine ⟨counts, size ▸ Nat.min_le_left _ _, fun id member => ?_, fun row stored chosen => ?_⟩
      · obtain ⟨row, selected, rfl⟩ := List.mem_map.mp (inside member)
        rw [same]
        exact List.mem_map_of_mem (List.mem_append_left _ (List.mem_filter.mp selected).1)
      · obtain ⟨row', selected, sameId⟩ := List.mem_map.mp (inside chosen)
        obtain ⟨member, expired⟩ := List.mem_filter.mp selected
        -- the selected row with this identifier is the stored one
        have stored' : row' ∈ t.stored := by
          rw [same]
          exact List.mem_append_left _ member
        have unique := unique_of_step proper.unique stepped
        exact List.inj_on_of_nodup_map unique stored' stored sameId ▸ expired
  | delete i =>
    obtain ⟨c, ids, found, deleting, -, rows, gone, cleanups⟩ := delete_of_step stepped
    have old := proper.cleanups i c found
    have fits := old.fits
    rw [deleting] at fits
    obtain ⟨counts, short, -, expired⟩ := fits
    refine proper.moved stepped found cleanups rfl ⟨old.cutoff, ?_, ?_⟩
      ⟨_, gone, fun row member => ?_⟩
    · rw [gone, List.countP_append, List.countP_map]
      have all : (s.rows.filter fun row => decide (row.id ∈ ids)).countP
          ((fun x => decide (x.1 = i)) ∘ fun row => (i, row)) =
          (s.rows.filter fun row => decide (row.id ∈ ids)).length :=
        List.countP_eq_length.mpr (by simp)
      rw [all, ← old.counted]
      rfl
    · exact deleted_fits counts ((batch_length_le proper.unique ids).trans short)
    · obtain ⟨stored, chosen⟩ := List.mem_filter.mp member
      exact expired row (List.mem_append_left _ stored) (of_decide_eq_true chosen)
  | fail i =>
    obtain ⟨c, found, -, same⟩ := fail_of_step stepped
    have old := proper.cleanups i c found
    refine proper.moved stepped found
      (show t.cleanups = s.cleanups.set i { c with phase := .failed } by rw [same]; rfl) rfl
      ⟨old.cutoff, ?_, ?_⟩
      ⟨[], by simp [same, History.put], by simp⟩
    · rw [same]
      exact old.counted
    · exact old.fits.full

theorem proper_of_run {es : List Event} (proper : s.Proper raw)
    (ran : Machine.run (Locations.step raw) s es = some t) : t.Proper raw :=
  Machine.invariant_of_run (fun _ _ _ proper stepped => proper.step stepped) proper ran

/-- Nothing has been cleaned up yet. -/
theorem proper_start {rows : List WorkerLocation} (unique : (rows.map WorkerLocation.id).Nodup) :
    History.Proper raw { rows } :=
  ⟨by simpa [History.stored] using unique, by simp, by simp⟩

theorem stored_of_run {es : List Event} (ran : Machine.run (Locations.step raw) s es = some t) :
    t.stored.Perm (s.stored ++ storedBy es) := by
  induction es generalizing s with
  | nil =>
    obtain rfl := Option.some.inj ran
    simp [storedBy]
  | cons e es ih =>
    obtain ⟨u, stepped, rest⟩ := Option.bind_eq_some_iff.mp ran
    have parts : storedBy (e :: es) = storedBy [e] ++ storedBy es := by
      rw [storedBy, storedBy, storedBy, ← List.filterMap_append]
      rfl
    rw [parts, ← List.append_assoc]
    exact (ih rest).trans ((stored_of_step stepped).append_right _)

end Invariant

/-! ### Results -/

section Results

variable {raw : Option Text} {rows : List WorkerLocation} {es : List Event} {s t : History}

def seenAt (id : Id) (updatedAt : ℕ) : WorkerLocation := ⟨id, "worker", ⟨0, 0⟩, updatedAt⟩

def recorded : List WorkerLocation := [seenAt "a" 0, seenAt "b" (40 * 86400000)]

/-- A cleanup in batches of one row, while a location is stored. -/
def sweep : List Event :=
  [.tick (40 * 86400000), .start { batchSize := some 1 }, .select 0 ["a"],
    .store (seenAt "c" (40 * 86400000)), .delete 0, .select 0 [], .delete 0]

def sweeper : Cleanup where
  options := { batchSize := some 1 }
  startedAt := 40 * 86400000
  cutoffDate := 10 * 86400000

/-- After the first two events. -/
def begun : History where
  now := 40 * 86400000
  rows := recorded
  cleanups := [sweeper]

def swept : History where
  now := 40 * 86400000
  rows := [seenAt "b" (40 * 86400000), seenAt "c" (40 * 86400000)]
  gone := [(0, seenAt "a" 0)]
  cleanups := [{ sweeper with phase := .returned, totalDeleted := 1, batchesProcessed := 2 }]

theorem swept_of_run : Machine.run (step none) { rows := recorded } sweep = some swept := by
  decide

/-- No row of the history is lost but to a cleanup, and a cleanup deletes only rows that were
older than its cutoff; without an explicit window they are more than a day older than its
start. -/
theorem only_expired_deleted (unique : (rows.map WorkerLocation.id).Nodup)
    (ran : Machine.run (step raw) { rows } es = some t) :
    (t.rows ++ t.gone.map Prod.snd).Perm (rows ++ storedBy es) ∧
    ∀ i row, (i, row) ∈ t.gone → ∃ c, t.cleanups[i]? = some c ∧
      (row.updatedAt : ℤ) < c.cutoffDate ∧
      (c.options.retentionDays = none → (row.updatedAt : ℤ) + dayMs < c.startedAt) := by
  refine ⟨by simpa [History.stored] using stored_of_run ran, fun i row member => ?_⟩
  have proper := proper_of_run (proper_start unique) ran
  obtain ⟨c, found, expired⟩ := proper.gone i row member
  have past : (row.updatedAt : ℤ) < c.cutoffDate := of_decide_eq_true expired
  refine ⟨c, found, past, fun implicit => ?_⟩
  have cutoff := (proper.cleanups i c found).cutoff
  have days := (getRetentionDays_bounded raw).1
  rw [implicit, getExpirationCutoffDate, Option.getD_none] at cutoff
  have long : dayMs ≤ getRetentionDays raw * dayMs := by
    simp only [dayMs]
    omega
  omega

theorem only_expired_deleted_sweeping :
    ∃ c, swept.cleanups[0]? = some c ∧ (0 : ℤ) < c.cutoffDate ∧
      (c.options.retentionDays = none → (0 : ℤ) + dayMs < c.startedAt) :=
  (only_expired_deleted (by decide) swept_of_run).2 0 (seenAt "a" 0) (by decide)

/-- Every batch of a cleanup but the last deletes a full batch, so the number of batches follows
from the number of deleted rows, and no cleanup goes on for longer than there are rows. -/
theorem batches_of_cleanup (unique : (rows.map WorkerLocation.id).Nodup)
    (ran : Machine.run (step raw) { rows } es = some t) {i : ℕ} {c : Cleanup}
    (found : t.cleanups[i]? = some c) :
    c.totalDeleted = t.gone.countP (fun x => decide (x.1 = i)) ∧
    (c.phase = .returned → c.batchesProcessed = c.totalDeleted / c.size + 1) ∧
    c.batchesProcessed ≤ (rows ++ storedBy es).length / c.size + 1 := by
  have proper := (proper_of_run (proper_start unique) ran).cleanups i c found
  have positive : 0 < c.size := c.options.size_pos
  refine ⟨proper.counted, fun returned => ?_, ?_⟩
  · have fits := proper.fits
    rw [returned] at fits
    obtain ⟨last, short, counts⟩ := fits
    have quotient : (c.totalDeleted + c.size) / c.size = c.batchesProcessed := by
      rw [counts, Nat.mul_comm, Nat.mul_add_div positive, Nat.div_eq_of_lt short, Nat.add_zero]
    rw [← quotient, Nat.add_div_right _ positive]
  · have all : c.totalDeleted ≤ (rows ++ storedBy es).length := by
      have moved := (stored_of_run ran).length_eq
      simp only [History.stored, List.map_nil, List.append_nil] at moved
      rw [← moved, proper.counted]
      refine List.countP_le_length.trans ?_
      simp
    have below : c.batchesProcessed ≤ (c.totalDeleted + c.size) / c.size :=
      (Nat.le_div_iff_mul_le positive).mpr proper.fits.full
    rw [Nat.add_div_right _ positive] at below
    exact below.trans (Nat.succ_le_succ (Nat.div_le_div_right all))

theorem batches_of_cleanup_sweeping : (1 : ℕ) = swept.gone.countP (fun x => decide (x.1 = 0)) ∧
    (Phase.returned = .returned → 2 = 1 / 1 + 1) ∧ 2 ≤ (recorded ++ storedBy sweep).length / 1 + 1 :=
  batches_of_cleanup (i := 0) (by decide) swept_of_run
    (show swept.cleanups[0]? = some _ from rfl)

/-! ### A cleanup that runs alone -/

/-- What a cleanup that deletes alone has still to do about the rows that were there first. -/
def Clears (rows : List WorkerLocation) (s : History) (c : Cleanup) : Phase → Prop
  | .selecting | .failed => True
  | .deleting ids => ids.Nodup ∧ ids ⊆ s.rows.map WorkerLocation.id ∧
      (ids.length < c.size → ∀ row ∈ s.rows, c.expired row = true → row ∈ rows → row.id ∈ ids)
  | .returned => ∀ row ∈ s.rows, c.expired row = true → row ∉ rows

/-- A subquery that stays below its limit selects every expired row. -/
theorem all_selected {c : Cleanup} {ids : List Id} (selects : s.Selects c ids)
    (short : ids.length < c.size) {row : WorkerLocation} (stored : row ∈ s.rows)
    (expired : c.expired row = true) : row.id ∈ ids := by
  obtain ⟨nodup, inside, size⟩ := selects
  have all : ((s.rows.filter c.expired).map WorkerLocation.id).length ≤ ids.length := by
    rw [List.length_map]
    omega
  have perm := (nodup.subperm inside).perm_of_length_le all
  exact perm.symm.subset (List.mem_map_of_mem (List.mem_filter.mpr ⟨stored, expired⟩))

/-- When all selected rows are there, the batch deletes as many. -/
theorem batch_length {ids : List Id} (unique : (s.stored.map WorkerLocation.id).Nodup)
    (nodup : ids.Nodup) (present : ids ⊆ s.rows.map WorkerLocation.id) :
    (s.rows.filter fun row => decide (row.id ∈ ids)).length = ids.length := by
  refine Nat.le_antisymm (batch_length_le unique ids) ?_
  have found : ids ⊆ (s.rows.filter fun row => decide (row.id ∈ ids)).map WorkerLocation.id := by
    intro id member
    obtain ⟨row, stored, rfl⟩ := List.mem_map.mp (present member)
    exact List.mem_map_of_mem (List.mem_filter.mpr ⟨stored, decide_eq_true member⟩)
  simpa using (nodup.subperm found).length_le

/-- The cleanup with its number and its options, and what it has still to do. -/
def Clearing (rows : List WorkerLocation) (i : ℕ) (c : Cleanup) (s : History) : Prop :=
  rows ⊆ s.stored ∧ ∃ now, s.cleanups[i]? = some now ∧ now.cutoffDate = c.cutoffDate ∧
    now.options = c.options ∧ Clears rows s now now.phase

theorem Clearing.step {i : ℕ} {c : Cleanup} {e : Event} (proper : s.Proper raw)
    (clearing : Clearing rows i c s) (alone : ∀ j, e = .delete j → j = i)
    (stepped : step raw s e = some t) : Clearing rows i c t := by
  obtain ⟨known, now, found, cutoff, options, clears⟩ := clearing
  have below := (List.getElem?_eq_some_iff.mp found).1
  refine ⟨fun row member => (grown_of_step stepped).1 (known member), ?_⟩
  cases e with
  | tick ms =>
    obtain rfl := Option.some.inj stepped
    exact ⟨now, found, cutoff, options, clears⟩
  | start opts =>
    obtain rfl := Option.some.inj stepped
    exact ⟨now, (List.getElem?_append_left below).trans found, cutoff, options, clears⟩
  | store row =>
    obtain ⟨fresh, rfl⟩ := store_of_step stepped
    -- a location that is stored meanwhile was not there first
    have new : row ∉ rows := fun old => fresh (List.mem_map_of_mem (known old))
    refine ⟨now, found, cutoff, options, ?_⟩
    cases phase : now.phase with
    | selecting | failed => trivial
    | deleting ids =>
      rw [phase] at clears
      obtain ⟨nodup, present, all⟩ := clears
      refine ⟨nodup, fun id member => ?_, fun short x member expired old => ?_⟩
      · simp only [List.map_append]
        exact List.mem_append_left _ (present member)
      · rcases List.mem_append.mp member with stored | added
        · exact all short x stored expired old
        · exact absurd (List.mem_singleton.mp added ▸ old) new
    | returned =>
      rw [phase] at clears
      intro x member expired old
      rcases List.mem_append.mp member with stored | added
      · exact clears x stored expired old
      · exact new (List.mem_singleton.mp added ▸ old)
  | select j ids =>
    obtain ⟨x, at_, selecting, selects, rfl⟩ := select_of_step stepped
    by_cases mine : j = i
    · subst mine
      obtain rfl := Option.some.inj (found.symm.trans at_)
      refine ⟨now.selected ids, List.getElem?_set_self below, cutoff, options, selects.1, ?_, ?_⟩
      · exact fun id member =>
          (List.filter_sublist.map WorkerLocation.id).subset (selects.2.1 member)
      · exact fun short row stored expired _ => all_selected selects short stored expired
    · exact ⟨now, (List.getElem?_set_ne mine).trans found, cutoff, options, clears⟩
  | fail j =>
    obtain ⟨x, at_, -, rfl⟩ := fail_of_step stepped
    by_cases mine : j = i
    · subst mine
      obtain rfl := Option.some.inj (found.symm.trans at_)
      exact ⟨_, List.getElem?_set_self below, cutoff, options, trivial⟩
    · exact ⟨now, (List.getElem?_set_ne mine).trans found, cutoff, options, clears⟩
  | delete j =>
    obtain rfl := alone j rfl
    obtain ⟨x, ids, at_, deleting, -, left, -, cleanups⟩ := delete_of_step stepped
    obtain rfl := Option.some.inj (found.symm.trans at_)
    rw [deleting] at clears
    obtain ⟨nodup, present, all⟩ := clears
    rw [batch_length proper.unique nodup present] at cleanups
    refine ⟨now.deleted ids.length, by rw [cleanups, List.getElem?_set_self below], cutoff,
      options, ?_⟩
    -- a batch below the limit is the last one, and its subquery saw every expired row
    by_cases short : ids.length < now.size
    · have phase : (now.deleted ids.length).phase = .returned := if_pos short
      rw [phase]
      intro row member expired old
      rw [left] at member
      obtain ⟨stored, spared⟩ := List.mem_filter.mp member
      exact of_decide_eq_true spared (all short row stored expired old)
    · have phase : (now.deleted ids.length).phase = .selecting := if_neg short
      rw [phase]
      trivial

/-- A cleanup that returns, while no other cleanup deletes but locations are stored, leaves none of
the expired rows that were there when it began. -/
theorem cleanup_leaves_none (unique : (rows.map WorkerLocation.id).Nodup)
    (before : Machine.run (step raw) { rows } es = some s) {i : ℕ} {c : Cleanup}
    (found : s.cleanups[i]? = some c) (begins : c.phase = .selecting) {more : List Event}
    (alone : ∀ j, .delete j ∈ more → j = i) (ran : Machine.run (step raw) s more = some t)
    {last : Cleanup} (ended : t.cleanups[i]? = some last) (returned : last.phase = .returned) :
    ∀ row ∈ t.rows, (row.updatedAt : ℤ) < c.cutoffDate → row ∉ s.rows := by
  have first : Clearing s.rows i c s := by
    refine ⟨fun row member => List.mem_append_left _ member, c, found, rfl, rfl, ?_⟩
    rw [begins]
    trivial
  have clearing : Clearing s.rows i c t := by
    have proper := proper_of_run (proper_start unique) before
    -- by induction on the events since it began; the rows of the beginning stay the same
    clear found ended returned before
    generalize s.rows = there at first ⊢
    induction more generalizing s with
    | nil => exact Option.some.inj ran ▸ first
    | cons e more ih =>
      obtain ⟨u, stepped, rest⟩ := Option.bind_eq_some_iff.mp ran
      have next := first.step proper (fun j same => alone j (same ▸ List.mem_cons_self)) stepped
      exact ih (fun j member => alone j (List.mem_cons_of_mem _ member)) rest
        (proper.step stepped) next
  obtain ⟨-, now, at_, cutoff, -, clears⟩ := clearing
  obtain rfl := Option.some.inj (at_.symm.trans ended)
  rw [returned] at clears
  intro row stored past
  exact clears row stored (by simpa [Cleanup.expired, cutoff] using past)

theorem cleanup_leaves_none_sweeping : swept.rows.map WorkerLocation.id = ["b", "c"] ∧
    ∀ row ∈ swept.rows, (row.updatedAt : ℤ) < sweeper.cutoffDate → row ∉ recorded :=
  ⟨rfl, cleanup_leaves_none (i := 0) (s := begun) (by decide)
    (show Machine.run (step none) { rows := recorded } (sweep.take 2) = some begun by decide)
    rfl rfl (show ∀ j, Event.delete j ∈ sweep.drop 2 → j = 0 by simp [sweep])
    (show Machine.run (step none) begun (sweep.drop 2) = some swept by decide) rfl rfl⟩

end Results

end LabourBaba.Locations
