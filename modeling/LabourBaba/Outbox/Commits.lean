import LabourBaba.Outbox.Services

/-!
# What an outbox statement may commit

One constructor of `Change` for each UPDATE, with what it finds in the rows it sets, and one
of `Commit` for each other statement that changes the store. `Later` is what a call may count
on while others commit: events stay with their bound on attempts, a SENT or FAILED event keeps
its status, and the journal only grows. The invariant `Wf` ties the columns of a row to each
other and the attempts to the journal.
-/
namespace LabourBaba.Outbox

open Store

/-! ### Rows -/

/-- The columns of the lifecycle agree with the status. -/
structure OutboxRecord.Coherent (r : OutboxRecord) : Prop where
  bounded : r.attempts ≤ r.maxAttempts
  room : r.status ≠ .FAILED → r.attempts < r.maxAttempts
  failed : r.status = .FAILED → r.failedAt.isSome
  sent : r.status = .SENT → r.processedAt.isSome

theorem OutboxStatus.ne_failed {s : OutboxStatus} (unfinished : s.unfinished = true) :
    s ≠ .FAILED := by
  rintro rfl
  cases unfinished

/-- The attempts that an update sets. -/
def Update.attempts : Update → Option Nat
  | .giveUp attempts _ _ | .retry attempts _ _ _ => some attempts
  | _ => none

theorem Update.on_attempts (u : Update) (r : OutboxRecord) :
    (u.on r).attempts = u.attempts.getD r.attempts := by
  cases u with
  | sent ch | unsent ch => cases ch <;> rfl
  | _ => rfl

theorem Update.on_maxAttempts (u : Update) (r : OutboxRecord) :
    (u.on r).maxAttempts = r.maxAttempts := by
  cases u with
  | sent ch | unsent ch => cases ch <;> rfl
  | _ => rfl

theorem Update.attemptsOf_entry (u : Update) (r : OutboxRecord) (id : Id) :
    (u.entry r).bind (Entry.attemptsOf id) = if r.id = id then u.attempts else none := by
  by_cases same : r.id = id <;> cases u <;> simp [Update.entry, Entry.attemptsOf, Update.attempts, same]

theorem failureUpdate_attempts (record : OutboxRecord) (isPermanent : Bool) (message : String)
    (t : Nat) : (failureUpdate record isPermanent message t).attempts = some (record.attempts + 1) := by
  simp only [failureUpdate]
  split <;> rfl

/-! ### Rows of the table -/

theorem event_update (ids : List Id) (u : Update) (d : Db) (id : Id) :
    ((Write.update ids u).apply d).event id =
      (d.event id).map fun r => if id ∈ ids then u.on r else r :=
  Table.find_modify _ _ u.on _ u.on_id

theorem event_id {d : Db} {id : Id} {r : OutboxRecord} (found : d.event id = some r) : r.id = id :=
  Table.find_key found

/-- The attempts of an event after its first `k` recorded failures. -/
def Db.attemptsAfter (d : Db) (id : Id) (k : Nat) : Option Nat := (0 :: d.recorded id)[k]?

theorem recorded_update (ids : List Id) (u : Update) {d : Db}
    (unique : Table.Unique OutboxRecord.id d.events) (id : Id) :
    ((Write.update ids u).apply d).recorded id = d.recorded id ++
      (if id ∈ ids ∧ (d.event id).isSome then u.attempts.toList else []) := by
  have single : (d.entries ids u).filterMap (Entry.attemptsOf id) =
      (d.event id).toList.filterMap fun r =>
        if r.id ∈ ids then (u.entry r).bind (Entry.attemptsOf id) else none := by
    rw [Db.entries, List.filterMap_filterMap, List.filterMap_filter]
    have other : ∀ r ∈ d.events, r.id ≠ id →
        (if decide (r.id ∈ ids) = true then (u.entry r).bind (Entry.attemptsOf id) else none) =
          none := by
      intro r _ differ
      rw [u.attemptsOf_entry, if_neg differ]
      split <;> rfl
    rw [Table.filterMap_of_key unique other]
    simp only [decide_eq_true_eq]
    rfl
  rw [Db.recorded, Write.apply, List.filterMap_append, single]
  cases found : d.event id with
  | none => simp [Db.recorded]
  | some r =>
    have named := event_id found
    by_cases hit : id ∈ ids
    · cases value : u.attempts <;>
        simp [Db.recorded, u.attemptsOf_entry, named, hit, value]
    · simp [Db.recorded, named, hit]

/-! ### Commits -/

/-- What an UPDATE finds in the rows that it sets. -/
inductive Change (d : Db) : Label → List Id → Update → Prop
  | claimed {ids : List Id} {t : Nat}
      (found : ∀ id ∈ ids, ∃ r, d.event id = some r ∧ r.status.unfinished = true) :
    Change d .claimed ids (.claim t)
  | recovered {ids : List Id} {t : Nat}
      (found : ∀ id ∈ ids, ∃ r, d.event id = some r ∧ r.status = .PROCESSING) :
    Change d .recovered ids (.recover t)
  | marked {id : Id} {claim : Option Nat} {t : Nat} {r : OutboxRecord} (found : d.event id = some r)
      (unfinished : r.status.unfinished = true) : Change d (.marked id claim) [id] (.succeed t)
  /-- The record was read when the event had `seen` failures, and was unfinished then. -/
  | failed {id : Id} {claim : Option Nat} {seen t : Nat} {r record : OutboxRecord}
      {isPermanent : Bool} {message : String} (found : d.event id = some r)
      (unfinished : r.status.unfinished = true) (same : record.maxAttempts = r.maxAttempts)
      (below : record.attempts < record.maxAttempts)
      (read : d.attemptsAfter id seen = some record.attempts) :
    Change d (.failed id claim seen) [id] (failureUpdate record isPermanent message t)
  | sent {id : Id} {ch : Channel} {deliveredAt t : Nat} :
    Change d (.channel id ch .SENT) [id] (.sent ch deliveredAt t)
  | unsent {id : Id} {ch : Channel} {error : String} {t : Nat} :
    Change d (.channel id ch .FAILED) [id] (.unsent ch error t)
  | acknowledged {ids : List Id} {customerId : Id} {t : Nat} :
    Change d .acknowledged ids (.acknowledge customerId t)

inductive Commit (d : Db) : Label → List Write → Prop
  | idle {ℓ : Label} : Commit d ℓ []
  | created {new : NewEvent} {t : Nat}
      (free : ∀ old ∈ d.events, (new.record t).clash old = false) :
    Commit d .created [.create (new.record t)]
  | changed {ℓ : Label} {ids : List Id} {u : Update} (change : Change d ℓ ids u) :
    Commit d ℓ [.update ids u]
  | started {claim : Nat} : Commit d (.started claim) [.start claim]
  /-- A delivery emits only on a channel that its record does not have as SENT. -/
  | emitted {claim : Nat} {ch : Channel} {record : OutboxRecord}
      (held : d.journal[claim]? = some (.claimed record))
      (unsent : (record.channel ch).status ≠ .SENT) :
    Commit d (.emitted claim ch) [.emit claim ch]
  | ticked {ms : Nat} : Commit d .ticked [.tick ms]

theorem Change.keepsCoherent {d : Db} {ℓ : Label} {ids : List Id} {u : Update} {id : Id}
    {r : OutboxRecord} (change : Change d ℓ ids u) (hit : id ∈ ids) (found : d.event id = some r)
    (coherent : r.Coherent) : (u.on r).Coherent := by
  cases change with
  | claimed present =>
    obtain ⟨r', found', unfinished⟩ := present id hit
    obtain rfl := Option.some.inj (found.symm.trans found')
    exact ⟨coherent.bounded, fun _ => coherent.room (OutboxStatus.ne_failed unfinished),
      by simp [Update.on], by simp [Update.on]⟩
  | recovered present =>
    obtain ⟨r', found', processing⟩ := present id hit
    obtain rfl := Option.some.inj (found.symm.trans found')
    have unfailed : r.status ≠ .FAILED := by simp [processing]
    exact ⟨coherent.bounded, fun _ => coherent.room unfailed, by simp [Update.on],
      by simp [Update.on]⟩
  | marked found' unfinished =>
    obtain rfl := List.mem_singleton.mp hit
    obtain rfl := Option.some.inj (found.symm.trans found')
    exact ⟨coherent.bounded, fun _ => coherent.room (OutboxStatus.ne_failed unfinished),
      by simp [Update.on], fun _ => rfl⟩
  | @failed _ _ _ _ r' record _ _ found' _ same below =>
    obtain rfl := List.mem_singleton.mp hit
    obtain rfl := Option.some.inj (found.symm.trans found')
    simp only [failureUpdate]
    split
    next =>
      exact ⟨by simp only [Update.on]; omega, fun open_ => absurd rfl open_, fun _ => rfl,
        by simp [Update.on]⟩
    next open_ =>
      have room : record.attempts + 1 < r.maxAttempts := by
        rw [← same]
        exact Nat.lt_of_not_le fun full => open_ (Or.inr full)
      exact ⟨Nat.le_of_lt room, fun _ => room, by simp [Update.on], by simp [Update.on]⟩
  | @sent _ ch => cases ch <;> exact ⟨coherent.1, coherent.2, coherent.3, coherent.4⟩
  | @unsent _ ch => cases ch <;> exact ⟨coherent.1, coherent.2, coherent.3, coherent.4⟩
  | acknowledged => exact ⟨coherent.1, coherent.2, coherent.3, coherent.4⟩

/-- No update moves an event out of SENT or FAILED. -/
theorem Change.keepsFinished {d : Db} {ℓ : Label} {ids : List Id} {u : Update} {id : Id}
    {r : OutboxRecord} (change : Change d ℓ ids u) (hit : id ∈ ids) (found : d.event id = some r)
    (finished : r.status.unfinished = false) : (u.on r).status = r.status := by
  cases change with
  | claimed present =>
    obtain ⟨r', found', unfinished⟩ := present id hit
    obtain rfl := Option.some.inj (found.symm.trans found')
    simp [finished] at unfinished
  | recovered present =>
    obtain ⟨r', found', processing⟩ := present id hit
    obtain rfl := Option.some.inj (found.symm.trans found')
    simp [processing, OutboxStatus.unfinished] at finished
  | marked found' unfinished =>
    obtain rfl := List.mem_singleton.mp hit
    obtain rfl := Option.some.inj (found.symm.trans found')
    simp [finished] at unfinished
  | failed found' unfinished =>
    obtain rfl := List.mem_singleton.mp hit
    obtain rfl := Option.some.inj (found.symm.trans found')
    simp [finished] at unfinished
  | @sent _ ch => cases ch <;> rfl
  | @unsent _ ch => cases ch <;> rfl
  | acknowledged => rfl

/-! ### What no commit undoes -/

structure Later (d d' : Db) : Prop where
  events : ∀ id r, d.event id = some r → ∃ r', d'.event id = some r' ∧
    r'.maxAttempts = r.maxAttempts ∧ (r.status.unfinished = false → r'.status = r.status)
  journal : d.journal <+: d'.journal

namespace Later

theorem refl (d : Db) : Later d d :=
  ⟨fun _ r found => ⟨r, found, rfl, fun _ => rfl⟩, List.prefix_refl _⟩

theorem trans {d d' d'' : Db} (first : Later d d') (second : Later d' d'') : Later d d'' := by
  refine ⟨fun id r found => ?_, first.journal.trans second.journal⟩
  obtain ⟨r', found', max', stays'⟩ := first.events id r found
  obtain ⟨r'', found'', max'', stays''⟩ := second.events id r' found'
  refine ⟨r'', found'', max''.trans max', fun finished => ?_⟩
  rw [stays'' (by rw [stays' finished]; exact finished), stays' finished]

/-- What the journal held at a place it still holds. -/
theorem entry {d d' : Db} (later : Later d d') {n : Nat} {e : Entry}
    (held : d.journal[n]? = some e) : d'.journal[n]? = some e := by
  obtain ⟨added, grown⟩ := later.journal
  rw [← grown, List.getElem?_append_left (List.getElem?_eq_some_iff.mp held).1]
  exact held

theorem attemptsAfter {d d' : Db} (later : Later d d') {id : Id} {k n : Nat}
    (read : d.attemptsAfter id k = some n) : d'.attemptsAfter id k = some n := by
  obtain ⟨added, grown⟩ := later.journal
  simp only [Db.attemptsAfter, Db.recorded, ← grown, List.filterMap_append] at read ⊢
  rw [← List.cons_append, List.getElem?_append_left (List.getElem?_eq_some_iff.mp read).1]
  exact read

end Later

theorem Commit.later {d : Db} {ℓ : Label} {ws : List Write} (commit : Commit d ℓ ws) :
    Later d (applyAll ws d) := by
  have same := Later.refl d
  cases commit with
  | idle => exact same
  | created free =>
    refine { same with events := fun id r found => ⟨r, ?_, rfl, fun _ => rfl⟩ }
    exact Table.find_insert_of_some found
  | @changed _ ids u change =>
    refine ⟨fun id r found => ?_, List.prefix_append _ _⟩
    refine ⟨if id ∈ ids then u.on r else r, ?_, ?_, fun finished => ?_⟩
    · simp only [applyAll_cons, applyAll_nil, write_eq_apply, event_update, found, Option.map_some]
    · split
      · exact u.on_maxAttempts r
      · rfl
    · split
      next hit => exact change.keepsFinished hit found finished
      next => rfl
  | started | emitted => exact { same with journal := List.prefix_append _ _ }
  | ticked => exact { same with }

/-! ### The invariant -/

structure Wf (d : Db) : Prop where
  ids : Table.Unique OutboxRecord.id d.events
  coherent : ∀ id r, d.event id = some r → r.Coherent
  /-- The attempts of an event are those that its last recorded failure has left. -/
  counted : ∀ id r, d.event id = some r → d.attemptsAfter id (d.failures id) = some r.attempts
  /-- No failure was recorded of an event that does not exist. -/
  known : ∀ id, d.event id = none → d.recorded id = []

theorem Wf.empty : Wf {} where
  ids := List.nodup_nil
  coherent _ _ found := by cases found
  counted _ _ found := by cases found
  known _ _ := rfl

theorem attemptsAfter_append {d d' : Db} {id : Id} {ns : List Nat}
    (grown : d'.recorded id = d.recorded id ++ ns) {n : Nat}
    (last : ns.getLast? = some n ∨ ns = [] ∧ d.attemptsAfter id (d.failures id) = some n) :
    d'.attemptsAfter id (d'.failures id) = some n := by
  simp only [Db.attemptsAfter, Db.failures, grown, ← List.cons_append] at *
  rcases last with last | ⟨rfl, last⟩
  · have nonempty : ns ≠ [] := by rintro rfl; cases last
    have length : 0 < ns.length := List.length_pos_iff.mpr nonempty
    rw [List.length_append, List.getElem?_append_right (by simp only [List.length_cons]; omega)]
    rw [List.getLast?_eq_getElem?] at last
    rw [← last]
    congr 1
    simp only [List.length_cons]
    omega
  · simpa using last

theorem Wf.update {d : Db} {ℓ : Label} {ids : List Id} {u : Update} (wf : Wf d)
    (change : Change d ℓ ids u) : Wf ((Write.update ids u).apply d) := by
  have recorded := recorded_update ids u wf.ids
  refine ⟨Table.unique_modify _ _ u.on_id wf.ids, fun id r' found => ?_, fun id r' found => ?_,
    fun id missing => ?_⟩
  · rw [event_update, Option.map_eq_some_iff] at found
    obtain ⟨r, found, rfl⟩ := found
    split
    next hit => exact change.keepsCoherent hit found (wf.coherent id r found)
    next => exact wf.coherent id r found
  · rw [event_update, Option.map_eq_some_iff] at found
    obtain ⟨r, found, rfl⟩ := found
    refine attemptsAfter_append (recorded id) ?_
    by_cases hit : id ∈ ids
    · rw [if_pos hit, if_pos ⟨hit, by rw [found]; rfl⟩, u.on_attempts]
      -- the update either sets the attempts and is recorded, or does neither
      cases u.attempts with
      | none => exact Or.inr ⟨rfl, wf.counted id r found⟩
      | some n => exact Or.inl rfl
    · rw [if_neg hit, if_neg fun both => hit both.1]
      exact Or.inr ⟨rfl, wf.counted id r found⟩
  · have missing' : d.event id = none := by simpa [event_update] using missing
    rw [recorded, missing', wf.known id missing']
    simp

theorem Commit.keepsWf {d : Db} {ℓ : Label} {ws : List Write} (wf : Wf d)
    (commit : Commit d ℓ ws) : Wf (applyAll ws d) := by
  cases commit with
  | idle => exact wf
  | @created new t free =>
    have inserted : Table.insert OutboxRecord.clash d.events (new.record t) =
        d.events ++ [new.record t] := Table.insert_of_free free
    have event : ∀ id, (applyAll [Write.create (new.record t)] d).event id =
        (d.event id).or (if new.id = id then some (new.record t) else none) := by
      intro id
      simp only [applyAll_cons, applyAll_nil, write_eq_apply, Write.apply, Db.event, inserted]
      rw [Table.find_append, Table.find_cons]
      rfl
    have fresh : d.event new.id = none := Table.find_none_iff.mpr fun old member same => by
      have clash := free old member
      simp [OutboxRecord.clash, NewEvent.record, same] at clash
    refine ⟨?_, fun id r found => ?_, fun id r found => ?_, fun id missing => ?_⟩
    · refine Table.unique_insert _ (fun old same => ?_) wf.ids
      simp [OutboxRecord.clash, same]
    · rw [event, Option.or_eq_some_iff] at found
      rcases found with found | ⟨-, found⟩
      · exact wf.coherent id r found
      · split at found
        · obtain rfl := Option.some.inj found
          exact ⟨Nat.zero_le _, fun _ => new.positive, by simp [NewEvent.record], by simp [NewEvent.record]⟩
        · cases found
    · rw [event, Option.or_eq_some_iff] at found
      rcases found with found | ⟨missing, found⟩
      · exact wf.counted id r found
      · split at found
        next named =>
          obtain rfl := Option.some.inj found
          have none : d.recorded id = [] := wf.known id missing
          show d.attemptsAfter id (d.failures id) = some 0
          simp [Db.attemptsAfter, Db.failures, none]
        next => cases found
    · rw [event, Option.or_eq_none_iff] at missing
      exact wf.known id missing.1
  | changed change => exact wf.update change
  | started | emitted =>
    have same : ∀ e : Entry, (∀ id, e.attemptsOf id = none) → ∀ id,
        (d.journal ++ [e]).filterMap (Entry.attemptsOf id) = d.recorded id := by
      intro e quiet id
      simp [Db.recorded, quiet]
    refine ⟨wf.ids, wf.coherent, fun id r found => ?_, fun id missing => ?_⟩
    · have counted := wf.counted id r found
      simp only [Db.attemptsAfter, Db.failures, applyAll_cons, applyAll_nil, write_eq_apply,
        Write.apply, Db.recorded] at counted ⊢
      rw [same _ fun _ => rfl]
      exact counted
    · exact (same _ (fun _ => rfl) id).trans (wf.known id missing)
  | ticked => exact ⟨wf.ids, wf.coherent, wf.counted, wf.known⟩

def protocol : Protocol Label Db where
  inv := Wf
  pre _ _ := True
  guar _ ℓ d d' := ∃ ws, d' = applyAll ws d ∧ Commit d ℓ ws
  evo _ := Later
  evo_refl _ := Later.refl
  evo_trans _ _ _ _ := Later.trans
  guar_inv := by
    rintro _ ℓ d _ wf ⟨ws, rfl, commit⟩
    exact commit.keepsWf wf
  guar_evo := by
    rintro _ _ ℓ d _ _ _ ⟨ws, rfl, commit⟩
    exact commit.later

instance : Protocol.Lax protocol := ⟨fun _ _ _ => trivial⟩

end LabourBaba.Outbox
