import LabourBaba.Store.Calls
import LabourBaba.Store.Effects

/-!
# Histories

An append-only table keeps what commits have recorded, in their order. A history
replays a state when its records lead to it from the initial one, each leaving the
state that the record before it entered. `Trail` is the invariant that the records about
each row of a table replay the row: it is kept by writes that tell, row by row, how they
move it (`Told`).
-/
namespace Store

variable {D W K R S : Type} [RowStore D W K]

/-- A table to which a write appends at most one record, and which nothing else touches. -/
structure Appends (log : D → List R) (entry : W → Option R) : Prop where
  write : ∀ w d, log (RowStore.write w d) = log d ++ (entry w).toList

theorem Appends.applyAll {log : D → List R} {entry : W → Option R} (appends : Appends log entry)
    (ws : List W) (d : D) : log (Store.applyAll ws d) = log d ++ ws.filterMap entry := by
  induction ws generalizing d with
  | nil => simp
  | cons w ws ih =>
    rw [applyAll_cons, ih, appends.write, List.append_assoc]
    cases found : entry w <;> simp [found]

/-! ### Replaying -/

variable {src dst : R → S} {allowed : R → Prop}

def Replays (src dst : R → S) (allowed : R → Prop) : S → List R → S → Prop
  | first, [], last => first = last
  | first, r :: rs, last => src r = first ∧ allowed r ∧ Replays src dst allowed (dst r) rs last

theorem Replays.single {s s' : S} {r : R} (leaves : src r = s) (entry : allowed r)
    (lands : dst r = s') : Replays src dst allowed s [r] s' :=
  ⟨leaves, entry, lands⟩

theorem Replays.append {first mid last : S} {rs rs' : List R}
    (before : Replays src dst allowed first rs mid)
    (after : Replays src dst allowed mid rs' last) :
    Replays src dst allowed first (rs ++ rs') last := by
  induction rs generalizing first with
  | nil =>
    -- the first part is empty, so it ends where it began
    rw [show first = mid from before]
    exact after
  | cons r rs ih =>
    obtain ⟨leaves, entry, rest⟩ := before
    exact ⟨leaves, entry, ih rest⟩

/-- Every record of a history is allowed. -/
theorem Replays.forall_mem {first last : S} {rs : List R}
    (replays : Replays src dst allowed first rs last) : ∀ r ∈ rs, allowed r := by
  induction rs generalizing first with
  | nil => simp
  | cons r rs ih =>
    obtain ⟨-, entry, rest⟩ := replays
    exact List.forall_mem_cons.mpr ⟨entry, ih rest⟩

/-! ### Audited tables -/

/-- A table whose rows have a state, and the records of its moves. -/
structure Audited (W Row R Key S : Type) where
  on : W → Row → Row
  entry : W → Option R
  key : Row → Key
  about : R → Key
  state : Row → S
  src : R → S
  dst : R → S
  allowed : R → Prop
  key_on : ∀ w r, key (on w r) = key r

namespace Audited

variable {Row Key : Type} [DecidableEq Key] (A : Audited W Row R Key S)

def history (k : Key) (log : List R) : List R := log.filter fun x => decide (A.about x = k)

abbrev Replays : S → List R → S → Prop := Store.Replays A.src A.dst A.allowed

/-- The records among the writes tell how these move a row. -/
def Told (ws : List W) (r : Row) : Prop :=
  A.Replays (A.state r) (A.history (A.key r) (ws.filterMap A.entry)) (A.state (onAll A.on ws r))

/-- A write that neither moves a row nor records anything. -/
def Silent (w : W) : Prop := A.entry w = none ∧ ∀ r, A.state (A.on w r) = A.state r

variable {A}

omit [DecidableEq Key] in
theorem key_onAll (ws : List W) (r : Row) : A.key (onAll A.on ws r) = A.key r :=
  onAll_same A.key (fun w _ r => A.key_on w r) r

omit [DecidableEq Key] in
theorem entries_silent {ws : List W} (silent : ∀ w ∈ ws, A.Silent w) : ws.filterMap A.entry = [] :=
  List.filterMap_eq_nil_iff.mpr fun w member => (silent w member).1

omit [DecidableEq Key] in
theorem state_silent {ws : List W} (silent : ∀ w ∈ ws, A.Silent w) (r : Row) :
    A.state (onAll A.on ws r) = A.state r :=
  onAll_same A.state (fun w member r => (silent w member).2 r) r

theorem Told.silent {ws : List W} {r : Row} (silent : ∀ w ∈ ws, A.Silent w) : A.Told ws r := by
  rw [Told, entries_silent silent, state_silent silent]
  rfl

theorem Told.append {ws vs : List W} {r : Row} (before : A.Told ws r)
    (after : A.Told vs (onAll A.on ws r)) : A.Told (ws ++ vs) r := by
  rw [Told, key_onAll] at after
  rw [Told, List.filterMap_append, history, List.filter_append, onAll_append]
  exact Replays.append before after

/-- Writes that move the row of one key and record it. -/
theorem Told.moved {ws : List W} {r : Row} {record : R} (entries : ws.filterMap A.entry = [record])
    (leaves : A.key r = A.about record → A.src record = A.state r) (legal : A.allowed record)
    (lands : A.state (onAll A.on ws r) =
      if A.key r = A.about record then A.dst record else A.state r) : A.Told ws r := by
  rw [Told, entries, lands]
  by_cases mine : A.key r = A.about record
  · have kept : A.history (A.key r) [record] = [record] := by simp [history, mine]
    rw [if_pos mine, kept]
    exact Replays.single (leaves mine) legal rfl
  · have dropped : A.history (A.key r) [record] = [] := by simp [history, Ne.symm mine]
    rw [if_neg mine, dropped]
    rfl

variable (A)

/-- Every row is what its records replay, and every record is about a row. -/
structure Trail (table : D → List Row) (log : D → List R) (first : S) (d : D) : Prop where
  replays : ∀ r ∈ table d, A.Replays first (A.history (A.key r) (log d)) (A.state r)
  stored : ∀ x ∈ log d, ∃ r ∈ table d, A.key r = A.about x

variable {A}

theorem Trail.applyAll {table : D → List Row} {log : D → List R} {first : S} {d : D} {ws : List W}
    {new : W → Row → Prop} (effects : Effects table A.on new) (appends : Appends log A.entry)
    (trail : A.Trail table log first d) (told : ∀ r ∈ table d, A.Told ws r)
    (added : ∀ r' ∈ table (applyAll ws d), (∃ r ∈ table d, r' = onAll A.on ws r) ∨
      (∀ r ∈ table d, A.key r ≠ A.key r') ∧
        A.Replays first (A.history (A.key r') (ws.filterMap A.entry)) (A.state r'))
    (stored : ∀ x ∈ ws.filterMap A.entry, ∃ r ∈ table (applyAll ws d), A.key r = A.about x) :
    A.Trail table log first (applyAll ws d) := by
  constructor
  · intro r' member
    rw [appends.applyAll, history, List.filter_append]
    rcases added r' member with ⟨r, old, rfl⟩ | ⟨fresh, begun⟩
    · rw [key_onAll]
      exact Replays.append (trail.replays r old) (told r old)
    · -- nothing was recorded about a row that was not there
      have none : (log d).filter (fun x => decide (A.about x = A.key r')) = [] := by
        refine List.filter_eq_nil_iff.mpr fun x recorded => ?_
        obtain ⟨r, old, named⟩ := trail.stored x recorded
        exact fun same => fresh r old (named.trans (of_decide_eq_true same))
      rw [none, List.nil_append]
      exact begun
  · intro x recorded
    rw [appends.applyAll] at recorded
    rcases List.mem_append.mp recorded with old | new
    · obtain ⟨r, member, named⟩ := trail.stored x old
      exact ⟨_, effects.mem_applyAll member ws, (key_onAll ws r).trans named⟩
    · exact stored x new

end Audited

/-! ### Calls that leave everything as it is -/

/-- Others may do anything to the rows that a call has not locked; the call itself may not
touch the committed store. -/
def Protocol.still (L D : Type) {W K : Type} [RowStore D W K] : Protocol L D where
  inv _ := True
  pre _ _ := True
  guar _ _ _ _ := False
  evo _ _ _ := True
  evo_refl _ _ := trivial
  evo_trans _ _ _ _ _ _ := trivial
  guar_inv _ _ _ _ _ := False.elim
  guar_evo _ _ _ _ _ _ _ := False.elim

end Store
